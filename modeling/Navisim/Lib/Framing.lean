import Mathlib.Tactic

/-!
# Length-prefixed frames

A stream of frames, each of which starts with a marker and tells its size in its header.  A
receiver skips what is no marker, and collects a frame until it has its size (`Format.feed`).
The frames of a stream, and the unfinished one at its end, depend on the stream only
(`Format.split`).  A stream of whole frames with noise between them is split into these frames
(`Format.split_pieces`).
-/

namespace Navisim.Framing

variable {α : Type*}

/-- How frames look. -/
structure Format (α : Type*) where
  isStart : α → Bool
  header : Nat
  /-- The size of the whole frame, for a frame that has its header. -/
  size : List α → Nat
  header_pos : 0 < header
  header_le_size : ∀ frame, header ≤ size frame
  size_append : ∀ frame more, header ≤ frame.length → size (frame ++ more) = size frame

namespace Format

variable (F : Format α)

/-- A frame has its header and its size. -/
def Complete (frame : List α) : Prop :=
  F.header ≤ frame.length ∧ F.size frame ≤ frame.length

instance (frame : List α) : Decidable (F.Complete frame) :=
  inferInstanceAs (Decidable (_ ∧ _))

/-- The frames received so far, and the unfinished one. -/
def feed (s : List (List α) × List α) (a : α) : List (List α) × List α :=
  if s.2 = [] ∧ ¬ F.isStart a then s
  else if F.Complete (s.2 ++ [a]) then (s.1 ++ [s.2 ++ [a]], [])
  else (s.1, s.2 ++ [a])

/-- The frames of a stream, and the unfinished one at its end. -/
def split (stream : List α) : List (List α) × List α :=
  stream.foldl F.feed ([], [])

variable {F}

theorem split_append (stream more : List α) :
    F.split (stream ++ more) = more.foldl F.feed (F.split stream) :=
  List.foldl_append ..

theorem foldl_feed_frames (more : List α) (s : List (List α) × List α) :
    ∃ extra, (more.foldl F.feed s).1 = s.1 ++ extra := by
  induction more generalizing s with
  | nil => exact ⟨[], (List.append_nil _).symm⟩
  | cons a rest ih =>
      obtain ⟨extra, frames⟩ := ih (F.feed s a)
      rw [List.foldl_cons, frames, feed]
      split
      · exact ⟨extra, rfl⟩
      · split
        · exact ⟨[s.2 ++ [a]] ++ extra, List.append_assoc ..⟩
        · exact ⟨extra, rfl⟩

/-- The frames received before make no difference. -/
theorem foldl_feed_shift (more : List α) (frames : List (List α)) (pending : List α) :
    more.foldl F.feed (frames, pending) =
      (frames ++ (more.foldl F.feed ([], pending)).1, (more.foldl F.feed ([], pending)).2) := by
  induction more generalizing frames pending with
  | nil => simp
  | cons a rest ih =>
      rw [List.foldl_cons, List.foldl_cons, feed, feed]
      dsimp only
      split
      · exact ih frames pending
      · split
        · rw [ih (frames ++ _), ih ([] ++ _), List.append_assoc, List.nil_append]
        · exact ih frames _

/-- A longer stream has the same frames, and more. -/
theorem split_append_frames (stream more : List α) :
    ∃ extra, (F.split (stream ++ more)).1 = (F.split stream).1 ++ extra := by
  rw [split_append]
  exact foldl_feed_frames more _

@[simp] theorem split_nil : F.split [] = ([], []) := rfl

/-- The unfinished frame is never complete. -/
theorem not_complete_pending (stream : List α) : ¬ F.Complete (F.split stream).2 := by
  induction stream using List.reverseRecOn with
  | nil =>
      intro complete
      rcases complete with ⟨header, -⟩
      have := F.header_pos
      simp only [split_nil, List.length_nil] at header
      omega
  | append_singleton stream a ih =>
      rw [split_append, List.foldl_cons, List.foldl_nil, feed]
      split
      · exact ih
      · split
        · intro complete
          rcases complete with ⟨header, -⟩
          have := F.header_pos
          simp only [List.length_nil] at header
          omega
        · assumption

/-! ## Framed streams -/

variable (F) in
/-- A list that starts a frame and has its size. -/
structure Framed (frame : List α) : Prop where
  start : ∀ a ∈ frame.head?, F.isStart a
  header : F.header ≤ frame.length
  length : F.size frame = frame.length

variable (F) in
/-- What a stream is made of. -/
inductive Piece
  | noise (a : α) (skipped : ¬ F.isStart a)
  | frame (bytes : List α) (framed : F.Framed bytes)

namespace Piece

def bytes : F.Piece → List α
  | noise a _ => [a]
  | frame bytes _ => bytes

def frames : F.Piece → List (List α)
  | noise _ _ => []
  | frame bytes _ => [bytes]

end Piece

/-- A part of a frame is collected. -/
theorem foldl_feed_part {frame part rest : List α} (framed : F.Framed frame)
    (cut : frame = part ++ rest) (more : rest ≠ []) (frames : List (List α)) :
    part.foldl F.feed (frames, []) = (frames, part) := by
  induction part using List.reverseRecOn generalizing rest with
  | nil => rfl
  | append_singleton part a ih =>
      have split : frame = part ++ a :: rest := by simp [cut]
      have before := ih split (List.cons_ne_nil _ _)
      have started : ¬ (part = [] ∧ ¬ F.isStart a) := by
        intro both
        rcases both with ⟨rfl, noise⟩
        exact noise (framed.start a (by simp [cut]))
      have unfinished : ¬ F.Complete (part ++ [a]) := by
        intro complete
        rcases complete with ⟨header, long⟩
        have size := F.size_append (part ++ [a]) rest header
        rw [← cut, framed.length, cut, List.length_append] at size
        have positive := List.length_pos_iff.mpr more
        omega
      rw [List.foldl_append, before, List.foldl_cons, List.foldl_nil, feed, if_neg started,
        if_neg unfinished]

/-- A whole frame is received. -/
theorem foldl_feed_framed {frame : List α} (framed : F.Framed frame) (frames : List (List α)) :
    frame.foldl F.feed (frames, []) = (frames ++ [frame], []) := by
  have nonempty : frame ≠ [] := by
    intro empty
    subst empty
    have header := framed.header
    have positive := F.header_pos
    simp only [List.length_nil] at header
    omega
  obtain ⟨part, a, rfl⟩ := List.eq_nil_or_concat' frame |>.resolve_left nonempty
  have started : ¬ (part = [] ∧ ¬ F.isStart a) := by
    intro both
    rcases both with ⟨rfl, noise⟩
    exact noise (framed.start a (by simp))
  have complete : F.Complete (part ++ [a]) := ⟨framed.header, framed.length.le⟩
  rw [List.foldl_append, foldl_feed_part framed rfl (List.cons_ne_nil _ _), List.foldl_cons,
    List.foldl_nil, feed, if_neg started, if_pos complete]

/-- **Splitting undoes framing.** -/
theorem split_pieces (pieces : List F.Piece) :
    F.split (pieces.flatMap Piece.bytes) = (pieces.flatMap Piece.frames, []) := by
  induction pieces using List.reverseRecOn with
  | nil => rfl
  | append_singleton pieces piece ih =>
      rw [List.flatMap_append, split_append, ih, List.flatMap_append, List.flatMap_singleton,
        List.flatMap_singleton]
      cases piece with
      | noise a skipped =>
          rw [Piece.bytes, List.foldl_cons, List.foldl_nil, feed, if_pos ⟨rfl, skipped⟩,
            Piece.frames, List.append_nil]
      | frame bytes framed => exact foldl_feed_framed framed _

end Format

end Navisim.Framing
