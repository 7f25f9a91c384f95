import Mathlib.Data.List.TakeWhile
import Mathlib.Tactic

/-!
# Cutting a list

A list is cut into blocks from its start: a block goes on until an element is far from the first
one of the block, and there the next block starts.  The relation is a parameter.

Adding an element at the end adds it to the last block or starts a block of its own
(`cut_concat`); this is what a loop that reads the elements one after the other knows.
-/

namespace Navisim

section Cut

variable {α : Type*} (far : α → α → Prop) [DecidableRel far]

/-- The blocks of a list. -/
def cut : List α → List (List α)
  | [] => []
  | first :: rest =>
      (first :: rest.takeWhile fun x => ¬ far first x) ::
        cut (rest.dropWhile fun x => ¬ far first x)
termination_by l => l.length
decreasing_by
  exact Nat.lt_succ_of_le (List.dropWhile_suffix _).length_le

variable {far} {l before after block : List α} {init : List (List α)} {first x : α}

@[simp] theorem cut_nil : cut far [] = [] := by
  rw [cut]

@[simp] theorem cut_singleton (x : α) : cut far [x] = [[x]] := by
  rw [cut, List.takeWhile_nil, List.dropWhile_nil, cut_nil]

/-- **Nothing is lost.** -/
theorem cut_flatten (far : α → α → Prop) [DecidableRel far] (l : List α) :
    (cut far l).flatten = l := by
  induction l using cut.induct far with
  | case1 =>
      rw [cut_nil]
      rfl
  | case2 first rest ih =>
      rw [cut, List.flatten_cons, ih, List.cons_append, List.takeWhile_append_dropWhile]

theorem ne_nil_of_mem_cut (member : block ∈ cut far l) : block ≠ [] := by
  induction l using cut.induct far with
  | case1 =>
      rw [cut_nil] at member
      cases member
  | case2 first rest ih =>
      rw [cut, List.mem_cons] at member
      rcases member with rfl | later
      · simp
      · exact ih later

theorem mem_of_mem_cut (member : block ∈ cut far l) (inside : x ∈ block) : x ∈ l := by
  rw [← cut_flatten far l]
  exact List.mem_flatten.mpr ⟨block, member, inside⟩

/-- A list that is not empty has a last block, with a first element. -/
theorem exists_last_block (far : α → α → Prop) [DecidableRel far] (some_element : l ≠ []) :
    ∃ init first block, cut far l = init ++ [first :: block] := by
  have some_block : cut far l ≠ [] := by
    intro empty
    apply some_element
    rw [← cut_flatten far l, empty]
    rfl
  have nonempty := ne_nil_of_mem_cut (List.getLast_mem some_block)
  obtain ⟨first, block, last⟩ := List.exists_cons_of_ne_nil nonempty
  exact ⟨(cut far l).dropLast, first, block, by
    rw [← last, List.dropLast_append_getLast]⟩

/-! ## The first block -/

section FirstBlock

variable {head tail rest : List α}

/-- There is one block if every element is near the first one. -/
theorem cut_near (near : ∀ y ∈ rest, ¬ far first y) :
    cut far (first :: rest) = [first :: rest] := by
  have taken : rest.takeWhile (fun y => decide ¬ far first y) = rest :=
    List.takeWhile_eq_self_iff.mpr fun y member => decide_eq_true (near y member)
  have dropped : rest.dropWhile (fun y => decide ¬ far first y) = [] :=
    List.dropWhile_eq_nil_iff.mpr fun y member => decide_eq_true (near y member)
  rw [cut, taken, dropped, cut_nil]

/-- The first element that is far starts the next block. -/
theorem cut_far (near : ∀ y ∈ head, ¬ far first y) (apart : far first x) :
    cut far (first :: (head ++ x :: tail)) = (first :: head) :: cut far (x :: tail) := by
  have stop : ¬ (decide ¬ far first x) = true := by simpa using apart
  rw [cut, List.takeWhile_append_of_pos fun y member => decide_eq_true (near y member),
    List.dropWhile_append_of_pos fun y member => decide_eq_true (near y member),
    List.takeWhile_cons, List.dropWhile_cons, if_neg stop, if_neg stop, List.append_nil]

theorem near_or_far (far : α → α → Prop) [DecidableRel far] (first : α) (rest : List α) :
    (∀ y ∈ rest, ¬ far first y) ∨
      ∃ head x tail, rest = head ++ x :: tail ∧ (∀ y ∈ head, ¬ far first y) ∧ far first x := by
  induction rest with
  | nil => exact Or.inl fun y member => absurd member List.not_mem_nil
  | cons z rest ih =>
      by_cases apart : far first z
      · exact Or.inr ⟨[], z, rest, rfl, fun y member => absurd member List.not_mem_nil, apart⟩
      · rcases ih with near | ⟨head, x, tail, rfl, near, apart'⟩
        · exact Or.inl (List.forall_mem_cons.mpr ⟨apart, near⟩)
        · exact Or.inr ⟨z :: head, x, tail, rfl, List.forall_mem_cons.mpr ⟨apart, near⟩, apart'⟩

end FirstBlock

/-! ## The last block -/

/-- **One more element** joins the last block, or starts the next one. -/
theorem cut_concat (last : cut far l = init ++ [first :: block]) (x : α) :
    cut far (l ++ [x]) =
      if far first x then init ++ [first :: block] ++ [[x]]
      else init ++ [first :: (block ++ [x])] := by
  induction length : l.length using Nat.strong_induction_on generalizing l init with
  | _ n ih =>
      cases l with
      | nil =>
          rw [cut_nil] at last
          exact absurd (congrArg List.length last) (by simp)
      | cons start rest =>
          rcases near_or_far far start rest with near | ⟨head, y, tail, rfl, near, apart⟩
          · rw [cut_near near] at last
            have whole : [] ++ [start :: rest] = init ++ [first :: block] := last
            obtain ⟨rfl, same⟩ := List.append_inj' whole rfl
            obtain ⟨rfl, rfl⟩ := List.cons.inj (List.cons.inj same).1
            split
            · rename_i apart
              rw [List.cons_append, cut_far near apart, cut_singleton]
              rfl
            · rename_i close
              exact cut_near
                (List.forall_mem_append.mpr ⟨near, List.forall_mem_singleton.mpr close⟩)
          · rw [cut_far near apart] at last
            cases init with
            | nil =>
                have empty : cut far (y :: tail) = [] := (List.cons.inj last).2
                rw [cut] at empty
                cases empty
            | cons b init =>
                obtain ⟨same, behind⟩ := List.cons.inj last
                have shorter : (y :: tail).length < n := by
                  rw [← length]
                  simp only [List.length_cons, List.length_append]
                  omega
                rw [List.cons_append, List.append_assoc, List.cons_append, cut_far near apart,
                  ← List.cons_append, ih _ shorter behind rfl, same]
                split <;> rfl

theorem cut_length_concat (l : List α) (x : α) :
    (cut far l).length ≤ (cut far (l ++ [x])).length ∧
      (cut far (l ++ [x])).length ≤ (cut far l).length + 1 := by
  by_cases empty : l = []
  · subst empty
    rw [List.nil_append, cut_nil, cut_singleton]
    exact ⟨Nat.zero_le _, le_rfl⟩
  · obtain ⟨init, first, block, last⟩ := exists_last_block far empty
    rw [cut_concat last, last]
    split <;> simp

/-- A longer list has no fewer blocks. -/
theorem cut_length_mono (far : α → α → Prop) [DecidableRel far] (before after : List α) :
    (cut far before).length ≤ (cut far (before ++ after)).length := by
  induction after using List.reverseRecOn with
  | nil => rw [List.append_nil]
  | append_singleton after x ih =>
      rw [← List.append_assoc]
      exact ih.trans (cut_length_concat _ x).1

end Cut

end Navisim
