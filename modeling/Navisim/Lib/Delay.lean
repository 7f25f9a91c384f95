import Mathlib.Data.List.Induction

/-!
# A loop that hands on what it took one turn before

A delay line holds at most one item.  Each turn hands on the item it holds and takes the next
one, so what has been handed on is the input without its last item (`feed_concat`), and what is
held completes it (`feed_total`).
-/

namespace Navisim.Delay

variable {α : Type*}

/-- What has been handed on, and the item that is held. -/
structure Line (α : Type*) where
  out : List α
  held : Option α

def Line.empty : Line α where
  out := []
  held := none

/-- One turn of the loop. -/
def Line.push (line : Line α) (item : α) : Line α where
  out := line.out ++ line.held.toList
  held := some item

def Line.feed (line : Line α) (items : List α) : Line α :=
  items.foldl Line.push line

theorem feed_nil (line : Line α) : line.feed [] = line := rfl

theorem feed_concat (line : Line α) (items : List α) (last : α) :
    line.feed (items ++ [last]) = (line.feed items).push last :=
  List.foldl_append ..

/-- Nothing is lost, doubled or moved: what was handed on and what is held are the input. -/
theorem feed_total (line : Line α) (items : List α) :
    (line.feed items).out ++ (line.feed items).held.toList =
      line.out ++ line.held.toList ++ items := by
  induction items using List.reverseRecOn with
  | nil => rw [feed_nil, List.append_nil]
  | append_singleton items last ih =>
      rw [feed_concat, ← List.append_assoc, ← ih]
      rfl

/-- The last item is held back. -/
theorem out_feed_concat (items : List α) (last : α) :
    (Line.empty.feed (items ++ [last])).out = items := by
  have total := feed_total Line.empty items
  rw [feed_concat]
  exact total

end Navisim.Delay
