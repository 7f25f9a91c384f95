import Mathlib.Tactic.Common

/-!
# Handing over with two binary semaphores

An owner and a helper pass the right to work back and forth: the owner gives the start semaphore,
the helper takes it, works, and gives the stop semaphore, which the owner takes.  The right is
at one of four places, each shown by the two semaphores and by whether the helper works; a
semaphore that can be taken tells where it is (`Shows.take`, `Shows.collect`), so every operation
moves it one place on.
-/

namespace Navisim.Handover

/-- Who may work: the owner, the helper, or nobody while a semaphore is free. -/
inductive Place
  | owner
  | offered
  | helper
  | returned
  deriving DecidableEq, Repr

/-- The semaphores are free or not, and the helper works or not, as the place says. -/
structure Shows (place : Place) (start stop works : Bool) : Prop where
  start : start = true ↔ place = .offered
  stop : stop = true ↔ place = .returned
  works : works = true ↔ place = .helper

/-- The rounds the helper has been given and not completed. -/
def Place.left : Place → Nat
  | .offered | .helper => 1
  | .owner | .returned => 0

section Operations

variable {place : Place} {start stop works : Bool}

theorem shows_owner : Shows .owner false false false := by
  constructor <;> simp

/-- Where the owner has the right, both semaphores are taken and the helper rests. -/
theorem Shows.at_owner (shows_ : Shows .owner start stop works) :
    start = false ∧ stop = false ∧ works = false := by
  obtain ⟨start, stop, works⟩ := shows_
  simp_all

/-- The owner gives the start semaphore. -/
theorem Shows.give (shows_ : Shows .owner start stop works) : Shows .offered true stop works := by
  obtain ⟨-, stopped, resting⟩ := shows_.at_owner
  subst stopped resting
  constructor <;> simp

/-- The helper can take the start semaphore only where it was offered. -/
theorem Shows.take (shows_ : Shows place true stop works) :
    place = .offered ∧ Shows .helper false stop true := by
  obtain ⟨start, stop, -⟩ := shows_
  obtain rfl := start.mp rfl
  refine ⟨rfl, ?_⟩
  constructor <;> simp_all

/-- A helper that works gives the stop semaphore. -/
theorem Shows.giveBack (shows_ : Shows place start stop true) :
    place = .helper ∧ Shows .returned start true false := by
  obtain ⟨start, -, works⟩ := shows_
  obtain rfl := works.mp rfl
  refine ⟨rfl, ?_⟩
  constructor <;> simp_all

/-- The owner can take the stop semaphore only where it was returned. -/
theorem Shows.collect (shows_ : Shows place start true works) :
    place = .returned ∧ Shows .owner start false works := by
  obtain ⟨start, stop, works⟩ := shows_
  obtain rfl := stop.mp rfl
  refine ⟨rfl, ?_⟩
  constructor <;> simp_all

end Operations

end Navisim.Handover
