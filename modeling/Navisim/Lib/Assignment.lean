import Mathlib.Data.Set.Insert
import Mathlib.Tactic

/-!
# Definite assignment

A run as the sequence of its accesses to memory cells.  It is definite if it reads a cell only
after it has assigned it, whatever the cell was found to hold: a cell that is read was known at
the start or is assigned at an earlier position (`Definite.read`).
-/

namespace Navisim.Assignment

variable {α : Type*}

inductive Access (α : Type*)
  | assign (cell : α)
  | read (cell : α)
  /-- An access to none of the cells. -/
  | stray

/-- The cells that are assigned after a run, from those that were before. -/
def assigned : Set α → List (Access α) → Set α
  | known, [] => known
  | known, .assign cell :: rest => assigned (insert cell known) rest
  | known, .read _ :: rest => assigned known rest
  | known, .stray :: rest => assigned known rest

/-- Only assigned cells are read, and nothing goes astray. -/
def Definite : Set α → List (Access α) → Prop
  | _, [] => True
  | known, .assign cell :: rest => Definite (insert cell known) rest
  | known, .read cell :: rest => cell ∈ known ∧ Definite known rest
  | _, .stray :: _ => False

section Rules

variable {known : Set α} {cells : List α} {run more : List (Access α)}

/-- **Sequence**: a run goes on from what has been assigned. -/
theorem definite_append :
    Definite known (run ++ more) ↔ Definite known run ∧ Definite (assigned known run) more := by
  induction run generalizing known with
  | nil => exact (and_iff_right trivial).symm
  | cons access rest ih =>
      cases access with
      | assign cell => exact ih
      | read cell => exact (and_congr_right fun _ => ih).trans and_assoc.symm
      | stray => exact iff_of_false id fun both => both.1

theorem definite_assigns (cells : List α) : Definite known (cells.map .assign) := by
  induction cells generalizing known with
  | nil => exact trivial
  | cons cell rest ih => exact ih

theorem mem_assigned_assigns {cell : α} :
    cell ∈ assigned known (cells.map .assign) ↔ cell ∈ known ∨ cell ∈ cells := by
  induction cells generalizing known with
  | nil => simp [assigned]
  | cons first rest ih =>
      rw [List.map_cons, assigned, ih, Set.mem_insert_iff, List.mem_cons,
        or_comm (a := cell = first), or_assoc]

theorem definite_reads : Definite known (cells.map .read) ↔ ∀ cell ∈ cells, cell ∈ known := by
  induction cells with
  | nil => exact iff_of_true trivial (by simp)
  | cons first rest ih =>
      rw [List.map_cons, Definite, ih, List.forall_mem_cons]

/-- What has been assigned is in the run. -/
theorem mem_assigned {cell : α} :
    cell ∈ assigned known run ↔ cell ∈ known ∨ .assign cell ∈ run := by
  induction run generalizing known with
  | nil => simp [assigned]
  | cons access rest ih =>
      cases access with
      | assign first =>
          rw [assigned, ih, Set.mem_insert_iff, List.mem_cons, Access.assign.injEq,
            or_comm (a := cell = first), or_assoc]
      | read first =>
          rw [assigned, ih, List.mem_cons]
          simp
      | stray =>
          rw [assigned, ih, List.mem_cons]
          simp

/-- A cell that is read has been assigned before. -/
theorem Definite.read {before after : List (Access α)} {cell : α}
    (definite : Definite known (before ++ .read cell :: after)) :
    cell ∈ known ∨ .assign cell ∈ before :=
  mem_assigned.mp (definite_append.mp definite).2.1

end Rules

end Navisim.Assignment
