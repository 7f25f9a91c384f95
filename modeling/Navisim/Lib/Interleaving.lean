import Mathlib.Logic.Relation

/-!
# Interleaved runs of deterministic threads

A program gives, for each thread, the next state of its next atomic step, or `none` where
the thread cannot move.  Every nondeterminism of a run is then the choice of the thread that
moves, so a run is a schedule (`exec`) and a reachable state is the end of one.

`ReachIf prog ok` only takes steps that the guard `ok` admits in the state they start from;
`Reach prog` takes any step.  `ReachIf.invariant` is the induction over runs.
-/

namespace Navisim.Interleaving

/-- The next state of each thread's next atomic step, if the thread can move. -/
abbrev Program (ι σ : Type*) : Type _ := ι → σ → Option σ

variable {ι σ : Type*} {prog : Program ι σ} {ok : ι → σ → Prop}

/-- One step of a thread that the guard admits. -/
def StepIf (prog : Program ι σ) (ok : ι → σ → Prop) (s t : σ) : Prop :=
  ∃ i, ok i s ∧ prog i s = some t

/-- The states reached by admitted steps. -/
abbrev ReachIf (prog : Program ι σ) (ok : ι → σ → Prop) : σ → σ → Prop :=
  Relation.ReflTransGen (StepIf prog ok)

/-- The states reached under any interleaving. -/
abbrev Reach (prog : Program ι σ) : σ → σ → Prop :=
  ReachIf prog fun _ _ => True

theorem ReachIf.reach {s t : σ} (h : ReachIf prog ok s t) : Reach prog s t :=
  Relation.ReflTransGen.mono (fun _ _ ⟨i, _, step⟩ => ⟨i, trivial, step⟩) _ _ h

/-- **Induction over runs.**  A property of the first state that every admitted step keeps
holds in every state reached. -/
theorem ReachIf.invariant {I : σ → Prop} {s t : σ} (init : I s)
    (keep : ∀ i a b, ok i a → I a → prog i a = some b → I b)
    (h : ReachIf prog ok s t) : I t := by
  induction h with
  | refl => exact init
  | tail _ step ih =>
      obtain ⟨i, admitted, moved⟩ := step
      exact keep i _ _ admitted ih moved

/-! ## Schedules -/

section Schedules

variable [∀ i s, Decidable (ok i s)]

/-- Run the threads in the order of the schedule, as long as the guard admits the steps. -/
def execIf (prog : Program ι σ) (ok : ι → σ → Prop) [∀ i s, Decidable (ok i s)] :
    List ι → σ → Option σ
  | [], s => some s
  | i :: rest, s => if ok i s then (prog i s).bind (execIf prog ok rest) else none

theorem execIf_cons (i : ι) (rest : List ι) (s : σ) :
    execIf prog ok (i :: rest) s =
      if ok i s then (prog i s).bind (execIf prog ok rest) else none := rfl

/-- A schedule that does not get stuck is a run. -/
theorem ReachIf.of_execIf (sched : List ι) {s t : σ} (h : execIf prog ok sched s = some t) :
    ReachIf prog ok s t := by
  induction sched generalizing s with
  | nil =>
      cases h
      exact .refl
  | cons i rest ih =>
      rw [execIf_cons] at h
      split at h
      · rename_i admitted
        rw [Option.bind_eq_some_iff] at h
        obtain ⟨u, step, rest⟩ := h
        exact .head ⟨i, admitted, step⟩ (ih rest)
      · cases h

end Schedules

end Navisim.Interleaving
