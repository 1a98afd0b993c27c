import Mathlib.Data.List.Basic
import Mathlib.Logic.Function.Basic

/-!
# Atomic objects

A sequential object answers one call at a time.  Its atomic version is used by many threads: a
thread calls, at some later moment the call takes effect on the object in one step, and later still
the thread returns with the answer.  An implementation is linearizable if the calls and returns of
each of its runs are those of a run of the atomic object.

* `Turn`, `Execution`: the steps and the runs of the atomic object.
* `Execution.append`: one run after another.
* `exists_execution`: **the simulation rule** for a step function that may fault: if every step from
  a state that is related to one of the atomic object succeeds and is matched by at most one turn,
  then so is every run.
-/

namespace AtomicObjects

/-- A sequential object: the answer to a call and the state after it, or nothing where the call has
to wait. -/
abbrev SequentialObject (S C R : Type*) := S → C → Option (R × S)

inductive Event (ι C R : Type*)
  | call (i : ι) (c : C)
  /-- the call takes effect on the object -/
  | effect (i : ι) (c : C) (r : R)
  | ret (i : ι) (r : R)
  deriving DecidableEq, Repr

inductive Phase (C R : Type*)
  | idle
  | called (c : C)
  | decided (r : R)
  deriving DecidableEq, Repr

section Threads

variable {ι S C R : Type*} [DecidableEq ι]

inductive Turn (obj : SequentialObject S C R) :
    (ι → Phase C R) → S → Event ι C R → (ι → Phase C R) → S → Prop
  | call {phase : ι → Phase C R} {i : ι} {c : C} {s : S} (h : phase i = .idle) :
    Turn obj phase s (.call i c) (Function.update phase i (.called c)) s
  | effect {phase : ι → Phase C R} {i : ι} {c : C} {r : R} {s s' : S} (h : phase i = .called c)
    (hobj : obj s c = some (r, s')) :
    Turn obj phase s (.effect i c r) (Function.update phase i (.decided r)) s'
  | ret {phase : ι → Phase C R} {i : ι} {r : R} {s : S} (h : phase i = .decided r) :
    Turn obj phase s (.ret i r) (Function.update phase i .idle) s

/-- The runs of the atomic object, with what happens in them. -/
inductive Execution (obj : SequentialObject S C R) :
    (ι → Phase C R) → S → List (Event ι C R) → (ι → Phase C R) → S → Prop
  | nil {phase : ι → Phase C R} {s : S} : Execution obj phase s [] phase s
  | cons {phase phase' phase'' : ι → Phase C R} {s s' s'' : S} {e : Event ι C R}
    {es : List (Event ι C R)} (h : Turn obj phase s e phase' s')
    (hes : Execution obj phase' s' es phase'' s'') : Execution obj phase s (e :: es) phase'' s''

variable {obj : SequentialObject S C R} {phase phase' phase'' : ι → Phase C R} {s s' s'' : S}
  {es : List (Event ι C R)}

theorem Execution.append {ds : List (Event ι C R)} (h : Execution obj phase s ds phase' s')
    (h' : Execution obj phase' s' es phase'' s'') : Execution obj phase s (ds ++ es) phase'' s'' := by
  induction h with
  | nil => exact h'
  | cons hturn _ ih => exact .cons hturn (ih h')

/-- What a step of an implementation is matched by: a turn, or nothing. -/
def Matched (obj : SequentialObject S C R) (phase : ι → Phase C R) (s : S) :
    Option (Event ι C R) → (ι → Phase C R) → S → Prop
  | some e, phase', s' => Turn obj phase s e phase' s'
  | none, phase', s' => phase' = phase ∧ s' = s

theorem Matched.execution {o : Option (Event ι C R)} (h : Matched obj phase s o phase' s') :
    Execution obj phase s o.toList phase' s' := by
  cases o with
  | none =>
    obtain ⟨rfl, rfl⟩ := h
    exact .nil
  | some e => exact .cons h .nil

/-! ### Simulation -/

variable {X A E : Type*} {step : X → A → Except E X} {event : X → A → Option (Event ι C R)}

/-- What happens along a run of an implementation, as long as there is no fault. -/
def eventsAlong (step : X → A → Except E X) (event : X → A → Option (Event ι C R)) :
    X → List A → List (Event ι C R)
  | _, [] => []
  | x, a :: as =>
    (event x a).toList ++
      match step x a with
      | .ok y => eventsAlong step event y as
      | .error _ => []

/-- **The simulation rule.** -/
theorem exists_execution {I : X → (ι → Phase C R) → S → Prop}
    (hstep : ∀ x phase s a, I x phase s → ∃ y phase' s', step x a = .ok y ∧ I y phase' s' ∧
      Matched obj phase s (event x a) phase' s')
    {x : X} (h : I x phase s) (as : List A) :
    ∃ y phase' s', as.foldlM step x = .ok y ∧ I y phase' s' ∧
      Execution obj phase s (eventsAlong step event x as) phase' s' := by
  induction as generalizing x phase s with
  | nil => exact ⟨x, phase, s, rfl, h, .nil⟩
  | cons a as ih =>
    obtain ⟨y, phase', s', hy, hI, hmatched⟩ := hstep x phase s a h
    obtain ⟨z, phase'', s'', hz, hI', hrun⟩ := ih hI
    refine ⟨z, phase'', s'', ?_, hI', ?_⟩
    · rw [List.foldlM_cons, hy]
      exact hz
    · rw [eventsAlong, hy]
      exact hmatched.execution.append hrun

end Threads

end AtomicObjects
