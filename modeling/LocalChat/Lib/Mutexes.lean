import Mathlib.Logic.Function.Basic

/-!
# Mutexes

Threads in local states of type `T`, and a mutex that at most one of them has: `holds` tells which
local states have it, and `some i` stands for the mutex that thread `i` has.

* `Passes`: how a statement of one thread may change a mutex.
* `Passes.holds_iff`: afterwards the mutex still tells who has it.
* `Passes.viewOf`: what is so in the eyes of the owner, and stays so.
-/

namespace Mutexes

variable {ι T V : Type} [DecidableEq ι] {thread : ι → T} {holds : T → Bool} {m m' : Option ι} {i : ι}
  {t : T}

/-- How the mutex `m` may change with a statement of thread `i`, which has it before and after that
as stated. -/
inductive Passes (m : Option ι) (i : ι) : Bool → Bool → Option ι → Prop
  | kept {b : Bool} : Passes m i b b m
  | taken {b : Bool} (h : m = none) : Passes m i b true (some i)
  | released : Passes m i true false none

theorem Passes.holds_iff (hp : Passes m i (holds (thread i)) (holds t) m')
    (h : ∀ j, holds (thread j) = true ↔ m = some j) (j : ι) :
    holds (Function.update thread i t j) = true ↔ m' = some j := by
  by_cases hj : j = i
  · subst hj
    rw [Function.update_self]
    generalize hb : holds (thread j) = b at hp
    generalize holds t = b' at hp
    cases hp with
    | kept => rw [← hb, h]
    | taken => simp
    | released => simp
  · rw [Function.update_of_ne hj, h]
    generalize hb : holds (thread i) = b at hp
    generalize holds t = b' at hp
    cases hp with
    | kept => rfl
    | taken hnone => simp [hnone, Ne.symm hj]
    | released => simp [(h i).mp hb, Ne.symm hj]

/-- What is so in the eyes of the thread that has the mutex. -/
def viewOf (thread : ι → T) (f : T → V) (free : V) : Option ι → V
  | some i => f (thread i)
  | none => free

theorem Passes.viewOf {f : T → V} {v : V} (hf : ∀ t, holds t = false → f t = v)
    (h : ∀ j, holds (thread j) = true ↔ m = some j)
    (hp : Passes m i (holds (thread i)) (holds t) m') (hsame : f t = f (thread i)) :
    viewOf (Function.update thread i t) f v m' = viewOf thread f v m := by
  generalize hb : holds (thread i) = b at hp
  generalize hb' : holds t = b' at hp
  cases hp with
  | kept =>
    cases m with
    | none => rfl
    | some j =>
      show f (Function.update thread i t j) = f (thread j)
      by_cases hj : j = i
      · rw [hj, Function.update_self, hsame]
      · rw [Function.update_of_ne hj]
  | taken hnone =>
    have hi : holds (thread i) = false := by
      rw [Bool.eq_false_iff, ne_eq, h, hnone]
      simp
    rw [hnone]
    show f (Function.update thread i t i) = v
    rw [Function.update_self, hsame, hf _ hi]
  | released =>
    rw [(h i).mp hb]
    show v = f (thread i)
    rw [← hsame, hf t hb']

end Mutexes
