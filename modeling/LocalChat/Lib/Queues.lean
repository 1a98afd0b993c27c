import Mathlib.Data.List.Basic
import Mathlib.Logic.Function.Basic

/-!
# Families of queues

A family of queues gives every index a list, the oldest item first.  `Sole P queue` says that an
item with `P` is in at most one of the queues, and there at most once; so whoever takes it out is
the only one that ever has it.

* `Sole.mono`: another property, which agrees on the items that are there.
* `Sole.pop`, `Sole.gone`: taking an item out; it is nowhere then.
* `Sole.push_new`, `Sole.push_other`: adding an item that is nowhere, or one without `P`.
-/

namespace Queues

variable {ι κ : Type*} {P : κ → Prop} {queue : ι → List κ} {q : ι} {x : κ} {rest : List κ}

section Members

variable [DecidableEq ι]

theorem mem_pop (hq : queue q = x :: rest) {y : κ} {i : ι}
    (h : y ∈ Function.update queue q rest i) : y ∈ queue i := by
  by_cases hi : i = q
  · subst hi
    rw [Function.update_self] at h
    rw [hq]
    exact List.mem_cons_of_mem _ h
  · rwa [Function.update_of_ne hi] at h

theorem mem_push {y : κ} {i : ι} (h : y ∈ Function.update queue q (queue q ++ [x]) i) :
    y ∈ queue i ∨ (y = x ∧ i = q) := by
  by_cases hi : i = q
  · subst hi
    rw [Function.update_self, List.mem_append, List.mem_singleton] at h
    rcases h with h | h
    · exact .inl h
    · exact .inr ⟨h, rfl⟩
  · rw [Function.update_of_ne hi] at h
    exact .inl h

end Members

variable [DecidableEq κ]

/-- Each item with `P` is in one place at most. -/
structure Sole (P : κ → Prop) (queue : ι → List κ) : Prop where
  once : ∀ x, P x → ∀ q, (queue q).count x ≤ 1
  apart : ∀ x, P x → ∀ q q', x ∈ queue q → x ∈ queue q' → q = q'

theorem Sole.empty : Sole P (fun _ : ι => ([] : List κ)) :=
  ⟨fun _ _ _ => by simp, fun _ _ _ _ h => by cases h⟩

/-- Only the items that are in some queue matter. -/
theorem Sole.mono {Q : κ → Prop} (h : Sole P queue) (hPQ : ∀ q, ∀ x ∈ queue q, Q x → P x) :
    Sole Q queue where
  once x hx q := by
    by_cases hmem : x ∈ queue q
    · exact h.once x (hPQ q x hmem hx) q
    · rw [List.count_eq_zero.mpr hmem]
      exact Nat.zero_le 1
  apart x hx q q' hq hq' := h.apart x (hPQ q x hq hx) q q' hq hq'

variable [DecidableEq ι]

theorem Sole.pop (h : Sole P queue) (hq : queue q = x :: rest) :
    Sole P (Function.update queue q rest) where
  once y hy i := by
    by_cases hi : i = q
    · subst hi
      rw [Function.update_self]
      refine Nat.le_trans ?_ (h.once y hy i)
      rw [hq]
      exact List.count_le_count_cons
    · rw [Function.update_of_ne hi]
      exact h.once y hy i
  apart y hy i j hi hj := h.apart y hy i j (mem_pop hq hi) (mem_pop hq hj)

/-- The item that was taken out is in no queue any more. -/
theorem Sole.gone (h : Sole P queue) (hq : queue q = x :: rest) (hx : P x) (i : ι) :
    x ∉ Function.update queue q rest i := by
  intro hmem
  have hi : i = q := h.apart x hx i q (mem_pop hq hmem) (hq ▸ List.mem_cons_self)
  subst hi
  have honce := h.once x hx i
  rw [hq, List.count_cons_self] at honce
  rw [Function.update_self] at hmem
  have hpos := List.count_pos_iff.mpr hmem
  omega

theorem Sole.push_new (h : Sole P queue) (hnew : ∀ i, x ∉ queue i) :
    Sole P (Function.update queue q (queue q ++ [x])) where
  once y hy i := by
    by_cases hi : i = q
    · subst hi
      rw [Function.update_self, List.count_append]
      by_cases hyx : y = x
      · subst hyx
        have hnone : (queue i).count y = 0 := List.count_eq_zero.mpr (hnew i)
        have hone : [y].count y = 1 := List.count_singleton_self
        omega
      · rw [List.count_eq_zero.mpr fun hmem => hyx (List.mem_singleton.mp hmem), Nat.add_zero]
        exact h.once y hy i
    · rw [Function.update_of_ne hi]
      exact h.once y hy i
  apart y hy i j hi hj := by
    rcases mem_push hi with hi | ⟨hyx, hi⟩
    · rcases mem_push hj with hj | ⟨hyx, -⟩
      · exact h.apart y hy i j hi hj
      · exact absurd (hyx ▸ hi) (hnew i)
    · rcases mem_push hj with hj | ⟨-, hj⟩
      · exact absurd (hyx ▸ hj) (hnew j)
      · exact hi.trans hj.symm

theorem Sole.push_other (h : Sole P queue) (hx : ¬ P x) :
    Sole P (Function.update queue q (queue q ++ [x])) where
  once y hy i := by
    have hyx : y ≠ x := fun he => hx (he ▸ hy)
    by_cases hi : i = q
    · subst hi
      rw [Function.update_self, List.count_append,
        List.count_eq_zero.mpr fun hmem => hyx (List.mem_singleton.mp hmem), Nat.add_zero]
      exact h.once y hy i
    · rw [Function.update_of_ne hi]
      exact h.once y hy i
  apart y hy i j hi hj := by
    have hyx : y ≠ x := fun he => hx (he ▸ hy)
    refine h.apart y hy i j ?_ ?_
    · exact (mem_push hi).resolve_right fun h => hyx h.1
    · exact (mem_push hj).resolve_right fun h => hyx h.1

end Queues
