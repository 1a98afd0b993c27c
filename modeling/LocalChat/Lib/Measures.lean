import LocalChat.Lib.Runs
import Mathlib.Algebra.BigOperators.Finprod
import Mathlib.Order.WellFounded

/-!
# Runs that make progress

Of the actions of a run some make progress: each of them lowers a measure, and the others raise it
by what they cost at most.

* `progress_le`: so a run makes progress as often at most as the measure and the costs allow.
* `Inevitable`: whichever actions are taken, what is to happen happens.  `inevitable_of_rank` shows
  it with a rank that every action lowers, in any well-founded order.
* `total`: the measure of a family, to make a rank of the ranks of its members.
-/

namespace Runs

variable {S A : Type*} {step : S → A → S}

/-- How many actions of a run make progress in the state they are taken from. -/
def progress (step : S → A → S) (moves : S → A → Bool) : S → List A → Nat
  | _, [] => 0
  | s, a :: as => (moves s a).toNat + progress step moves (step s a) as

/-- **The measure rule.** -/
theorem progress_le {moves : S → A → Bool} {I : S → Prop} {μ : S → Nat} {cost : A → Nat}
    (hstep : ∀ s a, I s → I (step s a) ∧ μ (step s a) + (moves s a).toNat ≤ μ s + cost a)
    {s : S} (h : I s) (as : List A) :
    μ (run step s as) + progress step moves s as ≤ μ s + (as.map cost).sum := by
  induction as generalizing s with
  | nil => exact Nat.le_refl _
  | cons a as ih =>
    obtain ⟨hI, hle⟩ := hstep s a h
    have hrest := ih hI
    rw [run_cons, progress, List.map_cons, List.sum_cons]
    omega

/-! ### What a run comes to -/

/-- Whichever of the actions in `may` are taken one after another, `P` comes to hold: it holds now,
or some action may be taken and it is inevitable after each of them. -/
inductive Inevitable (step : S → A → S) (may : S → A → Prop) (P : S → Prop) : S → Prop
  | now {s : S} : P s → Inevitable step may P s
  | later {s : S} : (∃ a, may s a) → (∀ a, may s a → Inevitable step may P (step s a)) →
      Inevitable step may P s

/-- **The ranking rule.**  A state may have several ranks; each action lowers any of them. -/
theorem inevitable_of_rank {may : S → A → Prop} {P : S → Prop} {ρ : Type*} [LT ρ]
    [WellFoundedLT ρ] {R : S → ρ → Prop} (hprogress : ∀ s r, R s r → P s ∨ ∃ a, may s a)
    (hdescent : ∀ s r a, R s r → may s a → ∃ r', r' < r ∧ R (step s a) r') {s : S} {r : ρ}
    (h : R s r) : Inevitable step may P s := by
  induction r using WellFoundedLT.induction generalizing s with
  | ind r ih =>
    rcases hprogress s r h with hP | hmay
    · exact .now hP
    · refine .later hmay fun a ha => ?_
      obtain ⟨r', hlt, hR⟩ := hdescent s r a h ha
      exact ih r' hlt hR

/-! ### Sums -/

section Total

variable {ι β : Type*} [Finite ι]

noncomputable def total (F : β → ℕ) (f : ι → β) : ℕ := ∑ᶠ i, F (f i)

theorem total_update [DecidableEq ι] (F : β → ℕ) (f : ι → β) (i : ι) (v : β) :
    total F (Function.update f i v) + F (f i) = total F f + F v := by
  have := Fintype.ofFinite ι
  rw [total, total, finsum_eq_sum_of_fintype, finsum_eq_sum_of_fintype]
  have hbefore := Finset.add_sum_erase Finset.univ (fun j => F (f j)) (Finset.mem_univ i)
  have hafter := Finset.add_sum_erase Finset.univ (fun j => F (Function.update f i v j))
    (Finset.mem_univ i)
  have hrest : ∑ j ∈ Finset.univ.erase i, F (Function.update f i v j) =
      ∑ j ∈ Finset.univ.erase i, F (f j) := by
    apply Finset.sum_congr rfl
    intro j hj
    rw [Function.update_of_ne (Finset.ne_of_mem_erase hj)]
  simp only [Function.update_self] at hafter
  omega

end Total

end Runs
