import Mathlib.Data.List.Basic

/-!
# Runs of a step function

`run step s as` takes the actions `as` one after another from `s`.  `Meets step ok s as`
says that every action of that run meets the contract `ok` in the state it is taken from.

* `run_invariant`: what every contract-abiding step keeps, every contract-abiding run keeps.
* `forall_prefix_iff_meets`: where a step reaches `P` exactly when it meets the contract, `P`
  holds all along a run exactly when every step of the run meets it.
* `forall_step_iff_meets`: the same for a property of the steps themselves.
-/

namespace Runs

variable {S A : Type*}

def run (step : S → A → S) (s : S) (as : List A) : S := as.foldl step s

variable {step : S → A → S}

@[simp] theorem run_nil (s : S) : run step s [] = s := rfl

@[simp] theorem run_cons (s : S) (a : A) (as : List A) :
    run step s (a :: as) = run step (step s a) as := rfl

theorem run_append (s : S) (as bs : List A) :
    run step s (as ++ bs) = run step (run step s as) bs := by
  simp [run]

/-- Every action of the run meets `ok` in the state it is taken from. -/
def Meets (step : S → A → S) (ok : S → A → Prop) : S → List A → Prop
  | _, [] => True
  | s, a :: as => ok s a ∧ Meets step ok (step s a) as

variable {ok : S → A → Prop}

instance [∀ s a, Decidable (ok s a)] : ∀ s as, Decidable (Meets step ok s as)
  | _, [] => .isTrue trivial
  | s, a :: as =>
    have : Decidable (Meets step ok (step s a) as) := instDecidableMeets (step s a) as
    inferInstanceAs (Decidable (ok s a ∧ Meets step ok (step s a) as))

theorem meets_append {s : S} {as bs : List A} :
    Meets step ok s (as ++ bs) ↔ Meets step ok s as ∧ Meets step ok (run step s as) bs := by
  induction as generalizing s with
  | nil => simp [Meets]
  | cons a as ih => simp only [List.cons_append, Meets, run_cons, ih, and_assoc]

theorem meets_of_forall (h : ∀ s a, ok s a) (s : S) (as : List A) : Meets step ok s as := by
  induction as generalizing s with
  | nil => trivial
  | cons a as ih => exact ⟨h s a, ih _⟩

/-- **The invariant rule.**  An invariant kept by every step that meets the contract holds at the
end of every run whose steps all meet it. -/
theorem run_invariant {I : S → Prop} (hstep : ∀ s a, I s → ok s a → I (step s a)) {s : S}
    (h : I s) {as : List A} (hm : Meets step ok s as) : I (run step s as) := by
  induction as generalizing s with
  | nil => exact h
  | cons a as ih => exact ih (hstep s a h hm.1) hm.2

/-- An invariant kept by every step holds at the end of every run. -/
theorem run_invariant_of_forall {I : S → Prop} (hstep : ∀ s a, I s → I (step s a)) {s : S}
    (h : I s) (as : List A) : I (run step s as) := by
  induction as generalizing s with
  | nil => exact h
  | cons a as ih => exact ih (hstep s a h)

/-- **The exact contract.**  If from every invariant state a step reaches `P` exactly when it meets
the contract, then `P` holds all along a run exactly when every step of it meets the contract. -/
theorem forall_prefix_iff_meets {I P : S → Prop} (hP : ∀ s, I s → P s)
    (hstep : ∀ s a, I s → ok s a → I (step s a)) (hiff : ∀ s a, I s → (P (step s a) ↔ ok s a))
    {s : S} (h : I s) (as : List A) :
    (∀ p, p <+: as → P (run step s p)) ↔ Meets step ok s as := by
  induction as generalizing s with
  | nil => simp [Meets, hP s h]
  | cons a as ih =>
    constructor
    · intro hall
      have ha : ok s a := (hiff s a h).mp (hall [a] ⟨as, rfl⟩)
      refine ⟨ha, (ih (hstep s a h ha)).mp fun p hp => ?_⟩
      exact hall (a :: p) (List.cons_prefix_cons.mpr ⟨rfl, hp⟩)
    · rintro ⟨ha, hm⟩ p hp
      cases p with
      | nil => exact hP s h
      | cons b p =>
        obtain ⟨hb, hp'⟩ := List.cons_prefix_cons.mp hp
        subst hb
        exact (ih (hstep s b h ha)).mpr hm p hp'

/-- **The exact contract of steps.**  If a step from an invariant state has the property `P` exactly
when it meets `Q`, then all steps of a run have `P` exactly when they all meet `Q`.  The run may
have a contract of its own to keep. -/
theorem forall_step_iff_meets {I : S → Prop} {P Q : S → A → Prop}
    (hstep : ∀ s a, I s → ok s a → Q s a → I (step s a))
    (hiff : ∀ s a, I s → ok s a → (P s a ↔ Q s a)) {s : S} (h : I s) {as : List A}
    (hm : Meets step ok s as) :
    (∀ p a, p ++ [a] <+: as → P (run step s p) a) ↔ Meets step Q s as := by
  induction as generalizing s with
  | nil => simp [Meets]
  | cons a as ih =>
    obtain ⟨hok, hrest⟩ := hm
    have hiff' := hiff s a h hok
    constructor
    · intro hall
      have hQ : Q s a := hiff'.mp (hall [] a ⟨as, rfl⟩)
      refine ⟨hQ, (ih (hstep s a h hok hQ) hrest).mp ?_⟩
      intro p b hp
      exact hall (a :: p) b (List.cons_prefix_cons.mpr ⟨rfl, hp⟩)
    · rintro ⟨hQ, hmeets⟩ p b hp
      cases p with
      | nil =>
        obtain ⟨rfl, -⟩ := List.cons_prefix_cons.mp hp
        exact hiff'.mpr hQ
      | cons c p =>
        obtain ⟨rfl, hp'⟩ := List.cons_prefix_cons.mp hp
        exact (ih (hstep s c h hok hQ) hrest).mpr hmeets p b hp'

end Runs
