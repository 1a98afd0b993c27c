import Mathlib.Data.List.Basic

/-!
# Histories

A history is the list of what has happened, the newest entry last.  `Since P Q h` is the past-time
operator *since*: some entry of `h` satisfied `Q`, which may also look at what came before it, and
every later entry satisfies `P`.

* `since_concat`: how one more entry decides the matter.
* `since_of_mem`, `exists_mem_of_since`: the matter when no entry contradicts, or none supports it.
-/

namespace History

variable {α : Type*} {P : α → Prop} {Q : List α → α → Prop}

/-- `Q` has happened and `P` has held ever since. -/
def Since (P : α → Prop) (Q : List α → α → Prop) (h : List α) : Prop :=
  ∃ before x after, h = before ++ x :: after ∧ Q before x ∧ ∀ y ∈ after, P y

theorem not_since_nil : ¬ Since P Q [] := by
  rintro ⟨before, x, after, h, -⟩
  cases before <;> cases h

/-- **The unrolling of since.**  It holds after one more entry if that entry satisfies `Q`, or if it
held before and the entry satisfies `P`. -/
theorem since_concat {h : List α} {y : α} :
    Since P Q (h ++ [y]) ↔ Q h y ∨ (P y ∧ Since P Q h) := by
  constructor
  · rintro ⟨before, x, after, hsplit, hQ, hP⟩
    rcases List.eq_nil_or_concat after with rfl | ⟨after, z, rfl⟩
    · obtain ⟨rfl, hyx⟩ := List.append_inj' hsplit rfl
      cases hyx
      exact .inl hQ
    · rw [List.concat_eq_append, ← List.cons_append, ← List.append_assoc] at hsplit
      obtain ⟨rfl, hyz⟩ := List.append_inj' hsplit rfl
      cases hyz
      refine .inr ⟨hP y (by simp), before, x, after, rfl, hQ, fun w hw => hP w ?_⟩
      simp [hw]
  · rintro (hQ | ⟨hy, before, x, after, rfl, hQ, hP⟩)
    · exact ⟨h, y, [], rfl, hQ, by simp⟩
    · refine ⟨before, x, after ++ [y], by simp, hQ, fun w hw => ?_⟩
      rcases List.mem_append.mp hw with hw | hw
      · exact hP w hw
      · rw [List.mem_singleton.mp hw]
        exact hy

theorem since_of_mem {Q : α → Prop} {h : List α} {x : α} (hmem : x ∈ h) (hQ : Q x)
    (hP : ∀ y ∈ h, P y) : Since P (fun _ => Q) h := by
  obtain ⟨before, after, rfl⟩ := List.append_of_mem hmem
  refine ⟨before, x, after, rfl, hQ, fun y hy => hP y ?_⟩
  exact List.mem_append_right _ (List.mem_cons_of_mem _ hy)

theorem exists_mem_of_since {Q : α → Prop} {h : List α} (hs : Since P (fun _ => Q) h) :
    ∃ x ∈ h, Q x := by
  obtain ⟨before, x, after, rfl, hQ, -⟩ := hs
  exact ⟨x, List.mem_append_right _ List.mem_cons_self, hQ⟩

end History
