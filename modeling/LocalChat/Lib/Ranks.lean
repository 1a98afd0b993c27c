import Mathlib.Data.List.Count
import Mathlib.Data.List.Sort

/-!
# Ranks

The rank of an element is the number of elements below it.  In a sorted list without duplicates it
is the element's index (`getElem?_insertionSort_iff`), so that what an insertion or a removal does
to the indices is read off from `rank_insert` and `rank_erase`.
-/

namespace Ranks

variable {α : Type*}

theorem getElem?_filterMap {β : Type*} {f : α → Option β} {l : List α}
    (h : ∀ a ∈ l, (f a).isSome) (k : Nat) : (l.filterMap f)[k]? = l[k]?.bind f := by
  induction l generalizing k with
  | nil => rfl
  | cons a l ih =>
    obtain ⟨b, hb⟩ := Option.isSome_iff_exists.mp (h a List.mem_cons_self)
    rw [List.filterMap_cons_some hb]
    cases k with
    | zero => simp [hb]
    | succ k => simpa using ih (fun c hc => h c (List.mem_cons_of_mem a hc)) k

variable [LT α] [DecidableLT α]

def rank (l : List α) (a : α) : Nat := l.countP (· < a)

theorem rank_cons (l : List α) (a b : α) :
    rank (a :: l) b = rank l b + if a < b then 1 else 0 := by
  simp [rank, List.countP_cons]

theorem rank_perm {l l' : List α} (h : l.Perm l') (a : α) : rank l a = rank l' a :=
  h.countP_eq _

theorem rank_eq_zero_iff {l : List α} {a : α} : rank l a = 0 ↔ ∀ b ∈ l, ¬ b < a := by
  simp [rank, List.countP_eq_zero]

section Erase

variable [DecidableEq α]

theorem rank_erase (l : List α) (a b : α) :
    rank (l.erase a) b = rank l b - if a ∈ l ∧ a < b then 1 else 0 := by
  rw [rank, rank, List.countP_erase]
  simp

/-- An element that is put in, in place of its old copy if there is one. -/
theorem rank_insert (l : List α) (a b : α) :
    rank (a :: l.erase a) b = rank l b + if a ∉ l ∧ a < b then 1 else 0 := by
  rw [rank_cons, rank_erase]
  by_cases hlt : a < b
  · by_cases hmem : a ∈ l
    · have hpos : 0 < rank l b := List.countP_pos_iff.mpr ⟨a, hmem, by simpa using hlt⟩
      simp only [hlt, hmem, and_self, if_true, not_true, false_and, if_false]
      omega
    · simp [hlt, hmem]
  · simp [hlt]

end Erase

section Order

variable [LE α] [Std.IsLinearOrder α] [Std.LawfulOrderLT α]

theorem getElem?_iff_rank {l : List α} (h : l.Pairwise (· < ·)) {k : Nat} {a : α} :
    l[k]? = some a ↔ a ∈ l ∧ rank l a = k := by
  induction l generalizing k with
  | nil => simp
  | cons b l ih =>
    obtain ⟨hb, hl⟩ := List.pairwise_cons.mp h
    -- nothing is below the head
    have hhead : rank (b :: l) b = 0 := by
      rw [rank_eq_zero_iff]
      intro c hc hlt
      obtain rfl | hc := List.mem_cons.mp hc
      · exact Std.lt_irrefl hlt
      · exact Std.lt_irrefl (Std.lt_trans hlt (hb c hc))
    have htail : ∀ c ∈ l, rank (b :: l) c = rank l c + 1 := fun c hc => by
      rw [rank_cons, if_pos (hb c hc)]
    cases k with
    | zero =>
      rw [List.getElem?_cons_zero, Option.some.injEq]
      constructor
      · rintro rfl
        exact ⟨List.mem_cons_self, hhead⟩
      · rintro ⟨hmem, hrank⟩
        obtain rfl | hmem := List.mem_cons.mp hmem
        · rfl
        · rw [htail a hmem] at hrank
          cases hrank
    | succ k =>
      rw [List.getElem?_cons_succ, ih hl]
      constructor
      · rintro ⟨hmem, rfl⟩
        exact ⟨List.mem_cons_of_mem b hmem, htail a hmem⟩
      · rintro ⟨hmem, hrank⟩
        obtain rfl | hmem := List.mem_cons.mp hmem
        · rw [hhead] at hrank
          cases hrank
        · rw [htail a hmem] at hrank
          exact ⟨hmem, Nat.succ.inj hrank⟩

/-- **Ranks are indices.** -/
theorem getElem?_insertionSort_iff [DecidableLE α] {l : List α} (h : l.Nodup) {k : Nat} {a : α} :
    (l.insertionSort (· ≤ ·))[k]? = some a ↔ a ∈ l ∧ rank l a = k := by
  have hperm := List.perm_insertionSort (· ≤ ·) l
  have hsorted : (l.insertionSort (· ≤ ·)).Pairwise (· < ·) := by
    have hle := List.pairwise_insertionSort (· ≤ ·) l
    have hne : (l.insertionSort (· ≤ ·)).Pairwise (· ≠ ·) := hperm.nodup_iff.mpr h
    refine (hle.and hne).imp fun hlt => ?_
    exact Std.lt_of_le_of_ne hlt.1 hlt.2
  rw [getElem?_iff_rank hsorted, hperm.mem_iff, rank_perm hperm]

end Order

end Ranks
