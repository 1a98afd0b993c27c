import Mathlib.Order.Monotone.Defs
import Mathlib.Order.Lattice

/-!
# Ladders

A table of bounds and values is read from the top: `ladder top rows x` is the value of the first row
whose bound lies above `x`, and `top` when there is none.  A row has no lower bound of its own, so
the rows leave no gaps.

`ladder_mono`: a ladder whose values do not fall is monotone, however its bounds are ordered.
-/

namespace Ladders

variable {α β : Type*} [LinearOrder α] [Preorder β] {top : β}

/-- The value of the first row whose bound lies above `x`. -/
def ladder (top : β) : List (α × β) → α → β
  | [], _ => top
  | (bound, value) :: rows, x => if x < bound then value else ladder top rows x

theorem le_ladder {v : β} {rows : List (α × β)} (h : ∀ r ∈ rows, v ≤ r.2) (htop : v ≤ top)
    (x : α) : v ≤ ladder top rows x := by
  induction rows with
  | nil => exact htop
  | cons r rows ih =>
    rw [ladder]
    split
    · exact h r List.mem_cons_self
    · exact ih fun r' hr' => h r' (List.mem_cons_of_mem r hr')

/-- **Ladders are monotone** when their values are in order. -/
theorem ladder_mono {rows : List (α × β)} (h : (rows.map Prod.snd ++ [top]).Pairwise (· ≤ ·)) :
    Monotone (ladder top rows) := by
  induction rows with
  | nil => exact fun _ _ _ => le_refl top
  | cons r rows ih =>
    obtain ⟨hle, hrest⟩ := List.pairwise_cons.mp h
    intro x y hxy
    rw [ladder, ladder]
    by_cases hy : y < r.1
    · rw [if_pos hy, if_pos (hxy.trans_lt hy)]
    · rw [if_neg hy]
      split
      · -- `x` stops at this row and `y` goes further down
        refine le_ladder (fun r' hr' => hle _ ?_) (hle _ ?_) y
        · exact List.mem_append_left _ (List.mem_map_of_mem hr')
        · exact List.mem_append_right _ List.mem_cons_self
      · exact ih hrest hxy

end Ladders
