import Mathlib.Data.List.Nodup
import Mathlib.Logic.Function.Basic

/-!
# Linked lists on a heap

A heap maps addresses to cells, and a pointer is an address or null.  Reading through null or
through an address without a cell (it was never allocated, or it has been freed) is a fault; so is a
loop that has not ended when its fuel is used up.

* `Ends f r`: with enough fuel the program `f` has the result `r`; `Ends.bind_iff` composes
  programs.
* `Seg h p as q`: from `p` on the cells `as` are linked one to the next, and the last one to `q`.
  `Chain` is a segment that ends in null.
* `Chain.unique`, `Chain.nodup`: a pointer has at most one chain, so no cell is in it twice.
* `Seg.frame`, `Seg.storeNext_last`: what a write elsewhere leaves, and a write to the last cell.
* `Chain.unlink`: taking a cell out of a chain.
-/

namespace HeapLists

/-! ### Heaps -/

inductive Fault
  /-- null is dereferenced -/
  | null
  /-- an address without a cell is dereferenced or freed -/
  | dangling
  /-- a loop has not ended -/
  | fuel
  deriving DecidableEq, Repr

structure Cell (P D : Type*) where
  next : Option P
  data : D
  deriving DecidableEq, Repr

/-- The cells by their addresses; null is no address. -/
abbrev Heap (P D : Type*) := P → Option (Cell P D)

variable {P D : Type*} {h h' : Heap P D} {p q : Option P} {a : P} {as bs : List P} {c : Cell P D}

def load (h : Heap P D) : Option P → Except Fault (Cell P D)
  | none => .error .null
  | some a => (h a).elim (.error .dangling) .ok

theorem load_some (hc : h a = some c) : load h (some a) = .ok c := by
  rw [load, hc]
  rfl

section Write

variable [DecidableEq P]

/-- `p->next = q`. -/
def storeNext (h : Heap P D) (p q : Option P) : Except Fault (Heap P D) :=
  match p with
  | none => .error .null
  | some a => (h a).elim (.error .dangling) fun c =>
      .ok (Function.update h a (some { c with next := q }))

/-- `p->data = d`. -/
def storeData (h : Heap P D) (p : Option P) (d : D) : Except Fault (Heap P D) :=
  match p with
  | none => .error .null
  | some a => (h a).elim (.error .dangling) fun c =>
      .ok (Function.update h a (some { c with data := d }))

/-- `free(p)`, which accepts null. -/
def free (h : Heap P D) : Option P → Except Fault (Heap P D)
  | none => .ok h
  | some a => (h a).elim (.error .dangling) fun _ => .ok (Function.update h a none)

theorem storeNext_some (hc : h a = some c) (q : Option P) :
    storeNext h (some a) q = .ok (Function.update h a (some { c with next := q })) := by
  rw [storeNext, hc]
  rfl

theorem storeData_some (hc : h a = some c) (d : D) :
    storeData h (some a) d = .ok (Function.update h a (some { c with data := d })) := by
  rw [storeData, hc]
  rfl

theorem free_some (hc : h a = some c) : free h (some a) = .ok (Function.update h a none) := by
  rw [free, hc]
  rfl

end Write

/-! ### Programs that end -/

section Ends

universe u

variable {α β : Type u} {f : Nat → Except Fault α} {g : α → Nat → Except Fault β}
  {r r' : Except Fault α} {s : Except Fault β} {x : α}

/-- With enough fuel the program has this result. -/
def Ends (f : Nat → Except Fault α) (r : Except Fault α) : Prop :=
  ∃ n, ∀ m ≥ n, f m = r

/-- A loop that has fuel left makes a turn. -/
theorem exists_turn {n fuel : Nat} (h : n < fuel) : ∃ rest, fuel = rest + 1 :=
  Nat.exists_eq_succ_of_ne_zero (Nat.ne_of_gt (Nat.zero_lt_of_lt h))

theorem Ends.unique (hr : Ends f r) (hr' : Ends f r') : r = r' := by
  obtain ⟨n, hn⟩ := hr
  obtain ⟨n', hn'⟩ := hr'
  rw [← hn (max n n') (Nat.le_max_left n n'), hn' (max n n') (Nat.le_max_right n n')]

theorem Ends.of_forall (hf : ∀ n, f n = r) : Ends f r := ⟨0, fun m _ => hf m⟩

theorem Ends.bind_iff (hf : Ends f (.ok x)) :
    Ends (fun n => f n >>= fun y => g y n) s ↔ Ends (g x) s := by
  obtain ⟨n, hn⟩ := hf
  have hbind : ∀ m ≥ n, (f m >>= fun y => g y m) = g x m := by
    intro m hm
    rw [hn m hm]
    rfl
  constructor
  · rintro ⟨k, hk⟩
    refine ⟨max n k, fun m hm => ?_⟩
    rw [← hbind m (Nat.le_trans (Nat.le_max_left n k) hm)]
    exact hk m (Nat.le_trans (Nat.le_max_right n k) hm)
  · rintro ⟨k, hk⟩
    refine ⟨max n k, fun m hm => ?_⟩
    rw [← hk m (Nat.le_trans (Nat.le_max_right n k) hm)]
    exact hbind m (Nat.le_trans (Nat.le_max_left n k) hm)

theorem Ends.bind_error {e : Fault} (hf : Ends f (.error e)) :
    Ends (fun n => f n >>= fun y => g y n) (.error e) := by
  obtain ⟨n, hn⟩ := hf
  refine ⟨n, fun m hm => ?_⟩
  show f m >>= (fun y => g y m) = .error e
  rw [hn m hm]
  rfl

end Ends

/-! ### Segments -/

/-- From `p` on the cells `as` are linked one to the next, and the last one to `q`. -/
def Seg (h : Heap P D) : Option P → List P → Option P → Prop
  | p, [], q => p = q
  | p, a :: as, q => p = some a ∧ ∃ c, h a = some c ∧ Seg h c.next as q

abbrev Chain (h : Heap P D) (p : Option P) (as : List P) : Prop := Seg h p as none

theorem seg_append : Seg h p (as ++ bs) q ↔ ∃ m, Seg h p as m ∧ Seg h m bs q := by
  induction as generalizing p with
  | nil => simp [Seg]
  | cons a as ih =>
    simp only [List.cons_append, Seg, ih]
    constructor
    · rintro ⟨hp, c, hc, m, hm, hq⟩
      exact ⟨m, ⟨hp, c, hc, hm⟩, hq⟩
    · rintro ⟨m, ⟨hp, c, hc, hm⟩, hq⟩
      exact ⟨hp, c, hc, m, hm, hq⟩

theorem Seg.exists_cell (hs : Seg h p as q) (ha : a ∈ as) : ∃ c, h a = some c := by
  induction as generalizing p with
  | nil => cases ha
  | cons b as ih =>
    obtain ⟨-, c, hc, hs⟩ := hs
    rcases List.mem_cons.mp ha with rfl | ha
    · exact ⟨c, hc⟩
    · exact ih hs ha

/-- A segment stays where none of its cells changes. -/
theorem Seg.frame (hs : Seg h p as q) (hh : ∀ a ∈ as, h' a = h a) : Seg h' p as q := by
  induction as generalizing p with
  | nil => exact hs
  | cons b as ih =>
    obtain ⟨hp, c, hc, hs⟩ := hs
    refine ⟨hp, c, (hh b List.mem_cons_self).trans hc, ih hs ?_⟩
    exact fun a ha => hh a (List.mem_cons_of_mem b ha)

theorem Chain.eq_nil_iff (hs : Chain h p as) : p = none ↔ as = [] := by
  cases as with
  | nil => simpa [Seg] using hs
  | cons a as => simp [hs.1]

/-- **A pointer has at most one chain.** -/
theorem Chain.unique (hs : Chain h p as) (hs' : Chain h p bs) : as = bs := by
  induction as generalizing p bs with
  | nil => exact ((Chain.eq_nil_iff hs').mp hs).symm
  | cons a as ih =>
    obtain ⟨rfl, c, hc, hs⟩ := hs
    cases bs with
    | nil => cases hs'
    | cons b bs =>
      obtain ⟨hb, c', hc', hs'⟩ := hs'
      obtain rfl : a = b := Option.some.inj hb
      obtain rfl : c = c' := Option.some.inj (hc.symm.trans hc')
      rw [ih hs hs']

/-- **No cell is twice in a chain**: the chains from both places would be one. -/
theorem Chain.nodup (hs : Chain h p as) : as.Nodup := by
  induction as generalizing p with
  | nil => exact List.nodup_nil
  | cons a as ih =>
    have hrest : ∃ c, h a = some c ∧ Chain h c.next as := hs.2
    obtain ⟨c, hc, hnext⟩ := hrest
    refine List.nodup_cons.mpr ⟨fun hmem => ?_, ih hnext⟩
    obtain ⟨l, r, rfl⟩ := List.append_of_mem hmem
    obtain ⟨m, -, htail⟩ := seg_append.mp hnext
    have hhere : Chain h (some a) (a :: r) := ⟨rfl, htail.2⟩
    have hlong : Chain h (some a) (a :: (l ++ a :: r)) := ⟨rfl, c, hc, hnext⟩
    have hlen := congrArg List.length (Chain.unique hhere hlong)
    simp only [List.length_cons, List.length_append] at hlen
    omega

theorem Seg.storeNext_last [DecidableEq P] (hs : Seg h p (as ++ [a]) q) (ha : a ∉ as)
    (hc : h a = some c) (q' : Option P) :
    Seg (Function.update h a (some { c with next := q' })) p (as ++ [a]) q' := by
  obtain ⟨m, hm, hlast⟩ := seg_append.mp hs
  refine seg_append.mpr ⟨m, hm.frame fun b hb => ?_, hlast.1, _, Function.update_self _ _ _, rfl⟩
  refine Function.update_of_ne ?_ _ _
  rintro rfl
  exact ha hb

/-! ### Taking a cell out -/

section Unlink

variable [DecidableEq P] {prev x : P} {cprev : Cell P D}

/-- The cell `a` is freed, and `prev`, the cell before it, gets its link. -/
def unlink (h : Heap P D) (prev : P) (cprev : Cell P D) (a : P) (c : Cell P D) : Heap P D :=
  Function.update (Function.update h prev (some { cprev with next := c.next })) a none

theorem unlink_of_ne (hxp : x ≠ prev) (hxa : x ≠ a) : unlink h prev cprev a c x = h x := by
  rw [unlink, Function.update_of_ne hxa, Function.update_of_ne hxp]

theorem unlink_prev (hne : prev ≠ a) :
    unlink h prev cprev a c prev = some { cprev with next := c.next } := by
  rw [unlink, Function.update_of_ne hne, Function.update_self]

theorem unlink_data (hprev : h prev = some cprev) (hxa : x ≠ a) :
    (unlink h prev cprev a c x).map Cell.data = (h x).map Cell.data := by
  by_cases hxp : x = prev
  · rw [hxp, unlink_prev (hxp ▸ hxa), hprev]
    rfl
  · rw [unlink_of_ne hxp hxa]

/-- The write to `prev` and the `free` of `a`. -/
theorem storeNext_free (hprev : h prev = some cprev) (hc : h a = some c) (hne : a ≠ prev) :
    (do let h ← storeNext h (some prev) c.next; free h (some a)) =
      .ok (unlink h prev cprev a c) := by
  rw [storeNext_some hprev]
  refine free_some (c := c) ?_
  rw [Function.update_of_ne hne]
  exact hc

/-- What lies behind `a` is now linked to `prev`. -/
theorem Chain.unlink (hs : Chain h c.next as) (hne : prev ≠ a) (hprev : prev ∉ as) (ha : a ∉ as) :
    Chain (unlink h prev cprev a c) (some prev) (prev :: as) := by
  refine ⟨rfl, { cprev with next := c.next }, unlink_prev hne, hs.frame fun x hx => ?_⟩
  refine unlink_of_ne ?_ ?_
  · rintro rfl
    exact hprev hx
  · rintro rfl
    exact ha hx

end Unlink

/-! ### What the cells hold -/

def contents (h : Heap P D) (as : List P) : List D := as.filterMap fun a => (h a).map Cell.data

theorem contents_frame (hh : ∀ a ∈ as, (h' a).map Cell.data = (h a).map Cell.data) :
    contents h' as = contents h as := by
  rw [contents, contents]
  exact List.filterMap_congr hh

theorem contents_append : contents h (as ++ bs) = contents h as ++ contents h bs :=
  List.filterMap_append

end HeapLists
