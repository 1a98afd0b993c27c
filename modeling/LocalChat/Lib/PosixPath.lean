import Mathlib.Data.List.Basic
import Mathlib.Tactic.Common

/-!
# POSIX paths

A path is a byte string.  `join` is `operator/` of `std::filesystem::path`, `descend base p`
walks the components of `p` from the directory `base`, and `resolve p` walks them from the
root directory: the lexical normal form of an absolute path, as a list of names.

* `descend_join`: joining two paths is walking one after the other, unless the second is
  absolute.
* `descend_eq`: a walk climbs `climb p` levels and then goes down along `below p`; both depend
  on `p` alone.
* `descend_eq_append_iff`: hence a walk ends below its start exactly when it spells the names
  it climbed past again.
* `resolve_join_eq_append_iff`: the same for a joined path, absolute or not.
* `descend_name`: an ordinary name goes down one level.
-/

namespace PosixPath

abbrev sep : UInt8 := 47

abbrev dot : UInt8 := 46

abbrev Name := List UInt8

def isAbsolute (p : List UInt8) : Bool := p.head? = some sep

/-- The path ends in a file name, so that a separator is put before what is joined to it. -/
def hasFilename (p : List UInt8) : Bool := p ≠ [] ∧ p.getLast? ≠ some sep

/-- `operator/`: an absolute right operand replaces the left one. -/
def join (p q : List UInt8) : List UInt8 :=
  if isAbsolute q then q
  else if hasFilename p then p ++ sep :: q
  else p ++ q

/-- One component of a path: empty ones and `.` stay, `..` goes to the parent. -/
def enter (here : List Name) (c : Name) : List Name :=
  if c = [] ∨ c = [dot] then here
  else if c = [dot, dot] then here.dropLast
  else here ++ [c]

def descend (base : List Name) (p : List UInt8) : List Name := (p.splitOn sep).foldl enter base

def resolve (p : List UInt8) : List Name := descend [] p

def IsName (n : Name) : Prop := n ≠ [] ∧ sep ∉ n ∧ n ≠ [dot] ∧ n ≠ [dot, dot]

instance (n : Name) : Decidable (IsName n) := inferInstanceAs (Decidable (_ ∧ _ ∧ _ ∧ _))

/-! ### Walking along a joined path -/

@[simp] theorem descend_nil (base : List Name) : descend base [] = base := rfl

theorem descend_append_sep (base : List Name) (p q : List UInt8) :
    descend base (p ++ sep :: q) = descend (descend base p) q := by
  rw [descend, List.splitOn_append_cons_self, List.foldl_append]
  rfl

theorem descend_name {n : Name} (h : IsName n) (base : List Name) :
    descend base n = base ++ [n] := by
  obtain ⟨hne, hsep, hdot, hdots⟩ := h
  rw [descend, List.splitOn_eq_singleton hsep, List.foldl_cons, List.foldl_nil, enter,
    if_neg (by simp [hne, hdot]), if_neg hdots]

theorem isAbsolute_name {n : Name} (h : IsName n) : isAbsolute n = false := by
  obtain ⟨-, hsep, -, -⟩ := h
  rw [isAbsolute, decide_eq_false_iff_not]
  intro hhead
  exact hsep (List.mem_of_mem_head? hhead)

theorem descend_join_of_relative {q : List UInt8} (h : isAbsolute q = false) (base : List Name)
    (p : List UInt8) : descend base (join p q) = descend (descend base p) q := by
  rw [join, h, if_neg Bool.false_ne_true]
  by_cases hp : hasFilename p
  · rw [if_pos hp, descend_append_sep]
  · rw [if_neg hp]
    simp only [hasFilename, decide_eq_true_eq, not_and_or, not_not] at hp
    rcases hp with rfl | hlast
    · rfl
    · obtain ⟨p, rfl⟩ : ∃ p', p = p' ++ [sep] := List.getLast?_eq_some_iff.mp hlast
      rw [List.append_assoc, List.singleton_append, descend_append_sep, descend_append_sep]
      rfl

theorem isAbsolute_join {p : List UInt8} (h : isAbsolute p = true) (q : List UInt8) :
    isAbsolute (join p q) = true := by
  unfold join
  cases hq : isAbsolute q with
  | true => exact hq
  | false =>
    rw [if_neg Bool.false_ne_true]
    cases p with
    | nil => cases h
    | cons c p => split <;> exact h

/-- **Joining is walking on**, unless the right operand is absolute. -/
theorem descend_join (base : List Name) (p q : List UInt8) :
    descend base (join p q) =
      if isAbsolute q then descend base q else descend (descend base p) q := by
  cases h : isAbsolute q with
  | true => simp [join, h]
  | false => simp [descend_join_of_relative h]

/-! ### Climbing and going down -/

/-- What a walk has done so far: how far above its start it is, and the names it went down. -/
def trail (t : Nat × List Name) (c : Name) : Nat × List Name :=
  if c = [] ∨ c = [dot] then t
  else if c = [dot, dot] then
    if t.2 = [] then (t.1 + 1, []) else (t.1, t.2.dropLast)
  else (t.1, t.2 ++ [c])

def trailOf (p : List UInt8) : Nat × List Name := (p.splitOn sep).foldl trail (0, [])

/-- How many levels the path climbs above its start. -/
def climb (p : List UInt8) : Nat := (trailOf p).1

/-- The names the path goes down along after it has climbed. -/
def below (p : List UInt8) : List Name := (trailOf p).2

/-- Where a trail leads from `base`. -/
def endOf (base : List Name) (t : Nat × List Name) : List Name :=
  base.take (base.length - t.1) ++ t.2

theorem endOf_trail (base : List Name) (t : Nat × List Name) (c : Name) :
    endOf base (trail t c) = enter (endOf base t) c := by
  obtain ⟨u, names⟩ := t
  rw [trail, enter]
  by_cases hstay : c = [] ∨ c = [dot]
  · rw [if_pos hstay, if_pos hstay]
  · rw [if_neg hstay, if_neg hstay]
    by_cases hup : c = [dot, dot]
    · rw [if_pos hup, if_pos hup]
      by_cases hnames : names = []
      · subst hnames
        rw [if_pos rfl, endOf, endOf, List.append_nil, List.append_nil, List.dropLast_eq_take,
          List.take_take, List.length_take]
        congr 1
        omega
      · rw [if_neg hnames, endOf, endOf, List.dropLast_append_of_ne_nil hnames]
    · rw [if_neg hup, if_neg hup, endOf, endOf, List.append_assoc]

/-- **Every walk climbs first and then goes down**, the same way from every start. -/
theorem descend_eq (base : List Name) (p : List UInt8) :
    descend base p = base.take (base.length - climb p) ++ below p := by
  -- the trail and the walk take the same components, one by one
  have hfold : ∀ cs : List Name, ∀ t,
      endOf base (cs.foldl trail t) = cs.foldl enter (endOf base t) := by
    intro cs
    induction cs with
    | nil => intro t; rfl
    | cons c cs ih => intro t; rw [List.foldl_cons, List.foldl_cons, ih, endOf_trail]
  have h := hfold (p.splitOn sep) (0, [])
  have hstart : endOf base (0, []) = base := by simp [endOf]
  rw [hstart] at h
  exact h.symm

/-- **A walk ends below its start** exactly when, after climbing, it spells the names it climbed
past again and goes on along `ns`. -/
theorem descend_eq_append_iff (base : List Name) (p : List UInt8) (ns : List Name) :
    descend base p = base ++ ns ↔ below p = base.drop (base.length - climb p) ++ ns := by
  rw [descend_eq]
  have hsplit : base ++ ns = base.take (base.length - climb p) ++
      (base.drop (base.length - climb p) ++ ns) := by
    rw [← List.append_assoc, List.take_append_drop]
  rw [hsplit, List.append_cancel_left_eq]

/-- How many names of the directory `base` a path joined to it leaves standing: those it does not
climb past, or none if it is absolute. -/
def kept (base : List Name) (p : List UInt8) : Nat :=
  if isAbsolute p then 0 else base.length - climb p

/-- **A joined path ends below its left operand** exactly when its right operand spells the names
it does not leave standing again. -/
theorem resolve_join_eq_append_iff (p q : List UInt8) (ns : List Name) :
    resolve (join p q) = resolve p ++ ns ↔
      below q = (resolve p).drop (kept (resolve p) q) ++ ns := by
  rw [resolve, descend_join, kept]
  cases h : isAbsolute q with
  | true =>
    rw [if_pos rfl, if_pos rfl, descend_eq, List.take_nil, List.nil_append, List.drop_zero]
  | false =>
    rw [if_neg Bool.false_ne_true, if_neg Bool.false_ne_true]
    exact descend_eq_append_iff _ _ _

end PosixPath
