import LocalChat.Discovery.Record

/-!
# Which side dials

The smaller name dials and the larger one waits, so of two hosts that find each other exactly one
should dial.  But a host compares its own name, in full, with the name of the peer as it comes out
of the browse record; the two hosts compare the same two strings only if both names survive the
codec.

`one_side_dials_iff`: names without spaces that are shorter than the field are the one kind of name
for which the rule always works.
-/

namespace LocalChat

open Octets

namespace Discovery

/-- A host that is announced as `x`, and has no session with the peer, decides whether to dial a
peer that is announced as `y`. -/
def dials (x y : DaemonService) : Bool :=
  (BVTCPConnectionManager.construct x.serviceName).mayDial (browsed y).serviceName

def OneDials (x y : DaemonService) : Prop := dials x y = !dials y x

instance (x y : DaemonService) : Decidable (OneDials x y) :=
  inferInstanceAs (Decidable (dials x y = !dials y x))

theorem dials_eq (x y : DaemonService) :
    dials x y = decide (x.serviceName < carried servnameMax y.serviceName) := by
  have hfree : ∀ n, (BVTCPConnectionManager.construct x.serviceName).isSessionAlreadyPresent n =
      false := fun n => rfl
  rw [dials, BVTCPConnectionManager.mayDial, hfree, browsed_eq, Bool.not_false, Bool.and_true]
  rfl

def Admissible (x : DaemonService) : Prop :=
  1 ≤ x.serviceName.length ∧ x.serviceName.length ≤ 63

instance : DecidablePred Admissible := fun x =>
  inferInstanceAs (Decidable (1 ≤ x.serviceName.length ∧ x.serviceName.length ≤ 63))

/-- How a name comes out of the codec. -/
inductive NameKind
  /-- unchanged -/
  | plain
  /-- without its spaces -/
  | spaced
  /-- empty -/
  | long
  deriving DecidableEq, Repr

def kindOf (x : DaemonService) : NameKind :=
  if x.serviceName.length < servnameMax then
    if space ∈ x.serviceName then .spaced else .plain
  else .long

/-! ### Pairs of names -/

/-- What the order of two names must be like for exactly one of them to dial: a name of 24 bytes or
more has to come before the other one without its spaces, and two shorter names have to be ordered
in one way only when the spaces of either one are taken out. -/
def Settled (x y : Bytes) : Prop :=
  if x.length < servnameMax then
    if y.length < servnameMax then (x < unspaced y ↔ ¬ y < unspaced x)
    else y < unspaced x
  else y.length < servnameMax ∧ x < unspaced y

theorem oneDials_iff_settled (x y : DaemonService) :
    OneDials x y ↔ Settled x.serviceName y.serviceName := by
  have hnil : ∀ s : Bytes, ¬ s < [] := fun s => List.not_lt_nil s
  rw [OneDials, dials_eq, dials_eq, Settled, carried, carried]
  by_cases hx : x.serviceName.length < servnameMax
  · by_cases hy : y.serviceName.length < servnameMax
    · simp only [hx, hy, if_true, ← decide_not, decide_eq_decide]
    · simp only [hx, hy, if_true, if_false, ← decide_not, decide_eq_decide, hnil, false_iff,
        not_not]
  · by_cases hy : y.serviceName.length < servnameMax
    · simp only [hx, hy, if_true, if_false, ← decide_not, decide_eq_decide, hnil,
        not_false_eq_true, iff_true, true_and]
    · simp only [hx, hy, if_false, ← decide_not, decide_eq_decide, hnil, not_false_eq_true,
        iff_true, false_and]

theorem kindOf_eq_plain_iff {x : DaemonService} : kindOf x = .plain ↔ Survives x.serviceName := by
  rw [kindOf, Survives]
  split
  case isTrue hlt => split <;> simp_all
  case isFalse hge => simp [hge]

theorem unspaced_of_survives {s : Bytes} (h : Survives s) : unspaced s = s := by
  refine List.filter_eq_self.mpr fun b hb => ?_
  exact decide_eq_true fun he => h.2 (he ▸ hb)

/-- On names that survive the codec the two hosts compare the same two strings. -/
theorem oneDials_of_plain {x y : DaemonService} (hne : x.serviceName ≠ y.serviceName)
    (hx : kindOf x = .plain) (hy : kindOf y = .plain) : OneDials x y := by
  rw [kindOf_eq_plain_iff] at hx hy
  rw [oneDials_iff_settled, Settled, if_pos hx.1, if_pos hy.1, unspaced_of_survives hx,
    unspaced_of_survives hy]
  constructor
  · exact fun hlt => List.lt_asymm hlt
  · intro hge
    rcases List.le_iff_lt_or_eq.mp (List.not_lt.mp hge) with hlt | heq
    · exact hlt
    · exact absurd heq hne

/-! ### Kinds of names -/

def host (name : Bytes) (h : 0 ∉ name) : DaemonService where
  serviceName := name
  -- "_localchathost._tcp."
  regtype := [95, 108, 111, 99, 97, 108, 99, 104, 97, 116, 104, 111, 115, 116, 46, 95, 116, 99, 112,
    46]
  -- "local."
  replyDomain := [108, 111, 99, 97, 108, 46]
  name_noNul := h
  type_noNul := by decide
  domain_noNul := by decide

theorem exists_not_oneDials {k l : NameKind} (h : ¬ (k = .plain ∧ l = .plain)) :
    ∃ x y, Admissible x ∧ Admissible y ∧ x.serviceName ≠ y.serviceName ∧ kindOf x = k ∧
      kindOf y = l ∧ ¬ OneDials x y := by
  -- "b", "b " and a name of 24 bytes; "b c" and "b a" take each other for "bc" and "ba"
  let b := host [98] (by decide)
  let bSpace := host [98, 32] (by decide)
  let c24 := host (List.replicate 24 99) (by decide)
  cases k with
  | plain =>
    cases l with
    | plain => exact absurd ⟨rfl, rfl⟩ h
    | spaced => exact ⟨b, bSpace, by decide⟩
    | long => exact ⟨b, c24, by decide⟩
  | spaced =>
    cases l with
    | plain => exact ⟨bSpace, b, by decide⟩
    | spaced => exact ⟨host [98, 32, 99] (by decide), host [98, 32, 97] (by decide), by decide⟩
    | long => exact ⟨bSpace, c24, by decide⟩
  | long =>
    cases l with
    | plain => exact ⟨c24, b, by decide⟩
    | spaced => exact ⟨c24, bSpace, by decide⟩
    | long => exact ⟨c24, host (List.replicate 24 100) (by decide), by decide⟩

/-- **Exactly one side dials**, of two given names, exactly if they are settled.  It holds for all
names of two kinds exactly if both kinds are plain. -/
theorem one_side_dials_iff (x y : DaemonService) :
    (OneDials x y ↔ Settled x.serviceName y.serviceName) ∧
      ∀ k l, (∀ u v, Admissible u → Admissible v → u.serviceName ≠ v.serviceName →
        kindOf u = k → kindOf v = l → OneDials u v) ↔ k = .plain ∧ l = .plain := by
  refine ⟨oneDials_iff_settled x y, fun k l => ⟨fun hall => ?_, ?_⟩⟩
  · by_contra hkinds
    obtain ⟨u, v, hu, hv, hne, hk, hl, hnot⟩ := exists_not_oneDials hkinds
    exact hnot (hall u v hu hv hne hk hl)
  · rintro ⟨rfl, rfl⟩ u v - - hne hu hv
    exact oneDials_of_plain hne hu hv

/-- The hosts `"bob"` and `"carol-with-a-very-long-name"`: neither dials. -/
theorem long_name_not_dialled :
    ∃ x y, Admissible x ∧ Admissible y ∧ x.serviceName ≠ y.serviceName ∧ ¬ OneDials x y :=
  ⟨host [98, 111, 98] (by decide),
    host [99, 97, 114, 111, 108, 45, 119, 105, 116, 104, 45, 97, 45, 118, 101, 114, 121, 45, 108,
      111, 110, 103, 45, 110, 97, 109, 101] (by decide), by decide⟩

end Discovery

end LocalChat
