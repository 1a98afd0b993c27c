import LocalChat.Client.Basic
import LocalChat.Discovery.Glare
import LocalChat.Discovery.Resolution

/-!
# Which side dials, on two platforms

The two hosts need not run on the same platform.  Over Avahi `browse_callback` has every service
resolved at once, but for one that it takes for this host: it compares as many bytes of the two
names as the found name has, and so takes every prefix of the own name for the own name.  Over
Bonjour the app asks for what it has read from the browse record, and the daemon finds a service
under its announced name only.

* `resolves_of_lt`: the names that Avahi's comparison wrongly takes for this host would not be
  dialled either.
* `dials_iff`: so a host dials a larger name exactly if its platform can carry it, and the name is
  not the one that stands for a failed resolution.
* `one_side_dials_between_iff`: which names have exactly one side dial, for each pair of platforms.
-/

namespace LocalChat

open Octets

theorem lt_iff_take_lt {n : Nat} {x y : Bytes} (h : x.take n ≠ y.take n) :
    x < y ↔ x.take n < y.take n := by
  induction n generalizing x y with
  | zero => exact absurd rfl h
  | succ n ih =>
    cases x with
    | nil =>
      cases y with
      | nil => exact absurd rfl h
      | cons b y => simp
    | cons a x =>
      cases y with
      | nil => simp
      | cons b y =>
        rw [List.take_succ_cons, List.take_succ_cons, List.cons_lt_cons_iff, List.cons_lt_cons_iff]
        by_cases hab : a = b
        · subst hab
          have htail : x.take n ≠ y.take n := by
            intro heq
            exact h (by rw [List.take_succ_cons, List.take_succ_cons, heq])
          rw [ih htail]
        · simp only [hab, false_and]

namespace Discovery

/-! ### The decision -/

/-- The test of `browse_callback`, `strncmp(hostname, name, strlen(name)) != 0`: the service is not
taken for this host. -/
def resolves (hostname name : Bytes) : Bool := !name.isPrefixOf hostname

/-- `HandleResolvedServices` on the first result for a service, of a host that has no session. -/
def dialsResolved (hostname : Bytes) (res : Resolved) (attempts : Fin 5 → Bool) : Bool :=
  resolveServiceToEndpoint res.serviceName attempts ≠ errorName &&
    (BVTCPConnectionManager.construct hostname).mayDial res.serviceName

def dialsOverAvahi (hostname : Bytes) (r : Report) (m : Surroundings) (attempts : Fin 5 → Bool) :
    Bool :=
  resolves hostname r.serviceName &&
    (overAvahi r m).any fun res => dialsResolved hostname res attempts

/-- The same of a host that browses and resolves over Bonjour.  `HandlePublishedServices` does not
ask for its own name; the daemon knows the service by its announced name. -/
def dialsOverBonjour (hostname : Bytes) (r : Report) (m : Surroundings) (attempts : Fin 5 → Bool) :
    Bool :=
  let lElem := browsed r.toDaemonService
  lElem.serviceName ≠ hostname && lElem.serviceName = r.serviceName &&
    (overBonjour r m).any fun res => dialsResolved hostname res attempts

inductive Platform
  | avahi
  | bonjour
  deriving DecidableEq, Repr

/-- A host of the platform decides whether to dial a peer that its daemon reports as `r`. -/
def Platform.dials : Platform → Bytes → Report → Surroundings → (Fin 5 → Bool) → Bool
  | .avahi => dialsOverAvahi
  | .bonjour => dialsOverBonjour

def Platform.Reaches : Platform → Bytes → Prop
  | .avahi, _ => True
  | .bonjour, name => Survives name

instance : ∀ (p : Platform) (name : Bytes), Decidable (p.Reaches name)
  | .avahi, _ => .isTrue trivial
  | .bonjour, name => inferInstanceAs (Decidable (Survives name))

/-! ### The name that is resolved -/

variable {r : Report}

/-- The name the app reads.  The services of the program have no TXT record. -/
def resolvedName (r : Report) (m : Surroundings) : Bytes :=
  (fillResult r m.avahi m.malloc).string serviceNameAt

theorem resolvedName_of_lt (htxt : r.txt = []) (h : r.serviceName.length < servnameMax)
    (m : Surroundings) : resolvedName r m = r.serviceName := by
  apply (serviceName_eq_iff h m.avahi m.malloc).mpr
  rw [htxt]
  exact List.nil_prefix

/-- A name that fills the field runs on into the next one. -/
theorem take_resolvedName (htxt : r.txt = []) (m : Surroundings) :
    (resolvedName r m).take servnameMax = r.serviceName.take servnameMax := by
  apply Block.take_string r.name_noNul
  intro i his hi
  rw [byte_serviceName hi his, htxt, if_neg (by simp)]

/-! ### Which side dials -/

/-- A service that is wrongly taken for this host comes before it. -/
theorem resolves_of_lt {hostname name : Bytes} (h : hostname < name) :
    resolves hostname name = true := by
  unfold resolves
  rw [Bool.not_eq_true', Bool.eq_false_iff]
  intro hprefix
  have hle := (List.isPrefixOf_iff_prefix.mp hprefix).le
  exact hle h

theorem dialsOverAvahi_iff {hostname : Bytes} (htxt : r.txt = []) {m : Surroundings}
    {attempts : Fin 5 → Bool} (hattempts : ∃ i, attempts i = true)
    (hne : hostname.take servnameMax ≠ r.serviceName.take servnameMax) :
    dialsOverAvahi hostname r m attempts = true ↔
      hostname < r.serviceName ∧ r.serviceName ≠ errorName := by
  have htake := take_resolvedName htxt m
  -- the first 24 bytes decide
  have hlt : hostname < resolvedName r m ↔ hostname < r.serviceName := by
    rw [lt_iff_take_lt hne, lt_iff_take_lt (by rwa [htake]), htake]
  have herror : resolvedName r m = errorName ↔ r.serviceName = errorName := by
    by_cases h : r.serviceName.length < servnameMax
    · rw [resolvedName_of_lt htxt h]
    · have hlen : servnameMax ≤ (resolvedName r m).length := by
        have hcongr := congrArg List.length htake
        rw [List.length_take, List.length_take] at hcongr
        omega
      refine iff_of_false (fun heq => ?_) (fun heq => ?_)
      · rw [heq] at hlen
        exact absurd hlen (by decide)
      · rw [heq] at h
        exact h (by decide)
  have hdials : dialsOverAvahi hostname r m attempts = true ↔
      resolves hostname r.serviceName = true ∧ resolvedName r m ≠ errorName ∧
        hostname < resolvedName r m := by
    unfold dialsOverAvahi dialsResolved resolveServiceToEndpoint
    rw [overAvahi_eq, Bool.and_eq_true, Option.any_some, if_pos hattempts, Bool.and_eq_true,
      decide_eq_true_eq, BVTCPConnectionManager.mayDial, Bool.and_eq_true, decide_eq_true_eq]
    simp only [BVTCPConnectionManager.isSessionAlreadyPresent]
    exact and_congr_right fun _ => and_congr_right fun _ => and_iff_left rfl
  rw [hdials, hlt, ne_eq, herror]
  apply Iff.intro
  · rintro ⟨-, hname, hless⟩
    exact ⟨hless, hname⟩
  · rintro ⟨hless, hname⟩
    exact ⟨resolves_of_lt hless, hname, hless⟩

theorem dialsOverBonjour_iff {hostname : Bytes} {m : Surroundings} {attempts : Fin 5 → Bool}
    (hattempts : ∃ i, attempts i = true) :
    dialsOverBonjour hostname r m attempts = true ↔
      hostname < r.serviceName ∧ Survives r.serviceName ∧ r.serviceName ≠ errorName := by
  have hdials : dialsOverBonjour hostname r m attempts = true ↔
      (carried servnameMax r.serviceName ≠ hostname ∧ Survives r.serviceName) ∧
        r.serviceName.take (servnameMax - 1) ≠ errorName ∧
          hostname < r.serviceName.take (servnameMax - 1) := by
    unfold dialsOverBonjour dialsResolved resolveServiceToEndpoint
    rw [overBonjour_eq, browsed_eq, Bool.and_eq_true, Bool.and_eq_true, Option.any_some,
      if_pos hattempts, Bool.and_eq_true, decide_eq_true_eq, decide_eq_true_eq, decide_eq_true_eq,
      BVTCPConnectionManager.mayDial, Bool.and_eq_true, decide_eq_true_eq, carried_eq_iff (by decide)]
    simp only [BVTCPConnectionManager.isSessionAlreadyPresent]
    exact and_congr_right fun _ => and_congr_right fun _ => and_iff_left rfl
  rw [hdials]
  apply Iff.intro
  · rintro ⟨⟨-, hsurvives⟩, hname, hless⟩
    have hlen := hsurvives.1
    rw [List.take_of_length_le (by omega)] at hname hless
    exact ⟨hless, hsurvives, hname⟩
  · rintro ⟨hless, hsurvives, hname⟩
    have hlen := hsurvives.1
    rw [List.take_of_length_le (by omega), (carried_eq_iff (by decide) _).mpr hsurvives]
    refine ⟨⟨fun heq => ?_, hsurvives⟩, hname, hless⟩
    rw [heq] at hless
    exact List.lt_irrefl _ hless

/-- **Who dials**: a host dials a larger name that reaches it and does not stand for a failed
resolution. -/
theorem dials_iff (p : Platform) {hostname : Bytes} (htxt : r.txt = []) {m : Surroundings}
    {attempts : Fin 5 → Bool} (hattempts : ∃ i, attempts i = true)
    (hne : hostname.take servnameMax ≠ r.serviceName.take servnameMax) :
    p.dials hostname r m attempts = true ↔
      hostname < r.serviceName ∧ p.Reaches r.serviceName ∧ r.serviceName ≠ errorName := by
  cases p with
  | avahi =>
    show dialsOverAvahi hostname r m attempts = true ↔ _ ∧ True ∧ _
    rw [dialsOverAvahi_iff htxt hattempts hne, true_and]
  | bonjour => exact dialsOverBonjour_iff hattempts

/-- **Exactly one side dials**, of two hosts on any platforms whose names differ in their first 24
bytes, exactly if the larger name reaches the host with the smaller one and does not stand for a
failed resolution.  Otherwise neither does. -/
theorem one_side_dials_between_iff (p q : Platform) {x y : Report} (hx : x.txt = [])
    (hy : y.txt = []) (mx my : Surroundings) {ax ay : Fin 5 → Bool} (hax : ∃ i, ax i = true)
    (hay : ∃ i, ay i = true)
    (hne : x.serviceName.take servnameMax ≠ y.serviceName.take servnameMax) :
    (p.dials x.serviceName y my ay = !q.dials y.serviceName x mx ax) ↔
      (x.serviceName < y.serviceName → p.Reaches y.serviceName ∧ y.serviceName ≠ errorName) ∧
        (y.serviceName < x.serviceName →
          q.Reaches x.serviceName ∧ x.serviceName ≠ errorName) := by
  have hxy := dials_iff p (m := my) hy hay hne
  have hyx := dials_iff q (m := mx) hx hax (Ne.symm hne)
  have hxor : (p.dials x.serviceName y my ay = !q.dials y.serviceName x mx ax) ↔
      (p.dials x.serviceName y my ay = true ↔ ¬ q.dials y.serviceName x mx ax = true) := by
    cases p.dials x.serviceName y my ay <;> cases q.dials y.serviceName x mx ax <;> decide
  rw [hxor, hxy, hyx]
  have htotal : x.serviceName < y.serviceName ∨ y.serviceName < x.serviceName := by
    by_contra hnone
    obtain ⟨hge, hle⟩ := not_or.mp hnone
    exact hne (congrArg _ (List.le_antisymm hle hge))
  have hasymm : x.serviceName < y.serviceName → ¬ y.serviceName < x.serviceName :=
    fun hlt => List.lt_asymm hlt
  obtain hlt | hlt := htotal
  · have hnot := hasymm hlt
    simp only [hlt, hnot, false_and, not_false_eq_true, iff_true, true_and, forall_const,
      false_imp_iff, and_true]
  · have hnot : ¬ x.serviceName < y.serviceName := fun h => hasymm h hlt
    simp only [hlt, hnot, false_and, true_and, forall_const, false_imp_iff, false_iff, not_not]

/-- The Bonjour host `b` and the Avahi host `b c`: the larger name waits for a call that does not
come. -/
theorem one_side_dials_between_b :
    let x : Report := ⟨host [98] (by decide), [], [], [], [], [], 0, by decide, by decide,
      by decide, by decide, by decide, by decide⟩
    let y : Report := ⟨host [98, 32, 99] (by decide), [], [], [], [], [], 0, by decide, by decide,
      by decide, by decide, by decide, by decide⟩
    let behind : Behind := ⟨fun _ => 0, fun _ => 0, fun _ => 0⟩
    let m : Surroundings := ⟨.zeros _ [], behind, behind, [], []⟩
    ¬ (Platform.bonjour.dials x.serviceName y m (fun _ => true) =
        !Platform.avahi.dials y.serviceName x m (fun _ => true)) ∧
      Platform.avahi.dials x.serviceName y m (fun _ => true) =
        !Platform.bonjour.dials y.serviceName x m (fun _ => true) := by
  intro x y behind m
  have hne : x.serviceName.take servnameMax ≠ y.serviceName.take servnameMax := by decide
  refine ⟨?_, ?_⟩
  · rw [one_side_dials_between_iff .bonjour .avahi (x := x) (y := y) rfl rfl m m ⟨0, rfl⟩ ⟨0, rfl⟩
      hne]
    decide
  · apply (one_side_dials_between_iff .avahi .bonjour (x := x) (y := y) rfl rfl m m ⟨0, rfl⟩
      ⟨0, rfl⟩ hne).mpr
    decide

end Discovery

end LocalChat
