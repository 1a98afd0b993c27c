import LocalChat.Client.Services
import LocalChat.Discovery.Record

/-!
# Instances of a service

Avahi reports a service once for every interface and protocol it is seen on, and `browse_callback`
sends a message to the app for every report.  The app keeps a service once, by its name, and drops
it, with its node and its session, at the first report that one of its instances is gone.

`listed_while_present_iff`: the services of the app are those that have an instance, all along a
run, exactly if every instance that goes away is the last one of its name and every instance that
comes is taken for an instance of its own name.
-/

namespace LocalChat

open Octets

namespace Discovery

/-- What an Avahi browser is created with. -/
structure AvahiBrowser where
  type : Bytes
  domain : Bytes
  type_noNul : 0 ∉ type
  domain_noNul : 0 ∉ domain

structure AvahiInstance where
  interface : Int
  protocol : Int
  name : Bytes
  name_noNul : 0 ∉ name

theorem AvahiInstance.eq_iff {i j : AvahiInstance} :
    i.interface = j.interface ∧ i.protocol = j.protocol ∧ i.name = j.name ↔ i = j := by
  cases i
  cases j
  simp

instance : DecidableEq AvahiInstance := fun _ _ => decidable_of_iff _ AvahiInstance.eq_iff

/-- The service an instance is reported with. -/
def AvahiBrowser.service (b : AvahiBrowser) (i : AvahiInstance) : DaemonService :=
  ⟨i.name, b.type, b.domain, i.name_noNul, b.type_noNul, b.domain_noNul⟩

inductive BrowserEvent
  /-- `AVAHI_BROWSER_NEW` -/
  | new (i : AvahiInstance)
  /-- `AVAHI_BROWSER_REMOVE` -/
  | remove (i : AvahiInstance)

structure Browsing where
  list : LinkedListStr
  client : Client
  /-- the instances that are there -/
  present : List AvahiInstance
  /-- the names whose node and session deregistration has removed since they were listed -/
  removed : List Bytes

/-- Deregistration of the service finds it, and so takes its node and its session out. -/
def Client.takesOut (c : Client) (s : BVServiceBrowseInstance) : Bool :=
  (c.serviceV.filter fun t => t.serviceName ≠ s.serviceName).length < c.serviceV.length

namespace Browsing

def start (hostname rootdir : Bytes) (files : Files) : Browsing :=
  ⟨.clear, .start hostname rootdir files, [], []⟩

/-- `browse_callback` with `OnServiceFound` or `OnServiceRemoved`, and the app on the message. -/
def step (b : AvahiBrowser) (s : Browsing) : BrowserEvent → Browsing
  | .new i =>
    let services :=
      returnListFromBrowseResults (s.list.addElement (elementOf (record (b.service i))))
    { list := .clear
      client := s.client.step (.publishedService services)
      present := s.present.insert i
      removed := s.removed.filter fun n =>
        ∀ x ∈ (s.client.step (.publishedService services)).serviceV,
          x.serviceName = n → x ∈ s.client.serviceV }
  | .remove i =>
    let services :=
      returnListFromBrowseResults (s.list.addElement (elementOf (record (b.service i))))
    { list := .clear
      client := s.client.step (.deregisteredService services)
      present := s.present.filter (· ≠ i)
      removed := s.removed ++ (services.filter fun x => Client.takesOut s.client x).map
        (·.serviceName) }

/-! ### Names -/

def Listed (s : Browsing) (n : Bytes) : Prop := ∃ x ∈ s.client.serviceV, x.serviceName = n

def Present (s : Browsing) (n : Bytes) : Prop := ∃ i ∈ s.present, i.name = n

def nameFor (b : AvahiBrowser) (i : AvahiInstance) : Bytes := (browsed (b.service i)).serviceName

theorem nameFor_of_survives {b : AvahiBrowser} {i : AvahiInstance} (h : Survives i.name) :
    nameFor b i = i.name :=
  browsed_of_survives h

theorem survives_nameFor (b : AvahiBrowser) (i : AvahiInstance) : Survives (nameFor b i) := by
  rw [nameFor, browsed_eq]
  exact survives_carried i.name

/-- The app lists a name exactly while the service has an instance, and meanwhile deregistration has
not removed its node and its session.  This host and the empty name are no peers. -/
def ListedWhilePresent (s : Browsing) : Prop :=
  ∀ n, n ≠ [] → n ≠ s.client.manager.thisMachine → Survives n →
    ((s.Listed n ∧ n ∉ s.removed) ↔ s.Present n)

structure Sound (s : Browsing) : Prop where
  list : s.list = .clear
  removed : ∀ n ∈ s.removed, ¬ s.Listed n

variable {b : AvahiBrowser} {s : Browsing} {i : AvahiInstance} {n : Bytes}

theorem Sound.listed_iff (h : s.Sound) : (s.Listed n ∧ n ∉ s.removed) ↔ s.Listed n :=
  ⟨fun hl => hl.1, fun hl => ⟨hl, fun hmem => h.removed n hmem hl⟩⟩

theorem Sound.services (h : s.Sound) (d : DaemonService) :
    returnListFromBrowseResults (s.list.addElement (elementOf (record d))) = [browsed d] := by
  rw [h.list]
  rfl

/-! ### Steps -/

theorem thisMachine_step (b : AvahiBrowser) (s : Browsing) (e : BrowserEvent) :
    (s.step b e).client.manager.thisMachine = s.client.manager.thisMachine := by
  cases e with
  | new i => exact congrArg _ (Client.foldl_publish_manager _ s.client)
  | remove i => exact Client.foldl_deregister_thisMachine _ s.client

theorem Sound.listed_new (h : s.Sound) :
    (s.step b (.new i)).Listed n ↔
      s.Listed n ∨ (n = nameFor b i ∧ n ≠ s.client.manager.thisMachine) := by
  have hmem : ∀ x, x ∈ (s.step b (.new i)).client.serviceV ↔
      x ∈ s.client.serviceV ∨ (x = browsed (b.service i) ∧
        x.serviceName ≠ s.client.manager.thisMachine) := by
    intro x
    rw [← List.mem_singleton, ← Client.mem_foldl_publish [browsed (b.service i)] s.client x, step,
      h.services]
    rfl
  constructor
  · rintro ⟨x, hx, rfl⟩
    rcases (hmem x).mp hx with hx | ⟨rfl, hx⟩
    · exact .inl ⟨x, hx, rfl⟩
    · exact .inr ⟨rfl, hx⟩
  · rintro (⟨x, hx, rfl⟩ | ⟨rfl, hn⟩)
    · exact ⟨x, (hmem x).mpr (.inl hx), rfl⟩
    · exact ⟨_, (hmem _).mpr (.inr ⟨rfl, hn⟩), rfl⟩

theorem Sound.listed_remove (h : s.Sound) :
    (s.step b (.remove i)).Listed n ↔ s.Listed n ∧ n ≠ nameFor b i := by
  have hmem : ∀ x, x ∈ (s.step b (.remove i)).client.serviceV ↔
      x ∈ s.client.serviceV ∧ x.serviceName ≠ nameFor b i := by
    intro x
    have hall := Client.mem_foldl_deregister [browsed (b.service i)] s.client x
    rw [List.forall_mem_singleton] at hall
    rw [ne_comm, nameFor, ← hall, step, h.services]
    rfl
  constructor
  · rintro ⟨x, hx, rfl⟩
    obtain ⟨hx, hn⟩ := (hmem x).mp hx
    exact ⟨⟨x, hx, rfl⟩, hn⟩
  · rintro ⟨⟨x, hx, rfl⟩, hn⟩
    exact ⟨x, (hmem x).mpr ⟨hx, hn⟩, rfl⟩

theorem present_new : (s.step b (.new i)).Present n ↔ s.Present n ∨ n = i.name := by
  constructor
  · rintro ⟨j, hj, rfl⟩
    rcases List.mem_insert_iff.mp hj with rfl | hj
    · exact .inr rfl
    · exact .inl ⟨j, hj, rfl⟩
  · rintro (⟨j, hj, rfl⟩ | rfl)
    · exact ⟨j, List.mem_insert_of_mem hj, rfl⟩
    · exact ⟨i, List.mem_insert_self, rfl⟩

theorem present_remove :
    (s.step b (.remove i)).Present n ↔ ∃ j ∈ s.present, j ≠ i ∧ j.name = n := by
  simp only [Present, step, List.mem_filter, decide_eq_true_eq, and_assoc]

theorem Sound.step (h : s.Sound) (e : BrowserEvent) : (s.step b e).Sound := by
  refine ⟨by cases e <;> rfl, fun n hn => ?_⟩
  cases e with
  | new i =>
    obtain ⟨hold, hnew⟩ := List.mem_filter.mp hn
    rintro ⟨x, hx, rfl⟩
    exact h.removed _ hold ⟨x, of_decide_eq_true hnew x hx rfl, rfl⟩
  | remove i =>
    rw [h.listed_remove]
    rintro ⟨hlisted, hne⟩
    rcases List.mem_append.mp hn with hn | hn
    · exact h.removed n hn hlisted
    · rw [h.services] at hn
      obtain ⟨x, hx, rfl⟩ := List.mem_map.mp hn
      exact hne (congrArg _ (List.mem_singleton.mp (List.mem_filter.mp hx).1))

/-! ### Runs -/

/-- The last instance of its name goes, or an instance comes under its own name; so do names that
are none of a peer, and names that are listed rightly anyway. -/
def Faithful (b : AvahiBrowser) (s : Browsing) : BrowserEvent → Prop
  | .new i => nameFor b i = i.name ∨ nameFor b i = [] ∨
      nameFor b i = s.client.manager.thisMachine ∨ s.Present (nameFor b i)
  | .remove i => nameFor b i = [] ∨ nameFor b i = s.client.manager.thisMachine ∨
      ∀ j ∈ s.present, j ≠ i → j.name ≠ nameFor b i

theorem Sound.listedWhilePresent_iff (h : s.Sound) : s.ListedWhilePresent ↔
    ∀ n, n ≠ [] → n ≠ s.client.manager.thisMachine → Survives n → (s.Listed n ↔ s.Present n) := by
  simp only [ListedWhilePresent, h.listed_iff]

/-- Only the name the instance is taken for can go wrong. -/
theorem new_iff (h : s.Sound) (hp : s.ListedWhilePresent) :
    (s.step b (.new i)).ListedWhilePresent ↔ Faithful b s (.new i) := by
  rw [h.listedWhilePresent_iff] at hp
  rw [(h.step _).listedWhilePresent_iff, thisMachine_step, Faithful]
  constructor
  · intro hall
    by_cases hnil : nameFor b i = []
    · exact .inr (.inl hnil)
    by_cases hthis : nameFor b i = s.client.manager.thisMachine
    · exact .inr (.inr (.inl hthis))
    have hlisted := h.listed_new.mpr (.inr ⟨rfl, hthis⟩)
    have hpresent := (hall _ hnil hthis (survives_nameFor b i)).mp hlisted
    rcases present_new.mp hpresent with hpresent | hown
    · exact .inr (.inr (.inr hpresent))
    · exact .inl hown
  · intro hok n hnil hthis hsurv
    rw [h.listed_new, present_new, hp n hnil hthis hsurv]
    constructor
    · rintro (hpresent | ⟨rfl, -⟩)
      · exact .inl hpresent
      · rcases hok with hown | hbad | hbad | hpresent
        · exact .inr hown
        · exact absurd hbad hnil
        · exact absurd hbad hthis
        · exact .inl hpresent
    · rintro (hpresent | rfl)
      · exact .inl hpresent
      · exact .inr ⟨(nameFor_of_survives hsurv).symm, hthis⟩

theorem remove_iff (h : s.Sound) (hp : s.ListedWhilePresent) :
    (s.step b (.remove i)).ListedWhilePresent ↔ Faithful b s (.remove i) := by
  rw [h.listedWhilePresent_iff] at hp
  rw [(h.step _).listedWhilePresent_iff, thisMachine_step, Faithful]
  constructor
  · intro hall
    by_cases hnil : nameFor b i = []
    · exact .inl hnil
    by_cases hthis : nameFor b i = s.client.manager.thisMachine
    · exact .inr (.inl hthis)
    refine .inr (.inr fun j hj hji hname => ?_)
    have hpresent := (present_remove (b := b)).mpr ⟨j, hj, hji, hname⟩
    have hlisted := (hall _ hnil hthis (survives_nameFor b i)).mpr hpresent
    exact (h.listed_remove.mp hlisted).2 rfl
  · intro hok n hnil hthis hsurv
    rw [h.listed_remove, present_remove, hp n hnil hthis hsurv]
    constructor
    · rintro ⟨⟨j, hj, rfl⟩, hne⟩
      refine ⟨j, hj, ?_, rfl⟩
      rintro rfl
      exact hne (nameFor_of_survives hsurv).symm
    · rintro ⟨j, hj, hji, rfl⟩
      refine ⟨⟨j, hj, rfl⟩, fun hname => ?_⟩
      rcases hok with hbad | hbad | hlast
      · exact hnil (hname.trans hbad)
      · exact hthis (hname.trans hbad)
      · exact hlast j hj hji hname

theorem step_iff (h : s.Sound) (hp : s.ListedWhilePresent) (e : BrowserEvent) :
    (s.step b e).ListedWhilePresent ↔ Faithful b s e := by
  cases e with
  | new i => exact new_iff h hp
  | remove i => exact remove_iff h hp

/-- **A service is listed while it has an instance**, in every state of a run, exactly if every step
of the run is faithful. -/
theorem listed_while_present_iff (b : AvahiBrowser) (hostname rootdir : Bytes) (files : Files)
    (es : List BrowserEvent) :
    (∀ p, p <+: es → (Runs.run (step b) (start hostname rootdir files) p).ListedWhilePresent) ↔
      Runs.Meets (step b) (Faithful b) (start hostname rootdir files) es := by
  refine Runs.forall_prefix_iff_meets (I := fun s : Browsing => s.Sound ∧ s.ListedWhilePresent)
    (fun s h => h.2) (fun s e h hok => ⟨h.1.step e, (step_iff h.1 h.2 e).mpr hok⟩)
    (fun s e h => step_iff h.1 h.2 e) ⟨⟨rfl, ?_⟩, ?_⟩ es
  · intro n hn
    cases hn
  · intro n _ _ _
    constructor
    · rintro ⟨⟨x, hx, -⟩, -⟩
      cases hx
    · rintro ⟨i, hi, -⟩
      cases hi

/-- A service that is seen on two interfaces is dropped when it is gone from one of them. -/
theorem dropped_while_present : ∃ (b : AvahiBrowser) (i j : AvahiInstance), i ≠ j ∧
    ¬ (Runs.run (step b) (start [104] [] fun _ => none)
      [.new i, .new j, .remove i]).ListedWhilePresent := by
  refine ⟨⟨[116], [100], by decide, by decide⟩, ⟨1, 0, [98], by decide⟩, ⟨2, 0, [98], by decide⟩,
    by decide, fun hall => ?_⟩
  have hpresent := hall [98] (by decide) (by decide) (by decide)
  revert hpresent
  unfold Present Listed
  decide

end Browsing

end Discovery

end LocalChat
