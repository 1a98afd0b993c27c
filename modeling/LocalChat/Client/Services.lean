import LocalChat.Client.Basic
import LocalChat.Lib.History
import Mathlib.Data.List.Induction

/-!
# The list of services

`serviceV` after a sequence of mailbox events, read off the events alone: an instance is in it
exactly when it was published after the last list of deregistered services that mentions its name
(`services_listed`).  A published list puts the instances that are new at the end of the vector, and
the same instances, in the same order, are sent to Discovery to be resolved.

Insertion compares all three fields of an instance, removal the name alone; so the two are described
apart, by `mem_foldl_publish` and `mem_foldl_deregister`.
-/

namespace LocalChat

open Octets History

namespace MailEvent

def Publishes (x : BVServiceBrowseInstance) : MailEvent → Prop
  | .publishedService services => x ∈ services
  | _ => False

def Deregisters (n : Bytes) : MailEvent → Prop
  | .deregisteredService services => ∃ y ∈ services, y.serviceName = n
  | _ => False

end MailEvent

namespace Client

variable {c : Client} {x y : BVServiceBrowseInstance}

/-! ### Published services -/

theorem publish_of_mem (h : y ∈ c.serviceV) : c.publish y = c := by
  rw [publish, if_pos h]

theorem publish_of_own (h : y.serviceName = c.manager.thisMachine) : c.publish y = c := by
  by_cases hmem : y ∈ c.serviceV
  · exact publish_of_mem hmem
  · rw [publish, if_neg hmem, if_pos h]

theorem publish_of_new (h : y ∉ c.serviceV) (hname : y.serviceName ≠ c.manager.thisMachine) :
    c.publish y = { c with serviceV := c.serviceV ++ [y], requested := c.requested ++ [y] } := by
  rw [publish, if_neg h, if_neg hname]

/-- What a published list does: it puts `new` at the end of the vector and asks for `new` to be
resolved. -/
structure Extends (c c' : Client) (new : List BVServiceBrowseInstance) : Prop where
  serviceV : c'.serviceV = c.serviceV ++ new
  requested : c'.requested = c.requested ++ new
  manager : c'.manager = c.manager
  nodup : new.Nodup
  fresh : ∀ x ∈ new, x ∉ c.serviceV

theorem extends_publish (c : Client) (y : BVServiceBrowseInstance) :
    ∃ new, Extends c (c.publish y) new := by
  have hsame : Extends c c [] := ⟨by simp, by simp, rfl, List.nodup_nil, by simp⟩
  by_cases hmem : y ∈ c.serviceV
  · exact ⟨[], (publish_of_mem hmem).symm ▸ hsame⟩
  · by_cases hname : y.serviceName = c.manager.thisMachine
    · exact ⟨[], (publish_of_own hname).symm ▸ hsame⟩
    · rw [publish_of_new hmem hname]
      refine ⟨[y], rfl, rfl, rfl, List.nodup_singleton y, fun x hx => ?_⟩
      rwa [List.mem_singleton.mp hx]

theorem Extends.trans {c' c'' : Client} {new new' : List BVServiceBrowseInstance}
    (h : Extends c c' new) (h' : Extends c' c'' new') : Extends c c'' (new ++ new') where
  serviceV := by rw [h'.serviceV, h.serviceV, List.append_assoc]
  requested := by rw [h'.requested, h.requested, List.append_assoc]
  manager := h'.manager.trans h.manager
  nodup := by
    refine List.nodup_append.mpr ⟨h.nodup, h'.nodup, fun x hx y hy => ?_⟩
    rintro rfl
    refine h'.fresh x hy ?_
    rw [h.serviceV]
    exact List.mem_append_right _ hx
  fresh := by
    intro x hx hold
    rcases List.mem_append.mp hx with hx | hx
    · exact h.fresh x hx hold
    · refine h'.fresh x hx ?_
      rw [h.serviceV]
      exact List.mem_append_left _ hold

theorem extends_foldl_publish (services : List BVServiceBrowseInstance) (c : Client) :
    ∃ new, Extends c (services.foldl publish c) new := by
  induction services generalizing c with
  | nil => exact ⟨[], by simp, by simp, rfl, List.nodup_nil, by simp⟩
  | cons y services ih =>
    obtain ⟨new, hnew⟩ := extends_publish c y
    obtain ⟨new', hnew'⟩ := ih (c.publish y)
    exact ⟨new ++ new', hnew.trans hnew'⟩

theorem mem_publish : x ∈ (c.publish y).serviceV ↔
    x ∈ c.serviceV ∨ (x = y ∧ x.serviceName ≠ c.manager.thisMachine) := by
  by_cases hmem : y ∈ c.serviceV
  · rw [publish_of_mem hmem]
    refine ⟨.inl, ?_⟩
    rintro (hx | ⟨rfl, -⟩)
    · exact hx
    · exact hmem
  · by_cases hname : y.serviceName = c.manager.thisMachine
    · rw [publish_of_own hname]
      refine ⟨.inl, ?_⟩
      rintro (hx | ⟨rfl, hne⟩)
      · exact hx
      · exact absurd hname hne
    · rw [publish_of_new hmem hname, List.mem_append, List.mem_singleton]
      refine or_congr_right ⟨?_, And.left⟩
      rintro rfl
      exact ⟨rfl, hname⟩

theorem mem_foldl_publish (services : List BVServiceBrowseInstance) (c : Client)
    (x : BVServiceBrowseInstance) : x ∈ (services.foldl publish c).serviceV ↔
      x ∈ c.serviceV ∨ (x ∈ services ∧ x.serviceName ≠ c.manager.thisMachine) := by
  induction services generalizing c with
  | nil => simp
  | cons y services ih =>
    rw [List.foldl_cons, ih, mem_publish, publish_manager, List.mem_cons, or_assoc, or_and_right]

/-! ### Deregistered services -/

theorem deregister_thisMachine (c : Client) (y : BVServiceBrowseInstance) :
    (c.deregister y).manager.thisMachine = c.manager.thisMachine := by
  rw [deregister]
  split
  · rcases BVTCPConnectionManager.removeSession_cases y.serviceName
        (eraseNode y.serviceName c.manager) with ⟨-, h⟩ | ⟨id, -, h⟩ <;> rw [h] <;> rfl
  · rfl

theorem deregister_serviceV (c : Client) (y : BVServiceBrowseInstance) :
    (c.deregister y).serviceV = c.serviceV.filter fun t => t.serviceName ≠ y.serviceName := by
  rw [deregister]
  split <;> rfl

theorem deregister_requested (c : Client) (y : BVServiceBrowseInstance) :
    (c.deregister y).requested = c.requested := by
  rw [deregister]
  split <;> rfl

theorem mem_foldl_deregister (services : List BVServiceBrowseInstance) (c : Client)
    (x : BVServiceBrowseInstance) : x ∈ (services.foldl deregister c).serviceV ↔
      x ∈ c.serviceV ∧ ∀ y ∈ services, y.serviceName ≠ x.serviceName := by
  induction services generalizing c with
  | nil => simp
  | cons y services ih =>
    rw [List.foldl_cons, ih, deregister_serviceV, List.mem_filter, decide_eq_true_eq]
    constructor
    · rintro ⟨⟨hx, hne⟩, hall⟩
      refine ⟨hx, fun z hz => ?_⟩
      rcases List.mem_cons.mp hz with rfl | hz
      · exact hne.symm
      · exact hall z hz
    · rintro ⟨hx, hall⟩
      exact ⟨⟨hx, (hall y List.mem_cons_self).symm⟩,
        fun z hz => hall z (List.mem_cons_of_mem _ hz)⟩

theorem foldl_deregister_requested (services : List BVServiceBrowseInstance) (c : Client) :
    (services.foldl deregister c).requested = c.requested := by
  induction services generalizing c with
  | nil => rfl
  | cons y services ih => rw [List.foldl_cons, ih, deregister_requested]

theorem foldl_deregister_sublist (services : List BVServiceBrowseInstance) (c : Client) :
    (services.foldl deregister c).serviceV.Sublist c.serviceV := by
  induction services generalizing c with
  | nil => exact List.Sublist.refl _
  | cons y services ih =>
    rw [List.foldl_cons]
    refine (ih (c.deregister y)).trans ?_
    rw [deregister_serviceV]
    exact List.filter_sublist

theorem foldl_deregister_thisMachine (services : List BVServiceBrowseInstance) (c : Client) :
    (services.foldl deregister c).manager.thisMachine = c.manager.thisMachine := by
  induction services generalizing c with
  | nil => rfl
  | cons y services ih => rw [List.foldl_cons, ih, deregister_thisMachine]

/-! ### Steps -/

theorem step_services (c : Client) {e : MailEvent} (hp : ∀ l, e ≠ .publishedService l)
    (hd : ∀ l, e ≠ .deregisteredService l) :
    (c.step e).serviceV = c.serviceV ∧ (c.step e).requested = c.requested ∧
      (c.step e).manager.thisMachine = c.manager.thisMachine := by
  cases e with
  | publishedService l => exact absurd rfl (hp l)
  | deregisteredService l => exact absurd rfl (hd l)
  | serviceResolved serviceName attempts =>
    simp only [step, handle, handleResolvedServices, Prod.map_snd, id]
    split
    · exact ⟨rfl, rfl, rfl⟩
    · split
      · exact ⟨rfl, rfl, rfl⟩
      · refine ⟨rfl, rfl, ?_⟩
        rw [BVTCPConnectionManager.initiateSessionWithNode]
        split <;> rfl
  | fromSession e lost flt =>
    simp only [step, handle]
    split <;> exact ⟨rfl, rfl, rfl⟩
  | terminateAll => exact ⟨rfl, rfl, rfl⟩

structure Lists (hostname : Bytes) (es : List MailEvent) (c : Client) : Prop where
  thisMachine : c.manager.thisMachine = hostname
  nodup : c.serviceV.Nodup
  other : ∀ x ∈ c.serviceV, x.serviceName ≠ hostname
  mem : ∀ x, x.serviceName ≠ hostname → (x ∈ c.serviceV ↔
    Since (fun e => ¬ e.Deregisters x.serviceName) (fun _ e => e.Publishes x) es)

variable {hostname : Bytes} {es : List MailEvent}

theorem Lists.publish (h : Lists hostname es c) (services : List BVServiceBrowseInstance) :
    Lists hostname (es ++ [.publishedService services])
      (c.step (.publishedService services)) := by
  obtain ⟨new, hnew⟩ := extends_foldl_publish services c
  have hmem := mem_foldl_publish services c
  rw [h.thisMachine] at hmem
  refine ⟨(congrArg _ hnew.manager).trans h.thisMachine, ?_, fun x hx => ?_, fun x hx => ?_⟩
  · change (services.foldl Client.publish c).serviceV.Nodup
    rw [hnew.serviceV]
    refine List.nodup_append.mpr ⟨h.nodup, hnew.nodup, fun x hx y hy => ?_⟩
    rintro rfl
    exact hnew.fresh x hy hx
  · rcases (hmem x).mp hx with hx | ⟨-, hx⟩
    · exact h.other x hx
    · exact hx
  · refine (hmem x).trans ?_
    rw [since_concat, h.mem x hx]
    constructor
    · rintro (hsince | ⟨hpub, -⟩)
      · exact .inr ⟨fun hd => hd, hsince⟩
      · exact .inl hpub
    · rintro (hpub | ⟨-, hsince⟩)
      · exact .inr ⟨hpub, hx⟩
      · exact .inl hsince

theorem Lists.deregister (h : Lists hostname es c) (services : List BVServiceBrowseInstance) :
    Lists hostname (es ++ [.deregisteredService services])
      (c.step (.deregisteredService services)) := by
  have hsub := foldl_deregister_sublist services c
  refine ⟨(foldl_deregister_thisMachine services c).trans h.thisMachine, h.nodup.sublist hsub,
    fun x hx => h.other x (hsub.subset hx), fun x hx => ?_⟩
  refine (mem_foldl_deregister services c x).trans ?_
  rw [since_concat, h.mem x hx]
  constructor
  · rintro ⟨hsince, hall⟩
    exact .inr ⟨fun ⟨y, hy, heq⟩ => hall y hy heq, hsince⟩
  · rintro (hpub | ⟨hno, hsince⟩)
    · exact hpub.elim
    · exact ⟨hsince, fun y hy heq => hno ⟨y, hy, heq⟩⟩

theorem Lists.step (h : Lists hostname es c) (e : MailEvent) :
    Lists hostname (es ++ [e]) (c.step e) := by
  by_cases hp : ∃ l, e = .publishedService l
  · obtain ⟨l, rfl⟩ := hp
    exact h.publish l
  by_cases hd : ∃ l, e = .deregisteredService l
  · obtain ⟨l, rfl⟩ := hd
    exact h.deregister l
  obtain ⟨hserv, -, hthis⟩ := c.step_services (fun l hl => hp ⟨l, hl⟩) (fun l hl => hd ⟨l, hl⟩)
  refine ⟨hthis.trans h.thisMachine, hserv ▸ h.nodup, hserv ▸ h.other, fun x hx => ?_⟩
  rw [hserv, since_concat, h.mem x hx]
  have hnp : ¬ e.Publishes x := by
    cases e with
    | publishedService l => exact absurd ⟨l, rfl⟩ hp
    | _ => exact id
  have hnd : ¬ e.Deregisters x.serviceName := by
    cases e with
    | deregisteredService l => exact absurd ⟨l, rfl⟩ hd
    | _ => exact id
  simp [hnp, hnd]

theorem lists_run (hostname rootdir : Bytes) (files : Files) (es : List MailEvent) :
    Lists hostname es (Runs.run step (start hostname rootdir files) es) := by
  induction es using List.reverseRecOn with
  | nil => exact ⟨rfl, List.nodup_nil, by simp [start], fun x _ => by simp [start, not_since_nil]⟩
  | append_singleton es e ih =>
    rw [Runs.run_append]
    exact ih.step e

/-! ### Requests -/

def appearing (c : Client) (e : MailEvent) : List BVServiceBrowseInstance :=
  (c.step e).serviceV.filter (· ∉ c.serviceV)

/-- The instances that go from absent to present, event by event. -/
def appeared : Client → List MailEvent → List BVServiceBrowseInstance
  | _, [] => []
  | c, e :: es => c.appearing e ++ (c.step e).appeared es

theorem step_requested (c : Client) (e : MailEvent) :
    (c.step e).requested = c.requested ++ c.appearing e := by
  by_cases hp : ∃ l, e = .publishedService l
  · obtain ⟨services, rfl⟩ := hp
    obtain ⟨new, hnew⟩ := extends_foldl_publish services c
    have hold : c.serviceV.filter (· ∉ c.serviceV) = [] := by simp
    have hfresh : new.filter (· ∉ c.serviceV) = new := by
      refine List.filter_eq_self.mpr fun x hx => ?_
      simpa using hnew.fresh x hx
    have happ : c.appearing (.publishedService services) = new := by
      change (services.foldl publish c).serviceV.filter (· ∉ c.serviceV) = new
      rw [hnew.serviceV, List.filter_append, hold, hfresh, List.nil_append]
    rw [happ]
    exact hnew.requested
  -- the other events put nothing into the vector and request nothing
  have hkeep : (c.step e).serviceV ⊆ c.serviceV ∧ (c.step e).requested = c.requested := by
    by_cases hd : ∃ l, e = .deregisteredService l
    · obtain ⟨services, rfl⟩ := hd
      exact ⟨(foldl_deregister_sublist services c).subset, foldl_deregister_requested services c⟩
    · obtain ⟨hserv, hreq, -⟩ :=
        c.step_services (fun l hl => hp ⟨l, hl⟩) (fun l hl => hd ⟨l, hl⟩)
      exact ⟨hserv ▸ List.Subset.refl _, hreq⟩
  have happ : c.appearing e = [] := by
    refine List.filter_eq_nil_iff.mpr fun x hx => ?_
    simpa using hkeep.1 hx
  rw [happ, hkeep.2, List.append_nil]

theorem run_requested (es : List MailEvent) (c : Client) :
    (Runs.run step c es).requested = c.requested ++ c.appeared es := by
  induction es generalizing c with
  | nil => simp [appeared]
  | cons e es ih => rw [Runs.run_cons, ih, step_requested, appeared, List.append_assoc]

/-- **Service list semantics.**  The vector has no duplicates and no instance of this host; an
instance of another name is in it exactly if it was published after the last list of deregistered
services that mentions its name; and the requests to resolve are the instances that went from
absent to present, in that order. -/
theorem services_listed (hostname rootdir : Bytes) (files : Files) (es : List MailEvent) :
    let c := Runs.run step (start hostname rootdir files) es
    c.serviceV.Nodup ∧ (∀ x ∈ c.serviceV, x.serviceName ≠ hostname) ∧
      (∀ x, x.serviceName ≠ hostname → (x ∈ c.serviceV ↔
        Since (fun e => ¬ e.Deregisters x.serviceName) (fun _ e => e.Publishes x) es)) ∧
      c.requested = (start hostname rootdir files).appeared es := by
  have h := lists_run hostname rootdir files es
  refine ⟨h.nodup, h.other, h.mem, ?_⟩
  rw [run_requested]
  rfl

end Client

end LocalChat
