import LocalChat.Broker.Allocation
import LocalChat.Lib.History

/-!
# Subscriptions

What `subs_m` holds after a sequence of calls, read off the history alone: `sid` is in the vector of
an event exactly when it has subscribed to it after its last attaching, with no unsubscribing and no
detaching since (`Subscribed`).  `Kept` is the invariant that ties the table to the history, one
lemma for each kind of entry; the forms for a vector of events are the single ones one after another
(`foldl_subscribe`, `foldl_unsubscribe`), so their entries are too.
-/

namespace LocalChat

open History

namespace BVBroker

variable {b : BVBroker} {sid : SubscriberID}

/-! ### The vector of an event -/

theorem getD_withoutSubscriber (sid : SubscriberID) (vec : List SubscriberID) :
    (withoutSubscriber sid vec).getD [] = vec.filter (· ≠ sid) := by
  rw [withoutSubscriber]
  split
  · next h => rw [h]; rfl
  · rfl

theorem mem_addSubscription (sid : SubscriberID) (b : BVBroker) (e : BVEventType)
    (j : SubscriberID) (f : BVEventType) :
    j ∈ (b.addSubscription sid e).getSubscriberIDVectorFromEventType f ↔
      (j = sid ∧ f = e) ∨ j ∈ b.getSubscriberIDVectorFromEventType f := by
  by_cases hf : f = e
  · subst hf
    have hvec : (b.addSubscription sid f).getSubscriberIDVectorFromEventType f =
        if sid ∈ b.getSubscriberIDVectorFromEventType f then
          b.getSubscriberIDVectorFromEventType f
        else b.getSubscriberIDVectorFromEventType f ++ [sid] := by
      simp [addSubscription, getSubscriberIDVectorFromEventType]
    rw [hvec]
    by_cases hmem : sid ∈ b.getSubscriberIDVectorFromEventType f
    · rw [if_pos hmem]
      constructor
      · exact .inr
      · rintro (⟨rfl, -⟩ | h)
        · exact hmem
        · exact h
    · rw [if_neg hmem, List.mem_append, List.mem_singleton]
      simp [or_comm]
  · simp [addSubscription, getSubscriberIDVectorFromEventType, hf]

theorem mem_removeSubscription (sid : SubscriberID) (b : BVBroker) (e : BVEventType)
    (j : SubscriberID) (f : BVEventType) :
    j ∈ (b.removeSubscription sid e).getSubscriberIDVectorFromEventType f ↔
      ¬ (j = sid ∧ f = e) ∧ j ∈ b.getSubscriberIDVectorFromEventType f := by
  rw [removeSubscription]
  split
  · next hnone =>
    constructor
    · intro h
      refine ⟨?_, h⟩
      rintro ⟨-, rfl⟩
      rw [getSubscriberIDVectorFromEventType, hnone] at h
      cases h
    · exact And.right
  · next vec hvec =>
    by_cases hf : f = e
    · subst hf
      simp [getSubscriberIDVectorFromEventType, hvec, getD_withoutSubscriber, and_comm]
    · simp [getSubscriberIDVectorFromEventType, hf]

theorem mem_detach (h : b.getOutMailBoxAtSubId sid ≠ none) (j : SubscriberID) (f : BVEventType) :
    j ∈ (b.detach sid).2.getSubscriberIDVectorFromEventType f ↔
      j ≠ sid ∧ j ∈ b.getSubscriberIDVectorFromEventType f := by
  rw [detach, if_neg h, getSubscriberIDVectorFromEventType, getSubscriberIDVectorFromEventType]
  cases hvec : b.subs f with
  | none => simp [hvec]
  | some vec => simp [hvec, getD_withoutSubscriber, and_comm]

/-! ### The table -/

/-- Every vector is there for a subscriber, names none twice and only attached ids. -/
def WellKept (b : BVBroker) : Prop :=
  ∀ e vec, b.subs e = some vec →
    vec ≠ [] ∧ vec.Nodup ∧ ∀ sid ∈ vec, b.getOutMailBoxAtSubId sid ≠ none

theorem withoutSubscriber_eq_some {vec vec' : List SubscriberID}
    (h : withoutSubscriber sid vec = some vec') : vec' ≠ [] ∧ vec' = vec.filter (· ≠ sid) := by
  rw [withoutSubscriber] at h
  split at h
  · cases h
  · next hne =>
    cases h
    exact ⟨hne, rfl⟩

theorem WellKept.of_same {b' : BVBroker} (h : b.WellKept) (hsubs : b'.subs = b.subs)
    (hslot : ∀ sid, b.getOutMailBoxAtSubId sid ≠ none → b'.getOutMailBoxAtSubId sid ≠ none) :
    b'.WellKept := by
  intro e vec hvec
  rw [hsubs] at hvec
  obtain ⟨hne, hnodup, hlive⟩ := h e vec hvec
  exact ⟨hne, hnodup, fun sid hsid => hslot sid (hlive sid hsid)⟩

theorem WellKept.addSubscription (h : b.WellKept) (hsid : b.getOutMailBoxAtSubId sid ≠ none)
    (e : BVEventType) : (b.addSubscription sid e).WellKept := by
  intro f vec hvec
  by_cases hf : f = e
  · subst hf
    simp only [BVBroker.addSubscription, Function.update_self, Option.some.injEq] at hvec
    subst hvec
    -- the vector before, which may be missing
    have hold : (b.getSubscriberIDVectorFromEventType f).Nodup ∧
        ∀ j ∈ b.getSubscriberIDVectorFromEventType f, b.getOutMailBoxAtSubId j ≠ none := by
      rw [getSubscriberIDVectorFromEventType]
      cases hvec : b.subs f with
      | none => simp
      | some vec => exact (h f vec hvec).2
    by_cases hmem : sid ∈ b.getSubscriberIDVectorFromEventType f
    · rw [if_pos hmem]
      exact ⟨List.ne_nil_of_mem hmem, hold⟩
    · rw [if_neg hmem, ← List.concat_eq_append]
      refine ⟨by simp, hold.1.concat hmem, fun j hj => ?_⟩
      rw [List.concat_eq_append, List.mem_append, List.mem_singleton] at hj
      rcases hj with hj | rfl
      · exact hold.2 j hj
      · exact hsid
  · simp only [BVBroker.addSubscription, Function.update_of_ne hf] at hvec
    exact h f vec hvec

theorem WellKept.removeSubscription (h : b.WellKept) (sid : SubscriberID) (e : BVEventType) :
    (b.removeSubscription sid e).WellKept := by
  rw [BVBroker.removeSubscription]
  split
  · exact h
  · next vec hvec =>
    intro f vec' hvec'
    by_cases hf : f = e
    · subst hf
      simp only [Function.update_self] at hvec'
      obtain ⟨hne, rfl⟩ := withoutSubscriber_eq_some hvec'
      obtain ⟨-, hnodup, hlive⟩ := h f vec hvec
      exact ⟨hne, hnodup.filter _, fun j hj => hlive j (List.mem_of_mem_filter hj)⟩
    · simp only [Function.update_of_ne hf] at hvec'
      exact h f vec' hvec'

theorem WellKept.detach (h : b.WellKept) (hsid : b.getOutMailBoxAtSubId sid ≠ none) :
    (b.detach sid).2.WellKept := by
  intro f vec' hvec'
  rw [BVBroker.detach, if_neg hsid] at hvec'
  obtain ⟨vec, hvec, hwithout⟩ := Option.bind_eq_some_iff.mp hvec'
  obtain ⟨hne, rfl⟩ := withoutSubscriber_eq_some hwithout
  obtain ⟨-, hnodup, hlive⟩ := h f vec hvec
  refine ⟨hne, hnodup.filter _, fun j hj => ?_⟩
  obtain ⟨hj, hjsid⟩ := List.mem_filter.mp hj
  rw [detach_slot hsid, if_neg (by simpa using hjsid)]
  exact hlive j hj

/-! ### The forms for a vector of events -/

theorem foldl_subscribe (h : b.getOutMailBoxAtSubId sid ≠ none) (events : List BVEventType) :
    events.foldl (fun b e => (b.subscribe sid e).2) b = events.foldl (addSubscription sid) b := by
  induction events generalizing b with
  | nil => rfl
  | cons e events ih =>
    rw [List.foldl_cons, List.foldl_cons, subscribe, if_neg h]
    exact ih h

/-- **`Subscribe` for a vector** does what its single form does for one event after another. -/
theorem subscribeAll_eq (sid : SubscriberID) (events : List BVEventType) (b : BVBroker) :
    (b.subscribeAll sid events).2 = events.foldl (fun b e => (b.subscribe sid e).2) b ∧
      ∀ e, (b.subscribe sid e).1 = (b.subscribeAll sid events).1 := by
  by_cases h : b.getOutMailBoxAtSubId sid = none
  · have hsame : ∀ e, b.subscribe sid e = (.fatalError, b) := fun e => by rw [subscribe, if_pos h]
    rw [subscribeAll, if_pos h]
    refine ⟨?_, fun e => by rw [hsame]⟩
    induction events with
    | nil => rfl
    | cons e events ih => rw [List.foldl_cons, hsame]; exact ih
  · rw [subscribeAll, if_neg h]
    exact ⟨(foldl_subscribe h events).symm, fun e => by rw [subscribe, if_neg h]⟩

end BVBroker

/-! ### Histories -/

namespace Registry

def Attached (sid : SubscriberID) (history : List Entry) : Prop :=
  Since (fun x => x ≠ .attached sid ∧ x ≠ .detached sid) (fun _ x => x = .attached sid) history

/-- `sid` has subscribed to `e` after its last attaching, and it has not been detached or
unsubscribed from `e` since. -/
def Subscribed (sid : SubscriberID) (e : BVEventType) (history : List Entry) : Prop :=
  Since (fun x => x ≠ .attached sid ∧ x ≠ .detached sid ∧ x ≠ .unsubscribed sid e)
    (fun before x => x = .subscribed sid e ∧ Attached sid before) history

structure Kept (b : BVBroker) (history : List Entry) : Prop where
  wellKept : b.WellKept
  attached : ∀ sid, b.getOutMailBoxAtSubId sid ≠ none ↔ Attached sid history
  subscribed : ∀ sid e,
    sid ∈ b.getSubscriberIDVectorFromEventType e ↔ Subscribed sid e history

variable {b : BVBroker} {history : List Entry} {sid : SubscriberID}

theorem Kept.of_same {b' : BVBroker} (h : Kept b history) (hsame : b.SameTables b') :
    Kept b' history where
  wellKept := h.wellKept.of_same hsame.subs fun sid hsid => by rwa [hsame.slot]
  attached sid := by rw [hsame.slot, h.attached]
  subscribed sid e := by
    rw [← h.subscribed, BVBroker.getSubscriberIDVectorFromEventType, hsame.subs]
    rfl

theorem Kept.not_mem_of_free (h : Kept b history) (hfree : b.getOutMailBoxAtSubId sid = none)
    (e : BVEventType) : sid ∉ b.getSubscriberIDVectorFromEventType e := by
  intro hmem
  rw [BVBroker.getSubscriberIDVectorFromEventType] at hmem
  cases hvec : b.subs e with
  | none => rw [hvec] at hmem; cases hmem
  | some vec =>
    rw [hvec] at hmem
    exact (h.wellKept e vec hvec).2.2 sid hmem hfree

theorem Kept.attach (h : Kept b history) {component : BVComponent} {b' : BVBroker}
    (hent : b.Entered component b') : Kept b' (history ++ [.attached component.id]) where
  wellKept := h.wellKept.of_same hent.subs fun sid hsid => by
    rw [hent.slot]
    split
    · simp
    · exact hsid
  attached sid := by
    rw [hent.slot, Attached, since_concat, Entry.attached.injEq, ← Attached, ← h.attached]
    by_cases hsid : sid = component.id
    · simp [hsid]
    · simp [hsid, Ne.symm hsid]
  subscribed sid e := by
    have hvec : b'.getSubscriberIDVectorFromEventType e =
        b.getSubscriberIDVectorFromEventType e := by
      rw [BVBroker.getSubscriberIDVectorFromEventType, hent.subs,
        BVBroker.getSubscriberIDVectorFromEventType]
    rw [hvec, Subscribed, since_concat, ← Subscribed, ← h.subscribed]
    by_cases hsid : sid = component.id
    · subst hsid
      simpa using h.not_mem_of_free hent.free e
    · simp [Ne.symm hsid]

theorem Kept.detach (h : Kept b history) (hsid : b.getOutMailBoxAtSubId sid ≠ none) :
    Kept (b.detach sid).2 (history ++ [.detached sid]) where
  wellKept := h.wellKept.detach hsid
  attached j := by
    rw [BVBroker.detach_slot hsid, Attached, since_concat, ← Attached, ← h.attached]
    by_cases hj : j = sid
    · simp [hj]
    · simp [hj, Ne.symm hj]
  subscribed j e := by
    rw [BVBroker.mem_detach hsid, Subscribed, since_concat, ← Subscribed, ← h.subscribed]
    by_cases hj : j = sid
    · simp [hj]
    · simp [hj, Ne.symm hj]

theorem Kept.addSubscription (h : Kept b history) (hsid : b.getOutMailBoxAtSubId sid ≠ none)
    (e : BVEventType) : Kept (b.addSubscription sid e) (history ++ [.subscribed sid e]) where
  wellKept := h.wellKept.addSubscription hsid e
  attached j := by
    rw [Attached, since_concat, ← Attached, ← h.attached]
    simp [BVBroker.getOutMailBoxAtSubId]
  subscribed j f := by
    rw [BVBroker.mem_addSubscription, Subscribed, since_concat, ← Subscribed, ← h.subscribed]
    have hattached : Attached sid history := (h.attached sid).mp hsid
    constructor
    · rintro (⟨rfl, rfl⟩ | hmem)
      · exact .inl ⟨rfl, hattached⟩
      · exact .inr ⟨⟨by simp, by simp, by simp⟩, hmem⟩
    · rintro (⟨heq, -⟩ | ⟨-, hmem⟩)
      · cases heq
        exact .inl ⟨rfl, rfl⟩
      · exact .inr hmem

theorem Kept.removeSubscription (h : Kept b history) (sid : SubscriberID) (e : BVEventType) :
    Kept (b.removeSubscription sid e) (history ++ [.unsubscribed sid e]) where
  wellKept := h.wellKept.removeSubscription sid e
  attached j := by
    rw [Attached, since_concat, ← Attached, ← h.attached]
    simp [BVBroker.getOutMailBoxAtSubId]
  subscribed j f := by
    rw [BVBroker.mem_removeSubscription, Subscribed, since_concat, ← Subscribed, ← h.subscribed]
    simp [eq_comm]

theorem Kept.foldl {f : BVBroker → BVEventType → BVBroker} {entry : BVEventType → Entry}
    {I : BVBroker → Prop} (hstep : ∀ b history e, I b → Kept b history →
      I (f b e) ∧ Kept (f b e) (history ++ [entry e])) (events : List BVEventType)
    (hI : I b) (h : Kept b history) : Kept (events.foldl f b) (history ++ events.map entry) := by
  induction events generalizing b history with
  | nil => simpa using h
  | cons e events ih =>
    obtain ⟨hI', h'⟩ := hstep b history e hI h
    rw [List.foldl_cons, List.map_cons, List.append_cons]
    exact ih hI' h'

theorem step_kept {r : Registry} (h : Kept r.broker r.history) (call : BrokerCall) :
    Kept (r.step call).broker (r.step call).history := by
  cases call with
  | attach component =>
    rcases BVBroker.attach_cases component r.broker with ⟨hok, hent⟩ | ⟨hmax, -, hsame, -⟩
    · rw [step, record_history_of_ok r hok]
      exact h.attach hent
    · rw [step, record_history_of_ne r (by rw [hmax]; decide)]
      exact h.of_same hsame
  | detach sid =>
    by_cases hsid : r.broker.getOutMailBoxAtSubId sid = none
    · simpa [step, record, BVBroker.detach, hsid] using h
    · rw [step, record_history_of_ok r ((BVBroker.detach_ok_iff sid r.broker).mpr hsid)]
      exact h.detach hsid
  | subscribe sid event =>
    by_cases hsid : r.broker.getOutMailBoxAtSubId sid = none
    · simpa [step, record, BVBroker.subscribe, hsid] using h
    · simpa [step, record, BVBroker.subscribe, hsid] using h.addSubscription hsid event
  | subscribeAll sid events =>
    by_cases hsid : r.broker.getOutMailBoxAtSubId sid = none
    · simpa [step, record, BVBroker.subscribeAll, hsid] using h
    · have hall := Kept.foldl (f := BVBroker.addSubscription sid)
        (I := fun b => b.getOutMailBoxAtSubId sid ≠ none)
        (fun b history e hI hk => ⟨hI, hk.addSubscription hI e⟩) events hsid h
      simpa [step, record, BVBroker.subscribeAll, hsid] using hall
  | unsubscribe sid event =>
    simpa [step, record, BVBroker.unsubscribe] using h.removeSubscription sid event
  | unsubscribeAll sid events =>
    have hall := Kept.foldl (f := BVBroker.removeSubscription sid) (I := fun _ => True)
      (fun b history e _ hk => ⟨trivial, hk.removeSubscription sid e⟩) events trivial h
    simpa [step, record, BVBroker.unsubscribeAll] using hall

theorem start_kept (inMailBox : QueueRef) :
    Kept (start inMailBox).broker (start inMailBox).history where
  wellKept := by
    intro e vec hvec
    cases hvec
  attached sid := by
    rw [← (start_held inMailBox).mem]
    simp [start, holders, Attached, not_since_nil]
  subscribed sid e := by
    simp [start, BVBroker.construct, BVBroker.getSubscriberIDVectorFromEventType, Subscribed,
      not_since_nil]

theorem run_kept (inMailBox : QueueRef) (calls : List BrokerCall) :
    Kept (Runs.run step (start inMailBox) calls).broker
      (Runs.run step (start inMailBox) calls).history :=
  Runs.run_invariant_of_forall (I := fun r : Registry => Kept r.broker r.history)
    (fun _ call h => step_kept h call) (start_kept inMailBox) calls

/-- **Subscriptions.**  After any calls on a fresh broker, every vector of `subs_m` is non-empty,
has no id twice and only attached ones, and an id is in the vector of an event exactly when the
history says so.  A component that enters has no subscription, whoever had its id before.  A call
for a vector of events does what the single calls do. -/
theorem subscriptions_kept (inMailBox : QueueRef) (calls : List BrokerCall) :
    let r := Runs.run step (start inMailBox) calls
    (∀ e vec, r.broker.subs e = some vec →
      vec ≠ [] ∧ vec.Nodup ∧ ∀ sid ∈ vec, r.broker.getOutMailBoxAtSubId sid ≠ none) ∧
    (∀ sid e, sid ∈ r.broker.getSubscriberIDVectorFromEventType e ↔ Subscribed sid e r.history) ∧
    (∀ component e, (r.broker.attach component).1 = .ok →
      (r.broker.attach component).2.1.id ∉
        (r.broker.attach component).2.2.getSubscriberIDVectorFromEventType e) ∧
    (∀ sid events,
      (r.broker.subscribeAll sid events).2 =
          events.foldl (fun b e => (b.subscribe sid e).2) r.broker ∧
        ∀ e, (r.broker.subscribe sid e).1 = (r.broker.subscribeAll sid events).1) ∧
    ∀ sid events,
      (r.broker.unsubscribeAll sid events).2 =
          events.foldl (fun b e => (b.unsubscribe sid e).2) r.broker ∧
        ∀ e, (r.broker.unsubscribe sid e).1 = (r.broker.unsubscribeAll sid events).1 := by
  intro r
  have hkept : Kept r.broker r.history := run_kept inMailBox calls
  refine ⟨hkept.wellKept, hkept.subscribed, fun component e hok => ?_,
    fun sid events => BVBroker.subscribeAll_eq sid events _, fun sid events => ⟨rfl, fun _ => rfl⟩⟩
  rcases BVBroker.attach_cases component r.broker with ⟨-, hent⟩ | ⟨hmax, -⟩
  · rw [BVBroker.getSubscriberIDVectorFromEventType, hent.subs]
    exact hkept.not_mem_of_free hent.free e
  · rw [hmax] at hok
    cases hok

end Registry

end LocalChat
