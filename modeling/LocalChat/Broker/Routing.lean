import LocalChat.Broker.Subscriptions

/-!
# Routing

`BVBroker::Run` takes one message after another from the broker's mailbox and pushes it to the
mailbox of every subscriber of its event, until it has routed a `BVEVENTTYPE_TERMINATE_ALL`.  What
is pushed is a `shared_ptr`, so the queues hold references, and `message` is what they point to.

`run_delivers`: a mailbox gets exactly the messages its component is subscribed to, in order, from
those up to the first `BVEVENTTYPE_TERMINATE_ALL`.  Each comes once, since a vector of subscribers
names none twice and no two ids have the same mailbox (`Addressed`).

The queues are FIFO here, and the tables of the broker do not change while it runs.
-/

namespace LocalChat

/-- A `shared_ptr` to a message that is not null. -/
abbrev MessageRef := Nat

/-- `data_p` may be null. -/
structure BVMessage (α : Type*) where
  eventT : BVEventType
  dataP : Option α

/-- A broker with the messages and the queues of its components. -/
structure Post (α : Type*) where
  broker : BVBroker
  isRunning : Bool
  message : MessageRef → BVMessage α
  /-- the elements of a queue, the oldest first; null pointers can be pushed too -/
  queue : QueueRef → List (Option MessageRef)

namespace Post

variable {α : Type*}

def push (q : QueueRef) (m : Option MessageRef) (p : Post α) : Post α :=
  { p with queue := Function.update p.queue q (p.queue q ++ [m]) }

/-- One turn of the loop of `Route`. -/
def routeTo (r : MessageRef) (p : Post α) (sid : SubscriberID) : Post α :=
  match p.broker.getOutMailBoxAtSubId sid with
  | none => p
  | some q => p.push q (some r)

def route (r : MessageRef) (p : Post α) : Post α :=
  match p.broker.subs (p.message r).eventT with
  | none => p
  | some subscribers => subscribers.foldl (routeTo r) p

/-- The body of the loop of `Run`, on what was popped. -/
def serve (p : Post α) : Option MessageRef → Post α
  | none => p
  | some r =>
    route r (if (p.message r).eventT = .terminateAll then { p with isRunning := false } else p)

/-- One turn of the loop of `Run`.  On an empty mailbox it waits. -/
def turn (p : Post α) : Post α :=
  if p.isRunning then
    match p.queue p.broker.inMailBox with
    | [] => p
    | m :: rest =>
      { p with queue := Function.update p.queue p.broker.inMailBox rest }.serve m
  else p

/-- So many turns of `Run`; it has returned if `isRunning` is false. -/
def turns : Nat → Post α → Post α
  | 0, p => p
  | n + 1, p => turns n p.turn

end Post

/-! ### Addresses -/

namespace BVBroker

variable {b : BVBroker}

/-- Every mailbox has an address of its own, which was given out after that of the broker's. -/
structure Addressed (b : BVBroker) : Prop where
  apart : ∀ i j q, b.getOutMailBoxAtSubId i = some q → b.getOutMailBoxAtSubId j = some q → i = j
  after : ∀ i q, b.getOutMailBoxAtSubId i = some q → b.inMailBox < q
  fresh : ∀ i q, b.getOutMailBoxAtSubId i = some q → q < b.fresh
  room : b.inMailBox < b.fresh

theorem addressed_construct (inMailBox : QueueRef) : (construct inMailBox).Addressed := by
  have hnone : ∀ i, (construct inMailBox).getOutMailBoxAtSubId i = none := by
    intro i
    rw [construct, getOutMailBoxAtSubId]
    dsimp only
    split <;> rfl
  exact ⟨by simp [hnone], by simp [hnone], by simp [hnone], Nat.lt_succ_self _⟩

theorem Addressed.mono {b' : BVBroker} (h : b.Addressed)
    (hslot : ∀ i q, b'.getOutMailBoxAtSubId i = some q → b.getOutMailBoxAtSubId i = some q)
    (hin : b'.inMailBox = b.inMailBox) (hfresh : b'.fresh = b.fresh) : b'.Addressed where
  apart i j q hi hj := h.apart i j q (hslot i q hi) (hslot j q hj)
  after i q hi := hin ▸ h.after i q (hslot i q hi)
  fresh i q hi := hfresh ▸ h.fresh i q (hslot i q hi)
  room := by rw [hin, hfresh]; exact h.room

theorem enter_addresses (component : BVComponent) (b : BVBroker) :
    (b.enter component).2.2.inMailBox = b.inMailBox ∧
      (b.enter component).2.2.fresh = b.fresh + 1 := by
  obtain ⟨found, b', hcycle, -, hin, hfresh, -⟩ := cycleCurrentSubscriberId_cases { b with
    mailbox := Function.update b.mailbox b.currentSubscriberId (some (some b.fresh))
    fresh := b.fresh + 1
    numOfSubscribersRegistered := b.numOfSubscribersRegistered + 1 }
  simp only [enter, hcycle]
  exact ⟨hin, hfresh⟩

/-- `Attach` gives out one address if it succeeds, and none if it does not. -/
theorem attach_addresses (component : BVComponent) (b : BVBroker) :
    (b.attach component).2.2.inMailBox = b.inMailBox ∧
      (((b.attach component).1 = .ok ∧ (b.attach component).2.2.fresh = b.fresh + 1) ∨
        ((b.attach component).1 ≠ .ok ∧ (b.attach component).2.2.fresh = b.fresh)) := by
  rw [attach]
  split
  · exact ⟨rfl, .inr ⟨by simp, rfl⟩⟩
  · split
    · obtain ⟨found, b', hcycle, -, hin, hfresh, -⟩ := cycleCurrentSubscriberId_cases b
      obtain ⟨henter, hnext⟩ := b'.enter_addresses component
      rw [hcycle]
      cases found with
      | true => exact ⟨henter.trans hin, .inl ⟨rfl, by rw [hnext, hfresh]⟩⟩
      | false => exact ⟨hin, .inr ⟨by simp, hfresh⟩⟩
    · obtain ⟨henter, hnext⟩ := b.enter_addresses component
      exact ⟨henter, .inl ⟨rfl, hnext⟩⟩

theorem Addressed.attach (h : b.Addressed) (component : BVComponent) :
    (b.attach component).2.2.Addressed := by
  obtain ⟨hin, hfresh⟩ := attach_addresses component b
  rcases attach_cases component b with ⟨hok, hent⟩ | ⟨hmax, -, hsame, -⟩
  · replace hfresh : (b.attach component).2.2.fresh = b.fresh + 1 := by
      rcases hfresh with ⟨-, hfresh⟩ | ⟨hno, -⟩
      · exact hfresh
      · exact absurd hok hno
    -- the mailbox of `i` is the new one, or an old one
    have hslot : ∀ i q, (b.attach component).2.2.getOutMailBoxAtSubId i = some q →
        (i = (b.attach component).2.1.id ∧ q = b.fresh) ∨ b.getOutMailBoxAtSubId i = some q := by
      intro i q hq
      rw [hent.slot, hent.inMailBox] at hq
      split at hq
      · next hi => exact .inl ⟨hi, (Option.some.inj hq).symm⟩
      · exact .inr hq
    refine ⟨fun i j q hi hj => ?_, fun i q hi => ?_, fun i q hi => ?_, ?_⟩
    · rcases hslot i q hi with ⟨rfl, rfl⟩ | hi
      · rcases hslot j _ hj with ⟨rfl, -⟩ | hj
        · rfl
        · exact absurd (h.fresh j _ hj) (Nat.lt_irrefl _)
      · rcases hslot j q hj with ⟨-, rfl⟩ | hj
        · exact absurd (h.fresh i _ hi) (Nat.lt_irrefl _)
        · exact h.apart i j q hi hj
    · rw [hin]
      rcases hslot i q hi with ⟨-, rfl⟩ | hi
      · exact h.room
      · exact h.after i q hi
    · rw [hfresh]
      rcases hslot i q hi with ⟨-, rfl⟩ | hi
      · exact Nat.lt_succ_self _
      · exact (h.fresh i q hi).trans (Nat.lt_succ_self _)
    · rw [hin, hfresh]
      exact h.room.trans (Nat.lt_succ_self _)
  · replace hfresh : (b.attach component).2.2.fresh = b.fresh := by
      rcases hfresh with ⟨hok, -⟩ | ⟨-, hfresh⟩
      · rw [hmax] at hok
        cases hok
      · exact hfresh
    exact h.mono (fun i q hq => (hsame.slot i).symm.trans hq) hin hfresh

theorem Addressed.detach (h : b.Addressed) (sid : SubscriberID) :
    (b.detach sid).2.Addressed := by
  by_cases hsid : b.getOutMailBoxAtSubId sid = none
  · rw [BVBroker.detach, if_pos hsid]
    exact h
  · refine h.mono (fun i q hq => ?_) ?_ ?_
    · rw [detach_slot hsid] at hq
      split at hq
      · cases hq
      · exact hq
    · rw [BVBroker.detach, if_neg hsid]
    · rw [BVBroker.detach, if_neg hsid]

theorem Addressed.foldl {f : BVBroker → BVEventType → BVBroker}
    (hf : ∀ b e, (f b e).mailbox = b.mailbox ∧ (f b e).inMailBox = b.inMailBox ∧
      (f b e).fresh = b.fresh) (events : List BVEventType) (h : b.Addressed) :
    (events.foldl f b).Addressed := by
  induction events generalizing b with
  | nil => exact h
  | cons e events ih =>
    obtain ⟨hmail, hin, hfresh⟩ := hf b e
    refine ih (h.mono (fun i q hq => ?_) hin hfresh)
    rwa [getOutMailBoxAtSubId, hmail] at hq

theorem addSubscription_frame (sid : SubscriberID) (b : BVBroker) (e : BVEventType) :
    (b.addSubscription sid e).mailbox = b.mailbox ∧
      (b.addSubscription sid e).inMailBox = b.inMailBox ∧
      (b.addSubscription sid e).fresh = b.fresh :=
  ⟨rfl, rfl, rfl⟩

theorem removeSubscription_frame (sid : SubscriberID) (b : BVBroker) (e : BVEventType) :
    (b.removeSubscription sid e).mailbox = b.mailbox ∧
      (b.removeSubscription sid e).inMailBox = b.inMailBox ∧
      (b.removeSubscription sid e).fresh = b.fresh := by
  rw [removeSubscription]
  split <;> exact ⟨rfl, rfl, rfl⟩

end BVBroker

namespace Registry

theorem step_addressed {r : Registry} (h : r.broker.Addressed) (call : BrokerCall) :
    (r.step call).broker.Addressed := by
  cases call with
  | attach component => exact h.attach component
  | detach sid => exact h.detach sid
  | subscribe sid event =>
    rw [step, record_broker, BVBroker.subscribe]
    split
    · exact h
    · exact h.foldl (BVBroker.addSubscription_frame sid) [event]
  | subscribeAll sid events =>
    rw [step, record_broker, BVBroker.subscribeAll]
    split
    · exact h
    · exact h.foldl (BVBroker.addSubscription_frame sid) events
  | unsubscribe sid event => exact h.foldl (BVBroker.removeSubscription_frame sid) [event]
  | unsubscribeAll sid events => exact h.foldl (BVBroker.removeSubscription_frame sid) events

theorem run_orderly (inMailBox : QueueRef) (calls : List BrokerCall) :
    (Runs.run step (start inMailBox) calls).broker.WellKept ∧
      (Runs.run step (start inMailBox) calls).broker.Addressed :=
  ⟨(run_kept inMailBox calls).wellKept,
    Runs.run_invariant_of_forall (I := fun r : Registry => r.broker.Addressed)
      (fun _ call h => step_addressed h call) (BVBroker.addressed_construct inMailBox) calls⟩

end Registry

/-! ### Deliveries -/

namespace Post

variable {α : Type*} {p : Post α} {r : MessageRef}

structure SameFrame (p p' : Post α) : Prop where
  broker : p'.broker = p.broker
  isRunning : p'.isRunning = p.isRunning
  message : p'.message = p.message

theorem sameFrame_routeTo (r : MessageRef) (p : Post α) (sid : SubscriberID) :
    SameFrame p (p.routeTo r sid) := by
  rw [routeTo]
  split <;> exact ⟨rfl, rfl, rfl⟩

theorem sameFrame_foldl (r : MessageRef) (sids : List SubscriberID) (p : Post α) :
    SameFrame p (sids.foldl (routeTo r) p) := by
  induction sids generalizing p with
  | nil => exact ⟨rfl, rfl, rfl⟩
  | cons sid sids ih =>
    have hone := sameFrame_routeTo r p sid
    have hrest := ih (p.routeTo r sid)
    exact ⟨hrest.broker.trans hone.broker, hrest.isRunning.trans hone.isRunning,
      hrest.message.trans hone.message⟩

theorem route_eq (r : MessageRef) (p : Post α) : p.route r =
    (p.broker.getSubscriberIDVectorFromEventType (p.message r).eventT).foldl (routeTo r) p := by
  rw [route, BVBroker.getSubscriberIDVectorFromEventType]
  cases p.broker.subs (p.message r).eventT <;> rfl

theorem sameFrame_route (r : MessageRef) (p : Post α) : SameFrame p (p.route r) := by
  rw [route_eq]
  exact sameFrame_foldl r _ p

theorem foldl_routeTo_of_notMem {q : QueueRef} {sids : List SubscriberID}
    (h : ∀ sid ∈ sids, p.broker.getOutMailBoxAtSubId sid ≠ some q) :
    (sids.foldl (routeTo r) p).queue q = p.queue q := by
  induction sids generalizing p with
  | nil => rfl
  | cons sid sids ih =>
    rw [List.forall_mem_cons] at h
    have hframe := sameFrame_routeTo r p sid
    rw [List.foldl_cons, ih (by rw [hframe.broker]; exact h.2), routeTo]
    split
    · rfl
    · next q' hq' =>
      have hne : q ≠ q' := fun he => h.1 (he ▸ hq')
      exact Function.update_of_ne hne _ _

/-- The mailbox of an id gets the message once if the id is among the subscribers. -/
theorem foldl_routeTo_of_mem (hapart : p.broker.Addressed) {sid : SubscriberID} {q : QueueRef}
    (hq : p.broker.getOutMailBoxAtSubId sid = some q) {sids : List SubscriberID}
    (hmem : sid ∈ sids) (hnodup : sids.Nodup) :
    (sids.foldl (routeTo r) p).queue q = p.queue q ++ [some r] := by
  induction sids generalizing p with
  | nil => cases hmem
  | cons j sids ih =>
    have hframe := sameFrame_routeTo r p j
    rw [List.nodup_cons] at hnodup
    rw [List.foldl_cons]
    by_cases hj : j = sid
    · subst hj
      have hrest : ∀ i ∈ sids, (p.routeTo r j).broker.getOutMailBoxAtSubId i ≠ some q := by
        intro i hi hiq
        rw [hframe.broker] at hiq
        exact hnodup.1 (hapart.apart i j q hiq hq ▸ hi)
      rw [foldl_routeTo_of_notMem hrest, routeTo, hq]
      exact Function.update_self _ _ _
    · have hother : (p.routeTo r j).queue q = p.queue q := by
        have hno : ∀ i ∈ [j], p.broker.getOutMailBoxAtSubId i ≠ some q := by
          intro i hi hiq
          rw [List.mem_singleton.mp hi] at hiq
          exact hj (hapart.apart j sid q hiq hq)
        exact foldl_routeTo_of_notMem hno
      have hsid : sid ∈ sids := (List.mem_cons.mp hmem).resolve_left (Ne.symm hj)
      rw [ih (hframe.broker ▸ hapart) (hframe.broker ▸ hq) hsid hnodup.2, hother]

/-- What the broker relies on: its tables are in order. -/
structure Orderly (p : Post α) : Prop where
  wellKept : p.broker.WellKept
  addressed : p.broker.Addressed

theorem Orderly.of_same {p' : Post α} (h : p.Orderly) (hsame : p'.broker = p.broker) :
    p'.Orderly :=
  ⟨hsame ▸ h.wellKept, hsame ▸ h.addressed⟩

theorem Orderly.nodup (h : p.Orderly) (e : BVEventType) :
    (p.broker.getSubscriberIDVectorFromEventType e).Nodup := by
  rw [BVBroker.getSubscriberIDVectorFromEventType]
  cases hvec : p.broker.subs e with
  | none => exact List.nodup_nil
  | some vec => exact (h.wellKept e vec hvec).2.1

def subscribedTo (p : Post α) (sid : SubscriberID) (r : MessageRef) : Bool :=
  sid ∈ p.broker.getSubscriberIDVectorFromEventType (p.message r).eventT

theorem route_mailbox (h : p.Orderly) {sid : SubscriberID} {q : QueueRef}
    (hq : p.broker.getOutMailBoxAtSubId sid = some q) (r : MessageRef) :
    (p.route r).queue q = p.queue q ++ ([r].filter (p.subscribedTo sid)).map some := by
  rw [route_eq]
  by_cases hmem : sid ∈ p.broker.getSubscriberIDVectorFromEventType (p.message r).eventT
  · rw [foldl_routeTo_of_mem h.addressed hq hmem (h.nodup _)]
    simp [subscribedTo, hmem]
  · rw [foldl_routeTo_of_notMem fun j hj hjq => hmem (h.addressed.apart j sid q hjq hq ▸ hj)]
    simp [subscribedTo, hmem]

theorem route_other {q : QueueRef} (hq : ∀ sid, p.broker.getOutMailBoxAtSubId sid ≠ some q)
    (r : MessageRef) : (p.route r).queue q = p.queue q := by
  rw [route_eq, foldl_routeTo_of_notMem fun sid _ => hq sid]

/-! ### The loop of `Run` -/

/-- The messages `Run` routes: those up to the first `BVEVENTTYPE_TERMINATE_ALL`, and that one. -/
def routed (p : Post α) : List (Option MessageRef) → List MessageRef
  | [] => []
  | none :: ms => p.routed ms
  | some r :: ms => if (p.message r).eventT = .terminateAll then [r] else r :: p.routed ms

def unrouted (p : Post α) : List (Option MessageRef) → List (Option MessageRef)
  | [] => []
  | none :: ms => p.unrouted ms
  | some r :: ms => if (p.message r).eventT = .terminateAll then ms else p.unrouted ms

def Terminates (p : Post α) (ms : List (Option MessageRef)) : Prop :=
  ∃ r, some r ∈ ms ∧ (p.message r).eventT = .terminateAll

/-- What `Run` has done when it has returned, or waits, after the messages `ms`. -/
structure Delivered (ms : List (Option MessageRef)) (p p' : Post α) : Prop where
  returned : p'.isRunning = false ↔ p.Terminates ms
  mailbox : ∀ sid q, p.broker.getOutMailBoxAtSubId sid = some q →
    p'.queue q = p.queue q ++ ((p.routed ms).filter (p.subscribedTo sid)).map some
  other : ∀ q, q ≠ p.broker.inMailBox → (∀ sid, p.broker.getOutMailBoxAtSubId sid ≠ some q) →
    p'.queue q = p.queue q
  rest : p'.queue p.broker.inMailBox = p.unrouted ms

theorem turn_of_stopped (h : p.isRunning = false) : p.turn = p := by
  rw [turn, h]
  rfl

theorem turns_of_turn_eq (h : p.turn = p) (n : Nat) : p.turns n = p := by
  induction n with
  | zero => rfl
  | succ n ih => rw [turns, h, ih]

theorem turns_add (m n : Nat) (p : Post α) : p.turns (m + n) = (p.turns m).turns n := by
  induction m generalizing p with
  | zero => rw [Nat.zero_add, turns]
  | succ m ih => rw [Nat.succ_add, turns, ih, turns]

def popped (running : Bool) (ms : List (Option MessageRef)) (p : Post α) : Post α :=
  { p with queue := Function.update p.queue p.broker.inMailBox ms, isRunning := running }

theorem popped_queue {running : Bool} {ms : List (Option MessageRef)} {q : QueueRef}
    (h : q ≠ p.broker.inMailBox) : (p.popped running ms).queue q = p.queue q :=
  Function.update_of_ne h _ _

theorem turn_none {ms : List (Option MessageRef)} (hrun : p.isRunning = true)
    (hin : p.queue p.broker.inMailBox = none :: ms) : p.turn = p.popped true ms := by
  rw [turn, if_pos hrun, hin, popped, ← hrun]
  rfl

theorem turn_some {ms : List (Option MessageRef)} (hrun : p.isRunning = true)
    (hin : p.queue p.broker.inMailBox = some r :: ms) :
    p.turn = (p.popped (decide ((p.message r).eventT ≠ .terminateAll)) ms).route r := by
  rw [turn, if_pos hrun, hin]
  by_cases hterm : (p.message r).eventT = .terminateAll
  · simp [serve, popped, hterm]
  · simp [serve, popped, hterm, hrun]

structure Turned (r : MessageRef) (ms : List (Option MessageRef)) (p p' : Post α) : Prop where
  broker : p'.broker = p.broker
  message : p'.message = p.message
  isRunning : p'.isRunning = decide ((p.message r).eventT ≠ .terminateAll)
  rest : p'.queue p.broker.inMailBox = ms
  mailbox : ∀ sid q, p.broker.getOutMailBoxAtSubId sid = some q →
    p'.queue q = p.queue q ++ ([r].filter (p.subscribedTo sid)).map some
  other : ∀ q, q ≠ p.broker.inMailBox → (∀ sid, p.broker.getOutMailBoxAtSubId sid ≠ some q) →
    p'.queue q = p.queue q

theorem Orderly.inMailBox_ne (h : p.Orderly) (sid : SubscriberID) :
    p.broker.getOutMailBoxAtSubId sid ≠ some p.broker.inMailBox :=
  fun hq => Nat.lt_irrefl _ (h.addressed.after sid _ hq)

theorem turned (h : p.Orderly) {ms : List (Option MessageRef)} (hrun : p.isRunning = true)
    (hin : p.queue p.broker.inMailBox = some r :: ms) : Turned r ms p p.turn := by
  rw [turn_some hrun hin]
  have hpopped : (p.popped (decide ((p.message r).eventT ≠ .terminateAll)) ms).Orderly :=
    h.of_same rfl
  have hframe := sameFrame_route r (p.popped (decide ((p.message r).eventT ≠ .terminateAll)) ms)
  refine ⟨hframe.broker, hframe.message, hframe.isRunning, ?_, fun sid q hq => ?_,
    fun q hne hq => ?_⟩
  · exact (route_other hpopped.inMailBox_ne r).trans (Function.update_self _ _ _)
  · have hne : q ≠ p.broker.inMailBox := fun he => h.inMailBox_ne sid (he ▸ hq)
    have hroute := route_mailbox hpopped hq r
    rw [popped_queue hne] at hroute
    exact hroute
  · exact (route_other (p := p.popped (decide ((p.message r).eventT ≠ .terminateAll)) ms) hq
      r).trans (popped_queue hne)

/-- The subscriptions, the routed messages and the rest depend on the broker and the messages
alone. -/
theorem routed_congr {p' : Post α} (h : p'.message = p.message) (ms : List (Option MessageRef)) :
    p'.routed ms = p.routed ms ∧ p'.unrouted ms = p.unrouted ms ∧
      (p'.Terminates ms ↔ p.Terminates ms) := by
  refine ⟨?_, ?_, by rw [Terminates, Terminates, h]⟩
  · induction ms with
    | nil => rfl
    | cons m ms ih => cases m <;> simp [routed, ih, h]
  · induction ms with
    | nil => rfl
    | cons m ms ih => cases m <;> simp [unrouted, ih, h]

theorem Delivered.skip {ms : List (Option MessageRef)} {p'' : Post α} (running : Bool)
    (h : p.Orderly) (hd : Delivered ms (p.popped running ms) p'') :
    Delivered (none :: ms) p p'' := by
  have hmessage : (p.popped running ms).message = p.message := rfl
  obtain ⟨hrouted, hunrouted, hterms⟩ := routed_congr hmessage ms
  refine ⟨?_, fun sid q hq => ?_, fun q hne hq => ?_, ?_⟩
  · rw [hd.returned, hterms]
    simp [Terminates]
  · have hne : q ≠ p.broker.inMailBox := fun he => h.inMailBox_ne sid (he ▸ hq)
    rw [hd.mailbox sid q hq, popped_queue hne, hrouted, routed]
    rfl
  · rw [hd.other q hne hq, popped_queue hne]
  · exact hd.rest.trans hunrouted

theorem Delivered.cons {ms : List (Option MessageRef)} {p' p'' : Post α}
    (hterm : (p.message r).eventT ≠ .terminateAll) (ht : Turned r ms p p')
    (hd : Delivered ms p' p'') : Delivered (some r :: ms) p p'' := by
  obtain ⟨hrouted, hunrouted, hterms⟩ := routed_congr ht.message ms
  have hsub : p'.subscribedTo = p.subscribedTo := by
    funext sid r
    rw [subscribedTo, subscribedTo, ht.broker, ht.message]
  refine ⟨?_, fun sid q hq => ?_, fun q hne hq => ?_, ?_⟩
  · rw [hd.returned, hterms]
    constructor
    · rintro ⟨r', hmem, hr'⟩
      exact ⟨r', List.mem_cons_of_mem _ hmem, hr'⟩
    · rintro ⟨r', hmem, hr'⟩
      rcases List.mem_cons.mp hmem with heq | hmem
      · cases heq
        exact absurd hr' hterm
      · exact ⟨r', hmem, hr'⟩
  · rw [hd.mailbox sid q (ht.broker ▸ hq), ht.mailbox sid q hq, hrouted, hsub, routed, if_neg hterm,
      List.append_assoc, ← List.map_append, ← List.filter_append, List.singleton_append]
  · rw [hd.other q (ht.broker ▸ hne) (ht.broker ▸ hq), ht.other q hne hq]
  · rw [← ht.broker, hd.rest, hunrouted, unrouted, if_neg hterm]

/-- **The loop of `Run`.**  As many turns as there are messages are enough. -/
theorem delivered {ms : List (Option MessageRef)} (h : p.Orderly) (hrun : p.isRunning = true)
    (hin : p.queue p.broker.inMailBox = ms) {n : Nat} (hn : ms.length ≤ n) :
    Delivered ms p (p.turns n) := by
  induction ms generalizing p n with
  | nil =>
    have hwait : p.turn = p := by rw [turn, if_pos hrun, hin]
    rw [turns_of_turn_eq hwait]
    refine ⟨?_, fun sid q _ => by simp [routed], fun _ _ _ => rfl, hin⟩
    simp [hrun, Terminates]
  | cons m ms ih =>
    obtain ⟨n, rfl⟩ : ∃ k, n = k + 1 := ⟨n - 1, by simp at hn; omega⟩
    have hn' : ms.length ≤ n := by simpa using hn
    rw [turns]
    cases m with
    | none =>
      rw [turn_none hrun hin]
      refine Delivered.skip true h ?_
      exact ih (p := p.popped true ms) (h.of_same rfl) rfl (Function.update_self _ _ _) hn'
    | some r =>
      have ht := turned h hrun hin
      by_cases hterm : (p.message r).eventT = .terminateAll
      · have hstop : p.turn.isRunning = false := by
          rw [ht.isRunning, hterm]
          rfl
        rw [turns_of_turn_eq (turn_of_stopped hstop)]
        refine ⟨iff_of_true hstop ⟨r, List.mem_cons_self, hterm⟩, fun sid q hq => ?_, ht.other, ?_⟩
        · rw [ht.mailbox sid q hq, routed, if_pos hterm]
        · rw [ht.rest, unrouted, if_pos hterm]
      · refine Delivered.cons hterm ht (ih (h.of_same ht.broker) ?_ (ht.broker ▸ ht.rest) hn')
        rw [ht.isRunning]
        simpa using hterm

/-- Once `Run` has returned nothing changes any more. -/
theorem turns_of_stopped {n m : Nat} (h : (p.turns n).isRunning = false) (hle : n ≤ m) :
    p.turns m = p.turns n := by
  obtain ⟨k, rfl⟩ := Nat.exists_eq_add_of_le hle
  rw [turns_add, turns_of_turn_eq (turn_of_stopped h)]

/-- **Routing.**  Whatever the calls on the broker were and whatever is in its mailbox, `Run`
returns exactly if there is a `BVEVENTTYPE_TERMINATE_ALL`.  Then the mailbox of every attached id
has got, in order and once each, those of the messages up to the first one of these which the id is
subscribed to; no other queue has got anything, but the messages behind it are still there. -/
theorem run_delivers (inMailBox : QueueRef) (calls : List BrokerCall)
    (message : MessageRef → BVMessage α) (queue : QueueRef → List (Option MessageRef)) :
    let b := (Runs.run Registry.step (Registry.start inMailBox) calls).broker
    let p : Post α := ⟨b, true, message, queue⟩
    let ms := queue b.inMailBox
    ((∃ n, (p.turns n).isRunning = false) ↔
        ∃ r, some r ∈ ms ∧ (message r).eventT = .terminateAll) ∧
      ∀ n, (p.turns n).isRunning = false →
        (∀ sid q, b.getOutMailBoxAtSubId sid = some q →
          (p.turns n).queue q = queue q ++ ((p.routed ms).filter (p.subscribedTo sid)).map some) ∧
        (∀ q, q ≠ b.inMailBox → (∀ sid, b.getOutMailBoxAtSubId sid ≠ some q) →
          (p.turns n).queue q = queue q) ∧
        (p.turns n).queue b.inMailBox = p.unrouted ms := by
  intro b p ms
  obtain ⟨hkept, haddressed⟩ := Registry.run_orderly inMailBox calls
  have hp : p.Orderly := ⟨hkept, haddressed⟩
  refine ⟨⟨?_, fun hterm => ?_⟩, fun n hstop => ?_⟩
  · rintro ⟨n, hstop⟩
    have hd := delivered hp rfl rfl (Nat.le_max_left ms.length n)
    rw [turns_of_stopped hstop (Nat.le_max_right _ _)] at hd
    exact hd.returned.mp hstop
  · exact ⟨ms.length, (delivered hp rfl rfl (Nat.le_refl _)).returned.mpr hterm⟩
  · have hd := delivered hp rfl rfl (Nat.le_max_left ms.length n)
    rw [turns_of_stopped hstop (Nat.le_max_right _ _)] at hd
    exact ⟨hd.mailbox, hd.other, hd.rest⟩

end Post

end LocalChat
