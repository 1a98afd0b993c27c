import LocalChat.Broker.Broadcast

/-!
# The program and its mailboxes

`main` attaches the discovery and the app to the broker and subscribes them, one call after another;
`BVChatCore::start` makes the same calls.  Each component has registered its callbacks in its
constructor.  While the threads run, messages also come directly into the app's mailbox, from the
sessions.

* `exists_setup`: the setup succeeds, and what its broker does then.
* `Inv.step`: every message that is in a mailbox has a callback there.
* `every_message_has_a_callback`: so `callback_m.at` never throws, in any run.
-/

namespace LocalChat

open Queues

variable {α : Type*}

/-- The events `main` subscribes the discovery to, in its order. -/
def discoverySubscriptions : List BVEventType :=
  [.discoveryRequestStart, .discoveryRequestPause, .discoveryRequestResume, .terminateAll,
    .discoveryRequestShutdown, .discoveryRequestRestart, .discoveryRequestResolve]

def appSubscriptions : List BVEventType :=
  [.appPublishedService, .appDiscoveryServiceResolved, .terminateAll, .appDeregisteredService,
    .appMessageIncoming, .appFileTransferBegin, .appFileTransferChunkSent, .appFileTransferEnd]

/-- The events the constructors of `BVDiscovery_Avahi` and `BVDiscovery_Bonjour` register a callback
for. -/
def discoveryCallbackEvents : List BVEventType :=
  [.discoveryRequestStart, .discoveryRequestPause, .discoveryRequestResume, .terminateAll,
    .discoveryRequestShutdown, .discoveryRequestRestart, .discoveryRequestResolve]

/-- The events the constructor of `BVApp_ConsoleClient` registers a callback for. -/
def appCallbackEvents : List BVEventType :=
  [.appPublishedService, .terminateAll, .appDiscoveryServiceResolved, .appDeregisteredService,
    .appMessageIncoming, .appFileOffer, .appFileTransferBegin, .appFileTransferChunkSent,
    .appFileTransferEnd]

/-- The events of the messages that the sessions put into the app's mailbox. -/
def sessionEvents : List BVEventType :=
  [.appMessageIncoming, .appFileOffer, .appFileTransferBegin, .appFileTransferChunkSent,
    .appFileTransferEnd]

/-! ### Setup -/

/-- One `Subscribe` for each event; whether all of them succeed. -/
def BVBroker.subscribeEach (sid : SubscriberID) : List BVEventType → BVBroker → Bool × BVBroker
  | [], b => (true, b)
  | e :: events, b =>
    let result := b.subscribe sid e
    let rest := subscribeEach sid events result.2
    (result.1 = .ok && rest.1, rest.2)

structure Program where
  broker : BVBroker
  discovery : BVComponent
  app : BVComponent

namespace Program

/-- The setup of the broker in `main`, which exits if a call fails. -/
def setup (inMailBox : QueueRef) (discovery app : BVComponent) : Option Program :=
  let broker := BVBroker.construct inMailBox
  let attachedDiscovery := broker.attach discovery
  let attachedApp := attachedDiscovery.2.2.attach app
  if attachedDiscovery.1 ≠ .ok ∨ attachedApp.1 ≠ .ok then none
  else
    let discovery := attachedDiscovery.2.1
    let app := attachedApp.2.1
    let subscribedDiscovery :=
      attachedApp.2.2.subscribeEach discovery.id discoverySubscriptions
    let subscribedApp := subscribedDiscovery.2.subscribeEach app.id appSubscriptions
    if subscribedDiscovery.1 && subscribedApp.1 then some ⟨subscribedApp.2, discovery, app⟩
    else none

structure Wired (p : Program) : Prop where
  wellKept : p.broker.WellKept
  addressed : p.broker.Addressed
  distinct : p.app.id ≠ p.discovery.id
  discoveryMailbox : p.broker.getOutMailBoxAtSubId p.discovery.id = some p.discovery.inMailBox
  appMailbox : p.broker.getOutMailBoxAtSubId p.app.id = some p.app.inMailBox
  mailboxes : ∀ sid, p.broker.getOutMailBoxAtSubId sid ≠ none →
    sid = p.discovery.id ∨ sid = p.app.id
  subscribers : ∀ e sid, sid ∈ p.broker.getSubscriberIDVectorFromEventType e ↔
    (sid = p.discovery.id ∧ e ∈ discoverySubscriptions) ∨ (sid = p.app.id ∧ e ∈ appSubscriptions)

end Program

namespace BVBroker

variable {b : BVBroker} {sid : SubscriberID}

theorem subscribeEach_eq (h : b.getOutMailBoxAtSubId sid ≠ none) (events : List BVEventType) :
    b.subscribeEach sid events = (true, events.foldl (addSubscription sid) b) := by
  induction events generalizing b with
  | nil => rfl
  | cons e events ih =>
    have hsub : b.subscribe sid e = (.ok, b.addSubscription sid e) := by rw [subscribe, if_neg h]
    have hrest : subscribeEach sid events (b.addSubscription sid e) =
        (true, events.foldl (addSubscription sid) (b.addSubscription sid e)) := ih h
    rw [subscribeEach, hsub, hrest]
    rfl

theorem foldl_addSubscription_slot (sid : SubscriberID) (events : List BVEventType)
    (b : BVBroker) (j : SubscriberID) :
    (events.foldl (addSubscription sid) b).getOutMailBoxAtSubId j = b.getOutMailBoxAtSubId j := by
  induction events generalizing b with
  | nil => rfl
  | cons e events ih => exact ih (b.addSubscription sid e)

theorem mem_foldl_addSubscription (sid : SubscriberID) (events : List BVEventType) (b : BVBroker)
    (j : SubscriberID) (f : BVEventType) :
    j ∈ (events.foldl (addSubscription sid) b).getSubscriberIDVectorFromEventType f ↔
      (j = sid ∧ f ∈ events) ∨ j ∈ b.getSubscriberIDVectorFromEventType f := by
  induction events generalizing b with
  | nil => simp
  | cons e events ih =>
    rw [List.foldl_cons, ih, mem_addSubscription, List.mem_cons, and_or_left, or_assoc,
      or_left_comm]

theorem WellKept.foldl (h : b.WellKept) (hsid : b.getOutMailBoxAtSubId sid ≠ none)
    (events : List BVEventType) : (events.foldl (BVBroker.addSubscription sid) b).WellKept := by
  induction events generalizing b with
  | nil => exact h
  | cons e events ih => exact ih (h.addSubscription hsid e) hsid

theorem attach_entered (component : BVComponent) (hfree : b.getOutMailBoxAtSubId sid = none) :
    (b.attach component).1 = .ok ∧
      Entered b (b.attach component).2.1 (b.attach component).2.2 := by
  rcases attach_cases component b with h | ⟨-, -, -, hfull⟩
  · exact h
  · exact absurd hfree (hfull sid)

theorem construct_slot (inMailBox : QueueRef) (sid : SubscriberID) :
    (construct inMailBox).getOutMailBoxAtSubId sid = none := by
  rw [construct, getOutMailBoxAtSubId]
  dsimp only
  split <;> rfl

end BVBroker

namespace Program

open BVBroker

/-- **The setup succeeds.** -/
theorem exists_setup (inMailBox : QueueRef) (discovery app : BVComponent) :
    ∃ p, setup inMailBox discovery app = some p ∧ p.Wired := by
  obtain ⟨hok, hd⟩ := attach_entered discovery (construct_slot inMailBox 0)
  have haddressed := (addressed_construct inMailBox).attach discovery
  have hkept : ((construct inMailBox).attach discovery).2.2.WellKept := by
    intro e vec hvec
    rw [hd.subs] at hvec
    cases hvec
  generalize hb : (construct inMailBox).attach discovery = attached at *
  obtain ⟨status, d, b⟩ := attached
  -- another id is free, since only one is taken
  have hslot : ∀ sid, sid ≠ d.id → b.getOutMailBoxAtSubId sid = none := by
    intro sid hsid
    rw [hd.slot, if_neg hsid, construct_slot]
  have hfree : ∃ sid, sid ≠ d.id := by
    by_cases hzero : d.id = 0
    · exact ⟨1, by rw [hzero]; decide⟩
    · exact ⟨0, fun h => hzero h.symm⟩
  obtain ⟨sid, hsid⟩ := hfree
  obtain ⟨hok', ha⟩ := attach_entered app (hslot sid hsid)
  have haddressed' := haddressed.attach app
  have hkept' : (b.attach app).2.2.WellKept := by
    refine hkept.of_same ha.subs fun j hj => ?_
    rw [ha.slot]
    split
    · simp
    · exact hj
  have hsubs : (b.attach app).2.2.subs = fun _ => none := ha.subs.trans hd.subs
  generalize hb' : b.attach app = attached' at *
  obtain ⟨status', a, b'⟩ := attached'
  have hdistinct : a.id ≠ d.id := by
    intro hsame
    have hnone := ha.free
    rw [hsame, hd.slot, if_pos rfl] at hnone
    cases hnone
  have hdslot : b'.getOutMailBoxAtSubId d.id = some d.inMailBox := by
    rw [ha.slot, if_neg (Ne.symm hdistinct), hd.slot, if_pos rfl]
  have haslot : b'.getOutMailBoxAtSubId a.id = some a.inMailBox := by rw [ha.slot, if_pos rfl]
  have hdlive : b'.getOutMailBoxAtSubId d.id ≠ none := by simp [hdslot]
  have halive : b'.getOutMailBoxAtSubId a.id ≠ none := by simp [haslot]
  have halive' : (discoverySubscriptions.foldl (addSubscription d.id) b').getOutMailBoxAtSubId
      a.id ≠ none := by
    rw [foldl_addSubscription_slot]
    exact halive
  refine ⟨⟨appSubscriptions.foldl (addSubscription a.id)
    (discoverySubscriptions.foldl (addSubscription d.id) b'), d, a⟩, ?_, ?_⟩
  · obtain rfl : status = .ok := hok
    obtain rfl : status' = .ok := hok'
    simp [setup, hb, hb', subscribeEach_eq hdlive, subscribeEach_eq halive']
  · refine ⟨(hkept'.foldl hdlive _).foldl halive' _, ?_, hdistinct, ?_, ?_, ?_, ?_⟩
    · exact (haddressed'.foldl (addSubscription_frame d.id) _).foldl (addSubscription_frame a.id) _
    · rw [foldl_addSubscription_slot, foldl_addSubscription_slot]
      exact hdslot
    · rw [foldl_addSubscription_slot, foldl_addSubscription_slot]
      exact haslot
    · intro j hj
      rw [foldl_addSubscription_slot, foldl_addSubscription_slot, ha.slot] at hj
      by_cases hja : j = a.id
      · exact .inr hja
      · rw [if_neg hja] at hj
        by_contra hno
        exact hj (hslot j fun hjd => hno (.inl hjd))
    · intro e j
      rw [mem_foldl_addSubscription, mem_foldl_addSubscription, getSubscriberIDVectorFromEventType,
        hsubs]
      simp [or_comm]

end Program

/-! ### Runs -/

namespace Exchange

def put (q : QueueRef) (m : BVMessage α) (x : Exchange α) : Exchange α :=
  { x with
    post := { x.post with message := Function.update x.post.message x.created m }.push q
      (some x.created)
    created := x.created + 1
    sent := Function.update x.sent x.created m }

theorem send_eq (m : BVMessage α) (x : Exchange α) :
    x.send m = x.put x.post.broker.inMailBox m := rfl

/-- What a turn of `ListenToMail` does that has popped `m`. -/
structure Listened (callbacks : Callbacks α) (sid : SubscriberID) (q : QueueRef)
    (m : Option MessageRef) (rest : List (Option MessageRef)) (x x' : Exchange α) : Prop where
  broker : x'.post.broker = x.post.broker
  isRunning : x'.post.isRunning = x.post.isRunning
  queue : x'.post.queue = Function.update x.post.queue q rest
  event : ∀ r, (x'.post.message r).eventT = (x.post.message r).eventT
  created : x'.created = x.created
  others : ∀ j ≠ sid, x'.listening j = x.listening j
  /-- the thread goes on only if the callback has succeeded and the event is not the last one -/
  called : ∀ r callback, m = some r → callbacks sid (x.post.message r).eventT = some callback →
    x'.calls = x.calls ++ [⟨sid, r, (x.post.message r).dataP⟩] ∧
      (x'.listening sid = false ↔ x.listening sid = false ∨
        callback (x.post.message r).dataP ≠ .ok ∨ (x.post.message r).eventT = .terminateAll ∨
          (x.post.message r).eventT = .testRequestShutdown)

theorem call_event (sid : SubscriberID) (r : MessageRef) (x : Exchange α) (r' : MessageRef) :
    ((x.call sid r).post.message r').eventT = (x.post.message r').eventT := by
  by_cases hr : r' = r
  · subst hr
    simp [call]
  · simp [call, hr]

theorem stop_others {sid j : SubscriberID} (h : j ≠ sid) (x : Exchange α) :
    (x.stop sid).listening j = x.listening j :=
  Function.update_of_ne h _ _

variable {callbacks : Callbacks α} {sid : SubscriberID} {q : QueueRef} {m : Option MessageRef}
  {rest : List (Option MessageRef)} {x : Exchange α}

theorem listened (hlisten : x.listening sid = true)
    (hq : x.post.broker.getOutMailBoxAtSubId sid = some q) (hin : x.post.queue q = m :: rest) :
    Listened callbacks sid q m rest x (x.listen callbacks sid) := by
  simp only [listen, hlisten, hq, hin]
  generalize hy : ({ x with post := { x.post with queue := Function.update x.post.queue q rest } } :
    Exchange α) = y
  have hpost : y.post.message = x.post.message ∧ y.calls = x.calls ∧ y.listening = x.listening := by
    subst hy
    exact ⟨rfl, rfl, rfl⟩
  have hcall : ∀ r, m = some r → Listened (fun _ _ => none) sid q m rest x (y.call sid r) := by
    intro r _
    subst hy
    exact ⟨rfl, rfl, rfl, fun r' => call_event sid r _ r', rfl, fun _ _ => rfl,
      fun _ _ _ h => by cases h⟩
  cases m with
  | none =>
    subst hy
    exact ⟨rfl, rfl, rfl, fun _ => rfl, rfl, fun j hj => stop_others hj _, fun _ _ h => by cases h⟩
  | some r =>
    have hframe := hcall r rfl
    have hsent : (y.call sid r).calls = x.calls ++ [⟨sid, r, (x.post.message r).dataP⟩] := by
      rw [← hpost.1, ← hpost.2.1]
      rfl
    have hkeeps : (y.call sid r).listening sid = true := (congrFun hpost.2.2 sid).trans hlisten
    have hstops : ((y.call sid r).stop sid).listening sid = false := Function.update_self _ _ _
    simp only [dispatch]
    rw [hpost.1]
    split
    · next hnone =>
      subst hy
      refine ⟨rfl, rfl, rfl, fun _ => rfl, rfl, fun j hj => stop_others hj _, ?_⟩
      rintro r' callback ⟨⟩ hcallback
      rw [hcallback] at hnone
      cases hnone
    · next callback hcallback =>
      have hunique : ∀ r' callback', some r = some r' →
          callbacks sid (x.post.message r').eventT = some callback' →
          r' = r ∧ callback' = callback := by
        rintro r' callback' ⟨⟩ hcallback'
        exact ⟨rfl, Option.some.inj (hcallback'.symm.trans hcallback)⟩
      split
      · next hbad =>
        refine ⟨hframe.broker, hframe.isRunning, hframe.queue, hframe.event, hframe.created,
          fun j hj => (stop_others hj _).trans (hframe.others j hj), fun r' callback' hr' hc' => ?_⟩
        obtain ⟨rfl, rfl⟩ := hunique r' callback' hr' hc'
        exact ⟨hsent, iff_of_true hstops (.inr (.inl hbad))⟩
      · next hgood =>
        split
        · next hlast =>
          refine ⟨hframe.broker, hframe.isRunning, hframe.queue, hframe.event, hframe.created,
            fun j hj => (stop_others hj _).trans (hframe.others j hj), fun r' callback' hr' hc' => ?_⟩
          obtain ⟨rfl, rfl⟩ := hunique r' callback' hr' hc'
          exact ⟨hsent, iff_of_true hstops (.inr (.inr hlast))⟩
        · next hmore =>
          refine ⟨hframe.broker, hframe.isRunning, hframe.queue, hframe.event, hframe.created,
            hframe.others, fun r' callback' hr' hc' => ?_⟩
          obtain ⟨rfl, rfl⟩ := hunique r' callback' hr' hc'
          refine ⟨hsent, iff_of_false (by simp [hkeeps]) ?_⟩
          rintro (h | h | h)
          · rw [hlisten] at h
            cases h
          · exact hgood h
          · exact hmore h

theorem listen_of_waiting
    (h : ∀ q, x.listening sid = true → x.post.broker.getOutMailBoxAtSubId sid = some q →
      x.post.queue q = []) : x.listen callbacks sid = x := by
  rw [listen]
  split
  · next q hlisten hq => rw [h q hlisten hq]
  · rfl

end Exchange

inductive ProgramAction (α : Type*)
  /-- `SendMessage`, or a turn of the loop of one of the threads -/
  | thread (a : ThreadAction α)
  /-- `PutMessageIntoAppMailbox` -/
  | put (m : BVMessage α) (h : m.eventT ∈ sessionEvents)

namespace Program

/-- `callback_m` of the two components, where the callbacks return what they like. -/
def callbacks (p : Program) (onDiscovery onApp : BVEventType → Option α → BVStatus) :
    Callbacks α := fun sid e =>
  if sid = p.discovery.id then
    if e ∈ discoveryCallbackEvents then some (onDiscovery e) else none
  else if sid = p.app.id then
    if e ∈ appCallbackEvents then some (onApp e) else none
  else none

def step (p : Program) (cs : Callbacks α) (x : Exchange α) : ProgramAction α → Exchange α
  | .thread a => x.step cs a
  | .put m _ => x.put p.app.inMailBox m

/-! ### Every message has a callback -/

/-- What is in the mailboxes: messages that were made, and in those of the components messages that
they have callbacks for. -/
structure Inv (p : Program) (cs : Callbacks α) (x : Exchange α) : Prop where
  broker : x.post.broker = p.broker
  made : ∀ q m, m ∈ x.post.queue q → ∃ r, m = some r ∧ r < x.created
  heard : ∀ sid q r, p.broker.getOutMailBoxAtSubId sid = some q → some r ∈ x.post.queue q →
    (cs sid (x.post.message r).eventT).isSome = true

variable {p : Program} {cs : Callbacks α} {x : Exchange α}

theorem Wired.orderly (hp : p.Wired) (hb : x.post.broker = p.broker) : x.post.Orderly :=
  ⟨hb ▸ hp.wellKept, hb ▸ hp.addressed⟩

/-- A new message goes where there is a callback for it. -/
theorem Inv.put (h : Inv p cs x) {q : QueueRef} {m : BVMessage α}
    (hm : ∀ sid, p.broker.getOutMailBoxAtSubId sid = some q → (cs sid m.eventT).isSome = true) :
    Inv p cs (x.put q m) where
  broker := h.broker
  made q' m' hm' := by
    rcases mem_push hm' with hm' | ⟨rfl, -⟩
    · obtain ⟨r, rfl, hr⟩ := h.made q' m' hm'
      exact ⟨r, rfl, Nat.lt_succ_of_lt hr⟩
    · exact ⟨x.created, rfl, Nat.lt_succ_self _⟩
  heard sid q' r hq' hr := by
    rcases mem_push hr with hr | ⟨hsame, rfl⟩
    · obtain ⟨_, ⟨⟩, hlt⟩ := h.made q' _ hr
      have hold : (x.put q m).post.message r = x.post.message r :=
        Function.update_of_ne hlt.ne _ _
      rw [hold]
      exact h.heard sid q' r hq' hr
    · obtain rfl := Option.some.inj hsame
      have hnew : (x.put q' m).post.message x.created = m := Function.update_self _ _ _
      rw [hnew]
      exact hm sid hq'

theorem Inv.turn (hp : p.Wired) (hcs : ∀ sid e, sid ∈ p.broker.getSubscriberIDVectorFromEventType e →
    (cs sid e).isSome = true) (h : Inv p cs x) : Inv p cs { x with post := x.post.turn } := by
  by_cases hrun : x.post.isRunning = true
  · cases hin : x.post.queue x.post.broker.inMailBox with
    | nil =>
      have hwait : x.post.turn = x.post := by rw [Post.turn, if_pos hrun, hin]
      rw [hwait]
      exact h
    | cons m ms =>
      obtain ⟨r, rfl, hr⟩ := h.made _ m (hin ▸ List.mem_cons_self)
      have hturn := Post.turned (hp.orderly h.broker) hrun hin
      have hmem : ∀ q m, m ∈ x.post.turn.queue q → m = some r ∨ m ∈ x.post.queue q := by
        intro q m hm
        by_cases hinq : q = x.post.broker.inMailBox
        · rw [hinq, hturn.rest] at hm
          exact .inr (hinq ▸ hin ▸ List.mem_cons_of_mem _ hm)
        · by_cases hsid : ∃ sid, x.post.broker.getOutMailBoxAtSubId sid = some q
          · obtain ⟨sid, hsid⟩ := hsid
            rw [hturn.mailbox sid q hsid] at hm
            rcases List.mem_append.mp hm with hm | hm
            · exact .inr hm
            · obtain ⟨r', hr', rfl⟩ := List.mem_map.mp hm
              rw [List.mem_singleton.mp (List.mem_filter.mp hr').1]
              exact .inl rfl
          · rw [hturn.other q hinq fun sid hsid' => hsid ⟨sid, hsid'⟩] at hm
            exact .inr hm
      refine ⟨hturn.broker.trans h.broker, fun q m hm => ?_, fun sid q r' hq hr' => ?_⟩
      · rcases hmem q m hm with rfl | hm
        · exact ⟨r, rfl, hr⟩
        · exact h.made q m hm
      · show (cs sid (x.post.turn.message r').eventT).isSome = true
        rw [hturn.message]
        rw [hturn.mailbox sid q (h.broker ▸ hq)] at hr'
        rcases List.mem_append.mp hr' with hr' | hr'
        · exact h.heard sid q r' hq hr'
        · obtain ⟨r'', hr'', hsome⟩ := List.mem_map.mp hr'
          obtain rfl := Option.some.inj hsome
          refine hcs sid _ ?_
          rw [← h.broker]
          exact of_decide_eq_true (List.mem_filter.mp hr'').2
  · rw [Post.turn_of_stopped (by simpa using hrun)]
    exact h

theorem Inv.listen (h : Inv p cs x) (sid : SubscriberID) : Inv p cs (x.listen cs sid) := by
  by_cases hwait : ∀ q, x.listening sid = true → x.post.broker.getOutMailBoxAtSubId sid = some q →
      x.post.queue q = []
  · rw [Exchange.listen_of_waiting hwait]
    exact h
  · push Not at hwait
    obtain ⟨q, hlisten, hq, hne⟩ := hwait
    obtain ⟨m, rest, hin⟩ := List.exists_cons_of_ne_nil hne
    have hl : Exchange.Listened cs sid q m rest x (x.listen cs sid) :=
      Exchange.listened hlisten hq hin
    have hmem : ∀ q' m', m' ∈ (x.listen cs sid).post.queue q' → m' ∈ x.post.queue q' := by
      intro q' m' hm'
      rw [hl.queue] at hm'
      exact mem_pop hin hm'
    refine ⟨hl.broker.trans h.broker, fun q' m' hm' => ?_, fun j q' r hq' hr => ?_⟩
    · rw [hl.created]
      exact h.made q' m' (hmem q' m' hm')
    · rw [hl.event]
      exact h.heard j q' r hq' (hmem q' _ hr)

/-- Who is subscribed to an event has a callback for it. -/
theorem Wired.callback_of_subscribed (hp : p.Wired)
    (onDiscovery onApp : BVEventType → Option α → BVStatus) (sid : SubscriberID) (e : BVEventType)
    (h : sid ∈ p.broker.getSubscriberIDVectorFromEventType e) :
    (p.callbacks onDiscovery onApp sid e).isSome = true := by
  have hsubset : ∀ e ∈ appSubscriptions, e ∈ appCallbackEvents := by decide
  rw [callbacks]
  rcases (hp.subscribers e sid).mp h with ⟨rfl, he⟩ | ⟨rfl, he⟩
  · rw [if_pos rfl, if_pos (show e ∈ discoveryCallbackEvents from he)]
    rfl
  · rw [if_neg hp.distinct, if_pos rfl, if_pos (hsubset e he)]
    rfl

theorem Wired.callback_of_session (hp : p.Wired)
    (onDiscovery onApp : BVEventType → Option α → BVStatus) {e : BVEventType}
    (h : e ∈ sessionEvents) : (p.callbacks onDiscovery onApp p.app.id e).isSome = true := by
  have hsubset : ∀ e ∈ sessionEvents, e ∈ appCallbackEvents := by decide
  rw [callbacks, if_neg hp.distinct, if_pos rfl, if_pos (hsubset e h)]
  rfl

theorem Inv.step (hp : p.Wired) {onDiscovery onApp : BVEventType → Option α → BVStatus}
    (h : Inv p (p.callbacks onDiscovery onApp) x) (a : ProgramAction α) :
    Inv p (p.callbacks onDiscovery onApp) (p.step (p.callbacks onDiscovery onApp) x a) := by
  cases a with
  | thread a =>
    cases a with
    | send m =>
      refine h.put fun sid hsid => ?_
      rw [h.broker] at hsid
      exact absurd (hp.addressed.after sid _ hsid) (Nat.lt_irrefl _)
    | broker => exact h.turn hp (hp.callback_of_subscribed onDiscovery onApp)
    | listen sid => exact h.listen sid
  | put m hm =>
    refine h.put fun sid hsid => ?_
    obtain rfl := hp.addressed.apart sid p.app.id _ hsid hp.appMailbox
    exact hp.callback_of_session onDiscovery onApp hm

theorem inv_start (cs : Callbacks α) (p : Program) : Inv p cs (.start p.broker) where
  broker := rfl
  made _ _ hm := by cases hm
  heard _ _ _ _ hr := by cases hr

/-- **Every message has a callback.**  However the threads of the program run and whatever is sent,
what a component pops from its mailbox is a message, and `callback_m` has its event. -/
theorem every_message_has_a_callback (inMailBox : QueueRef) (discovery app : BVComponent)
    (onDiscovery onApp : BVEventType → Option α → BVStatus) (as : List (ProgramAction α)) :
    ∃ p, setup inMailBox discovery app = some p ∧
      let cs := p.callbacks onDiscovery onApp
      let x := Runs.run (p.step cs) (.start p.broker) as
      ∀ sid q m, p.broker.getOutMailBoxAtSubId sid = some q → m ∈ x.post.queue q →
        ∃ r, m = some r ∧ (cs sid (x.post.message r).eventT).isSome = true := by
  obtain ⟨p, hsetup, hp⟩ := exists_setup inMailBox discovery app
  refine ⟨p, hsetup, fun sid q m hq hm => ?_⟩
  have hinv := Runs.run_invariant_of_forall (I := Inv p (p.callbacks onDiscovery onApp))
    (fun x a h => h.step hp a) (inv_start _ p) as
  obtain ⟨r, rfl, -⟩ := hinv.made q m hm
  exact ⟨r, rfl, hinv.heard sid q r hq hm⟩

end Program

end LocalChat
