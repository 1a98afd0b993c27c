import LocalChat.Broker.Routing
import LocalChat.Lib.Queues

/-!
# Broadcast

`Route` pushes one shared message to all subscribers of its event, and `ListenToMail` moves the
payload out of the message it has popped.  So the first subscriber that is served has the payload
and the others get a null pointer.

`payloads_arrive_iff`: all calls of the handlers of an event get the payload the producer has sent,
whatever is sent and however the threads interleave, exactly if the event has at most one
subscriber.  For one subscriber, a message of the event is in one queue at a time (`Queues.Sole`),
so its payload is still there when it is popped.

The tables of the broker do not change while the threads run.
-/

namespace LocalChat

open Queues

variable {α : Type*}

abbrev Callbacks (α : Type*) := SubscriberID → BVEventType → Option (Option α → BVStatus)

/-- A call of a handler, with the data pointer it got. -/
structure HandlerCall (α : Type*) where
  sid : SubscriberID
  message : MessageRef
  data : Option α

structure Exchange (α : Type*) where
  post : Post α
  /-- the number of messages that were made -/
  created : Nat
  /-- the messages as their producers made them -/
  sent : MessageRef → BVMessage α
  /-- the mailbox threads that are in the loop of `ListenToMail` -/
  listening : SubscriberID → Bool
  calls : List (HandlerCall α)

inductive ThreadAction (α : Type*)
  /-- `SendMessage` of some component -/
  | send (m : BVMessage α)
  /-- a turn of the loop of `Run` -/
  | broker
  /-- a turn of the loop of `ListenToMail` -/
  | listen (sid : SubscriberID)

namespace Exchange

def start (b : BVBroker) : Exchange α where
  post := ⟨b, true, fun _ => ⟨.testEcho, none⟩, fun _ => []⟩
  created := 0
  sent := fun _ => ⟨.testEcho, none⟩
  listening := fun _ => true
  calls := []

def send (m : BVMessage α) (x : Exchange α) : Exchange α :=
  { x with
    post := { x.post with message := Function.update x.post.message x.created m }.push
      x.post.broker.inMailBox (some x.created)
    created := x.created + 1
    sent := Function.update x.sent x.created m }

def stop (sid : SubscriberID) (x : Exchange α) : Exchange α :=
  { x with listening := Function.update x.listening sid false }

/-- The call of the handler: the payload is moved out of the message. -/
def call (sid : SubscriberID) (r : MessageRef) (x : Exchange α) : Exchange α :=
  { x with
    post := { x.post with
      message := Function.update x.post.message r ⟨(x.post.message r).eventT, none⟩ }
    calls := x.calls ++ [⟨sid, r, (x.post.message r).dataP⟩] }

/-- The body of the loop of `ListenToMail`, on what was popped.  The thread ends with an exception
if there is no callback or the callback fails; a null pointer, which `Route` never pushes, ends it
too. -/
def dispatch (callbacks : Callbacks α) (sid : SubscriberID) (x : Exchange α) :
    Option MessageRef → Exchange α
  | none => x.stop sid
  | some r =>
    match callbacks sid (x.post.message r).eventT with
    | none => x.stop sid
    | some callback =>
      if callback (x.post.message r).dataP ≠ .ok then (x.call sid r).stop sid
      else if (x.post.message r).eventT = .terminateAll ∨
          (x.post.message r).eventT = .testRequestShutdown then (x.call sid r).stop sid
      else x.call sid r

/-- One turn of the loop of `ListenToMail`.  On an empty mailbox it waits. -/
def listen (callbacks : Callbacks α) (sid : SubscriberID) (x : Exchange α) : Exchange α :=
  match x.listening sid, x.post.broker.getOutMailBoxAtSubId sid with
  | true, some q =>
    match x.post.queue q with
    | [] => x
    | m :: rest =>
      { x with post := { x.post with queue := Function.update x.post.queue q rest } }.dispatch
        callbacks sid m
  | _, _ => x

def step (callbacks : Callbacks α) (x : Exchange α) : ThreadAction α → Exchange α
  | .send m => x.send m
  | .broker => { x with post := x.post.turn }
  | .listen sid => x.listen callbacks sid

/-- Every handler that was called for a message of the event got the payload that was sent. -/
def Arrived (e : BVEventType) (x : Exchange α) : Prop :=
  ∀ c ∈ x.calls, (x.sent c.message).eventT = e → c.data = (x.sent c.message).dataP

/-! ### One subscriber -/

/-- What holds while an event has one subscriber at most: a message of the event is in one queue at
most, with its payload. -/
structure Intact (e : BVEventType) (x : Exchange α) : Prop where
  event : ∀ r, (x.post.message r).eventT = (x.sent r).eventT
  below : ∀ q r, some r ∈ x.post.queue q → r < x.created
  called : ∀ c ∈ x.calls, c.message < x.created
  sole : Sole (fun m => ∃ r, m = some r ∧ (x.sent r).eventT = e) x.post.queue
  payload : ∀ q r, (x.sent r).eventT = e → some r ∈ x.post.queue q →
    (x.post.message r).dataP = (x.sent r).dataP
  arrived : x.Arrived e

variable {e : BVEventType} {x : Exchange α}

theorem intact_start (b : BVBroker) (e : BVEventType) : (start b : Exchange α).Intact e where
  event _ := rfl
  below _ _ h := by cases h
  called _ h := by cases h
  sole := Sole.empty
  payload _ _ _ h := by cases h
  arrived _ h := by cases h

theorem Intact.send (h : x.Intact e) (m : BVMessage α) : (x.send m).Intact e := by
  have hold : ∀ {r}, r < x.created → (x.send m).sent r = x.sent r ∧
      (x.send m).post.message r = x.post.message r := fun hr =>
    ⟨Function.update_of_ne hr.ne _ _, Function.update_of_ne hr.ne _ _⟩
  have hnew : (x.send m).sent x.created = m ∧ (x.send m).post.message x.created = m :=
    ⟨Function.update_self _ _ _, Function.update_self _ _ _⟩
  have hfresh : ∀ q, some x.created ∉ x.post.queue q := fun q hmem =>
    Nat.lt_irrefl _ (h.below q _ hmem)
  have hmem : ∀ {q r}, some r ∈ (x.send m).post.queue q →
      some r ∈ x.post.queue q ∨ r = x.created := by
    intro q r hr
    rcases mem_push hr with hr | ⟨hr, -⟩
    · exact .inl hr
    · exact .inr (Option.some.inj hr)
  refine ⟨fun r => ?_, fun q r hr => ?_, fun c hc => Nat.lt_succ_of_lt (h.called c hc), ?_,
    fun q r he hr => ?_, fun c hc he => ?_⟩
  · by_cases hr : r = x.created
    · subst hr
      rw [hnew.1, hnew.2]
    · have hsent : (x.send m).sent r = x.sent r := Function.update_of_ne hr _ _
      have hmsg : (x.send m).post.message r = x.post.message r := Function.update_of_ne hr _ _
      rw [hsent, hmsg, h.event]
  · rcases hmem hr with hr | rfl
    · exact Nat.lt_succ_of_lt (h.below q r hr)
    · exact Nat.lt_succ_self _
  · -- the other messages are what they were
    have hsole : Sole (fun k => ∃ r, k = some r ∧ ((x.send m).sent r).eventT = e) x.post.queue := by
      refine h.sole.mono ?_
      rintro q k hk ⟨r, rfl, he⟩
      rw [(hold (h.below q r hk)).1] at he
      exact ⟨r, rfl, he⟩
    exact hsole.push_new hfresh
  · rcases hmem hr with hr | rfl
    · have hlt := h.below q r hr
      rw [(hold hlt).1] at he ⊢
      rw [(hold hlt).2]
      exact h.payload q r he hr
    · rw [hnew.1, hnew.2]
  · have hlt := h.called c hc
    rw [(hold hlt).1] at he ⊢
    exact h.arrived c hc he

theorem Intact.of_moved (h : x.Intact e) {p : Post α} (hmessage : p.message = x.post.message)
    (hmem : ∀ q r, some r ∈ p.queue q → ∃ q', some r ∈ x.post.queue q')
    (hsole : Sole (fun m => ∃ r, m = some r ∧ (x.sent r).eventT = e) p.queue) :
    Intact e { x with post := p } where
  event r := by rw [hmessage]; exact h.event r
  below q r hr := by
    obtain ⟨q', hr'⟩ := hmem q r hr
    exact h.below q' r hr'
  called := h.called
  sole := hsole
  payload q r he hr := by
    obtain ⟨q', hr'⟩ := hmem q r hr
    rw [hmessage]
    exact h.payload q' r he hr'
  arrived := h.arrived

theorem mem_routeTo {p : Post α} {r r' : MessageRef} {sid : SubscriberID} {q : QueueRef}
    (h : some r' ∈ (p.routeTo r sid).queue q) : some r' ∈ p.queue q ∨ r' = r := by
  rw [Post.routeTo] at h
  split at h
  · exact .inl h
  · rcases mem_push h with h | ⟨h, -⟩
    · exact .inl h
    · exact .inr (Option.some.inj h)

theorem mem_foldl_routeTo {r r' : MessageRef} {q : QueueRef} {sids : List SubscriberID}
    {p : Post α} (h : some r' ∈ (sids.foldl (Post.routeTo r) p).queue q) :
    some r' ∈ p.queue q ∨ r' = r := by
  induction sids generalizing p with
  | nil => exact .inl h
  | cons sid sids ih =>
    rcases ih h with h | h
    · exact mem_routeTo h
    · exact .inr h

section Route

variable {P : Option MessageRef → Prop} {p : Post α} {r : MessageRef}

theorem sole_foldl_of_not (hr : ¬ P (some r)) (sids : List SubscriberID) (h : Sole P p.queue) :
    Sole P (sids.foldl (Post.routeTo r) p).queue := by
  induction sids generalizing p with
  | nil => exact h
  | cons sid sids ih =>
    refine ih ?_
    rw [Post.routeTo]
    split
    · exact h
    · exact h.push_other hr

/-- A message that is in no queue goes to one queue at most. -/
theorem sole_foldl_of_length_le_one {sids : List SubscriberID} (hlen : sids.length ≤ 1)
    (hnew : ∀ q, some r ∉ p.queue q) (h : Sole P p.queue) :
    Sole P (sids.foldl (Post.routeTo r) p).queue := by
  match sids, hlen with
  | [], _ => exact h
  | [sid], _ =>
    rw [List.foldl_cons, List.foldl_nil, Post.routeTo]
    split
    · exact h
    · exact h.push_new hnew

end Route

theorem Intact.route (h : x.Intact e)
    (hlen : (x.post.broker.getSubscriberIDVectorFromEventType e).length ≤ 1) {r : MessageRef}
    {ms : List (Option MessageRef)} (hin : x.post.queue x.post.broker.inMailBox = some r :: ms)
    (running : Bool) : Intact e { x with post := (x.post.popped running ms).route r } := by
  have hframe := Post.sameFrame_route r (x.post.popped running ms)
  refine h.of_moved hframe.message (fun q r' hr' => ?_) ?_
  · rw [Post.route_eq] at hr'
    rcases mem_foldl_routeTo hr' with hr' | rfl
    · exact ⟨q, mem_pop hin hr'⟩
    · exact ⟨_, hin ▸ List.mem_cons_self⟩
  · rw [Post.route_eq]
    have hpopped : Sole (fun m => ∃ r, m = some r ∧ (x.sent r).eventT = e)
        (x.post.popped running ms).queue := h.sole.pop hin
    by_cases he : (x.sent r).eventT = e
    · have hevent : ((x.post.popped running ms).message r).eventT = e := (h.event r).trans he
      rw [hevent]
      exact sole_foldl_of_length_le_one hlen (h.sole.gone hin ⟨r, rfl, he⟩) hpopped
    · refine sole_foldl_of_not ?_ _ hpopped
      rintro ⟨r', hr', he'⟩
      cases hr'
      exact he he'

theorem Intact.turn (h : x.Intact e)
    (hlen : (x.post.broker.getSubscriberIDVectorFromEventType e).length ≤ 1) :
    Intact e { x with post := x.post.turn } := by
  by_cases hrun : x.post.isRunning = true
  · cases hin : x.post.queue x.post.broker.inMailBox with
    | nil =>
      have hwait : x.post.turn = x.post := by rw [Post.turn, if_pos hrun, hin]
      rw [hwait]
      exact h
    | cons m ms =>
      cases m with
      | none =>
        rw [Post.turn_none hrun hin]
        exact h.of_moved rfl (fun q r hr => ⟨q, mem_pop hin hr⟩) (h.sole.pop hin)
      | some r =>
        rw [Post.turn_some hrun hin]
        exact h.route hlen hin _
  · have hstop : x.post.isRunning = false := by simpa using hrun
    rw [Post.turn_of_stopped hstop]
    exact h

theorem Intact.stop (h : x.Intact e) (sid : SubscriberID) : (x.stop sid).Intact e :=
  ⟨h.event, h.below, h.called, h.sole, h.payload, h.arrived⟩

/-- A handler is called for a message that is in no queue any more and still has its payload. -/
theorem Intact.call (h : x.Intact e) (sid : SubscriberID) {r : MessageRef} (hr : r < x.created)
    (hdata : (x.sent r).eventT = e → (x.post.message r).dataP = (x.sent r).dataP)
    (hgone : (x.sent r).eventT = e → ∀ q, some r ∉ x.post.queue q) : (x.call sid r).Intact e where
  event r' := by
    by_cases heq : r' = r
    · subst heq
      have hmsg : ((x.call sid r').post.message r').eventT = (x.post.message r').eventT := by
        simp [Exchange.call]
      rw [hmsg]
      exact h.event r'
    · have hmsg : (x.call sid r).post.message r' = x.post.message r' :=
        Function.update_of_ne heq _ _
      rw [hmsg]
      exact h.event r'
  below := h.below
  called c hc := by
    rcases List.mem_append.mp hc with hc | hc
    · exact h.called c hc
    · rw [List.mem_singleton.mp hc]
      exact hr
  sole := h.sole
  payload q r' he hr' := by
    have heq : r' ≠ r := by
      rintro rfl
      exact hgone he q hr'
    have hmsg : (x.call sid r).post.message r' = x.post.message r' := Function.update_of_ne heq _ _
    rw [hmsg]
    exact h.payload q r' he hr'
  arrived c hc he := by
    rcases List.mem_append.mp hc with hc | hc
    · exact h.arrived c hc he
    · rw [List.mem_singleton.mp hc] at he ⊢
      exact hdata he

theorem Intact.dispatch (h : x.Intact e) (callbacks : Callbacks α) (sid : SubscriberID)
    {m : Option MessageRef} (hm : ∀ r, m = some r → r < x.created ∧
      ((x.sent r).eventT = e → (x.post.message r).dataP = (x.sent r).dataP) ∧
      ((x.sent r).eventT = e → ∀ q, some r ∉ x.post.queue q)) :
    (x.dispatch callbacks sid m).Intact e := by
  cases m with
  | none => exact h.stop sid
  | some r =>
    obtain ⟨hr, hdata, hgone⟩ := hm r rfl
    have hcall := h.call sid hr hdata hgone
    simp only [Exchange.dispatch]
    split
    · exact h.stop sid
    · split
      · exact hcall.stop sid
      · split
        · exact hcall.stop sid
        · exact hcall

theorem Intact.listen (h : x.Intact e) (callbacks : Callbacks α) (sid : SubscriberID) :
    (x.listen callbacks sid).Intact e := by
  rw [Exchange.listen]
  split
  case h_1 q _ hq =>
    split
    · exact h
    · next m rest hin =>
      refine Intact.dispatch (h.of_moved (p := { x.post with
        queue := Function.update x.post.queue q rest }) rfl
        (fun q r hr => ⟨q, mem_pop hin hr⟩) (h.sole.pop hin)) callbacks sid ?_
      rintro r rfl
      have hmem : some r ∈ x.post.queue q := hin ▸ List.mem_cons_self
      exact ⟨h.below q r hmem, fun he => h.payload q r he hmem,
        fun he => h.sole.gone hin ⟨r, rfl, he⟩⟩
  case h_2 => exact h

theorem turn_broker (p : Post α) : p.turn.broker = p.broker := by
  by_cases hrun : p.isRunning = true
  · cases hin : p.queue p.broker.inMailBox with
    | nil => rw [Post.turn, if_pos hrun, hin]
    | cons m ms =>
      cases m with
      | none => rw [Post.turn_none hrun hin]; rfl
      | some r =>
        rw [Post.turn_some hrun hin]
        exact (Post.sameFrame_route r _).broker
  · rw [Post.turn_of_stopped (by simpa using hrun)]

theorem dispatch_broker (callbacks : Callbacks α) (sid : SubscriberID) (x : Exchange α)
    (m : Option MessageRef) : (x.dispatch callbacks sid m).post.broker = x.post.broker := by
  cases m with
  | none => rfl
  | some r =>
    simp only [Exchange.dispatch]
    split
    · rfl
    · split
      · rfl
      · split <;> rfl

theorem step_broker (callbacks : Callbacks α) (x : Exchange α) (a : ThreadAction α) :
    (x.step callbacks a).post.broker = x.post.broker := by
  cases a with
  | send m => rfl
  | broker => exact turn_broker x.post
  | listen sid =>
    rw [step, Exchange.listen]
    split
    · split
      · rfl
      · rw [dispatch_broker]
    · rfl

/-- **One subscriber.**  Its handler gets the payload. -/
theorem arrived_of_length_le_one {b : BVBroker}
    (hlen : (b.getSubscriberIDVectorFromEventType e).length ≤ 1) (callbacks : Callbacks α)
    (as : List (ThreadAction α)) : (Runs.run (step callbacks) (start b) as).Arrived e := by
  have hinv : (Runs.run (step callbacks) (start b) as).Intact e ∧
      (Runs.run (step callbacks) (start b) as).post.broker = b := by
    refine Runs.run_invariant_of_forall
      (I := fun x : Exchange α => x.Intact e ∧ x.post.broker = b) ?_ ⟨intact_start b e, rfl⟩ as
    rintro x a ⟨h, hb⟩
    refine ⟨?_, (step_broker callbacks x a).trans hb⟩
    cases a with
    | send m => exact h.send m
    | broker => exact h.turn (hb ▸ hlen)
    | listen sid => exact h.listen callbacks sid
  exact hinv.1.arrived

/-! ### Two subscribers -/

/-- What a turn of `ListenToMail` does on a message it has a callback for. -/
structure Heard (sid : SubscriberID) (q : QueueRef) (r : MessageRef) (x x' : Exchange α) :
    Prop where
  calls : x'.calls = x.calls ++ [⟨sid, r, (x.post.message r).dataP⟩]
  moved : (x'.post.message r).dataP = none
  broker : x'.post.broker = x.post.broker
  sent : x'.sent = x.sent
  queue : ∀ q', q' ≠ q → x'.post.queue q' = x.post.queue q'
  listening : ∀ j, j ≠ sid → x'.listening j = x.listening j

theorem heard (callbacks : Callbacks α) {sid : SubscriberID} {q : QueueRef} {r : MessageRef}
    {rest : List (Option MessageRef)} {callback : Option α → BVStatus}
    (hlisten : x.listening sid = true) (hq : x.post.broker.getOutMailBoxAtSubId sid = some q)
    (hin : x.post.queue q = some r :: rest)
    (hcallback : callbacks sid (x.post.message r).eventT = some callback) :
    Heard sid q r x (x.listen callbacks sid) := by
  have hcall : Heard sid q r x ({ x with post := { x.post with
      queue := Function.update x.post.queue q rest } }.call sid r) :=
    ⟨rfl, by simp [Exchange.call], rfl, rfl, fun q' hq' => Function.update_of_ne hq' _ _,
      fun _ _ => rfl⟩
  have hstop : Heard sid q r x (({ x with post := { x.post with
      queue := Function.update x.post.queue q rest } }.call sid r).stop sid) :=
    ⟨hcall.calls, hcall.moved, hcall.broker, hcall.sent, hcall.queue,
      fun j hj => Function.update_of_ne hj _ _⟩
  simp only [Exchange.listen, hlisten, hq, hin, Exchange.dispatch, hcallback]
  split
  · exact hstop
  · split
    · exact hstop
    · exact hcall

def served (b : BVBroker) (m : BVMessage α) : Exchange α :=
  { (start b).send m with post := ((start b).send m).post.turn }

theorem turned_served {b : BVBroker} (hkept : b.WellKept) (haddressed : b.Addressed)
    (m : BVMessage α) : Post.Turned 0 [] ((start b).send m).post (served b m).post :=
  Post.turned ⟨hkept, haddressed⟩ rfl (Function.update_self _ _ _)

theorem served_queue {b : BVBroker} (hkept : b.WellKept) (haddressed : b.Addressed)
    {m : BVMessage α} {sid : SubscriberID} {q : QueueRef}
    (hsid : sid ∈ b.getSubscriberIDVectorFromEventType m.eventT)
    (hq : b.getOutMailBoxAtSubId sid = some q) : (served b m).post.queue q = [some 0] := by
  have ht := turned_served hkept haddressed m
  have hne : q ≠ b.inMailBox := fun he => Nat.lt_irrefl _ (haddressed.after sid _ (he ▸ hq))
  have hempty : ((start b).send m).post.queue q = [] := Function.update_of_ne hne _ _
  have hsub : ((start b).send m).post.subscribedTo sid 0 = true := decide_eq_true hsid
  rw [ht.mailbox sid q hq, hempty, List.filter_cons_of_pos hsub]
  rfl

/-- **Two subscribers.**  The second one that is served gets a null pointer. -/
theorem exists_not_arrived [Inhabited α] {b : BVBroker} (hkept : b.WellKept)
    (haddressed : b.Addressed) (hlen : 1 < (b.getSubscriberIDVectorFromEventType e).length) :
    ∃ callbacks as, ¬ (Runs.run (step callbacks) (start b : Exchange α) as).Arrived e := by
  -- two ids with a mailbox each
  obtain ⟨i, j, rest, hvec⟩ : ∃ i j rest, b.subs e = some (i :: j :: rest) := by
    rw [BVBroker.getSubscriberIDVectorFromEventType] at hlen
    cases hsubs : b.subs e with
    | none => simp [hsubs] at hlen
    | some ids =>
      rw [hsubs, Option.getD_some] at hlen
      obtain ⟨i, rest, rfl⟩ := List.exists_cons_of_length_pos (Nat.zero_lt_of_lt hlen)
      rw [List.length_cons] at hlen
      obtain ⟨j, rest, rfl⟩ := List.exists_cons_of_length_pos (Nat.lt_of_succ_lt_succ hlen)
      exact ⟨i, j, rest, rfl⟩
  obtain ⟨-, hnodup, hlive⟩ := hkept e _ hvec
  have hij : j ≠ i := by
    rintro rfl
    exact (List.nodup_cons.mp hnodup).1 List.mem_cons_self
  obtain ⟨q, hq⟩ := Option.ne_none_iff_exists'.mp (hlive i (by simp))
  obtain ⟨q', hq'⟩ := Option.ne_none_iff_exists'.mp (hlive j (by simp))
  have hqq' : q' ≠ q := fun he => hij (haddressed.apart j i q (he ▸ hq') hq)
  have hsub : ∀ k ∈ i :: j :: rest, k ∈ b.getSubscriberIDVectorFromEventType e := by
    rw [BVBroker.getSubscriberIDVectorFromEventType, hvec]
    exact fun k hk => hk
  let callbacks : Callbacks α := fun _ _ => some fun _ => .ok
  have hb : (served b (⟨e, some default⟩ : BVMessage α)).post.broker = b :=
    (turned_served hkept haddressed _).broker
  -- the first subscriber moves the payload out
  have hfirst := heard (x := served b ⟨e, some default⟩) callbacks rfl
    (by rw [hb]; exact hq) (served_queue hkept haddressed (hsub i (by simp)) hq) rfl
  have hsecond := heard (x := (served b ⟨e, some default⟩).listen callbacks i)
    callbacks (hfirst.listening j hij) (by rw [hfirst.broker, hb]; exact hq')
    ((hfirst.queue q' hqq').trans (served_queue hkept haddressed (hsub j (by simp)) hq')) rfl
  refine ⟨callbacks, [.send ⟨e, some default⟩, .broker, .listen i, .listen j], fun harrived => ?_⟩
  -- so the second one is called with none
  have hcall : (⟨j, 0, none⟩ : HandlerCall α) ∈
      (((served b ⟨e, some default⟩).listen callbacks i).listen callbacks j).calls := by
    rw [hsecond.calls, hfirst.moved]
    exact List.mem_append_right _ (List.mem_singleton_self _)
  have hsent : (((served b ⟨e, some default⟩).listen callbacks i).listen callbacks j).sent 0 =
      (⟨e, some default⟩ : BVMessage α) := by
    rw [hsecond.sent, hfirst.sent]
    rfl
  have hdata := harrived _ hcall (congrArg BVMessage.eventT hsent)
  cases hdata.trans (congrArg BVMessage.dataP hsent)

/-- **Payloads.**  Whatever the calls on the broker were: the handlers of an event get the payloads
that were sent, for all callbacks, all messages and all interleavings, exactly if the event has at
most one subscriber. -/
theorem payloads_arrive_iff (α : Type*) [Inhabited α] (inMailBox : QueueRef)
    (calls : List BrokerCall) (e : BVEventType) :
    let b := (Runs.run Registry.step (Registry.start inMailBox) calls).broker
    (∀ (callbacks : Callbacks α) (as : List (ThreadAction α)),
        (Runs.run (step callbacks) (start b) as).Arrived e) ↔
      (b.getSubscriberIDVectorFromEventType e).length ≤ 1 := by
  intro b
  constructor
  · intro hall
    by_contra hlen
    obtain ⟨hkept, haddressed⟩ := Registry.run_orderly inMailBox calls
    obtain ⟨callbacks, as, hnot⟩ :=
      exists_not_arrived (α := α) hkept haddressed (Nat.lt_of_not_le hlen)
    exact hnot (hall callbacks as)
  · exact fun hlen callbacks as => arrived_of_length_le_one hlen callbacks as

/-- Two components that are attached and subscribed to an event, and one message. -/
theorem second_subscriber_gets_null :
    let b := (Runs.run Registry.step (Registry.start 0) [.attach ⟨0, 0, 0⟩, .attach ⟨0, 0, 0⟩,
      .subscribe 0 .appPublishedService, .subscribe 1 .appPublishedService]).broker
    ¬ (Runs.run (step fun _ _ => some fun _ => .ok) (start b)
      [.send ⟨.appPublishedService, some 7⟩, .broker, .listen 0, .listen 1]).Arrived
        .appPublishedService := by
  unfold Arrived
  decide

end Exchange

end LocalChat
