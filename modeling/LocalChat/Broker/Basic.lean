import LocalChat.Wire.Types
import LocalChat.Lib.Runs
import Mathlib.Logic.Function.Basic

/-!
# The message broker

`BVBroker` gives every attached component an id and a mailbox of its own and keeps, for each event,
the ids that are subscribed to it.  A mailbox queue is known by its address, so that two components
have the same mailbox exactly when their addresses agree.

`mailbox_m` has three kinds of slots: an id that is no key of the map (only 255, and only until
`operator[]` makes it one), an id with a null pointer, and an id with a queue.  The first two are
the same to every function; `getOutMailBoxAtSubId` is what they all look at.

A `Registry` is a broker with the history of what its calls have done.
-/

namespace LocalChat

inductive BVEventType
  | discoveryRequestStart
  | discoveryRequestPause
  | discoveryRequestResume
  | discoveryRequestShutdown
  | discoveryRequestRestart
  | discoveryRequestResolve
  | appPublishedService
  | appDeregisteredService
  | appDiscoveryResumed
  | appDiscoveryPaused
  | appDiscoveryServiceResolved
  | serviceRequestStart
  | serviceRequestShutdown
  | terminateAll
  | redundantAppServiceDeregistered
  | appMessageIncoming
  | appFileOffer
  | appFileTransferBegin
  | appFileTransferChunkSent
  | appFileTransferEnd
  | appFileTransferCancelled
  | testEcho
  | testHeartbeat
  | testHeartbeatAck
  | testHeartbeatNack
  | testRequestStart
  | testRequestPause
  | testRequestResume
  | testRequestShutdown
  | testRequestRestart
  | testAppAnnounceServices
  deriving DecidableEq, Repr

abbrev SubscriberID := UInt8

/-- The address of a `threadsafe_queue<BVMessage>`. -/
abbrev QueueRef := Nat

/-- What a `BVComponent` knows of its broker. -/
structure BVComponent where
  id : SubscriberID
  inMailBox : QueueRef
  outMailBox : QueueRef
  deriving DecidableEq, Repr

structure BVBroker where
  /-- `mailbox_m`; `some none` is a null pointer -/
  mailbox : SubscriberID → Option (Option QueueRef)
  /-- `subs_m` -/
  subs : BVEventType → Option (List SubscriberID)
  inMailBox : QueueRef
  numOfSubscribersRegistered : UInt8
  currentSubscriberId : SubscriberID
  /-- the address of the next queue that is made -/
  fresh : QueueRef

namespace BVBroker

/-- The constructor makes the ids 0 to 254 keys of `mailbox_m`. -/
def construct (inMailBox : QueueRef) : BVBroker where
  mailbox i := if i.toNat < 255 then some none else none
  subs _ := none
  inMailBox := inMailBox
  numOfSubscribersRegistered := 0
  currentSubscriberId := 0
  fresh := inMailBox + 1

def getOutMailBoxAtSubId (b : BVBroker) (sid : SubscriberID) : Option QueueRef :=
  (b.mailbox sid).join

def getSubscriberIDVectorFromEventType (b : BVBroker) (et : BVEventType) : List SubscriberID :=
  (b.subs et).getD []

/-! ### Ids -/

/-- `mailbox_m[sid]` makes `sid` a key if it is none. -/
def touch (sid : SubscriberID) (b : BVBroker) : BVBroker :=
  { b with mailbox := Function.update b.mailbox sid (some (b.getOutMailBoxAtSubId sid)) }

/-- The id the loop of `CycleCurrentSubscriberId` looks at in its round `i`. -/
def nextId (start : SubscriberID) (i : Nat) : SubscriberID :=
  UInt8.ofNat ((start.toNat + 1 + i) % 256)

/-- The loop of `CycleCurrentSubscriberId`, over its rounds. -/
def cycle (start : SubscriberID) : List Nat → BVBroker → Bool × BVBroker
  | [], b => (false, b)
  | i :: rounds, b =>
    let b := { b with currentSubscriberId := nextId start i }.touch (nextId start i)
    if b.getOutMailBoxAtSubId (nextId start i) = none then (true, b) else b.cycle start rounds

def cycleCurrentSubscriberId (b : BVBroker) : Bool × BVBroker :=
  b.cycle b.currentSubscriberId (List.range 256)

/-! ### Attach and detach -/

/-- The second half of `Attach`, from where `currentSubscriberId` is free. -/
def enter (component : BVComponent) (b : BVBroker) : BVStatus × BVComponent × BVBroker :=
  let component := { component with
    id := b.currentSubscriberId
    outMailBox := b.inMailBox
    inMailBox := b.fresh }
  let b := { b with
    mailbox := Function.update b.mailbox b.currentSubscriberId (some (some b.fresh))
    fresh := b.fresh + 1
    numOfSubscribersRegistered := b.numOfSubscribersRegistered + 1 }
  (.ok, component, b.cycleCurrentSubscriberId.2)

def attach (component : BVComponent) (b : BVBroker) : BVStatus × BVComponent × BVBroker :=
  -- the counter has eight bits: the source compares it with `UINT8_MAX + 1u`
  if 256 ≤ b.numOfSubscribersRegistered.toNat then (.maxComponents, component, b)
  else if b.getOutMailBoxAtSubId b.currentSubscriberId ≠ none then
    match b.cycleCurrentSubscriberId with
    | (true, b) => b.enter component
    | (false, b) => (.maxComponents, component, b)
  else b.enter component

/-- `vec.erase(std::remove(...))`, after which an empty vector leaves `subs_m`. -/
def withoutSubscriber (sid : SubscriberID) (vec : List SubscriberID) : Option (List SubscriberID) :=
  let vec := vec.filter (· ≠ sid)
  if vec = [] then none else some vec

def detach (sid : SubscriberID) (b : BVBroker) : BVStatus × BVBroker :=
  if b.getOutMailBoxAtSubId sid = none then (.fatalError, b)
  else
    (.ok, { b with
      mailbox := Function.update b.mailbox sid (some none)
      numOfSubscribersRegistered := b.numOfSubscribersRegistered - 1
      subs := fun e => (b.subs e).bind (withoutSubscriber sid) })

/-! ### Subscriptions -/

/-- The body both forms of `Subscribe` share. -/
def addSubscription (sid : SubscriberID) (b : BVBroker) (event : BVEventType) : BVBroker :=
  let vec := b.getSubscriberIDVectorFromEventType event
  { b with subs := Function.update b.subs event (some (if sid ∈ vec then vec else vec ++ [sid])) }

/-- The body both forms of `Unsubscribe` share. -/
def removeSubscription (sid : SubscriberID) (b : BVBroker) (event : BVEventType) : BVBroker :=
  match b.subs event with
  | none => b
  | some vec => { b with subs := Function.update b.subs event (withoutSubscriber sid vec) }

def subscribe (sid : SubscriberID) (event : BVEventType) (b : BVBroker) : BVStatus × BVBroker :=
  if b.getOutMailBoxAtSubId sid = none then (.fatalError, b)
  else (.ok, b.addSubscription sid event)

def subscribeAll (sid : SubscriberID) (events : List BVEventType) (b : BVBroker) :
    BVStatus × BVBroker :=
  if b.getOutMailBoxAtSubId sid = none then (.fatalError, b)
  else (.ok, events.foldl (addSubscription sid) b)

def unsubscribe (sid : SubscriberID) (event : BVEventType) (b : BVBroker) : BVStatus × BVBroker :=
  (.ok, b.removeSubscription sid event)

def unsubscribeAll (sid : SubscriberID) (events : List BVEventType) (b : BVBroker) :
    BVStatus × BVBroker :=
  (.ok, events.foldl (removeSubscription sid) b)

end BVBroker

/-! ### Calls and their history -/

inductive BrokerCall
  | attach (component : BVComponent)
  | detach (sid : SubscriberID)
  | subscribe (sid : SubscriberID) (event : BVEventType)
  | subscribeAll (sid : SubscriberID) (events : List BVEventType)
  | unsubscribe (sid : SubscriberID) (event : BVEventType)
  | unsubscribeAll (sid : SubscriberID) (events : List BVEventType)

/-- A call that returned `BVSTATUS_OK`; a vector of events is as many entries. -/
inductive Entry
  | attached (sid : SubscriberID)
  | detached (sid : SubscriberID)
  | subscribed (sid : SubscriberID) (event : BVEventType)
  | unsubscribed (sid : SubscriberID) (event : BVEventType)
  deriving DecidableEq

structure Registry where
  broker : BVBroker
  history : List Entry

namespace Registry

def start (inMailBox : QueueRef) : Registry := ⟨.construct inMailBox, []⟩

/-- The entries are written down if the call returned `BVSTATUS_OK`. -/
def record (r : Registry) (result : BVStatus × BVBroker) (entries : List Entry) : Registry :=
  ⟨result.2, if result.1 = .ok then r.history ++ entries else r.history⟩

@[simp] theorem record_broker (r : Registry) (result : BVStatus × BVBroker)
    (entries : List Entry) : (r.record result entries).broker = result.2 := rfl

theorem record_history_of_ok (r : Registry) {result : BVStatus × BVBroker} (h : result.1 = .ok)
    (entries : List Entry) : (r.record result entries).history = r.history ++ entries := by
  rw [record, if_pos h]

theorem record_history_of_ne (r : Registry) {result : BVStatus × BVBroker} (h : result.1 ≠ .ok)
    (entries : List Entry) : (r.record result entries).history = r.history := by
  rw [record, if_neg h]

def step (r : Registry) : BrokerCall → Registry
  | .attach component =>
    let result := r.broker.attach component
    r.record (result.1, result.2.2) [.attached result.2.1.id]
  | .detach sid => r.record (r.broker.detach sid) [.detached sid]
  | .subscribe sid event => r.record (r.broker.subscribe sid event) [.subscribed sid event]
  | .subscribeAll sid events =>
    r.record (r.broker.subscribeAll sid events) (events.map (.subscribed sid))
  | .unsubscribe sid event => r.record (r.broker.unsubscribe sid event) [.unsubscribed sid event]
  | .unsubscribeAll sid events =>
    r.record (r.broker.unsubscribeAll sid events) (events.map (.unsubscribed sid))

end Registry

end LocalChat
