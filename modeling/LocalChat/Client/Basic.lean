import LocalChat.App.Basic
import LocalChat.Lib.Runs
import LocalChat.Manager.Basic

/-!
# The console client

`BVApp_ConsoleClient` with its connection manager: the handlers of the events the discovery service
and the sessions put into its mailbox.  The handlers of session events are those of `App`; the
others keep the list of services and the known nodes, and dial or remove sessions.

A handler either returns a status or is left with an exception; `none` stands for the exception.
-/

namespace LocalChat

open Octets

structure BVServiceBrowseInstance where
  serviceName : Bytes
  regType : Bytes
  replyDomain : Bytes
  deriving DecidableEq, Repr

inductive MailEvent
  | publishedService (services : List BVServiceBrowseInstance)
  /-- `attempts` are the outcomes of the five calls of `resolver::resolve` -/
  | serviceResolved (serviceName : Bytes) (attempts : Fin 5 → Bool)
  | deregisteredService (services : List BVServiceBrowseInstance)
  /-- an event of a session; `lost` if `current_path` fails -/
  | fromSession (e : AppEvent) (lost : Bool) (flt : Faults)
  | terminateAll

structure Client where
  app : App
  manager : BVTCPConnectionManager
  serviceV : List BVServiceBrowseInstance
  /-- the services sent to Discovery to be resolved -/
  requested : List BVServiceBrowseInstance

abbrev errorName : Bytes := [69, 82, 82, 79, 82]

/-- The service name of the node `ResolveServiceToEndpoint` returns. -/
def resolveServiceToEndpoint (serviceName : Bytes) (attempts : Fin 5 → Bool) : Bytes :=
  if ∃ i, attempts i = true then serviceName else errorName

namespace Client

def start (hostname rootdir : Bytes) (files : Files) : Client where
  app := .start rootdir files
  manager := (BVTCPConnectionManager.construct hostname).accept
  serviceV := []
  requested := []

/-! ### Services -/

/-- One turn of the loop of `HandlePublishedServices`. -/
def publish (c : Client) (s : BVServiceBrowseInstance) : Client :=
  if s ∈ c.serviceV then c
  else if s.serviceName = c.manager.thisMachine then c
  else { c with serviceV := c.serviceV ++ [s], requested := c.requested ++ [s] }

def handlePublishedServices (services : List BVServiceBrowseInstance) (c : Client) :
    BVStatus × Client :=
  (.ok, services.foldl publish c)

theorem publish_manager (c : Client) (s : BVServiceBrowseInstance) :
    (c.publish s).manager = c.manager := by
  rw [publish]
  split
  · rfl
  · split <;> rfl

theorem foldl_publish_manager (services : List BVServiceBrowseInstance) (c : Client) :
    (services.foldl publish c).manager = c.manager := by
  induction services generalizing c with
  | nil => rfl
  | cons s services ih => rw [List.foldl_cons, ih, publish_manager]

def addNode (serviceName : Bytes) (m : BVTCPConnectionManager) : BVTCPConnectionManager :=
  { m with nodesM := Function.update m.nodesM serviceName true }

def handleResolvedServices (serviceName : Bytes) (attempts : Fin 5 → Bool) (c : Client) :
    BVStatus × Client :=
  if resolveServiceToEndpoint serviceName attempts = errorName then (.fatalError, c)
  else if c.manager.nodesM serviceName then (.ok, c)
  else
    (.ok, { c with manager := (addNode serviceName c.manager).initiateSessionWithNode serviceName })

def eraseNode (serviceName : Bytes) (m : BVTCPConnectionManager) : BVTCPConnectionManager :=
  { m with nodesM := Function.update m.nodesM serviceName false }

/-- One turn of the loop of `HandleServiceDeregistration`; the status of `RemoveSession` is not
looked at. -/
def deregister (c : Client) (s : BVServiceBrowseInstance) : Client :=
  let kept := c.serviceV.filter fun t => t.serviceName ≠ s.serviceName
  if kept.length < c.serviceV.length then
    { c with
      serviceV := kept
      manager := ((eraseNode s.serviceName c.manager).removeSession s.serviceName).2 }
  else { c with serviceV := kept }

def handleServiceDeregistration (services : List BVServiceBrowseInstance) (c : Client) :
    BVStatus × Client :=
  (.ok, services.foldl deregister c)

/-! ### The mailbox -/

/-- The handlers of file events ask for the current directory; two of them only if they know the
transfer. -/
def asksForPath (a : App) : AppEvent → Bool
  | .fileTransferBegin _ => true
  | .fileTransferChunkSent d => (a.fileTransferData d.correlationKey).isSome
  | .fileTransferEnd d => (a.fileTransferData d.correlationKey).isSome
  | _ => false

def handle (e : MailEvent) (c : Client) : Option BVStatus × Client :=
  match e with
  | .publishedService services => (c.handlePublishedServices services).map some id
  | .serviceResolved serviceName attempts =>
    (c.handleResolvedServices serviceName attempts).map some id
  | .deregisteredService services => (c.handleServiceDeregistration services).map some id
  | .fromSession e lost flt =>
    if lost && asksForPath c.app e then (none, c)
    else (some (c.app.handle flt e).1, { c with app := (c.app.handle flt e).2 })
  -- `OnShutdown`
  | .terminateAll => (some .ok, c)

inductive MailboxThread
  /-- in `wait_and_pop` -/
  | waiting
  /-- it has left its loop -/
  | returned
  /-- it has ended with an exception -/
  | threw
  deriving DecidableEq, Repr

def listenToMail : List MailEvent → Client → MailboxThread × Client
  | [], c => (.waiting, c)
  | e :: es, c =>
    match c.handle e with
    | (some .ok, c) =>
      match e with
      | .terminateAll => (.returned, c)
      | _ => c.listenToMail es
    | (_, c) => (.threw, c)

def step (c : Client) (e : MailEvent) : Client := (c.handle e).2

end Client

end LocalChat
