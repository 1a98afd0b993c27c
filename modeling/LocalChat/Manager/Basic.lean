import LocalChat.Wire.Types
import Mathlib.Data.List.AList
import Mathlib.Logic.Function.Basic

/-!
# The connection manager

`BVTCPConnectionManager` keeps its sessions by id in `sessions_m` and the ids by service name in
`service_sessionid_m`.  The sessions themselves are shared: a session that has not said its name
yet, or that was taken out of the maps, still reads from its socket.  So the maps hold references
here, and `data` is what the references point to.

Ids are 16 bits wide.  Every socket takes the next one, when `Accept` starts to wait for a peer and
when `InitiateSessionWithNode` starts to connect, so that the reference `r` is also the number of
ids that were handed out before its own.
-/

namespace LocalChat

/-- A `shared_ptr` to a session. -/
abbrev SessionRef := Nat

inductive Connection
  /-- `async_accept` waits for a peer -/
  | accepting
  /-- `async_connect` is under way -/
  | connecting
  /-- connected, with a `BVTCPSession` that reads frames -/
  | live
  /-- released, since the connect failed or came second -/
  | dropped
  deriving DecidableEq, Repr

/-- What the manager reads and writes of a session and its `BVTCPNodeConnectionSessionData`. -/
structure SessionData where
  sessionID : UInt16
  /-- `nodeData.serviceName`; empty until an accepted peer has said it -/
  serviceName : Bytes
  state : BVSessionState
  connection : Connection
  deriving DecidableEq, Repr

structure BVTCPConnectionManager where
  /-- `thisMachineHostData.serviceName` -/
  thisMachine : Bytes
  currentSessionID : UInt16
  /-- `sessions_m` -/
  sessions : AList fun _ : UInt16 => SessionRef
  /-- `service_sessionid_m` -/
  serviceSessionid : Bytes → Option UInt16
  /-- the keys of `nodesM` -/
  nodesM : Bytes → Bool
  data : SessionRef → SessionData
  created : Nat

namespace BVTCPConnectionManager

/-! ### Operations -/

def construct (thisMachine : Bytes) : BVTCPConnectionManager where
  thisMachine := thisMachine
  currentSessionID := 0
  sessions := ∅
  serviceSessionid := fun _ => none
  nodesM := fun _ => false
  data := fun _ => ⟨0, [], .unprepared, .dropped⟩
  created := 0

def nameOf (m : BVTCPConnectionManager) (r : SessionRef) : Bytes := (m.data r).serviceName

def isSessionAlreadyPresent (serviceName : Bytes) (m : BVTCPConnectionManager) : Bool :=
  m.sessions.entries.any fun e => m.nameOf e.2 = serviceName

/-- The next id goes to a new socket. -/
def handOut (serviceName : Bytes) (connection : Connection) (m : BVTCPConnectionManager) :
    BVTCPConnectionManager :=
  { m with
    data := Function.update m.data m.created
      ⟨m.currentSessionID, serviceName, .unprepared, connection⟩
    created := m.created + 1
    currentSessionID := m.currentSessionID + 1 }

/-- The check `InitiateSessionWithNode` makes before it dials: the smaller name dials, and only a
peer without a session is dialled. -/
def mayDial (serviceName : Bytes) (m : BVTCPConnectionManager) : Bool :=
  m.thisMachine < serviceName && !m.isSessionAlreadyPresent serviceName

/-- The rest of `InitiateSessionWithNode`. -/
def dial (serviceName : Bytes) (m : BVTCPConnectionManager) : BVTCPConnectionManager :=
  m.handOut serviceName .connecting

/-- `InitiateSessionWithNode`.  Its status is always OK: the mailboxes of all node ids are null, so
`StartCommunicationSessionWithNode` does not refuse. -/
def initiateSessionWithNode (serviceName : Bytes) (m : BVTCPConnectionManager) :
    BVTCPConnectionManager :=
  if m.mayDial serviceName then m.dial serviceName else m

/-- `Accept`: the socket for the next peer. -/
def accept (m : BVTCPConnectionManager) : BVTCPConnectionManager := m.handOut [] .accepting

/-- A peer has connected.  It is asked for its name, and the next socket waits. -/
def acceptHandler (r : SessionRef) (m : BVTCPConnectionManager) : BVTCPConnectionManager :=
  { m with
    data := Function.update m.data r
      { m.data r with state := .unprepared, connection := .live } }.accept

def drop (r : SessionRef) (m : BVTCPConnectionManager) : BVTCPConnectionManager :=
  { m with data := Function.update m.data r { m.data r with connection := .dropped } }

/-- The locked part of `ConnectHandler`. -/
def enterConnected (r : SessionRef) (m : BVTCPConnectionManager) : BVTCPConnectionManager :=
  { m with
    data := Function.update m.data r { m.data r with state := .unprepared, connection := .live }
    sessions := m.sessions.insert (m.data r).sessionID r
    serviceSessionid :=
      Function.update m.serviceSessionid (m.nameOf r) (some (m.data r).sessionID) }

def connectHandler (error : Bool) (r : SessionRef) (m : BVTCPConnectionManager) :
    BVTCPConnectionManager :=
  if error then m.drop r
  else if m.isSessionAlreadyPresent (m.nameOf r) then m.drop r
  else m.enterConnected r

def setState (state : BVSessionState) (r : SessionRef) (m : BVTCPConnectionManager) :
    BVTCPConnectionManager :=
  { m with data := Function.update m.data r { m.data r with state := state } }

/-- The locked part of `HandleSessionIdentification`. -/
def enterIdentified (serviceName : Bytes) (caller : SessionRef) (m : BVTCPConnectionManager) :
    BVTCPConnectionManager :=
  { m with
    data := Function.update m.data caller { m.data caller with serviceName := serviceName }
    sessions := m.sessions.insert (m.data caller).sessionID caller
    serviceSessionid :=
      Function.update m.serviceSessionid serviceName (some (m.data caller).sessionID)
    -- `AddNodeToNodesM`
    nodesM := Function.update m.nodesM serviceName true }

def handleSessionIdentification (serviceName : Bytes) (caller : SessionRef)
    (m : BVTCPConnectionManager) : BVTCPConnectionManager :=
  if m.isSessionAlreadyPresent serviceName then m.setState .closed caller
  else (m.setState .established caller).enterIdentified serviceName caller

def removeSession (serviceName : Bytes) (m : BVTCPConnectionManager) :
    BVStatus × BVTCPConnectionManager :=
  match m.serviceSessionid serviceName with
  | none => (.nok, m)
  | some id =>
    let erased := { m with serviceSessionid := Function.update m.serviceSessionid serviceName none }
    -- a stale mapping is only taken out
    if id ∈ m.sessions then (.ok, { erased with sessions := m.sessions.erase id })
    else (.nok, erased)

def getSessionIDFromServiceName (serviceName : Bytes) (m : BVTCPConnectionManager) :
    Option UInt16 :=
  m.serviceSessionid serviceName

/-- The session `RespondToFileOffer` writes its verdict to. -/
def respondToFileOffer (serviceName : Bytes) (m : BVTCPConnectionManager) : Option SessionRef :=
  (m.getSessionIDFromServiceName serviceName).bind m.sessions.lookup

/-! ### Lookups -/

variable {m : BVTCPConnectionManager}

theorem mem_entries_iff {e : (_ : UInt16) × SessionRef} :
    e ∈ m.sessions.entries ↔ m.sessions.lookup e.1 = some e.2 :=
  AList.mem_lookup_iff.symm

theorem isSessionAlreadyPresent_iff {serviceName : Bytes} :
    m.isSessionAlreadyPresent serviceName = true ↔
      ∃ i r, m.sessions.lookup i = some r ∧ m.nameOf r = serviceName := by
  simp only [isSessionAlreadyPresent, List.any_eq_true, decide_eq_true_eq, mem_entries_iff]
  constructor
  · rintro ⟨⟨i, r⟩, hmem, hname⟩
    exact ⟨i, r, hmem, hname⟩
  · rintro ⟨i, r, hmem, hname⟩
    exact ⟨⟨i, r⟩, hmem, hname⟩

theorem not_present_iff {serviceName : Bytes} :
    m.isSessionAlreadyPresent serviceName = false ↔
      ∀ i r, m.sessions.lookup i = some r → m.nameOf r ≠ serviceName := by
  rw [← Bool.not_eq_true, isSessionAlreadyPresent_iff]
  simp only [not_exists, not_and, ne_eq]

theorem removeSession_cases (serviceName : Bytes) (m : BVTCPConnectionManager) :
    (m.serviceSessionid serviceName = none ∧ (m.removeSession serviceName).2 = m) ∨
      ∃ id, m.serviceSessionid serviceName = some id ∧
        (m.removeSession serviceName).2 = { m with
          serviceSessionid := Function.update m.serviceSessionid serviceName none
          sessions := m.sessions.erase id } := by
  cases hid : m.serviceSessionid serviceName with
  | none => exact .inl ⟨rfl, by rw [removeSession, hid]⟩
  | some id =>
    refine .inr ⟨id, rfl, ?_⟩
    rw [removeSession, hid]
    by_cases hmem : id ∈ m.sessions
    · simp [hmem]
    · have herase : m.sessions.erase id = m.sessions := by
        refine AList.ext ?_
        exact List.kerase_of_notMem_keys hmem
      simp [hmem, herase]

/-- The host `a` with one session, to the peer `b`. -/
def hostWithPeer : BVTCPConnectionManager :=
  (((construct [97]).accept).acceptHandler 0).handleSessionIdentification [98] 0

end BVTCPConnectionManager

end LocalChat
