import LocalChat.Lib.Runs
import LocalChat.Manager.Basic

/-!
# One session per peer

Two threads use the manager.  The mailbox thread dials and removes; the io thread runs the handlers
of `async_connect` and `async_accept` and the session callbacks, one at a time.  Each operation
holds the lock for its check and again for its insertion, so the other thread can come in between: a
`Running` manager says at which of these points each thread stands.

`one_session_per_peer`: no two entries of `sessions_m` carry the same service name, in any run.
Only the io thread inserts and renames, hence a name that was absent at its check is absent at its
insertion, whatever the mailbox thread removes meanwhile.

The log keeps what the two maps were used for: the ids that were handed out, and the ids that were
looked up by name.
-/

namespace LocalChat

inductive IoThread
  | idle
  /-- in `ConnectHandler`, between the check and the insertion -/
  | connected (r : SessionRef)
  /-- in `HandleSessionIdentification`, between the check and the insertion -/
  | identified (serviceName : Bytes) (r : SessionRef)
  /-- with the id of a service name, about to use it -/
  | sending (serviceName : Bytes) (id : UInt16)
  deriving DecidableEq, Repr

inductive ManagerEvent
  /-- a socket got an id; `listed` if `sessions_m` had a session with it -/
  | handedOut (id : UInt16) (listed : Bool)
  /-- an id found under a name was used; `peer` is the name of the session it led to -/
  | used (serviceName : Bytes) (id : UInt16) (peer : Option Bytes)
  deriving DecidableEq, Repr

structure Running where
  manager : BVTCPConnectionManager
  io : IoThread
  /-- the mailbox thread is in `InitiateSessionWithNode`, past the check -/
  dialling : Option Bytes
  log : List ManagerEvent

inductive ManagerAction
  | initiateSessionWithNode (serviceName : Bytes)
  /-- the mailbox thread goes on in `InitiateSessionWithNode` -/
  | dial
  | connectHandler (r : SessionRef) (error : Bool)
  | acceptHandler (r : SessionRef)
  /-- a HELLOBACK frame with this name is read by a session -/
  | handleSessionIdentification (serviceName : Bytes) (r : SessionRef)
  /-- the io thread goes on to the insertion -/
  | insert
  | confirmEstablished (r : SessionRef)
  | removeSession (serviceName : Bytes)
  | getSessionIDFromServiceName (serviceName : Bytes)
  /-- `SendDataToNode` or `InitiateFileTransferWithSession` with the id found -/
  | send
  deriving DecidableEq, Repr

namespace BVTCPConnectionManager

/-- A session that waits for handshake frames. -/
def Unprepared (m : BVTCPConnectionManager) (r : SessionRef) : Prop :=
  (m.data r).connection = .live ∧ (m.data r).state = .unprepared

instance (m : BVTCPConnectionManager) : DecidablePred m.Unprepared := fun r =>
  inferInstanceAs (Decidable ((m.data r).connection = .live ∧ (m.data r).state = .unprepared))

def nextId (m : BVTCPConnectionManager) : ManagerEvent :=
  .handedOut m.currentSessionID (decide (m.currentSessionID ∈ m.sessions))

def peerOf (m : BVTCPConnectionManager) (id : UInt16) : Option Bytes :=
  (m.sessions.lookup id).map m.nameOf

end BVTCPConnectionManager

namespace Running

def start (thisMachine : Bytes) : Running where
  manager := (BVTCPConnectionManager.construct thisMachine).accept
  io := .idle
  dialling := none
  log := [(BVTCPConnectionManager.construct thisMachine).nextId]

/-- The io thread in `ConnectHandler`, up to the insertion. -/
def connectHandler (r : SessionRef) (error : Bool) (x : Running) : Running :=
  if (x.manager.data r).connection ≠ .connecting then x
  else if error || x.manager.isSessionAlreadyPresent (x.manager.nameOf r) then
    { x with manager := x.manager.drop r }
  else { x with io := .connected r }

/-- The io thread in `HandleSessionIdentification`, up to the insertion. -/
def handleSessionIdentification (serviceName : Bytes) (r : SessionRef) (x : Running) : Running :=
  if ¬ x.manager.Unprepared r then x
  else if x.manager.isSessionAlreadyPresent serviceName then
    { x with manager := x.manager.setState .closed r }
  else { x with manager := x.manager.setState .established r, io := .identified serviceName r }

def acceptHandler (r : SessionRef) (x : Running) : Running :=
  if (x.manager.data r).connection ≠ .accepting then x
  else { x with manager := x.manager.acceptHandler r, log := x.log ++ [x.manager.nextId] }

def confirmEstablished (r : SessionRef) (x : Running) : Running :=
  if x.manager.Unprepared r then { x with manager := x.manager.setState .established r } else x

def getSessionIDFromServiceName (serviceName : Bytes) (x : Running) : Running :=
  match x.manager.getSessionIDFromServiceName serviceName with
  | none => x
  | some id => { x with io := .sending serviceName id }

def takeUp (x : Running) (handler : Running → Running) : Running :=
  if x.io = .idle then handler x else x

def insert (x : Running) : Running :=
  match x.io with
  | .connected r => { x with manager := x.manager.enterConnected r, io := .idle }
  | .identified serviceName r =>
    { x with manager := x.manager.enterIdentified serviceName r, io := .idle }
  | _ => x

def send (x : Running) : Running :=
  match x.io with
  | .sending serviceName id =>
    { x with io := .idle, log := x.log ++ [.used serviceName id (x.manager.peerOf id)] }
  | _ => x

def initiateSessionWithNode (serviceName : Bytes) (x : Running) : Running :=
  if x.dialling = none ∧ x.manager.mayDial serviceName then
    { x with dialling := some serviceName }
  else x

def dial (x : Running) : Running :=
  match x.dialling with
  | none => x
  | some serviceName =>
    { x with
      manager := x.manager.dial serviceName
      dialling := none
      log := x.log ++ [x.manager.nextId] }

def step (x : Running) : ManagerAction → Running
  | .initiateSessionWithNode serviceName => x.initiateSessionWithNode serviceName
  | .dial => x.dial
  | .connectHandler r error => x.takeUp (connectHandler r error)
  | .acceptHandler r => x.takeUp (acceptHandler r)
  | .handleSessionIdentification serviceName r =>
    x.takeUp (handleSessionIdentification serviceName r)
  | .insert => x.insert
  | .confirmEstablished r => x.takeUp (confirmEstablished r)
  | .removeSession serviceName =>
    { x with manager := (x.manager.removeSession serviceName).2 }
  | .getSessionIDFromServiceName serviceName => x.takeUp (getSessionIDFromServiceName serviceName)
  | .send => x.send

end Running

/-! ### What a handler can do -/

namespace Running

theorem connectHandler_cases (r : SessionRef) (error : Bool) (x : Running) :
    x.connectHandler r error = x ∨
      (x.manager.data r).connection = .connecting ∧
        (x.connectHandler r error = { x with manager := x.manager.drop r } ∨
          x.manager.isSessionAlreadyPresent (x.manager.nameOf r) = false ∧
            x.connectHandler r error = { x with io := .connected r }) := by
  rw [connectHandler]
  split
  · exact .inl rfl
  next hc =>
  refine .inr ⟨not_not.mp hc, ?_⟩
  split
  · exact .inl rfl
  · next hpresent =>
    rw [Bool.not_eq_true, Bool.or_eq_false_iff] at hpresent
    exact .inr ⟨hpresent.2, rfl⟩

theorem handleSessionIdentification_cases (serviceName : Bytes) (r : SessionRef) (x : Running) :
    x.handleSessionIdentification serviceName r = x ∨
      x.manager.Unprepared r ∧
        (x.handleSessionIdentification serviceName r =
            { x with manager := x.manager.setState .closed r } ∨
          x.manager.isSessionAlreadyPresent serviceName = false ∧
            x.handleSessionIdentification serviceName r =
              { x with
                manager := x.manager.setState .established r
                io := .identified serviceName r }) := by
  rw [handleSessionIdentification]
  split
  · exact .inl rfl
  next hu =>
  refine .inr ⟨not_not.mp hu, ?_⟩
  split
  · exact .inl rfl
  · next hpresent => exact .inr ⟨Bool.not_eq_true _ ▸ hpresent, rfl⟩

theorem acceptHandler_cases (r : SessionRef) (x : Running) :
    x.acceptHandler r = x ∨
      (x.manager.data r).connection = .accepting ∧
        x.acceptHandler r =
          { x with manager := x.manager.acceptHandler r, log := x.log ++ [x.manager.nextId] } := by
  rw [acceptHandler]
  split
  · exact .inl rfl
  · next hc => exact .inr ⟨not_not.mp hc, rfl⟩

theorem confirmEstablished_cases (r : SessionRef) (x : Running) :
    x.confirmEstablished r = x ∨
      x.manager.Unprepared r ∧
        x.confirmEstablished r = { x with manager := x.manager.setState .established r } := by
  rw [confirmEstablished]
  split
  · next hu => exact .inr ⟨hu, rfl⟩
  · exact .inl rfl

end Running

/-! ### The maps -/

namespace BVTCPConnectionManager

/-- No two entries of `sessions_m` carry the same service name. -/
def OnePerPeer (m : BVTCPConnectionManager) : Prop :=
  ∀ i j r r', m.sessions.lookup i = some r → m.sessions.lookup j = some r' →
    m.nameOf r = m.nameOf r' → i = j

/-- Every session is listed under its own id, and no two under one name. -/
structure Listed (m : BVTCPConnectionManager) : Prop where
  own : ∀ i r, m.sessions.lookup i = some r → (m.data r).sessionID = i
  made : ∀ i r, m.sessions.lookup i = some r → r < m.created
  unmade : ∀ r, m.created ≤ r → (m.data r).connection = .dropped
  one : m.OnePerPeer

variable {m m' : BVTCPConnectionManager} {r : SessionRef} {serviceName : Bytes}

theorem listed_construct (thisMachine : Bytes) : (construct thisMachine).Listed where
  own := by
    intro i r hlist
    cases hlist
  made := by
    intro i r hlist
    cases hlist
  unmade := fun _ _ => rfl
  one := by
    intro i j r r' hlist
    cases hlist

theorem Listed.lt_created (h : m.Listed) {c : Connection} (hc : (m.data r).connection = c)
    (hne : c ≠ .dropped) : r < m.created := by
  by_contra hge
  exact hne (hc.symm.trans (h.unmade r (Nat.le_of_not_lt hge)))

/-- The maps do not change, nor do the ids and names of the sessions that were there. -/
structure SameSessions (m m' : BVTCPConnectionManager) : Prop where
  sessions : m'.sessions = m.sessions
  created : m.created ≤ m'.created
  id : ∀ r, r < m.created → (m'.data r).sessionID = (m.data r).sessionID
  name : ∀ r, r < m.created → m'.nameOf r = m.nameOf r
  unmade : ∀ r, m'.created ≤ r → (m'.data r).connection = (m.data r).connection

theorem SameSessions.refl (m : BVTCPConnectionManager) : m.SameSessions m :=
  ⟨rfl, Nat.le_refl _, fun _ _ => rfl, fun _ _ => rfl, fun _ _ => rfl⟩

theorem Listed.of_same (h : m.Listed) (hs : m.SameSessions m') : m'.Listed where
  own := by
    intro i r hlist
    rw [hs.sessions] at hlist
    rw [hs.id r (h.made i r hlist)]
    exact h.own i r hlist
  made := by
    intro i r hlist
    rw [hs.sessions] at hlist
    exact (h.made i r hlist).trans_le hs.created
  unmade := by
    intro r hr
    rw [hs.unmade r hr]
    exact h.unmade r (hs.created.trans hr)
  one := by
    intro i j r r' hi hj hname
    rw [hs.sessions] at hi hj
    rw [hs.name r (h.made i r hi), hs.name r' (h.made j r' hj)] at hname
    exact h.one i j r r' hi hj hname

theorem sameSessions_handOut (m : BVTCPConnectionManager) (serviceName : Bytes) (c : Connection) :
    m.SameSessions (m.handOut serviceName c) where
  sessions := rfl
  created := Nat.le_succ _
  id := by
    intro r hr
    simp [handOut, Function.update_of_ne hr.ne]
  name := by
    intro r hr
    simp [handOut, nameOf, Function.update_of_ne hr.ne]
  unmade := by
    intro r hr
    have hne : r ≠ m.created := Nat.ne_of_gt hr
    simp [handOut, Function.update_of_ne hne]

theorem sameSessions_update {d : SessionData} (hr : r < m.created)
    (hid : d.sessionID = (m.data r).sessionID) (hname : d.serviceName = m.nameOf r) :
    m.SameSessions { m with data := Function.update m.data r d } where
  sessions := rfl
  created := le_rfl
  id := by
    intro q _
    rcases eq_or_ne q r with rfl | hne
    · simp [hid]
    · simp [Function.update_of_ne hne]
  name := by
    intro q _
    rcases eq_or_ne q r with rfl | hne
    · simp [nameOf, hname]
    · simp [nameOf, Function.update_of_ne hne]
  unmade := by
    intro q hq
    have hne : q ≠ r := fun heq => absurd hr (Nat.not_lt_of_le (heq ▸ hq))
    simp [Function.update_of_ne hne]

theorem SameSessions.trans {m'' : BVTCPConnectionManager} (h : m.SameSessions m')
    (h' : m'.SameSessions m'') : m.SameSessions m'' where
  sessions := h'.sessions.trans h.sessions
  created := h.created.trans h'.created
  id := fun r hr => (h'.id r (hr.trans_le h.created)).trans (h.id r hr)
  name := fun r hr => (h'.name r (hr.trans_le h.created)).trans (h.name r hr)
  unmade := fun r hr => (h'.unmade r hr).trans (h.unmade r (h'.created.trans hr))

theorem sameSessions_setState (hr : r < m.created) (s : BVSessionState) :
    m.SameSessions (m.setState s r) :=
  sameSessions_update hr rfl rfl

theorem sameSessions_drop (hr : r < m.created) : m.SameSessions (m.drop r) :=
  sameSessions_update hr rfl rfl

theorem sameSessions_acceptHandler (hr : r < m.created) : m.SameSessions (m.acceptHandler r) := by
  have hlive := sameSessions_update
    (d := { m.data r with state := .unprepared, connection := .live }) hr rfl rfl
  exact hlive.trans (sameSessions_handOut _ _ _)

/-- A session comes in under its own id, with a name no other session has. -/
structure Enters (m : BVTCPConnectionManager) (r : SessionRef) (serviceName : Bytes)
    (m' : BVTCPConnectionManager) : Prop where
  sessions : m'.sessions = m.sessions.insert (m.data r).sessionID r
  service : m'.serviceSessionid =
    Function.update m.serviceSessionid serviceName (some (m.data r).sessionID)
  created : m'.created = m.created
  id : ∀ q, (m'.data q).sessionID = (m.data q).sessionID
  name : m'.nameOf r = serviceName
  other : ∀ q, q ≠ r → m'.data q = m.data q
  absent : ∀ i q, m.sessions.lookup i = some q → m.nameOf q ≠ serviceName

theorem enters_connected (r : SessionRef)
    (habsent : ∀ i q, m.sessions.lookup i = some q → m.nameOf q ≠ m.nameOf r) :
    m.Enters r (m.nameOf r) (m.enterConnected r) where
  sessions := rfl
  service := rfl
  created := rfl
  id := by
    intro q
    rcases eq_or_ne q r with rfl | hne
    · simp [enterConnected]
    · simp [enterConnected, Function.update_of_ne hne]
  name := by simp [enterConnected, nameOf]
  other := fun q hne => Function.update_of_ne hne _ _
  absent := habsent

theorem enters_identified (r : SessionRef)
    (habsent : ∀ i q, m.sessions.lookup i = some q → m.nameOf q ≠ serviceName) :
    m.Enters r serviceName (m.enterIdentified serviceName r) where
  sessions := rfl
  service := rfl
  created := rfl
  id := by
    intro q
    rcases eq_or_ne q r with rfl | hne
    · simp [enterIdentified]
    · simp [enterIdentified, Function.update_of_ne hne]
  name := by simp [enterIdentified, nameOf]
  other := fun q hne => Function.update_of_ne hne _ _
  absent := habsent

/-- What is listed after an insertion: the session that came in, or another one under its old name.
-/
theorem Enters.lookup_cases (he : m.Enters r serviceName m') (h : m.Listed) {i : UInt16}
    {q : SessionRef} (hlist : m'.sessions.lookup i = some q) :
    (i = (m.data r).sessionID ∧ q = r) ∨
      (i ≠ (m.data r).sessionID ∧ q ≠ r ∧ m.sessions.lookup i = some q) := by
  rw [he.sessions] at hlist
  rcases eq_or_ne i (m.data r).sessionID with rfl | hne
  · rw [AList.lookup_insert, Option.some.injEq] at hlist
    exact .inl ⟨rfl, hlist.symm⟩
  · rw [AList.lookup_insert_ne hne] at hlist
    refine .inr ⟨hne, ?_, hlist⟩
    rintro rfl
    exact hne (h.own i q hlist).symm

theorem Enters.nameOf_ne (he : m.Enters r serviceName m') {i : UInt16} {q : SessionRef}
    (hne : q ≠ r) (hlist : m.sessions.lookup i = some q) : m'.nameOf q ≠ serviceName := by
  rw [nameOf, he.other q hne]
  exact he.absent i q hlist

theorem Listed.enter (h : m.Listed) (hr : r < m.created) (he : m.Enters r serviceName m') :
    m'.Listed where
  own := by
    intro i q hlist
    rw [he.id]
    obtain ⟨rfl, rfl⟩ | ⟨-, -, hold⟩ := he.lookup_cases h hlist
    · rfl
    · exact h.own i q hold
  made := by
    intro i q hlist
    rw [he.created]
    obtain ⟨-, rfl⟩ | ⟨-, -, hold⟩ := he.lookup_cases h hlist
    · exact hr
    · exact h.made i q hold
  unmade := by
    intro q hq
    rw [he.created] at hq
    rw [he.other q (hr.trans_le hq).ne']
    exact h.unmade q hq
  one := by
    intro i j q q' hi hj hname
    -- two entries with one name are both old, or both the new one
    obtain ⟨rfl, rfl⟩ | ⟨-, hq, hiold⟩ := he.lookup_cases h hi
    · obtain ⟨rfl, rfl⟩ | ⟨-, hq', hjold⟩ := he.lookup_cases h hj
      · rfl
      · exact absurd (hname.symm.trans he.name) (he.nameOf_ne hq' hjold)
    · obtain ⟨rfl, rfl⟩ | ⟨-, hq', hjold⟩ := he.lookup_cases h hj
      · exact absurd (hname.trans he.name) (he.nameOf_ne hq hiold)
      · rw [nameOf, nameOf, he.other q hq, he.other q' hq'] at hname
        exact h.one i j q q' hiold hjold hname

theorem lookup_removeSession {i : UInt16} {q : SessionRef}
    (hlist : (m.removeSession serviceName).2.sessions.lookup i = some q) :
    m.sessions.lookup i = some q := by
  obtain ⟨-, hsame⟩ | ⟨id, -, hsome⟩ := removeSession_cases serviceName m
  · rwa [hsame] at hlist
  · rw [hsome] at hlist
    rcases eq_or_ne i id with rfl | hne
    · rw [AList.lookup_erase] at hlist
      cases hlist
    · rwa [AList.lookup_erase_ne hne] at hlist

@[simp] theorem removeSession_data : (m.removeSession serviceName).2.data = m.data := by
  obtain ⟨-, hsame⟩ | ⟨id, -, hsome⟩ := removeSession_cases serviceName m
  · rw [hsame]
  · rw [hsome]

@[simp] theorem removeSession_created : (m.removeSession serviceName).2.created = m.created := by
  obtain ⟨-, hsame⟩ | ⟨id, -, hsome⟩ := removeSession_cases serviceName m
  · rw [hsame]
  · rw [hsome]

@[simp] theorem removeSession_nameOf :
    (m.removeSession serviceName).2.nameOf = m.nameOf := by
  funext r
  rw [nameOf, removeSession_data, nameOf]

theorem Listed.removeSession (h : m.Listed) (serviceName : Bytes) :
    (m.removeSession serviceName).2.Listed where
  own := by
    intro i q hlist
    rw [removeSession_data]
    exact h.own i q (lookup_removeSession hlist)
  made := by
    intro i q hlist
    rw [removeSession_created]
    exact h.made i q (lookup_removeSession hlist)
  unmade := by
    intro q hq
    rw [removeSession_created] at hq
    rw [removeSession_data]
    exact h.unmade q hq
  one := by
    intro i j q q' hi hj hname
    rw [removeSession_nameOf] at hname
    exact h.one i j q q' (lookup_removeSession hi) (lookup_removeSession hj) hname

end BVTCPConnectionManager

/-! ### Runs -/

namespace Running

/-- The session the io thread is about to insert has a name that no listed session has. -/
def PendingAbsent (x : Running) : Prop :=
  match x.io with
  | .connected r => r < x.manager.created ∧
    ∀ i q, x.manager.sessions.lookup i = some q → x.manager.nameOf q ≠ x.manager.nameOf r
  | .identified serviceName r => r < x.manager.created ∧
    ∀ i q, x.manager.sessions.lookup i = some q → x.manager.nameOf q ≠ serviceName
  | _ => True

structure Sound (x : Running) : Prop where
  listed : x.manager.Listed
  pending : x.PendingAbsent

variable {x : Running}

theorem sound_start (thisMachine : Bytes) : (start thisMachine).Sound where
  listed := (BVTCPConnectionManager.listed_construct thisMachine).of_same
    (BVTCPConnectionManager.sameSessions_handOut _ _ _)
  pending := trivial

theorem sound_of_idle {x : Running} (hm : x.manager.Listed) (hio : x.io = .idle) : x.Sound :=
  ⟨hm, by rw [PendingAbsent, hio]; trivial⟩

theorem Sound.of_same {x' : Running} (h : x.Sound) (hs : x.manager.SameSessions x'.manager)
    (hio : x'.io = x.io) : x'.Sound := by
  refine ⟨h.listed.of_same hs, ?_⟩
  have hpending := h.pending
  rw [PendingAbsent] at hpending ⊢
  rw [hio]
  cases hat : x.io with
  | idle => trivial
  | sending _ _ => trivial
  | connected r =>
    rw [hat] at hpending
    obtain ⟨hr, habsent⟩ := hpending
    refine ⟨hr.trans_le hs.created, fun i q hlist => ?_⟩
    rw [hs.sessions] at hlist
    rw [hs.name q (h.listed.made i q hlist), hs.name r hr]
    exact habsent i q hlist
  | identified serviceName r =>
    rw [hat] at hpending
    obtain ⟨hr, habsent⟩ := hpending
    refine ⟨hr.trans_le hs.created, fun i q hlist => ?_⟩
    rw [hs.sessions] at hlist
    rw [hs.name q (h.listed.made i q hlist)]
    exact habsent i q hlist

theorem Sound.takeUp {handler : Running → Running} (h : x.Sound)
    (hstep : x.io = .idle → (handler x).Sound) : (x.takeUp handler).Sound := by
  rw [Running.takeUp]
  split
  · next hio => exact hstep hio
  · exact h

theorem Sound.connectHandler (h : x.Sound) (r : SessionRef) (error : Bool) :
    (x.connectHandler r error).Sound := by
  obtain heq | ⟨hc, heq | ⟨hpresent, heq⟩⟩ := connectHandler_cases r error x
  · rw [heq]
    exact h
  · rw [heq]
    have hr := h.listed.lt_created hc (by decide)
    exact h.of_same (BVTCPConnectionManager.sameSessions_drop hr) rfl
  · rw [heq]
    have hr := h.listed.lt_created hc (by decide)
    exact ⟨h.listed, hr, BVTCPConnectionManager.not_present_iff.mp hpresent⟩

theorem Sound.handleSessionIdentification (h : x.Sound) (serviceName : Bytes) (r : SessionRef) :
    (x.handleSessionIdentification serviceName r).Sound := by
  obtain heq | ⟨hu, heq | ⟨hpresent, heq⟩⟩ := handleSessionIdentification_cases serviceName r x
  · rw [heq]
    exact h
  · rw [heq]
    have hr := h.listed.lt_created hu.1 (by decide)
    exact h.of_same (BVTCPConnectionManager.sameSessions_setState hr _) rfl
  · rw [heq]
    have hr := h.listed.lt_created hu.1 (by decide)
    have hsame := BVTCPConnectionManager.sameSessions_setState hr .established
    refine ⟨h.listed.of_same hsame, hr, fun i q hlist => ?_⟩
    rw [hsame.name q (h.listed.made i q hlist)]
    exact BVTCPConnectionManager.not_present_iff.mp hpresent i q hlist

theorem Sound.acceptHandler (h : x.Sound) (r : SessionRef) : (x.acceptHandler r).Sound := by
  obtain heq | ⟨hc, heq⟩ := acceptHandler_cases r x
  · rw [heq]
    exact h
  · rw [heq]
    have hr := h.listed.lt_created hc (by decide)
    exact h.of_same (BVTCPConnectionManager.sameSessions_acceptHandler hr) rfl

theorem Sound.confirmEstablished (h : x.Sound) (r : SessionRef) :
    (x.confirmEstablished r).Sound := by
  obtain heq | ⟨hu, heq⟩ := confirmEstablished_cases r x
  · rw [heq]
    exact h
  · rw [heq]
    have hr := h.listed.lt_created hu.1 (by decide)
    exact h.of_same (BVTCPConnectionManager.sameSessions_setState hr _) rfl

theorem Sound.getSessionIDFromServiceName (h : x.Sound) (serviceName : Bytes) :
    (x.getSessionIDFromServiceName serviceName).Sound := by
  rw [Running.getSessionIDFromServiceName]
  split
  · exact h
  · exact ⟨h.listed, trivial⟩

theorem Sound.insert (h : x.Sound) : x.insert.Sound := by
  have hpending := h.pending
  rw [PendingAbsent] at hpending
  rw [Running.insert]
  cases hat : x.io with
  | idle => exact h
  | sending _ _ => exact h
  | connected r =>
    rw [hat] at hpending
    exact sound_of_idle
      (h.listed.enter hpending.1 (BVTCPConnectionManager.enters_connected r hpending.2)) rfl
  | identified serviceName r =>
    rw [hat] at hpending
    exact sound_of_idle
      (h.listed.enter hpending.1 (BVTCPConnectionManager.enters_identified r hpending.2)) rfl

theorem Sound.send (h : x.Sound) : x.send.Sound := by
  rw [Running.send]
  split
  · exact sound_of_idle h.listed rfl
  · exact h

theorem Sound.initiateSessionWithNode (h : x.Sound) (serviceName : Bytes) :
    (x.initiateSessionWithNode serviceName).Sound := by
  rw [Running.initiateSessionWithNode]
  split
  · exact ⟨h.listed, h.pending⟩
  · exact h

theorem Sound.dial (h : x.Sound) : x.dial.Sound := by
  rw [Running.dial]
  split
  · exact h
  · exact h.of_same (BVTCPConnectionManager.sameSessions_handOut _ _ _) rfl

theorem Sound.removeSession (h : x.Sound) (serviceName : Bytes) :
    Sound { x with manager := (x.manager.removeSession serviceName).2 } := by
  refine ⟨h.listed.removeSession serviceName, ?_⟩
  have hpending := h.pending
  rw [PendingAbsent] at hpending ⊢
  simp only [BVTCPConnectionManager.removeSession_created,
    BVTCPConnectionManager.removeSession_nameOf]
  cases hat : x.io with
  | idle => trivial
  | sending _ _ => trivial
  | connected r =>
    rw [hat] at hpending
    exact ⟨hpending.1, fun i q hlist =>
      hpending.2 i q (BVTCPConnectionManager.lookup_removeSession hlist)⟩
  | identified _ r =>
    rw [hat] at hpending
    exact ⟨hpending.1, fun i q hlist =>
      hpending.2 i q (BVTCPConnectionManager.lookup_removeSession hlist)⟩

theorem step_sound (h : x.Sound) (a : ManagerAction) : (x.step a).Sound := by
  cases a with
  | initiateSessionWithNode serviceName => exact h.initiateSessionWithNode serviceName
  | dial => exact h.dial
  | connectHandler r error => exact h.takeUp fun _ => h.connectHandler r error
  | acceptHandler r => exact h.takeUp fun _ => h.acceptHandler r
  | handleSessionIdentification serviceName r =>
    exact h.takeUp fun _ => h.handleSessionIdentification serviceName r
  | insert => exact h.insert
  | confirmEstablished r => exact h.takeUp fun _ => h.confirmEstablished r
  | removeSession serviceName => exact h.removeSession serviceName
  | getSessionIDFromServiceName serviceName =>
    exact h.takeUp fun _ => h.getSessionIDFromServiceName serviceName
  | send => exact h.send

theorem sameSessions_takeUp {handler : Running → Running}
    (h : x.manager.SameSessions (handler x).manager) :
    x.manager.SameSessions (x.takeUp handler).manager := by
  rw [takeUp]
  split
  · exact h
  · exact .refl _

/-- Only an insertion or a removal changes what is listed. -/
theorem sameSessions_step (h : x.manager.Listed) {a : ManagerAction} (hinsert : a ≠ .insert)
    (hremove : ∀ serviceName, a ≠ .removeSession serviceName) :
    x.manager.SameSessions (x.step a).manager := by
  cases a with
  | insert => exact absurd rfl hinsert
  | removeSession serviceName => exact absurd rfl (hremove serviceName)
  | initiateSessionWithNode serviceName =>
    rw [step, initiateSessionWithNode]
    split
    · exact .refl _
    · exact .refl _
  | dial =>
    rw [step, dial]
    split
    · exact .refl _
    · exact BVTCPConnectionManager.sameSessions_handOut _ _ _
  | connectHandler r error =>
    refine sameSessions_takeUp ?_
    obtain heq | ⟨hc, heq | ⟨-, heq⟩⟩ := connectHandler_cases r error x
    · rw [heq]
      exact .refl _
    · rw [heq]
      exact BVTCPConnectionManager.sameSessions_drop (h.lt_created hc (by decide))
    · rw [heq]
      exact .refl _
  | acceptHandler r =>
    refine sameSessions_takeUp ?_
    obtain heq | ⟨hc, heq⟩ := acceptHandler_cases r x
    · rw [heq]
      exact .refl _
    · rw [heq]
      exact BVTCPConnectionManager.sameSessions_acceptHandler
        (h.lt_created hc (by decide))
  | handleSessionIdentification serviceName r =>
    refine sameSessions_takeUp ?_
    obtain heq | ⟨hu, heq | ⟨-, heq⟩⟩ := handleSessionIdentification_cases serviceName r x
    · rw [heq]
      exact .refl _
    · rw [heq]
      exact BVTCPConnectionManager.sameSessions_setState (h.lt_created hu.1 (by decide)) _
    · rw [heq]
      exact BVTCPConnectionManager.sameSessions_setState (h.lt_created hu.1 (by decide)) _
  | confirmEstablished r =>
    refine sameSessions_takeUp ?_
    obtain heq | ⟨hu, heq⟩ := confirmEstablished_cases r x
    · rw [heq]
      exact .refl _
    · rw [heq]
      exact BVTCPConnectionManager.sameSessions_setState (h.lt_created hu.1 (by decide)) _
  | getSessionIDFromServiceName serviceName =>
    refine sameSessions_takeUp ?_
    rw [getSessionIDFromServiceName]
    split
    · exact .refl _
    · exact .refl _
  | send =>
    rw [step, send]
    split
    · exact .refl _
    · exact .refl _

theorem run_sound (thisMachine : Bytes) (as : List ManagerAction) :
    (Runs.run step (start thisMachine) as).Sound :=
  Runs.run_invariant_of_forall (I := Sound) (fun _ a h => step_sound h a)
    (sound_start thisMachine) as

/-- **One session per peer.**  In every run of the manager, with any interleaving of its two
threads, no two entries of `sessions_m` carry the same service name. -/
theorem one_session_per_peer (thisMachine : Bytes) (as : List ManagerAction) :
    (Runs.run step (start thisMachine) as).manager.OnePerPeer :=
  (run_sound thisMachine as).listed.one

end Running

end LocalChat
