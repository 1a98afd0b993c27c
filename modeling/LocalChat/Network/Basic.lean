import LocalChat.App.Basic
import LocalChat.Transfer.Multiplex

/-!
# A network of hosts

Any number of hosts run the program, and every two of them have an established session.  A `Host`
is what decides about file offers: the pending offers and transfer contexts of its connection
manager, its app, and the events its sessions have put into the app's mailbox.

Each host acts on its own, one `Action` at a time: its user offers a file, writes a chat message or
answers an offer, a worker sends its next frame, a session reads its next frame, or the mailbox
thread handles its next event.  A frame is put on the stream in one piece and is read undisturbed.

The last three fields of `Host`, the session beside each event of its mailbox and
`Network.underWay` are not read by the program.  They keep what the results are about: the session
each event and the shown offer came on, the user's acceptances, the files `BVReceivedFile::Begin`
has opened, and the transfer that is under way on a session.
-/

namespace LocalChat

open Octets

variable {H : Type}

/-! ### Hosts -/

/-- The names of the hosts; a host name has no `|` in it. -/
structure Directory (H : Type) where
  name : H → Bytes
  /-- `service_sessionid_m` -/
  session : Bytes → Option H
  session_name : ∀ h, session (name h) = some h
  bar_not_mem : ∀ h, bar ∉ name h

/-- A file of a peer, as it was accepted or opened: the session, the correlation key, the service
and the file name. -/
structure Consent (H : Type) where
  peer : H
  key : UInt32
  serviceName : Bytes
  fname : Bytes
  deriving DecidableEq

structure Host (H : Type) where
  /-- the static counter of `InitiateFileTransferWithSession` -/
  ftcid : UInt32
  /-- the session and the name of each offered file -/
  pendingOutgoing : UInt32 → Option (H × Bytes)
  fileTransferContext : UInt32 → Option (H × BVFileTransferContext)
  app : App
  /-- the mailbox thread has not ended -/
  listening : Bool
  mailbox : List (H × AppEvent)
  offeredOn : Option H
  accepted : List (Consent H)
  begun : List (Consent H)

def Host.start (rootdir : Bytes) (files : Files) : Host H where
  ftcid := 0
  pendingOutgoing := fun _ => none
  fileTransferContext := fun _ => none
  app := .start rootdir files
  listening := true
  mailbox := []
  offeredOn := none
  accepted := []
  begun := []

namespace Host

def setContext (correlationKey : UInt32) (v : H × BVFileTransferContext) (x : Host H) : Host H :=
  { x with
    fileTransferContext := Function.update x.fileTransferContext correlationKey (some v) }

@[simp] theorem setContext_self (key : UInt32) (v : H × BVFileTransferContext) (x : Host H) :
    (x.setContext key v).fileTransferContext key = some v := Function.update_self _ _ _

theorem setContext_of_ne {key k : UInt32} (h : k ≠ key) (v : H × BVFileTransferContext)
    (x : Host H) :
    (x.setContext key v).fileTransferContext k = x.fileTransferContext k :=
  Function.update_of_ne h _ _

def erasePending (correlationKey : UInt32) (x : Host H) : Host H :=
  { x with pendingOutgoing := Function.update x.pendingOutgoing correlationKey none }

/-- `SignalFileTransfer`; `file` is what is found at the stored path, if it can be opened. -/
def signalFileTransfer (thisMachineServiceName : Bytes) (file : Option Bytes)
    (correlationKey : UInt32) (accept : Bool) (x : Host H) : Host H :=
  match x.pendingOutgoing correlationKey with
  | none => x
  | some (sid, fname) =>
    match accept, file with
    | true, some content =>
      (x.erasePending correlationKey).setContext correlationKey
        (sid, .construct content fname thisMachineServiceName correlationKey)
    | _, _ => x.erasePending correlationKey

/-- All a verdict can do: nothing, the offer is dropped, or its transfer is set up. -/
theorem signalFileTransfer_cases (name : Bytes) (file : Option Bytes) (key : UInt32) (accept : Bool)
    (x : Host H) : x.signalFileTransfer name file key accept = x ∨
      x.signalFileTransfer name file key accept = x.erasePending key ∨
      ∃ sid fname content, x.pendingOutgoing key = some (sid, fname) ∧ accept = true ∧
        x.signalFileTransfer name file key accept =
          (x.erasePending key).setContext key (sid, .construct content fname name key) := by
  cases hpending : x.pendingOutgoing key with
  | none => exact .inl (by rw [signalFileTransfer, hpending])
  | some v =>
    right
    rw [signalFileTransfer, hpending]
    rcases accept with - | -
    · exact .inl rfl
    rcases file with - | content
    · exact .inl rfl
    · exact .inr ⟨v.1, v.2, content, rfl, rfl, rfl⟩

/-- What the manager and the mailbox make of an effect of the session with `peer`.  The other
effects belong to the handshake. -/
def onEffect (thisMachineServiceName : Bytes) (file : Option Bytes) (peer : H) (x : Host H) :
    Effect → Host H
  | .putMessageIntoAppMailbox e => { x with mailbox := x.mailbox ++ [(peer, e)] }
  | .signalFileTransfer key accept => x.signalFileTransfer thisMachineServiceName file key accept
  | _ => x

/-- The file a handled event has opened. -/
def opened (peer : H) : AppEvent → BVStatus → List (Consent H)
  | .fileTransferBegin d, .ok => [⟨peer, d.correlationKey, beforeBar d.fdata, afterBar d.fdata⟩]
  | _, _ => []

/-- The session of the offer that is shown after an event. -/
def shownOn (peer : H) (before : Option H) : AppEvent → Option H
  | .fileOffer _ => some peer
  | _ => before

def listen (flt : Faults) (x : Host H) : Host H :=
  match x.listening, x.mailbox with
  | true, (peer, e) :: rest =>
    { x with
      app := (x.app.handle flt e).2
      listening := (x.app.handle flt e).1 = .ok
      mailbox := rest
      offeredOn := shownOn peer x.offeredOn e
      begun := x.begun ++ opened peer e (x.app.handle flt e).1 }
  | _, _ => x

/-- The user's acceptance of an offer. -/
def acceptance (offer : PendingOffer) (accept : Bool) (x : Host H) : List (Consent H) :=
  match accept, x.offeredOn with
  | true, some peer => [⟨peer, offer.key, offer.sender, offer.fname⟩]
  | _, _ => []

/-- `OnKey` while an offer is shown.  Keys pressed at other times make up the other actions. -/
def onKey (c : UInt8) (x : Host H) : Option (PendingOffer × Bool) × Host H :=
  if x.app.uiState = .fileOffer then
    match x.app.handleFileOfferKey c with
    | (none, app) => (none, { x with app := app })
    | (some (offer, accept), app) =>
      (some (offer, accept),
        { x with app := app, accepted := x.accepted ++ x.acceptance offer accept })
  else (none, x)

theorem onKey_cases (c : UInt8) (x : Host H) : ∃ answer shown uiState noted,
    x.onKey c = (answer, { x with
      app := { x.app with pendingOffer := shown, uiState := uiState }
      accepted := x.accepted ++ noted }) ∧
    ((answer = none ∧ shown = x.app.pendingOffer ∧ noted = []) ∨
      ∃ offer accept, answer = some (offer, accept) ∧ x.app.pendingOffer = some offer ∧
        shown = none ∧ noted = x.acceptance offer accept) := by
  by_cases hui : x.app.uiState = .fileOffer
  · cases hshown : x.app.pendingOffer with
    | none =>
      refine ⟨none, none, x.app.priorUiState, [], ?_, .inl ⟨rfl, rfl, rfl⟩⟩
      simp [onKey, hui, App.handleFileOfferKey, hshown]
    | some offer =>
      by_cases hyes : c = 121 ∨ c = 89
      · refine ⟨_, none, x.app.priorUiState, _, ?_, .inr ⟨offer, true, rfl, rfl, rfl, rfl⟩⟩
        simp [onKey, hui, App.handleFileOfferKey, hshown, hyes]
      · by_cases hno : c = 110 ∨ c = 78
        · refine ⟨_, none, x.app.priorUiState, _, ?_, .inr ⟨offer, false, rfl, rfl, rfl, rfl⟩⟩
          simp [onKey, hui, App.handleFileOfferKey, hshown, hyes, hno]
        · refine ⟨none, some offer, .fileOffer, [], ?_, .inl ⟨rfl, rfl, rfl⟩⟩
          simp only [onKey, hui, if_true, App.handleFileOfferKey, hshown, hyes, hno, if_false]
          rw [← hui, ← hshown, List.append_nil]
  · refine ⟨none, x.app.pendingOffer, x.app.uiState, [], ?_, .inl ⟨rfl, rfl, rfl⟩⟩
    simp [onKey, hui]

/-- One turn of the worker loop; it writes at most one frame. -/
def work (correlationKey : UInt32) (now : UInt64) (x : Host H) : Option (H × FileFrame) × Host H :=
  match x.fileTransferContext correlationKey with
  | none => (none, x)
  | some (sid, c) =>
    if c.isRunning ∧ c.good then
      ((c.transferNextChunk now).1.head?.map (Prod.mk sid),
        x.setContext correlationKey (sid, (c.transferNextChunk now).2))
    else (none, x)

/-- `InitiateFileTransferWithSession`, as far as it acts on the host. -/
def offer (sid : H) (fname : Bytes) (x : Host H) : Host H :=
  { x with
    ftcid := x.ftcid + 1
    pendingOutgoing := Function.update x.pendingOutgoing x.ftcid (some (sid, fname)) }

@[simp] theorem offer_pendingOutgoing (x : Host H) (sid : H) (fname : Bytes) :
    (x.offer sid fname).pendingOutgoing =
      Function.update x.pendingOutgoing x.ftcid (some (sid, fname)) := rfl

end Host

/-! ### The network -/

/-- The hosts and their sessions; the session of `g` with `h` is at `(g, h)`. -/
structure Network (H : Type) where
  host : H → Host H
  session : H × H → Session
  /-- the transfer whose BEGIN has been written to the session and whose END has not -/
  underWay : H × H → Option UInt32

inductive Action (H : Type)
  | initiateFileTransferWithSession (h g : H) (fname : Bytes) (fsize : UInt32) (now : UInt64)
  | sendChat (h g : H) (text : Bytes) (now : UInt64)
  | transferNextChunk (h : H) (correlationKey : UInt32) (now : UInt64)
  | readFrame (g h : H) (env : Env) (file : Option Bytes)
  | listenToMail (g : H) (flt : Faults)
  | onKey (g : H) (c : UInt8) (now : UInt64)

namespace Network

variable [DecidableEq H]

def start (dir : Directory H) (rootdir : H → Bytes) (files : H → Files) : Network H where
  host := fun h => .start (rootdir h) (files h)
  session := fun l => .idle (dir.name l.1) (dir.name l.2) []
  underWay := fun _ => none

def write (n : Network H) (l : H × H) (x : Written UInt32) : Network H :=
  { n with
    session := Function.update n.session l
      { n.session l with socket := (n.session l).socket ++ x.bytes }
    underWay := match x with
      | .io _ => n.underWay
      | .worker key f => Function.update n.underWay l (Written.after key f) }

/-- The session of `g` with `h` reads its next frame, if one has been written. -/
def read (dir : Directory H) (n : Network H) (g h : H) (env : Env) (file : Option Bytes) :
    Network H :=
  let s := n.session (g, h)
  if s.socket = [] then n
  else
    { n with
      session := Function.update n.session (g, h) (s.readOnce env)
      host := Function.update n.host g
        (((s.readOnce env).log.drop s.log.length).foldl
          (Host.onEffect (dir.name g) file h) (n.host g)) }

/-- What an action does to its host, and the frame it writes. -/
def act (dir : Directory H) (n : Network H) :
    Action H → Network H × Option ((H × H) × Written UInt32)
  | .initiateFileTransferWithSession h g fname fsize now =>
    ({ n with host := Function.update n.host h ((n.host h).offer g fname) },
      some ((g, h), .io (.offer now (dir.name h) (n.host h).ftcid fsize fname)))
  | .sendChat h g text now => (n, some ((g, h), .io (.chat now text)))
  | .transferNextChunk h key now =>
    ({ n with host := Function.update n.host h ((n.host h).work key now).2 },
      ((n.host h).work key now).1.map fun p => ((p.1, h), .worker key p.2))
  | .readFrame g h env file => (n.read dir g h env file, none)
  | .listenToMail g flt =>
    ({ n with host := Function.update n.host g ((n.host g).listen flt) }, none)
  | .onKey g c now =>
    ({ n with host := Function.update n.host g ((n.host g).onKey c).2 },
      -- `RespondToFileOffer`
      ((n.host g).onKey c).1.bind fun p =>
        (dir.session p.1.sender).map fun h => ((h, g), .io (.verdict now p.1.key p.2)))

def step (dir : Directory H) (n : Network H) (a : Action H) : Network H :=
  match n.act dir a with
  | (n, none) => n
  | (n, some (l, x)) => n.write l x

/-! ### The contract -/

/-- The frame is not taken for one of another kind. -/
def Unmistakable : Written UInt32 → Prop
  | .io f => f.Plain
  | .worker _ f => f.handler = .fileTransferBegin →
    UInt8.ofNat (f.chunk.header.timestamp.toNat / 256 ^ 5) ≠ BVTCPMessageType.chatMessage

/-- The payload `<service>|<name>` fits an OFFER or BEGIN frame with its terminator. -/
def Fits (serviceName fname : Bytes) : Prop :=
  0 ∉ serviceName ++ [bar] ++ fname ∧
    (serviceName ++ [bar] ++ fname).length < controlPayloadBytes

/-- A frame is not written into a transfer of another writer. -/
def MayWrite (n : Network H) : Option ((H × H) × Written UInt32) → Prop
  | none => True
  | some (l, x) => Written.Allowed (n.underWay l) x ∧ Unmistakable x

/-- The names of an offered file fit their frame, and the counter of offers does not come round. -/
def MayOffer (dir : Directory H) (n : Network H) : Action H → Prop
  | .initiateFileTransferWithSession h _ fname _ _ =>
    Fits (dir.name h) fname ∧ (n.host h).ftcid.toNat + 1 < 2 ^ 32
  | _ => True

structure Ok (dir : Directory H) (n : Network H) (a : Action H) : Prop where
  writes : n.MayWrite (n.act dir a).2
  offers : n.MayOffer dir a

instance (cur : Option UInt32) (x : Written UInt32) : Decidable (Written.Allowed cur x) :=
  match cur, x with
  | none, _ => .isTrue trivial
  | some _, .io _ => .isFalse id
  | some i, .worker j _ => inferInstanceAs (Decidable (j = i))

instance : DecidablePred Unmistakable
  | .io f => inferInstanceAs (Decidable f.Plain)
  | .worker _ f => inferInstanceAs (Decidable (f.handler = .fileTransferBegin →
      UInt8.ofNat (f.chunk.header.timestamp.toNat / 256 ^ 5) ≠ BVTCPMessageType.chatMessage))

instance (serviceName fname : Bytes) : Decidable (Fits serviceName fname) :=
  inferInstanceAs (Decidable (0 ∉ serviceName ++ [bar] ++ fname ∧
    (serviceName ++ [bar] ++ fname).length < controlPayloadBytes))

instance (n : Network H) : DecidablePred n.MayWrite
  | none => .isTrue trivial
  | some (l, x) => inferInstanceAs (Decidable (Written.Allowed (n.underWay l) x ∧ Unmistakable x))

instance (dir : Directory H) (n : Network H) : DecidablePred (n.MayOffer dir)
  | .initiateFileTransferWithSession h _ fname _ _ => inferInstanceAs (Decidable
      (Fits (dir.name h) fname ∧ (n.host h).ftcid.toNat + 1 < 2 ^ 32))
  | .sendChat _ _ _ _ => .isTrue trivial
  | .transferNextChunk _ _ _ => .isTrue trivial
  | .readFrame _ _ _ _ => .isTrue trivial
  | .listenToMail _ _ => .isTrue trivial
  | .onKey _ _ _ => .isTrue trivial

instance (dir : Directory H) (n : Network H) (a : Action H) : Decidable (Ok dir n a) :=
  decidable_of_iff (n.MayWrite (n.act dir a).2 ∧ n.MayOffer dir a)
    ⟨fun h => ⟨h.1, h.2⟩, fun h => ⟨h.writes, h.offers⟩⟩

end Network

end LocalChat
