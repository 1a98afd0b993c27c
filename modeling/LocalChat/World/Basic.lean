import LocalChat.Client.Basic
import LocalChat.Manager.Sessions
import LocalChat.Session.Handshake

/-!
# Two hosts

Two clients that discover each other.  Every connect attempt of a host can lead to one TCP
connection with the listening socket of the other; the connection is known by the host that dials
and the session it dials with.  The network connects the two sockets, and then the connect handler
of one host and the accept handler of the other run in any order.

The handshake frames of a connection are delivered in order.  When one end closes its socket or the
connection is lost, what was under way is gone; the read callbacks of both ends then see an error,
which they log and do nothing about.

An event of a mailbox is handled in one piece, and so is a handler of the io thread.
-/

namespace LocalChat

open Octets

inductive Side
  | left
  | right
  deriving DecidableEq, Repr

def Side.other : Side → Side
  | .left => .right
  | .right => .left

@[simp] theorem Side.other_other (s : Side) : s.other.other = s := by
  cases s <;> rfl

@[simp] theorem Side.other_ne (s : Side) : s.other ≠ s := by
  cases s <;> decide

@[simp] theorem Side.ne_other (s : Side) : s ≠ s.other := by
  cases s <;> decide

theorem Side.eq_or_eq_other (s u : Side) : u = s ∨ u = s.other := by
  cases s <;> cases u <;> decide

theorem Side.forall_iff {p : Side → Prop} : (∀ s, p s) ↔ p .left ∧ p .right := by
  constructor
  · intro h
    exact ⟨h .left, h .right⟩
  · rintro ⟨hleft, hright⟩ s
    cases s with
    | left => exact hleft
    | right => exact hright

inductive HandshakeFrame
  | hello
  /-- with the name the receiver reads from it; `none` if it does not accept the length -/
  | helloBack (serviceName : Option Bytes)
  | confirmEstablished
  deriving DecidableEq, Repr

/-- The answer of `OnReceiveHelloFrame`, as `OnReceiveHelloBackFrame` reads it. -/
def HandshakeFrame.reply (env : Env) (thisMachine : Bytes) : HandshakeFrame :=
  let f := messageFrame (Session.replyMsg env thisMachine)
  .helloBack (if 128 < at_ f 0 then none else some ((f.drop headerSizeBytes).take (at_ f 0).toNat))

theorem reply_of_length_le {thisMachine : Bytes} (h : thisMachine.length ≤ 128) (env : Env) :
    HandshakeFrame.reply env thisMachine = .helloBack (some thisMachine) := by
  have hle : ¬ 128 < at_ (messageFrame (Session.replyMsg env thisMachine)) 0 := by
    rw [UInt8.not_lt, UInt8.le_iff_toNat_le, dataLen_replyMsg h env]
    exact h
  rw [HandshakeFrame.reply, if_neg hle, name_replyMsg h env]

structure TcpConnection where
  /-- the session of the host that accepted, once its handler has run -/
  acceptor : Option SessionRef
  toDialler : List HandshakeFrame
  toAcceptor : List HandshakeFrame
  /-- neither end has closed it and it is not lost -/
  alive : Bool
  deriving DecidableEq, Repr

/-- A connection that is closed or lost, with what was under way on it. -/
def TcpConnection.closed (c : TcpConnection) : TcpConnection :=
  { c with toDialler := [], toAcceptor := [], alive := false }

structure World where
  host : Side → Client
  /-- the connections, by the host that dialled and its session -/
  tcp : Side → SessionRef → Option TcpConnection

inductive Happening
  | published (s : Side) (services : List BVServiceBrowseInstance)
  /-- the peer was resolved -/
  | resolved (s : Side) (attempts : Fin 5 → Bool)
  | deregistered (s : Side) (services : List BVServiceBrowseInstance)
  /-- the network connects the socket of a connect attempt -/
  | connect (s : Side) (r : SessionRef)
  | connectHandler (s : Side) (r : SessionRef) (error : Bool)
  /-- the other host accepts the connection, with its session `q` -/
  | acceptHandler (s : Side) (r q : SessionRef)
  | deliverToDialler (s : Side) (r : SessionRef) (env : Env)
  | deliverToAcceptor (s : Side) (r : SessionRef) (env : Env)
  | lose (s : Side) (r : SessionRef)

namespace World

def start (name rootdir : Side → Bytes) (files : Side → Files) : World where
  host := fun s => .start (name s) (rootdir s) (files s)
  tcp := fun _ _ => none

def manager (w : World) (s : Side) : BVTCPConnectionManager := (w.host s).manager

def name (w : World) (s : Side) : Bytes := (w.manager s).thisMachine

/-! ### Steps -/

def setHost (s : Side) (c : Client) (w : World) : World :=
  { w with host := Function.update w.host s c }

def setManager (s : Side) (m : BVTCPConnectionManager) (w : World) : World :=
  w.setHost s { w.host s with manager := m }

def setTcp (s : Side) (r : SessionRef) (c : TcpConnection) (w : World) : World :=
  { w with tcp := Function.update w.tcp s (Function.update (w.tcp s) r (some c)) }

def mail (s : Side) (e : MailEvent) (w : World) : World := w.setHost s ((w.host s).step e)

def connect (s : Side) (r : SessionRef) (w : World) : World :=
  if ((w.manager s).data r).connection = .connecting ∧ w.tcp s r = none then
    w.setTcp s r ⟨none, [], [], true⟩
  else w

/-- `ConnectHandler`; the socket of an attempt that comes second is closed. -/
def connectHandler (s : Side) (r : SessionRef) (error : Bool) (w : World) : World :=
  let m := w.manager s
  if (m.data r).connection ≠ .connecting then w
  else
    match w.tcp s r, error with
    | none, true => w.setManager s (m.connectHandler true r)
    | some c, false =>
      let w := w.setManager s (m.connectHandler false r)
      if m.isSessionAlreadyPresent (m.nameOf r) then w.setTcp s r c.closed else w
    | _, _ => w

/-- The accept handler writes HELLO, which a closed connection does not carry. -/
def acceptHandler (s : Side) (r q : SessionRef) (w : World) : World :=
  let k := w.manager s.other
  match w.tcp s r with
  | none => w
  | some c =>
    if c.acceptor = none ∧ (k.data q).connection = .accepting then
      (w.setManager s.other (k.acceptHandler q)).setTcp s r
        { c with
          acceptor := some q
          toDialler := if c.alive then c.toDialler ++ [.hello] else c.toDialler }
    else w

/-- What a session makes of a handshake frame: the manager, the answer, and whether it closes. -/
def receive (env : Env) (r : SessionRef) (m : BVTCPConnectionManager) (f : HandshakeFrame) :
    BVTCPConnectionManager × List HandshakeFrame × Bool :=
  if ¬ m.Unprepared r then (m, [], false)
  else
    match f with
    | .hello => (m, [.reply env m.thisMachine], false)
    | .helloBack none => (m, [], false)
    | .helloBack (some n) =>
      (m.handleSessionIdentification n r,
        if m.isSessionAlreadyPresent n then [] else [.confirmEstablished],
        m.isSessionAlreadyPresent n)
    | .confirmEstablished => (m.setState .established r, [], false)

/-- A session reads frames from the moment its connection handler has run. -/
def deliverToDialler (s : Side) (r : SessionRef) (env : Env) (w : World) : World :=
  let m := w.manager s
  match w.tcp s r with
  | some ⟨acceptor, f :: rest, toAcceptor, true⟩ =>
    if (m.data r).connection ≠ .live then w
    else
      let (m, answer, closes) := receive env r m f
      let c : TcpConnection := ⟨acceptor, rest, toAcceptor ++ answer, true⟩
      (w.setManager s m).setTcp s r (if closes then c.closed else c)
  | _ => w

def deliverToAcceptor (s : Side) (r : SessionRef) (env : Env) (w : World) : World :=
  let k := w.manager s.other
  match w.tcp s r with
  | some ⟨some q, toDialler, f :: rest, true⟩ =>
    let (k, answer, closes) := receive env q k f
    let c : TcpConnection := ⟨some q, toDialler ++ answer, rest, true⟩
    (w.setManager s.other k).setTcp s r (if closes then c.closed else c)
  | _ => w

def lose (s : Side) (r : SessionRef) (w : World) : World :=
  match w.tcp s r with
  | none => w
  | some c => w.setTcp s r c.closed

def step (w : World) : Happening → World
  | .published s services => w.mail s (.publishedService services)
  | .resolved s attempts => w.mail s (.serviceResolved (w.name s.other) attempts)
  | .deregistered s services => w.mail s (.deregisteredService services)
  | .connect s r => w.connect s r
  | .connectHandler s r error => w.connectHandler s r error
  | .acceptHandler s r q => w.acceptHandler s r q
  | .deliverToDialler s r env => w.deliverToDialler s r env
  | .deliverToAcceptor s r env => w.deliverToAcceptor s r env
  | .lose s r => w.lose s r

/-! ### Agreement -/

def Lists (w : World) (s : Side) (r : SessionRef) : Prop :=
  ∃ id, (w.manager s).sessions.lookup id = some r ∧ (w.manager s).nameOf r = w.name s.other

def Joined (w : World) (s : Side) (r q : SessionRef) : Prop :=
  (∃ c, w.tcp s r = some c ∧ c.acceptor = some q ∧ c.alive = true) ∨
    ∃ c, w.tcp s.other q = some c ∧ c.acceptor = some r ∧ c.alive = true

def Quiescent (w : World) : Prop :=
  ∀ s, ∀ r < (w.manager s).created, ((w.manager s).data r).connection ≠ .connecting ∧
    ∀ c ∈ w.tcp s r, c.alive = true →
      c.acceptor ≠ none ∧ c.toDialler = [] ∧ c.toAcceptor = []

instance : DecidablePred Quiescent := fun _ => decidable_of_iff _ Side.forall_iff.symm

/-- A host lists a session for its peer only if the peer lists the other end of the same connection,
and both are ESTABLISHED. -/
def Agree (w : World) : Prop :=
  ∀ s r, w.Lists s r → ∃ q, w.Lists s.other q ∧ w.Joined s r q ∧
    ((w.manager s).data r).state = .established ∧
    ((w.manager s.other).data q).state = .established

end World

end LocalChat
