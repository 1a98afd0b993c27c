import LocalChat.Session.Simulation

/-!
# The handshake

Host `A` connects to host `B`.  `B` greets with HELLO, `A` answers with HELLOBACK and its name, `B`
enters the session under that name and confirms.  `A` lists its session as soon as it is connected,
so that chat messages of its user can go out at any time from then on.

A `Link` is the two sessions of one connection; a frame that one writes goes into the socket of the
other, and its bytes arrive there when they do.  A callback is one step: the answer to what it
writes comes in behind it.

* `readOnce_hello`, `readOnce_helloBack`, `readOnce_confirm`: what an UNPREPARED session makes of
  the three frames.
* `Safe`: chat messages are sent after HELLOBACK, and callbacks clear nothing but zeros.
* `Phase`: the five stages of a handshake between two reads.  `phase_deliverToA`,
  `phase_deliverToB` and `phase_sendChat` lead from one to the next.
-/

namespace LocalChat

open Octets

namespace Session

/-! ### Frames of an UNPREPARED session -/

def helloMsg (now : UInt64) : BVTCPMessage := constructMessage now BVTCPMessageType.hello .zero

def confirmEstablishedMessage (now : UInt64) : BVTCPMessage :=
  constructMessage now BVTCPMessageType.confirmEstablished .zero

/-- `s` after it has taken a frame off its socket, logged `es` and started to read the next one. -/
def consumed (s : Session) (rest : Bytes) (es : List Effect) : Session :=
  { s with
    readBuf := List.replicate messageFrameSizeBytes 0
    socket := rest
    log := s.log ++ es }

theorem FrameMode.consumed {s : Session} (h : s.FrameMode) (rest : Bytes) (es : List Effect) :
    (s.consumed rest es).FrameMode :=
  ⟨h.reads, h.totalBytesRead, List.length_replicate⟩

theorem readOnce_of_unprepared {s : Session} {f rest : Bytes} (env : Env) (h : s.FrameMode)
    (hst : s.state = .unprepared) (hs : s.socket = f ++ rest)
    (hf : f.length = messageFrameSizeBytes) :
    s.readOnce env =
      (dispatchHandshake env { s with reads := [], readBuf := f, socket := rest }).finishFrame := by
  have htot := h.totalBytesRead
  rw [readOnce_of_frameMode env h hs hf]
  rcases s with ⟨_, _, _, _, _, _, _, _, _, _, _⟩
  subst htot hst
  simp only [readMessageFrameCallback, Nat.zero_add, if_true, arrive_zero]

theorem readOnce_hello {s : Session} {f rest : Bytes} (env : Env) (h : s.FrameMode)
    (hst : s.state = .unprepared) (hs : s.socket = f ++ rest)
    (hf : f.length = messageFrameSizeBytes) (hm : at_ f 9 = BVTCPMessageType.hello)
    (h16 : at_ f 16 = BVTCPMessageType.hello) :
    s.readOnce env = s.consumed rest [.handed .hello f,
      .writeMessageFrame (replyMsg env s.thisMachineServiceName), .eraseWriteBuf] := by
  have hr := h.reads
  have htot := h.totalBytesRead
  rw [readOnce_of_unprepared env h hst hs hf]
  rcases s with ⟨_, _, _, _, _, _, _, _, _, _, _⟩
  subst hr htot hst
  simp [dispatchHandshake, getMsgHeader, hm, onReceiveHelloFrame, h16, emit, startReadingFrames,
    finishFrame, clearReadBuffer, consumed]

theorem readOnce_confirm {s : Session} {f rest : Bytes} (env : Env) (h : s.FrameMode)
    (hst : s.state = .unprepared) (hs : s.socket = f ++ rest)
    (hf : f.length = messageFrameSizeBytes)
    (hm : at_ f 9 = BVTCPMessageType.confirmEstablished) :
    s.readOnce env =
      { s with state := .established }.consumed rest [.handed .confirmEstablished f] := by
  have hr := h.reads
  have htot := h.totalBytesRead
  rw [readOnce_of_unprepared env h hst hs hf]
  rcases s with ⟨_, _, _, _, _, _, _, _, _, _, _⟩
  subst hr htot hst
  simp [dispatchHandshake, getMsgHeader, hm, onReceiveConfirmEstablished, emit, startReadingFrames,
    finishFrame, clearReadBuffer, consumed]

theorem readOnce_helloBack {s : Session} {f rest : Bytes} (env : Env) (h : s.FrameMode)
    (hst : s.state = .unprepared) (hs : s.socket = f ++ rest)
    (hf : f.length = messageFrameSizeBytes) (hm : at_ f 9 = BVTCPMessageType.helloBack)
    (hlen : at_ f 0 ≤ 128) {name : Bytes}
    (hname : (f.drop headerSizeBytes).take (at_ f 0).toNat = name)
    (hfresh : env.isSessionAlreadyPresent name = false) :
    s.readOnce env = { s with state := .established, serviceName := name }.consumed rest
      [.handed .helloBack f, .registerSession name,
        .writeMessageFrame (confirmEstablishedMessage env.now)] := by
  have hr := h.reads
  have htot := h.totalBytesRead
  have hne : f ≠ [] := by rintro rfl; simp at hf
  have hlen' : ¬ 128 < at_ f 0 := UInt8.not_lt.mpr hlen
  rw [readOnce_of_unprepared env h hst hs hf]
  rcases s with ⟨_, _, _, _, _, _, _, _, _, _, _⟩
  subst hr htot hst
  simp [dispatchHandshake, getMsgHeader, hm, onReceiveHelloBackFrame, hlen', getPayloadPtr,
    hne, hname, handleSessionIdentification, hfresh, emit, startReadingFrames, finishFrame,
    clearReadBuffer, consumed, confirmEstablishedMessage]

theorem readOnce_of_empty {s : Session} (env : Env) (h : s.FrameMode) (hs : s.socket = []) :
    s.readOnce env = s := by
  have hr := h.reads
  rcases s with ⟨_, _, _, _, _, _, _, _, _, _, _⟩
  subst hr hs
  simp [readOnce, arrive, completeRead]

theorem readOnce_of_no_reads {s : Session} (env : Env) (h : s.reads = []) : s.readOnce env = s := by
  rw [readOnce, h]

end Session

/-! ### The frames -/

theorem at_messageFrame_payload (m : BVTCPMessage) (i : Nat) :
    at_ (messageFrame m) (headerSizeBytes + i) = at_ m.payload.data i := by
  have hidx : headerSizeBytes + i = 8 + 1 + i + 1 := by simp only [headerSizeBytes]; omega
  rw [messageFrame, hidx, List.cons_append, at_cons_succ, at_append_right (by simp; omega),
    length_toLE, show 8 + 1 + i - 8 = i + 1 by omega, at_cons_succ]

theorem at_zero_hello (now : UInt64) : at_ (messageFrame (Session.helloMsg now)) 16 = 0 :=
  at_messageFrame_payload (Session.helloMsg now) 6

theorem dataLen_replyMsg {name : Bytes} (h : name.length ≤ 128) (env : Env) :
    (at_ (messageFrame (Session.replyMsg env name)) 0).toNat = name.length := by
  show (UInt8.ofNat name.length).toNat = name.length
  rw [UInt8.toNat_ofNat', Nat.mod_eq_of_lt (by omega)]

theorem name_replyMsg {name : Bytes} (h : name.length ≤ 128) (env : Env) :
    ((messageFrame (Session.replyMsg env name)).drop headerSizeBytes).take
      (at_ (messageFrame (Session.replyMsg env name)) 0).toNat = name := by
  rw [drop_messageFrame, dataLen_replyMsg h]
  show ((name ++ env.uninit.data.drop name.length).take payloadSizeBytes).take name.length = name
  rw [List.take_take, Nat.min_eq_left (by simpa using h), List.take_left' rfl]

/-! ### One connection -/

/-- The two hosts of a connection.  `B` has no session for `A` yet. -/
structure Hosts where
  nameA : Bytes
  nameB : Bytes
  /-- `IsSessionAlreadyPresent` of `B`'s manager -/
  present : Bytes → Bool
  fresh : present nameA = false

structure Link where
  a : Session
  b : Session
  /-- `A`'s `ConnectHandler` has run: its session is in `sessions_m` -/
  connected : Bool
  /-- `B`'s accept handler has run -/
  accepted : Bool
  /-- `A`'s write handler for HELLOBACK has run -/
  answered : Bool
  /-- the chat messages for which `SendDataToNode` has returned OK -/
  sent : List (UInt64 × Bytes)

inductive Move
  | connectHandler
  | accept (now : UInt64)
  | arriveAtA (n : Nat)
  | arriveAtB (n : Nat)
  /-- the callback of a full read at `A`, with the bytes that arrive while it runs -/
  | completeAtA (env : Env) (w : Window)
  | completeAtB (env : Env) (w : Window)
  | writeHandler
  | sendChat (now : UInt64) (text : Bytes)

namespace Link

def written (s s' : Session) : Bytes :=
  (s'.log.drop s.log.length).flatMap fun
    | .writeMessageFrame m => messageFrame m
    | _ => []

def start (h : Hosts) : Link where
  a := Session.construct h.nameA h.nameB
  b := Session.construct h.nameB []
  connected := false
  accepted := false
  answered := false
  sent := []

def push (s : Session) (bs : Bytes) : Session := { s with socket := s.socket ++ bs }

/-- `SendDataToNode` on `A`, which finds the session once it is listed. -/
def sendDataToNode (now : UInt64) (text : Bytes) (l : Link) : BVStatus × Link :=
  if l.connected then
    (.ok, { l with
      b := push l.b (messageFrame (constructChatMessageFromInput now text))
      sent := l.sent ++ [(now, text)] })
  else (.fatalError, l)

def greeted (s : Session) : Bool :=
  s.log.any fun
    | .handed .hello _ => true
    | _ => false

/-- `A` has become `a`; what it has written meanwhile is on its way to `B`. -/
def setA (a : Session) (l : Link) : Link := { l with a := a, b := push l.b (written l.a a) }

def setB (b : Session) (l : Link) : Link := { l with a := push l.a (written l.b b), b := b }

def envOfB (h : Hosts) (env : Env) : Env := { env with isSessionAlreadyPresent := h.present }

def step (h : Hosts) (l : Link) : Move → Link
  | .connectHandler =>
    if l.connected then l else { l with a := l.a.startReadingFrames, connected := true }
  | .accept now =>
    if l.accepted then l
    else { l with
      a := push l.a (messageFrame (Session.helloMsg now))
      b := l.b.startReadingFrames
      accepted := true }
  | .arriveAtA n => { l with a := l.a.arrive n }
  | .arriveAtB n => { l with b := l.b.arrive n }
  | .completeAtA env w => l.setA (l.a.completeRead env w)
  | .completeAtB env w => l.setB (l.b.completeRead (envOfB h env) w)
  | .writeHandler => { l with answered := l.answered || greeted l.a }
  | .sendChat now text => (l.sendDataToNode now text).2

/-- Only zeros arrive inside a callback.  A chat message is sent only after HELLOBACK has been
written, and is not taken for a file frame; and the name of `A` fits the answer. -/
def Safe (h : Hosts) (l : Link) : Move → Prop
  | .sendChat _ text =>
    l.connected = true → l.answered = true ∧ Session.isFileFrameType (at_ text 2) = false
  | .completeAtA _ w => h.nameA.length ≤ 128 ∧ l.a.Calm w
  | .completeAtB _ w => l.b.Calm w
  | _ => True

def event (h : Hosts) (c : UInt64 × Bytes) : AppEvent :=
  .messageIncoming (c.2.take payloadSizeBytes) c.1 h.nameA

def stream (cs : List (UInt64 × Bytes)) : Bytes :=
  cs.flatMap fun c => messageFrame (constructChatMessageFromInput c.1 c.2)

/-! ### The stages -/

structure AReady (h : Hosts) (l : Link) (incoming : Bytes) : Prop where
  state : l.a.state = .unprepared
  name : l.a.thisMachineServiceName = h.nameA
  notGreeted : greeted l.a = false
  notAnswered : l.answered = false
  totalBytesRead : l.a.totalBytesRead = 0
  readBuf : l.a.readBuf.length = messageFrameSizeBytes
  reads : l.a.reads = if l.connected then [⟨.frame, 0, messageFrameSizeBytes, 0⟩] else []
  socket : l.a.socket = incoming

/-- `A` is listed, in state `st`, and waits for a frame. -/
structure AWaits (l : Link) (st : BVSessionState) (incoming : Bytes) : Prop where
  connected : l.connected = true
  frameMode : l.a.FrameMode
  state : l.a.state = st
  socket : l.a.socket = incoming

structure BWaits (l : Link) (incoming : Bytes) : Prop where
  frameMode : l.b.FrameMode
  state : l.b.state = .unprepared
  socket : l.b.socket = incoming
  mailbox : mailboxOf l.b.log = []

/-- `B` knows `A`; it has passed the messages `done` on to its app, and `rest` is on its way. -/
structure BServes (h : Hosts) (l : Link) (done rest : List (UInt64 × Bytes)) : Prop where
  frameMode : l.b.FrameMode
  state : l.b.state = .established
  serviceName : l.b.serviceName = h.nameA
  socket : l.b.socket = stream rest
  mailbox : mailboxOf l.b.log = done.map (event h)
  sent : l.sent = done ++ rest
  plain : ∀ c ∈ rest, Session.isFileFrameType (at_ c.2 2) = false

inductive Phase (h : Hosts) (l : Link) : Prop
  | untouched : AReady h l [] → l.b = Session.construct h.nameB [] → l.accepted = false →
      l.sent = [] → Phase h l
  | greeted (now : UInt64) : AReady h l (messageFrame (Session.helloMsg now)) → BWaits l [] →
      l.accepted = true → l.sent = [] → Phase h l
  | answered (env : Env) : AWaits l .unprepared [] → h.nameA.length ≤ 128 →
      BWaits l (messageFrame (Session.replyMsg env h.nameA) ++ stream l.sent) →
      l.accepted = true → (∀ c ∈ l.sent, Session.isFileFrameType (at_ c.2 2) = false) → Phase h l
  | identified (now : UInt64) (done rest : List (UInt64 × Bytes)) :
      AWaits l .unprepared (messageFrame (Session.confirmEstablishedMessage now)) →
      BServes h l done rest → l.accepted = true → Phase h l
  | settled (done rest : List (UInt64 × Bytes)) : AWaits l .established [] →
      BServes h l done rest → l.accepted = true → Phase h l

theorem start_phase (h : Hosts) : Phase h (start h) :=
  .untouched ⟨rfl, rfl, rfl, rfl, rfl, List.length_replicate, rfl, rfl⟩ rfl rfl rfl

/-! ### Undisturbed deliveries -/

/-- `A` reads its next frame, undisturbed. -/
def deliverToA (env : Env) (l : Link) : Link := l.setA (l.a.readOnce env)

def deliverToB (h : Hosts) (env : Env) (l : Link) : Link := l.setB (l.b.readOnce (envOfB h env))

@[simp] theorem push_nil (s : Session) : push s [] = s := by
  rw [push, List.append_nil]

theorem push_frameMode {s : Session} (h : s.FrameMode) (bs : Bytes) : (push s bs).FrameMode :=
  ⟨h.reads, h.totalBytesRead, h.readBuf⟩

theorem written_of_log {s s' : Session} {es : List Effect} (hlog : s'.log = s.log ++ es) :
    written s s' = es.flatMap fun
      | .writeMessageFrame m => messageFrame m
      | _ => [] := by
  rw [written, hlog, List.drop_left' rfl]

@[simp] theorem written_self (s : Session) : written s s = [] := by
  simp [written]

@[simp] theorem setA_self (l : Link) : l.setA l.a = l := by
  rw [setA, written_self, push_nil]

@[simp] theorem setB_self (l : Link) : l.setB l.b = l := by
  rw [setB, written_self, push_nil]

theorem deliverToA_same {l : Link} {env : Env} (hread : l.a.readOnce env = l.a) :
    l.deliverToA env = l := by
  rw [deliverToA, hread, setA_self]

theorem deliverToB_same {h : Hosts} {l : Link} {env : Env}
    (hread : l.b.readOnce (envOfB h env) = l.b) : l.deliverToB h env = l := by
  rw [deliverToB, hread, setB_self]

theorem AReady.readOnce_same {h : Hosts} {l : Link} (ha : AReady h l []) (env : Env) :
    l.a.readOnce env = l.a := by
  have hreads := ha.reads
  cases hc : l.connected with
  | true =>
    rw [hc, if_pos rfl] at hreads
    exact Session.readOnce_of_empty env ⟨hreads, ha.totalBytesRead, ha.readBuf⟩ ha.socket
  | false =>
    rw [hc, if_neg Bool.false_ne_true] at hreads
    exact Session.readOnce_of_no_reads env hreads

/-! ### One step between undisturbed reads -/

theorem AReady.connect {h : Hosts} {l : Link} {incoming : Bytes} (ha : AReady h l incoming)
    (hc : l.connected = false) :
    AReady h { l with a := l.a.startReadingFrames, connected := true } incoming := by
  have hreads := ha.reads
  rw [hc, if_neg Bool.false_ne_true] at hreads
  refine ⟨ha.state, ha.name, ha.notGreeted, ha.notAnswered, ha.totalBytesRead, ha.readBuf, ?_,
    ha.socket⟩
  simp [Session.startReadingFrames, hreads, ha.totalBytesRead]

theorem phase_connectHandler {h : Hosts} {l : Link} (hp : Phase h l) :
    Phase h (l.step h .connectHandler) := by
  cases hc : l.connected with
  | true =>
    rw [step, hc, if_pos rfl]
    exact hp
  | false =>
    rw [step, hc, if_neg Bool.false_ne_true]
    cases hp with
    | untouched ha hb hacc hsent => exact .untouched (ha.connect hc) hb hacc hsent
    | greeted now ha hb hacc hsent =>
      exact .greeted now (ha.connect hc) ⟨hb.frameMode, hb.state, hb.socket, hb.mailbox⟩ hacc hsent
    | answered env ha _ _ _ _ => exact absurd (hc.symm.trans ha.connected) (by decide)
    | identified now done rest ha _ _ => exact absurd (hc.symm.trans ha.connected) (by decide)
    | settled done rest ha _ _ => exact absurd (hc.symm.trans ha.connected) (by decide)

theorem phase_accept {h : Hosts} {l : Link} (hp : Phase h l) (now : UInt64) :
    Phase h (l.step h (.accept now)) := by
  cases hacc : l.accepted with
  | true =>
    rw [step, hacc, if_pos rfl]
    exact hp
  | false =>
    rw [step, hacc, if_neg Bool.false_ne_true]
    cases hp with
    | untouched ha hb _ hsent =>
      refine .greeted now ⟨ha.state, ha.name, ha.notGreeted, ha.notAnswered, ha.totalBytesRead,
        ha.readBuf, ha.reads, ?_⟩ ?_ rfl hsent
      · show l.a.socket ++ _ = _
        rw [ha.socket, List.nil_append]
      · rw [hb]
        exact ⟨⟨rfl, rfl, List.length_replicate⟩, rfl, rfl, rfl⟩
    | greeted _ _ _ h' _ => exact absurd (hacc.symm.trans h') (by decide)
    | answered _ _ _ _ h' _ => exact absurd (hacc.symm.trans h') (by decide)
    | identified _ _ _ _ _ h' => exact absurd (hacc.symm.trans h') (by decide)
    | settled _ _ _ _ h' => exact absurd (hacc.symm.trans h') (by decide)

theorem AReady.answer {h : Hosts} {l : Link} {now : UInt64}
    (ha : AReady h l (messageFrame (Session.helloMsg now))) (hb : BWaits l [])
    (hsent : l.sent = []) (hc : l.connected = true) (env : Env) :
    AWaits (l.deliverToA env) .unprepared [] ∧
      BWaits (l.deliverToA env)
        (messageFrame (Session.replyMsg env h.nameA) ++ stream l.sent) := by
  have hreads := ha.reads
  rw [hc, if_pos rfl] at hreads
  have hmode : l.a.FrameMode := ⟨hreads, ha.totalBytesRead, ha.readBuf⟩
  have hread := Session.readOnce_hello env hmode ha.state
    (ha.socket.trans (List.append_nil _).symm) (length_messageFrame _) (msgType_messageFrame _)
    (at_zero_hello now)
  rw [ha.name] at hread
  simp only [deliverToA, setA, hread]
  refine ⟨⟨hc, hmode.consumed _ _, ha.state, rfl⟩,
    ⟨push_frameMode hb.frameMode _, hb.state, ?_, hb.mailbox⟩⟩
  show l.b.socket ++ written l.a (l.a.consumed _ _) = _
  rw [hb.socket, written_of_log (by rfl), hsent]
  simp [stream]

theorem AWaits.confirm {l : Link} {now : UInt64}
    (ha : AWaits l .unprepared (messageFrame (Session.confirmEstablishedMessage now))) (env : Env) :
    AWaits (l.deliverToA env) .established [] ∧ (l.deliverToA env).b = l.b := by
  have hread := Session.readOnce_confirm env ha.frameMode ha.state
    (ha.socket.trans (List.append_nil _).symm) (length_messageFrame _) (msgType_messageFrame _)
  have hwritten : written l.a (l.a.readOnce env) = [] := by
    rw [hread, written_of_log (by rfl)]
    rfl
  simp only [deliverToA, setA, hwritten, push_nil]
  rw [hread]
  exact ⟨⟨ha.connected, ⟨ha.frameMode.reads, ha.frameMode.totalBytesRead, List.length_replicate⟩,
    rfl, rfl⟩, trivial⟩

theorem BServes.of_eq {h : Hosts} {l l' : Link} {done rest : List (UInt64 × Bytes)}
    (hb : BServes h l done rest) (hsame : l'.b = l.b) (hsent : l'.sent = l.sent) :
    BServes h l' done rest := by
  refine ⟨?_, ?_, ?_, ?_, ?_, hsent.trans hb.sent, hb.plain⟩
  · rw [hsame]; exact hb.frameMode
  · rw [hsame]; exact hb.state
  · rw [hsame]; exact hb.serviceName
  · rw [hsame]; exact hb.socket
  · rw [hsame]; exact hb.mailbox

theorem BWaits.of_eq {l l' : Link} {incoming : Bytes} (hb : BWaits l incoming)
    (hsame : l'.b = l.b) : BWaits l' incoming := by
  refine ⟨?_, ?_, ?_, ?_⟩
  · rw [hsame]; exact hb.frameMode
  · rw [hsame]; exact hb.state
  · rw [hsame]; exact hb.socket
  · rw [hsame]; exact hb.mailbox

theorem AWaits.of_eq {l l' : Link} {st : BVSessionState} {incoming : Bytes}
    (ha : AWaits l st incoming) (hsame : l'.a = l.a) (hc : l'.connected = l.connected) :
    AWaits l' st incoming := by
  refine ⟨hc.trans ha.connected, ?_, ?_, ?_⟩
  · rw [hsame]; exact ha.frameMode
  · rw [hsame]; exact ha.state
  · rw [hsame]; exact ha.socket

theorem phase_deliverToA {h : Hosts} {l : Link} (hp : Phase h l) (hname : h.nameA.length ≤ 128)
    (env : Env) : Phase h (l.deliverToA env) := by
  cases hp with
  | untouched ha hb hacc hsent =>
    rw [deliverToA_same (ha.readOnce_same env)]
    exact .untouched ha hb hacc hsent
  | greeted now ha hb hacc hsent =>
    cases hc : l.connected with
    | false =>
      have hreads := ha.reads
      rw [hc, if_neg Bool.false_ne_true] at hreads
      rw [deliverToA_same (Session.readOnce_of_no_reads env hreads)]
      exact .greeted now ha hb hacc hsent
    | true =>
      obtain ⟨ha', hb'⟩ := ha.answer hb hsent hc env
      refine .answered env ha' hname hb' hacc ?_
      show ∀ c ∈ l.sent, _
      rw [hsent]
      intro c hmem
      cases hmem
  | answered env' ha hlen hb hacc hplain =>
    rw [deliverToA_same (Session.readOnce_of_empty env ha.frameMode ha.socket)]
    exact .answered env' ha hlen hb hacc hplain
  | identified now done rest ha hb hacc =>
    obtain ⟨ha', hsame⟩ := ha.confirm env
    exact .settled done rest ha' (hb.of_eq hsame rfl) hacc
  | settled done rest ha hb hacc =>
    rw [deliverToA_same (Session.readOnce_of_empty env ha.frameMode ha.socket)]
    exact .settled done rest ha hb hacc

theorem BWaits.identify {h : Hosts} {l : Link} {env₀ : Env} (ha : AWaits l .unprepared [])
    (hname : h.nameA.length ≤ 128)
    (hb : BWaits l (messageFrame (Session.replyMsg env₀ h.nameA) ++ stream l.sent))
    (hplain : ∀ c ∈ l.sent, Session.isFileFrameType (at_ c.2 2) = false) (env : Env) :
    AWaits (l.deliverToB h env) .unprepared
        (messageFrame (Session.confirmEstablishedMessage env.now)) ∧
      BServes h (l.deliverToB h env) [] l.sent := by
  have hlen : at_ (messageFrame (Session.replyMsg env₀ h.nameA)) 0 ≤ 128 := by
    rw [UInt8.le_iff_toNat_le, dataLen_replyMsg hname]
    exact hname
  have hread := Session.readOnce_helloBack (envOfB h env)
    hb.frameMode hb.state hb.socket (length_messageFrame _) (msgType_messageFrame _) hlen
    (name_replyMsg hname env₀) h.fresh
  simp only [deliverToB, setB, hread]
  refine ⟨⟨ha.connected, push_frameMode ha.frameMode _, ha.state, ?_⟩,
    ⟨⟨hb.frameMode.reads, hb.frameMode.totalBytesRead, List.length_replicate⟩, rfl, rfl,
      rfl, ?_, rfl,
      hplain⟩⟩
  · show l.a.socket ++ written l.b _ = _
    rw [ha.socket, written_of_log (by rfl)]
    simp [envOfB]
  · show mailboxOf (l.b.log ++ _) = _
    rw [mailboxOf_append, hb.mailbox]
    rfl

/-- A delivery to `B` once it knows `A`: the next chat message goes to the app. -/
theorem BServes.deliver {h : Hosts} {l : Link} {done rest : List (UInt64 × Bytes)}
    (hb : BServes h l done rest) (env : Env) :
    (l.deliverToB h env).a = l.a ∧
      BServes h (l.deliverToB h env) (done ++ rest.take 1) (rest.drop 1) := by
  cases rest with
  | nil =>
    have hsame : l.deliverToB h env = l :=
      deliverToB_same (Session.readOnce_of_empty _ hb.frameMode hb.socket)
    rw [hsame]
    exact ⟨rfl, by simpa using hb⟩
  | cons c cs =>
    have hsock : l.b.socket = (PeerFrame.chat c.1 c.2).bytes ++ stream cs := hb.socket
    have htype : Session.isFileFrameType (at_ (PeerFrame.chat c.1 c.2).bytes 12) = false := by
      rw [fileType_chat]
      exact hb.plain c List.mem_cons_self
    obtain ⟨hmode, hhandled⟩ := Session.readOnce_chatMessage
      (envOfB h env) hb.frameMode hb.state hsock
      (PeerFrame.length_bytes _) (PeerFrame.msgType_bytes _) htype
    have hwritten : written l.b
        (l.b.readOnce (envOfB h env)) = [] := by
      rw [written_of_log hhandled.log]
      rfl
    simp only [deliverToB, setB, hwritten, push_nil]
    refine ⟨trivial, hmode, hhandled.state.trans hb.state,
      hhandled.serviceName.trans hb.serviceName,
      hhandled.socket, ?_, ?_, fun d hd => hb.plain d (List.mem_cons_of_mem c hd)⟩
    · rw [hhandled.log, mailboxOf_append, hb.mailbox, chatEvent_chat, hb.serviceName]
      simp [mailboxOf, event]
    · rw [hb.sent]
      simp

theorem phase_deliverToB {h : Hosts} {l : Link} (hp : Phase h l) (env : Env) :
    Phase h (l.deliverToB h env) := by
  cases hp with
  | untouched ha hb hacc hsent =>
    rw [deliverToB_same (Session.readOnce_of_no_reads _ (by rw [hb]; rfl))]
    exact .untouched ha hb hacc hsent
  | greeted now ha hb hacc hsent =>
    rw [deliverToB_same (Session.readOnce_of_empty _ hb.frameMode hb.socket)]
    exact .greeted now ha hb hacc hsent
  | answered env₀ ha hname hb hacc hplain =>
    obtain ⟨ha', hb'⟩ := hb.identify ha hname hplain env
    exact .identified env.now [] l.sent ha' hb' hacc
  | identified now done rest ha hb hacc =>
    obtain ⟨hsame, hb'⟩ := hb.deliver env
    exact .identified now _ _ (ha.of_eq hsame rfl) hb' hacc
  | settled done rest ha hb hacc =>
    obtain ⟨hsame, hb'⟩ := hb.deliver env
    exact .settled _ _ (ha.of_eq hsame rfl) hb' hacc

theorem stream_append (cs : List (UInt64 × Bytes)) (c : UInt64 × Bytes) :
    stream (cs ++ [c]) = stream cs ++ messageFrame (constructChatMessageFromInput c.1 c.2) := by
  simp [stream]

theorem plain_append {cs : List (UInt64 × Bytes)} {c : UInt64 × Bytes}
    (hcs : ∀ d ∈ cs, Session.isFileFrameType (at_ d.2 2) = false)
    (hc : Session.isFileFrameType (at_ c.2 2) = false) :
    ∀ d ∈ cs ++ [c], Session.isFileFrameType (at_ d.2 2) = false := by
  intro d hd
  rcases List.mem_append.mp hd with hd | hd
  · exact hcs d hd
  · rw [List.mem_singleton.mp hd]
    exact hc

theorem BServes.send {h : Hosts} {l : Link} {done rest : List (UInt64 × Bytes)}
    (hb : BServes h l done rest) (now : UInt64) {text : Bytes}
    (htext : Session.isFileFrameType (at_ text 2) = false) :
    BServes h { l with
      b := push l.b (messageFrame (constructChatMessageFromInput now text))
      sent := l.sent ++ [(now, text)] } done (rest ++ [(now, text)]) where
  frameMode := push_frameMode hb.frameMode _
  state := hb.state
  serviceName := hb.serviceName
  socket := by
    show l.b.socket ++ _ = _
    rw [hb.socket, stream_append]
  mailbox := hb.mailbox
  sent := by
    show l.sent ++ _ = _
    rw [hb.sent, List.append_assoc]
  plain := plain_append hb.plain htext

theorem phase_sendChat {h : Hosts} {l : Link} (hp : Phase h l) {now : UInt64} {text : Bytes}
    (hsafe : Safe h l (.sendChat now text)) : Phase h (l.step h (.sendChat now text)) := by
  cases hc : l.connected with
  | false =>
    simp only [step, sendDataToNode, hc, Bool.false_eq_true, if_false]
    exact hp
  | true =>
    obtain ⟨hanswered, htext⟩ := hsafe hc
    simp only [step, sendDataToNode, hc, if_true]
    cases hp with
    | untouched ha hb hacc hsent =>
      exact absurd (ha.notAnswered.symm.trans hanswered) Bool.false_ne_true
    | greeted now' ha hb hacc hsent =>
      exact absurd (ha.notAnswered.symm.trans hanswered) Bool.false_ne_true
    | answered env ha hname hb hacc hplain =>
      refine .answered env ⟨rfl, ha.frameMode, ha.state, ha.socket⟩ hname
        ⟨push_frameMode hb.frameMode _, hb.state, ?_, hb.mailbox⟩ hacc (plain_append hplain htext)
      show l.b.socket ++ _ = _
      rw [hb.socket, stream_append, List.append_assoc]
    | identified now' done rest ha hb hacc =>
      have hb' := hb.send now htext
      rw [hc] at hb'
      exact .identified now' done _ ⟨rfl, ha.frameMode, ha.state, ha.socket⟩ hb' hacc
    | settled done rest ha hb hacc =>
      have hb' := hb.send now htext
      rw [hc] at hb'
      exact .settled done _ ⟨rfl, ha.frameMode, ha.state, ha.socket⟩ hb' hacc

theorem phase_writeHandler {h : Hosts} {l : Link} (hp : Phase h l) :
    Phase h (l.step h .writeHandler) := by
  cases hp with
  | untouched ha hb hacc hsent =>
    have hflag : (l.answered || Link.greeted l.a) = false := by
      rw [ha.notAnswered, ha.notGreeted]
      rfl
    exact .untouched ⟨ha.state, ha.name, ha.notGreeted, hflag, ha.totalBytesRead, ha.readBuf,
      ha.reads, ha.socket⟩ hb hacc hsent
  | greeted now ha hb hacc hsent =>
    have hflag : (l.answered || Link.greeted l.a) = false := by
      rw [ha.notAnswered, ha.notGreeted]
      rfl
    exact .greeted now ⟨ha.state, ha.name, ha.notGreeted, hflag, ha.totalBytesRead, ha.readBuf,
      ha.reads, ha.socket⟩ (hb.of_eq rfl) hacc hsent
  | answered env ha hname hb hacc hplain =>
    exact .answered env (ha.of_eq rfl rfl) hname (hb.of_eq rfl) hacc hplain
  | identified now done rest ha hb hacc =>
    exact .identified now done rest (ha.of_eq rfl rfl) (hb.of_eq rfl rfl) hacc
  | settled done rest ha hb hacc =>
    exact .settled done rest (ha.of_eq rfl rfl) (hb.of_eq rfl rfl) hacc

end Link

end LocalChat
