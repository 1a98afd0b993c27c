import LocalChat.World.Basic

/-!
# The frames of the two hosts

`World.receive` says what a session makes of a handshake frame by what it does to the manager.  Here
it is compared with the session itself, which reads the bytes of the frame off its socket.

`receive_readOnce`: one undisturbed read leaves the session in the state and under the name the
manager has for it, and writes the frames of the answer.
-/

namespace LocalChat

open Octets

inductive HandshakeFrame.Carries : BVTCPMessage → HandshakeFrame → Prop
  | hello (now : UInt64) : Carries (Session.helloMsg now) .hello
  | helloBack (env : Env) (thisMachine : Bytes) :
      Carries (Session.replyMsg env thisMachine) (.reply env thisMachine)
  | confirmEstablished (now : UInt64) :
      Carries (Session.confirmEstablishedMessage now) .confirmEstablished

namespace Session

structure Mirrors (x : Session) (m : BVTCPConnectionManager) (r : SessionRef) : Prop where
  state : x.state = (m.data r).state
  serviceName : x.serviceName = m.nameOf r
  thisMachine : x.thisMachineServiceName = m.thisMachine

variable {x : Session} {f rest : Bytes}

theorem readOnce_helloBack_long (env : Env) (h : x.FrameMode) (hst : x.state = .unprepared)
    (hs : x.socket = f ++ rest) (hf : f.length = messageFrameSizeBytes)
    (hm : at_ f 9 = BVTCPMessageType.helloBack) (hlen : 128 < at_ f 0) :
    x.readOnce env = { x.consumed rest [.handed .helloBack f] with reads := [] } := by
  have hr := h.reads
  have htot := h.totalBytesRead
  rw [readOnce_of_unprepared env h hst hs hf]
  rcases x with ⟨_, _, _, _, _, _, _, _, _, _, _⟩
  subst hr htot hst
  simp [dispatchHandshake, getMsgHeader, hm, onReceiveHelloBackFrame, hlen, emit, finishFrame,
    clearReadBuffer, consumed]

theorem readOnce_helloBack_present (env : Env) (h : x.FrameMode) (hst : x.state = .unprepared)
    (hs : x.socket = f ++ rest) (hf : f.length = messageFrameSizeBytes)
    (hm : at_ f 9 = BVTCPMessageType.helloBack) (hlen : at_ f 0 ≤ 128)
    (hpresent : env.isSessionAlreadyPresent
      ((f.drop headerSizeBytes).take (at_ f 0).toNat) = true) :
    x.readOnce env = { x with
      state := .closed
      readBuf := []
      reads := []
      socket := rest
      log := x.log ++ [.handed .helloBack f, .eraseWriteBuf] } := by
  have hr := h.reads
  have htot := h.totalBytesRead
  have hne : f ≠ [] := by rintro rfl; simp at hf
  have hlen' : ¬ 128 < at_ f 0 := UInt8.not_lt.mpr hlen
  rw [readOnce_of_unprepared env h hst hs hf]
  rcases x with ⟨_, _, _, _, _, _, _, _, _, _, _⟩
  subst hr htot hst
  simp [dispatchHandshake, getMsgHeader, hm, onReceiveHelloBackFrame, hlen', getPayloadPtr, hne,
    handleSessionIdentification, hpresent, emit, finishFrame, close]

end Session

namespace World

open Session HandshakeFrame

variable {x : Session} {m : BVTCPConnectionManager} {r : SessionRef} {f : HandshakeFrame}
  {msg : BVTCPMessage} {rest : Bytes} {env : Env}

/-- The read of a frame and `receive` come to the same. -/
structure SameRead (x x' : Session) (r : SessionRef)
    (p : BVTCPConnectionManager × List HandshakeFrame × Bool) : Prop where
  mirrors : x'.Mirrors p.1 r
  answer : ∃ msgs, List.Forall₂ Carries msgs p.2.1 ∧
    Link.written x x' = msgs.flatMap messageFrame
  closes : p.2.2 = true ↔ x'.state = .closed

theorem receive_hello (h : x.FrameMode) (hu : m.Unprepared r) (hx : x.Mirrors m r) (now : UInt64)
    (hs : x.socket = messageFrame (helloMsg now) ++ rest) :
    SameRead x (x.readOnce env) r (receive env r m .hello) := by
  have hst : x.state = .unprepared := hx.state.trans hu.2
  have hread := readOnce_hello env h hst hs (length_messageFrame _) (msgType_messageFrame _)
    (at_zero_hello now)
  rw [hread, receive, if_neg (not_not.mpr hu), hx.thisMachine]
  refine ⟨⟨hx.state, hx.serviceName, hx.thisMachine⟩,
    ⟨[replyMsg env m.thisMachine], .cons (.helloBack env _) .nil, ?_⟩, ?_⟩
  · rw [Link.written_of_log (by rfl)]
    simp
  · simp [consumed, hst]

theorem receive_confirm (h : x.FrameMode) (hu : m.Unprepared r) (hx : x.Mirrors m r)
    (now : UInt64) (hs : x.socket = messageFrame (confirmEstablishedMessage now) ++ rest) :
    SameRead x (x.readOnce env) r (receive env r m .confirmEstablished) := by
  have hst : x.state = .unprepared := hx.state.trans hu.2
  have hread := readOnce_confirm env h hst hs (length_messageFrame _) (msgType_messageFrame _)
  rw [hread, receive, if_neg (not_not.mpr hu)]
  refine ⟨⟨?_, ?_, hx.thisMachine⟩, ⟨[], .nil, ?_⟩, ?_⟩
  · simp [consumed, BVTCPConnectionManager.setState]
  · simp [consumed, BVTCPConnectionManager.setState, BVTCPConnectionManager.nameOf,
      hx.serviceName]
  · rw [Link.written_of_log (by rfl)]
    rfl
  · simp [consumed]

/-- A HELLOBACK frame is refused for its length, refused for its name, or accepted. -/
theorem receive_helloBack (h : x.FrameMode) (hu : m.Unprepared r) (hx : x.Mirrors m r)
    (henv : ∀ n, env.isSessionAlreadyPresent n = m.isSessionAlreadyPresent n) (env₀ : Env)
    (name : Bytes) (hs : x.socket = messageFrame (replyMsg env₀ name) ++ rest) :
    SameRead x (x.readOnce env) r (receive env r m (.reply env₀ name)) := by
  have hst : x.state = .unprepared := hx.state.trans hu.2
  have hf := length_messageFrame (replyMsg env₀ name)
  have hm := msgType_messageFrame (replyMsg env₀ name)
  rw [reply]
  by_cases hlen : 128 < at_ (messageFrame (replyMsg env₀ name)) 0
  · rw [if_pos hlen, receive, if_neg (not_not.mpr hu),
      readOnce_helloBack_long env h hst hs hf hm hlen]
    refine ⟨⟨hx.state, hx.serviceName, hx.thisMachine⟩, ⟨[], .nil, ?_⟩, ?_⟩
    · rw [Link.written_of_log (by rfl)]
      rfl
    · simp [consumed, hst]
  rw [if_neg hlen, receive, if_neg (not_not.mpr hu)]
  cases hp : m.isSessionAlreadyPresent ((messageFrame (replyMsg env₀ name)).drop headerSizeBytes
      |>.take (at_ (messageFrame (replyMsg env₀ name)) 0).toNat) with
  | true =>
    rw [readOnce_helloBack_present env h hst hs hf hm (UInt8.not_lt.mp hlen)
      ((henv _).trans hp)]
    simp only [hp, BVTCPConnectionManager.handleSessionIdentification, if_true]
    refine ⟨⟨?_, ?_, hx.thisMachine⟩, ⟨[], .nil, ?_⟩, ?_⟩
    · simp [BVTCPConnectionManager.setState]
    · simp [BVTCPConnectionManager.setState, BVTCPConnectionManager.nameOf, hx.serviceName]
    · rw [Link.written_of_log (by rfl)]
      rfl
    · simp
  | false =>
    rw [readOnce_helloBack env h hst hs hf hm (UInt8.not_lt.mp hlen) rfl ((henv _).trans hp)]
    simp only [hp, BVTCPConnectionManager.handleSessionIdentification, if_neg Bool.false_ne_true]
    refine ⟨⟨?_, ?_, hx.thisMachine⟩,
      ⟨[confirmEstablishedMessage env.now], .cons (.confirmEstablished _) .nil, ?_⟩, ?_⟩
    · simp [consumed, BVTCPConnectionManager.setState, BVTCPConnectionManager.enterIdentified]
    · simp [consumed, BVTCPConnectionManager.enterIdentified, BVTCPConnectionManager.nameOf]
    · rw [Link.written_of_log (by rfl)]
      simp
    · simp [consumed]

/-- One undisturbed read of a handshake frame does what `receive` says. -/
theorem receive_readOnce (h : x.FrameMode) (hu : m.Unprepared r) (hx : x.Mirrors m r)
    (henv : ∀ n, env.isSessionAlreadyPresent n = m.isSessionAlreadyPresent n)
    (hc : Carries msg f) (hs : x.socket = messageFrame msg ++ rest) :
    SameRead x (x.readOnce env) r (receive env r m f) := by
  cases hc with
  | hello now => exact receive_hello h hu hx now hs
  | helloBack env₀ name => exact receive_helloBack h hu hx henv env₀ name hs
  | confirmEstablished now => exact receive_confirm h hu hx now hs

end World

end LocalChat
