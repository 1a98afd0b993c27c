import LocalChat.Session.Outstanding
import LocalChat.Session.Handshake
import LocalChat.Session.Log

/-!
# Who is taken for a HELLO

An UNPREPARED session reads the message type of a frame twice: the dispatch takes byte 9, where the
encoder puts it, and `OnReceiveHelloFrame` takes the byte the padded `BVTCPMessageHeader` has it at,
which is the seventh byte of the payload.

`hello_answered_iff`: a frame with the type HELLO is answered by one HELLOBACK with this host's
name, and the next frame is read, exactly if that payload byte is 0 too.
-/

namespace LocalChat

open Octets

def Effect.message? : Effect → Option BVTCPMessage
  | .writeMessageFrame m => some m
  | _ => none

namespace Session

def messagesWritten (s s' : Session) : List BVTCPMessage :=
  (s'.log.drop s.log.length).filterMap Effect.message?

theorem messagesWritten_of_log {s s' : Session} {es : List Effect} (h : s'.log = s.log ++ es) :
    messagesWritten s s' = es.filterMap Effect.message? := by
  rw [messagesWritten, h, List.drop_left]

/-- A peer that has the frame of `m` in its buffer identifies the session by `name`. -/
def Introduces (m : BVTCPMessage) (name : Bytes) : Prop :=
  ∀ (env : Env) (peer : Session), peer.readBuf = messageFrame m →
    peer.onReceiveHelloBackFrame env = peer.handleSessionIdentification env name

/-- From `s` to `s'` the session has answered a HELLO: one HELLOBACK with its host's name, and one
read for the next frame. -/
structure Answered (s s' : Session) : Prop where
  reply : ∃ m, messagesWritten s s' = [m] ∧ m.header.msgType = BVTCPMessageType.helloBack ∧
    Introduces m s.thisMachineServiceName
  rearmed : ∃ got, s'.AtFrame got

theorem introduces_replyMsg {name : Bytes} (h : name.length ≤ 128) (env : Env) :
    Introduces (replyMsg env name) name := by
  intro env' peer hbuf
  have hlen : (getMsgHeader peer.readBuf).dataLen ≤ 128 := by
    rw [hbuf, UInt8.le_iff_toNat_le]
    exact (dataLen_replyMsg h env).trans_le h
  have hname := name_replyMsg h env
  rw [← hbuf] at hname
  rw [onReceiveHelloBackFrame_eq env' (by rw [hbuf, length_messageFrame]) (by rw [hbuf]; rfl) hlen]
  exact congrArg (fun n => peer.handleSessionIdentification env' n) hname

section Hello

variable {s : Session} (env : Env) (w : Window)

theorem completeRead_hello (h : s.AtFrame messageFrameSizeBytes) (hst : s.state = .unprepared)
    (hm : (getMsgHeader s.readBuf).msgType = BVTCPMessageType.hello) :
    s.completeRead env w = ((((s.called.emit (.handed .hello s.readBuf)).onReceiveHelloFrame
      env).arrive w.afterSwitch).finishFrame) := by
  have hm' : (getMsgHeader s.called.readBuf).msgType = BVTCPMessageType.hello := hm
  rw [h.completeRead_unprepared hst, dispatchHandshake, if_pos hm']
  rfl

/-- **HELLO.**  A frame with the type HELLO is answered exactly if the seventh byte of its payload
is 0. -/
theorem hello_answered_iff (h : s.AtFrame messageFrameSizeBytes) (hst : s.state = .unprepared)
    (hm : (getMsgHeader s.readBuf).msgType = BVTCPMessageType.hello)
    (hname : s.thisMachineServiceName.length ≤ 128) :
    Answered s (s.completeRead env w) ↔ at_ s.readBuf 16 = BVTCPMessageType.hello := by
  have hcall := completeRead_hello env w h hst hm
  have hopen : (s.called.emit (.handed .hello s.readBuf)).state ≠ .closed := by
    show s.state ≠ .closed
    rw [hst]
    decide
  by_cases h16 : at_ s.readBuf 16 = BVTCPMessageType.hello
  · have h16' : at_ (s.called.emit (.handed .hello s.readBuf)).readBuf 16 =
        BVTCPMessageType.hello := h16
    refine iff_of_true ⟨⟨replyMsg env s.thisMachineServiceName, ?_, rfl, ?_⟩, ?_⟩ h16
    · have hlog : (s.completeRead env w).log = s.log ++ [.handed .hello s.readBuf,
          .writeMessageFrame (replyMsg env s.thisMachineServiceName), .eraseWriteBuf] := by
        rw [hcall, finishFrame_log, arrive_log, onReceiveHelloFrame, if_neg (not_not.mpr h16')]
        simp [emit, called, startReadingFrames]
      rw [messagesWritten_of_log hlog]
      rfl
    · exact introduces_replyMsg hname env
    · obtain ⟨harmed, hstate⟩ := onReceiveHelloFrame_atFrame
        (s := s.called.emit (.handed .hello s.readBuf)) env rfl h.totalBytesRead h.readBuf h16
      rw [hcall]
      exact (harmed.finish (by rwa [hstate]) w.afterSwitch).1
  · have h16' : at_ (s.called.emit (.handed .hello s.readBuf)).readBuf 16 ≠
        BVTCPMessageType.hello := h16
    refine iff_of_false ?_ h16
    rintro ⟨⟨m, hmsgs, -⟩, -⟩
    have hlog : (s.completeRead env w).log = s.log ++ [.handed .hello s.readBuf] := by
      rw [hcall, finishFrame_log, arrive_log, onReceiveHelloFrame, if_pos h16']
      rfl
    rw [messagesWritten_of_log hlog] at hmsgs
    cases hmsgs

end Hello

/-! ### Two frames -/

def greeted (b : UInt8) : Session :=
  { Session.construct [97] [98] with
    readBuf := messageFrame (constructMessage 0 BVTCPMessageType.hello
      (CharBufferArray128B.zero.copyFrom [0, 0, 0, 0, 0, 0, b]))
    reads := [⟨.frame, 0, messageFrameSizeBytes, messageFrameSizeBytes⟩] }

theorem greeted_atFrame (b : UInt8) : (greeted b).AtFrame messageFrameSizeBytes :=
  ⟨rfl, le_refl _, rfl, length_messageFrame _⟩

theorem hello_answered_zeros :
    Answered (greeted 0) ((greeted 0).completeRead Env.blank .quiet) :=
  (hello_answered_iff Env.blank .quiet (greeted_atFrame 0) rfl rfl (by decide)).mpr rfl

/-- With a 1 in that byte the frame is dispatched as HELLO, and nothing is written or read any
more. -/
theorem hello_with_payload_is_dropped :
    (getMsgHeader (greeted 1).readBuf).msgType = BVTCPMessageType.hello ∧
      messagesWritten (greeted 1) ((greeted 1).completeRead Env.blank .quiet) = [] ∧
      ((greeted 1).completeRead Env.blank .quiet).reads = [] ∧
      ¬ ∀ (s : Session) (env : Env) (w : Window), s.AtFrame messageFrameSizeBytes →
        s.state = .unprepared → (getMsgHeader s.readBuf).msgType = BVTCPMessageType.hello →
        s.thisMachineServiceName.length ≤ 128 → Answered s (s.completeRead env w) := by
  have hnone : messagesWritten (greeted 1) ((greeted 1).completeRead Env.blank .quiet) = [] := rfl
  refine ⟨rfl, hnone, rfl, fun hall => ?_⟩
  obtain ⟨m, hmsgs, -⟩ :=
    (hall (greeted 1) Env.blank .quiet (greeted_atFrame 1) rfl rfl (by decide)).reply
  rw [hnone] at hmsgs
  cases hmsgs

end Session

end LocalChat
