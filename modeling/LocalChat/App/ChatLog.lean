import LocalChat.Manager.Basic
import LocalChat.Session.Timing

/-!
# Chat logs

A client keeps a log of chat messages for every peer.  `SendChatLine` of the console client and
`SendText` of the GUI client write a line to the session of the peer and add the line itself to
their log; the peer's client adds what its session made of the frame.  The frame has room for 128
bytes, and `ConstructChatMessageFromInput` drops the others.

* `chatsOf_completeRead`: a session tells its app about a chat frame once, with the text of the
  frame, whatever the second switch of `OnReceiveStandardFrame` makes of the same frame and
  whatever arrives meanwhile.
* `chat_text_agrees_iff`: the two logs get the same text exactly if the line has at most 128 bytes.
-/

namespace LocalChat

open Octets

structure BVChatMessage where
  textData : Bytes
  sender : Bytes
  timestamp : UInt64
  deriving DecidableEq, Repr

structure ChatApp where
  /-- `GetThisMachineServiceData().hostname` -/
  hostname : Bytes
  /-- the `logV` of `chatLogsM`, by service name -/
  chatLogsM : Bytes → Option (List BVChatMessage)

inductive ChatClient
  | console
  | gui
  deriving DecidableEq, Repr

namespace ChatApp

/-- `chatLogsM.at(serviceName).AddMessage(msg)`, with a new log if there is none. -/
def addMessage (serviceName : Bytes) (msg : BVChatMessage) (a : ChatApp) : ChatApp :=
  { a with
    chatLogsM :=
      Function.update a.chatLogsM serviceName (some ((a.chatLogsM serviceName).getD [] ++ [msg])) }

/-- `SendText`: the session that is written to and the bytes of the frame, if there is one.
`SendDataToNode` throws and catches where `sessions_m` lacks the id. -/
def sendText (m : BVTCPConnectionManager) (now : UInt64) (serviceName text : Bytes) (a : ChatApp) :
    Option (SessionRef × Bytes) × ChatApp :=
  match m.getSessionIDFromServiceName serviceName with
  | none => (none, a)
  | some sid =>
    match m.sessions.lookup sid with
    | none => (none, a)
    | some r =>
      (some (r, messageFrame (constructChatMessageFromInput now text)),
        a.addMessage serviceName ⟨text, a.hostname, now⟩)

/-- `SendChatLine`.  A line that starts with `|f ` names a file to send and is no text. -/
def sendChatLine (m : BVTCPConnectionManager) (now : UInt64) (serviceName line : Bytes)
    (a : ChatApp) : Option (SessionRef × Bytes) × ChatApp :=
  if [bar, 102, 32].isPrefixOf line then (none, a) else a.sendText m now serviceName line

def send (client : ChatClient) (m : BVTCPConnectionManager) (now : UInt64)
    (serviceName text : Bytes) (a : ChatApp) : Option (SessionRef × Bytes) × ChatApp :=
  match client with
  | .console => a.sendChatLine m now serviceName text
  | .gui => a.sendText m now serviceName text

def handleMessageIncoming (res : BVChatMessage) (a : ChatApp) : ChatApp :=
  a.addMessage res.sender res

def lastText (serviceName : Bytes) (a : ChatApp) : Option Bytes :=
  ((a.chatLogsM serviceName).bind List.getLast?).map (·.textData)

theorem lastText_addMessage (serviceName : Bytes) (msg : BVChatMessage) (a : ChatApp) :
    (a.addMessage serviceName msg).lastText serviceName = some msg.textData := by
  simp [lastText, addMessage]

theorem send_spec {client : ChatClient} {m : BVTCPConnectionManager} {now : UInt64}
    {serviceName text frame : Bytes} {a a' : ChatApp} {r : SessionRef}
    (h : a.send client m now serviceName text = (some (r, frame), a')) :
    frame = messageFrame (constructChatMessageFromInput now text) ∧
      a' = a.addMessage serviceName ⟨text, a.hostname, now⟩ := by
  have htext : a.sendText m now serviceName text = (some (r, frame), a') := by
    cases client with
    | gui => exact h
    | console =>
      simp only [send, sendChatLine] at h
      split at h
      · cases h
      · exact h
  unfold sendText at htext
  split at htext
  · cases htext
  · split at htext
    · cases htext
    · cases htext
      exact ⟨rfl, rfl⟩

end ChatApp

/-! ### The chat messages a session hands over -/

def chatsOf (log : List Effect) : List BVChatMessage :=
  log.filterMap fun
    | .putMessageIntoAppMailbox (.messageIncoming textData timestamp sender) =>
      some ⟨textData, sender, timestamp⟩
    | _ => none

theorem chatsOf_append (l l' : List Effect) : chatsOf (l ++ l') = chatsOf l ++ chatsOf l' :=
  List.filterMap_append

theorem chatsOf_handed (h : Handler) (unit : Bytes) : chatsOf [.handed h unit] = [] := rfl

theorem chatsOf_signal (key : UInt32) (accept : Bool) :
    chatsOf [.signalFileTransfer key accept] = [] := rfl

namespace Session

theorem log_arrive (s : Session) (n : Nat) : (s.arrive n).log = s.log := by
  unfold arrive
  split
  · rfl
  · split <;> rfl

theorem log_startReadingFrames (s : Session) : s.startReadingFrames.log = s.log := rfl

theorem log_startReadingChunks (s : Session) (c : UInt32) :
    (s.startReadingChunks c).log = s.log := by
  simp only [startReadingChunks]
  split
  · rfl
  · split <;> rfl

theorem log_finishFrame (s : Session) : s.finishFrame.log = s.log := by
  rw [finishFrame]
  split <;> rfl

theorem chatsOf_emit (s : Session) (e : Effect) :
    chatsOf (s.emit e).log = chatsOf s.log ++ chatsOf [e] := by
  rw [emit_log, chatsOf_append]

theorem chatsOf_onReceiveFileOffer (env : Env) (s : Session) :
    chatsOf (s.onReceiveFileOffer env).log = chatsOf s.log := by
  rw [onReceiveFileOffer, chatsOf_emit]
  exact List.append_nil _

theorem chatsOf_onReceiveFileTransferBegin (env : Env) (s : Session) :
    chatsOf (s.onReceiveFileTransferBegin env).log = chatsOf s.log := by
  by_cases ht : at_ s.readBuf 12 = BVTCPMessageType.fileTransferBegin
  · rw [onReceiveFileTransferBegin_eq env ht, log_startReadingChunks, begun, chatsOf_append]
    exact List.append_nil _
  · have ht' : (getFileHeader s.readBuf).msgType ≠ BVTCPMessageType.fileTransferBegin := ht
    rw [onReceiveFileTransferBegin, if_pos ht']

theorem chatsOf_onReceiveStandardFrame (env : Env) (w : Window) (s : Session) :
    chatsOf (s.onReceiveStandardFrame env w).2.log = chatsOf (s.firstSwitch env).log := by
  have hlog : (((s.firstSwitch env).arrive w.beforeSwitch).arrive w.afterSwitch).log =
      (s.firstSwitch env).log := by rw [log_arrive, log_arrive]
  simp only [onReceiveStandardFrame]
  split
  · rw [chatsOf_onReceiveFileTransferBegin, chatsOf_emit, chatsOf_handed, hlog, List.append_nil]
  · split
    · rw [log_startReadingFrames, chatsOf_onReceiveFileOffer, chatsOf_emit, chatsOf_handed, hlog,
        List.append_nil]
    · split
      · rw [log_startReadingFrames, chatsOf_emit, chatsOf_emit, chatsOf_handed, chatsOf_signal,
          hlog, List.append_nil, List.append_nil]
      · split
        · rw [log_startReadingFrames, chatsOf_emit, chatsOf_emit, chatsOf_handed, chatsOf_signal,
            hlog, List.append_nil, List.append_nil]
        · rw [hlog]

/-- **A chat frame** gives the app one chat message, with the text that fits the frame. -/
theorem chatsOf_completeRead {s : Session} {now : UInt64} {text : Bytes}
    (h : s.AtFrame messageFrameSizeBytes) (hst : s.state = .established)
    (hbuf : s.readBuf = messageFrame (constructChatMessageFromInput now text)) (env : Env)
    (w : Window) :
    chatsOf (s.completeRead env w).log =
      chatsOf s.log ++ [⟨text.take payloadSizeBytes, s.serviceName, now⟩] := by
  have hm : (getMsgHeader s.called.readBuf).msgType = BVTCPMessageType.chatMessage := by
    rw [called_readBuf, hbuf, getMsgHeader_messageFrame]
    rfl
  have hevent : s.called.chatEvent env s.called.readBuf =
      .messageIncoming (text.take payloadSizeBytes) now s.serviceName := by
    rw [called_readBuf, hbuf]
    exact chatEvent_chat env s.called now text
  have hfirst : chatsOf (s.called.firstSwitch env).log =
      chatsOf s.log ++ [⟨text.take payloadSizeBytes, s.serviceName, now⟩] := by
    rw [firstSwitch_eq (s := s.called) env h.readBuf hm, log_startReadingFrames, chatsOf_emit,
      chatsOf_emit, hevent, chatsOf_handed, List.append_nil]
    rfl
  have hlog : (s.completeRead env w).log = (s.called.onReceiveStandardFrame env w).2.log := by
    rw [h.completeRead_established hst]
    rcases s.called.onReceiveStandardFrame env w with ⟨again, s'⟩
    cases again with
    | true => rfl
    | false => exact log_finishFrame s'
  rw [hlog, chatsOf_onReceiveStandardFrame, hfirst]

end Session

/-! ### The two logs -/

namespace ChatApp

/-- The app handles the chat messages its session has put into the mailbox since it was `s`. -/
def handleIncoming (s s' : Session) (b : ChatApp) : ChatApp :=
  ((chatsOf s'.log).drop (chatsOf s.log).length).foldl (fun b res => b.handleMessageIncoming res) b

theorem lastText_sent_received {client : ChatClient} {m : BVTCPConnectionManager} {now : UInt64}
    {serviceName text frame : Bytes} {a a' : ChatApp} {r : SessionRef} {s : Session}
    (hsend : a.send client m now serviceName text = (some (r, frame), a'))
    (hat : s.AtFrame messageFrameSizeBytes) (hst : s.state = .established)
    (hbuf : s.readBuf = frame) (env : Env) (w : Window) (b : ChatApp) :
    a'.lastText serviceName = some text ∧
      (b.handleIncoming s (s.completeRead env w)).lastText s.serviceName =
        some (text.take payloadSizeBytes) := by
  obtain ⟨rfl, rfl⟩ := send_spec hsend
  refine ⟨lastText_addMessage _ _ _, ?_⟩
  rw [handleIncoming, Session.chatsOf_completeRead hat hst hbuf env w, List.drop_left,
    List.foldl_cons, List.foldl_nil]
  exact lastText_addMessage _ _ _

/-- **Chat texts.**  A client has sent a text and the frame is in the buffer of the peer's
established session.  When the peer's client has handled what the session makes of it, both logs
end with the same text exactly if the text has at most 128 bytes. -/
theorem chat_text_agrees_iff (client : ChatClient) (m : BVTCPConnectionManager) (now : UInt64)
    (serviceName text frame : Bytes) (a a' b : ChatApp) (r : SessionRef) (s : Session) (env : Env)
    (w : Window) (hsend : a.send client m now serviceName text = (some (r, frame), a'))
    (hat : s.AtFrame messageFrameSizeBytes) (hst : s.state = .established)
    (hbuf : s.readBuf = frame) :
    a'.lastText serviceName =
        (b.handleIncoming s (s.completeRead env w)).lastText s.serviceName ↔
      text.length ≤ payloadSizeBytes := by
  obtain ⟨hsent, hreceived⟩ := lastText_sent_received hsend hat hst hbuf env w b
  rw [hsent, hreceived]
  constructor
  · intro heq
    have hlen := congrArg List.length (Option.some.inj heq)
    rw [List.length_take] at hlen
    omega
  · intro hle
    rw [List.take_of_length_le hle]

section Example

open BVTCPConnectionManager (hostWithPeer)

def received (frame : Bytes) : Session :=
  { Session.construct [98] [97] with
    state := .established
    readBuf := frame
    reads := [⟨.frame, 0, messageFrameSizeBytes, messageFrameSizeBytes⟩] }

theorem received_atFrame {frame : Bytes} (h : frame.length = messageFrameSizeBytes) :
    (received frame).AtFrame messageFrameSizeBytes :=
  ⟨rfl, le_refl _, rfl, h⟩

/-- The text `hi`. -/
theorem chat_text_agrees_hi :
    let a : ChatApp := ⟨[97], fun _ => none⟩
    let frame := messageFrame (constructChatMessageFromInput 0 [104, 105])
    let a' := a.addMessage [98] ⟨[104, 105], [97], 0⟩
    a'.lastText [98] = (a.handleIncoming (received frame)
      ((received frame).completeRead Env.blank .quiet)).lastText [97] :=
  (chat_text_agrees_iff .console hostWithPeer 0 [98] [104, 105]
    (messageFrame (constructChatMessageFromInput 0 [104, 105])) ⟨[97], fun _ => none⟩
    (addMessage [98] ⟨[104, 105], [97], 0⟩ ⟨[97], fun _ => none⟩) ⟨[97], fun _ => none⟩ 0
    (received (messageFrame (constructChatMessageFromInput 0 [104, 105]))) Env.blank .quiet rfl
    (received_atFrame (length_messageFrame _)) rfl rfl).mpr (by decide)

/-- A line of 129 bytes is logged in full by its sender and without its last byte by its
receiver. -/
theorem chat_text_of_129_bytes :
    let line : Bytes := List.replicate 129 120
    let a : ChatApp := ⟨[97], fun _ => none⟩
    let frame := messageFrame (constructChatMessageFromInput 0 line)
    let a' := (a.send .console hostWithPeer 0 [98] line).2
    let b' := a.handleIncoming (received frame) ((received frame).completeRead Env.blank .quiet)
    (a.send .console hostWithPeer 0 [98] line).1 = some (0, frame) ∧ a'.lastText [98] = some line ∧
      b'.lastText [97] = some (List.replicate 128 120) ∧ a'.lastText [98] ≠ b'.lastText [97] := by
  intro line a frame a' b'
  have hsend : a.send .console hostWithPeer 0 [98] line = (some (0, frame), a') := rfl
  obtain ⟨hsent, hreceived⟩ := lastText_sent_received hsend
    (received_atFrame (length_messageFrame _)) rfl rfl Env.blank .quiet a
  have hcut : line.take payloadSizeBytes = List.replicate 128 120 := List.take_replicate
  rw [hcut] at hreceived
  refine ⟨by rw [hsend], hsent, hreceived, ?_⟩
  have hreceived' : b'.lastText [97] = some (List.replicate 128 120) := hreceived
  rw [hsent, hreceived']
  intro heq
  have hlen := congrArg List.length (Option.some.inj heq)
  simp only [line, List.length_replicate] at hlen
  omega

end Example

end ChatApp

end LocalChat
