import LocalChat.Session.Send

/-!
# Which frames are taken for chat

`OnReceiveStandardFrame` looks at one frame twice, as a message and as a file frame, and
the second look is not skipped when the first has found a chat message.  `ChatOnly` says
that a frame had the effects of the chat handler and no others; `chatOnly_iff` says for
which texts it does: those whose third byte is none of the four file frame types.
-/

namespace LocalChat

open Octets

namespace Session

/-- From `s` to `s'` the session has done what the chat handler does with `text`, and nothing
else: one event for the app, one frame read, and no change of the chunk sizes or the chunk
buffer. -/
structure ChatOnly (s s' : Session) (now : UInt64) (text rest : Bytes) : Prop where
  log : s'.log = s.log ++ [.handed .chatMessage (PeerFrame.chat now text).bytes,
    .putMessageIntoAppMailbox (.messageIncoming (text.take payloadSizeBytes) now s.serviceName)]
  reads : s'.reads = [⟨.frame, 0, messageFrameSizeBytes, 0⟩]
  socket : s'.socket = rest
  state : s'.state = s.state
  sizes : s'.csize = s.csize ∧ s'.fsize = s.fsize
  fileReadBuf : s'.fileReadBuf = s.fileReadBuf

/-- The part of the session a chat frame leaves alone. -/
theorem readOnce_chatMessage_frame {s : Session} {f rest : Bytes} (env : Env) (h : s.FrameMode)
    (hst : s.state = .established) (hs : s.socket = f ++ rest)
    (hf : f.length = messageFrameSizeBytes) (hm : at_ f 9 = BVTCPMessageType.chatMessage)
    (hft : isFileFrameType (at_ f 12) = false) :
    ((s.readOnce env).csize = s.csize ∧ (s.readOnce env).fsize = s.fsize) ∧
      (s.readOnce env).fileReadBuf = s.fileReadBuf := by
  have hne : f ≠ [] := by rintro rfl; simp at hf
  simp only [isFileFrameType, Bool.or_eq_false_iff, decide_eq_false_iff_not] at hft
  obtain ⟨⟨⟨h6, h9⟩, h10⟩, h11⟩ := hft
  rw [readOnce_of_established env h hst hs hf]
  simp [onReceiveStandardFrame, firstSwitch, onReceiveChatMessageFrame, getMsgHeader, hm,
    getPayloadPtr, hne, getFileHeader, h6, h9, h10, h11, startReadingFrames, emit, finishFrame,
    clearReadBuffer, hst]

/-- A chat frame that the second switch also recognises is handed on a second time. -/
theorem readOnce_chatMessage_twice {s : Session} {f rest : Bytes} (env : Env) (h : s.FrameMode)
    (hst : s.state = .established) (hs : s.socket = f ++ rest)
    (hf : f.length = messageFrameSizeBytes) (hm : at_ f 9 = BVTCPMessageType.chatMessage)
    (hft : isFileFrameType (at_ f 12) = true) :
    ∃ es, es ≠ [] ∧ (s.readOnce env).log = s.log ++
      [.handed .chatMessage f, .putMessageIntoAppMailbox (s.chatEvent env f)] ++ es := by
  have hne : f ≠ [] := by rintro rfl; simp at hf
  have hsize : ∀ (c : UInt32) (t : Session), (t.startReadingChunks c).log = t.log := by
    intro c t
    simp only [startReadingChunks]
    split
    · rfl
    · split <;> rfl
  rw [readOnce_of_established env h hst hs hf]
  simp only [isFileFrameType, Bool.or_eq_true, decide_eq_true_eq, or_assoc] at hft
  rcases hft with h6 | h9 | h10 | h11
  · refine ⟨[.handed .fileTransferBegin f, .putMessageIntoAppMailbox (beginEvent env f)],
      by simp, ?_⟩
    simp [onReceiveStandardFrame, firstSwitch, onReceiveChatMessageFrame, getMsgHeader, hm,
      getPayloadPtr, hne, getFileHeader, h6, startReadingFrames, emit, onReceiveFileTransferBegin,
      hsize, clearReadBuffer, chatEvent, beginEvent, announcedCsize, announcedFsize]
  · refine ⟨[.handed .fileOffer f, .putMessageIntoAppMailbox (offerEvent env f)], by simp, ?_⟩
    simp [onReceiveStandardFrame, firstSwitch, onReceiveChatMessageFrame, getMsgHeader, hm,
      getPayloadPtr, hne, getFileHeader, h9, startReadingFrames, emit, onReceiveFileOffer,
      chatEvent, offerEvent]
  · refine ⟨[.handed .fileAccept f, .signalFileTransfer (getFileHeader f).correlationKey true],
      by simp, ?_⟩
    simp [onReceiveStandardFrame, firstSwitch, onReceiveChatMessageFrame, getMsgHeader, hm,
      getPayloadPtr, hne, getFileHeader, h10, startReadingFrames, emit, chatEvent]
  · refine ⟨[.handed .fileReject f, .signalFileTransfer (getFileHeader f).correlationKey false],
      by simp, ?_⟩
    simp [onReceiveStandardFrame, firstSwitch, onReceiveChatMessageFrame, getMsgHeader, hm,
      getPayloadPtr, hne, getFileHeader, h11, startReadingFrames, emit, chatEvent]

theorem chatOnly_of_third_byte {s : Session} {rest : Bytes} (env : Env) (h : s.FrameMode)
    (hst : s.state = .established) (now : UInt64) (text : Bytes)
    (hs : s.socket = (PeerFrame.chat now text).bytes ++ rest)
    (hft : isFileFrameType (at_ text 2) = false) :
    ChatOnly s (s.readOnce env) now text rest := by
  have hm := PeerFrame.msgType_bytes (.chat now text)
  rw [← fileType_chat now] at hft
  obtain ⟨hmode, hh⟩ := readOnce_chatMessage env h hst hs (PeerFrame.length_bytes _) hm hft
  obtain ⟨hsizes, hbuf⟩ :=
    readOnce_chatMessage_frame env h hst hs (PeerFrame.length_bytes _) hm hft
  rw [chatEvent_chat] at hh
  exact ⟨hh.log, hmode.reads, hh.socket, hh.state, hsizes, hbuf⟩

theorem not_chatOnly_of_third_byte {s : Session} {rest : Bytes} (env : Env) (h : s.FrameMode)
    (hst : s.state = .established) (now : UInt64) (text : Bytes)
    (hs : s.socket = (PeerFrame.chat now text).bytes ++ rest)
    (hft : isFileFrameType (at_ text 2) = true) :
    ¬ ChatOnly s (s.readOnce env) now text rest := by
  intro hc
  have hm := PeerFrame.msgType_bytes (.chat now text)
  rw [← fileType_chat now] at hft
  obtain ⟨es, hes, hlog⟩ :=
    readOnce_chatMessage_twice env h hst hs (PeerFrame.length_bytes _) hm hft
  rw [hc.log, chatEvent_chat] at hlog
  exact hes (by simpa using hlog)

/-- **Chat frames are taken for chat alone exactly when the third byte of the text is not 6, 9, 10
or 11.** -/
theorem chatOnly_iff (s : Session) (env : Env) (h : s.FrameMode) (hst : s.state = .established)
    (now : UInt64) (text rest : Bytes) (hs : s.socket = (PeerFrame.chat now text).bytes ++ rest) :
    ChatOnly s (s.readOnce env) now text rest ↔ isFileFrameType (at_ text 2) = false := by
  constructor
  · intro hc
    by_contra hft
    exact not_chatOnly_of_third_byte env h hst now text hs (by simpa using hft) hc
  · exact chatOnly_of_third_byte env h hst now text hs

/-- A text that goes through: `hi`. -/
theorem chatOnly_hi :
    ChatOnly (idle [] [] (PeerFrame.chat 0 [104, 105]).bytes)
      ((idle [] [] (PeerFrame.chat 0 [104, 105]).bytes).readOnce .blank) 0 [104, 105] [] :=
  (chatOnly_iff _ .blank (idle_frameMode _ _ _) rfl 0 [104, 105] []
    (List.append_nil _).symm).mpr rfl

/-- A text with a tab as its third character is also taken for a FILE_OFFER. -/
theorem not_chatOnly_tab :
    ¬ ChatOnly (idle [] [] (PeerFrame.chat 0 [97, 98, 9, 99]).bytes)
      ((idle [] [] (PeerFrame.chat 0 [97, 98, 9, 99]).bytes).readOnce .blank)
      0 [97, 98, 9, 99] [] :=
  not_chatOnly_of_third_byte .blank (idle_frameMode _ _ _) rfl 0 [97, 98, 9, 99]
    (List.append_nil _).symm rfl

end Session

end LocalChat
