import LocalChat.Session.Basic

/-!
# What one undisturbed read does

A session that is not in the middle of a callback waits either for a message frame
(`FrameMode`) or for a file chunk (`ChunkMode`).  The lemmas of this file say, for each
kind of unit, what `readOnce` makes of it:

* `readOnce_chatMessage`, `readOnce_fileOffer`, `readOnce_signal`: the handler runs on
  exactly the received bytes and the session waits for the next frame;
* `readOnce_fileTransferBegin`: the session turns to chunks of the announced size;
* `readOnce_fileChunkSent`, `readOnce_fileTransferEnd`: a chunk goes to the app, and after
  the last one the session is back to frames.

`Handled` says the common part: the unit is off the socket and the log has grown.
-/

namespace LocalChat

open Octets

/-! ### Reading a log -/

def handedUnits (log : List Effect) : List (Handler × Bytes) :=
  log.filterMap fun
    | .handed h unit => some (h, unit)
    | _ => none

theorem handedUnits_append (l l' : List Effect) :
    handedUnits (l ++ l') = handedUnits l ++ handedUnits l' := by
  simp [handedUnits, List.filterMap_append]

def mailboxOf (log : List Effect) : List AppEvent :=
  log.filterMap fun
    | .putMessageIntoAppMailbox e => some e
    | _ => none

theorem mailboxOf_append (l l' : List Effect) :
    mailboxOf (l ++ l') = mailboxOf l ++ mailboxOf l' := by
  simp [mailboxOf, List.filterMap_append]

namespace Session

@[simp] theorem emit_state (s : Session) (e : Effect) : (s.emit e).state = s.state := rfl
@[simp] theorem emit_readBuf (s : Session) (e : Effect) : (s.emit e).readBuf = s.readBuf := rfl
@[simp] theorem emit_reads (s : Session) (e : Effect) : (s.emit e).reads = s.reads := rfl
@[simp] theorem emit_log (s : Session) (e : Effect) : (s.emit e).log = s.log ++ [e] := rfl

@[simp] theorem arrive_zero (s : Session) : s.arrive 0 = s := by
  rcases s with ⟨_, _, _, _, _, _, _, _, reads, _, _⟩
  rcases reads with _ | ⟨⟨target, _, _, _⟩, rest⟩
  · rfl
  · cases target <;> simp [arrive]

/-- The session waits for a message frame and has none of its bytes yet. -/
structure FrameMode (s : Session) : Prop where
  reads : s.reads = [⟨.frame, 0, messageFrameSizeBytes, 0⟩]
  totalBytesRead : s.totalBytesRead = 0
  readBuf : s.readBuf.length = messageFrameSizeBytes

/-- The session waits for a chunk of the announced size and has none of its bytes yet. -/
structure ChunkMode (s : Session) : Prop where
  reads : s.reads = [⟨.chunk, 0, s.csize.toNat + fileHeaderSizeBytes, 0⟩]
  totalBytesRead : s.totalBytesRead = 0
  fileReadBuf : s.fileReadBuf.length = s.csize.toNat + fileHeaderSizeBytes
  /-- the size of a chunk frame is itself passed on as a `uint32_t` -/
  fits : s.csize.toNat + fileHeaderSizeBytes < 2 ^ 32

/-- An established session between two callbacks, with `socket` still to be read. -/
def idle (thisMachineServiceName serviceName socket : Bytes) : Session :=
  { (Session.construct thisMachineServiceName serviceName).startReadingFrames with
    state := .established, socket := socket }

theorem idle_frameMode (self peer socket : Bytes) : (idle self peer socket).FrameMode :=
  ⟨rfl, rfl, List.length_replicate⟩

/-- `s'` has consumed one unit of `s`, logged `es`, and is otherwise the same connection. -/
structure Handled (s s' : Session) (rest : Bytes) (es : List Effect) : Prop where
  socket : s'.socket = rest
  log : s'.log = s.log ++ es
  state : s'.state = s.state
  serviceName : s'.serviceName = s.serviceName

/-! ### A read fills up -/

theorem readOnce_of_frameMode {s : Session} {f rest : Bytes} (env : Env) (h : s.FrameMode)
    (hs : s.socket = f ++ rest) (hf : f.length = messageFrameSizeBytes) :
    s.readOnce env =
      readMessageFrameCallback env .quiet messageFrameSizeBytes
        { s with reads := [], readBuf := f, socket := rest } := by
  have hbuf : overwrite 0 f s.readBuf = f := overwrite_of_length (hf.trans h.readBuf.symm)
  simp [readOnce, arrive, completeRead, h.reads, hs, ← hf, hbuf]

theorem readOnce_of_chunkMode {s : Session} {f rest : Bytes} (env : Env) (h : s.ChunkMode)
    (hs : s.socket = f ++ rest) (hf : f.length = s.csize.toNat + fileHeaderSizeBytes) :
    s.readOnce env =
      readFileChunkCallback (s.csize.toNat + fileHeaderSizeBytes)
        { s with reads := [], fileReadBuf := f, socket := rest } := by
  have hbuf : overwrite 0 f s.fileReadBuf = f := overwrite_of_length (hf.trans h.fileReadBuf.symm)
  simp [readOnce, arrive, completeRead, h.reads, hs, ← hf, hbuf]

/-! ### Frames of an established session -/

/-- The types the second switch of `OnReceiveStandardFrame` has a case for. -/
def isFileFrameType (b : UInt8) : Bool :=
  b = BVTCPMessageType.fileTransferBegin || b = BVTCPMessageType.fileOffer ||
    b = BVTCPMessageType.fileAccept || b = BVTCPMessageType.fileReject

/-- What `OnReceiveChatMessageFrame` tells the app about a frame. -/
def chatEvent (env : Env) (s : Session) (f : Bytes) : AppEvent :=
  .messageIncoming
    (stringAt ((f.drop headerSizeBytes).take payloadSizeBytes) env.behind
      (getMsgHeader f).dataLen.toNat)
    (getMsgHeader f).timestamp s.serviceName

def offerEvent (env : Env) (f : Bytes) : AppEvent :=
  .fileOffer ⟨(getFileHeader f).correlationKey, 0,
    ((getFileHeader f).metadata &&& 0xFFFFFFFF).toUInt32, getFileData f env.past⟩

def announcedCsize (f : Bytes) : UInt32 := metadataCsize (getFileHeader f).metadata

def announcedFsize (f : Bytes) : UInt32 := metadataFsize (getFileHeader f).metadata

def beginEvent (env : Env) (f : Bytes) : AppEvent :=
  .fileTransferBegin ⟨(getFileHeader f).correlationKey, announcedCsize f, announcedFsize f,
    getFileData f env.past⟩

theorem readOnce_of_established {s : Session} {f rest : Bytes} (env : Env) (h : s.FrameMode)
    (hst : s.state = .established) (hs : s.socket = f ++ rest)
    (hf : f.length = messageFrameSizeBytes) :
    s.readOnce env =
      match onReceiveStandardFrame env .quiet
        { s with reads := [], readBuf := f, socket := rest } with
      | (true, s) => s
      | (false, s) => s.finishFrame := by
  have htot := h.totalBytesRead
  rw [readOnce_of_frameMode env h hs hf]
  rcases s with ⟨_, _, _, _, _, _, _, _, _, _, _⟩
  subst htot hst
  -- the callback's own `match` and the one stated above are taken apart together
  rcases hres : onReceiveStandardFrame env .quiet _ with ⟨_ | _, s'⟩ <;>
  simp only [readMessageFrameCallback, Nat.zero_add, if_true, reduceCtorEq, if_false, hres]

/-- **A chat frame** whose third payload byte is not a file frame type. -/
theorem readOnce_chatMessage {s : Session} {f rest : Bytes} (env : Env) (h : s.FrameMode)
    (hst : s.state = .established) (hs : s.socket = f ++ rest)
    (hf : f.length = messageFrameSizeBytes) (hm : at_ f 9 = BVTCPMessageType.chatMessage)
    (hft : isFileFrameType (at_ f 12) = false) :
    (s.readOnce env).FrameMode ∧ Handled s (s.readOnce env) rest
      [.handed .chatMessage f, .putMessageIntoAppMailbox (s.chatEvent env f)] := by
  have hne : f ≠ [] := by rintro rfl; simp at hf
  have htot := h.totalBytesRead
  simp only [isFileFrameType, Bool.or_eq_false_iff, decide_eq_false_iff_not] at hft
  obtain ⟨⟨⟨h6, h9⟩, h10⟩, h11⟩ := hft
  rw [readOnce_of_established env h hst hs hf]
  constructor
  · constructor <;>
      simp [onReceiveStandardFrame, firstSwitch, onReceiveChatMessageFrame, getMsgHeader, hm,
        getPayloadPtr, hne, getFileHeader, h6, h9, h10, h11, startReadingFrames, emit, finishFrame,
        clearReadBuffer, hst, htot]
  · constructor <;>
      simp [onReceiveStandardFrame, firstSwitch, onReceiveChatMessageFrame, getMsgHeader, hm,
        getPayloadPtr, hne, getFileHeader, h6, h9, h10, h11, startReadingFrames, emit, finishFrame,
        clearReadBuffer, hst, chatEvent]

theorem readOnce_fileOffer {s : Session} {f rest : Bytes} (env : Env) (h : s.FrameMode)
    (hst : s.state = .established) (hs : s.socket = f ++ rest)
    (hf : f.length = messageFrameSizeBytes) (hm : at_ f 9 ≠ BVTCPMessageType.chatMessage)
    (ht : at_ f 12 = BVTCPMessageType.fileOffer) :
    (s.readOnce env).FrameMode ∧ Handled s (s.readOnce env) rest
      [.handed .fileOffer f, .putMessageIntoAppMailbox (offerEvent env f)] := by
  have htot := h.totalBytesRead
  rw [readOnce_of_established env h hst hs hf]
  constructor
  · constructor <;>
      simp [onReceiveStandardFrame, firstSwitch, getMsgHeader, hm, getFileHeader, ht,
        onReceiveFileOffer, startReadingFrames, emit, htot, hf]
  · constructor <;>
      simp [onReceiveStandardFrame, firstSwitch, getMsgHeader, hm, getFileHeader, ht,
        onReceiveFileOffer, startReadingFrames, emit, offerEvent]

/-- The verdict a FILE_ACCEPT or FILE_REJECT frame passes on to the manager. -/
def verdictOf (accept : Bool) : Handler := if accept then .fileAccept else .fileReject

theorem readOnce_signal {s : Session} {f rest : Bytes} (env : Env) (h : s.FrameMode)
    (hst : s.state = .established) (hs : s.socket = f ++ rest)
    (hf : f.length = messageFrameSizeBytes) (hm : at_ f 9 ≠ BVTCPMessageType.chatMessage)
    (accept : Bool) (ht : at_ f 12 =
      if accept then BVTCPMessageType.fileAccept else BVTCPMessageType.fileReject) :
    (s.readOnce env).FrameMode ∧ Handled s (s.readOnce env) rest
      [.handed (verdictOf accept) f,
        .signalFileTransfer (getFileHeader f).correlationKey accept] := by
  have htot := h.totalBytesRead
  rw [readOnce_of_established env h hst hs hf]
  cases accept <;> simp only [Bool.false_eq_true, if_false, if_true] at ht
  all_goals
    constructor
    · constructor <;>
        simp [onReceiveStandardFrame, firstSwitch, getMsgHeader, hm, getFileHeader, ht,
          startReadingFrames, emit, htot, hf]
    · constructor <;>
        simp [onReceiveStandardFrame, firstSwitch, getMsgHeader, hm, getFileHeader, ht,
          startReadingFrames, emit, verdictOf]

theorem ofNat_toNat_add_fileHeaderSize {c : UInt32} (h : c.toNat + fileHeaderSizeBytes < 2 ^ 32) :
    (UInt32.ofNat (c.toNat + fileHeaderSizeBytes)).toNat = c.toNat + fileHeaderSizeBytes := by
  rw [UInt32.toNat_ofNat', Nat.mod_eq_of_lt h]

/-- The session as `OnReceiveFileTransferBegin` has prepared it before it reads the first chunk. -/
def begun (env : Env) (s : Session) : Session :=
  { s with
    csize := announcedCsize s.readBuf
    fsize := announcedFsize s.readBuf
    log := s.log ++ [.putMessageIntoAppMailbox (beginEvent env s.readBuf)]
    readBuf := List.replicate messageFrameSizeBytes 0
    fileReadBuf := List.replicate ((announcedCsize s.readBuf).toNat + fileHeaderSizeBytes) 0
    totalBytesRead := 0 }

theorem onReceiveFileTransferBegin_eq {s : Session} (env : Env)
    (ht : at_ s.readBuf 12 = BVTCPMessageType.fileTransferBegin) :
    s.onReceiveFileTransferBegin env = (s.begun env).startReadingChunks
      (UInt32.ofNat ((announcedCsize s.readBuf).toNat + fileHeaderSizeBytes)) := by
  have ht' : (getFileHeader s.readBuf).msgType = BVTCPMessageType.fileTransferBegin := ht
  rw [onReceiveFileTransferBegin, ht']
  rfl

theorem onReceiveFileTransferBegin_spec {s : Session} (env : Env) (hr : s.reads = [])
    (ht : at_ s.readBuf 12 = BVTCPMessageType.fileTransferBegin)
    (hc : (announcedCsize s.readBuf).toNat + fileHeaderSizeBytes < 2 ^ 32) :
    (s.onReceiveFileTransferBegin env).ChunkMode ∧
      (s.onReceiveFileTransferBegin env).csize = announcedCsize s.readBuf ∧
      (s.onReceiveFileTransferBegin env).fsize = announcedFsize s.readBuf ∧
      Handled s (s.onReceiveFileTransferBegin env) s.socket
        [.putMessageIntoAppMailbox (beginEvent env s.readBuf)] := by
  have hsize := ofNat_toNat_add_fileHeaderSize hc
  rw [onReceiveFileTransferBegin_eq env ht]
  simp only [begun, startReadingChunks, hsize, Nat.not_lt_zero, if_false, Nat.sub_zero,
    fileHeaderSizeBytes, Nat.add_eq_zero_iff, OfNat.ofNat_ne_zero, and_false, hr, List.nil_append]
  exact ⟨⟨rfl, rfl, by simp, hc⟩, trivial, trivial, ⟨rfl, rfl, rfl, rfl⟩⟩

/-- **A BEGIN frame** turns the session to chunks of the announced size. -/
theorem readOnce_fileTransferBegin {s : Session} {f rest : Bytes} (env : Env) (h : s.FrameMode)
    (hst : s.state = .established) (hs : s.socket = f ++ rest)
    (hf : f.length = messageFrameSizeBytes) (hm : at_ f 9 ≠ BVTCPMessageType.chatMessage)
    (ht : at_ f 12 = BVTCPMessageType.fileTransferBegin)
    (hc : (announcedCsize f).toNat + fileHeaderSizeBytes < 2 ^ 32) :
    (s.readOnce env).ChunkMode ∧ (s.readOnce env).csize = announcedCsize f ∧
      (s.readOnce env).fsize = announcedFsize f ∧ Handled s (s.readOnce env) rest
      [.handed .fileTransferBegin f, .putMessageIntoAppMailbox (beginEvent env f)] := by
  have hbegin := onReceiveFileTransferBegin_spec env (s := { s with
      reads := [], readBuf := f, socket := rest, log := s.log ++ [.handed .fileTransferBegin f] })
    rfl ht hc
  rw [readOnce_of_established env h hst hs hf]
  simp only [onReceiveStandardFrame, firstSwitch, getMsgHeader, hm, if_false, arrive_zero,
    getFileHeader, ht, if_true]
  refine ⟨hbegin.1, hbegin.2.1, hbegin.2.2.1, ⟨hbegin.2.2.2.socket, ?_, hbegin.2.2.2.state,
    hbegin.2.2.2.serviceName⟩⟩
  rw [emit, hbegin.2.2.2.log]
  simp

/-! ### Chunks -/

/-- The event a chunk frame becomes, under the sizes of the last BEGIN. -/
def chunkData (s : Session) (f : Bytes) : BVTCPFileData :=
  ⟨(getFileHeader f).correlationKey, s.csize, s.fsize, getFileDataSized f s.csize.toNat⟩

theorem readNextChunk_chunkMode {s : Session} (hr : s.reads = [])
    (hc : s.csize.toNat + fileHeaderSizeBytes < 2 ^ 32) : s.readNextChunk.ChunkMode := by
  have hsize := ofNat_toNat_add_fileHeaderSize hc
  simp only [readNextChunk, startReadingChunks, hsize, Nat.not_lt_zero, if_false, Nat.sub_zero,
    fileHeaderSizeBytes, Nat.add_eq_zero_iff, OfNat.ofNat_ne_zero, and_false, hr, List.nil_append]
  exact ⟨rfl, rfl, by simp, hc⟩

theorem readNextChunk_handled (s : Session) : Handled s s.readNextChunk s.socket [] := by
  simp only [readNextChunk, startReadingChunks]
  split
  · exact ⟨rfl, (List.append_nil _).symm, rfl, rfl⟩
  · split <;> exact ⟨rfl, (List.append_nil _).symm, rfl, rfl⟩

theorem readNextChunk_sizes (s : Session) :
    s.readNextChunk.csize = s.csize ∧ s.readNextChunk.fsize = s.fsize := by
  simp only [readNextChunk, startReadingChunks]
  split
  · exact ⟨rfl, rfl⟩
  · split <;> exact ⟨rfl, rfl⟩

/-- **A chunk frame** goes to the app and the session waits for the next chunk. -/
theorem readOnce_fileChunkSent {s : Session} {f rest : Bytes} (env : Env) (h : s.ChunkMode)
    (hs : s.socket = f ++ rest) (hf : f.length = s.csize.toNat + fileHeaderSizeBytes)
    (ht : at_ f 12 = BVTCPMessageType.fileTransferChunkSent) :
    (s.readOnce env).ChunkMode ∧ (s.readOnce env).csize = s.csize ∧
      (s.readOnce env).fsize = s.fsize ∧ Handled s (s.readOnce env) rest
      [.handed .fileChunkSent f,
        .putMessageIntoAppMailbox (.fileTransferChunkSent (s.chunkData f))] := by
  rw [readOnce_of_chunkMode env h hs hf]
  simp only [readFileChunkCallback, getFileHeader, ht, if_true, onReceiveFileChunkSent,
    ne_eq, not_true_eq_false, if_false, emit]
  refine ⟨readNextChunk_chunkMode rfl h.fits, (readNextChunk_sizes _).1, (readNextChunk_sizes _).2,
    ⟨(readNextChunk_handled _).socket, ?_, (readNextChunk_handled _).state,
      (readNextChunk_handled _).serviceName⟩⟩
  rw [(readNextChunk_handled _).log]
  simp [chunkData, getFileHeader]

/-- **An END frame** goes to the app and the session is back to message frames. -/
theorem readOnce_fileTransferEnd {s : Session} {f rest : Bytes} (env : Env) (h : s.ChunkMode)
    (hs : s.socket = f ++ rest) (hf : f.length = s.csize.toNat + fileHeaderSizeBytes)
    (ht : at_ f 12 = BVTCPMessageType.fileTransferEnd) :
    (s.readOnce env).FrameMode ∧ Handled s (s.readOnce env) rest
      [.handed .fileTransferEnd f,
        .putMessageIntoAppMailbox (.fileTransferEnd (s.chunkData f))] := by
  have hne : ¬ BVTCPMessageType.fileTransferEnd = BVTCPMessageType.fileTransferChunkSent := by
    decide
  rw [readOnce_of_chunkMode env h hs hf]
  simp only [readFileChunkCallback, getFileHeader, ht, hne, if_false, if_true,
    onReceiveFileTransferEnd, ne_eq, not_true_eq_false, emit, clearFileBuffer, clearReadBuffer,
    startReadingFrames]
  exact ⟨⟨rfl, rfl, by simp⟩, ⟨rfl, by simp [chunkData, getFileHeader], rfl, rfl⟩⟩

end Session

end LocalChat
