import LocalChat.Wire.Codec

/-!
# The read side of a session

`BVTCPSession` as a state machine.  A `Session` carries the buffers, the counters and the
connection state of `BVTCPNodeConnectionSessionData`, the read operations it has started
and not yet completed (`reads`), the bytes its socket has still to give (`socket`), and a
log of what its handlers did (`log`).

An `async_read` owns its buffer from the call until its handler runs and may fill it at
any moment.  `arrive n` is such a moment: the oldest outstanding read takes up to `n`
bytes from the socket.  A callback is run by `completeRead` once its read is full.  Between
starting a read and returning, a callback can be overtaken by arriving bytes at two points
that matter, before the second switch of `OnReceiveStandardFrame` looks at `readBuf` and
before the buffer is looked at or cleared again; a `Window` says how many bytes come in at
each.

`readOnce` is the undisturbed case: the outstanding read fills up and its callback runs
with no byte arriving in between.
-/

namespace LocalChat

open Octets

/-! ### State -/

inductive ReadTarget
  | frame
  | chunk
  deriving DecidableEq, Repr

/-- An outstanding `async_read`: its buffer, where in the buffer it started, how many bytes it
asked for and how many it has. -/
structure ReadOp where
  target : ReadTarget
  offset : Nat
  size : Nat
  got : Nat
  deriving DecidableEq, Repr

inductive AppEvent
  | messageIncoming (textData : Bytes) (timestamp : UInt64) (sender : Bytes)
  | fileOffer (d : BVTCPFileData)
  | fileTransferBegin (d : BVTCPFileData)
  | fileTransferChunkSent (d : BVTCPFileData)
  | fileTransferEnd (d : BVTCPFileData)
  deriving DecidableEq, Repr

/-- The branches a received unit can be dispatched to. -/
inductive Handler
  | hello
  | helloBack
  | confirmEstablished
  | chatMessage
  | fileTransferBegin
  | fileOffer
  | fileAccept
  | fileReject
  | fileChunkSent
  | fileTransferEnd
  deriving DecidableEq, Repr

inductive Effect
  /-- a handler is entered; `unit` is the content of the buffer it was dispatched on -/
  | handed (h : Handler) (unit : Bytes)
  | putMessageIntoAppMailbox (e : AppEvent)
  | signalFileTransfer (correlationKey : UInt32) (accept : Bool)
  | writeMessageFrame (m : BVTCPMessage)
  /-- `writeBuf.erase()` -/
  | eraseWriteBuf
  /-- the manager enters the session into its maps under a name -/
  | registerSession (serviceName : Bytes)
  deriving DecidableEq

structure Session where
  state : BVSessionState
  /-- `[]` stands for the null pointer `Close` leaves behind -/
  readBuf : Bytes
  fileReadBuf : Bytes
  csize : UInt32
  fsize : UInt32
  totalBytesRead : Nat
  /-- `nodeData.serviceName`, the peer -/
  serviceName : Bytes
  thisMachineServiceName : Bytes
  reads : List ReadOp
  socket : Bytes
  log : List Effect
  deriving DecidableEq

/-- What a callback reads from outside the session. -/
structure Env where
  /-- `IsSessionAlreadyPresent` of the manager -/
  isSessionAlreadyPresent : Bytes → Bool
  /-- the system clock -/
  now : UInt64
  /-- the memory behind `readBuf` -/
  past : Bytes
  /-- the content of an uninitialised local array -/
  uninit : CharBufferArray128B
  /-- the memory behind the local copy of a chat message's payload -/
  behind : Nat → UInt8

/-- Surroundings with no other session, the clock at 0 and zeroed memory. -/
def Env.blank : Env := ⟨fun _ => false, 0, [], .zero, fun _ => 0⟩

/-- How many bytes arrive inside a callback, before its second switch and after it. -/
structure Window where
  beforeSwitch : Nat
  afterSwitch : Nat
  deriving DecidableEq, Repr

abbrev Window.quiet : Window := ⟨0, 0⟩

namespace Session

/-! ### Reads -/

def emit (s : Session) (e : Effect) : Session := { s with log := s.log ++ [e] }

/-- The oldest outstanding read takes up to `n` bytes from the socket. -/
def arrive (n : Nat) (s : Session) : Session :=
  match s.reads with
  | [] => s
  | op :: rest =>
    let d := s.socket.take (min n (op.size - op.got))
    let s' := { s with
      socket := s.socket.drop d.length
      reads := { op with got := op.got + d.length } :: rest }
    match op.target with
    | .frame => { s' with readBuf := overwrite (op.offset + op.got) d s.readBuf }
    | .chunk => { s' with fileReadBuf := overwrite (op.offset + op.got) d s.fileReadBuf }

def startReadingFrames (s : Session) : Session :=
  { s with reads := s.reads ++
      [⟨.frame, s.totalBytesRead, messageFrameSizeBytes - s.totalBytesRead, 0⟩] }

/-- `StartReadingChunks`; its parameter is a `uint32_t`. -/
def startReadingChunks (csize : UInt32) (s : Session) : Session :=
  if csize.toNat < s.totalBytesRead then s
  else
    let remaining := csize.toNat - s.totalBytesRead
    if remaining = 0 then s
    else { s with reads := s.reads ++ [⟨.chunk, s.totalBytesRead, remaining, 0⟩] }

def clearReadBuffer (s : Session) : Session :=
  { s with readBuf := List.replicate messageFrameSizeBytes 0, totalBytesRead := 0 }

def clearFileBuffer (s : Session) : Session := { s with fileReadBuf := [0] }

/-- `Close`; the cancelled reads complete with an error, which their callbacks only log. -/
def close (s : Session) : Session :=
  { s with state := .closed, readBuf := [], reads := [] }.emit .eraseWriteBuf

/-! ### Handshake handlers -/

/-- The HELLOBACK message `OnReceiveHelloFrame` builds. -/
def replyMsg (env : Env) (thisMachineServiceName : Bytes) : BVTCPMessage :=
  let msg := constructMessage env.now BVTCPMessageType.helloBack
    (env.uninit.copyFrom thisMachineServiceName)
  { msg with header := { msg.header with dataLen := UInt8.ofNat thisMachineServiceName.length } }

/-- `OnReceiveHelloFrame`.  It looks at the type through a `BVTCPMessage*`; the compiler's layout
of that struct has `timestamp` at 8 and `msgType` at 16. -/
def onReceiveHelloFrame (env : Env) (s : Session) : Session :=
  if at_ s.readBuf 16 ≠ BVTCPMessageType.hello then s
  else ((s.emit (.writeMessageFrame (replyMsg env s.thisMachineServiceName))).emit
    .eraseWriteBuf).startReadingFrames

/-- `BVTCPConnectionManager::HandleSessionIdentification`, as far as it acts on the caller. -/
def handleSessionIdentification (env : Env) (serviceName : Bytes) (s : Session) : Session :=
  if env.isSessionAlreadyPresent serviceName then s.close
  else
    let s := { s with state := .established, serviceName := serviceName }
    let s := s.emit (.registerSession serviceName)
    let s := s.emit (.writeMessageFrame
      (constructMessage env.now BVTCPMessageType.confirmEstablished .zero))
    s.startReadingFrames

def onReceiveHelloBackFrame (env : Env) (s : Session) : Session :=
  let header := getMsgHeader s.readBuf
  if header.msgType ≠ BVTCPMessageType.helloBack then s
  else if 128 < header.dataLen then s
  else
    match getPayloadPtr s.readBuf with
    | none => s
    | some payloadPtr => s.handleSessionIdentification env (payloadPtr.take header.dataLen.toNat)

def onReceiveConfirmEstablished (s : Session) : Session :=
  { s with state := .established }.startReadingFrames

/-! ### Chat and file handlers -/

def onReceiveChatMessageFrame (env : Env) (s : Session) : Session :=
  let header := getMsgHeader s.readBuf
  if header.msgType ≠ BVTCPMessageType.chatMessage then s
  else
    match getPayloadPtr s.readBuf with
    | none => s
    | some payloadPtr =>
      let payload := payloadPtr.take payloadSizeBytes
      let payloadStr := stringAt payload env.behind header.dataLen.toNat
      (s.emit (.putMessageIntoAppMailbox
        (.messageIncoming payloadStr header.timestamp s.serviceName))).startReadingFrames

def onReceiveFileOffer (env : Env) (s : Session) : Session :=
  let header := getFileHeader s.readBuf
  let payload := getFileData s.readBuf env.past
  let fsize := (header.metadata &&& 0xFFFFFFFF).toUInt32
  s.emit (.putMessageIntoAppMailbox (.fileOffer ⟨header.correlationKey, 0, fsize, payload⟩))

def onReceiveFileTransferBegin (env : Env) (s : Session) : Session :=
  let header := getFileHeader s.readBuf
  let payload := getFileData s.readBuf env.past
  if header.msgType ≠ BVTCPMessageType.fileTransferBegin then s
  else
    let csize := metadataCsize header.metadata
    let fsize := metadataFsize header.metadata
    let s := { s with csize := csize, fsize := fsize }
    let s := s.emit (.putMessageIntoAppMailbox
      (.fileTransferBegin ⟨header.correlationKey, csize, fsize, payload⟩))
    let s := s.clearReadBuffer
    let s := { s with
      fileReadBuf := List.replicate (csize.toNat + fileHeaderSizeBytes) 0
      totalBytesRead := 0 }
    s.startReadingChunks (UInt32.ofNat (csize.toNat + fileHeaderSizeBytes))

def onReceiveFileChunkSent (s : Session) : Session :=
  let header := getFileHeader s.fileReadBuf
  let payload := getFileDataSized s.fileReadBuf s.csize.toNat
  if header.msgType ≠ BVTCPMessageType.fileTransferChunkSent then s
  else s.emit (.putMessageIntoAppMailbox
    (.fileTransferChunkSent ⟨header.correlationKey, s.csize, s.fsize, payload⟩))

def onReceiveFileTransferEnd (s : Session) : Session :=
  let header := getFileHeader s.fileReadBuf
  let payload := getFileDataSized s.fileReadBuf s.csize.toNat
  if header.msgType ≠ BVTCPMessageType.fileTransferEnd then s
  else s.emit (.putMessageIntoAppMailbox
    (.fileTransferEnd ⟨header.correlationKey, s.csize, s.fsize, payload⟩))

/-! ### Dispatch -/

/-- The first switch of `OnReceiveStandardFrame`, on the message header. -/
def firstSwitch (env : Env) (s : Session) : Session :=
  if (getMsgHeader s.readBuf).msgType = BVTCPMessageType.chatMessage then
    (s.emit (.handed .chatMessage s.readBuf)).onReceiveChatMessageFrame env
  else s

/-- `OnReceiveStandardFrame`; the flag is its return value. -/
def onReceiveStandardFrame (env : Env) (w : Window) (s : Session) : Bool × Session :=
  let s := (s.firstSwitch env).arrive w.beforeSwitch
  let fileHeader := getFileHeader s.readBuf
  let unit := s.readBuf
  let s := s.arrive w.afterSwitch
  if fileHeader.msgType = BVTCPMessageType.fileTransferBegin then
    (true, (s.emit (.handed .fileTransferBegin unit)).onReceiveFileTransferBegin env)
  else if fileHeader.msgType = BVTCPMessageType.fileOffer then
    (true, ((s.emit (.handed .fileOffer unit)).onReceiveFileOffer env).startReadingFrames)
  else if fileHeader.msgType = BVTCPMessageType.fileAccept then
    (true, ((s.emit (.handed .fileAccept unit)).emit
      (.signalFileTransfer fileHeader.correlationKey true)).startReadingFrames)
  else if fileHeader.msgType = BVTCPMessageType.fileReject then
    (true, ((s.emit (.handed .fileReject unit)).emit
      (.signalFileTransfer fileHeader.correlationKey false)).startReadingFrames)
  else (false, s)

/-- The three handshake branches for a session in state UNPREPARED. -/
def dispatchHandshake (env : Env) (s : Session) : Session :=
  let header := getMsgHeader s.readBuf
  if header.msgType = BVTCPMessageType.hello then
    (s.emit (.handed .hello s.readBuf)).onReceiveHelloFrame env
  else if header.msgType = BVTCPMessageType.helloBack then
    (s.emit (.handed .helloBack s.readBuf)).onReceiveHelloBackFrame env
  else if header.msgType = BVTCPMessageType.confirmEstablished then
    (s.emit (.handed .confirmEstablished s.readBuf)).onReceiveConfirmEstablished
  else s

def finishFrame (s : Session) : Session :=
  if s.state ≠ .closed then s.clearReadBuffer else s

def readMessageFrameCallback (env : Env) (w : Window) (bytesTransferred : Nat) (s : Session) :
    Session :=
  let s := { s with totalBytesRead := s.totalBytesRead + bytesTransferred }
  if s.totalBytesRead = messageFrameSizeBytes then
    let s := { s with totalBytesRead := 0 }
    if s.state = .unprepared then ((s.dispatchHandshake env).arrive w.afterSwitch).finishFrame
    else
      match s.onReceiveStandardFrame env w with
      | (true, s) => s
      | (false, s) => s.finishFrame
  else s.startReadingFrames

/-- The last lines of `ReadFileChunkCallback`: the buffer is zeroed and the next chunk is read. -/
def readNextChunk (s : Session) : Session :=
  let s := { s with
    totalBytesRead := 0
    fileReadBuf := List.replicate (s.csize.toNat + fileHeaderSizeBytes) 0 }
  s.startReadingChunks (UInt32.ofNat (s.csize.toNat + fileHeaderSizeBytes))

def readFileChunkCallback (bytesTransferred : Nat) (s : Session) : Session :=
  let s := { s with totalBytesRead := s.totalBytesRead + bytesTransferred }
  let header := getFileHeader s.fileReadBuf
  if header.msgType = BVTCPMessageType.fileTransferChunkSent then
    ((s.emit (.handed .fileChunkSent s.fileReadBuf)).onReceiveFileChunkSent).readNextChunk
  else if header.msgType = BVTCPMessageType.fileTransferEnd then
    let s := (s.emit (.handed .fileTransferEnd s.fileReadBuf)).onReceiveFileTransferEnd
    let s := s.clearFileBuffer.clearReadBuffer
    { s with
      readBuf := List.replicate messageFrameSizeBytes 0
      totalBytesRead := 0 }.startReadingFrames
  else s.readNextChunk

/-- The io thread runs the callback of the oldest outstanding read, if that read is full. -/
def completeRead (env : Env) (w : Window) (s : Session) : Session :=
  match s.reads with
  | [] => s
  | op :: rest =>
    if op.got = op.size then
      let s := { s with reads := rest }
      match op.target with
      | .frame => s.readMessageFrameCallback env w op.size
      | .chunk => s.readFileChunkCallback op.size
    else s

/-- The outstanding read fills up from the socket and its callback runs undisturbed. -/
def readOnce (env : Env) (s : Session) : Session :=
  match s.reads with
  | [] => s
  | op :: _ => (s.arrive (op.size - op.got)).completeRead env .quiet

def feed (envs : List Env) (s : Session) : Session := envs.foldl (fun s env => s.readOnce env) s

end Session

/-! ### Construction -/

/-- A session as its constructor leaves it.  The constructor leaves `csize` and `fsize` unset;
nothing reads them before a BEGIN frame has set them. -/
def Session.construct (thisMachineServiceName serviceName : Bytes) : Session where
  state := .unprepared
  readBuf := List.replicate messageFrameSizeBytes 0
  fileReadBuf := [0]
  csize := 0
  fsize := 0
  totalBytesRead := 0
  serviceName := serviceName
  thisMachineServiceName := thisMachineServiceName
  reads := []
  socket := []
  log := []

end LocalChat
