import LocalChat.Lib.Octets

/-!
# Messages and file frames

The data types of `BVTCPCommon.hpp`.  A connection carries two kinds of unit:

* a **message frame** of 138 bytes, a 10-byte `BVTCPMessageHeader` and a 128-byte
  payload, with the message type at byte 9;
* a **file frame** of 21 + m bytes, a `BVTCPFileHeader` and `m` payload bytes, with
  the message type at byte 12.  OFFER, ACCEPT, REJECT and BEGIN are sent with
  `m = 117`, so that they fill one message frame too.

Both kinds draw their type byte from the one table `BVTCPMessageType`.
-/

namespace LocalChat

/-- `std::string`, `std::vector<char>` and raw buffers. -/
abbrev Bytes := List UInt8

inductive BVStatus
  | ok
  | nok
  | inProgress
  | fatalError
  | dead
  | maxComponents
  deriving DecidableEq, Repr

@[simp] abbrev messageFrameSizeBytes : Nat := 138

@[simp] abbrev headerSizeBytes : Nat := 10

@[simp] abbrev payloadSizeBytes : Nat := 128

/-- `FILE_HEADER_SIZE_BYTES`: 4 + 8 + 1 + 8. -/
@[simp] abbrev fileHeaderSizeBytes : Nat := 21

abbrev bar : UInt8 := 124

def isprint (b : UInt8) : Bool := 32 ≤ b && b ≤ 126

inductive BVSessionState
  | unprepared
  | established
  | closed
  deriving DecidableEq, Repr

/-! ### Message types -/

namespace BVTCPMessageType

@[simp] abbrev hello : UInt8 := 0
@[simp] abbrev helloBack : UInt8 := 1
@[simp] abbrev confirmEstablished : UInt8 := 3
@[simp] abbrev chatMessage : UInt8 := 5
@[simp] abbrev fileTransferBegin : UInt8 := 6
@[simp] abbrev fileTransferChunkSent : UInt8 := 7
@[simp] abbrev fileTransferEnd : UInt8 := 8
@[simp] abbrev fileOffer : UInt8 := 9
@[simp] abbrev fileAccept : UInt8 := 10
@[simp] abbrev fileReject : UInt8 := 11

end BVTCPMessageType

/-! ### Headers and frames -/

structure BVTCPMessageHeader where
  dataLen : UInt8
  timestamp : UInt64
  msgType : UInt8
  deriving DecidableEq, Repr

structure CharBufferArray128B where
  data : Bytes
  size : data.length = payloadSizeBytes
  deriving DecidableEq

/-- The value-initialised array `std::array<char, 128>()`. -/
def CharBufferArray128B.zero : CharBufferArray128B :=
  ⟨List.replicate payloadSizeBytes 0, by simp⟩

/-- An array overwritten from its first element on; what does not fit is dropped. -/
def CharBufferArray128B.copyFrom (a : CharBufferArray128B) (src : Bytes) : CharBufferArray128B :=
  ⟨(src ++ a.data.drop src.length).take payloadSizeBytes, by
    have := a.size
    simp only [payloadSizeBytes, List.length_take, List.length_append, List.length_drop] at *
    omega⟩

/-- `BVTCPMessage<PayloadType>`; every payload type of the program is 128 bytes long. -/
structure BVTCPMessage where
  header : BVTCPMessageHeader
  payload : CharBufferArray128B
  deriving DecidableEq

structure BVTCPFileHeader where
  correlationKey : UInt32
  timestamp : UInt64
  msgType : UInt8
  metadata : UInt64
  deriving DecidableEq, Repr

structure BVTCPFileChunk where
  header : BVTCPFileHeader
  payload : Bytes
  deriving DecidableEq, Repr

/-- What a session hands to the app about a file frame. -/
structure BVTCPFileData where
  correlationKey : UInt32
  csize : UInt32
  fsize : UInt32
  fdata : Bytes
  deriving DecidableEq, Repr

/-! ### Constructors; `now` is the system clock in milliseconds -/

def constructFileHeader (now : UInt64) (msgType : UInt8) (correlationKey : UInt32)
    (metadata : UInt64) : BVTCPFileHeader :=
  ⟨correlationKey, now, msgType, metadata⟩

/-- `ConstructMessageHeader` followed by `ConstructMessage`, which sets `dataLen` to the size of
the payload type. -/
def constructMessage (now : UInt64) (msgType : UInt8) (payload : CharBufferArray128B) :
    BVTCPMessage :=
  ⟨⟨128, now, msgType⟩, payload⟩

/-- `BVApp_ConsoleClient::ConstructChatMessageFromInput`. -/
def constructChatMessageFromInput (now : UInt64) (inputString : Bytes) : BVTCPMessage :=
  let copyLen := min inputString.length payloadSizeBytes
  ⟨⟨UInt8.ofNat copyLen, now, BVTCPMessageType.chatMessage⟩,
    CharBufferArray128B.zero.copyFrom (inputString.take copyLen)⟩

end LocalChat
