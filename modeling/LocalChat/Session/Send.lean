import LocalChat.Session.Spec

/-!
# The frames a peer sends outside a transfer

`SendFileOffer` and `SendFileControl` build OFFER, ACCEPT and REJECT frames, each as long
as a message frame.  `PeerFrame` is one frame of the traffic between an established pair
of hosts that is not part of a file transfer, with its bytes and the handler it is meant
for.
-/

namespace LocalChat

open Octets

abbrev controlPayloadBytes : Nat := messageFrameSizeBytes - fileHeaderSizeBytes

def sendFileOffer (now : UInt64) (thisMachineServiceName : Bytes) (correlationKey fsize : UInt32)
    (name : Bytes) : Bytes :=
  let payload := thisMachineServiceName ++ [bar] ++ name ++ [0]
  writeFileChunkSync
    ⟨constructFileHeader now BVTCPMessageType.fileOffer correlationKey fsize.toUInt64, payload⟩
    controlPayloadBytes

def sendFileControl (now : UInt64) (correlationKey : UInt32) (msgType : UInt8) : Bytes :=
  writeFileChunkSync ⟨constructFileHeader now msgType correlationKey 0, []⟩ controlPayloadBytes

/-- A frame written outside a file transfer. -/
inductive PeerFrame
  | chat (now : UInt64) (text : Bytes)
  | offer (now : UInt64) (serviceName : Bytes) (correlationKey fsize : UInt32) (name : Bytes)
  | verdict (now : UInt64) (correlationKey : UInt32) (accept : Bool)
  deriving DecidableEq

namespace PeerFrame

def bytes : PeerFrame → Bytes
  | chat now text => messageFrame (constructChatMessageFromInput now text)
  | offer now serviceName key fsize name => sendFileOffer now serviceName key fsize name
  | verdict now key accept => sendFileControl now key
      (if accept then BVTCPMessageType.fileAccept else BVTCPMessageType.fileReject)

def handler : PeerFrame → Handler
  | chat _ _ => .chatMessage
  | offer _ _ _ _ _ => .fileOffer
  | verdict _ _ accept => Session.verdictOf accept

@[simp] theorem length_bytes (f : PeerFrame) : f.bytes.length = messageFrameSizeBytes := by
  cases f <;> simp [bytes, sendFileOffer, sendFileControl]

theorem msgType_bytes (f : PeerFrame) : at_ f.bytes 9 = match f with
    | chat _ _ => BVTCPMessageType.chatMessage
    | offer now _ _ _ _ => UInt8.ofNat (now.toNat / 256 ^ 5)
    | verdict now _ _ => UInt8.ofNat (now.toNat / 256 ^ 5) := by
  cases f with
  | chat now text => exact msgType_messageFrame _
  | offer now s k n f => exact msgType_writeFileChunkSync _ _
  | verdict now k a => exact msgType_writeFileChunkSync _ _

end PeerFrame

/-! ### The bytes of a chat text -/

theorem chatPayload_eq (now : UInt64) (text : Bytes) :
    (constructChatMessageFromInput now text).payload.data = padTo payloadSizeBytes text := by
  have htake : text.take (min text.length payloadSizeBytes) = text.take payloadSizeBytes := by
    rw [min_comm, ← List.take_take, List.take_length]
  simp only [constructChatMessageFromInput, CharBufferArray128B.copyFrom,
    CharBufferArray128B.zero, htake, padTo, List.length_take, List.drop_replicate]
  rw [List.take_of_length_le (by simp)]
  congr 2
  omega

theorem fileType_chat (now : UInt64) (text : Bytes) :
    at_ (PeerFrame.chat now text).bytes 12 = at_ text 2 := by
  rw [PeerFrame.bytes, fileType_messageFrame, chatPayload_eq, at_padTo (by decide)]

theorem PeerFrame.fileType_bytes (f : PeerFrame) : at_ f.bytes 12 = match f with
    | chat _ text => at_ text 2
    | offer _ _ _ _ _ => BVTCPMessageType.fileOffer
    | verdict _ _ accept =>
      if accept then BVTCPMessageType.fileAccept else BVTCPMessageType.fileReject := by
  cases f with
  | chat now text => exact fileType_chat now text
  | offer now s k n f => exact fileType_writeFileChunkSync _ _
  | verdict now k a => exact fileType_writeFileChunkSync _ _

theorem chatEvent_chat (env : Env) (s : Session) (now : UInt64) (text : Bytes) :
    s.chatEvent env (PeerFrame.chat now text).bytes =
      .messageIncoming (text.take payloadSizeBytes) now s.serviceName := by
  have hdrop : (messageFrame (constructChatMessageFromInput now text)).drop headerSizeBytes =
      padTo payloadSizeBytes text := by
    rw [drop_messageFrame, chatPayload_eq]
  have hlen : (UInt8.ofNat (min text.length payloadSizeBytes)).toNat =
      min text.length payloadSizeBytes := by
    rw [UInt8.toNat_ofNat', Nat.mod_eq_of_lt (by simp)]
  have hcut : (padTo payloadSizeBytes text).take (min text.length payloadSizeBytes) =
      text.take payloadSizeBytes := by
    rw [padTo, List.take_append_of_le_length (by simp), List.take_take]
    simp [min_comm]
  rw [Session.chatEvent, PeerFrame.bytes, getMsgHeader_messageFrame, hdrop,
    List.take_of_length_le (l := padTo payloadSizeBytes text) (by simp)]
  simp only [constructChatMessageFromInput, hlen]
  rw [stringAt_of_le env.behind (by simp), hcut]

end LocalChat
