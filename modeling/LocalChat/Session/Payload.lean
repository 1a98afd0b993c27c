import LocalChat.Session.Spec

/-!
# Where the payload of a message frame is read

`OnReceiveHelloBackFrame` makes a string of the payload where it lies, behind the header in
`readBuf`, and refuses a length above 128 first.  `OnReceiveChatMessageFrame` copies the 128
bytes to a local `BVChatMessagePayload` and makes the string from the copy, with the length the
frame gives: up to 255 bytes from an array of 128.

An `Extraction` lists the bytes read and holds the string.  The bytes a read finds past the end
of an object are those of `behind`.

* `onReceiveHelloBackFrame_extract`, `onReceiveChatMessageFrame_extract`: the handlers of a session
  work on the extracted string.
* `decodes_in_bounds_iff`: both extractions stay in the payload of the frame, and their string in
  128 bytes, exactly if the frame is not a chat message with a length above 128.
-/

namespace LocalChat

open Octets

/-! ### Reads of memory -/

inductive Place
  | readBuf
  /-- the local copy of the payload -/
  | payload
  deriving DecidableEq, Repr

structure Span where
  place : Place
  start : Nat
  size : Nat
  deriving DecidableEq, Repr

/-- The bytes belong to the payload of the frame, or to the copy of it. -/
def Span.InPayload (r : Span) : Prop :=
  match r.place with
  | .readBuf => headerSizeBytes ≤ r.start ∧ r.start + r.size ≤ messageFrameSizeBytes
  | .payload => r.start + r.size ≤ payloadSizeBytes

structure Extraction where
  spans : List Span
  payloadStr : Bytes
  deriving DecidableEq, Repr

/-- Only payload bytes are read, and the string is no longer than a payload. -/
structure Extraction.InBounds (x : Extraction) : Prop where
  spans : ∀ r ∈ x.spans, r.InPayload
  length : x.payloadStr.length ≤ payloadSizeBytes

/-! ### The two extractions -/

def extractHelloBack (buf : Bytes) (behind : Nat → UInt8) : Option Extraction :=
  let header := getMsgHeader buf
  if header.msgType ≠ BVTCPMessageType.helloBack then none
  else if 128 < header.dataLen then none
  else
    (getPayloadPtr buf).map fun payloadPtr =>
      ⟨[⟨.readBuf, headerSizeBytes, header.dataLen.toNat⟩],
        stringAt payloadPtr behind header.dataLen.toNat⟩

def extractChatMessage (buf : Bytes) (behind : Nat → UInt8) : Option Extraction :=
  let header := getMsgHeader buf
  if header.msgType ≠ BVTCPMessageType.chatMessage then none
  else
    (getPayloadPtr buf).map fun payloadPtr =>
      ⟨[⟨.readBuf, headerSizeBytes, payloadSizeBytes⟩, ⟨.payload, 0, header.dataLen.toNat⟩],
        stringAt (payloadPtr.take payloadSizeBytes) behind header.dataLen.toNat⟩

section Frame

variable {buf : Bytes} (hlen : buf.length = messageFrameSizeBytes) (behind : Nat → UInt8)

include hlen

theorem getPayloadPtr_frame : getPayloadPtr buf = some (buf.drop headerSizeBytes) := by
  rw [getPayloadPtr, if_neg]
  rintro rfl
  cases hlen

theorem length_payload_frame : (buf.drop headerSizeBytes).length = payloadSizeBytes := by
  simp only [List.length_drop, hlen, messageFrameSizeBytes, headerSizeBytes, payloadSizeBytes,
    Nat.reduceSub]

theorem extractHelloBack_inBounds {x : Extraction} (hx : extractHelloBack buf behind = some x) :
    x.InBounds := by
  simp only [extractHelloBack, getPayloadPtr_frame hlen, Option.map_some] at hx
  split at hx
  · cases hx
  · split at hx
    · cases hx
    · rename_i hle
      have hle' : (getMsgHeader buf).dataLen.toNat ≤ 128 := by
        rw [UInt8.lt_iff_toNat_lt] at hle
        exact Nat.not_lt.mp hle
      cases hx
      refine ⟨?_, ?_⟩
      · intro r hr
        rw [List.mem_singleton.mp hr]
        exact ⟨le_refl _, by simp only [headerSizeBytes, messageFrameSizeBytes]; omega⟩
      · rw [length_stringAt]
        exact hle'

/-- The string of a chat message is as long as the frame says. -/
theorem extractChatMessage_inBounds_iff {x : Extraction}
    (hx : extractChatMessage buf behind = some x) : x.InBounds ↔ (at_ buf 0).toNat ≤ 128 := by
  have hlenByte : (getMsgHeader buf).dataLen = at_ buf 0 := rfl
  simp only [extractChatMessage, getPayloadPtr_frame hlen, Option.map_some] at hx
  split at hx
  · cases hx
  · cases hx
    rw [hlenByte]
    constructor
    · intro h
      have hle := h.length
      rwa [length_stringAt] at hle
    · intro hle
      refine ⟨?_, by rwa [length_stringAt]⟩
      intro r hr
      rcases List.mem_cons.mp hr with rfl | hr
      · exact ⟨le_refl _, le_refl _⟩
      · rw [List.mem_singleton.mp hr]
        exact (Nat.zero_add _).trans_le hle

theorem exists_extractChatMessage (hm : at_ buf 9 = BVTCPMessageType.chatMessage) :
    ∃ x, extractChatMessage buf behind = some x := by
  have hm' : (getMsgHeader buf).msgType = BVTCPMessageType.chatMessage := hm
  rw [extractChatMessage, if_neg (not_not_intro hm'), getPayloadPtr_frame hlen]
  exact ⟨_, rfl⟩

end Frame

/-! ### The handlers -/

namespace Session

variable {s : Session} (hlen : s.readBuf.length = messageFrameSizeBytes) (behind : Nat → UInt8)

include hlen

/-- `OnReceiveHelloBackFrame` identifies the peer by the extracted string. -/
theorem onReceiveHelloBackFrame_extract (env : Env) :
    s.onReceiveHelloBackFrame env =
      match extractHelloBack s.readBuf behind with
      | none => s
      | some x => s.handleSessionIdentification env x.payloadStr := by
  simp only [onReceiveHelloBackFrame, extractHelloBack, getPayloadPtr_frame hlen, Option.map_some]
  by_cases hm : (getMsgHeader s.readBuf).msgType ≠ BVTCPMessageType.helloBack
  · rw [if_pos hm, if_pos hm]
  · rw [if_neg hm, if_neg hm]
    by_cases hle : 128 < (getMsgHeader s.readBuf).dataLen
    · rw [if_pos hle, if_pos hle]
    · have hle' : (getMsgHeader s.readBuf).dataLen.toNat ≤
          (s.readBuf.drop headerSizeBytes).length := by
        rw [UInt8.lt_iff_toNat_lt] at hle
        rw [length_payload_frame hlen]
        exact Nat.not_lt.mp hle
      rw [if_neg hle, if_neg hle]
      simp only [stringAt_of_le behind hle']

/-- `OnReceiveChatMessageFrame` puts the extracted string into the mailbox. -/
theorem onReceiveChatMessageFrame_extract (env : Env) :
    s.onReceiveChatMessageFrame env =
      match extractChatMessage s.readBuf env.behind with
      | none => s
      | some x => (s.emit (.putMessageIntoAppMailbox (.messageIncoming x.payloadStr
          (getMsgHeader s.readBuf).timestamp s.serviceName))).startReadingFrames := by
  simp only [onReceiveChatMessageFrame, extractChatMessage, getPayloadPtr_frame hlen,
    Option.map_some]
  split
  · rfl
  · rfl

omit hlen

/-- Whatever lies behind the objects, the frame in `readBuf` is decoded in bounds by both handlers.
-/
def DecodesInBounds (s : Session) : Prop :=
  ∀ behind x, extractHelloBack s.readBuf behind = some x ∨
    extractChatMessage s.readBuf behind = some x → x.InBounds

/-- **Decoding in bounds.**  The payload of a message frame is extracted from the payload alone,
into a string of at most 128 bytes, exactly if the frame is not a chat message with a length above
128. -/
theorem decodes_in_bounds_iff (s : Session) (hlen : s.readBuf.length = messageFrameSizeBytes) :
    s.DecodesInBounds ↔
      ¬ (at_ s.readBuf 9 = BVTCPMessageType.chatMessage ∧ 128 < (at_ s.readBuf 0).toNat) := by
  constructor
  · rintro h ⟨hm, hlong⟩
    obtain ⟨x, hx⟩ := exists_extractChatMessage hlen (fun _ => 0) hm
    have hle := (extractChatMessage_inBounds_iff hlen _ hx).mp (h _ x (.inr hx))
    omega
  · intro hshort behind x hx
    rcases hx with hx | hx
    · exact extractHelloBack_inBounds hlen behind hx
    · have hm : at_ s.readBuf 9 = BVTCPMessageType.chatMessage := by
        by_contra hm
        have hm' : (getMsgHeader s.readBuf).msgType ≠ BVTCPMessageType.chatMessage := hm
        rw [extractChatMessage, if_pos hm'] at hx
        cases hx
      rw [extractChatMessage_inBounds_iff hlen behind hx]
      exact Nat.not_lt.mp fun hlong => hshort ⟨hm, hlong⟩

/-- A session whose buffer holds 138 zeros. -/
theorem decodes_in_bounds_zeros : (Session.construct [97] [98]).DecodesInBounds :=
  (decodes_in_bounds_iff (Session.construct [97] [98]) List.length_replicate).mpr (by decide)

/-- A chat message with the length 255: the string takes 127 bytes from behind the local array. -/
theorem chat_length_read_past_payload :
    let frame : Bytes := 255 :: (List.replicate 8 0 ++ 5 :: List.replicate 128 7)
    let s := { Session.construct [97] [98] with state := .established, readBuf := frame }
    frame.length = messageFrameSizeBytes ∧
      (∀ behind, ∃ x, extractChatMessage frame behind = some x ∧ x.payloadStr.length = 255 ∧
        ⟨.payload, 0, 255⟩ ∈ x.spans) ∧
      ¬ s.DecodesInBounds := by
  intro frame s
  have hlen : frame.length = messageFrameSizeBytes := by
    simp only [frame, List.length_cons, List.length_append, List.length_replicate]
  refine ⟨hlen, ?_, ?_⟩
  · intro behind
    refine ⟨_, rfl, length_stringAt _ _ _, ?_⟩
    exact List.mem_cons_of_mem _ List.mem_cons_self
  · intro h
    obtain ⟨x, hx⟩ := exists_extractChatMessage hlen (fun _ => 0) (by decide)
    have hle := (extractChatMessage_inBounds_iff hlen _ hx).mp (h _ x (.inr hx))
    exact absurd hle (by decide)

end Session

end LocalChat
