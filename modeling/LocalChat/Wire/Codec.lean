import LocalChat.Wire.Types

/-!
# Writing and reading frames

`writeFileChunkSync` and `messageFrame` lay a frame out byte by byte as
`WriteFileChunkSync` and `WriteMessageFrame` do; `getMsgHeader`, `getFileHeader`
and `getFileData` read one back.

* `getMsgHeader_messageFrame`, `getFileHeader_writeFileChunkSync`,
  `getFileData_writeFileChunkSync`: each reader undoes its writer.
* `file_frame_round_trip`: all that is read back from one frame of `WriteFileChunkSync`.
* `msgType_writeFileChunkSync`: under the *message* layout a file frame shows the sixth
  byte of its timestamp as message type.
* `fileType_messageFrame`: under the *file* layout a message frame shows the third byte
  of its payload as message type.
-/

namespace LocalChat

open Octets

/-! ### Message frames -/

def messageFrame (m : BVTCPMessage) : Bytes :=
  m.header.dataLen :: toLE 8 m.header.timestamp.toNat ++ m.header.msgType :: m.payload.data

@[simp] theorem length_messageFrame (m : BVTCPMessage) :
    (messageFrame m).length = messageFrameSizeBytes := by
  simp [messageFrame, m.payload.size, payloadSizeBytes, messageFrameSizeBytes]

def getMsgHeader (buf : Bytes) : BVTCPMessageHeader where
  dataLen := at_ buf 0
  timestamp := UInt64.ofNat (ofLE ((buf.drop 1).take 8))
  msgType := at_ buf 9

/-- `GetPayloadPtr`: the bytes behind the message header, `none` for a null buffer. -/
def getPayloadPtr (buf : Bytes) : Option Bytes :=
  if buf = [] then none else some (buf.drop headerSizeBytes)

@[simp] theorem msgType_messageFrame (m : BVTCPMessage) :
    at_ (messageFrame m) 9 = m.header.msgType := by
  rw [messageFrame, List.cons_append, at_cons_succ, at_append_right (by simp)]
  simp

theorem getMsgHeader_messageFrame (m : BVTCPMessage) :
    getMsgHeader (messageFrame m) = m.header := by
  have hts : ofLE ((messageFrame m).drop 1 |>.take 8) = m.header.timestamp.toNat := by
    have hlt : m.header.timestamp.toNat < 256 ^ 8 := m.header.timestamp.toNat_lt
    rw [messageFrame, List.cons_append, List.drop_succ_cons, List.drop_zero,
      List.take_append_of_le_length (by simp), List.take_of_length_le (by simp),
      ofLE_toLE_of_lt hlt]
  rw [getMsgHeader, hts, msgType_messageFrame, UInt64.ofNat_toNat]
  rfl

theorem getPayloadPtr_messageFrame (m : BVTCPMessage) :
    getPayloadPtr (messageFrame m) = some m.payload.data := by
  rw [getPayloadPtr, if_neg (by simp [messageFrame]), messageFrame, List.cons_append,
    headerSizeBytes, List.drop_succ_cons, List.drop_append,
    List.drop_eq_nil_of_le (by simp)]
  simp

theorem drop_messageFrame (m : BVTCPMessage) :
    (messageFrame m).drop headerSizeBytes = m.payload.data := by
  have h := getPayloadPtr_messageFrame m
  rw [getPayloadPtr, if_neg (by simp [messageFrame])] at h
  exact Option.some.inj h

/-! ### Strings -/

/-- `std::string(p, n)`, for `p` at the start of an object with the bytes `obj`. -/
def stringAt (obj : Bytes) (behind : Nat → UInt8) (n : Nat) : Bytes :=
  (List.range n).map fun i => if i < obj.length then at_ obj i else behind (i - obj.length)

@[simp] theorem length_stringAt (obj : Bytes) (behind : Nat → UInt8) (n : Nat) :
    (stringAt obj behind n).length = n := by
  simp [stringAt]

theorem take_stringAt {obj : Bytes} (behind : Nat → UInt8) (n : Nat) {k : Nat}
    (hk : k ≤ obj.length) : (stringAt obj behind n).take k = (obj.take k).take n := by
  apply List.ext_getElem
  · simp only [List.length_take, length_stringAt]
    omega
  · intro i hi _
    simp only [List.length_take, length_stringAt] at hi
    have hlt : i < obj.length := by omega
    simp only [stringAt, List.getElem_take, List.getElem_map, List.getElem_range, hlt, if_true,
      at_, List.getD_eq_getElem?_getD, List.getElem?_eq_getElem, Option.getD_some]

theorem stringAt_of_le {obj : Bytes} (behind : Nat → UInt8) {n : Nat} (hn : n ≤ obj.length) :
    stringAt obj behind n = obj.take n := by
  have h := take_stringAt behind n hn
  rwa [List.take_of_length_le (by simp), List.take_take, min_self] at h

theorem at_stringAt {obj : Bytes} (behind : Nat → UInt8) {n i : Nat} (hi : i < n)
    (hobj : i < obj.length) : at_ (stringAt obj behind n) i = at_ obj i := by
  rw [at_eq_getElem (by rwa [length_stringAt])]
  simp only [stringAt, List.getElem_map, List.getElem_range, hobj, if_true]

/-! ### File frames -/

/-- The bytes of a file header, in the order of the four `memcpy` calls. -/
def fileHeaderBytes (h : BVTCPFileHeader) : Bytes :=
  toLE 4 h.correlationKey.toNat ++ toLE 8 h.timestamp.toNat ++ [h.msgType] ++
    toLE 8 h.metadata.toNat

/-- The frame `WriteFileChunkSync` builds: a zeroed vector of `21 + payloadBytes` bytes into which
the header and at most `payloadBytes` payload bytes are copied. -/
def writeFileChunkSync (chunk : BVTCPFileChunk) (payloadBytes : Nat) : Bytes :=
  let frame : Bytes := List.replicate (fileHeaderSizeBytes + payloadBytes) 0
  let toCopy := min payloadBytes chunk.payload.length
  overwrite fileHeaderSizeBytes (chunk.payload.take toCopy)
    (overwrite 0 (fileHeaderBytes chunk.header) frame)

@[simp] theorem length_fileHeaderBytes (h : BVTCPFileHeader) :
    (fileHeaderBytes h).length = fileHeaderSizeBytes := by
  simp [fileHeaderBytes]

theorem writeFileChunkSync_eq (chunk : BVTCPFileChunk) (n : Nat) :
    writeFileChunkSync chunk n = fileHeaderBytes chunk.header ++ padTo n chunk.payload := by
  have hlen := length_fileHeaderBytes chunk.header
  have htake : chunk.payload.take (min n chunk.payload.length) = chunk.payload.take n := by
    rw [← List.take_take, List.take_length]
  have h := overwrite_overwrite (d := fileHeaderBytes chunk.header) (e := chunk.payload.take n)
    (l := List.replicate (fileHeaderSizeBytes + n) 0) (Nat.zero_le _)
  rw [hlen, Nat.zero_add] at h
  rw [writeFileChunkSync, htake, h]
  simp only [overwrite, padTo, List.take_zero, List.nil_append, List.drop_replicate,
    List.length_append, List.length_take, hlen, List.append_assoc, Nat.zero_add]
  congr 3
  omega

@[simp] theorem length_writeFileChunkSync (chunk : BVTCPFileChunk) (n : Nat) :
    (writeFileChunkSync chunk n).length = fileHeaderSizeBytes + n := by
  rw [writeFileChunkSync_eq]; simp

def getFileHeader (buf : Bytes) : BVTCPFileHeader where
  correlationKey := UInt32.ofNat (ofLE (buf.take 4))
  timestamp := UInt64.ofNat (ofLE ((buf.drop 4).take 8))
  msgType := at_ buf 12
  metadata := UInt64.ofNat (ofLE ((buf.drop 13).take 8))

/-- `GetFileData(buf)`: the bytes behind the file header up to the first NUL.  The loop has no
bound; `past` is the memory behind the buffer, which it reads when the buffer has no NUL. -/
def getFileData (buf past : Bytes) : Bytes := cstr (buf.drop fileHeaderSizeBytes ++ past)

def getFileDataSized (buf : Bytes) (csize : Nat) : Bytes :=
  (buf.drop fileHeaderSizeBytes).take csize

theorem getFileHeader_fileHeaderBytes (h : BVTCPFileHeader) (l : Bytes) :
    getFileHeader (fileHeaderBytes h ++ l) = h := by
  have hk : h.correlationKey.toNat < 256 ^ 4 := h.correlationKey.toNat_lt
  have ht : h.timestamp.toNat < 256 ^ 8 := h.timestamp.toNat_lt
  have hm : h.metadata.toNat < 256 ^ 8 := h.metadata.toNat_lt
  have e1 : ofLE ((fileHeaderBytes h ++ l).take 4) = h.correlationKey.toNat := by
    simp [fileHeaderBytes, ofLE_toLE_of_lt hk]
  have e2 : ofLE (((fileHeaderBytes h ++ l).drop 4).take 8) = h.timestamp.toNat := by
    simp [fileHeaderBytes, ofLE_toLE_of_lt ht]
  have e3 : ofLE (((fileHeaderBytes h ++ l).drop 13).take 8) = h.metadata.toNat := by
    have hpre : (toLE 4 h.correlationKey.toNat ++ toLE 8 h.timestamp.toNat ++
        [h.msgType]).length = 13 := by simp
    rw [fileHeaderBytes, List.append_assoc _ (toLE 8 h.metadata.toNat), ← hpre,
      List.drop_left, List.take_left' (length_toLE _ _), ofLE_toLE_of_lt hm]
  have e4 : at_ (fileHeaderBytes h ++ l) 12 = h.msgType := by
    simp [fileHeaderBytes, at_, List.getElem?_append]
  rw [getFileHeader, e1, e2, e3, e4]
  simp

/-- **The reader of file headers undoes the writer.** -/
theorem getFileHeader_writeFileChunkSync (chunk : BVTCPFileChunk) (n : Nat) :
    getFileHeader (writeFileChunkSync chunk n) = chunk.header := by
  rw [writeFileChunkSync_eq, getFileHeader_fileHeaderBytes]

theorem fileType_writeFileChunkSync (chunk : BVTCPFileChunk) (n : Nat) :
    at_ (writeFileChunkSync chunk n) 12 = chunk.header.msgType := by
  have h := getFileHeader_writeFileChunkSync chunk n
  rw [← h]; rfl

theorem getFileDataSized_writeFileChunkSync (chunk : BVTCPFileChunk) (n : Nat) :
    getFileDataSized (writeFileChunkSync chunk n) n = padTo n chunk.payload := by
  rw [writeFileChunkSync_eq, getFileDataSized, List.drop_append]
  simp [List.take_of_length_le]

/-- A NUL-terminated payload that fits its frame is read back up to its NUL, whatever follows the
frame in memory. -/
theorem getFileData_writeFileChunkSync (h : BVTCPFileHeader) {p : Bytes} {n : Nat} (past : Bytes)
    (hp : 0 ∉ p) (hn : p.length < n) :
    getFileData (writeFileChunkSync ⟨h, p ++ [0]⟩ n) past = p := by
  rw [writeFileChunkSync_eq, getFileData, List.drop_append,
    padTo_of_length_le (by simp; omega)]
  simp only [length_fileHeaderBytes, List.drop_eq_nil_of_le, le_refl, List.nil_append,
    Nat.sub_self, List.drop_zero, List.append_assoc, List.cons_append]
  exact cstr_append_zero hp

/-! ### The metadata of a BEGIN frame -/

def beginMetadata (csize fsize : UInt32) : UInt64 := (csize.toUInt64 <<< 32) ||| fsize.toUInt64

/-- The chunk size `OnReceiveFileTransferBegin` takes out of the metadata. -/
def metadataCsize (metadata : UInt64) : UInt32 :=
  ((metadata &&& 0xFFFFFFFF00000000) >>> 32).toUInt32

/-- The file size `OnReceiveFileTransferBegin` takes out of the metadata; the mask is nine digits
long, the cast drops the extra one. -/
def metadataFsize (metadata : UInt64) : UInt32 := (metadata &&& 0x0000000FFFFFFFFF).toUInt32

theorem toNat_beginMetadata (csize fsize : UInt32) :
    (beginMetadata csize fsize).toNat = csize.toNat * 2 ^ 32 + fsize.toNat := by
  have hc := csize.toNat_lt
  have hf := fsize.toNat_lt
  have hshift : csize.toNat <<< 32 % 2 ^ 64 = 2 ^ 32 * csize.toNat := by
    rw [Nat.shiftLeft_eq, Nat.mod_eq_of_lt (by omega), Nat.mul_comm]
  rw [beginMetadata, UInt64.toNat_or, UInt64.toNat_shiftLeft]
  simp only [UInt32.toNat_toUInt64, UInt64.reduceToNat, Nat.reduceMod, hshift]
  rw [← Nat.two_pow_add_eq_or_of_lt hf]
  ring

theorem metadataCsize_beginMetadata (csize fsize : UInt32) :
    metadataCsize (beginMetadata csize fsize) = csize := by
  have hc := csize.toNat_lt
  have hf := fsize.toNat_lt
  apply UInt32.toNat_inj.mp
  rw [metadataCsize, UInt64.toNat_toUInt32, UInt64.toNat_shiftRight, UInt64.toNat_and,
    toNat_beginMetadata]
  simp only [UInt64.reduceToNat, Nat.reduceMod, Nat.shiftRight_and_distrib]
  rw [show (18446744069414584320 : Nat) >>> 32 = 2 ^ 32 - 1 from rfl,
    Nat.and_two_pow_sub_one_eq_mod, Nat.shiftRight_eq_div_pow]
  omega

theorem metadataFsize_beginMetadata (csize fsize : UInt32) :
    metadataFsize (beginMetadata csize fsize) = fsize := by
  have hc := csize.toNat_lt
  have hf := fsize.toNat_lt
  apply UInt32.toNat_inj.mp
  rw [metadataFsize, UInt64.toNat_toUInt32, UInt64.toNat_and, toNat_beginMetadata]
  rw [show (0x0000000FFFFFFFFF : UInt64).toNat = 2 ^ 36 - 1 from rfl,
    Nat.and_two_pow_sub_one_eq_mod]
  omega

/-! ### A frame and what is read back -/

/-- `WriteFileChunkSync` up to its write: the frame it hands to the socket, none for a payload whose
size does not fit 32 bits. -/
def fileFrame (chunk : BVTCPFileChunk) (payloadBytes : Nat) : Option Bytes :=
  if payloadBytes > 2 ^ 32 - 1 then none else some (writeFileChunkSync chunk payloadBytes)

/-- **File frames are read back as they were written**: the header, the payload cut or filled with
zeros to the length it is sent with, and both sizes in the metadata of a BEGIN frame. -/
theorem file_frame_round_trip (header : BVTCPFileHeader) (p : Bytes) {m : Nat} (hm : m < 2 ^ 32) :
    (∃ frame, fileFrame ⟨header, p⟩ m = some frame ∧ frame.length = 21 + m ∧
      getFileHeader frame = header ∧
      getFileDataSized frame m = p.take m ++ List.replicate (m - p.length) 0) ∧
    ∀ csize fsize : UInt32, metadataCsize (beginMetadata csize fsize) = csize ∧
      metadataFsize (beginMetadata csize fsize) = fsize := by
  constructor
  · refine ⟨writeFileChunkSync ⟨header, p⟩ m, ?_, ?_, ?_, ?_⟩
    · rw [fileFrame, if_neg (by omega)]
    · exact length_writeFileChunkSync _ m
    · exact getFileHeader_writeFileChunkSync _ m
    · exact getFileDataSized_writeFileChunkSync _ m
  · intro csize fsize
    exact ⟨metadataCsize_beginMetadata csize fsize, metadataFsize_beginMetadata csize fsize⟩

/-- A payload of two bytes in a frame for four. -/
theorem file_frame_round_trip_short :
    (∃ frame, fileFrame ⟨⟨1, 2, 7, 3⟩, [65, 66]⟩ 4 = some frame ∧ frame.length = 21 + 4 ∧
      getFileHeader frame = ⟨1, 2, 7, 3⟩ ∧
      getFileDataSized frame 4 = [65, 66].take 4 ++ List.replicate (4 - [65, 66].length) 0) ∧
    ∀ csize fsize : UInt32, metadataCsize (beginMetadata csize fsize) = csize ∧
      metadataFsize (beginMetadata csize fsize) = fsize :=
  file_frame_round_trip ⟨1, 2, 7, 3⟩ [65, 66] (by decide)

/-! ### One layout read as the other -/

/-- Under the message layout the type byte of a file frame is the sixth byte of its timestamp. -/
theorem msgType_writeFileChunkSync (chunk : BVTCPFileChunk) (n : Nat) :
    at_ (writeFileChunkSync chunk n) 9 =
      UInt8.ofNat (chunk.header.timestamp.toNat / 256 ^ 5) := by
  have hts := at_toLE (w := 8) (i := 5) (by omega) chunk.header.timestamp.toNat
  rw [writeFileChunkSync_eq, at_append_left (by rw [length_fileHeaderBytes]; decide),
    fileHeaderBytes, at_append_left (by simp), at_append_left (by simp), at_append_right (by simp)]
  simpa using hts

/-- Under the file layout the type byte of a message frame is the third byte of its payload. -/
theorem fileType_messageFrame (m : BVTCPMessage) :
    at_ (messageFrame m) 12 = at_ m.payload.data 2 := by
  rw [messageFrame, List.cons_append, at_cons_succ, at_append_right (by simp)]
  simp

end LocalChat
