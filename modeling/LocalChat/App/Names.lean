import LocalChat.App.Gui
import LocalChat.Transfer.Receive

/-!
# Names in OFFER and BEGIN frames

Both frames carry `service|file` and a NUL in 117 bytes; `WriteFileChunkSync` drops what does not
fit.  `GetFileData` reads up to a NUL, wherever it is, and four handlers split what it has read at
the first `|`.

* `fileDataReads_iff`: the scan stays in the frame exactly if the NUL does.
* `names_survive_iff`: for names without NUL, no reader of the frame leaves it and all four handlers
  get both names back exactly if the names and the `|` have at most 116 bytes and the service name
  has no `|`.
-/

namespace LocalChat

open Octets

/-! ### Readers of the names -/

def namesFrame (h : BVTCPFileHeader) (serviceName fname : Bytes) : Bytes :=
  writeFileChunkSync ⟨h, serviceName ++ [bar] ++ fname ++ [0]⟩ controlPayloadBytes

theorem sendFileOffer_eq (now : UInt64) (serviceName : Bytes) (key fsize : UInt32) (name : Bytes) :
    sendFileOffer now serviceName key fsize name =
      namesFrame (constructFileHeader now BVTCPMessageType.fileOffer key fsize.toUInt64)
        serviceName name := rfl

theorem bytes_beginFrame_eq (c : BVFileTransferContext) (now : UInt64) :
    (c.beginFrame now).bytes =
      namesFrame (constructFileHeader now BVTCPMessageType.fileTransferBegin c.ftcid
        (beginMetadata c.csize c.fsize)) c.thisMachineServiceName c.fname := rfl

/-- How far into memory `GetFileData(buf)` reads, from the start of the buffer: up to the NUL and
the NUL itself. -/
def fileDataReads (buf past : Bytes) : Nat :=
  fileHeaderSizeBytes + (getFileData buf past).length + 1

/-- `BVApp_GuiClient::HandleFileTransferBegin`: the name of the progress line.  The console's
handler is called with the same data. -/
def GuiClient.xferName (fd : BVTCPFileData) : Bytes := afterBar (cstr fd.fdata)

/-- The names `serviceName` and `fname` are read from the data by all four handlers. -/
structure ReadBack (serviceName fname : Bytes) (d : BVTCPFileData) : Prop where
  consoleOffer : ∀ a : App,
    (a.handleFileOffer d).2.pendingOffer.map (fun o => (o.sender, o.fname)) =
      some (serviceName, fname)
  guiOffer : ∀ (g : GuiClient) (session : SessionRef),
    (g.handleFileOffer session d).pendingOffers.getLast?.map
      (fun o => (o.2.sender, o.2.fileName)) = some (serviceName, fname)
  consoleBegin : ∀ a : App,
    (a.handleFileTransferBegin .none d).2.fileTransferData d.correlationKey =
      some (serviceName, fname)
  guiBegin : GuiClient.xferName d = fname

/-- The names survive the wire: the frames are read without leaving them, and what the session tells
the app about them has both names for every handler. -/
structure NamesSurvive (serviceName fname : Bytes) : Prop where
  offerInFrame : ∀ (now : UInt64) (key fsize : UInt32) (past : Bytes),
    fileDataReads (sendFileOffer now serviceName key fsize fname) past ≤ messageFrameSizeBytes
  offer : ∀ (now : UInt64) (key fsize : UInt32) (env : Env) (d : BVTCPFileData),
    Session.offerEvent env (sendFileOffer now serviceName key fsize fname) = .fileOffer d →
      ReadBack serviceName fname d
  beginInFrame : ∀ (c : BVFileTransferContext) (now : UInt64) (past : Bytes),
    c.thisMachineServiceName = serviceName → c.fname = fname →
      fileDataReads (c.beginFrame now).bytes past ≤ messageFrameSizeBytes
  begin_ : ∀ (c : BVFileTransferContext) (now : UInt64) (env : Env) (d : BVTCPFileData),
    c.thisMachineServiceName = serviceName → c.fname = fname →
      Session.beginEvent env (c.beginFrame now).bytes = .fileTransferBegin d →
        ReadBack serviceName fname d

/-! ### The scan -/

section Frame

variable {h : BVTCPFileHeader} {serviceName fname : Bytes}

theorem zero_not_mem_names (hs : 0 ∉ serviceName) (hf : 0 ∉ fname) :
    0 ∉ serviceName ++ [bar] ++ fname := by
  simp only [List.mem_append, List.mem_singleton, not_or]
  exact ⟨⟨hs, by decide⟩, hf⟩

/-- Names that fit are read back, whatever lies behind the frame. -/
theorem getFileData_namesFrame (hs : 0 ∉ serviceName) (hf : 0 ∉ fname)
    (hfit : serviceName.length + 1 + fname.length ≤ 116) (past : Bytes) :
    getFileData (namesFrame h serviceName fname) past = serviceName ++ [bar] ++ fname := by
  refine getFileData_writeFileChunkSync h past (zero_not_mem_names hs hf) ?_
  simp only [List.length_append, List.length_singleton, controlPayloadBytes, messageFrameSizeBytes,
    fileHeaderSizeBytes]
  omega

/-- Names that do not fit push the NUL out of the frame, and the scan reads all of the frame. -/
theorem le_length_getFileData (hs : 0 ∉ serviceName) (hf : 0 ∉ fname)
    (hlong : 116 < serviceName.length + 1 + fname.length) (past : Bytes) :
    controlPayloadBytes ≤ (getFileData (namesFrame h serviceName fname) past).length := by
  have hlen : controlPayloadBytes ≤ (serviceName ++ [bar] ++ fname).length := by
    simp only [List.length_append, List.length_singleton, controlPayloadBytes,
      messageFrameSizeBytes, fileHeaderSizeBytes]
    omega
  have hpad : padTo controlPayloadBytes (serviceName ++ [bar] ++ fname ++ [0]) =
      (serviceName ++ [bar] ++ fname).take controlPayloadBytes := by
    rw [padTo, List.take_append_of_le_length hlen, Nat.sub_eq_zero_of_le, List.replicate_zero,
      List.append_nil]
    rw [List.length_append]
    omega
  have hall : ∀ b ∈ (serviceName ++ [bar] ++ fname).take controlPayloadBytes,
      decide (b ≠ 0) = true := by
    intro b hb
    exact decide_eq_true fun he => zero_not_mem_names hs hf (he ▸ List.mem_of_mem_take hb)
  rw [namesFrame, getFileData, writeFileChunkSync_eq, ← length_fileHeaderBytes h, List.drop_left,
    hpad, cstr, List.takeWhile_append_of_pos hall, List.length_append, List.length_take]
  omega

/-- **The scan for the names** stays in the frame, whatever lies behind it, exactly if the NUL fits
the frame. -/
theorem fileDataReads_iff (hs : 0 ∉ serviceName) (hf : 0 ∉ fname) (past : Bytes) :
    fileDataReads (namesFrame h serviceName fname) past ≤ messageFrameSizeBytes ↔
      serviceName.length + 1 + fname.length ≤ 116 := by
  constructor
  · intro hreads
    by_contra hlong
    have hall := le_length_getFileData (h := h) hs hf (Nat.not_le.mp hlong) past
    rw [fileDataReads] at hreads
    simp only [controlPayloadBytes, messageFrameSizeBytes, fileHeaderSizeBytes] at hall hreads
    omega
  · intro hfit
    rw [fileDataReads, getFileData_namesFrame hs hf hfit]
    simp only [List.length_append, List.length_singleton, messageFrameSizeBytes,
      fileHeaderSizeBytes]
    omega

end Frame

/-! ### The splits -/

theorem bar_not_mem_beforeBar (s : Bytes) : bar ∉ beforeBar s := by
  intro h
  have hbar := List.mem_takeWhile_imp h
  simp at hbar

/-- All four handlers split `service|file` right if the service name has no `|`. -/
theorem readBack_of_bar_not_mem {serviceName fname : Bytes} {d : BVTCPFileData}
    (hd : d.fdata = serviceName ++ [bar] ++ fname) (hs : 0 ∉ serviceName) (hf : 0 ∉ fname)
    (hbar : bar ∉ serviceName) : ReadBack serviceName fname d := by
  have hcstr : cstr d.fdata = serviceName ++ [bar] ++ fname := by
    rw [hd]
    exact cstr_of_zero_not_mem (zero_not_mem_names hs hf)
  have hmem : bar ∈ serviceName ++ [bar] ++ fname := by simp
  have hbefore := Transfer.beforeBar_append hbar fname
  have hafter := Transfer.afterBar_append hbar fname
  refine ⟨?_, ?_, ?_, ?_⟩
  · intro a
    simp only [App.handleFileOffer, hcstr, hbefore, hafter, hmem, if_true, Option.map_some]
  · intro g session
    simp only [GuiClient.handleFileOffer, GuiClient.senderOf, hcstr, hbefore, hafter, hmem, if_true,
      List.getLast?_concat, Option.map_some]
  · intro a
    simp only [App.handleFileTransferBegin, hd, hbefore, hafter, BVReceivedFile.begin_,
      Bool.false_eq_true, if_false, Function.update_self]
  · rw [GuiClient.xferName, hcstr, hafter]

/-- The sender the console reads from an offer has no `|`. -/
theorem ReadBack.bar_not_mem {serviceName fname : Bytes} {d : BVTCPFileData}
    (h : ReadBack serviceName fname d) : bar ∉ serviceName := by
  have hoffer := h.consoleOffer (App.start [47] fun _ => none)
  simp only [App.handleFileOffer, Option.map_some, Option.some.injEq, Prod.mk.injEq] at hoffer
  rw [← hoffer.1]
  exact bar_not_mem_beforeBar _

/-! ### Names that survive -/

theorem namesSurvive_of_fit {serviceName fname : Bytes} (hs : 0 ∉ serviceName) (hf : 0 ∉ fname)
    (hfit : serviceName.length + 1 + fname.length ≤ 116) (hbar : bar ∉ serviceName) :
    NamesSurvive serviceName fname where
  offerInFrame := by
    intro now key fsize past
    rw [sendFileOffer_eq, fileDataReads_iff hs hf]
    exact hfit
  offer := by
    intro now key fsize env d hd
    rw [Session.offerEvent, sendFileOffer_eq, getFileData_namesFrame hs hf hfit] at hd
    cases hd
    exact readBack_of_bar_not_mem rfl hs hf hbar
  beginInFrame := by
    rintro c now past rfl rfl
    rw [bytes_beginFrame_eq, fileDataReads_iff hs hf]
    exact hfit
  begin_ := by
    rintro c now env d rfl rfl hd
    rw [Session.beginEvent, bytes_beginFrame_eq, getFileData_namesFrame hs hf hfit] at hd
    cases hd
    exact readBack_of_bar_not_mem rfl hs hf hbar

/-- Names that are too long are read past the frame. -/
theorem NamesSurvive.fit {serviceName fname : Bytes} (h : NamesSurvive serviceName fname)
    (hs : 0 ∉ serviceName) (hf : 0 ∉ fname) : serviceName.length + 1 + fname.length ≤ 116 := by
  have hreads := h.offerInFrame 0 0 0 []
  rwa [sendFileOffer_eq, fileDataReads_iff hs hf] at hreads

theorem NamesSurvive.bar_not_mem {serviceName fname : Bytes} (h : NamesSurvive serviceName fname) :
    bar ∉ serviceName :=
  (h.offer 0 0 0 Env.blank _ rfl).bar_not_mem

/-- **Names on the wire.**  For names without NUL, the OFFER and BEGIN frames are read without
leaving them and all handlers get the names back exactly if `service|file` has at most 116 bytes
and there is no `|` in the service name. -/
theorem names_survive_iff (serviceName fname : Bytes) (hs : 0 ∉ serviceName) (hf : 0 ∉ fname) :
    NamesSurvive serviceName fname ↔
      serviceName.length + 1 + fname.length ≤ 116 ∧ bar ∉ serviceName := by
  constructor
  · intro h
    exact ⟨h.fit hs hf, h.bar_not_mem⟩
  · rintro ⟨hfit, hbar⟩
    exact namesSurvive_of_fit hs hf hfit hbar

/-- The names `a` and `x`. -/
theorem names_survive_short : NamesSurvive [97] [120] :=
  (names_survive_iff [97] [120] (by decide) (by decide)).mpr (by decide)

/-- A file name of 115 bytes from the peer `a`: the scan leaves the frame. -/
theorem name_of_115_bytes_read_past_frame :
    let fname : Bytes := List.replicate 115 120
    (∀ past, messageFrameSizeBytes < fileDataReads (sendFileOffer 0 [97] 0 1 fname) past) ∧
      ¬ NamesSurvive [97] fname := by
  intro fname
  have hs : (0 : UInt8) ∉ ([97] : Bytes) := by decide
  have hf : (0 : UInt8) ∉ fname := by
    intro h
    have heq := List.eq_of_mem_replicate h
    exact absurd heq (by decide)
  have hlen : fname.length = 115 := List.length_replicate
  have hlong : ¬ ([97] : Bytes).length + 1 + fname.length ≤ 116 := by
    rw [hlen]
    decide
  refine ⟨?_, fun h => hlong (h.fit hs hf)⟩
  intro past
  rw [sendFileOffer_eq]
  by_contra hle
  exact hlong ((fileDataReads_iff hs hf past).mp (Nat.not_lt.mp hle))

end LocalChat
