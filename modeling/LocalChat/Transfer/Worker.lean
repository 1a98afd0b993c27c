import LocalChat.Session.Send

/-!
# The sender's worker

`BVFileTransferContext` sends one file on one session: a BEGIN frame, then one frame for
each `csize` bytes of the file, the last of them an END frame.  `transferNextChunk` is one
call of `TransferNextChunk`, and `launchFileTransfer` the loop of the worker thread; every
call of it reads the clock once.

A `Transfer` is what a worker that comes to its END frame has sent: the pieces the file was
cut into, with the time of each frame.

* `launchFileTransfer_ongoing`: from any point of the loop on, a worker that reaches END has
  sent what was left of the file, cut into pieces of `csize` bytes.  The counters are 32 bits
  wide; a sum that wraps is smaller than the file size, and the worker then never reaches END.
* `exists_transfer`: so a worker that reaches END has sent a `Transfer` of the file.
-/

namespace LocalChat

open Octets

/-! ### The worker -/

/-- A file frame and the payload size it is written with. -/
structure FileFrame where
  chunk : BVTCPFileChunk
  payloadBytes : Nat
  deriving DecidableEq, Repr

/-- The bytes `WriteFileChunkSync` puts on the socket for the frame. -/
def FileFrame.bytes (f : FileFrame) : Bytes := writeFileChunkSync f.chunk f.payloadBytes

inductive FileTransferState
  | firstChunk
  | ongoing
  | lastChunk
  deriving DecidableEq, Repr

structure BVFileTransferContext where
  /-- what `fhandle` has still to read -/
  fhandle : Bytes
  /-- `fhandle` as a condition: neither `failbit` nor `badbit` is set -/
  good : Bool
  fsize : UInt32
  ftcid : UInt32
  fname : Bytes
  thisMachineServiceName : Bytes
  state : FileTransferState
  csize : UInt32
  bytesSent : UInt32
  isRunning : Bool
  deriving DecidableEq, Repr

/-- `DetermineChunkSize`.  The bounds are not consecutive: sizes between two rows fall through to
the last one. -/
def determineChunkSize (fsize : UInt32) : UInt32 :=
  if fsize < 256 then 64
  else if fsize < 1000 then 256
  else if fsize > 1024 ∧ fsize < 8000 then 512
  else if fsize > 8000 ∧ fsize < 64000 then 4096
  else if fsize > 64000 ∧ fsize < 256000 then 32768
  else if fsize > 256000 ∧ fsize < 1000000 then 65536
  else if fsize > 1000000 ∧ fsize < 5000000 then 524288
  else 1048676

namespace BVFileTransferContext

/-- The constructor, for a file that could be opened. -/
def construct (content fname thisMachineServiceName : Bytes) (ftcid : UInt32) :
    BVFileTransferContext where
  fhandle := content
  good := true
  fsize := UInt32.ofNat content.length
  ftcid := ftcid
  fname := fname
  thisMachineServiceName := thisMachineServiceName
  state := .firstChunk
  csize := determineChunkSize (UInt32.ofNat content.length)
  bytesSent := 0
  isRunning := true

/-- The frame of the first call. -/
def beginFrame (now : UInt64) (c : BVFileTransferContext) : FileFrame :=
  ⟨⟨constructFileHeader now BVTCPMessageType.fileTransferBegin c.ftcid
      (beginMetadata c.csize c.fsize), c.thisMachineServiceName ++ [bar] ++ c.fname ++ [0]⟩,
    controlPayloadBytes⟩

def chunkFrame (now : UInt64) (msgType : UInt8) (data : Bytes) (c : BVFileTransferContext) :
    FileFrame :=
  ⟨⟨constructFileHeader now msgType c.ftcid 0, padTo c.csize.toNat data⟩, c.csize.toNat⟩

def transferNextChunk (now : UInt64) (c : BVFileTransferContext) :
    List FileFrame × BVFileTransferContext :=
  if c.state = .firstChunk then ([c.beginFrame now], { c with state := .ongoing })
  else
    -- a read that comes up short sets `eofbit` and `failbit`
    let data := c.fhandle.take c.csize.toNat
    let c : BVFileTransferContext := { c with
      fhandle := c.fhandle.drop c.csize.toNat
      good := data.length = c.csize.toNat }
    if 0 < data.length then
      let c : BVFileTransferContext := { c with state :=
        if c.state = .ongoing ∧ c.fsize ≤ c.bytesSent + c.csize then .lastChunk else c.state }
      let sent := c.bytesSent + UInt32.ofNat data.length
      if c.state = .lastChunk then
        ([c.chunkFrame now BVTCPMessageType.fileTransferEnd data],
          { c with state := .ongoing, isRunning := false, bytesSent := sent })
      else
        ([c.chunkFrame now BVTCPMessageType.fileTransferChunkSent data],
          { c with bytesSent := sent })
    else ([], { c with isRunning := false })

/-- The loop of the worker thread, for as many turns as there are clock readings.  A stream that
is not good is never read again, and the loop spins. -/
def launchFileTransfer : List UInt64 → BVFileTransferContext → List FileFrame
  | [], _ => []
  | now :: clock, c =>
    if c.isRunning then
      if c.good then
        (c.transferNextChunk now).1 ++ launchFileTransfer clock (c.transferNextChunk now).2
      else launchFileTransfer clock c
    else []

end BVFileTransferContext

/-! ### Completed transfers -/

/-- A completed transfer: the file as it was cut into pieces, each with the time of its frame. -/
structure Transfer where
  correlationKey : UInt32
  csize : UInt32
  serviceName : Bytes
  fname : Bytes
  beganAt : UInt64
  pieces : List (UInt64 × Bytes)
  last : UInt64 × Bytes
  piece_length : ∀ p ∈ pieces, p.2.length = csize.toNat
  last_pos : 0 < last.2.length
  last_le : last.2.length ≤ csize.toNat
  /-- a chunk frame has a 32-bit length -/
  csize_fits : csize.toNat + fileHeaderSizeBytes < 2 ^ 32
  content_fits : ((pieces.map (·.2)).flatten ++ last.2).length < 2 ^ 32

namespace Transfer

def content (t : Transfer) : Bytes := (t.pieces.map (·.2)).flatten ++ t.last.2

def fsize (t : Transfer) : UInt32 := UInt32.ofNat t.content.length

def beginFrame (t : Transfer) : FileFrame :=
  ⟨⟨constructFileHeader t.beganAt BVTCPMessageType.fileTransferBegin t.correlationKey
      (beginMetadata t.csize t.fsize), t.serviceName ++ [bar] ++ t.fname ++ [0]⟩,
    controlPayloadBytes⟩

def chunkFrame (t : Transfer) (msgType : UInt8) (p : UInt64 × Bytes) : FileFrame :=
  ⟨⟨constructFileHeader p.1 msgType t.correlationKey 0, padTo t.csize.toNat p.2⟩, t.csize.toNat⟩

def bodyFrom (t : Transfer) (ps : List (UInt64 × Bytes)) : List FileFrame :=
  ps.map (t.chunkFrame BVTCPMessageType.fileTransferChunkSent) ++
    [t.chunkFrame BVTCPMessageType.fileTransferEnd t.last]

def body (t : Transfer) : List FileFrame := t.bodyFrom t.pieces

def frames (t : Transfer) : List FileFrame := t.beginFrame :: t.body

theorem toNat_fsize (t : Transfer) : t.fsize.toNat = t.content.length := by
  rw [fsize, UInt32.toNat_ofNat']
  exact Nat.mod_eq_of_lt t.content_fits

end Transfer

def oneByte (key : UInt32) (serviceName : Bytes) (b : UInt8) : Transfer where
  correlationKey := key
  csize := 64
  serviceName := serviceName
  fname := [120]
  beganAt := 0
  pieces := []
  last := (0, [b])
  piece_length := by simp
  last_pos := by simp
  last_le := by simp
  csize_fits := by decide
  content_fits := by simp

/-! ### What a worker sends -/

namespace BVFileTransferContext

/-- The loop is past BEGIN and has sent all but `fhandle` of the file. -/
structure Ongoing (c : BVFileTransferContext) : Prop where
  state : c.state = .ongoing
  good : c.good = true
  isRunning : c.isRunning = true
  left : c.fhandle ≠ []
  sent : c.bytesSent.toNat + c.fhandle.length = c.fsize.toNat
  csize_pos : 0 < c.csize.toNat

/-- A worker whose stream has failed sends nothing more. -/
theorem launchFileTransfer_of_not_good (clock : List UInt64) :
    ∀ c : BVFileTransferContext, c.good = false → c.launchFileTransfer clock = [] := by
  induction clock with
  | nil => intro c _; rfl
  | cons now clock ih =>
    intro c hc
    rw [launchFileTransfer, hc, if_neg Bool.false_ne_true, ih c hc, ite_self]

theorem launchFileTransfer_of_stopped (clock : List UInt64) {c : BVFileTransferContext}
    (h : c.isRunning = false) : c.launchFileTransfer clock = [] := by
  cases clock with
  | nil => rfl
  | cons now clock => rw [launchFileTransfer, h, if_neg Bool.false_ne_true]

/-- The sum in the end-of-file test, when it does not wrap. -/
theorem toNat_add_csize {b c : UInt32} (h : b.toNat + c.toNat < 2 ^ 32) :
    (b + c).toNat = b.toNat + c.toNat := by
  rw [UInt32.toNat_add, Nat.mod_eq_of_lt h]

/-- The end-of-file test succeeds exactly when the rest of the file fits one chunk and the sum
does not wrap: a wrapped sum is below `bytesSent`. -/
theorem Ongoing.last_iff {c : BVFileTransferContext} (h : c.Ongoing) :
    c.fsize ≤ c.bytesSent + c.csize ↔
      c.fhandle.length ≤ c.csize.toNat ∧ c.bytesSent.toNat + c.csize.toNat < 2 ^ 32 := by
  have hsent := h.sent
  have hf := c.fsize.toNat_lt
  have hc := c.csize.toNat_lt
  have hpos : 0 < c.fhandle.length := List.length_pos_iff.mpr h.left
  rw [UInt32.le_iff_toNat_le]
  by_cases hwrap : c.bytesSent.toNat + c.csize.toNat < 2 ^ 32
  · rw [toNat_add_csize hwrap]
    omega
  · rw [UInt32.toNat_add]
    omega

/-- The worker after it has sent a chunk that is not the last. -/
def advanced (c : BVFileTransferContext) : BVFileTransferContext :=
  { c with
    fhandle := c.fhandle.drop c.csize.toNat
    good := (c.fhandle.take c.csize.toNat).length = c.csize.toNat
    bytesSent := c.bytesSent + UInt32.ofNat (c.fhandle.take c.csize.toNat).length }

theorem Ongoing.data_pos {c : BVFileTransferContext} (h : c.Ongoing) :
    0 < (c.fhandle.take c.csize.toNat).length := by
  have hpos : 0 < c.fhandle.length := List.length_pos_iff.mpr h.left
  have hc := h.csize_pos
  rw [List.length_take]
  omega

theorem Ongoing.transferNextChunk_more {c : BVFileTransferContext} (h : c.Ongoing)
    (hlast : ¬ c.fsize ≤ c.bytesSent + c.csize) (now : UInt64) :
    c.transferNextChunk now =
      ([c.chunkFrame now BVTCPMessageType.fileTransferChunkSent (c.fhandle.take c.csize.toNat)],
        c.advanced) := by
  simp only [transferNextChunk, h.state, reduceCtorEq, if_false, h.data_pos, if_true, hlast,
    and_false]
  rw [advanced, ← h.state]
  rfl

/-- After a chunk that is not the last the worker goes on, or its stream has failed. -/
theorem Ongoing.advanced {c : BVFileTransferContext} (h : c.Ongoing)
    (hlast : ¬ c.fsize ≤ c.bytesSent + c.csize) :
    c.advanced.good = false ∨
      (c.advanced.Ongoing ∧ (c.fhandle.take c.csize.toNat).length = c.csize.toNat) := by
  have hsent := h.sent
  have hf := c.fsize.toNat_lt
  rw [h.last_iff] at hlast
  by_cases hfull : (c.fhandle.take c.csize.toNat).length = c.csize.toNat
  · right
    have hle := hfull
    rw [List.length_take] at hle
    have hlt : c.csize.toNat < c.fhandle.length := by omega
    refine ⟨⟨h.state, decide_eq_true hfull, h.isRunning, ?_, ?_, h.csize_pos⟩, hfull⟩
    · refine List.ne_nil_of_length_pos ?_
      rw [BVFileTransferContext.advanced, List.length_drop]
      omega
    · simp only [BVFileTransferContext.advanced, hfull, UInt32.ofNat_toNat, List.length_drop]
      rw [toNat_add_csize (by omega)]
      omega
  · exact .inl (decide_eq_false hfull)

theorem exists_end_of_cons {f : FileFrame} {fs : List FileFrame}
    (hf : f.chunk.header.msgType ≠ BVTCPMessageType.fileTransferEnd)
    (h : ∃ g ∈ f :: fs, g.chunk.header.msgType = BVTCPMessageType.fileTransferEnd) :
    ∃ g ∈ fs, g.chunk.header.msgType = BVTCPMessageType.fileTransferEnd := by
  obtain ⟨g, hg, htype⟩ := h
  rcases List.mem_cons.mp hg with rfl | hg
  · exact absurd htype hf
  · exact ⟨g, hg, htype⟩

/-- **The worker loop.**  A worker past BEGIN that comes to its END frame has sent the rest of the
file: some pieces of `csize` bytes as chunks, and what then remained in the END frame. -/
theorem launchFileTransfer_ongoing (clock : List UInt64) :
    ∀ c : BVFileTransferContext, c.Ongoing →
      (∃ f ∈ c.launchFileTransfer clock,
        f.chunk.header.msgType = BVTCPMessageType.fileTransferEnd) →
      ∃ (pieces : List (UInt64 × Bytes)) (last : UInt64 × Bytes),
        (∀ p ∈ pieces, p.2.length = c.csize.toNat) ∧ 0 < last.2.length ∧
        last.2.length ≤ c.csize.toNat ∧ (pieces.map (·.2)).flatten ++ last.2 = c.fhandle ∧
        c.launchFileTransfer clock =
          pieces.map (fun p => c.chunkFrame p.1 BVTCPMessageType.fileTransferChunkSent p.2) ++
            [c.chunkFrame last.1 BVTCPMessageType.fileTransferEnd last.2] := by
  induction clock with
  | nil =>
    rintro c - ⟨f, hf, -⟩
    cases hf
  | cons now clock ih =>
    intro c hc hend
    rw [launchFileTransfer, if_pos hc.isRunning, if_pos hc.good] at hend ⊢
    by_cases hlast : c.fsize ≤ c.bytesSent + c.csize
    · -- the rest fits one chunk: END, and the loop stops
      obtain ⟨hfit, -⟩ := hc.last_iff.mp hlast
      have htake : c.fhandle.take c.csize.toNat = c.fhandle := List.take_of_length_le hfit
      refine ⟨[], (now, c.fhandle), by simp, List.length_pos_iff.mpr hc.left, hfit, by simp, ?_⟩
      simp only [transferNextChunk, hc.state, reduceCtorEq, if_false, hc.data_pos, if_true, hlast,
        and_self]
      rw [launchFileTransfer_of_stopped clock rfl, htake]
      rfl
    · rw [hc.transferNextChunk_more hlast] at hend ⊢
      have hne : BVTCPMessageType.fileTransferChunkSent ≠ BVTCPMessageType.fileTransferEnd := by
        decide
      have hend' := exists_end_of_cons hne hend
      rcases hc.advanced hlast with hbad | ⟨hnext, hfull⟩
      · -- the stream has failed: the chunk was the worker's last frame
        obtain ⟨f, hf, -⟩ := hend'
        rw [launchFileTransfer_of_not_good clock _ hbad] at hf
        cases hf
      · obtain ⟨pieces, last, hpieces, hpos, hle, hcontent, hframes⟩ := ih _ hnext hend'
        refine ⟨(now, c.fhandle.take c.csize.toNat) :: pieces, last, ?_, hpos, hle, ?_, ?_⟩
        · intro p hp
          rcases List.mem_cons.mp hp with rfl | hp
          · exact hfull
          · exact hpieces p hp
        · rw [List.map_cons, List.flatten_cons, List.append_assoc, hcontent]
          exact List.take_append_drop _ _
        · rw [hframes]
          rfl

theorem determineChunkSize_bounds (fsize : UInt32) :
    0 < (determineChunkSize fsize).toNat ∧
      (determineChunkSize fsize).toNat + fileHeaderSizeBytes < 2 ^ 32 := by
  unfold determineChunkSize
  repeat' split
  all_goals decide

/-- **A worker that reaches its END frame has sent the file**: its frames are those of a transfer
with the content, the names and the key it was made with. -/
theorem exists_transfer {content fname serviceName : Bytes} {key : UInt32} {clock : List UInt64}
    (hne : content ≠ []) (hlt : content.length < 2 ^ 32)
    (hend : ∃ f ∈ (construct content fname serviceName key).launchFileTransfer clock,
      f.chunk.header.msgType = BVTCPMessageType.fileTransferEnd) :
    ∃ t : Transfer, (construct content fname serviceName key).launchFileTransfer clock = t.frames ∧
      t.content = content ∧ t.correlationKey = key ∧ t.serviceName = serviceName ∧
      t.fname = fname ∧ t.beganAt ∈ clock := by
  obtain ⟨hcpos, hcfits⟩ := determineChunkSize_bounds (UInt32.ofNat content.length)
  have hfsize : (UInt32.ofNat content.length).toNat = content.length := by
    rw [UInt32.toNat_ofNat', Nat.mod_eq_of_lt hlt]
  cases clock with
  | nil =>
    obtain ⟨f, hf, -⟩ := hend
    cases hf
  | cons now clock =>
    let c : BVFileTransferContext :=
      { construct content fname serviceName key with state := .ongoing }
    have hfirst : (construct content fname serviceName key).launchFileTransfer (now :: clock) =
        c.beginFrame now :: c.launchFileTransfer clock := rfl
    have hc : c.Ongoing :=
      ⟨rfl, rfl, rfl, hne, (Nat.zero_add _).trans hfsize.symm, hcpos⟩
    have hbegin : BVTCPMessageType.fileTransferBegin ≠ BVTCPMessageType.fileTransferEnd := by decide
    rw [hfirst] at hend ⊢
    obtain ⟨pieces, last, hpieces, hpos, hle, hcontent, hframes⟩ :=
      launchFileTransfer_ongoing clock c hc (exists_end_of_cons hbegin hend)
    have hcontent' : (pieces.map (·.2)).flatten ++ last.2 = content := hcontent
    let t : Transfer := ⟨key, c.csize, serviceName, fname, now, pieces, last, hpieces, hpos, hle,
      hcfits, by rw [hcontent']; exact hlt⟩
    have hsize : t.fsize = c.fsize :=
      congrArg (fun l : Bytes => UInt32.ofNat l.length) hcontent'
    have hfirst' : c.beginFrame now = t.beginFrame := by
      rw [Transfer.beginFrame, hsize]
      rfl
    exact ⟨t, by rw [hframes, hfirst']; rfl, hcontent', rfl, rfl, rfl, List.mem_cons_self⟩

end BVFileTransferContext

end LocalChat
