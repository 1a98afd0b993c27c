import LocalChat.Transfer.Worker
import LocalChat.Lib.Runs

/-!
# Whether the worker comes to its END frame

`Worker` is the worker thread between two turns of its loop, with the frames it has written
and the number of calls of `TransferNextChunk`; `Worker.turn` is one turn.

The end-of-file test adds `bytesSent` and `csize` in 32 bits.  If all the chunks of the file,
each counted in full, stay below 2^32, no sum of the loop wraps and the worker stops after
its END frame (`Fits`).  Otherwise the last sum wraps, the test fails, the last piece goes out
as an ordinary chunk, and the loop spins on a stream that has failed (`Doomed`).

* `framed_completely_iff`: a file is sent as BEGIN, chunks and one END with its length in the
  OFFER and BEGIN frames exactly when it has at least one byte and at most 4095 chunks of the
  largest size.
* `send_loop_exact_iff`: for files of a length that fits 32 bits, the test agrees with unbounded
  arithmetic and the loop stops after the expected number of calls exactly in the same range.
-/

namespace LocalChat

open Octets BVFileTransferContext

/-! ### The loop, turn by turn -/

/-- The worker thread between two turns of its loop. -/
structure Worker where
  context : BVFileTransferContext
  written : List FileFrame
  /-- the calls of `TransferNextChunk` so far -/
  calls : Nat
  deriving DecidableEq, Repr

namespace Worker

def launch (c : BVFileTransferContext) : Worker := ⟨c, [], 0⟩

/-- One turn of `while (isRunning) { if (fhandle) TransferNextChunk(); }`. -/
def turn (w : Worker) (now : UInt64) : Worker :=
  if w.context.isRunning then
    if w.context.good then
      ⟨(w.context.transferNextChunk now).2, w.written ++ (w.context.transferNextChunk now).1,
        w.calls + 1⟩
    else w
  else w

theorem turn_of_stopped {w : Worker} (h : w.context.isRunning = false) (now : UInt64) :
    w.turn now = w := by
  rw [turn, h, if_neg Bool.false_ne_true]

theorem turn_of_not_good {w : Worker} (h : w.context.good = false) (now : UInt64) :
    w.turn now = w := by
  rw [turn, h, if_neg Bool.false_ne_true, ite_self]

theorem turn_call {w : Worker} (hr : w.context.isRunning = true) (hg : w.context.good = true)
    (now : UInt64) :
    w.turn now = ⟨(w.context.transferNextChunk now).2,
      w.written ++ (w.context.transferNextChunk now).1, w.calls + 1⟩ := by
  rw [turn, hr, hg, if_pos rfl, if_pos rfl]

theorem run_of_stopped {w : Worker} (h : w.context.isRunning = false) (clock : List UInt64) :
    Runs.run turn w clock = w := by
  induction clock with
  | nil => rfl
  | cons now clock ih => rw [Runs.run_cons, turn_of_stopped h, ih]

/-- The frames written turn by turn are those of the loop. -/
theorem written_run (clock : List UInt64) : ∀ w : Worker,
    (Runs.run turn w clock).written = w.written ++ w.context.launchFileTransfer clock := by
  induction clock with
  | nil =>
    intro w
    rw [Runs.run_nil, launchFileTransfer, List.append_nil]
  | cons now clock ih =>
    intro w
    rw [Runs.run_cons, ih, launchFileTransfer, turn]
    by_cases hr : w.context.isRunning = true
    · by_cases hg : w.context.good = true
      · simp only [hr, hg, if_true, List.append_assoc]
      · simp only [hr, hg, if_true, Bool.false_eq_true, if_false]
    · rw [if_neg hr, if_neg hr, launchFileTransfer_of_stopped clock (Bool.eq_false_iff.mpr hr)]

end Worker

/-! ### The chunks still to come -/

namespace BVFileTransferContext

def left (c : BVFileTransferContext) : Nat :=
  (c.fhandle.length + c.csize.toNat - 1) / c.csize.toNat

/-- Counted in full chunks, what is sent and what is to come stays below 2^32. -/
def Fits (c : BVFileTransferContext) : Prop :=
  c.bytesSent.toNat + c.left * c.csize.toNat < 2 ^ 32

variable {c : BVFileTransferContext}

theorem Ongoing.left_eq_one (h : c.Ongoing) (hle : c.fhandle.length ≤ c.csize.toNat) :
    c.left = 1 := by
  have hpos : 0 < c.fhandle.length := List.length_pos_iff.mpr h.left
  have hc := h.csize_pos
  rw [BVFileTransferContext.left]
  exact Nat.div_eq_of_lt_le (by omega) (by omega)

theorem Ongoing.left_eq_succ (h : c.Ongoing) (hlt : c.csize.toNat < c.fhandle.length) :
    c.left = c.advanced.left + 1 := by
  have hc := h.csize_pos
  have hsplit : c.fhandle.length + c.csize.toNat - 1 =
      (c.fhandle.length - c.csize.toNat + c.csize.toNat - 1) + c.csize.toNat := by omega
  rw [BVFileTransferContext.left, BVFileTransferContext.left, BVFileTransferContext.advanced,
    List.length_drop, hsplit, Nat.add_div_right _ hc]

/-- The test reaches its end exactly at the last chunk of a file that fits. -/
theorem Ongoing.last_iff_of_fits (h : c.Ongoing) (hfits : c.Fits) :
    c.fsize ≤ c.bytesSent + c.csize ↔ c.fhandle.length ≤ c.csize.toNat := by
  rw [h.last_iff]
  constructor
  · intro hlast
    exact hlast.1
  · intro hle
    rw [Fits, h.left_eq_one hle] at hfits
    exact ⟨hle, by omega⟩

theorem Ongoing.not_last_of_not_fits (h : c.Ongoing) (hfits : ¬ c.Fits) :
    ¬ c.fsize ≤ c.bytesSent + c.csize := by
  rw [h.last_iff]
  rintro ⟨hle, hsum⟩
  apply hfits
  rw [Fits, h.left_eq_one hle]
  omega

/-- A full chunk moves `csize` bytes from what is to come to what is sent. -/
theorem Ongoing.fits_advanced (h : c.Ongoing) (hlt : c.csize.toNat < c.fhandle.length) :
    c.advanced.Fits ↔ c.Fits := by
  have hfull : (c.fhandle.take c.csize.toNat).length = c.csize.toNat := by
    rw [List.length_take]
    omega
  have hsent := h.sent
  have hf := c.fsize.toNat_lt
  have hbytes : c.advanced.bytesSent.toNat = c.bytesSent.toNat + c.csize.toNat := by
    rw [BVFileTransferContext.advanced, hfull, UInt32.ofNat_toNat]
    exact toNat_add_csize (by omega)
  have hcsize : c.advanced.csize = c.csize := rfl
  rw [Fits, Fits, h.left_eq_succ hlt, hbytes, hcsize, Nat.succ_mul]
  constructor <;> intro hle <;> omega

end BVFileTransferContext

/-! ### A worker whose file fits -/

namespace BVFileTransferContext

variable {c : BVFileTransferContext}

theorem Ongoing.turn_more (h : c.Ongoing) (hlast : ¬ c.fsize ≤ c.bytesSent + c.csize)
    (written : List FileFrame) (calls : Nat) (now : UInt64) :
    Worker.turn ⟨c, written, calls⟩ now =
      ⟨c.advanced, written ++ [c.chunkFrame now BVTCPMessageType.fileTransferChunkSent
        (c.fhandle.take c.csize.toNat)], calls + 1⟩ := by
  rw [Worker.turn_call h.isRunning h.good, h.transferNextChunk_more hlast]

/-- The last chunk goes out as END, and the loop ends. -/
theorem Ongoing.transferNextChunk_last (h : c.Ongoing) (hlast : c.fsize ≤ c.bytesSent + c.csize)
    (now : UInt64) :
    (c.transferNextChunk now).1 = [c.chunkFrame now BVTCPMessageType.fileTransferEnd
        (c.fhandle.take c.csize.toNat)] ∧
      (c.transferNextChunk now).2.isRunning = false := by
  simp only [transferNextChunk, h.state, reduceCtorEq, if_false, h.data_pos, if_true, hlast,
    and_self, and_true]
  rfl

/-- After a chunk that is not the last of a file that fits, the worker goes on. -/
theorem Ongoing.advanced_of_fits (h : c.Ongoing) (hfits : c.Fits)
    (hlast : ¬ c.fsize ≤ c.bytesSent + c.csize) :
    c.advanced.Ongoing ∧ c.advanced.Fits ∧ c.left = c.advanced.left + 1 := by
  have hlt : c.csize.toNat < c.fhandle.length := by
    rw [h.last_iff_of_fits hfits] at hlast
    omega
  refine ⟨?_, (h.fits_advanced hlt).mpr hfits, h.left_eq_succ hlt⟩
  rcases h.advanced hlast with hbad | ⟨hnext, -⟩
  · -- a chunk that is not the last is full
    have hfull : (c.fhandle.take c.csize.toNat).length = c.csize.toNat := by
      rw [List.length_take]
      omega
    have hgood : c.advanced.good = true := decide_eq_true hfull
    rw [hgood] at hbad
    cases hbad
  · exact hnext

/-- **A file that fits is sent to its END**: with one turn for each chunk the worker stops, and has
made one call for each. -/
theorem Ongoing.run_of_fits (clock : List UInt64) : ∀ (c : BVFileTransferContext) (w : Worker),
    c.Ongoing → c.Fits → w.context = c → c.left ≤ clock.length →
      (Runs.run Worker.turn w clock).context.isRunning = false ∧
      (Runs.run Worker.turn w clock).calls = w.calls + c.left ∧
      ∃ f ∈ c.launchFileTransfer clock,
        f.chunk.header.msgType = BVTCPMessageType.fileTransferEnd := by
  induction clock with
  | nil =>
    intro c w h hfits _ hlen
    have hone : 1 ≤ c.left := by
      by_cases hle : c.fhandle.length ≤ c.csize.toNat
      · rw [h.left_eq_one hle]
      · rw [h.left_eq_succ (by omega)]
        omega
    rw [List.length_nil] at hlen
    omega
  | cons now clock ih =>
    rintro c ⟨c', written, calls⟩ h hfits rfl hlen
    simp only at h hfits hlen ⊢
    rw [Runs.run_cons, launchFileTransfer, if_pos h.isRunning, if_pos h.good]
    by_cases hlast : c'.fsize ≤ c'.bytesSent + c'.csize
    · obtain ⟨hframes, hstopped⟩ := h.transferNextChunk_last hlast now
      have hone := h.left_eq_one ((h.last_iff_of_fits hfits).mp hlast)
      rw [Worker.turn_call h.isRunning h.good, Worker.run_of_stopped hstopped, hone, hframes]
      exact ⟨hstopped, rfl, _, List.mem_append_left _ List.mem_cons_self, rfl⟩
    · obtain ⟨hnext, hfits', hleft⟩ := h.advanced_of_fits hfits hlast
      rw [h.turn_more hlast, h.transferNextChunk_more hlast]
      rw [hleft, List.length_cons] at hlen
      obtain ⟨hstopped, hcalls, f, hf, htype⟩ := ih c'.advanced
        ⟨c'.advanced, written ++ [c'.chunkFrame now BVTCPMessageType.fileTransferChunkSent
          (c'.fhandle.take c'.csize.toNat)], calls + 1⟩ hnext hfits' rfl (by omega)
      refine ⟨hstopped, ?_, f, List.mem_append_right _ hf, htype⟩
      rw [hcalls, hleft]
      simp only
      omega

end BVFileTransferContext

/-! ### The two kinds of runs -/

namespace Worker

/-- At a turn that reads the file, the 32-bit end-of-file test gives the answer of unbounded
arithmetic. -/
def TestExact (w : Worker) : Prop :=
  w.context.isRunning = true → w.context.good = true → w.context.state ≠ .firstChunk →
    (w.context.fsize ≤ w.context.bytesSent + w.context.csize ↔
      w.context.fsize.toNat ≤ w.context.bytesSent.toNat + w.context.csize.toNat)

def Sound (w : Worker) : Prop :=
  w.context.isRunning = true → w.context.Ongoing ∧ w.context.Fits

/-- The loop runs, and no END will come: the stream has failed, or the last sum will wrap. -/
def Doomed (w : Worker) : Prop :=
  w.context.isRunning = true ∧ (w.context.good = true → w.context.Ongoing ∧ ¬ w.context.Fits)

theorem Sound.turn {w : Worker} (h : w.Sound) (now : UInt64) : (w.turn now).Sound := by
  cases hr : w.context.isRunning with
  | false =>
    rw [turn_of_stopped hr]
    exact h
  | true =>
    obtain ⟨hon, hfits⟩ := h hr
    by_cases hlast : w.context.fsize ≤ w.context.bytesSent + w.context.csize
    · intro hrun
      rw [turn_call hr hon.good] at hrun
      rw [(hon.transferNextChunk_last hlast now).2] at hrun
      cases hrun
    · intro _
      rw [turn_call hr hon.good, hon.transferNextChunk_more hlast]
      obtain ⟨hnext, hfits', -⟩ := hon.advanced_of_fits hfits hlast
      exact ⟨hnext, hfits'⟩

theorem Sound.testExact {w : Worker} (h : w.Sound) : w.TestExact := by
  intro hr _ _
  obtain ⟨hon, hfits⟩ := h hr
  have hsent := hon.sent
  rw [hon.last_iff_of_fits hfits]
  omega

theorem Doomed.turn {w : Worker} (h : w.Doomed) (now : UInt64) : (w.turn now).Doomed := by
  cases hg : w.context.good with
  | false =>
    rw [turn_of_not_good hg]
    exact h
  | true =>
    obtain ⟨hon, hfits⟩ := h.2 hg
    have hlast := hon.not_last_of_not_fits hfits
    rw [turn_call h.1 hg, hon.transferNextChunk_more hlast]
    refine ⟨hon.isRunning, fun hgood => ?_⟩
    rcases hon.advanced hlast with hbad | ⟨hnext, hfull⟩
    · rw [hbad] at hgood
      cases hgood
    · have hlt : w.context.csize.toNat < w.context.fhandle.length := by
        have hleft := List.length_pos_iff.mpr hnext.left
        rw [advanced, List.length_drop] at hleft
        omega
      exact ⟨hnext, fun hf => hfits ((hon.fits_advanced hlt).mp hf)⟩

theorem Doomed.run {w : Worker} (h : w.Doomed) (clock : List UInt64) :
    (Runs.run Worker.turn w clock).context.isRunning = true := by
  have hrun : (Runs.run Worker.turn w clock).Doomed :=
    Runs.run_invariant_of_forall (I := Doomed) (fun _ now hw => hw.turn now) h clock
  exact hrun.1

end Worker

/-! ### The start of the loop -/

section Start

variable (content fname serviceName : Bytes) (key : UInt32)

def begunTransfer : BVFileTransferContext :=
  { construct content fname serviceName key with state := .ongoing }

def workerOf : Worker := .launch (construct content fname serviceName key)

def chunkCount : Nat :=
  (content.length + (determineChunkSize (UInt32.ofNat content.length)).toNat - 1) /
    (determineChunkSize (UInt32.ofNat content.length)).toNat

/-- The longest file that is sent to its end: 4095 chunks of the largest size. -/
def largestSent : Nat := 4095 * 1048676

theorem run_workerOf (now : UInt64) (clock : List UInt64) :
    Runs.run Worker.turn (workerOf content fname serviceName key) (now :: clock) =
      Runs.run Worker.turn ⟨begunTransfer content fname serviceName key,
        [(begunTransfer content fname serviceName key).beginFrame now], 1⟩ clock := rfl

theorem left_begun : (begunTransfer content fname serviceName key).left = chunkCount content := rfl

variable {content}

theorem begun_ongoing (hne : content ≠ []) (hlt : content.length < 2 ^ 32) :
    (begunTransfer content fname serviceName key).Ongoing where
  state := rfl
  good := rfl
  isRunning := rfl
  left := hne
  sent := by
    have hfsize : (UInt32.ofNat content.length).toNat = content.length := by
      rw [UInt32.toNat_ofNat', Nat.mod_eq_of_lt hlt]
    exact (Nat.zero_add _).trans hfsize.symm
  csize_pos := (determineChunkSize_bounds _).1

theorem determineChunkSize_cases (fsize : UInt32) :
    (determineChunkSize fsize = 1048676 ∨ fsize < 5000000) ∧
      (determineChunkSize fsize).toNat ≤ 1048676 := by
  unfold determineChunkSize
  repeat' split
  all_goals
    refine ⟨?_, by decide⟩
    first
      | exact .inl rfl
      | (right; simp only [UInt32.lt_iff_toNat_lt, UInt32.reduceToNat] at *; omega)

/-- The chunks of a file stay below 2^32 up to the largest file, and not beyond it. -/
theorem fits_begun_iff (hlt : content.length < 2 ^ 32) :
    (begunTransfer content fname serviceName key).Fits ↔ content.length ≤ largestSent := by
  have hfsize : (UInt32.ofNat content.length).toNat = content.length := by
    rw [UInt32.toNat_ofNat', Nat.mod_eq_of_lt hlt]
  obtain ⟨hpos, -⟩ := determineChunkSize_bounds (UInt32.ofNat content.length)
  obtain ⟨hcases, hmax⟩ := determineChunkSize_cases (UInt32.ofNat content.length)
  have hstart : (begunTransfer content fname serviceName key).bytesSent.toNat = 0 := rfl
  have hcsize : (begunTransfer content fname serviceName key).csize =
    determineChunkSize (UInt32.ofNat content.length) := rfl
  rw [Fits, hstart, Nat.zero_add, left_begun, hcsize, chunkCount, largestSent]
  rcases hcases with hbig | hsmall
  · have hnat : (1048676 : UInt32).toNat = 1048676 := rfl
    rw [hbig, hnat]
    omega
  · rw [UInt32.lt_iff_toNat_lt, hfsize] at hsmall
    have hsmall' : content.length < 5000000 := hsmall
    have hle := Nat.div_mul_le_self
      (content.length + (determineChunkSize (UInt32.ofNat content.length)).toNat - 1)
      (determineChunkSize (UInt32.ofNat content.length)).toNat
    omega

end Start

/-! ### Files sent to their end -/

/-- The frame `InitiateFileTransferWithSession` offers the file with; the size is cast to 32
bits. -/
def offerFrame (now : UInt64) (content fname serviceName : Bytes) (key : UInt32) : Bytes :=
  sendFileOffer now serviceName key (UInt32.ofNat content.length) fname

/-- The header a reader of the frame gets. -/
def FileFrame.wireHeader (f : FileFrame) : BVTCPFileHeader := getFileHeader f.bytes

/-- The bytes of the frame behind its header. -/
def FileFrame.carried (f : FileFrame) : Bytes := f.bytes.drop fileHeaderSizeBytes

/-- The file is framed as BEGIN, chunks and one END, the worker then stops, the offer and BEGIN have
its length, and the chunks carry the file and then zeros. -/
structure FramedCompletely (content fname serviceName : Bytes) (key : UInt32) : Prop where
  offer : ∀ now, (getFileHeader (offerFrame now content fname serviceName key)).metadata.toNat =
    content.length
  frames : ∃ turns, ∀ clock : List UInt64, turns ≤ clock.length →
    let w := Runs.run Worker.turn (workerOf content fname serviceName key) clock
    w.context.isRunning = false ∧
    ∃ (first last : FileFrame) (chunks : List FileFrame) (zeros : Nat),
      w.written = first :: chunks ++ [last] ∧
      first.wireHeader.msgType = BVTCPMessageType.fileTransferBegin ∧
      (metadataFsize first.wireHeader.metadata).toNat = content.length ∧
      (∀ f ∈ chunks, f.wireHeader.msgType = BVTCPMessageType.fileTransferChunkSent) ∧
      last.wireHeader.msgType = BVTCPMessageType.fileTransferEnd ∧
      ((chunks ++ [last]).map FileFrame.carried).flatten = content ++ List.replicate zeros 0

/-- The end-of-file test agrees with unbounded arithmetic at every turn, and the loop stops after
one call for BEGIN and one for each chunk. -/
structure SendLoopExact (content fname serviceName : Bytes) (key : UInt32) : Prop where
  test : ∀ clock : List UInt64,
    (Runs.run Worker.turn (workerOf content fname serviceName key) clock).TestExact
  stops : ∀ clock : List UInt64, 1 + chunkCount content ≤ clock.length →
    let w := Runs.run Worker.turn (workerOf content fname serviceName key) clock
    w.calls = 1 + chunkCount content ∧ w.context.isRunning = false

namespace FileFrame

theorem wireHeader_eq (f : FileFrame) : f.wireHeader = f.chunk.header :=
  getFileHeader_writeFileChunkSync f.chunk f.payloadBytes

theorem carried_eq (f : FileFrame) : f.carried = padTo f.payloadBytes f.chunk.payload := by
  rw [carried, bytes, writeFileChunkSync_eq, List.drop_append]
  simp

end FileFrame

namespace Transfer

variable (t : Transfer)

theorem carried_chunkFrame (msgType : UInt8) (p : UInt64 × Bytes) :
    (t.chunkFrame msgType p).carried = padTo t.csize.toNat p.2 := by
  rw [FileFrame.carried_eq, chunkFrame]
  exact padTo_of_length (length_padTo _ _)

theorem carried_body :
    (t.body.map FileFrame.carried).flatten =
      t.content ++ List.replicate (t.csize.toNat - t.last.2.length) 0 := by
  have hpieces : (t.pieces.map (t.chunkFrame BVTCPMessageType.fileTransferChunkSent)).map
      FileFrame.carried = t.pieces.map (·.2) := by
    rw [List.map_map]
    apply List.map_congr_left
    intro p hp
    rw [Function.comp_apply, t.carried_chunkFrame]
    exact padTo_of_length (t.piece_length p hp)
  rw [body, bodyFrom, List.map_append, List.flatten_append, hpieces, List.map_singleton,
    t.carried_chunkFrame, List.flatten_singleton, padTo_of_length_le t.last_le, content,
    List.append_assoc]

end Transfer

section Settled

variable (content fname serviceName : Bytes) (key : UInt32)

/-- A worker that has too much to send runs for ever. -/
theorem isRunning_of_too_long {content : Bytes} (hlt : content.length < 2 ^ 32)
    (hlong : largestSent < content.length) (clock : List UInt64) :
    (Runs.run Worker.turn (workerOf content fname serviceName key)
      clock).context.isRunning = true := by
  have hne : content ≠ [] := by
    rintro rfl
    cases hlong
  have hfits : ¬ (begunTransfer content fname serviceName key).Fits := by
    rw [fits_begun_iff fname serviceName key hlt]
    omega
  cases clock with
  | nil => rfl
  | cons now clock =>
    rw [run_workerOf]
    apply Worker.Doomed.run
    exact ⟨rfl, fun _ => ⟨begun_ongoing fname serviceName key hne hlt, hfits⟩⟩

theorem written_of_empty (now : UInt64) (clock : List UInt64) :
    (Runs.run Worker.turn (workerOf [] fname serviceName key) (now :: clock)).written =
      [(begunTransfer [] fname serviceName key).beginFrame now] := by
  rw [run_workerOf]
  cases clock with
  | nil => rfl
  | cons now' clock =>
    -- the read comes up with nothing, and `isRunning` is cleared
    rw [Runs.run_cons, Worker.run_of_stopped rfl]
    rfl

theorem metadata_offerFrame (now : UInt64) :
    (getFileHeader (offerFrame now content fname serviceName key)).metadata.toNat =
      content.length % 2 ^ 32 := by
  rw [offerFrame, sendFileOffer, getFileHeader_writeFileChunkSync, constructFileHeader,
    UInt32.toNat_toUInt64, UInt32.toNat_ofNat']

/-- With a turn for BEGIN and one for each chunk, the worker of a file in the range stops. -/
theorem run_workerOf_of_fits {content : Bytes} (hne : content ≠ [])
    (hle : content.length ≤ largestSent) {clock : List UInt64}
    (hlen : 1 + chunkCount content ≤ clock.length) :
    let w := Runs.run Worker.turn (workerOf content fname serviceName key) clock
    w.context.isRunning = false ∧ w.calls = 1 + chunkCount content ∧
      ∃ f ∈ (construct content fname serviceName key).launchFileTransfer clock,
        f.chunk.header.msgType = BVTCPMessageType.fileTransferEnd := by
  have hlt : content.length < 2 ^ 32 := by
    rw [largestSent] at hle
    omega
  have hon := begun_ongoing fname serviceName key hne hlt
  have hfits := (fits_begun_iff fname serviceName key hlt).mpr hle
  cases clock with
  | nil =>
    rw [List.length_nil] at hlen
    omega
  | cons now clock =>
    rw [List.length_cons] at hlen
    rw [run_workerOf]
    obtain ⟨hstopped, hcalls, f, hf, htype⟩ := Ongoing.run_of_fits clock _
      ⟨begunTransfer content fname serviceName key,
        [(begunTransfer content fname serviceName key).beginFrame now], 1⟩
      hon hfits rfl (by rw [left_begun]; omega)
    exact ⟨hstopped, hcalls, f, List.mem_cons_of_mem _ hf, htype⟩

theorem framedCompletely_of_le {content : Bytes} (hne : content ≠ [])
    (hle : content.length ≤ largestSent) : FramedCompletely content fname serviceName key := by
  have hlt : content.length < 2 ^ 32 := by
    rw [largestSent] at hle
    omega
  refine ⟨fun now => ?_, 1 + chunkCount content, fun clock hlen => ?_⟩
  · rw [metadata_offerFrame, Nat.mod_eq_of_lt hlt]
  · obtain ⟨hstopped, -, hend⟩ := run_workerOf_of_fits fname serviceName key hne hle hlen
    obtain ⟨t, hframes, hcontent, -⟩ := exists_transfer hne hlt hend
    refine ⟨hstopped, t.beginFrame,
      t.chunkFrame BVTCPMessageType.fileTransferEnd t.last,
      t.pieces.map (t.chunkFrame BVTCPMessageType.fileTransferChunkSent),
      t.csize.toNat - t.last.2.length, ?_, ?_, ?_, ?_, ?_, ?_⟩
    · rw [Worker.written_run]
      exact hframes
    · rw [FileFrame.wireHeader_eq]
      rfl
    · rw [FileFrame.wireHeader_eq, Transfer.beginFrame, constructFileHeader,
        metadataFsize_beginMetadata, t.toNat_fsize, hcontent]
    · intro f hf
      obtain ⟨p, -, rfl⟩ := List.mem_map.mp hf
      rw [FileFrame.wireHeader_eq]
      rfl
    · rw [FileFrame.wireHeader_eq]
      rfl
    · rw [← hcontent]
      exact t.carried_body

theorem not_framedCompletely_empty : ¬ FramedCompletely [] fname serviceName key := by
  intro h
  obtain ⟨turns, hturns⟩ := h.frames
  obtain ⟨-, first, last, chunks, -, hwritten, -⟩ :=
    hturns (0 :: List.replicate turns 0) (by simp)
  rw [written_of_empty] at hwritten
  have hlen := congrArg List.length hwritten
  simp at hlen

theorem le_largestSent_of_framed {content : Bytes}
    (h : FramedCompletely content fname serviceName key) : content.length ≤ largestSent := by
  have hoffer := h.offer 0
  rw [metadata_offerFrame] at hoffer
  have hlt : content.length < 2 ^ 32 := by omega
  by_contra hlong
  obtain ⟨turns, hturns⟩ := h.frames
  have hstopped := (hturns (List.replicate turns 0) (by simp)).1
  rw [isRunning_of_too_long fname serviceName key hlt (by omega)] at hstopped
  cases hstopped

/-- **Files sent completely.**  BEGIN, chunks and one END go out, with the length of the file in
OFFER and BEGIN and the whole file in the chunks, exactly for the files of at least one byte and at
most `largestSent` bytes. -/
theorem framed_completely_iff :
    FramedCompletely content fname serviceName key ↔
      1 ≤ content.length ∧ content.length ≤ largestSent := by
  constructor
  · intro h
    refine ⟨?_, le_largestSent_of_framed fname serviceName key h⟩
    rw [Nat.one_le_iff_ne_zero, ne_eq, List.length_eq_zero_iff]
    rintro rfl
    exact not_framedCompletely_empty fname serviceName key h
  · rintro ⟨hpos, hle⟩
    exact framedCompletely_of_le fname serviceName key (List.ne_nil_of_length_pos hpos) hle

/-- An empty file `x`: BEGIN is written and nothing after it. -/
theorem empty_file_has_no_end :
    (Runs.run Worker.turn (workerOf [] [120] [97] 0) [0, 0, 0]).written =
        [(begunTransfer [] [120] [97] 0).beginFrame 0] ∧
      ¬ FramedCompletely [] [120] [97] 0 :=
  ⟨written_of_empty _ _ _ _ _, not_framedCompletely_empty _ _ _⟩

theorem sendLoopExact_of_le {content : Bytes} (hne : content ≠ [])
    (hle : content.length ≤ largestSent) : SendLoopExact content fname serviceName key where
  test := by
    have hlt : content.length < 2 ^ 32 := by
      rw [largestSent] at hle
      omega
    intro clock
    cases clock with
    | nil =>
      intro _ _ hstate
      exact absurd rfl hstate
    | cons now clock =>
      rw [run_workerOf]
      apply Worker.Sound.testExact
      apply Runs.run_invariant_of_forall (I := Worker.Sound) (fun _ now hw => hw.turn now)
      intro _
      exact ⟨begun_ongoing fname serviceName key hne hlt,
        (fits_begun_iff fname serviceName key hlt).mpr hle⟩
  stops := by
    intro clock hlen
    obtain ⟨hstopped, hcalls, -⟩ := run_workerOf_of_fits fname serviceName key hne hle hlen
    exact ⟨hcalls, hstopped⟩

theorem not_sendLoopExact_of_too_long {content : Bytes} (hlt : content.length < 2 ^ 32)
    (hlong : largestSent < content.length) : ¬ SendLoopExact content fname serviceName key := by
  intro h
  have hstopped := (h.stops (List.replicate (1 + chunkCount content) 0) (by simp)).2
  rw [isRunning_of_too_long fname serviceName key hlt hlong] at hstopped
  cases hstopped

/-- **The send loop.**  For a file of at least one and fewer than 2^32 bytes, the end-of-file test
agrees with unbounded arithmetic at every turn and the loop stops after a call for BEGIN and one
for each chunk exactly if the file is no longer than `largestSent`. -/
theorem send_loop_exact_iff (hne : content ≠ []) (hlt : content.length < 2 ^ 32) :
    SendLoopExact content fname serviceName key ↔ content.length ≤ largestSent := by
  constructor
  · intro h
    by_contra hlong
    exact not_sendLoopExact_of_too_long fname serviceName key hlt (by omega) h
  · exact sendLoopExact_of_le fname serviceName key hne

end Settled

/-- A file of one byte is in the range. -/
theorem send_loop_exact_one_byte : SendLoopExact [7] [120] [97] 0 :=
  (send_loop_exact_iff [7] [120] [97] 0 (by decide) (by decide)).mpr (by decide)

/-- The longest file with a 32-bit length: the loop never ends. -/
theorem send_loop_of_longest_file_spins :
    let content : Bytes := List.replicate (2 ^ 32 - 1) 0
    content ≠ [] ∧ content.length < 2 ^ 32 ∧
      (∀ clock : List UInt64, (Runs.run Worker.turn (workerOf content [120] [97] 0)
        clock).context.isRunning = true) ∧
      ¬ SendLoopExact content [120] [97] 0 := by
  intro content
  have hlen : content.length = 2 ^ 32 - 1 := List.length_replicate
  have hlt : content.length < 2 ^ 32 := by omega
  have hlong : largestSent < content.length := by
    rw [largestSent, hlen]
    omega
  refine ⟨?_, hlt, isRunning_of_too_long [120] [97] 0 hlt hlong,
    not_sendLoopExact_of_too_long [120] [97] 0 hlt hlong⟩
  apply List.ne_nil_of_length_pos
  omega

end LocalChat
