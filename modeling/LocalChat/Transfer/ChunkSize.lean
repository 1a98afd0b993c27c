import LocalChat.Transfer.Completion
import LocalChat.Lib.Ladders

/-!
# The chunk size of a file

`DetermineChunkSize` chooses the chunk size by comparing the file size with bounds on both sides.
The bounds leave out some sizes (1000 to 1024, 8000, 64000, 256000 and 1000000), and a file of such
a size falls through to the largest chunk size.  Without these sizes the comparisons are a ladder
with one bound for each row, and a ladder with rising values is monotone.

* `chunk_size_grows_iff`: two sizes have their chunk sizes in order exactly if the smaller one does
  not fall through or the larger one gets the largest chunk size as well; and from 256 bytes on the
  zeros behind the last piece are fewer than the file has bytes exactly if the size does not fall
  through or is 1000000.
* `carried_of_framed`: those zeros are what a worker puts on the wire behind the file.
-/

namespace LocalChat

open Octets BVFileTransferContext Ladders

/-! ### The ladder -/

/-- The sizes between two rows of `DetermineChunkSize`. -/
def FallsThrough (fsize : UInt32) : Prop :=
  (1000 ≤ fsize ∧ fsize ≤ 1024) ∨ fsize = 8000 ∨ fsize = 64000 ∨ fsize = 256000 ∨ fsize = 1000000

instance : DecidablePred FallsThrough := fun fsize =>
  inferInstanceAs (Decidable ((1000 ≤ fsize ∧ fsize ≤ 1024) ∨ fsize = 8000 ∨ fsize = 64000 ∨
    fsize = 256000 ∨ fsize = 1000000))

/-- The rows of `DetermineChunkSize`, each closed up to the next one. -/
def chunkRows : List (Nat × Nat) :=
  [(256, 64), (1025, 256), (8001, 512), (64001, 4096), (256001, 32768), (1000001, 65536),
    (5000000, 524288)]

theorem fallsThrough_iff (fsize : UInt32) : FallsThrough fsize ↔
    (1000 ≤ fsize.toNat ∧ fsize.toNat ≤ 1024) ∨ fsize.toNat = 8000 ∨ fsize.toNat = 64000 ∨
      fsize.toNat = 256000 ∨ fsize.toNat = 1000000 := by
  simp only [FallsThrough, UInt32.le_iff_toNat_le, ← UInt32.toNat_inj, UInt32.reduceToNat]

theorem toNat_determineChunkSize (fsize : UInt32) :
    (determineChunkSize fsize).toNat =
      if FallsThrough fsize then 1048676 else ladder 1048676 chunkRows fsize.toNat := by
  simp only [fallsThrough_iff, determineChunkSize, gt_iff_lt, UInt32.lt_iff_toNat_lt,
    UInt32.reduceToNat, apply_ite UInt32.toNat, chunkRows, ladder]
  generalize fsize.toNat = n
  grind

theorem chunkRows_mono : Monotone (ladder 1048676 chunkRows) :=
  ladder_mono (by decide)

/-- The largest chunk size is above every row, so only what reaches it too is not below it. -/
theorem ladder_eq_top_iff (n : Nat) : 1048676 ≤ ladder 1048676 chunkRows n ↔ 5000000 ≤ n := by
  simp only [chunkRows, ladder]
  grind

theorem ladder_le_top (n : Nat) : ladder 1048676 chunkRows n ≤ 1048676 := by
  simp only [chunkRows, ladder]
  grind

/-- From the second row on a chunk is no longer than the file. -/
theorem ladder_le_self {n : Nat} (h : 256 ≤ n) (hlt : n < 5000000) :
    ladder 1048676 chunkRows n ≤ n := by
  simp only [chunkRows, ladder]
  grind

/-- Two file sizes and their chunk sizes. -/
theorem determineChunkSize_le_iff {n m : UInt32} (h : n ≤ m) :
    determineChunkSize n ≤ determineChunkSize m ↔
      (FallsThrough n → FallsThrough m ∨ 5000000 ≤ m) := by
  have hle : n.toNat ≤ m.toNat := UInt32.le_iff_toNat_le.mp h
  have hbig : 5000000 ≤ m ↔ 5000000 ≤ m.toNat := UInt32.le_iff_toNat_le
  rw [UInt32.le_iff_toNat_le, toNat_determineChunkSize, toNat_determineChunkSize, hbig]
  by_cases hn : FallsThrough n
  · rw [if_pos hn]
    by_cases hm : FallsThrough m
    · simp [hm]
    · simp only [hn, hm, if_false, true_implies, false_or]
      exact ladder_eq_top_iff m.toNat
  · rw [if_neg hn]
    refine iff_of_true ?_ fun hft => absurd hft hn
    split
    · exact ladder_le_top n.toNat
    · exact chunkRows_mono hle

/-! ### The zeros behind the last piece -/

/-- What the last chunk of a file has behind the file. -/
def lastChunkPadding (fsize : UInt32) : Nat :=
  let csize := (determineChunkSize fsize).toNat
  csize * ((fsize.toNat + csize - 1) / csize) - fsize.toNat

theorem lastChunkPadding_lt (fsize : UInt32) :
    lastChunkPadding fsize < (determineChunkSize fsize).toNat := by
  have hpos := (determineChunkSize_bounds fsize).1
  have hle := Nat.mul_div_le (fsize.toNat + (determineChunkSize fsize).toNat - 1)
    (determineChunkSize fsize).toNat
  rw [lastChunkPadding]
  omega

/-- A file that fits one chunk is filled up to it. -/
theorem lastChunkPadding_of_le {fsize : UInt32} (hpos : 0 < fsize.toNat)
    (hle : fsize.toNat ≤ (determineChunkSize fsize).toNat) :
    lastChunkPadding fsize = (determineChunkSize fsize).toNat - fsize.toNat := by
  have hone : (fsize.toNat + (determineChunkSize fsize).toNat - 1) /
      (determineChunkSize fsize).toNat = 1 := Nat.div_eq_of_lt_le (by omega) (by omega)
  simp only [lastChunkPadding, hone, Nat.mul_one]

theorem lastChunkPadding_lt_self_iff {n : UInt32} (h : 256 ≤ n) (hlt : n < 5000000) :
    lastChunkPadding n < n.toNat ↔ (FallsThrough n → n = 1000000) := by
  have hpadding := lastChunkPadding_lt n
  have h' : 256 ≤ n.toNat := UInt32.le_iff_toNat_le.mp h
  have hlt' : n.toNat < 5000000 := UInt32.lt_iff_toNat_lt.mp hlt
  by_cases hn : FallsThrough n
  · -- one chunk of the largest size; only 1000000 is more than half of it
    have hcsize := toNat_determineChunkSize n
    rw [if_pos hn] at hcsize
    have hsizes := (fallsThrough_iff n).mp hn
    have hmega : n = 1000000 ↔ n.toNat = 1000000 := UInt32.toNat_inj.symm
    rw [lastChunkPadding_of_le (by omega) (by omega), hcsize, hmega]
    simp only [hn, true_implies]
    omega
  · refine iff_of_true ?_ fun hft => absurd hft hn
    have hle := ladder_le_self h' hlt'
    rw [toNat_determineChunkSize, if_neg hn] at hpadding
    omega

/-- **Chunk sizes and file sizes.**  Of two file sizes the larger one has the larger chunk size
unless only the smaller one falls through, and the zeros behind a file of at least 256 bytes are
fewer than its own bytes unless its size falls through below 1000000. -/
theorem chunk_size_grows_iff (n m : UInt32) :
    ((n ≤ m → determineChunkSize n ≤ determineChunkSize m) ↔
      (n ≤ m → FallsThrough n → FallsThrough m ∨ 5000000 ≤ m)) ∧
    ((256 ≤ n → n < 5000000 → lastChunkPadding n < n.toNat) ↔
      (FallsThrough n → n = 1000000)) := by
  constructor
  · exact forall_congr' fun h => determineChunkSize_le_iff h
  · constructor
    · intro hall hn
      have hsizes := (fallsThrough_iff n).mp hn
      have h : 256 ≤ n := UInt32.le_iff_toNat_le.mpr (show 256 ≤ n.toNat by omega)
      have hlt : n < 5000000 := UInt32.lt_iff_toNat_lt.mpr (show n.toNat < 5000000 by omega)
      exact (lastChunkPadding_lt_self_iff h hlt).mp (hall h hlt) hn
    · exact fun hn h hlt => (lastChunkPadding_lt_self_iff h hlt).mpr hn

/-- A file of 1000 bytes goes out in one chunk of 1048676 bytes, one of 1025 bytes in chunks of
512. -/
theorem chunk_size_of_1000_bytes :
    ¬ ((∀ n m : UInt32, n ≤ m → determineChunkSize n ≤ determineChunkSize m) ∧
      ∀ n : UInt32, 256 ≤ n → n < 5000000 → lastChunkPadding n < n.toNat) ∧
    determineChunkSize 1000 = 1048676 ∧ determineChunkSize 1025 = 512 ∧
    lastChunkPadding 1000 = 1047676 := by
  refine ⟨?_, by decide, by decide, by decide⟩
  rintro ⟨hmono, -⟩
  exact absurd (hmono 1000 1025 (by decide)) (by decide)

/-! ### On the wire -/

namespace Transfer

variable (t : Transfer)

theorem length_pieces :
    ((t.pieces.map (·.2)).flatten).length = t.pieces.length * t.csize.toNat := by
  have hmap : (t.pieces.map (·.2)).map List.length =
      List.replicate t.pieces.length t.csize.toNat := by
    rw [List.map_map, List.eq_replicate_iff, List.length_map]
    refine ⟨rfl, fun k hk => ?_⟩
    obtain ⟨p, hp, rfl⟩ := List.mem_map.mp hk
    exact t.piece_length p hp
  rw [List.length_flatten, hmap, List.sum_replicate_nat]

/-- The zeros behind a file are the padding of its size. -/
theorem csize_sub_last (h : t.csize = determineChunkSize t.fsize) :
    t.csize.toNat - t.last.2.length = lastChunkPadding t.fsize := by
  have hlast := t.last_le
  have hpos := t.last_pos
  have hlen : t.fsize.toNat = t.pieces.length * t.csize.toNat + t.last.2.length := by
    rw [t.toNat_fsize, content, List.length_append, t.length_pieces]
  have hcount : (t.fsize.toNat + t.csize.toNat - 1) / t.csize.toNat = t.pieces.length + 1 := by
    rw [hlen]
    refine Nat.div_eq_of_lt_le ?_ ?_
    · rw [Nat.succ_mul]
      omega
    · rw [Nat.succ_mul, Nat.succ_mul]
      omega
  simp only [lastChunkPadding, ← h, hcount, Nat.mul_succ]
  rw [hlen, Nat.mul_comm]
  omega

end Transfer

/-- The frames behind BEGIN carry the file and the padding of its size. -/
theorem carried_of_framed {content : Bytes} (fname serviceName : Bytes) (key : UInt32)
    (hne : content ≠ []) (hle : content.length ≤ largestSent) {clock : List UInt64}
    (hlen : 1 + chunkCount content ≤ clock.length) :
    ∃ first rest, (Runs.run Worker.turn (workerOf content fname serviceName key) clock).written =
        first :: rest ∧
      (rest.map FileFrame.carried).flatten =
        content ++ List.replicate (lastChunkPadding (UInt32.ofNat content.length)) 0 := by
  have hlt : content.length < 2 ^ 32 := by
    rw [largestSent] at hle
    omega
  obtain ⟨-, -, hend⟩ := run_workerOf_of_fits fname serviceName key hne hle hlen
  obtain ⟨t, hframes, hcontent, -⟩ := exists_transfer hne hlt hend
  have hfsize : t.fsize = UInt32.ofNat content.length := by rw [Transfer.fsize, hcontent]
  -- the chunk size is in the metadata of the BEGIN frame
  have hcsize : t.csize = determineChunkSize t.fsize := by
    cases clock with
    | nil => cases hframes
    | cons now clock =>
      have hfirst := (List.cons.inj hframes).1
      have hmeta := congrArg (fun f => metadataCsize f.chunk.header.metadata) hfirst
      rw [hfsize]
      exact ((metadataCsize_beginMetadata _ _).symm.trans (hmeta.trans
        (metadataCsize_beginMetadata _ _))).symm
  refine ⟨t.beginFrame, t.body, ?_, ?_⟩
  · rw [Worker.written_run]
    exact hframes
  · rw [t.carried_body, hcontent, t.csize_sub_last hcsize, hfsize]

end LocalChat
