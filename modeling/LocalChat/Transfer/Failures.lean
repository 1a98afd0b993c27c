import LocalChat.Transfer.Completion

/-!
# Failed chunk writes

`WriteFileChunkSync` returns whether its write succeeded, and `TransferNextChunk` drops what it
returns: `bytesSent` moves on, `progress_F` is called and the loop makes its next turn whatever
became of the write.  `Upload` is the worker with a log of these calls; every turn brings the
outcome of the write it may make.

Which turns make a write depends on the length of the file alone (`WritesAt`), so a failure stops
the worker and is left out of its counts only where there is nothing left to stop or to count.

* `frames_run`: the worker writes the frames it would write if nothing failed.
* `failures_respected_iff`: the reports stay within the bytes of the writes that succeeded, and
  nothing is written after a failure, exactly if the only write that fails is the last one of the
  run and it is BEGIN (or the counter has wrapped by then).
-/

namespace LocalChat

open Octets BVFileTransferContext

/-! ### The worker and its log -/

/-- A call of `WriteFileChunkSync` by the worker, with what it returned and with the call of
`progress_F` behind it. -/
structure ChunkWrite where
  frame : FileFrame
  /-- the bytes of the file in the frame -/
  fileBytes : Nat
  succeeded : Bool
  /-- the arguments `bytesSent` and `fsize` of `progress_F`, which BEGIN does not call -/
  reported : Option (UInt32 × UInt32)
  deriving DecidableEq, Repr

/-- What `WriteFileChunkSync` returns when its write to the socket has the outcome `written`. -/
def writeResult (f : FileFrame) (written : Bool) : Bool :=
  (LocalChat.fileFrame f.chunk f.payloadBytes).isSome && written

/-- The worker thread between two turns of its loop, with the calls it has made. -/
structure Upload where
  context : BVFileTransferContext
  writes : List ChunkWrite
  deriving DecidableEq, Repr

namespace BVFileTransferContext

/-- The log entry of the frame a call of `TransferNextChunk` writes. -/
def chunkWrite (c : BVFileTransferContext) (t : UInt64 × Bool) (f : FileFrame) : ChunkWrite where
  frame := f
  fileBytes := if c.state = .firstChunk then 0 else (c.fhandle.take c.csize.toNat).length
  succeeded := writeResult f t.2
  reported :=
    if c.state = .firstChunk then none else some ((c.transferNextChunk t.1).2.bytesSent, c.fsize)

theorem transferNextChunk_ongoing {c : BVFileTransferContext} (h : c.state = .ongoing)
    (hpos : 0 < (c.fhandle.take c.csize.toNat).length) (now : UInt64) :
    c.transferNextChunk now =
      ([c.chunkFrame now (if c.fsize ≤ c.bytesSent + c.csize then BVTCPMessageType.fileTransferEnd
          else BVTCPMessageType.fileTransferChunkSent) (c.fhandle.take c.csize.toNat)],
        { c with
          fhandle := c.fhandle.drop c.csize.toNat
          good := (c.fhandle.take c.csize.toNat).length = c.csize.toNat
          bytesSent := c.bytesSent + UInt32.ofNat (c.fhandle.take c.csize.toNat).length
          isRunning := if c.fsize ≤ c.bytesSent + c.csize then false else c.isRunning }) := by
  by_cases hlast : c.fsize ≤ c.bytesSent + c.csize
  · simp only [transferNextChunk, h, reduceCtorEq, if_false, hpos, if_true, hlast, and_self]
    rfl
  · simp only [transferNextChunk, h, reduceCtorEq, if_false, hpos, if_true, hlast, and_false]
    rfl

theorem chunkWrite_firstChunk {c : BVFileTransferContext} (h : c.state = .firstChunk)
    (t : UInt64 × Bool) (f : FileFrame) : c.chunkWrite t f = ⟨f, 0, writeResult f t.2, none⟩ := by
  simp only [chunkWrite, h, if_true]

theorem chunkWrite_ongoing {c : BVFileTransferContext} (h : c.state = .ongoing)
    (t : UInt64 × Bool) (f : FileFrame) :
    c.chunkWrite t f = ⟨f, (c.fhandle.take c.csize.toNat).length, writeResult f t.2,
      some ((c.transferNextChunk t.1).2.bytesSent, c.fsize)⟩ := by
  simp only [chunkWrite, h, reduceCtorEq, if_false]

end BVFileTransferContext

theorem writeResult_eq {f : FileFrame} (h : f.payloadBytes < 2 ^ 32) (written : Bool) :
    writeResult f written = written := by
  rw [writeResult, LocalChat.fileFrame, if_neg (by omega)]
  rfl

namespace Upload

def turn (w : Upload) (t : UInt64 × Bool) : Upload :=
  if w.context.isRunning then
    if w.context.good then
      ⟨(w.context.transferNextChunk t.1).2,
        w.writes ++ (w.context.transferNextChunk t.1).1.map (w.context.chunkWrite t)⟩
    else w
  else w

theorem turn_call {w : Upload} (hr : w.context.isRunning = true) (hg : w.context.good = true)
    (t : UInt64 × Bool) :
    w.turn t = ⟨(w.context.transferNextChunk t.1).2,
      w.writes ++ (w.context.transferNextChunk t.1).1.map (w.context.chunkWrite t)⟩ := by
  rw [turn, hr, hg, if_pos rfl, if_pos rfl]

theorem turn_frames (w : Upload) (t : UInt64 × Bool) (calls : Nat) : ∃ calls',
    Worker.turn ⟨w.context, w.writes.map (·.frame), calls⟩ t.1 =
      ⟨(w.turn t).context, (w.turn t).writes.map (·.frame), calls'⟩ := by
  rw [Worker.turn, turn]
  by_cases hr : w.context.isRunning = true
  · by_cases hg : w.context.good = true
    · refine ⟨calls + 1, ?_⟩
      simp only [hr, hg, if_true, List.map_append, List.map_map, Worker.mk.injEq, true_and,
        and_true, List.append_cancel_left_eq]
      exact (List.map_id _).symm
    · exact ⟨calls, by simp only [hr, hg, if_true, Bool.false_eq_true, if_false]⟩
  · exact ⟨calls, by simp only [hr, Bool.false_eq_true, if_false]⟩

end Upload

section Runs

variable (content fname serviceName : Bytes) (key : UInt32)

/-- The worker of a file and what it has done after some turns. -/
def uploadAfter (ts : List (UInt64 × Bool)) : Upload :=
  Runs.run Upload.turn ⟨construct content fname serviceName key, []⟩ ts

/-- **The outcomes steer nothing**: whatever fails, the worker writes the frames it writes when
nothing does. -/
theorem frames_run (ts : List (UInt64 × Bool)) :
    (uploadAfter content fname serviceName key ts).writes.map (·.frame) =
      (construct content fname serviceName key).launchFileTransfer (ts.map (·.1)) := by
  have hrun : ∀ (ts : List (UInt64 × Bool)) (w : Upload) (calls : Nat), ∃ calls',
      Runs.run Worker.turn ⟨w.context, w.writes.map (·.frame), calls⟩ (ts.map (·.1)) =
        ⟨(Runs.run Upload.turn w ts).context,
          (Runs.run Upload.turn w ts).writes.map (·.frame), calls'⟩ := by
    intro ts
    induction ts with
    | nil => exact fun w calls => ⟨calls, rfl⟩
    | cons t ts ih =>
      intro w calls
      obtain ⟨calls', h⟩ := w.turn_frames t calls
      rw [List.map_cons, Runs.run_cons, h, Runs.run_cons]
      exact ih (w.turn t) calls'
  obtain ⟨calls', h⟩ := hrun ts ⟨construct content fname serviceName key, []⟩ 0
  have hwritten := Worker.written_run (ts.map (·.1)) (workerOf content fname serviceName key)
  rw [uploadAfter]
  exact (congrArg Worker.written h).symm.trans hwritten

end Runs

/-! ### Which turns make a write -/

abbrev csizeOf (content : Bytes) : Nat := (determineChunkSize (UInt32.ofNat content.length)).toNat

/-- Turn `i` makes a write: some of the file is left after the chunks of every earlier turn, and
none of them was END.  The test for END adds up in 32 bits. -/
def WritesAt (content : Bytes) (i : Nat) : Prop :=
  ∀ k < i, k * csizeOf content < content.length ∧
    (0 < k → k * csizeOf content % 2 ^ 32 < content.length % 2 ^ 32)

instance (content : Bytes) (i : Nat) : Decidable (WritesAt content i) :=
  inferInstanceAs (Decidable (∀ k < i, k * csizeOf content < content.length ∧
    (0 < k → k * csizeOf content % 2 ^ 32 < content.length % 2 ^ 32)))

theorem writesAt_zero (content : Bytes) : WritesAt content 0 := fun _ hk => absurd hk (by omega)

theorem writesAt_succ {content : Bytes} {i : Nat} : WritesAt content (i + 1) ↔
    WritesAt content i ∧ i * csizeOf content < content.length ∧
      (0 < i → i * csizeOf content % 2 ^ 32 < content.length % 2 ^ 32) := by
  constructor
  · intro h
    exact ⟨fun k hk => h k (by omega), h i (by omega)⟩
  · rintro ⟨h, hi⟩ k hk
    rcases Nat.lt_succ_iff_lt_or_eq.mp hk with hlt | rfl
    · exact h k hlt
    · exact hi

theorem WritesAt.mono {content : Bytes} {i j : Nat} (h : WritesAt content j) (hle : i ≤ j) :
    WritesAt content i := fun k hk => h k (by omega)

/-- A file of a length that fits 32 bits is written chunk by chunk up to its end. -/
theorem writesAt_succ_of_lt {content : Bytes} (hlt : content.length < 2 ^ 32) (i : Nat) :
    WritesAt content (i + 1) ↔ i * csizeOf content < content.length := by
  constructor
  · exact fun h => (h i (by omega)).1
  · intro hi k hk
    have hle : k * csizeOf content ≤ i * csizeOf content := Nat.mul_le_mul_right _ (by omega)
    refine ⟨by omega, fun _ => ?_⟩
    rw [Nat.mod_eq_of_lt (by omega), Nat.mod_eq_of_lt hlt]
    omega

/-- The bytes of the file in the frames up to turn `i`. -/
abbrev bytesUpTo (content : Bytes) (i : Nat) : Nat := min (i * csizeOf content) content.length

/-- A turn that writes a chunk takes something of the file, and less than 2^32 bytes. -/
theorem WritesAt.bytesUpTo_lt {content : Bytes} {i : Nat} (hw : WritesAt content i) (hi : i ≠ 0) :
    bytesUpTo content (i - 1) < bytesUpTo content i ∧
      bytesUpTo content i < bytesUpTo content (i - 1) + 2 ^ 32 := by
  obtain ⟨k, rfl⟩ := Nat.exists_eq_succ_of_ne_zero hi
  have hfits : 0 < csizeOf content ∧ csizeOf content + fileHeaderSizeBytes < 2 ^ 32 :=
    determineChunkSize_bounds (UInt32.ofNat content.length)
  have hleft := (writesAt_succ.mp hw).2.1
  rw [Nat.succ_sub_one, bytesUpTo, bytesUpTo, Nat.succ_mul, Nat.min_eq_left hleft.le]
  omega

namespace BVFileTransferContext

/-- The worker is before turn `i`, and every turn so far has made its write. -/
structure Before (content : Bytes) (i : Nat) (c : BVFileTransferContext) : Prop where
  isRunning : c.isRunning = true
  good : c.good = true
  csize : c.csize = determineChunkSize (UInt32.ofNat content.length)
  fsize : c.fsize = UInt32.ofNat content.length
  state : c.state = if i = 0 then .firstChunk else .ongoing
  fhandle : c.fhandle = content.drop ((i - 1) * csizeOf content)
  bytesSent : c.bytesSent = UInt32.ofNat ((i - 1) * csizeOf content)

def Over (c : BVFileTransferContext) : Prop :=
  c.isRunning = false ∨ c.good = false ∨ (c.state ≠ .firstChunk ∧ c.fhandle = [])

end BVFileTransferContext

namespace Upload

theorem turn_of_over {w : Upload} (h : w.context.Over) (t : UInt64 × Bool) :
    (w.turn t).writes = w.writes ∧ (w.turn t).context.bytesSent = w.context.bytesSent ∧
      (w.turn t).context.Over := by
  by_cases hr : w.context.isRunning = true
  · by_cases hg : w.context.good = true
    · -- the file is at its end: the read comes up with nothing
      obtain ⟨hstate, hnil⟩ := (h.resolve_left (by simp [hr])).resolve_left (by simp [hg])
      rw [turn_call hr hg]
      simp only [transferNextChunk, hstate, hnil, if_false, List.take_nil, List.length_nil,
        Nat.lt_irrefl, List.map_nil, List.append_nil, true_and]
      exact .inl rfl
    · rw [turn, if_pos hr, if_neg hg]
      exact ⟨rfl, rfl, h⟩
  · rw [turn, if_neg hr]
    exact ⟨rfl, rfl, h⟩

/-- What a turn that makes a write leaves: the write is in the log, and the next turn makes one too
or no turn does any more. -/
structure Written (content : Bytes) (i : Nat) (w : Upload) (t : UInt64 × Bool) (e : ChunkWrite) :
    Prop where
  writes : (w.turn t).writes = w.writes ++ [e]
  succeeded : e.succeeded = t.2
  fileBytes : bytesUpTo content (i - 1) + e.fileBytes = bytesUpTo content i
  reported : e.reported = if i = 0 then none else
    some (UInt32.ofNat (bytesUpTo content i), UInt32.ofNat content.length)
  bytesSent : (w.turn t).context.bytesSent = UInt32.ofNat (bytesUpTo content i)
  next : (w.turn t).context.Before content (i + 1) ∧ WritesAt content (i + 1) ∨
    (w.turn t).context.Over ∧ ¬ WritesAt content (i + 1)

theorem turn_begin {content : Bytes} {w : Upload} (h : w.context.Before content 0)
    (t : UInt64 × Bool) : ∃ e, Written content 0 w t e := by
  have hstate : w.context.state = .firstChunk := h.state
  have hfhandle : w.context.fhandle = content := by
    rw [h.fhandle, Nat.zero_sub, Nat.zero_mul, List.drop_zero]
  have hbytes : w.context.bytesSent = 0 := by
    rw [h.bytesSent, Nat.zero_sub, Nat.zero_mul]
    rfl
  have hcall := turn_call h.isRunning h.good t
  simp only [transferNextChunk, hstate, if_true, List.map_singleton] at hcall
  rw [chunkWrite_firstChunk hstate] at hcall
  have hfits : (w.context.beginFrame t.1).payloadBytes < 2 ^ 32 := by
    show controlPayloadBytes < 2 ^ 32
    decide
  refine ⟨_, congrArg Upload.writes hcall, writeResult_eq hfits t.2, ?_, rfl, ?_, ?_⟩
  · simp [bytesUpTo]
  · rw [hcall]
    simp [bytesUpTo, hbytes]
  · rw [hcall, writesAt_succ]
    by_cases hnil : content = []
    · refine .inr ⟨.inr (.inr ⟨by simp, hfhandle.trans hnil⟩), ?_⟩
      simp [hnil]
    · refine .inl ⟨⟨h.isRunning, h.good, h.csize, h.fsize, rfl, ?_, ?_⟩, writesAt_zero content, ?_⟩
      · simpa using hfhandle
      · simpa using hbytes
      · exact ⟨by simpa using List.length_pos_iff.mpr hnil, fun hpos => absurd hpos (by omega)⟩

theorem last_iff {content : Bytes} {k : Nat} {c : BVFileTransferContext}
    (h : c.Before content (k + 1)) : c.fsize ≤ c.bytesSent + c.csize ↔
      content.length % 2 ^ 32 ≤ (k + 1) * csizeOf content % 2 ^ 32 := by
  rw [UInt32.le_iff_toNat_le, UInt32.toNat_add, h.fsize, h.bytesSent, h.csize, UInt32.toNat_ofNat',
    UInt32.toNat_ofNat', Nat.mod_add_mod, Nat.succ_mul]
  rfl

theorem length_read {content : Bytes} {k : Nat} {c : BVFileTransferContext}
    (h : c.Before content (k + 1)) : (c.fhandle.take c.csize.toNat).length =
      min (csizeOf content) (content.length - k * csizeOf content) := by
  have hfhandle : c.fhandle = content.drop (k * csizeOf content) := h.fhandle
  rw [List.length_take, hfhandle, List.length_drop, h.csize]

theorem bytesUpTo_read {content : Bytes} {k : Nat} {c : BVFileTransferContext}
    (h : c.Before content (k + 1)) (hleft : k * csizeOf content < content.length) :
    k * csizeOf content + (c.fhandle.take c.csize.toNat).length = bytesUpTo content (k + 1) := by
  rw [bytesUpTo, length_read h, Nat.succ_mul]
  omega

theorem turn_chunk {content : Bytes} {k : Nat} {w : Upload} (h : w.context.Before content (k + 1))
    (hw : WritesAt content (k + 1)) (t : UInt64 × Bool) : ∃ e, Written content (k + 1) w t e := by
  have hstate : w.context.state = .ongoing := h.state
  have hleft : k * csizeOf content < content.length := (writesAt_succ.mp hw).2.1
  have hpos : 0 < csizeOf content := (determineChunkSize_bounds _).1
  have hcsize : w.context.csize.toNat = csizeOf content := by rw [h.csize]
  have hfhandle : w.context.fhandle = content.drop (k * csizeOf content) := h.fhandle
  have hdata := length_read h
  have hdpos : 0 < (w.context.fhandle.take w.context.csize.toNat).length := by omega
  have hsum := bytesUpTo_read h hleft
  have hsent : w.context.bytesSent +
      UInt32.ofNat (w.context.fhandle.take w.context.csize.toNat).length =
        UInt32.ofNat (bytesUpTo content (k + 1)) := by
    rw [h.bytesSent, ← UInt32.ofNat_add]
    exact congrArg UInt32.ofNat hsum
  have hnext := transferNextChunk_ongoing hstate hdpos t.1
  have hcall := turn_call h.isRunning h.good t
  rw [hsent] at hnext
  rw [hnext, List.map_singleton, chunkWrite_ongoing hstate, hnext] at hcall
  have hresult : ∀ msgType data, writeResult (w.context.chunkFrame t.1 msgType data) t.2 = t.2 :=
    fun _ _ => writeResult_eq w.context.csize.toNat_lt t.2
  refine ⟨_, congrArg Upload.writes hcall, hresult _ _, ?_, ?_, ?_, ?_⟩
  · rw [← hsum, Nat.add_sub_cancel, bytesUpTo, Nat.min_eq_left (by omega)]
  · rw [if_neg (Nat.succ_ne_zero k), h.fsize]
  · rw [hcall]
  · rw [hcall, writesAt_succ]
    by_cases hlast : w.context.fsize ≤ w.context.bytesSent + w.context.csize
    · -- END: the loop stops
      refine .inr ⟨.inl (if_pos hlast), fun hmore => ?_⟩
      have hlt := hmore.2.2 (Nat.succ_pos k)
      rw [last_iff h] at hlast
      omega
    · by_cases hmore : (k + 1) * csizeOf content < content.length
      · refine .inl ⟨⟨?_, ?_, h.csize, h.fsize, hstate, ?_, ?_⟩, hw, hmore, fun _ => ?_⟩
        · exact (if_neg hlast).trans h.isRunning
        · refine decide_eq_true ?_
          rw [hdata, hcsize]
          rw [Nat.succ_mul] at hmore
          omega
        · rw [hfhandle, List.drop_drop, hcsize, Nat.add_sub_cancel, Nat.succ_mul]
        · rw [bytesUpTo, Nat.min_eq_left (by omega), Nat.add_sub_cancel]
        · rw [last_iff h] at hlast
          omega
      · -- the file is at its end, and the last read was short or just full
        rw [Nat.succ_mul] at hmore
        refine .inr ⟨.inr (.inr ⟨by rw [hstate]; decide, ?_⟩), fun h' => hmore ?_⟩
        · rw [hfhandle, List.drop_drop, hcsize]
          exact List.drop_eq_nil_of_le (by omega)
        · rw [← Nat.succ_mul]
          exact h'.2.1

end Upload

/-! ### The log of a run -/

def attempted (ws : List ChunkWrite) : Nat := (ws.map (·.fileBytes)).sum

def acknowledged (ws : List ChunkWrite) : Nat :=
  ((ws.filter (·.succeeded)).map (·.fileBytes)).sum

theorem attempted_concat (ws : List ChunkWrite) (e : ChunkWrite) :
    attempted (ws ++ [e]) = attempted ws + e.fileBytes := by
  simp [attempted]

theorem acknowledged_concat (ws : List ChunkWrite) (e : ChunkWrite) :
    acknowledged (ws ++ [e]) = acknowledged ws + if e.succeeded then e.fileBytes else 0 := by
  by_cases h : e.succeeded = true
  · simp [acknowledged, h]
  · simp [acknowledged, h]

theorem acknowledged_le_attempted (ws : List ChunkWrite) : acknowledged ws ≤ attempted ws := by
  induction ws with
  | nil => exact le_refl 0
  | cons e ws ih =>
    rw [acknowledged, attempted] at ih ⊢
    by_cases h : e.succeeded = true
    · simpa [h] using ih
    · simp only [List.filter_cons, h, Bool.false_eq_true, if_false, List.map_cons, List.sum_cons]
      omega

theorem acknowledged_of_forall {ws : List ChunkWrite} (h : ∀ e ∈ ws, e.succeeded = true) :
    acknowledged ws = attempted ws := by
  rw [acknowledged, List.filter_eq_self.mpr h, attempted]

/-- The log after the turns `ts`: one write for each turn that makes one, with its outcome. -/
structure Logged (content : Bytes) (ts : List (UInt64 × Bool)) (w : Upload) : Prop where
  length : ∀ i : Nat, i < w.writes.length ↔ i < ts.length ∧ WritesAt content i
  outcome : ∀ (i : Nat) (e : ChunkWrite), w.writes[i]? = some e →
    ∃ now : UInt64, ts[i]? = some (now, e.succeeded)
  bytes : ∀ i < w.writes.length, attempted (w.writes.take (i + 1)) = bytesUpTo content i
  reported : ∀ (i : Nat) (e : ChunkWrite), w.writes[i]? = some e →
    e.reported = if i = 0 then none else
      some (UInt32.ofNat (bytesUpTo content i), UInt32.ofNat content.length)
  bytesSent : w.context.bytesSent = UInt32.ofNat (attempted w.writes)
  next : w.context.Before content ts.length ∧ WritesAt content ts.length ∨
    w.context.Over ∧ ¬ WritesAt content ts.length

theorem getElem?_concat_cases {α : Type*} {l : List α} {a b : α} {i : Nat}
    (h : (l ++ [a])[i]? = some b) : l[i]? = some b ∨ i = l.length ∧ b = a := by
  rcases Nat.lt_or_ge i l.length with hlt | hge
  · rw [List.getElem?_append_left hlt] at h
    exact .inl h
  · rw [List.getElem?_append_right hge] at h
    obtain ⟨hi, hb⟩ := List.getElem?_eq_some_iff.mp h
    rw [List.length_singleton] at hi
    refine .inr ⟨by omega, ?_⟩
    rw [← hb, List.getElem_singleton]

namespace Logged

variable {content : Bytes} {ts : List (UInt64 × Bool)} {w : Upload}

theorem length_of_writesAt (h : Logged content ts w) (hw : WritesAt content ts.length) :
    w.writes.length = ts.length := by
  apply Nat.le_antisymm
  · by_contra hlt
    exact absurd ((h.length ts.length).mp (by omega)).1 (by omega)
  · by_contra hlt
    exact absurd ((h.length w.writes.length).mpr ⟨by omega, hw.mono (by omega)⟩) (by omega)

theorem attempted_writes (h : Logged content ts w) :
    attempted w.writes = bytesUpTo content (w.writes.length - 1) := by
  by_cases hnil : w.writes = []
  · simp [hnil, attempted]
  · have hpos := List.length_pos_iff.mpr hnil
    have hbytes := h.bytes (w.writes.length - 1) (by omega)
    rwa [Nat.sub_add_cancel hpos, List.take_length] at hbytes

/-- The write a turn makes is the next one of the log. -/
theorem turn_of_written {t : UInt64 × Bool} {e : ChunkWrite} (h : Logged content ts w)
    (hw : WritesAt content ts.length) (he : Upload.Written content ts.length w t e) :
    Logged content (ts ++ [t]) (w.turn t) := by
  have hlen := h.length_of_writesAt hw
  have hbytes : attempted (w.writes ++ [e]) = bytesUpTo content ts.length := by
    rw [attempted_concat, ← he.fileBytes, h.attempted_writes, hlen]
  refine ⟨?_, ?_, ?_, ?_, ?_, ?_⟩
  · intro i
    rw [he.writes, List.length_append, List.length_append, hlen]
    simp only [List.length_singleton]
    exact ⟨fun hi => ⟨hi, hw.mono (by omega)⟩, fun hi => hi.1⟩
  · intro i e' hi
    rw [he.writes] at hi
    rcases getElem?_concat_cases hi with hi | ⟨rfl, rfl⟩
    · obtain ⟨now, hnow⟩ := h.outcome i e' hi
      refine ⟨now, ?_⟩
      rw [List.getElem?_append_left (List.getElem?_eq_some_iff.mp hnow).1]
      exact hnow
    · refine ⟨t.1, ?_⟩
      rw [hlen, List.getElem?_concat_length, he.succeeded]
  · intro i hi
    rw [he.writes] at hi ⊢
    rw [List.length_append, List.length_singleton] at hi
    rcases Nat.lt_succ_iff_lt_or_eq.mp hi with hlt | rfl
    · rw [List.take_append_of_le_length (by omega)]
      exact h.bytes i hlt
    · rw [List.take_of_length_le (by simp), hbytes, hlen]
  · intro i e' hi
    rw [he.writes] at hi
    rcases getElem?_concat_cases hi with hi | ⟨rfl, rfl⟩
    · exact h.reported i e' hi
    · rw [he.reported, hlen]
  · rw [he.bytesSent, he.writes, hbytes]
  · rw [List.length_append, List.length_singleton]
    exact he.next

theorem turn (h : Logged content ts w) (t : UInt64 × Bool) :
    Logged content (ts ++ [t]) (w.turn t) := by
  rcases h.next with ⟨hbefore, hw⟩ | ⟨hover, hw⟩
  · have hwritten : ∃ e, Upload.Written content ts.length w t e := by
      cases hn : ts.length with
      | zero =>
        rw [hn] at hbefore
        exact Upload.turn_begin hbefore t
      | succ k =>
        rw [hn] at hbefore hw
        exact Upload.turn_chunk hbefore hw t
    obtain ⟨e, he⟩ := hwritten
    exact h.turn_of_written hw he
  · obtain ⟨hwrites, hbytes, hover'⟩ := Upload.turn_of_over hover t
    have hnot : ∀ {i}, ts.length ≤ i → ¬ WritesAt content i := fun hle hi => hw (hi.mono hle)
    refine ⟨?_, ?_, ?_, ?_, ?_, ?_⟩
    · intro i
      rw [hwrites, h.length i, List.length_append, List.length_singleton]
      refine ⟨fun hi => ⟨by omega, hi.2⟩, fun hi => ⟨?_, hi.2⟩⟩
      by_contra hlt
      exact hnot (by omega) hi.2
    · intro i e hi
      rw [hwrites] at hi
      obtain ⟨now, hnow⟩ := h.outcome i e hi
      refine ⟨now, ?_⟩
      rw [List.getElem?_append_left (List.getElem?_eq_some_iff.mp hnow).1]
      exact hnow
    · rw [hwrites]
      exact h.bytes
    · rw [hwrites]
      exact h.reported
    · rw [hwrites, hbytes]
      exact h.bytesSent
    · refine .inr ⟨hover', hnot ?_⟩
      simp

theorem run (h : Logged content ts w) (more : List (UInt64 × Bool)) :
    Logged content (ts ++ more) (Runs.run Upload.turn w more) := by
  induction more generalizing ts w with
  | nil => rwa [List.append_nil]
  | cons t more ih =>
    have hmore := ih (h.turn t)
    rwa [List.append_assoc] at hmore

theorem attempted_take (h : Logged content ts w) {i : Nat} (hi : i ≤ w.writes.length) :
    attempted (w.writes.take i) = bytesUpTo content (i - 1) := by
  cases i with
  | zero => simp [attempted]
  | succ i => exact h.bytes i hi

/-- The turns that fail, found in the log. -/
theorem getElem?_of_failed (h : Logged content ts w) {i : Nat} {now : UInt64}
    (hi : ts[i]? = some (now, false)) (hw : WritesAt content i) :
    ∃ e, w.writes[i]? = some e ∧ e.succeeded = false := by
  have hlt := (h.length i).mpr ⟨(List.getElem?_eq_some_iff.mp hi).1, hw⟩
  have he := List.getElem?_eq_getElem hlt
  obtain ⟨now', hnow⟩ := h.outcome i _ he
  rw [hi] at hnow
  exact ⟨_, he, (Prod.mk.inj (Option.some.inj hnow)).2.symm⟩

/-- What the counter shows behind write `i`, if writes only fail where there is nothing to count. -/
theorem covered (h : Logged content ts w)
    (hall : ∀ (i : Nat) (e : ChunkWrite), w.writes[i]? = some e → e.succeeded = false →
      i + 1 = w.writes.length ∧ (i = 0 ∨ 2 ^ 32 ≤ bytesUpTo content i))
    {i : Nat} (hi : i < w.writes.length) :
    bytesUpTo content i % 2 ^ 32 ≤ acknowledged (w.writes.take (i + 1)) := by
  have htake : w.writes.take (i + 1) = w.writes.take i ++ [w.writes[i]] :=
    List.take_succ_eq_append_getElem hi
  have hearlier : acknowledged (w.writes.take i) = bytesUpTo content (i - 1) := by
    rw [← h.attempted_take hi.le]
    refine acknowledged_of_forall fun e he => ?_
    by_contra hfail
    obtain ⟨j, hj, rfl⟩ := List.mem_iff_getElem.mp he
    rw [List.length_take] at hj
    rw [List.getElem_take] at hfail
    have hlast := (hall j _ (List.getElem?_eq_getElem (by omega)) (by simpa using hfail)).1
    omega
  rw [htake, acknowledged_concat, hearlier]
  by_cases hok : w.writes[i].succeeded = true
  · have hbytes := h.bytes i hi
    rw [htake, attempted_concat, h.attempted_take hi.le] at hbytes
    rw [if_pos hok, hbytes]
    exact Nat.mod_le _ _
  · rw [if_neg hok]
    have hwrap := (hall i _ (List.getElem?_eq_getElem hi) (by simpa using hok)).2
    by_cases hzero : i = 0
    · simp [hzero]
    · have hw := ((h.length i).mp hi).2
      have hnext := hw.bytesUpTo_lt hzero
      omega

end Logged

section Runs

variable (content fname serviceName : Bytes) (key : UInt32)

theorem logged_uploadAfter (ts : List (UInt64 × Bool)) :
    Logged content ts (uploadAfter content fname serviceName key ts) := by
  have hstart : Logged content [] ⟨construct content fname serviceName key, []⟩ := by
    refine ⟨by simp, by simp, by simp, by simp, rfl, .inl ⟨?_, writesAt_zero content⟩⟩
    exact ⟨rfl, rfl, rfl, rfl, rfl, by simp [construct], by simp [construct]⟩
  exact hstart.run ts

/-! ### Failures -/

/-- A run of the worker respects the results of its writes: at every moment the counter, and at
every call `progress_F`, is covered by the frames whose write succeeded, and a write that fails is
the last one. -/
structure FailuresRespected (ts : List (UInt64 × Bool)) : Prop where
  counted : ∀ p, p <+: ts →
    (uploadAfter content fname serviceName key p).context.bytesSent.toNat ≤
      acknowledged (uploadAfter content fname serviceName key p).writes
  reported : ∀ (i : Nat) (e : ChunkWrite) (sent total : UInt32),
    (uploadAfter content fname serviceName key ts).writes[i]? = some e →
    e.reported = some (sent, total) →
    sent.toNat ≤ acknowledged ((uploadAfter content fname serviceName key ts).writes.take (i + 1))
  stops : ∀ (i : Nat) (e : ChunkWrite),
    (uploadAfter content fname serviceName key ts).writes[i]? = some e → e.succeeded = false →
    i + 1 = (uploadAfter content fname serviceName key ts).writes.length

/-- A failure at turn `i` of `n` that leaves nothing to stop and nothing to count: there is no later
write, and the write was BEGIN or the 32-bit counter has just wrapped. -/
def Harmless (n i : Nat) : Prop :=
  (n ≤ i + 1 ∨ ¬ WritesAt content (i + 1)) ∧ (i = 0 ∨ 2 ^ 32 ≤ bytesUpTo content i)

/-- For a file of a length that fits 32 bits only BEGIN can fail without harm. -/
theorem harmless_iff_of_lt {content : Bytes} (hlt : content.length < 2 ^ 32) (n i : Nat) :
    Harmless content n i ↔ i = 0 ∧ (n ≤ 1 ∨ content = []) := by
  have hbytes : bytesUpTo content i < 2 ^ 32 := (Nat.min_le_right _ _).trans_lt hlt
  constructor
  · rintro ⟨hlast, hzero | hwrap⟩
    · subst hzero
      refine ⟨rfl, hlast.imp_right fun hnot => ?_⟩
      rw [writesAt_succ_of_lt hlt, Nat.zero_mul, List.length_pos_iff, not_not] at hnot
      exact hnot
    · omega
  · rintro ⟨rfl, h⟩
    refine ⟨h.imp_right fun hnil => ?_, .inl rfl⟩
    rw [writesAt_succ_of_lt hlt, hnil]
    simp

theorem Harmless.last {content : Bytes} {n i : Nat} (h : Harmless content n i)
    {p : List (UInt64 × Bool)} {w : Upload} (hlog : Logged content p w) (hn : p.length ≤ n)
    (hi : i < w.writes.length) : i + 1 = w.writes.length := by
  by_contra hlt
  obtain ⟨hp, hw⟩ := (hlog.length (i + 1)).mp (by omega)
  rcases h.1 with hle | hnot
  · omega
  · exact hnot hw

variable {content fname serviceName key} {ts : List (UInt64 × Bool)}

/-- A failure that is respected leaves nothing to stop and nothing to count. -/
theorem FailuresRespected.harmless (h : FailuresRespected content fname serviceName key ts)
    {i : Nat} {now : UInt64} (hi : ts[i]? = some (now, false)) (hw : WritesAt content i) :
    Harmless content ts.length i := by
  have hlog := logged_uploadAfter content fname serviceName key ts
  obtain ⟨e, he, hfail⟩ := hlog.getElem?_of_failed hi hw
  have hlt := (List.getElem?_eq_some_iff.mp he).1
  have hlast := h.stops i e he hfail
  constructor
  · by_cases hn : ts.length ≤ i + 1
    · exact .inl hn
    · refine .inr fun hmore => ?_
      have hlonger := (hlog.length (i + 1)).mpr ⟨by omega, hmore⟩
      omega
  · by_cases hzero : i = 0
    · exact .inl hzero
    · have hreported := hlog.reported i e he
      rw [if_neg hzero] at hreported
      have hle := h.reported i e _ _ he hreported
      have hlow := acknowledged_le_attempted
        ((uploadAfter content fname serviceName key ts).writes.take i)
      rw [hlog.attempted_take hlt.le] at hlow
      rw [List.take_succ_eq_append_getElem hlt, acknowledged_concat,
        (List.getElem?_eq_some_iff.mp he).2, hfail, UInt32.toNat_ofNat'] at hle
      have hnext := hw.bytesUpTo_lt hzero
      simp only [Bool.false_eq_true, if_false] at hle
      omega

/-- If every failure is harmless, a write that fails is the last one all along the run. -/
theorem last_of_harmless (h : ∀ (i : Nat) (now : UInt64), ts[i]? = some (now, false) →
      WritesAt content i → Harmless content ts.length i) {p : List (UInt64 × Bool)} (hp : p <+: ts)
    {i : Nat} {e : ChunkWrite}
    (he : (uploadAfter content fname serviceName key p).writes[i]? = some e)
    (hfail : e.succeeded = false) :
    i + 1 = (uploadAfter content fname serviceName key p).writes.length ∧
      (i = 0 ∨ 2 ^ 32 ≤ bytesUpTo content i) := by
  obtain ⟨rest, rfl⟩ := hp
  have hlog := logged_uploadAfter content fname serviceName key p
  have hlt := (List.getElem?_eq_some_iff.mp he).1
  obtain ⟨hi, hw⟩ := (hlog.length i).mp hlt
  obtain ⟨now, hnow⟩ := hlog.outcome i e he
  rw [hfail] at hnow
  have hharmless := h i now (by rw [List.getElem?_append_left hi]; exact hnow) hw
  exact ⟨hharmless.last hlog (by simp) hlt, hharmless.2⟩

/-- The counter is covered as soon as the last write is. -/
theorem bytesSent_covered
    (h : ∀ (i : Nat) (e : ChunkWrite),
      (uploadAfter content fname serviceName key ts).writes[i]? = some e → e.succeeded = false →
      i + 1 = (uploadAfter content fname serviceName key ts).writes.length ∧
        (i = 0 ∨ 2 ^ 32 ≤ bytesUpTo content i)) :
    (uploadAfter content fname serviceName key ts).context.bytesSent.toNat ≤
      acknowledged (uploadAfter content fname serviceName key ts).writes := by
  have hlog := logged_uploadAfter content fname serviceName key ts
  rw [hlog.bytesSent, UInt32.toNat_ofNat', hlog.attempted_writes]
  by_cases hnil : (uploadAfter content fname serviceName key ts).writes = []
  · simp [hnil]
  · have hpos := List.length_pos_iff.mpr hnil
    have hcovered := hlog.covered h (Nat.sub_lt hpos Nat.one_pos)
    rwa [Nat.sub_add_cancel hpos, List.take_length] at hcovered

variable (content fname serviceName key)

/-- **Failed writes.**  The counts stay within the frames whose write succeeded, and nothing is
written after a failure, exactly if every turn that makes a write and fails is the last one to make
one and there was nothing of the file in its frame to count. -/
theorem failures_respected_iff (ts : List (UInt64 × Bool)) :
    FailuresRespected content fname serviceName key ts ↔
      ∀ (i : Nat) (now : UInt64), ts[i]? = some (now, false) → WritesAt content i →
        Harmless content ts.length i := by
  constructor
  · exact fun h i now hi hw => h.harmless hi hw
  · intro h
    refine ⟨?_, ?_, ?_⟩
    · intro p hp
      exact bytesSent_covered fun i e he hfail => last_of_harmless h hp he hfail
    · intro i e sent total he hreported
      have hlog := logged_uploadAfter content fname serviceName key ts
      have hlt := (List.getElem?_eq_some_iff.mp he).1
      have hsent := (hlog.reported i e he).symm.trans hreported
      split at hsent
      · cases hsent
      · rw [← (Prod.mk.inj (Option.some.inj hsent)).1, UInt32.toNat_ofNat']
        exact hlog.covered
          (fun j e' he' hfail => last_of_harmless h (List.prefix_refl ts) he' hfail) hlt
    · exact fun i e he hfail => (last_of_harmless h (List.prefix_refl ts) he hfail).1

end Runs

/-- A file of one byte: a failed END frame is reported as sent, and behind a failed BEGIN frame the
byte is sent all the same. -/
theorem failed_end_is_reported :
    (uploadAfter [7] [120] [97] 0 [(0, true), (0, false)]).context.bytesSent = 1 ∧
    (uploadAfter [7] [120] [97] 0 [(0, true), (0, false)]).writes.map (·.reported) =
      [none, some (1, 1)] ∧
    acknowledged (uploadAfter [7] [120] [97] 0 [(0, true), (0, false)]).writes = 0 ∧
    (uploadAfter [7] [120] [97] 0 [(0, false), (0, true)]).writes.map (·.succeeded) =
      [false, true] ∧
    ¬ ∀ (content fname serviceName : Bytes) (key : UInt32) (ts : List (UInt64 × Bool)),
      FailuresRespected content fname serviceName key ts := by
  refine ⟨by decide, by decide, by decide, by decide, fun hall => ?_⟩
  have h := (hall [7] [120] [97] 0 [(0, true), (0, false)]).counted _ (List.prefix_refl _)
  exact absurd h (by decide)

end LocalChat
