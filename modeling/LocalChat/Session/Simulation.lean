import LocalChat.Session.Timing

/-!
# Timings that do not matter

Between two callbacks the bytes of a frame come in bit by bit, and inside a callback that clears the
read buffer some bytes of the next frame may be lost.  `Amid s₀ s`: `s` is `s₀` with some bytes of
its outstanding read taken in.  As long as the bytes that a callback clears are zero, a session is
always amid one whose reads were undisturbed.

* `Amid.arrive`: more bytes come in and `s` stays amid `s₀`.
* `Amid.unprepared`, `Amid.established`: the callback of a full read leaves `s` amid what `readOnce`
  makes of `s₀`.
-/

namespace LocalChat

open Octets

namespace Session

/-- The session waits for a chunk frame and has `got` of its bytes. -/
structure MidChunk (s : Session) (got : Nat) : Prop where
  reads : s.reads = [⟨.chunk, 0, s.csize.toNat + fileHeaderSizeBytes, got⟩]
  got_le : got ≤ s.csize.toNat + fileHeaderSizeBytes
  totalBytesRead : s.totalBytesRead = 0
  fileReadBuf : s.fileReadBuf.length = s.csize.toNat + fileHeaderSizeBytes
  fits : s.csize.toNat + fileHeaderSizeBytes < 2 ^ 32

/-- `s` is `s₀` with some bytes of its outstanding read taken in. -/
inductive Amid (s₀ s : Session) : Prop
  | frame (got : Nat) (buf : Bytes) : buf.length = messageFrameSizeBytes → s.AtFrame got →
      s₀ = { s with
        reads := [⟨.frame, 0, messageFrameSizeBytes, 0⟩]
        readBuf := buf
        socket := s.readBuf.take got ++ s.socket } → Amid s₀ s
  | chunk (got : Nat) (buf : Bytes) : buf.length = s.csize.toNat + fileHeaderSizeBytes →
      s.MidChunk got → s₀ = { s with
        reads := [⟨.chunk, 0, s.csize.toNat + fileHeaderSizeBytes, 0⟩]
        fileReadBuf := buf
        socket := s.fileReadBuf.take got ++ s.socket } → Amid s₀ s
  | still : s.reads = [] → s₀ = s → Amid s₀ s

/-- The session is between two reads, or reads no more. -/
def BetweenReads (s : Session) : Prop := s.FrameMode ∨ s.ChunkMode ∨ s.reads = []

/-- The oldest outstanding read has all its bytes. -/
def Full (s : Session) : Prop := s.reads.head?.any (fun op => op.got = op.size) = true

instance (s : Session) : Decidable s.Full :=
  inferInstanceAs (Decidable (s.reads.head?.any (fun op => op.got = op.size) = true))

/-- Nothing can happen: no outstanding read is full, and no byte has come in for one. -/
def AtRest (s : Session) : Prop := ∀ op ∈ s.reads, s.socket = [] ∧ op.got < op.size

instance (s : Session) : Decidable s.AtRest :=
  inferInstanceAs (Decidable (∀ op ∈ s.reads, s.socket = [] ∧ op.got < op.size))

/-- What the callbacks that run in a timing read from outside, in order. -/
def callbacks : Session → List Tick → List Env
  | _, [] => []
  | s, .arrive n :: ts => callbacks (s.arrive n) ts
  | s, .complete env w :: ts =>
    if s.Full then env :: callbacks (s.completeRead env w) ts
    else callbacks (s.completeRead env w) ts

variable {s₀ s : Session}

theorem Amid.refl (h : s.BetweenReads) : Amid s s := by
  rcases h with hframe | hchunk | hnone
  · refine .frame 0 s.readBuf hframe.readBuf (.of_frameMode hframe) ?_
    rw [← hframe.reads, List.take_zero, List.nil_append]
  · refine .chunk 0 s.fileReadBuf hchunk.fileReadBuf
      ⟨hchunk.reads, Nat.zero_le _, hchunk.totalBytesRead, hchunk.fileReadBuf, hchunk.fits⟩ ?_
    rw [← hchunk.reads, List.take_zero, List.nil_append]
  · exact .still hnone rfl

theorem Amid.serviceName (h : Amid s₀ s) : s₀.serviceName = s.serviceName := by
  cases h with
  | frame got buf _ _ heq => rw [heq]
  | chunk got buf _ _ heq => rw [heq]
  | still _ heq => rw [heq]

theorem Amid.log (h : Amid s₀ s) : s₀.log = s.log := by
  cases h with
  | frame got buf _ _ heq => rw [heq]
  | chunk got buf _ _ heq => rw [heq]
  | still _ heq => rw [heq]

theorem Amid.state (h : Amid s₀ s) : s₀.state = s.state := by
  cases h with
  | frame got buf _ _ heq => rw [heq]
  | chunk got buf _ _ heq => rw [heq]
  | still _ heq => rw [heq]

theorem Amid.atFrame (h : Amid s₀ s) (hmode : s₀.FrameMode) :
    ∃ got, s.AtFrame got ∧ s₀.socket = s.readBuf.take got ++ s.socket := by
  have hreads := hmode.reads
  cases h with
  | frame got buf _ hat heq =>
    rw [heq]
    exact ⟨got, hat, rfl⟩
  | chunk got buf _ _ heq =>
    rw [heq] at hreads
    cases hreads
  | still hnone heq =>
    rw [heq, hnone] at hreads
    cases hreads

theorem Amid.midChunk (h : Amid s₀ s) (hmode : s₀.ChunkMode) :
    ∃ got, s.MidChunk got ∧ s₀.csize = s.csize ∧
      s₀.socket = s.fileReadBuf.take got ++ s.socket := by
  have hreads := hmode.reads
  cases h with
  | frame got buf _ _ heq =>
    rw [heq] at hreads
    cases hreads
  | chunk got buf _ hat heq =>
    rw [heq]
    exact ⟨got, hat, rfl, rfl⟩
  | still hnone heq =>
    rw [heq, hnone] at hreads
    cases hreads

theorem Amid.reads_nil (h : Amid s₀ s) (hnone : s₀.reads = []) : s = s₀ := by
  cases h with
  | frame got buf _ _ heq =>
    rw [heq] at hnone
    cases hnone
  | chunk got buf _ _ heq =>
    rw [heq] at hnone
    cases hnone
  | still _ heq => exact heq.symm

/-! ### Bytes that arrive between callbacks -/

theorem MidChunk.arrive_eq {got : Nat} (h : s.MidChunk got) (n : Nat) :
    ∃ d, d = s.socket.take (min n (s.csize.toNat + fileHeaderSizeBytes - got)) ∧
      s.arrive n = { s with
        socket := s.socket.drop d.length
        reads := [⟨.chunk, 0, s.csize.toNat + fileHeaderSizeBytes, got + d.length⟩]
        fileReadBuf := overwrite got d s.fileReadBuf } := by
  refine ⟨_, rfl, ?_⟩
  simp only [Session.arrive, h.reads, Nat.zero_add]

/-- **Bytes arrive.** -/
theorem Amid.arrive (h : Amid s₀ s) (n : Nat) : Amid s₀ (s.arrive n) := by
  cases h with
  | frame got buf hbuf hat heq =>
    have hgot : got ≤ s.readBuf.length := by
      rw [hat.readBuf]
      exact hat.got_le
    refine .frame _ buf hbuf (hat.arrive n) ?_
    rw [heq, hat.arrive_eq]
    simp only [take_overwrite hgot, List.append_assoc, s.incoming_append_drop]
  | chunk got buf hbuf hat heq =>
    obtain ⟨d, hd, harrive⟩ := hat.arrive_eq n
    have hlen : d.length ≤ s.csize.toNat + fileHeaderSizeBytes - got := by
      rw [hd, List.length_take]
      omega
    have hgot : got ≤ s.fileReadBuf.length := by
      rw [hat.fileReadBuf]
      exact hat.got_le
    have hle := hat.got_le
    have hsplit : d ++ s.socket.drop d.length = s.socket := by
      rw [hd]
      exact take_append_drop_length _ _
    rw [harrive]
    refine .chunk (got + d.length) buf hbuf ⟨rfl, ?_, hat.totalBytesRead, ?_, hat.fits⟩ ?_
    · show got + d.length ≤ s.csize.toNat + fileHeaderSizeBytes
      omega
    · show (overwrite got d s.fileReadBuf).length = _
      rw [length_overwrite (by rw [hat.fileReadBuf]; omega), hat.fileReadBuf]
    · rw [heq]
      simp only [take_overwrite hgot, List.append_assoc, hsplit]
  | still hnone heq =>
    rw [arrive_of_no_reads hnone]
    exact .still hnone heq

theorem completeRead_of_not_full (h : ¬ s.Full) (env : Env) (w : Window) :
    s.completeRead env w = s := by
  cases hr : s.reads with
  | nil => simp only [completeRead, hr]
  | cons op ops =>
    have hne : ¬ op.got = op.size := by
      intro heq
      rw [Full, hr] at h
      exact h (decide_eq_true heq)
    simp only [completeRead, hr, if_neg hne]

/-! ### The callback of a full read -/

theorem AtFrame.full {got : Nat} (h : s.AtFrame got) (hfull : s.Full) :
    got = messageFrameSizeBytes := by
  rw [Full, h.reads] at hfull
  exact of_decide_eq_true hfull

theorem MidChunk.atChunk {got : Nat} (h : s.MidChunk got) : s.AtChunk got := by
  have hsize := ofNat_toNat_add_fileHeaderSize h.fits
  refine ⟨?_, ?_, ?_, h.totalBytesRead⟩
  · rw [h.reads, chunkReadSize, hsize]
  · rw [chunkReadSize, hsize]
    exact h.got_le
  · rw [chunkReadSize, hsize]
    exact Nat.succ_ne_zero _

theorem MidChunk.full {got : Nat} (h : s.MidChunk got) (hfull : s.Full) :
    got = s.csize.toNat + fileHeaderSizeBytes := by
  rw [Full, h.reads] at hfull
  exact of_decide_eq_true hfull

theorem Amid.frameMode_of_full (h : Amid s₀ s) (hmode : s₀.FrameMode ∨ s₀.reads = [])
    (hfull : s.Full) : s₀.FrameMode := by
  obtain hframe | hnone := hmode
  · exact hframe
  · rw [h.reads_nil hnone, Full, hnone] at hfull
    cases hfull

/-- A full frame read has the next frame of `s₀`. -/
theorem Amid.frame_of_full (h : Amid s₀ s) (hmode : s₀.FrameMode) (hfull : s.Full) :
    s.AtFrame messageFrameSizeBytes ∧ s₀.socket = s.readBuf ++ s.socket := by
  obtain ⟨got, hat, hsocket⟩ := h.atFrame hmode
  obtain rfl := hat.full hfull
  rw [List.take_of_length_le hat.readBuf.le] at hsocket
  exact ⟨hat, hsocket⟩

/-- With a whole frame to come, a frame read fills up. -/
theorem Amid.full_of_length (h : Amid s₀ s) (hmode : s₀.FrameMode)
    (hlen : messageFrameSizeBytes ≤ s₀.socket.length) : (s.arrive messageFrameSizeBytes).Full := by
  obtain ⟨got, hat, hsocket⟩ := h.atFrame hmode
  have hle := hat.got_le
  rw [hsocket, List.length_append, List.length_take, hat.readBuf, Nat.min_eq_left hle] at hlen
  rw [Full, hat.arrive_eq]
  refine decide_eq_true ?_
  simp only [incoming, List.length_take]
  omega

theorem Amid.socket_ne_nil_of_full (h : Amid s₀ s) (hfull : s.Full) : s₀.socket ≠ [] := by
  cases h with
  | frame got buf hbuf hat heq =>
    obtain rfl := hat.full hfull
    rw [heq, List.take_of_length_le hat.readBuf.le]
    refine List.append_ne_nil_of_left_ne_nil (List.ne_nil_of_length_pos ?_) _
    rw [hat.readBuf]
    exact Nat.succ_pos _
  | chunk got buf hbuf hat heq =>
    obtain rfl := hat.full hfull
    rw [heq, List.take_of_length_le hat.fileReadBuf.le]
    refine List.append_ne_nil_of_left_ne_nil (List.ne_nil_of_length_pos ?_) _
    rw [hat.fileReadBuf]
    exact Nat.succ_pos _
  | still hnone heq =>
    rw [Full, hnone] at hfull
    cases hfull

/-- At rest less than a frame is left. -/
theorem Amid.length_lt_frame (h : Amid s₀ s) (hmode : s₀.FrameMode) (hrest : s.AtRest) :
    s₀.socket.length < messageFrameSizeBytes := by
  obtain ⟨got, hat, hsocket⟩ := h.atFrame hmode
  obtain ⟨hnil, hgot⟩ := hrest ⟨.frame, 0, messageFrameSizeBytes, got⟩ (by
    rw [hat.reads]
    exact List.mem_singleton_self _)
  rw [hsocket, hnil, List.append_nil]
  exact (List.length_take_le _ _).trans_lt hgot

theorem Amid.length_lt_chunk (h : Amid s₀ s) (hmode : s₀.ChunkMode) (hrest : s.AtRest) :
    s₀.socket.length < s₀.csize.toNat + fileHeaderSizeBytes := by
  obtain ⟨got, hmid, hcsize, hsocket⟩ := h.midChunk hmode
  obtain ⟨hnil, hgot⟩ := hrest ⟨.chunk, 0, s.csize.toNat + fileHeaderSizeBytes, got⟩ (by
    rw [hmid.reads]
    exact List.mem_singleton_self _)
  rw [hsocket, hnil, List.append_nil, hcsize]
  exact (List.length_take_le _ _).trans_lt hgot

/-- `readOnce` of `s₀` is the quiet callback of `s`. -/
theorem Amid.readOnce_eq (h : Amid s₀ s) (hfull : s.Full) (env : Env) :
    s₀.readOnce env = s.completeRead env .quiet := by
  cases h with
  | frame got buf hbuf hat heq =>
    obtain rfl := hat.full hfull
    have hmode : s₀.FrameMode := by
      rw [heq]
      exact ⟨rfl, hat.totalBytesRead, hbuf⟩
    have hsocket : s₀.socket = s.readBuf ++ s.socket := by
      rw [heq, List.take_of_length_le hat.readBuf.le]
    rw [readOnce_of_frameMode env hmode hsocket hat.readBuf, heq]
    simp only [completeRead, hat.reads, if_true]
  | chunk got buf hbuf hat heq =>
    obtain rfl := hat.full hfull
    have hmode : s₀.ChunkMode := by
      rw [heq]
      exact ⟨rfl, hat.totalBytesRead, hbuf, hat.fits⟩
    have hcsize : s₀.csize = s.csize := by
      rw [heq]
    have hsocket : s₀.socket = s.fileReadBuf ++ s.socket := by
      rw [heq, List.take_of_length_le hat.fileReadBuf.le]
    rw [readOnce_of_chunkMode env hmode hsocket (by rw [hcsize]; exact hat.fileReadBuf), heq]
    simp only [completeRead, hat.reads, if_true]
  | still hnone heq =>
    rw [Full, hnone] at hfull
    cases hfull

/-- A frame read armed inside a callback, into which only zeros come before the buffer is
cleared. -/
theorem AtFrame.amid_finish {x : Session} (h : x.AtFrame 0) (hst : x.state ≠ .closed) (n : Nat)
    (hzero : ∀ b ∈ x.socket.take (min n messageFrameSizeBytes), b = 0) :
    Amid x.finishFrame ((x.arrive n).finishFrame) := by
  have hopen : (x.arrive n).state ≠ .closed := by
    rw [h.arrive_state]
    exact hst
  have harr := (h.arrive n).clearReadBuffer
  rw [finishFrame, if_pos hst, finishFrame, if_pos hopen]
  refine .frame _ (List.replicate messageFrameSizeBytes 0) List.length_replicate harr ?_
  rw [h.arrive_eq]
  simp only [Session.clearReadBuffer, Nat.zero_add]
  rw [take_cleared n hzero, ← h.reads]

/-! ### UNPREPARED -/

theorem dispatchHandshake_armed (env : Env) (hr : s.reads = []) (ht : s.totalBytesRead = 0)
    (hb : s.readBuf.length = messageFrameSizeBytes) (hst : s.state = .unprepared) :
    (s.dispatchHandshake env).socket = s.socket ∧ ((s.dispatchHandshake env).reads = [] ∨
      (s.dispatchHandshake env).AtFrame 0 ∧ (s.dispatchHandshake env).state ≠ .closed) := by
  have hopen : s.state ≠ .closed := by
    rw [hst]
    decide
  simp only [dispatchHandshake]
  split
  · rw [onReceiveHelloFrame]
    split
    · exact ⟨rfl, .inl hr⟩
    · exact ⟨rfl, .inr ⟨atFrame_startReadingFrames hr ht hb, hopen⟩⟩
  · split
    · simp only [onReceiveHelloBackFrame]
      split
      · exact ⟨rfl, .inl hr⟩
      · split
        · exact ⟨rfl, .inl hr⟩
        · split
          · exact ⟨rfl, .inl hr⟩
          · rw [handleSessionIdentification]
            split
            · exact ⟨rfl, .inl rfl⟩
            · refine ⟨rfl, .inr ⟨atFrame_startReadingFrames hr ht hb, ?_⟩⟩
              exact BVSessionState.noConfusion
    · split
      · refine ⟨rfl, .inr ⟨atFrame_startReadingFrames hr ht hb, ?_⟩⟩
        exact BVSessionState.noConfusion
      · exact ⟨rfl, .inl hr⟩

/-- Every byte that arrives while a callback runs is zero. -/
def Calm (s : Session) (w : Window) : Prop :=
  s.Full → ∀ b ∈ s.socket.take (min (w.beforeSwitch + w.afterSwitch) messageFrameSizeBytes), b = 0

theorem calm_quiet (s : Session) : s.Calm .quiet := by
  intro _ b hb
  simp at hb

/-- **A handshake callback** into which only zeros arrive. -/
theorem Amid.unprepared (h : Amid s₀ s) (hmode : s₀.FrameMode) (hst : s.state = .unprepared)
    (hfull : s.Full) {w : Window} (hcalm : s.Calm w) (env : Env) :
    Amid (s₀.readOnce env) (s.completeRead env w) := by
  obtain ⟨hat, -⟩ := h.frame_of_full hmode hfull
  obtain ⟨hsocket, hdispatch⟩ :=
    dispatchHandshake_armed (s := s.called) env rfl hat.totalBytesRead hat.readBuf hst
  rw [h.readOnce_eq hfull, hat.completeRead_unprepared hst, hat.completeRead_unprepared hst,
    arrive_zero]
  obtain hnone | ⟨harmed, hopen⟩ := hdispatch
  · rw [arrive_of_no_reads hnone]
    refine .refl (.inr (.inr ?_))
    rw [finishFrame]
    split
    · exact hnone
    · exact hnone
  · refine harmed.amid_finish hopen _ ?_
    intro b hb
    rw [hsocket] at hb
    exact hcalm hfull b (List.take_subset_take_left _ (by omega) hb)

/-! ### ESTABLISHED -/

theorem wipesNothing_quiet (s : Session) (env : Env) : s.WipesNothing (.complete env .quiet) := by
  intro _ _ b hb
  simp at hb

/-- A chat frame whose text is not taken for a file frame, when only zeros arrive in its
callback. -/
theorem amid_chat (hat : s.AtFrame messageFrameSizeBytes) (hst : s.state = .established)
    (hm : (getMsgHeader s.readBuf).msgType = BVTCPMessageType.chatMessage)
    (hplain : isFileFrameType (at_ s.readBuf 12) = false) (env : Env) {w : Window}
    (hzero : ∀ b ∈ s.incoming (w.beforeSwitch + w.afterSwitch) 0, b = 0) :
    Amid (s.completeRead env .quiet) (s.completeRead env w) := by
  have hno : isFileFrameType (at_ (s.overlaid w.beforeSwitch) 12) = false := by
    have hz : ∀ b ∈ s.socket.take (min w.beforeSwitch messageFrameSizeBytes), b = 0 :=
      fun b hb => hzero b (List.take_subset_take_left _ (by omega) hb)
    rcases at_overwrite_zeros (l := s.readBuf) hz 12 with h0 | h0
    · rw [overlaid, h0]; rfl
    · rw [overlaid, h0]
      exact hplain
  have hquiet : isFileFrameType (at_ (s.overlaid 0) 12) = false := by
    rw [overlaid, Nat.zero_min, List.take_zero, overwrite_nil]
    exact hplain
  rw [completeRead_chat hat hst hm env .quiet hquiet, completeRead_chat hat hst hm env w hno]
  refine .frame _ (List.replicate messageFrameSizeBytes 0) List.length_replicate
    ⟨rfl, s.length_incoming_le _ 0, rfl, List.length_replicate⟩ ?_
  simp only [take_cleared _ hzero]
  simp [incoming]

/-- **The callback of an ESTABLISHED session**, of a chunk, or of a frame that is not taken for one
of another kind and wipes nothing. -/
theorem Amid.established (h : Amid s₀ s) (hst : s.state = .established) (hfull : s.Full)
    {env : Env} {w : Window} (hwipes : s.WipesNothing (.complete env w))
    (hplain : s₀.FrameMode →
      (getMsgHeader s.readBuf).msgType = BVTCPMessageType.chatMessage →
        isFileFrameType (at_ s.readBuf 12) = false)
    (hend : (s₀.readOnce env).BetweenReads) :
    Amid (s₀.readOnce env) (s.completeRead env w) := by
  have honce := h.readOnce_eq hfull env
  rw [honce] at hend ⊢
  cases h with
  | frame got buf hbuf hat heq =>
    obtain rfl := hat.full hfull
    by_cases hm : (getMsgHeader s.readBuf).msgType = BVTCPMessageType.chatMessage
    · have hmode : s₀.FrameMode := by
        rw [heq]
        exact ⟨rfl, hat.totalBytesRead, hbuf⟩
      exact amid_chat hat hst hm (hplain hmode hm) env (hwipes hat.reads hm)
    · have hsame : s.completeRead env w = s.completeRead env .quiet :=
        (hat.completeRead_of_not_chat hst hm env w).trans
          (hat.completeRead_of_not_chat hst hm env .quiet).symm
      rw [hsame]
      exact .refl hend
  | chunk got buf hbuf hat heq =>
    obtain rfl := hat.full hfull
    have hsame : s.completeRead env w = s.completeRead env .quiet := by
      simp only [completeRead, hat.reads, if_true]
    rw [hsame]
    exact .refl hend
  | still hnone heq =>
    rw [Full, hnone] at hfull
    cases hfull

end Session

end LocalChat
