import LocalChat.Session.Machine
import LocalChat.Session.Send
import Mathlib.Data.List.Induction

/-!
# The size of chunk reads

`OnReceiveFileTransferBegin` and `ReadFileChunkCallback` allocate and clear
`csize + FILE_HEADER_SIZE_BYTES` bytes, a sum of type `size_t`, and pass the same sum to
`StartReadingChunks`, whose parameter is a `uint32_t`.

`ReadsWhole` says where a session stands that reads its chunk frames whole: which frames it
has taken, which bytes of the next one it has, and that the app was handed the bytes behind
the header of each.  `chunk_reads_exact_iff`: every session that is sent a BEGIN frame with
chunk size `csize` reads its chunks so, under every timing, exactly when
`csize + 21 < 2 ^ 32`.
-/

namespace LocalChat

open Octets

namespace Session

/-! ### Frames read whole -/

def chunkFrameSize (csize : UInt32) : Nat := csize.toNat + fileHeaderSizeBytes

/-- What the app is told about the chunk frame `b`: all its bytes behind the header. -/
def chunkEvents (csize fsize : UInt32) (b : Bytes) : List AppEvent :=
  let d : BVTCPFileData :=
    ⟨(getFileHeader b).correlationKey, csize, fsize, b.drop fileHeaderSizeBytes⟩
  if at_ b 12 = BVTCPMessageType.fileTransferChunkSent then [.fileTransferChunkSent d]
  else if at_ b 12 = BVTCPMessageType.fileTransferEnd then [.fileTransferEnd d]
  else []

/-- Since `s₀` the session has taken the chunk frames `blocks`, and of the next one it has the bytes
`part`.  The read asks for a whole frame, its buffer has exactly that size, and the app has the
bytes behind the headers. -/
structure ReadsWhole (csize : UInt32) (s₀ s : Session) (blocks : List Bytes) (part : Bytes) :
    Prop where
  taken : s₀.socket = blocks.flatten ++ part ++ s.socket
  lengths : ∀ b ∈ blocks, b.length = chunkFrameSize csize
  reads : s.reads = [⟨.chunk, 0, chunkFrameSize csize, part.length⟩]
  part_le : part.length ≤ chunkFrameSize csize
  buffer : s.fileReadBuf.length = chunkFrameSize csize
  filled : s.fileReadBuf.take part.length = part
  mailbox : mailboxOf s.log = mailboxOf s₀.log ++ blocks.flatMap (chunkEvents csize s₀.fsize)
  csize_eq : s.csize = csize
  fsize_eq : s.fsize = s₀.fsize
  totalBytesRead : s.totalBytesRead = 0

/-- The session reads chunk frames whole up to END: it still does, or some earlier tick has handed
over the END frame `last`. -/
def ReadsChunksWhole (csize : UInt32) (s₀ : Session) (ticks : List Tick) : Prop :=
  (∃ blocks part, ReadsWhole csize s₀ (Runs.run step s₀ ticks) blocks part) ∨
    ∃ p t blocks last, p ++ [t] <+: ticks ∧ ReadsWhole csize s₀ (Runs.run step s₀ p) blocks last ∧
      last.length = chunkFrameSize csize ∧ at_ last 12 = BVTCPMessageType.fileTransferEnd ∧
      mailboxOf (Runs.run step s₀ (p ++ [t])).log =
        mailboxOf s₀.log ++ (blocks ++ [last]).flatMap (chunkEvents csize s₀.fsize)

/-- Every BEGIN frame with chunk size `csize` starts a read of exactly a chunk frame into a buffer
of exactly this size, and all later chunk reads are so, whatever arrives and when. -/
structure ChunkReadsExact (csize : UInt32) : Prop where
  started : ∀ (env : Env) (s : Session), at_ s.readBuf 12 = BVTCPMessageType.fileTransferBegin →
    announcedCsize s.readBuf = csize →
    (s.onReceiveFileTransferBegin env).reads =
        s.reads ++ [⟨.chunk, 0, chunkFrameSize csize, 0⟩] ∧
      (s.onReceiveFileTransferBegin env).fileReadBuf.length = chunkFrameSize csize
  /-- the read of the BEGIN frame was the only one -/
  whole : ∀ (env : Env) (s : Session), at_ s.readBuf 12 = BVTCPMessageType.fileTransferBegin →
    announcedCsize s.readBuf = csize → s.reads = [] →
    ∀ ticks, ReadsChunksWhole csize (s.onReceiveFileTransferBegin env) ticks

variable {csize : UInt32} {s₀ s : Session} {blocks : List Bytes} {part : Bytes}

/-! ### Ticks -/

theorem ReadsWhole.arrive (h : ReadsWhole csize s₀ s blocks part) (n : Nat) :
    ReadsWhole csize s₀ (s.arrive n) blocks
      (part ++ s.socket.take (min n (chunkFrameSize csize - part.length))) := by
  have hpart := h.part_le
  have hbuf := h.buffer
  generalize hd : s.socket.take (min n (chunkFrameSize csize - part.length)) = d
  have hlen : d.length ≤ chunkFrameSize csize - part.length := by
    rw [← hd, List.length_take]
    omega
  have heq : s.arrive n = { s with
      socket := s.socket.drop d.length
      reads := [⟨.chunk, 0, chunkFrameSize csize, part.length + d.length⟩]
      fileReadBuf := overwrite part.length d s.fileReadBuf } := by
    simp only [Session.arrive, h.reads, Nat.zero_add, hd]
  have hsplit : d ++ s.socket.drop d.length = s.socket := by
    rw [← hd]
    exact take_append_drop_length _ _
  rw [heq]
  refine ⟨?_, h.lengths, ?_, ?_, ?_, ?_, h.mailbox, h.csize_eq, h.fsize_eq, h.totalBytesRead⟩
  · rw [h.taken]
    simp only [List.append_assoc, hsplit]
  · simp only [List.length_append]
  · rw [List.length_append]
    omega
  · rw [length_overwrite (by omega), hbuf]
  · rw [List.length_append, take_overwrite (by omega), h.filled]

/-- A full buffer holds the frame that was read. -/
theorem ReadsWhole.fileReadBuf_eq (h : ReadsWhole csize s₀ s blocks part)
    (hfull : part.length = chunkFrameSize csize) : s.fileReadBuf = part := by
  have hfilled := h.filled
  rwa [hfull, ← h.buffer, List.take_length] at hfilled

theorem ReadsWhole.completeRead_of_lt (h : ReadsWhole csize s₀ s blocks part)
    (hlt : part.length ≠ chunkFrameSize csize) (env : Env) (w : Window) :
    s.completeRead env w = s := by
  simp only [completeRead, h.reads, if_neg hlt]

theorem readsWhole_readNextChunk (hfits : chunkFrameSize csize < 2 ^ 32) (hr : s.reads = [])
    (hc : s.csize = csize) (hf : s.fsize = s₀.fsize)
    (htaken : s₀.socket = blocks.flatten ++ s.socket)
    (hlengths : ∀ b ∈ blocks, b.length = chunkFrameSize csize)
    (hmail : mailboxOf s.log = mailboxOf s₀.log ++ blocks.flatMap (chunkEvents csize s₀.fsize)) :
    ReadsWhole csize s₀ s.readNextChunk blocks [] := by
  subst hc
  have hmode := readNextChunk_chunkMode hr hfits
  have hhandled := readNextChunk_handled s
  obtain ⟨hcs, hfs⟩ := readNextChunk_sizes s
  have hreads := hmode.reads
  have hbuffer := hmode.fileReadBuf
  rw [hcs] at hreads hbuffer
  refine ⟨?_, hlengths, hreads, Nat.zero_le _, hbuffer, rfl, ?_, hcs, hfs.trans hf,
    hmode.totalBytesRead⟩
  · rw [hhandled.socket, List.append_nil]
    exact htaken
  · rw [hhandled.log, List.append_nil]
    exact hmail

theorem ReadsWhole.taken_concat (h : ReadsWhole csize s₀ s blocks part) :
    s₀.socket = (blocks ++ [part]).flatten ++ s.socket := by
  rw [h.taken, List.flatten_append, List.flatten_singleton]

theorem ReadsWhole.lengths_concat (h : ReadsWhole csize s₀ s blocks part)
    (hfull : part.length = chunkFrameSize csize) :
    ∀ b ∈ blocks ++ [part], b.length = chunkFrameSize csize := by
  intro b hb
  rcases List.mem_append.mp hb with hb | hb
  · exact h.lengths b hb
  · rw [List.mem_singleton.mp hb]
    exact hfull

theorem ReadsWhole.mailbox_concat (h : ReadsWhole csize s₀ s blocks part) :
    mailboxOf s₀.log ++ (blocks ++ [part]).flatMap (chunkEvents csize s₀.fsize) =
      mailboxOf s.log ++ chunkEvents csize s₀.fsize part := by
  rw [h.mailbox, List.flatMap_append, List.flatMap_singleton, List.append_assoc]

theorem getFileDataSized_full {f : Bytes} (hfull : f.length = chunkFrameSize csize) :
    getFileDataSized f csize.toNat = f.drop fileHeaderSizeBytes := by
  apply List.take_of_length_le
  rw [List.length_drop, hfull, chunkFrameSize]
  omega

/-- The callback of a full read: the frame goes to the app, and unless it is END the next frame is
read whole too. -/
theorem ReadsWhole.completeRead (hfits : chunkFrameSize csize < 2 ^ 32)
    (h : ReadsWhole csize s₀ s blocks part) (hfull : part.length = chunkFrameSize csize)
    (env : Env) (w : Window) :
    ReadsWhole csize s₀ (s.completeRead env w) (blocks ++ [part]) [] ∨
      (at_ part 12 = BVTCPMessageType.fileTransferEnd ∧
        mailboxOf (s.completeRead env w).log =
          mailboxOf s₀.log ++ (blocks ++ [part]).flatMap (chunkEvents csize s₀.fsize)) := by
  have hbuf := h.fileReadBuf_eq hfull
  have hcall : s.completeRead env w =
      { s with reads := [] }.readFileChunkCallback (chunkFrameSize csize) := by
    simp only [Session.completeRead, h.reads, hfull, if_true]
  have htaken := h.taken_concat
  have hlengths := h.lengths_concat hfull
  have hevents := h.mailbox_concat
  have hdata := getFileDataSized_full hfull
  have hne : BVTCPMessageType.fileTransferEnd ≠ BVTCPMessageType.fileTransferChunkSent := by decide
  rw [hcall]
  by_cases hchunk : at_ part 12 = BVTCPMessageType.fileTransferChunkSent
  · left
    simp only [readFileChunkCallback, getFileHeader, hbuf, hchunk, if_true, onReceiveFileChunkSent,
      ne_eq, not_true_eq_false, if_false, emit]
    refine readsWhole_readNextChunk hfits rfl h.csize_eq h.fsize_eq htaken hlengths ?_
    rw [hevents, mailboxOf_append, mailboxOf_append, List.append_assoc, chunkEvents, if_pos hchunk,
      h.csize_eq, h.fsize_eq, hdata]
    rfl
  · by_cases hend : at_ part 12 = BVTCPMessageType.fileTransferEnd
    · right
      refine ⟨hend, ?_⟩
      simp only [readFileChunkCallback, getFileHeader, hbuf, hend, hne, if_true, if_false,
        onReceiveFileTransferEnd, ne_eq, not_true_eq_false, emit, clearFileBuffer, clearReadBuffer,
        startReadingFrames]
      rw [hevents, mailboxOf_append, mailboxOf_append, List.append_assoc, chunkEvents,
        if_neg hchunk, if_pos hend, h.csize_eq, h.fsize_eq, hdata]
      rfl
    · -- an unknown type is logged, and the next frame is read
      left
      simp only [readFileChunkCallback, getFileHeader, hbuf, hchunk, hend, if_false]
      refine readsWhole_readNextChunk hfits rfl h.csize_eq h.fsize_eq htaken hlengths ?_
      rw [hevents, chunkEvents, if_neg hchunk, if_neg hend, List.append_nil]

theorem ReadsWhole.step (hfits : chunkFrameSize csize < 2 ^ 32)
    (h : ReadsWhole csize s₀ s blocks part) (t : Tick) :
    (∃ blocks' part', ReadsWhole csize s₀ (s.step t) blocks' part') ∨
      (part.length = chunkFrameSize csize ∧ at_ part 12 = BVTCPMessageType.fileTransferEnd ∧
        mailboxOf (s.step t).log =
          mailboxOf s₀.log ++ (blocks ++ [part]).flatMap (chunkEvents csize s₀.fsize)) := by
  cases t with
  | arrive n => exact .inl ⟨_, _, h.arrive n⟩
  | complete env w =>
    by_cases hfull : part.length = chunkFrameSize csize
    · rcases h.completeRead hfits hfull env w with hnext | hend
      · exact .inl ⟨_, _, hnext⟩
      · exact .inr ⟨hfull, hend⟩
    · left
      rw [Session.step, h.completeRead_of_lt hfull]
      exact ⟨_, _, h⟩

/-- **Chunk frames are read whole**, tick after tick, until END. -/
theorem readsChunksWhole_run (hfits : chunkFrameSize csize < 2 ^ 32)
    (h : ReadsWhole csize s₀ s₀ [] []) (ticks : List Tick) : ReadsChunksWhole csize s₀ ticks := by
  induction ticks using List.reverseRecOn with
  | nil => exact .inl ⟨_, _, h⟩
  | append_singleton ticks t ih =>
    rcases ih with ⟨blocks, part, hwhole⟩ | ⟨p, t', blocks, last, hprefix, hended⟩
    · rcases hwhole.step hfits t with ⟨blocks', part', hnext⟩ | ⟨hfull, hend, hmail⟩
      · left
        rw [Runs.run_append]
        exact ⟨blocks', part', hnext⟩
      · refine .inr ⟨ticks, t, blocks, part, List.prefix_rfl, hwhole, hfull, hend, ?_⟩
        rw [Runs.run_append]
        exact hmail
    · exact .inr ⟨p, t', blocks, last, hprefix.trans (List.prefix_append _ _), hended⟩

/-! ### The read of a BEGIN frame -/

/-- The read that follows a BEGIN frame, for any chunk size. -/
theorem reads_onReceiveFileTransferBegin (env : Env) {s : Session}
    (ht : at_ s.readBuf 12 = BVTCPMessageType.fileTransferBegin)
    (hpos : chunkReadSize (announcedCsize s.readBuf) ≠ 0) :
    (s.onReceiveFileTransferBegin env).reads =
      s.reads ++ [⟨.chunk, 0, chunkReadSize (announcedCsize s.readBuf), 0⟩] := by
  rw [onReceiveFileTransferBegin_eq env ht, startReadingChunks_of_pos rfl hpos]
  rfl

theorem fileReadBuf_onReceiveFileTransferBegin (env : Env) {s : Session}
    (ht : at_ s.readBuf 12 = BVTCPMessageType.fileTransferBegin) :
    (s.onReceiveFileTransferBegin env).fileReadBuf.length =
      chunkFrameSize (announcedCsize s.readBuf) := by
  have hbuf : (s.begun env).fileReadBuf.length = chunkFrameSize (announcedCsize s.readBuf) :=
    List.length_replicate
  rw [onReceiveFileTransferBegin_eq env ht]
  simp only [startReadingChunks]
  split
  · exact hbuf
  · split <;> exact hbuf

theorem chunkReadSize_of_fits (hfits : chunkFrameSize csize < 2 ^ 32) :
    chunkReadSize csize = chunkFrameSize csize :=
  ofNat_toNat_add_fileHeaderSize hfits

theorem chunkReadSize_of_wrap (hwrap : ¬ chunkFrameSize csize < 2 ^ 32) :
    chunkReadSize csize = chunkFrameSize csize - 2 ^ 32 := by
  have hc := csize.toNat_lt
  simp only [chunkFrameSize, fileHeaderSizeBytes] at hwrap
  rw [chunkReadSize, chunkFrameSize, UInt32.toNat_ofNat', fileHeaderSizeBytes]
  omega

theorem chunkReadsExact_of_fits (hfits : chunkFrameSize csize < 2 ^ 32) :
    ChunkReadsExact csize where
  started := by
    rintro env s ht rfl
    have hpos : chunkReadSize (announcedCsize s.readBuf) ≠ 0 := by
      rw [chunkReadSize_of_fits hfits, chunkFrameSize, fileHeaderSizeBytes]
      omega
    refine ⟨?_, fileReadBuf_onReceiveFileTransferBegin env ht⟩
    rw [reads_onReceiveFileTransferBegin env ht hpos, chunkReadSize_of_fits hfits]
  whole := by
    rintro env s ht rfl hr
    obtain ⟨hmode, hcsize, -, -⟩ := onReceiveFileTransferBegin_spec env hr ht hfits
    have hreads := hmode.reads
    have hbuffer := hmode.fileReadBuf
    rw [hcsize] at hreads hbuffer
    apply readsChunksWhole_run hfits
    refine ⟨rfl, ?_, hreads, Nat.zero_le _, hbuffer, rfl, ?_, hcsize, rfl, hmode.totalBytesRead⟩
    · intro b hb
      cases hb
    · rw [List.flatMap_nil, List.append_nil]

def atBegin (csize : UInt32) : Session :=
  { Session.construct [97] [98] with
    state := .established
    readBuf := writeFileChunkSync ⟨constructFileHeader 0 BVTCPMessageType.fileTransferBegin 0
      (beginMetadata csize 1), [98, bar, 120, 0]⟩ controlPayloadBytes }

theorem atBegin_type (csize : UInt32) :
    at_ (atBegin csize).readBuf 12 = BVTCPMessageType.fileTransferBegin :=
  fileType_writeFileChunkSync _ _

theorem announcedCsize_atBegin (csize : UInt32) :
    announcedCsize (atBegin csize).readBuf = csize := by
  rw [announcedCsize, atBegin, getFileHeader_writeFileChunkSync]
  exact metadataCsize_beginMetadata csize 1

theorem not_chunkReadsExact_of_wrap (hwrap : ¬ chunkFrameSize csize < 2 ^ 32) :
    ¬ ChunkReadsExact csize := by
  intro h
  obtain ⟨hreads, -⟩ := h.started Env.blank (atBegin csize) (atBegin_type csize)
    (announcedCsize_atBegin csize)
  have hone : (atBegin csize).reads = [] := rfl
  by_cases hpos : chunkReadSize csize = 0
  · -- no read at all is started
    rw [onReceiveFileTransferBegin_eq Env.blank (atBegin_type csize), announcedCsize_atBegin,
      startReadingChunks_of_zero rfl hpos, hone] at hreads
    cases hreads
  · rw [reads_onReceiveFileTransferBegin Env.blank (atBegin_type csize)
      (by rw [announcedCsize_atBegin]; exact hpos), announcedCsize_atBegin,
      chunkReadSize_of_wrap hwrap, hone] at hreads
    simp only [List.nil_append, List.cons.injEq, ReadOp.mk.injEq, and_true, true_and] at hreads
    omega

/-- **Chunk reads.**  The reads that follow a BEGIN frame ask for exactly a chunk frame, into a
buffer of its size, and the app gets the `csize` bytes behind its header, exactly when the size of
a chunk frame fits 32 bits. -/
theorem chunk_reads_exact_iff (csize : UInt32) :
    ChunkReadsExact csize ↔ csize.toNat + fileHeaderSizeBytes < 2 ^ 32 := by
  constructor
  · intro h
    by_contra hwrap
    exact not_chunkReadsExact_of_wrap hwrap h
  · exact chunkReadsExact_of_fits

/-- For the largest chunk size the buffer has 2^32 + 20 bytes and the read asks for 20. -/
theorem chunk_read_of_largest_size :
    let s := (atBegin 4294967295).onReceiveFileTransferBegin Env.blank
    s.reads = [⟨.chunk, 0, 20, 0⟩] ∧ s.fileReadBuf.length = 2 ^ 32 + 20 ∧
      ¬ ChunkReadsExact 4294967295 := by
  have hsize : announcedCsize (atBegin 4294967295).readBuf = 4294967295 :=
    announcedCsize_atBegin 4294967295
  have hread : chunkReadSize 4294967295 = 20 := by decide
  refine ⟨?_, ?_, not_chunkReadsExact_of_wrap (by decide)⟩
  · rw [reads_onReceiveFileTransferBegin Env.blank (atBegin_type _) (by rw [hsize]; decide), hsize,
      hread]
    rfl
  · rw [fileReadBuf_onReceiveFileTransferBegin Env.blank (atBegin_type _), hsize]
    rfl

end Session

end LocalChat
