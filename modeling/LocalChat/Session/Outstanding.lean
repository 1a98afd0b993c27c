import LocalChat.Session.Machine

/-!
# One outstanding read

Re-arming the read is spread over the handlers.  `OneRead` is what they are meant to keep
between them: one outstanding read, or none once the session is closed.  `Rearms s t` says
of the frame in `readBuf` and the session's state whether the callback run by `t` does its
part:

* while UNPREPARED, a HELLO (with a zero at byte 16), a HELLOBACK with at most 128 name
  bytes, or a CONFIRM_ESTABLISHED;
* while ESTABLISHED, a chat frame that the second switch does not recognise, or an OFFER,
  ACCEPT, REJECT, or a BEGIN whose chunk size plus 21 does not wrap to 0.

`step_oneRead_iff`: from a waiting session a step leaves `OneRead` exactly when it meets
`Rearms`; `oneRead_along_iff` carries this to whole runs.
-/

namespace LocalChat

open Octets

namespace Session

/-- Exactly one outstanding read, or a closed session without any. -/
def OneRead (s : Session) : Prop := s.reads.length = 1 ∨ (s.state = .closed ∧ s.reads = [])

/-- A received frame is one an UNPREPARED session goes on reading after. -/
def RearmsUnprepared (buf : Bytes) : Prop :=
  ((getMsgHeader buf).msgType = BVTCPMessageType.hello ∧ at_ buf 16 = BVTCPMessageType.hello) ∨
  ((getMsgHeader buf).msgType = BVTCPMessageType.helloBack ∧ (getMsgHeader buf).dataLen ≤ 128) ∨
  (getMsgHeader buf).msgType = BVTCPMessageType.confirmEstablished

/-- A received frame is one an ESTABLISHED session goes on reading after with one read.  For a chat
frame this is decided by `atSwitch` and `atHandler`, which are `readBuf` as the second switch and
the handler it calls find it. -/
def RearmsEstablished (buf atSwitch atHandler : Bytes) : Prop :=
  if (getMsgHeader buf).msgType = BVTCPMessageType.chatMessage then
    isFileFrameType (at_ atSwitch 12) = false ∨
      (at_ atSwitch 12 = BVTCPMessageType.fileTransferBegin ∧
        (at_ atHandler 12 ≠ BVTCPMessageType.fileTransferBegin ∨
          chunkReadSize (announcedCsize atHandler) = 0))
  else
    at_ buf 12 = BVTCPMessageType.fileOffer ∨ at_ buf 12 = BVTCPMessageType.fileAccept ∨
      at_ buf 12 = BVTCPMessageType.fileReject ∨
      (at_ buf 12 = BVTCPMessageType.fileTransferBegin ∧ chunkReadSize (announcedCsize buf) ≠ 0)

/-- The step is not the callback of a full frame read, or it is one that re-arms. -/
def Rearms (s : Session) : Tick → Prop
  | .arrive _ => True
  | .complete _ w =>
    s.reads = [⟨.frame, 0, messageFrameSizeBytes, messageFrameSizeBytes⟩] →
      if s.state = .unprepared then RearmsUnprepared s.readBuf
      else RearmsEstablished s.readBuf (s.overlaid w.beforeSwitch)
        (s.overlaid (w.beforeSwitch + w.afterSwitch))

inductive Waiting (s : Session) : Prop
  | closed : s.state = .closed → s.reads = [] → Waiting s
  | frame (got : Nat) : s.state ≠ .closed → s.AtFrame got → Waiting s
  | chunk (got : Nat) : s.state ≠ .closed → s.AtChunk got → Waiting s

theorem Waiting.oneRead {s : Session} (h : s.Waiting) : s.OneRead := by
  cases h with
  | closed hst hr => exact .inr ⟨hst, hr⟩
  | frame got _ hf => exact .inl (by rw [hf.reads]; rfl)
  | chunk got _ hc => exact .inl (by rw [hc.reads]; rfl)

theorem not_oneRead_of_nil {s : Session} (hr : s.reads = []) (hst : s.state ≠ .closed) :
    ¬ s.OneRead := by
  rintro (h | ⟨h, -⟩)
  · rw [hr] at h; exact absurd h (by decide)
  · exact hst h

theorem not_oneRead_of_two {s : Session} {a b : ReadOp} {l : List ReadOp}
    (hr : s.reads = a :: b :: l) : ¬ s.OneRead := by
  rintro (h | ⟨-, h⟩)
  · rw [hr] at h; simp at h
  · rw [hr] at h; exact absurd h (List.cons_ne_nil _ _)

/-- The callback ends waiting when the frame re-arms, and without `OneRead` when it does not. -/
def Settles (s' : Session) (rearms : Prop) : Prop :=
  (rearms ∧ s'.Waiting) ∨ (¬ rearms ∧ ¬ s'.OneRead)

/-! ### Callbacks of an UNPREPARED session -/

theorem waiting_of_armed {s : Session} (h : s.AtFrame 0) (hst : s.state ≠ .closed) (n : Nat) :
    ((s.arrive n).finishFrame).Waiting := by
  obtain ⟨⟨got, hgot⟩, hstate⟩ := h.finish hst n
  exact .frame got (by rw [hstate]; exact hst) hgot

theorem not_oneRead_of_unarmed {s : Session} (hr : s.reads = []) (hst : s.state ≠ .closed)
    (n : Nat) :
    ¬ ((s.arrive n).finishFrame).OneRead := by
  rw [arrive_of_no_reads hr, finishFrame, if_pos hst]
  exact not_oneRead_of_nil hr hst

theorem onReceiveHelloFrame_atFrame {s : Session} (env : Env) (hr : s.reads = [])
    (ht : s.totalBytesRead = 0) (hb : s.readBuf.length = messageFrameSizeBytes)
    (h16 : at_ s.readBuf 16 = BVTCPMessageType.hello) :
    (s.onReceiveHelloFrame env).AtFrame 0 ∧ (s.onReceiveHelloFrame env).state = s.state := by
  rw [onReceiveHelloFrame, if_neg (not_not.mpr h16)]
  exact ⟨atFrame_startReadingFrames hr ht hb, rfl⟩

/-- A manager that knows the name closes the session, one that does not reads on. -/
theorem handleSessionIdentification_cases {s : Session} (env : Env) (name : Bytes)
    (hr : s.reads = []) (ht : s.totalBytesRead = 0)
    (hb : s.readBuf.length = messageFrameSizeBytes) :
    ((s.handleSessionIdentification env name).state = .closed ∧
      (s.handleSessionIdentification env name).reads = []) ∨
    ((s.handleSessionIdentification env name).state = .established ∧
      (s.handleSessionIdentification env name).AtFrame 0) := by
  rw [handleSessionIdentification]
  cases env.isSessionAlreadyPresent name with
  | true => exact .inl ⟨rfl, rfl⟩
  | false => exact .inr ⟨rfl, atFrame_startReadingFrames hr ht hb⟩

theorem onReceiveHelloBackFrame_eq {s : Session} (env : Env)
    (hb : s.readBuf.length = messageFrameSizeBytes)
    (hm : (getMsgHeader s.readBuf).msgType = BVTCPMessageType.helloBack)
    (hlen : (getMsgHeader s.readBuf).dataLen ≤ 128) :
    s.onReceiveHelloBackFrame env = s.handleSessionIdentification env
      ((s.readBuf.drop headerSizeBytes).take (getMsgHeader s.readBuf).dataLen.toNat) := by
  have hne : s.readBuf ≠ [] := by intro h; simp [h] at hb
  rw [onReceiveHelloBackFrame, if_neg (not_not.mpr hm), if_neg (UInt8.not_lt.mpr hlen),
    getPayloadPtr,
    if_neg hne]

theorem dispatchHandshake_settles {s : Session} (env : Env) (n : Nat) (hr : s.reads = [])
    (ht : s.totalBytesRead = 0) (hb : s.readBuf.length = messageFrameSizeBytes)
    (hst : s.state = .unprepared) :
    Settles (((s.dispatchHandshake env).arrive n).finishFrame) (RearmsUnprepared s.readBuf) := by
  have hopen : s.state ≠ .closed := by rw [hst]; decide
  by_cases h0 : (getMsgHeader s.readBuf).msgType = BVTCPMessageType.hello
  · rw [dispatchHandshake, if_pos h0]
    by_cases h16 : at_ s.readBuf 16 = BVTCPMessageType.hello
    · obtain ⟨harmed, hstate⟩ :=
        onReceiveHelloFrame_atFrame (s := s.emit (.handed .hello s.readBuf)) env hr ht hb h16
      exact .inl ⟨.inl ⟨h0, h16⟩, waiting_of_armed harmed (by rw [hstate]; exact hopen) n⟩
    · refine .inr ⟨?_, ?_⟩
      · rintro (⟨-, h⟩ | ⟨h, -⟩ | h)
        · exact h16 h
        · rw [h0] at h; exact absurd h (by decide)
        · rw [h0] at h; exact absurd h (by decide)
      · have h16' : at_ (s.emit (.handed .hello s.readBuf)).readBuf 16 ≠
            BVTCPMessageType.hello := h16
        rw [onReceiveHelloFrame, if_pos h16']
        exact not_oneRead_of_unarmed (s := s.emit (.handed .hello s.readBuf)) hr hopen n
  by_cases h1 : (getMsgHeader s.readBuf).msgType = BVTCPMessageType.helloBack
  · rw [dispatchHandshake, if_neg h0, if_pos h1]
    by_cases hlen : (getMsgHeader s.readBuf).dataLen ≤ 128
    · rw [onReceiveHelloBackFrame_eq (s := s.emit (.handed .helloBack s.readBuf)) env hb h1 hlen]
      refine .inl ⟨.inr (.inl ⟨h1, hlen⟩), ?_⟩
      rcases handleSessionIdentification_cases (s := s.emit (.handed .helloBack s.readBuf)) env
        _ hr ht hb with ⟨hc, hr'⟩ | ⟨he, ha⟩
      · rw [arrive_of_no_reads hr', finishFrame, if_neg (not_not.mpr hc)]
        exact .closed hc hr'
      · exact waiting_of_armed ha (by rw [he]; decide) n
    · refine .inr ⟨?_, ?_⟩
      · rintro (⟨h, -⟩ | ⟨-, h⟩ | h)
        · exact h0 h
        · exact hlen h
        · rw [h1] at h; exact absurd h (by decide)
      · have hm : (getMsgHeader (s.emit (.handed .helloBack s.readBuf)).readBuf).msgType =
            BVTCPMessageType.helloBack := h1
        have hlen' : 128 < (getMsgHeader (s.emit (.handed .helloBack s.readBuf)).readBuf).dataLen :=
          UInt8.not_le.mp hlen
        rw [onReceiveHelloBackFrame, if_neg (not_not.mpr hm), if_pos hlen']
        exact not_oneRead_of_unarmed (s := s.emit (.handed .helloBack s.readBuf)) hr hopen n
  by_cases h3 : (getMsgHeader s.readBuf).msgType = BVTCPMessageType.confirmEstablished
  · rw [dispatchHandshake, if_neg h0, if_neg h1, if_pos h3]
    refine .inl ⟨.inr (.inr h3), waiting_of_armed (s := onReceiveConfirmEstablished _) ?_ ?_ n⟩
    · exact atFrame_startReadingFrames hr ht hb
    · exact BVSessionState.noConfusion
  · rw [dispatchHandshake, if_neg h0, if_neg h1, if_neg h3]
    refine .inr ⟨?_, not_oneRead_of_unarmed hr hopen n⟩
    rintro (⟨h, -⟩ | ⟨h, -⟩ | h)
    · exact h0 h
    · exact h1 h
    · exact h3 h

/-! ### Callbacks of an ESTABLISHED session -/

/-- The chat handler arms a frame read and leaves buffer and socket alone. -/
theorem firstSwitch_chat {s : Session} (env : Env) (hr : s.reads = []) (ht : s.totalBytesRead = 0)
    (hb : s.readBuf.length = messageFrameSizeBytes)
    (hm : (getMsgHeader s.readBuf).msgType = BVTCPMessageType.chatMessage) :
    (s.firstSwitch env).AtFrame 0 ∧ (s.firstSwitch env).state = s.state ∧
      ∀ n, (s.firstSwitch env).overlaid n = s.overlaid n := by
  rw [firstSwitch_eq env hb hm]
  exact ⟨atFrame_startReadingFrames hr ht hb, rfl, fun n => rfl⟩

/-- What the second switch does, by the type it sees in `t` and with `t'` what its handlers see. -/
theorem onReceiveStandardFrame_cases {s t t' : Session} (env : Env) (w : Window)
    (ht : (s.firstSwitch env).arrive w.beforeSwitch = t) (ht' : t.arrive w.afterSwitch = t') :
    (isFileFrameType (at_ t.readBuf 12) = false ∧ s.onReceiveStandardFrame env w = (false, t')) ∨
    (at_ t.readBuf 12 = BVTCPMessageType.fileTransferBegin ∧ s.onReceiveStandardFrame env w =
      (true, (t'.emit (.handed .fileTransferBegin t.readBuf)).onReceiveFileTransferBegin env)) ∨
    ((at_ t.readBuf 12 = BVTCPMessageType.fileOffer ∨
        at_ t.readBuf 12 = BVTCPMessageType.fileAccept ∨
        at_ t.readBuf 12 = BVTCPMessageType.fileReject) ∧
      ∃ es, s.onReceiveStandardFrame env w =
        (true, { t' with log := t'.log ++ es }.startReadingFrames)) := by
  subst ht ht'
  by_cases h6 : at_ ((s.firstSwitch env).arrive w.beforeSwitch).readBuf 12 =
      BVTCPMessageType.fileTransferBegin
  · exact .inr (.inl ⟨h6, by simp [onReceiveStandardFrame, getFileHeader, h6]⟩)
  by_cases h9 : at_ ((s.firstSwitch env).arrive w.beforeSwitch).readBuf 12 =
      BVTCPMessageType.fileOffer
  · exact .inr (.inr ⟨.inl h9, _, by
      simp only [onReceiveStandardFrame, getFileHeader, h9, if_true, onReceiveFileOffer, emit,
        List.append_assoc]
      rfl⟩)
  by_cases h10 : at_ ((s.firstSwitch env).arrive w.beforeSwitch).readBuf 12 =
      BVTCPMessageType.fileAccept
  · exact .inr (.inr ⟨.inr (.inl h10), _, by
      simp only [onReceiveStandardFrame, getFileHeader, h10, if_true, emit, List.append_assoc]
      rfl⟩)
  by_cases h11 : at_ ((s.firstSwitch env).arrive w.beforeSwitch).readBuf 12 =
      BVTCPMessageType.fileReject
  · exact .inr (.inr ⟨.inr (.inr h11), _, by
      simp only [onReceiveStandardFrame, getFileHeader, h11, if_true, emit, List.append_assoc]
      rfl⟩)
  · refine .inl ⟨?_, ?_⟩
    · simp only [isFileFrameType, h6, h9, h10, h11, decide_false, Bool.or_self]
    · simp only [onReceiveStandardFrame, getFileHeader, h6, h9, h10, h11, if_false]

theorem not_isFileFrameType_fileTransferBegin {b : UInt8}
    (h : b = BVTCPMessageType.fileTransferBegin) :
    isFileFrameType b ≠ false := by subst h; decide

theorem isFileFrameType_of_frame_case {b : UInt8} (h : b = BVTCPMessageType.fileOffer ∨
    b = BVTCPMessageType.fileAccept ∨ b = BVTCPMessageType.fileReject) :
    isFileFrameType b ≠ false ∧ b ≠ BVTCPMessageType.fileTransferBegin := by
  rcases h with rfl | rfl | rfl <;> decide

/-- Behind a chat frame a read is already outstanding, so the second switch must not start
another. -/
theorem established_chat_settles {s : Session} (env : Env) (w : Window)
    (h : s.AtFrame messageFrameSizeBytes) (hst : s.state = .established)
    (hm : (getMsgHeader s.readBuf).msgType = BVTCPMessageType.chatMessage) :
    Settles (s.completeRead env w) (RearmsEstablished s.readBuf (s.overlaid w.beforeSwitch)
      (s.overlaid (w.beforeSwitch + w.afterSwitch))) := by
  obtain ⟨harm, hstate, hover⟩ :=
    firstSwitch_chat (s := s.called) env rfl h.totalBytesRead h.readBuf hm
  have hopen : (s.called.firstSwitch env).state ≠ .closed := by
    rw [hstate, called_state, hst]; decide
  have h1 := harm.arrive_readBuf w.beforeSwitch
  have h2 := harm.arrive_arrive w.beforeSwitch w.afterSwitch
  have h3 := harm.arrive (w.beforeSwitch + w.afterSwitch)
  have h3s :
      ((s.called.firstSwitch env).arrive (w.beforeSwitch + w.afterSwitch)).state ≠ .closed := by
    rw [harm.arrive_state]; exact hopen
  have h3b : ((s.called.firstSwitch env).arrive (w.beforeSwitch + w.afterSwitch)).readBuf =
      s.overlaid (w.beforeSwitch + w.afterSwitch) := (harm.arrive_readBuf _).trans (hover _)
  rw [hover, show s.called.overlaid w.beforeSwitch = s.overlaid w.beforeSwitch from rfl] at h1
  rw [h.completeRead_established hst, RearmsEstablished, if_pos hm]
  rcases onReceiveStandardFrame_cases (s := s.called) env w rfl h2 with
    ⟨hno, heq⟩ | ⟨hb, heq⟩ | ⟨hb, es, heq⟩
  · rw [h1] at hno
    simp only [heq, finishFrame, if_pos h3s]
    exact .inl ⟨.inl hno, .frame _ h3s h3.clearReadBuffer⟩
  · rw [h1] at hb
    simp only [heq, h1]
    by_cases ht : at_ (s.overlaid (w.beforeSwitch + w.afterSwitch)) 12 =
        BVTCPMessageType.fileTransferBegin
    · rw [onReceiveFileTransferBegin_eq env (by rw [emit_readBuf, h3b]; exact ht), emit_readBuf,
        h3b]
      by_cases hz : chunkReadSize (announcedCsize (s.overlaid (w.beforeSwitch + w.afterSwitch))) = 0
      · rw [startReadingChunks_of_zero rfl hz]
        refine .inl ⟨.inr ⟨hb, .inr hz⟩, .frame _ h3s ⟨h3.reads, h3.got_le, rfl, ?_⟩⟩
        exact List.length_replicate
      · refine .inr ⟨?_, ?_⟩
        · rintro (hno | ⟨-, hne | hz'⟩)
          · exact not_isFileFrameType_fileTransferBegin hb hno
          · exact hne ht
          · exact hz hz'
        · rw [startReadingChunks_of_pos rfl hz]
          exact not_oneRead_of_two
            (by simp only [begun, emit_reads, h3.reads, List.cons_append]; rfl)
    · have ht' : (getFileHeader (((s.called.firstSwitch env).arrive (w.beforeSwitch +
          w.afterSwitch)).emit (.handed .fileTransferBegin (s.overlaid
            w.beforeSwitch))).readBuf).msgType ≠ BVTCPMessageType.fileTransferBegin := by
        rw [emit_readBuf, h3b]; exact ht
      rw [onReceiveFileTransferBegin, if_pos ht']
      exact .inl ⟨.inr ⟨hb, .inl ht⟩, .frame _ h3s ⟨h3.reads, h3.got_le, h3.totalBytesRead,
        h3.readBuf⟩⟩
  · rw [h1] at hb
    obtain ⟨hft, hne⟩ := isFileFrameType_of_frame_case hb
    simp only [heq]
    refine .inr ⟨?_, ?_⟩
    · rintro (hno | ⟨hb', -⟩)
      · exact hft hno
      · exact hne hb'
    · exact not_oneRead_of_two (by
        simp only [startReadingFrames, h3.reads, List.cons_append]
        rfl)

/-- Behind any other frame no read is outstanding, so the second switch has to start one. -/
theorem established_other_settles {s : Session} (env : Env) (w : Window)
    (h : s.AtFrame messageFrameSizeBytes) (hst : s.state = .established)
    (hm : (getMsgHeader s.readBuf).msgType ≠ BVTCPMessageType.chatMessage) :
    Settles (s.completeRead env w) (RearmsEstablished s.readBuf (s.overlaid w.beforeSwitch)
      (s.overlaid (w.beforeSwitch + w.afterSwitch))) := by
  have hopen : s.called.state ≠ .closed := by
    rw [called_state, hst]; decide
  have hfirst : s.called.firstSwitch env = s.called := by
    rw [firstSwitch, if_neg (show (getMsgHeader s.called.readBuf).msgType ≠ _ from hm)]
  have h1 : (s.called.firstSwitch env).arrive w.beforeSwitch = s.called := by
    rw [hfirst, arrive_of_no_reads rfl]
  rw [h.completeRead_established hst, RearmsEstablished, if_neg hm]
  rcases onReceiveStandardFrame_cases (s := s.called) env w h1 (arrive_of_no_reads rfl _) with
    ⟨hno, heq⟩ | ⟨hb, heq⟩ | ⟨hb, es, heq⟩
  · simp only [heq, finishFrame, if_pos hopen]
    refine .inr ⟨?_, not_oneRead_of_nil rfl hopen⟩
    rintro (hb | hb | hb | ⟨hb, -⟩) <;>
      · rw [show at_ s.called.readBuf 12 = _ from hb] at hno
        exact absurd hno (by decide)
  · have hb' : at_ s.readBuf 12 = BVTCPMessageType.fileTransferBegin := hb
    simp only [heq]
    rw [onReceiveFileTransferBegin_eq env (by rw [emit_readBuf]; exact hb), emit_readBuf,
      called_readBuf]
    by_cases hz : chunkReadSize (announcedCsize s.readBuf) = 0
    · refine .inr ⟨?_, ?_⟩
      · rintro (h' | h' | h' | ⟨-, h'⟩)
        · rw [hb'] at h'; exact absurd h' (by decide)
        · rw [hb'] at h'; exact absurd h' (by decide)
        · rw [hb'] at h'; exact absurd h' (by decide)
        · exact h' hz
      · rw [startReadingChunks_of_zero rfl hz]
        exact not_oneRead_of_nil rfl hopen
    · refine .inl ⟨.inr (.inr (.inr ⟨hb', hz⟩)), .chunk 0 ?_ ?_⟩
      · rw [startReadingChunks_of_pos rfl hz]
        exact hopen
      · exact atChunk_startReadingChunks rfl rfl rfl hz
  · simp only [heq]
    refine .inl ⟨?_, .frame 0 hopen (atFrame_startReadingFrames rfl h.totalBytesRead h.readBuf)⟩
    rcases hb with hb | hb | hb
    · exact .inl hb
    · exact .inr (.inl hb)
    · exact .inr (.inr (.inl hb))

/-! ### Chunks -/

theorem waiting_readNextChunk {s : Session} (hr : s.reads = []) (hst : s.state ≠ .closed)
    (hpos : chunkReadSize s.csize ≠ 0) : s.readNextChunk.Waiting := by
  refine .chunk 0 ?_ (atChunk_startReadingChunks hr rfl rfl hpos)
  rw [readNextChunk, startReadingChunks_of_pos rfl hpos]
  exact hst

theorem waiting_readFileChunkCallback {s : Session} (n : Nat) (hr : s.reads = [])
    (hst : s.state ≠ .closed) (hpos : chunkReadSize s.csize ≠ 0) :
    (s.readFileChunkCallback n).Waiting := by
  simp only [readFileChunkCallback]
  split
  · simp only [onReceiveFileChunkSent]
    split
    · exact waiting_readNextChunk hr hst hpos
    · exact waiting_readNextChunk hr hst hpos
  split
  · simp only [onReceiveFileTransferEnd]
    split
    · exact .frame 0 hst (atFrame_startReadingFrames hr rfl List.length_replicate)
    · exact .frame 0 hst (atFrame_startReadingFrames hr rfl List.length_replicate)
  · exact waiting_readNextChunk hr hst hpos

/-! ### Steps and runs -/

/-- **One step**: a waiting session goes on waiting when the step re-arms, and has lost `OneRead`
when it does not. -/
theorem step_settles {s : Session} (h : s.Waiting) (t : Tick) :
    Settles (s.step t) (s.Rearms t) := by
  cases t with
  | arrive n =>
    refine .inl ⟨trivial, ?_⟩
    cases h with
    | closed hst hr =>
      rw [step, arrive_of_no_reads hr]
      exact .closed hst hr
    | frame got hst hf => exact .frame _ (by rw [step, hf.arrive_state]; exact hst) (hf.arrive n)
    | chunk got hst hc =>
      obtain ⟨⟨got', h'⟩, hstate⟩ := hc.arrive n
      exact .chunk got' (by rw [step, hstate]; exact hst) h'
  | complete env w =>
    cases h with
    | closed hst hr =>
      refine .inl ⟨fun h => absurd (hr.symm.trans h) (List.cons_ne_nil _ _).symm, ?_⟩
      have hs : s.step (.complete env w) = s := by rw [step, completeRead, hr]
      rw [hs]
      exact .closed hst hr
    | frame got hst hf =>
      by_cases hgot : got = messageFrameSizeBytes
      · subst hgot
        have hrearms : s.Rearms (.complete env w) ↔
            if s.state = .unprepared then RearmsUnprepared s.readBuf
            else RearmsEstablished s.readBuf (s.overlaid w.beforeSwitch)
              (s.overlaid (w.beforeSwitch + w.afterSwitch)) :=
          ⟨fun h => h hf.reads, fun h _ => h⟩
        rw [Settles, hrearms, ← Settles]
        cases hs : s.state with
        | closed => exact absurd hs hst
        | unprepared =>
          rw [if_pos rfl, step, hf.completeRead_unprepared hs]
          exact dispatchHandshake_settles (s := s.called) env w.afterSwitch rfl hf.totalBytesRead
            hf.readBuf hs
        | established =>
          rw [if_neg (by decide)]
          by_cases hm : (getMsgHeader s.readBuf).msgType = BVTCPMessageType.chatMessage
          · exact established_chat_settles env w hf hs hm
          · exact established_other_settles env w hf hs hm
      · refine .inl ⟨fun h => ?_, ?_⟩
        · rw [hf.reads] at h
          simp only [List.cons.injEq, ReadOp.mk.injEq, true_and, and_true] at h
          exact absurd h hgot
        · rw [step, hf.completeRead_of_lt hgot]
          exact .frame got hst hf
    | chunk got hst hc =>
      refine .inl ⟨fun h => ?_, ?_⟩
      · rw [hc.reads] at h
        simp at h
      · simp only [step, completeRead, hc.reads]
        split
        · exact waiting_readFileChunkCallback (s := { s with reads := [] }) _ rfl hst hc.pos
        · exact .chunk got hst hc

theorem step_waiting {s : Session} (h : s.Waiting) {t : Tick} (ht : s.Rearms t) :
    (s.step t).Waiting := by
  rcases step_settles h t with ⟨-, hw⟩ | ⟨hn, -⟩
  · exact hw
  · exact absurd ht hn

theorem step_oneRead_iff {s : Session} (h : s.Waiting) (t : Tick) :
    (s.step t).OneRead ↔ s.Rearms t := by
  rcases step_settles h t with ⟨hr, hw⟩ | ⟨hn, ho⟩
  · exact iff_of_true hw.oneRead hr
  · exact iff_of_false ho hn

def requested (thisMachineServiceName serviceName socket : Bytes) : Session :=
  { (Session.construct thisMachineServiceName serviceName).startReadingFrames with
    socket := socket }

theorem requested_waiting (self peer socket : Bytes) : (requested self peer socket).Waiting :=
  .frame 0 BVSessionState.noConfusion ⟨rfl, Nat.zero_le _, rfl, List.length_replicate⟩

/-- **Every run keeps one outstanding read as long as, and only as long as, each of its callbacks
gets a frame it re-arms after.** -/
theorem oneRead_along_iff (self peer socket : Bytes) (ts : List Tick) :
    (∀ p, p <+: ts → (Runs.run step (requested self peer socket) p).OneRead) ↔
      Runs.Meets step Rearms (requested self peer socket) ts :=
  Runs.forall_prefix_iff_meets (I := Waiting) (P := OneRead) (fun _ h => h.oneRead)
    (fun _ _ h ht => step_waiting h ht)
    (fun _ t h => step_oneRead_iff h t) (requested_waiting self peer socket) ts

/-- A chat frame sent to a session that is still UNPREPARED leaves it without a read. -/
theorem not_oneRead_early_chat :
    ¬ (Runs.run step (requested [] [] (PeerFrame.chat 0 [104, 105]).bytes)
      [.arrive 138, .complete .blank .quiet]).OneRead := by
  rintro (h | ⟨h, -⟩)
  · exact absurd h (by decide +kernel)
  · exact absurd h (by decide +kernel)

end Session

end LocalChat
