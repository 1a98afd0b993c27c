import LocalChat.Session.Machine

/-!
# What a session has done stays done

`Later s s'`: the log of `s'` continues that of `s`.  Every function of a session only adds to
its log (`later_step`, `later_run`).

`handed_of_atChunk` is what follows for a session that waits for a chunk: whatever bytes come in,
the next unit it hands over is a chunk or the end of a transfer.
-/

namespace LocalChat

open Octets

namespace Session

def Later (s s' : Session) : Prop := s.log <+: s'.log

theorem Later.refl (s : Session) : Later s s := List.prefix_refl _

theorem Later.trans {s s' s'' : Session} (h : Later s s') (h' : Later s' s'') : Later s s'' :=
  List.IsPrefix.trans h h'

theorem later_of_eq {s s' : Session} (h : s'.log = s.log) : Later s s' := by
  simp only [Later, h, List.prefix_refl]

theorem Later.emit {s s' : Session} (h : Later s s') (e : Effect) : Later s (s'.emit e) :=
  h.trans (List.prefix_append _ _)

@[simp] theorem startReadingFrames_log (s : Session) : s.startReadingFrames.log = s.log := rfl

@[simp] theorem startReadingChunks_log (c : UInt32) (s : Session) :
    (s.startReadingChunks c).log = s.log := by
  simp only [startReadingChunks]
  split
  · rfl
  · split <;> rfl

@[simp] theorem arrive_log (n : Nat) (s : Session) : (s.arrive n).log = s.log := by
  cases h : s.reads with
  | nil => simp [arrive, h]
  | cons op ops => cases ht : op.target <;> simp [arrive, h, ht]

@[simp] theorem finishFrame_log (s : Session) : s.finishFrame.log = s.log := by
  rw [finishFrame]
  split <;> rfl

@[simp] theorem readNextChunk_log (s : Session) : s.readNextChunk.log = s.log := by
  simp [readNextChunk]

/-! ### Handlers -/

theorem later_onReceiveHelloFrame (env : Env) (s : Session) :
    Later s (s.onReceiveHelloFrame env) := by
  rw [onReceiveHelloFrame]
  split
  · exact .refl s
  · exact ((Later.refl s).emit _).emit _

theorem later_onReceiveHelloBackFrame (env : Env) (s : Session) :
    Later s (s.onReceiveHelloBackFrame env) := by
  simp only [onReceiveHelloBackFrame]
  split
  · exact .refl s
  · split
    · exact .refl s
    · split
      · exact .refl s
      · rw [handleSessionIdentification]
        split
        · exact List.prefix_append _ _
        · refine Later.trans ?_ (later_of_eq (startReadingFrames_log _))
          exact (List.prefix_append _ _).trans (List.prefix_append _ _)

theorem later_onReceiveChatMessageFrame (env : Env) (s : Session) :
    Later s (s.onReceiveChatMessageFrame env) := by
  simp only [onReceiveChatMessageFrame]
  split
  · exact .refl s
  · split
    · exact .refl s
    · exact (Later.refl s).emit _

theorem later_onReceiveFileTransferBegin (env : Env) (s : Session) :
    Later s (s.onReceiveFileTransferBegin env) := by
  simp only [onReceiveFileTransferBegin]
  split
  · exact .refl s
  · refine Later.trans ?_ (later_of_eq (startReadingChunks_log _ _))
    exact List.prefix_append _ _

theorem later_firstSwitch (env : Env) (s : Session) : Later s (s.firstSwitch env) := by
  rw [firstSwitch]
  split
  · exact ((Later.refl s).emit _).trans (later_onReceiveChatMessageFrame env _)
  · exact .refl s

theorem later_onReceiveStandardFrame (env : Env) (w : Window) (s : Session) :
    Later s (s.onReceiveStandardFrame env w).2 := by
  have hswitch : Later s (((s.firstSwitch env).arrive w.beforeSwitch).arrive w.afterSwitch) :=
    (later_firstSwitch env s).trans (later_of_eq (by simp))
  simp only [onReceiveStandardFrame]
  split
  · exact (hswitch.emit _).trans (later_onReceiveFileTransferBegin env _)
  · split
    · exact (hswitch.emit _).emit _
    · split
      · exact (hswitch.emit _).emit _
      · split
        · exact (hswitch.emit _).emit _
        · exact hswitch

theorem later_dispatchHandshake (env : Env) (s : Session) : Later s (s.dispatchHandshake env) := by
  simp only [dispatchHandshake]
  split
  · exact ((Later.refl s).emit _).trans (later_onReceiveHelloFrame env _)
  · split
    · exact ((Later.refl s).emit _).trans (later_onReceiveHelloBackFrame env _)
    · split
      · exact (Later.refl s).emit _
      · exact .refl s

/-! ### Callbacks -/

theorem later_readMessageFrameCallback (env : Env) (w : Window) (n : Nat) (s : Session) :
    Later s (s.readMessageFrameCallback env w n) := by
  simp only [readMessageFrameCallback]
  split
  · split
    · refine Later.trans ?_ (later_of_eq (finishFrame_log _))
      refine Later.trans ?_ (later_of_eq (arrive_log _ _))
      exact later_dispatchHandshake env { s with totalBytesRead := 0 }
    · have h := later_onReceiveStandardFrame env w
        { s with totalBytesRead := 0 }
      split <;> rename_i heq
      · rw [heq] at h
        exact h
      · rw [heq] at h
        exact h.trans (later_of_eq (finishFrame_log _))
  · exact later_of_eq rfl

theorem later_readFileChunkCallback (n : Nat) (s : Session) :
    Later s (s.readFileChunkCallback n) := by
  simp only [readFileChunkCallback]
  split
  · refine Later.trans ?_ (later_of_eq (readNextChunk_log _))
    simp only [onReceiveFileChunkSent]
    split
    · exact List.prefix_append _ _
    · exact (List.prefix_append _ _).trans (List.prefix_append _ _)
  · split
    · refine Later.trans ?_ (later_of_eq (startReadingFrames_log _))
      simp only [onReceiveFileTransferEnd]
      split
      · exact List.prefix_append _ _
      · exact (List.prefix_append _ _).trans (List.prefix_append _ _)
    · exact later_of_eq (readNextChunk_log _)

theorem later_completeRead (env : Env) (w : Window) (s : Session) :
    Later s (s.completeRead env w) := by
  cases hr : s.reads with
  | nil =>
    simp only [completeRead, hr]
    exact .refl s
  | cons op rest =>
    simp only [completeRead, hr]
    split
    · cases op.target with
      | frame => exact later_readMessageFrameCallback env w op.size { s with reads := rest }
      | chunk => exact later_readFileChunkCallback op.size { s with reads := rest }
    · exact .refl s

theorem later_step (s : Session) (t : Tick) : Later s (s.step t) := by
  cases t with
  | arrive n => exact later_of_eq (arrive_log n s)
  | complete env w => exact later_completeRead env w s

/-- **A session never takes back what it has done.** -/
theorem later_run (ts : List Tick) : ∀ s : Session, Later s (Runs.run step s ts) := by
  induction ts with
  | nil => intro s; exact .refl s
  | cons t ts ih => intro s; exact (later_step s t).trans (ih _)

/-! ### The next unit of a session that waits for a chunk -/

def IsChunkHandler (h : Handler) : Prop := h = .fileChunkSent ∨ h = .fileTransferEnd

theorem readFileChunkCallback_cases {s : Session} (n : Nat) (hr : s.reads = [])
    (hpos : chunkReadSize s.csize ≠ 0) :
    ((s.readFileChunkCallback n).AtChunk 0 ∧ (s.readFileChunkCallback n).log = s.log) ∨
      ∃ h unit, IsChunkHandler h ∧
        Later (s.emit (.handed h unit)) (s.readFileChunkCallback n) := by
  by_cases h7 : (getFileHeader s.fileReadBuf).msgType = BVTCPMessageType.fileTransferChunkSent
  · right
    refine ⟨.fileChunkSent, s.fileReadBuf, .inl rfl, ?_⟩
    simp only [readFileChunkCallback, if_pos h7]
    refine Later.trans ?_ (later_of_eq (readNextChunk_log _))
    simp only [onReceiveFileChunkSent]
    split
    · exact List.prefix_refl _
    · exact List.prefix_append _ _
  · by_cases h8 : (getFileHeader s.fileReadBuf).msgType = BVTCPMessageType.fileTransferEnd
    · right
      refine ⟨.fileTransferEnd, s.fileReadBuf, .inr rfl, ?_⟩
      simp only [readFileChunkCallback, if_neg h7, if_pos h8]
      refine Later.trans ?_ (later_of_eq (startReadingFrames_log _))
      simp only [onReceiveFileTransferEnd]
      split
      · exact List.prefix_refl _
      · exact List.prefix_append _ _
    · left
      simp only [readFileChunkCallback, if_neg h7, if_neg h8]
      refine ⟨?_, readNextChunk_log _⟩
      exact atChunk_startReadingChunks hr rfl rfl hpos

theorem AtChunk.step {s : Session} {got : Nat} (h : s.AtChunk got) (t : Tick) :
    (∃ got', (s.step t).AtChunk got' ∧ (s.step t).log = s.log) ∨
      ∃ hd unit, IsChunkHandler hd ∧ Later (s.emit (.handed hd unit)) (s.step t) := by
  cases t with
  | arrive n =>
    obtain ⟨⟨got', harr⟩, -⟩ := h.arrive n
    exact .inl ⟨got', harr, arrive_log n s⟩
  | complete env w =>
    rw [Session.step]
    by_cases hfull : got = chunkReadSize s.csize
    · have hcomplete : s.completeRead env w =
          readFileChunkCallback (chunkReadSize s.csize) { s with reads := [] } := by
        simp only [completeRead, h.reads, if_pos hfull]
      rw [hcomplete]
      rcases readFileChunkCallback_cases (s := { s with reads := [] }) (chunkReadSize s.csize) rfl
        h.pos with ⟨hat, hsame⟩ | ⟨hd, unit, hhd, hlater⟩
      · exact .inl ⟨0, hat, hsame⟩
      · exact .inr ⟨hd, unit, hhd, hlater⟩
    · have hcomplete : s.completeRead env w = s := by
        simp only [completeRead, h.reads, if_neg hfull]
      rw [hcomplete]
      exact .inl ⟨got, h, rfl⟩

/-- **A session that waits for a chunk** hands over a chunk or the end of a transfer next, if it
hands over anything. -/
theorem handed_of_atChunk (ts : List Tick) :
    ∀ (s : Session) (got : Nat), s.AtChunk got → ∀ h unit rest,
      handedUnits (Runs.run Session.step s ts).log = handedUnits s.log ++ (h, unit) :: rest →
        IsChunkHandler h := by
  induction ts with
  | nil =>
    intro s got _ h unit rest hlog
    have hself : handedUnits s.log = handedUnits s.log ++ (h, unit) :: rest := hlog
    rw [List.self_eq_append_right] at hself
    cases hself
  | cons t ts ih =>
    intro s got hs h unit rest hlog
    rw [Runs.run_cons] at hlog
    rcases hs.step t with ⟨got', hat, hsame⟩ | ⟨hd, u, hhd, hlater⟩
    · refine ih _ got' hat h unit rest ?_
      rw [hsame]
      exact hlog
    · obtain ⟨more, hmore⟩ := hlater.trans (later_run ts _)
      rw [← hmore, handedUnits_append, emit, handedUnits_append, List.append_assoc,
        List.append_cancel_left_eq] at hlog
      have hhead : (hd, u) = (h, unit) := (List.cons.inj hlog).1
      cases hhead
      exact hhd

end Session

end LocalChat
