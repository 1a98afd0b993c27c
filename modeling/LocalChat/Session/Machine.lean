import LocalChat.Session.Classification
import LocalChat.Lib.Runs

/-!
# The session under every timing

A `Tick` is one thing that can happen to a session between two callbacks: bytes arrive
for the outstanding read, or the callback of a full read runs, with a `Window` for the
bytes that arrive while it does.  `step` is a session's reaction, and `Runs.run step` a
whole run.  The bytes a peer will ever send are in `socket` from the start; when they come
is up to the ticks.

`AtFrame s got` and `AtChunk s got` refine `FrameMode` and `ChunkMode` to a read that has
`got` of its bytes.
-/

namespace LocalChat

open Octets

inductive Tick
  | arrive (n : Nat)
  | complete (env : Env) (w : Window)

namespace Session

def step (s : Session) : Tick → Session
  | .arrive n => s.arrive n
  | .complete env w => s.completeRead env w

/-- The session waits for a message frame and has `got` of its bytes. -/
structure AtFrame (s : Session) (got : Nat) : Prop where
  reads : s.reads = [⟨.frame, 0, messageFrameSizeBytes, got⟩]
  got_le : got ≤ messageFrameSizeBytes
  totalBytesRead : s.totalBytesRead = 0
  readBuf : s.readBuf.length = messageFrameSizeBytes

theorem AtFrame.of_frameMode {s : Session} (h : s.FrameMode) : s.AtFrame 0 :=
  ⟨h.reads, Nat.zero_le _, h.totalBytesRead, h.readBuf⟩

def chunkReadSize (csize : UInt32) : Nat := (UInt32.ofNat (csize.toNat + fileHeaderSizeBytes)).toNat

/-- The session waits for a chunk and has `got` of its bytes. -/
structure AtChunk (s : Session) (got : Nat) : Prop where
  reads : s.reads = [⟨.chunk, 0, chunkReadSize s.csize, got⟩]
  got_le : got ≤ chunkReadSize s.csize
  pos : chunkReadSize s.csize ≠ 0
  totalBytesRead : s.totalBytesRead = 0

@[simp] theorem arrive_of_no_reads {s : Session} (h : s.reads = []) (n : Nat) : s.arrive n = s := by
  simp [arrive, h]

def incoming (s : Session) (n got : Nat) : Bytes :=
  s.socket.take (min n (messageFrameSizeBytes - got))

theorem length_incoming_le (s : Session) (n got : Nat) :
    (s.incoming n got).length ≤ messageFrameSizeBytes - got := by
  simp only [incoming, List.length_take]; omega

theorem incoming_append_drop (s : Session) (n got : Nat) :
    s.incoming n got ++ s.socket.drop (s.incoming n got).length = s.socket :=
  take_append_drop_length _ _

theorem AtFrame.arrive_eq {s : Session} {got : Nat} (h : s.AtFrame got) (n : Nat) :
    s.arrive n = { s with
      socket := s.socket.drop (s.incoming n got).length
      reads := [⟨.frame, 0, messageFrameSizeBytes, got + (s.incoming n got).length⟩]
      readBuf := overwrite got (s.incoming n got) s.readBuf } := by
  simp only [arrive, h.reads, incoming, Nat.zero_add]

theorem AtFrame.arrive {s : Session} {got : Nat} (h : s.AtFrame got) (n : Nat) :
    (s.arrive n).AtFrame (got + (s.incoming n got).length) := by
  have hle := s.length_incoming_le n got
  have hgot := h.got_le
  rw [h.arrive_eq]
  refine ⟨rfl, by omega, h.totalBytesRead, ?_⟩
  rw [length_overwrite (by rw [h.readBuf]; omega), h.readBuf]

theorem AtFrame.arrive_state {s : Session} {got : Nat} (h : s.AtFrame got) (n : Nat) :
    (s.arrive n).state = s.state := by rw [h.arrive_eq]

theorem AtChunk.arrive {s : Session} {got : Nat} (h : s.AtChunk got) (n : Nat) :
    (∃ got', (s.arrive n).AtChunk got') ∧ (s.arrive n).state = s.state := by
  have hgot := h.got_le
  simp only [Session.arrive, h.reads]
  refine ⟨⟨_, rfl, ?_, h.pos, h.totalBytesRead⟩, trivial⟩
  simp only [List.length_take]
  omega

theorem atFrame_startReadingFrames {s : Session} (hr : s.reads = []) (ht : s.totalBytesRead = 0)
    (hb : s.readBuf.length = messageFrameSizeBytes) : s.startReadingFrames.AtFrame 0 :=
  ⟨by simp [startReadingFrames, hr, ht], Nat.zero_le _, ht, hb⟩

theorem AtFrame.clearReadBuffer {s : Session} {got : Nat} (h : s.AtFrame got) :
    s.clearReadBuffer.AtFrame got :=
  ⟨h.reads, h.got_le, rfl, List.length_replicate⟩

/-- A frame read armed inside a callback survives the end of the callback. -/
theorem AtFrame.finish {s : Session} (h : s.AtFrame 0) (hst : s.state ≠ .closed) (n : Nat) :
    (∃ got, ((s.arrive n).finishFrame).AtFrame got) ∧
      ((s.arrive n).finishFrame).state = s.state := by
  have harr := h.arrive n
  have hst' : (s.arrive n).state ≠ .closed := by rw [h.arrive_state]; exact hst
  rw [finishFrame, if_pos hst']
  exact ⟨⟨_, harr.clearReadBuffer⟩, h.arrive_state n⟩

theorem startReadingChunks_of_pos {s : Session} {c : UInt32} (ht : s.totalBytesRead = 0)
    (hpos : chunkReadSize c ≠ 0) :
    s.startReadingChunks (UInt32.ofNat (c.toNat + fileHeaderSizeBytes)) =
      { s with reads := s.reads ++ [⟨.chunk, 0, chunkReadSize c, 0⟩] } := by
  have hpos' : (UInt32.ofNat (c.toNat + fileHeaderSizeBytes)).toNat ≠ 0 := hpos
  rw [startReadingChunks, ht, if_neg (Nat.not_lt_zero _), Nat.sub_zero, if_neg hpos']
  rfl

theorem startReadingChunks_of_zero {s : Session} {c : UInt32} (ht : s.totalBytesRead = 0)
    (hz : chunkReadSize c = 0) :
    s.startReadingChunks (UInt32.ofNat (c.toNat + fileHeaderSizeBytes)) = s := by
  have hz' : (UInt32.ofNat (c.toNat + fileHeaderSizeBytes)).toNat = 0 := hz
  rw [startReadingChunks, ht, if_neg (Nat.not_lt_zero _), Nat.sub_zero, if_pos hz']

theorem atChunk_startReadingChunks {s : Session} {c : UInt32} (hr : s.reads = [])
    (ht : s.totalBytesRead = 0) (hc : s.csize = c) (hpos : chunkReadSize c ≠ 0) :
    (s.startReadingChunks (UInt32.ofNat (c.toNat + fileHeaderSizeBytes))).AtChunk 0 := by
  subst hc
  rw [startReadingChunks_of_pos ht hpos, hr]
  exact ⟨rfl, Nat.zero_le _, hpos, ht⟩

/-! ### The callback of a full frame read -/

theorem AtFrame.completeRead_of_lt {s : Session} {got : Nat} (h : s.AtFrame got)
    (hlt : got ≠ messageFrameSizeBytes) (env : Env) (w : Window) : s.completeRead env w = s := by
  simp only [completeRead, h.reads, if_neg hlt]

/-- The session as the callback of a full frame read finds it. -/
def called (s : Session) : Session := { s with reads := [] }

@[simp] theorem called_state (s : Session) : s.called.state = s.state := rfl
@[simp] theorem called_readBuf (s : Session) : s.called.readBuf = s.readBuf := rfl

theorem AtFrame.completeRead_unprepared {s : Session} (h : s.AtFrame messageFrameSizeBytes)
    (hst : s.state = .unprepared) (env : Env) (w : Window) :
    s.completeRead env w = ((s.called.dispatchHandshake env).arrive w.afterSwitch).finishFrame := by
  have hr := h.reads
  have htot := h.totalBytesRead
  rcases s with ⟨_, _, _, _, _, _, _, _, _, _, _⟩
  subst hr htot hst
  simp only [completeRead, if_true, readMessageFrameCallback, Nat.zero_add, called]

theorem AtFrame.completeRead_established {s : Session} (h : s.AtFrame messageFrameSizeBytes)
    (hst : s.state = .established) (env : Env) (w : Window) :
    s.completeRead env w =
      match s.called.onReceiveStandardFrame env w with
      | (true, s) => s
      | (false, s) => s.finishFrame := by
  have hr := h.reads
  have htot := h.totalBytesRead
  rcases s with ⟨_, _, _, _, _, _, _, _, _, _, _⟩
  subst hr htot hst
  rcases hres : onReceiveStandardFrame env w _ with ⟨_ | _, s'⟩ <;>
  simp only [completeRead, if_true, readMessageFrameCallback, Nat.zero_add, reduceCtorEq,
    if_false, called] at hres ⊢ <;>
  simp only [hres]

/-- `readBuf` of a session with a frame in it, once a frame read is armed and `n` bytes of the next
frame have arrived: they lie over the frame. -/
def overlaid (s : Session) (n : Nat) : Bytes :=
  overwrite 0 (s.socket.take (min n messageFrameSizeBytes)) s.readBuf

theorem AtFrame.arrive_readBuf {s : Session} (h : s.AtFrame 0) (n : Nat) :
    (s.arrive n).readBuf = s.overlaid n := by
  rw [h.arrive_eq]; rfl

/-- Bytes that arrive in two goes arrive as in one. -/
theorem AtFrame.arrive_arrive {s : Session} {got : Nat} (h : s.AtFrame got) (n m : Nat) :
    (s.arrive n).arrive m = s.arrive (n + m) := by
  have hgot := h.got_le
  have hbuf := h.readBuf
  have hsplit : s.incoming (n + m) got =
      s.incoming n got ++ (s.arrive n).incoming m (got + (s.incoming n got).length) := by
    rw [h.arrive_eq]
    simp only [incoming, Nat.sub_add_eq]
    exact take_min_add s.socket n m (messageFrameSizeBytes - got)
  rw [(h.arrive n).arrive_eq, h.arrive_eq (n + m), hsplit, h.arrive_eq n]
  simp only [List.length_append, List.drop_drop, Nat.add_assoc]
  rw [overwrite_overwrite (by rw [hbuf]; exact hgot)]

/-! ### The two switches -/

theorem firstSwitch_eq {s : Session} (env : Env) (hb : s.readBuf.length = messageFrameSizeBytes)
    (hm : (getMsgHeader s.readBuf).msgType = BVTCPMessageType.chatMessage) :
    s.firstSwitch env = ((s.emit (.handed .chatMessage s.readBuf)).emit
      (.putMessageIntoAppMailbox (s.chatEvent env s.readBuf))).startReadingFrames := by
  have hne : s.readBuf ≠ [] := by intro h; simp [h] at hb
  rw [firstSwitch, if_pos hm, onReceiveChatMessageFrame, emit_readBuf, if_neg (not_not.mpr hm),
    getPayloadPtr, if_neg hne]
  rfl

/-- Without a chat message no read is armed before the second switch, and no byte can arrive. -/
theorem onReceiveStandardFrame_of_not_chat {s : Session} (hr : s.reads = [])
    (hm : (getMsgHeader s.readBuf).msgType ≠ BVTCPMessageType.chatMessage) (env : Env)
    (w : Window) :
    s.onReceiveStandardFrame env w = s.onReceiveStandardFrame env .quiet := by
  have hfirst : s.firstSwitch env = s := by rw [firstSwitch, if_neg hm]
  simp only [onReceiveStandardFrame, hfirst, arrive_of_no_reads hr]

/-- A session with a full frame, put back to before the frame was read. -/
def rewound (s : Session) : Session :=
  { s with
    reads := [⟨.frame, 0, messageFrameSizeBytes, 0⟩]
    socket := s.readBuf ++ s.socket }

theorem AtFrame.rewound_frameMode {s : Session} (h : s.AtFrame messageFrameSizeBytes) :
    s.rewound.FrameMode := ⟨rfl, h.totalBytesRead, h.readBuf⟩

/-- Away from chat frames a callback does what `readOnce` does, whatever arrives meanwhile. -/
theorem AtFrame.completeRead_of_not_chat {s : Session} (h : s.AtFrame messageFrameSizeBytes)
    (hst : s.state = .established)
    (hm : (getMsgHeader s.readBuf).msgType ≠ BVTCPMessageType.chatMessage) (env : Env)
    (w : Window) :
    s.completeRead env w = s.rewound.readOnce env := by
  rw [h.completeRead_established hst,
    onReceiveStandardFrame_of_not_chat (s := s.called) rfl hm env w,
    readOnce_of_established env h.rewound_frameMode hst rfl h.readBuf]
  rfl

end Session

end LocalChat
