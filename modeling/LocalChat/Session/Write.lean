import LocalChat.Session.Spec
import LocalChat.Lib.Runs

/-!
# The write side of a session

All messages of a session leave through one string, `writeBuf`.  `WriteMessageFrame` fills it and
starts an `async_write` on it, which reads the memory of the string at any moments until its
handler runs; later calls, the handler (`ClearWriteBuffer`) and `OnReceiveHelloFrame` (`erase`)
change the string meanwhile.  Neither of these moves it in memory.

* `Safe`: a step that changes `writeBuf` does so when every other write has taken all its bytes; a
  message is written into a non-empty `writeBuf`; and the HELLO handler erases `writeBuf` when the
  first byte of its reply has been taken.
* `Faithful`: what is on the wire and what the pending writes have still to take make up the
  messages, in the order of the calls.  `step_faithful`: a safe step keeps it.
* `wire_append_unsent`: so in every run of safe steps.
-/

namespace LocalChat

open Octets

/-- A started `async_write` of `size` bytes of `writeBuf`. -/
structure WriteOp where
  size : Nat
  taken : Nat
  deriving DecidableEq, Repr

def WriteOp.Done (op : WriteOp) : Prop := op.taken = op.size

instance (op : WriteOp) : Decidable op.Done := inferInstanceAs (Decidable (_ = _))

structure WriteSide where
  state : BVSessionState
  /-- the memory of `writeBuf`, which keeps its place -/
  buf : Bytes
  /-- `writeBuf.length()` -/
  length : Nat
  totalBytesWritten : Nat
  pending : List WriteOp
  wire : Bytes
  /-- the messages `WriteMessageFrame` has been called with -/
  calls : List BVTCPMessage
  deriving DecidableEq

namespace WriteSide

def construct : WriteSide where
  state := .unprepared
  buf := List.replicate messageFrameSizeBytes 0
  length := messageFrameSizeBytes
  totalBytesWritten := 0
  pending := []
  wire := []
  calls := []

/-- `WriteMessageFrame`.  It asserts that `writeBuf` is not empty; where assertions are compiled
out, an empty `writeBuf` starts a write of no bytes. -/
def writeMessageFrame (m : BVTCPMessage) (w : WriteSide) : WriteSide :=
  { w with
    totalBytesWritten := 0
    buf := overwrite 0 (messageFrame m) w.buf
    pending := w.pending ++ [⟨w.length, 0⟩]
    calls := w.calls ++ [m] }

def clearWriteBuffer (w : WriteSide) : WriteSide :=
  { w with
    buf := List.replicate messageFrameSizeBytes 0
    length := messageFrameSizeBytes
    totalBytesWritten := 0 }

/-- `writeBuf.erase()`: the length becomes 0, and a terminator is put at its front. -/
def eraseWriteBuf (w : WriteSide) : WriteSide :=
  { w with buf := overwrite 0 [0] w.buf, length := 0 }

def writeMessageFrameCallback (bytesTransferred : Nat) (w : WriteSide) : WriteSide :=
  let w := { w with totalBytesWritten := w.totalBytesWritten + bytesTransferred }
  if w.totalBytesWritten = w.length ∨ w.length = 0 ∨
      w.totalBytesWritten = messageFrameSizeBytes then
    if w.state ≠ .closed then w.clearWriteBuffer else w
  else { w with pending := w.pending ++ [⟨w.length, 0⟩] }

/-- The `i`-th pending write takes up to `n` bytes. -/
def takeBytes (i n : Nat) (w : WriteSide) : WriteSide :=
  match w.pending[i]? with
  | none => w
  | some op =>
    let d := ((w.buf.take op.size).drop op.taken).take n
    { w with
      wire := w.wire ++ d
      pending := w.pending.set i { op with taken := op.taken + d.length } }

/-- The io thread runs the handler of the `i`-th pending write, if that write is done. -/
def completeWrite (i : Nat) (w : WriteSide) : WriteSide :=
  match w.pending[i]? with
  | none => w
  | some op =>
    if op.Done then
      { w with pending := w.pending.eraseIdx i }.writeMessageFrameCallback op.size
    else w

/-- `OnReceiveHelloFrame` with the reply `m`; its write takes `n` bytes inside the call. -/
def onReceiveHelloFrame (m : BVTCPMessage) (n : Nat) (w : WriteSide) : WriteSide :=
  ((w.writeMessageFrame m).takeBytes w.pending.length n).eraseWriteBuf

end WriteSide

inductive WriteStep
  | write (m : BVTCPMessage)
  | take (i n : Nat)
  | complete (i : Nat)
  | hello (m : BVTCPMessage) (n : Nat)

namespace WriteSide

def step (w : WriteSide) : WriteStep → WriteSide
  | .write m => w.writeMessageFrame m
  | .take i n => w.takeBytes i n
  | .complete i => w.completeWrite i
  | .hello m n => w.onReceiveHelloFrame m n

/-- Every pending write has taken all its bytes. -/
def Drained (w : WriteSide) : Prop := ∀ op ∈ w.pending, op.Done

instance (w : WriteSide) : Decidable w.Drained :=
  inferInstanceAs (Decidable (∀ op ∈ w.pending, op.Done))

/-- The step changes `writeBuf` only where no write still needs its bytes, and writes a message only
into a `writeBuf` of full length. -/
def Safe (w : WriteSide) : WriteStep → Prop
  | .write _ => w.Drained ∧ w.length ≠ 0
  | .take _ _ => True
  | .complete i => (∃ op, w.pending[i]? = some op ∧ op.Done) → w.Drained
  | .hello m n => w.Drained ∧ w.length ≠ 0 ∧ (1 ≤ n ∨ m.header.dataLen = 0)

/-- What the pending writes have still to take. -/
def unsent (w : WriteSide) : Bytes :=
  w.pending.flatMap fun op => (w.buf.take op.size).drop op.taken

/-- The wire and what is still to come make up the messages. -/
structure Faithful (w : WriteSide) : Prop where
  state : w.state ≠ .closed
  buf : w.buf.length = messageFrameSizeBytes
  length : w.length = messageFrameSizeBytes ∨ w.length = 0
  totalBytesWritten : w.totalBytesWritten = 0
  sizes : ∀ op ∈ w.pending, op.size = messageFrameSizeBytes
  /-- only the latest write may have bytes to take -/
  earlier : ∀ op ∈ w.pending.dropLast, op.Done
  bytes : w.wire ++ w.unsent = w.calls.flatMap messageFrame

theorem construct_faithful : construct.Faithful :=
  ⟨by decide, rfl, .inl rfl, rfl, by simp [construct], by simp [construct], rfl⟩

/-! ### What is still to be taken -/

theorem rest_of_done {op : WriteOp} (h : op.Done) (buf : Bytes) :
    (buf.take op.size).drop op.taken = [] := by
  rw [h]
  exact List.drop_eq_nil_of_le (by rw [List.length_take]; omega)

theorem flatMap_rest_of_done {ops : List WriteOp} (h : ∀ op ∈ ops, op.Done) (buf : Bytes) :
    (ops.flatMap fun op => (buf.take op.size).drop op.taken) = [] := by
  rw [List.flatMap_eq_nil_iff]
  intro op hop
  exact rest_of_done (h op hop) buf

theorem Faithful.wire_of_drained {w : WriteSide} (h : w.Faithful) (hd : w.Drained) :
    w.wire = w.calls.flatMap messageFrame := by
  rw [← h.bytes, unsent, flatMap_rest_of_done hd, List.append_nil]

/-- A write that is not done is the latest one. -/
theorem Faithful.latest {w : WriteSide} (h : w.Faithful) {i : Nat} {op : WriteOp}
    (hop : w.pending[i]? = some op) (hnot : ¬ op.Done) :
    ∃ ops, w.pending = ops ++ [op] ∧ i = ops.length ∧ ∀ o ∈ ops, o.Done := by
  have hne : w.pending ≠ [] := by
    intro he
    rw [he] at hop
    cases hop
  have hsplit := List.dropLast_append_getLast hne
  have hi : i < w.pending.length := (List.getElem?_eq_some_iff.mp hop).1
  by_cases hlt : i < w.pending.dropLast.length
  · -- an earlier write would be done
    rw [← hsplit, List.getElem?_append_left hlt] at hop
    exact absurd (h.earlier op (List.mem_of_getElem? hop)) hnot
  · have hlen : i = w.pending.dropLast.length := by
      rw [List.length_dropLast] at hlt ⊢
      omega
    rw [← hsplit, hlen, List.getElem?_append_right le_rfl, Nat.sub_self] at hop
    have hlast : w.pending.getLast hne = op := by simpa using hop
    rw [hlast] at hsplit
    exact ⟨w.pending.dropLast, hsplit.symm, hlen, h.earlier⟩

/-! ### Steps -/

theorem write_faithful {w : WriteSide} (h : w.Faithful) (hd : w.Drained) (hlen : w.length ≠ 0)
    (m : BVTCPMessage) :
    (w.writeMessageFrame m).Faithful ∧
      (w.writeMessageFrame m).buf = messageFrame m ∧
      (w.writeMessageFrame m).pending = w.pending ++ [⟨messageFrameSizeBytes, 0⟩] := by
  have hfull : w.length = messageFrameSizeBytes := h.length.resolve_right hlen
  have hbuf : overwrite 0 (messageFrame m) w.buf = messageFrame m :=
    overwrite_of_length (by rw [length_messageFrame, h.buf])
  have hpending : (w.writeMessageFrame m).pending = w.pending ++ [⟨messageFrameSizeBytes, 0⟩] := by
    simp only [writeMessageFrame, hfull]
  refine ⟨⟨h.state, ?_, h.length, rfl, ?_, ?_, ?_⟩, hbuf, hpending⟩
  · show (overwrite 0 (messageFrame m) w.buf).length = messageFrameSizeBytes
    rw [hbuf, length_messageFrame]
  · intro op hop
    rw [hpending] at hop
    rcases List.mem_append.mp hop with hop | hop
    · exact h.sizes op hop
    · rw [List.mem_singleton.mp hop]
  · intro op hop
    rw [hpending, List.dropLast_concat] at hop
    exact hd op hop
  · have hrest : (w.writeMessageFrame m).unsent = messageFrame m := by
      rw [unsent, hpending, List.flatMap_append, flatMap_rest_of_done hd]
      show [] ++ ((overwrite 0 (messageFrame m) w.buf).take messageFrameSizeBytes ++ []) = _
      rw [hbuf, List.take_of_length_le (by rw [length_messageFrame])]
      simp
    rw [hrest]
    show w.wire ++ messageFrame m = (w.calls ++ [m]).flatMap messageFrame
    rw [h.wire_of_drained hd, List.flatMap_append]
    simp

theorem takeBytes_of_done {w : WriteSide} {i : Nat} {op : WriteOp} (hop : w.pending[i]? = some op)
    (hdone : op.Done) (n : Nat) : w.takeBytes i n = w := by
  have hi := List.getElem?_eq_some_iff.mp hop
  rw [takeBytes, hop]
  simp only [rest_of_done hdone, List.take_nil, List.append_nil, List.length_nil, Nat.add_zero]
  rw [show ({ op with taken := op.taken } : WriteOp) = op from rfl, ← hi.2, List.set_getElem_self]

theorem takeBytes_latest {w : WriteSide} {ops : List WriteOp} {op : WriteOp}
    (hpending : w.pending = ops ++ [op]) (n : Nat) :
    w.takeBytes ops.length n = { w with
      wire := w.wire ++ ((w.buf.take op.size).drop op.taken).take n
      pending := ops ++
        [⟨op.size, op.taken + (((w.buf.take op.size).drop op.taken).take n).length⟩] } := by
  have hop : w.pending[ops.length]? = some op := by
    rw [hpending, List.getElem?_append_right le_rfl, Nat.sub_self]
    rfl
  rw [takeBytes, hop]
  simp only [hpending]
  rw [List.set_append_right _ _ le_rfl, Nat.sub_self]
  rfl

theorem take_faithful {w : WriteSide} (h : w.Faithful) (i n : Nat) :
    (w.takeBytes i n).Faithful := by
  cases hop : w.pending[i]? with
  | none =>
    rw [takeBytes, hop]
    exact h
  | some op =>
    by_cases hdone : op.Done
    · rw [takeBytes_of_done hop hdone]
      exact h
    · obtain ⟨ops, hpending, rfl, hops⟩ := h.latest hop hdone
      rw [takeBytes_latest hpending]
      refine ⟨h.state, h.buf, h.length, h.totalBytesWritten, ?_, ?_, ?_⟩
      · intro o ho
        have hsizes := h.sizes
        rw [hpending] at hsizes
        rcases List.mem_append.mp ho with ho | ho
        · exact hsizes o (List.mem_append_left _ ho)
        · rw [List.mem_singleton.mp ho]
          exact hsizes op (List.mem_append_right _ (List.mem_singleton_self op))
      · intro o ho
        rw [List.dropLast_concat] at ho
        exact hops o ho
      · have hbytes := h.bytes
        rw [unsent, hpending, List.flatMap_append, flatMap_rest_of_done hops] at hbytes
        rw [unsent]
        simp only [List.flatMap_append, flatMap_rest_of_done hops, List.nil_append,
          List.flatMap_singleton] at hbytes ⊢
        rw [← hbytes, List.append_assoc, ← List.drop_drop, take_append_drop_length]

theorem complete_faithful {w : WriteSide} (h : w.Faithful) {i : Nat}
    (hd : (∃ op, w.pending[i]? = some op ∧ op.Done) → w.Drained) :
    (w.completeWrite i).Faithful := by
  cases hop : w.pending[i]? with
  | none =>
    rw [completeWrite, hop]
    exact h
  | some op =>
    rw [completeWrite, hop]
    by_cases hdone : op.Done
    · have hdrained := hd ⟨op, hop, hdone⟩
      have hsize := h.sizes op (List.mem_of_getElem? hop)
      have hleft : ∀ o ∈ w.pending.eraseIdx i, o.Done :=
        fun o ho => hdrained o (List.mem_of_mem_eraseIdx ho)
      -- the handler has counted a whole frame, and refills the buffer
      simp only [if_pos hdone, writeMessageFrameCallback, h.totalBytesWritten, hsize, Nat.zero_add,
        or_true, if_true, h.state, ne_eq, not_false_eq_true]
      refine ⟨h.state, List.length_replicate, .inl rfl, rfl, ?_, ?_, ?_⟩
      · exact fun o ho => h.sizes o (List.mem_of_mem_eraseIdx ho)
      · exact fun o ho => hleft o (List.dropLast_subset _ ho)
      · rw [unsent]
        simp only [clearWriteBuffer, flatMap_rest_of_done hleft, List.append_nil]
        exact h.wire_of_drained hdrained
    · simp only [if_neg hdone]
      exact h

/-- Erasing `writeBuf` changes its first byte only, which the latest write no longer needs. -/
theorem erase_faithful {w : WriteSide} (h : w.Faithful) {ops : List WriteOp} {op : WriteOp}
    (hpending : w.pending = ops ++ [op]) (hops : ∀ o ∈ ops, o.Done)
    (hfirst : 1 ≤ op.taken ∨ at_ w.buf 0 = 0) : w.eraseWriteBuf.Faithful := by
  have hbuf := h.buf
  obtain ⟨b, bs, hcons⟩ : ∃ b bs, w.buf = b :: bs :=
    List.exists_cons_of_length_pos (by rw [hbuf]; decide)
  have herase : w.eraseWriteBuf.buf = 0 :: bs := by
    simp [eraseWriteBuf, hcons, overwrite]
  have hsize : op.size = messageFrameSizeBytes :=
    h.sizes op (by rw [hpending]; exact List.mem_append_right _ (List.mem_singleton_self op))
  have hrest : (w.eraseWriteBuf.buf.take op.size).drop op.taken =
      (w.buf.take op.size).drop op.taken := by
    rw [herase, hcons, hsize]
    rcases hfirst with htaken | hzero
    · obtain ⟨k, hk⟩ := Nat.exists_eq_add_of_le' htaken
      rw [hk]
      rfl
    · rw [hcons, at_cons_zero] at hzero
      rw [hzero]
  refine ⟨h.state, ?_, .inr rfl, h.totalBytesWritten, h.sizes, h.earlier, ?_⟩
  · rw [herase, ← hbuf, hcons]
    rfl
  · have hunsent : w.eraseWriteBuf.unsent = w.unsent := by
      show (w.pending.flatMap fun o => (w.eraseWriteBuf.buf.take o.size).drop o.taken) =
        w.pending.flatMap fun o => (w.buf.take o.size).drop o.taken
      rw [hpending, List.flatMap_append, List.flatMap_append, flatMap_rest_of_done hops,
        flatMap_rest_of_done hops, List.flatMap_singleton, List.flatMap_singleton, hrest]
    rw [hunsent]
    exact h.bytes

theorem hello_faithful {w : WriteSide} (h : w.Faithful) (hd : w.Drained) (hlen : w.length ≠ 0)
    {m : BVTCPMessage} {n : Nat} (hfirst : 1 ≤ n ∨ m.header.dataLen = 0) :
    (w.onReceiveHelloFrame m n).Faithful := by
  obtain ⟨hwrite, hbuf, hpending⟩ := write_faithful h hd hlen m
  have htake := take_faithful hwrite w.pending.length n
  rw [onReceiveHelloFrame]
  have hlatest := takeBytes_latest hpending n
  have hshape : ((w.writeMessageFrame m).takeBytes w.pending.length n).pending =
      w.pending ++ [⟨messageFrameSizeBytes, min n messageFrameSizeBytes⟩] := by
    rw [hlatest, hbuf]
    simp
  refine erase_faithful htake hshape hd ?_
  rcases hfirst with hn | hzero
  · left
    show 1 ≤ min n messageFrameSizeBytes
    exact Nat.le_min.mpr ⟨hn, by decide⟩
  · right
    rw [hlatest]
    show at_ (w.writeMessageFrame m).buf 0 = 0
    rw [hbuf]
    exact hzero

theorem step_faithful {w : WriteSide} {a : WriteStep} (h : w.Faithful) (hsafe : w.Safe a) :
    (w.step a).Faithful := by
  cases a with
  | write m => exact (write_faithful h hsafe.1 hsafe.2 m).1
  | take i n => exact take_faithful h i n
  | complete i => exact complete_faithful h hsafe
  | hello m n => exact hello_faithful h hsafe.1 hsafe.2.1 hsafe.2.2

/-! ### Runs -/

def message : WriteStep → Option BVTCPMessage
  | .write m => some m
  | .hello m _ => some m
  | .take _ _ => none
  | .complete _ => none

theorem takeBytes_calls (i n : Nat) (w : WriteSide) : (w.takeBytes i n).calls = w.calls := by
  rw [takeBytes]
  split <;> rfl

theorem completeWrite_calls (i : Nat) (w : WriteSide) : (w.completeWrite i).calls = w.calls := by
  rw [completeWrite]
  split
  · rfl
  · split
    · simp only [writeMessageFrameCallback]
      split
      · split <;> rfl
      · rfl
    · rfl

theorem step_calls (w : WriteSide) (a : WriteStep) :
    (w.step a).calls = w.calls ++ (message a).toList := by
  cases a with
  | write m => rfl
  | take i n => rw [step, takeBytes_calls, message, Option.toList_none, List.append_nil]
  | complete i => rw [step, completeWrite_calls, message, Option.toList_none, List.append_nil]
  | hello m n =>
    show ((w.writeMessageFrame m).takeBytes w.pending.length n).calls = _
    rw [takeBytes_calls]
    rfl

theorem run_calls (steps : List WriteStep) :
    ∀ w : WriteSide, (Runs.run step w steps).calls = w.calls ++ steps.filterMap message := by
  induction steps with
  | nil => intro w; simp
  | cons a steps ih =>
    intro w
    rw [Runs.run_cons, ih, step_calls, List.append_assoc]
    cases h : message a <;> simp [h]

/-- **Nothing sent is lost, duplicated or overwritten** in a run of safe steps: the wire and what
the pending writes have still to take are the encodings of the messages, in the order of the calls;
and the wire alone is, once no write has bytes to take. -/
theorem wire_append_unsent (steps : List WriteStep)
    (hsafe : Runs.Meets step Safe construct steps) :
    (Runs.run step construct steps).wire ++ (Runs.run step construct steps).unsent =
        (steps.filterMap message).flatMap messageFrame ∧
      ((Runs.run step construct steps).Drained →
        (Runs.run step construct steps).wire =
          (steps.filterMap message).flatMap messageFrame) := by
  have hfaithful : (Runs.run step construct steps).Faithful :=
    Runs.run_invariant (I := Faithful)
      (fun w a h hok => step_faithful h hok) construct_faithful hsafe
  have hcalls : (Runs.run step construct steps).calls = steps.filterMap message :=
    run_calls steps construct
  rw [← hcalls]
  exact ⟨hfaithful.bytes, hfaithful.wire_of_drained⟩

abbrev chatHi : BVTCPMessage := constructChatMessageFromInput 0 [104, 105]
abbrev chatYo : BVTCPMessage := constructChatMessageFromInput 0 [121, 111]

/-- The second message is written when the first has been taken, and before its handler has run. -/
theorem wire_two_messages :
    (Runs.run step construct
        [.write chatHi, .take 0 138, .write chatYo, .take 1 138, .complete 0]).wire =
      messageFrame chatHi ++ messageFrame chatYo := by
  have h := (wire_append_unsent
    [.write chatHi, .take 0 138, .write chatYo, .take 1 138, .complete 0]
    ⟨⟨by decide, by decide⟩, trivial, ⟨by decide +kernel, by decide +kernel⟩, trivial,
      fun _ => by decide +kernel, trivial⟩).2 (by decide +kernel)
  rw [h]
  rfl

/-- The second message is written before the first has been taken: it is sent twice, and the first
one not at all. -/
theorem message_overwritten :
    (Runs.run step construct [.write chatHi, .write chatYo, .take 0 138, .take 1 138]).wire =
        messageFrame chatYo ++ messageFrame chatYo ∧
      (Runs.run step construct [.write chatHi, .write chatYo, .take 0 138, .take 1 138]).wire ≠
        ([.write chatHi, .write chatYo, .take 0 138, .take 1 138].filterMap message).flatMap
          messageFrame := by
  decide +kernel

end WriteSide

/-- The HELLO handler of a session calls `WriteMessageFrame` and then erases `writeBuf`. -/
theorem onReceiveHelloFrame_log {s : Session} (env : Env)
    (h : at_ s.readBuf 16 = BVTCPMessageType.hello) :
    (s.onReceiveHelloFrame env).log = s.log ++
      [.writeMessageFrame (Session.replyMsg env s.thisMachineServiceName), .eraseWriteBuf] := by
  rw [Session.onReceiveHelloFrame, if_neg (not_not.mpr h)]
  simp [Session.startReadingFrames, Session.emit]

end LocalChat
