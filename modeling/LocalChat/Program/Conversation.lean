import LocalChat.App.ChatLog
import LocalChat.App.Typing
import LocalChat.Session.Write
import LocalChat.World.Basic

/-!
# Two users chat

Two hosts have an established session and their users type at the console.  A submitted line goes
through `SendChatLine` into the user's own chat log and into the write buffer of the session; the
socket takes the bytes from there as it likes; the session of the other host reads them as they
arrive, and its mailbox thread adds what it is told to the other log.  Everything that the two
programs and the network do here can happen in any order.

* `Patient`: the two contracts of the session.  A line is submitted when the frame before has left
  the write buffer, and what arrives while a chat frame is handled is zero.
* `step_inv`: a patient step keeps every text on its way: the texts in the other log, those in the
  mailbox, the bytes in the read buffer, on the wire and in the write buffer are the texts in the
  own log, in order.
-/

namespace LocalChat

open Octets

/-! ### Two hosts -/

/-- What stays fixed while two hosts chat: their names, their managers and their sessions with each
other, which are found by the other's name and by no other. -/
structure Chatters where
  name : Side → Bytes
  manager : Side → BVTCPConnectionManager
  session : Side → SessionRef
  name_other : ∀ s, name s.other ≠ name s
  found : ∀ s serviceName,
    ((manager s).getSessionIDFromServiceName serviceName).bind (manager s).sessions.lookup =
      some (session s) ↔ serviceName = name s.other

structure Chatter where
  console : Console
  app : ChatApp
  write : WriteSide
  read : Session
  handled : Nat

inductive ChatAction
  /-- the io thread runs a task of the console at a time of the clock -/
  | task (now : UInt64) (t : Task)
  /-- the `i`-th pending write takes up to `n` bytes, which are on the wire then -/
  | take (i n : Nat)
  | complete (i : Nat)
  /-- the session reads -/
  | tick (t : Tick)
  /-- the mailbox thread handles the next chat message -/
  | listen

abbrev Conversation := Side → Chatter

namespace Chatter

/-- `SendChatLine` on a session; a line to someone else is written to another session. -/
def sendChatLine (m : BVTCPConnectionManager) (session : SessionRef) (now : UInt64)
    (serviceName line : Bytes) (x : Chatter) : Chatter :=
  match x.app.sendChatLine m now serviceName line with
  | (none, app) => { x with app := app }
  | (some (r, _), app) =>
    if r = session then
      { x with
        app := app
        write := x.write.writeMessageFrame (constructChatMessageFromInput now line) }
    else { x with app := app }

def perform (m : BVTCPConnectionManager) (session : SessionRef) (now : UInt64) (x : Chatter) :
    ConsoleEffect → Chatter
  | .sendChatLine serviceName line => x.sendChatLine m session now serviceName line
  | _ => x

def task (m : BVTCPConnectionManager) (session : SessionRef) (now : UInt64) (t : Task)
    (x : Chatter) : Chatter :=
  (x.console.effects t).foldl (perform m session now) { x with console := x.console.step t }

/-- `HandleMessageIncoming` on the next chat message. -/
def listen (x : Chatter) : Chatter :=
  match (chatsOf x.read.log)[x.handled]? with
  | none => x
  | some res => { x with app := x.app.handleMessageIncoming res, handled := x.handled + 1 }

def logWith (peer : Bytes) (x : Chatter) : List BVChatMessage :=
  (x.app.chatLogsM peer).getD []

end Chatter

def sentBy (sender : Bytes) (log : List BVChatMessage) : List BVChatMessage :=
  log.filter fun m => m.sender = sender

namespace Conversation

variable (p : Chatters)

def start (rootdir : Side → Bytes) (files : Side → Files) : Conversation := fun s =>
  { console := .start (rootdir s) (files s)
    app := ⟨p.name s, fun _ => none⟩
    write := { WriteSide.construct with state := .established }
    read := .idle (p.name s) (p.name s.other) []
    handled := 0 }

def step (c : Conversation) : Side × ChatAction → Conversation
  | (s, .task now t) => Function.update c s ((c s).task (p.manager s) (p.session s) now t)
  | (s, .take i n) =>
    let w := (c s).write.takeBytes i n
    let y := c s.other
    -- what has been taken arrives at the other socket
    Function.update (Function.update c s { c s with write := w }) s.other
      { y with read := { y.read with
          socket := y.read.socket ++ w.wire.drop (c s).write.wire.length } }
  | (s, .complete i) => Function.update c s { c s with write := (c s).write.completeWrite i }
  | (s, .tick t) => Function.update c s { c s with read := (c s).read.step t }
  | (s, .listen) => Function.update c s (c s).listen

/-- A line is submitted when no write has bytes to take, a write handler runs when no other write
has, and what arrives while a chat frame is handled is zero. -/
def Patient (c : Conversation) : Side × ChatAction → Prop
  | (s, .task _ t) =>
    (∃ name line, .sendChatLine name line ∈ (c s).console.effects t) → (c s).write.Drained
  | (_, .take _ _) => True
  | (s, .complete i) => (c s).write.Safe (.complete i)
  | (s, .tick t) => (c s).read.WipesNothing t
  | (_, .listen) => True

def own (c : Conversation) (s : Side) : List BVChatMessage :=
  sentBy (p.name s) ((c s).logWith (p.name s.other))

/-- What `s` has sent, by the log of the other host. -/
def heard (c : Conversation) (s : Side) : List BVChatMessage :=
  sentBy (p.name s) ((c s.other).logWith (p.name s))

end Conversation

/-! ### The two ends of a session -/

namespace BVChatMessage

def message (m : BVChatMessage) : BVTCPMessage :=
  constructChatMessageFromInput m.timestamp m.textData

def frame (m : BVChatMessage) : Bytes := messageFrame m.message

/-- A message as it arrives: the frame has room for 128 bytes of the text. -/
def cut (m : BVChatMessage) : BVChatMessage :=
  { m with textData := m.textData.take payloadSizeBytes }

end BVChatMessage

namespace WriteSide

/-- `ms` have been handed to `WriteMessageFrame`, and none of them is damaged. -/
structure Sending (ms : List BVChatMessage) (w : WriteSide) : Prop where
  faithful : w.Faithful
  length : w.length = messageFrameSizeBytes
  calls : w.calls = ms.map BVChatMessage.message

variable {ms : List BVChatMessage} {w : WriteSide}

theorem Sending.write (h : w.Sending ms) (hd : w.Drained) (m : BVChatMessage) :
    (w.writeMessageFrame m.message).Sending (ms ++ [m]) ∧
      (w.writeMessageFrame m.message).unsent = w.unsent ++ m.frame := by
  have hlen : w.length ≠ 0 := by
    rw [h.length]
    decide
  have hnext := (write_faithful h.faithful hd hlen m.message).1
  refine ⟨⟨hnext, h.length, ?_⟩, ?_⟩
  · show w.calls ++ [m.message] = _
    rw [h.calls, List.map_append]
    rfl
  · have hbytes := hnext.bytes
    have hcalls : (w.writeMessageFrame m.message).calls = w.calls ++ [m.message] := rfl
    have hwire : (w.writeMessageFrame m.message).wire = w.wire := rfl
    rw [hcalls, hwire, List.flatMap_append, ← h.faithful.bytes, List.append_assoc] at hbytes
    rw [List.append_cancel_left hbytes, List.flatMap_singleton]
    rfl

theorem takeBytes_frame (i n : Nat) (w : WriteSide) :
    (w.takeBytes i n).length = w.length ∧ ∃ d, (w.takeBytes i n).wire = w.wire ++ d := by
  unfold takeBytes
  split
  · exact ⟨rfl, [], (List.append_nil _).symm⟩
  · exact ⟨rfl, _, rfl⟩

/-- What is taken is the next part of what was to be taken. -/
theorem Sending.take (h : w.Sending ms) (i n : Nat) :
    (w.takeBytes i n).Sending ms ∧
      (w.takeBytes i n).wire.drop w.wire.length ++ (w.takeBytes i n).unsent = w.unsent := by
  obtain ⟨hlen, d, hwire⟩ := takeBytes_frame i n w
  have hnext := take_faithful h.faithful i n
  have hcalls := takeBytes_calls i n w
  refine ⟨⟨hnext, hlen.trans h.length, hcalls.trans h.calls⟩, ?_⟩
  have hbytes := hnext.bytes
  rw [hcalls, hwire, ← h.faithful.bytes, List.append_assoc] at hbytes
  rw [hwire, List.drop_left]
  exact List.append_cancel_left hbytes

theorem completeWrite_frame (i : Nat) (w : WriteSide) :
    (w.completeWrite i).wire = w.wire ∧
      (w.length = messageFrameSizeBytes → (w.completeWrite i).length = messageFrameSizeBytes) := by
  unfold completeWrite
  split
  · exact ⟨rfl, id⟩
  · split
    · unfold writeMessageFrameCallback
      dsimp only
      split
      · split
        · exact ⟨rfl, fun _ => rfl⟩
        · exact ⟨rfl, id⟩
      · exact ⟨rfl, id⟩
    · exact ⟨rfl, id⟩

theorem Sending.complete (h : w.Sending ms) {i : Nat} (hsafe : w.Safe (.complete i)) :
    (w.completeWrite i).Sending ms ∧ (w.completeWrite i).unsent = w.unsent := by
  obtain ⟨hwire, hlen⟩ := completeWrite_frame i w
  have hnext := complete_faithful h.faithful hsafe
  have hcalls := completeWrite_calls i w
  refine ⟨⟨hnext, hlen h.length, hcalls.trans h.calls⟩, ?_⟩
  have hbytes := hnext.bytes
  rw [hcalls, hwire, ← h.faithful.bytes] at hbytes
  exact List.append_cancel_left hbytes

/-- A write that takes as much as it can leaves nothing. -/
theorem Sending.drain (h : w.Sending ms) :
    (w.takeBytes (w.pending.length - 1) messageFrameSizeBytes).unsent = [] := by
  obtain hpending | ⟨ops, op, hpending⟩ := List.eq_nil_or_concat w.pending
  · rw [hpending]
    have hnone : w.takeBytes (([] : List WriteOp).length - 1) messageFrameSizeBytes = w := by
      rw [takeBytes, hpending]
      rfl
    rw [hnone, unsent, hpending]
    rfl
  · rw [List.concat_eq_append] at hpending
    have hearlier := h.faithful.earlier
    have hsize := h.faithful.sizes op (by rw [hpending]; simp)
    rw [hpending, List.dropLast_concat] at hearlier
    have hall : ((w.buf.take op.size).drop op.taken).take messageFrameSizeBytes =
        (w.buf.take op.size).drop op.taken := by
      apply List.take_of_length_le
      rw [List.length_drop, List.length_take, hsize]
      omega
    have hlen : w.pending.length - 1 = ops.length := by
      rw [hpending, List.length_append, List.length_singleton, Nat.add_sub_cancel]
    rw [hlen, takeBytes_latest hpending, hall, unsent]
    simp only [List.flatMap_append, flatMap_rest_of_done hearlier, List.nil_append,
      List.flatMap_singleton]
    rw [List.drop_eq_nil_iff, List.length_drop]
    omega

end WriteSide

namespace Session

/-- Of the messages `ms` of `sender` the session has handed over `k`.  The bytes of the others are
in its read buffer, which has `got` of them, in its socket and in `tail`. -/
structure Hearing (sender : Bytes) (ms : List BVChatMessage) (tail : Bytes) (k got : Nat)
    (s : Session) : Prop where
  atFrame : s.AtFrame got
  state : s.state = .established
  serviceName : s.serviceName = sender
  le : k ≤ ms.length
  handed : chatsOf s.log = (ms.take k).map BVChatMessage.cut
  bytes : s.readBuf.take got ++ s.socket ++ tail = (ms.drop k).flatMap BVChatMessage.frame

variable {sender : Bytes} {ms : List BVChatMessage} {tail : Bytes} {k got : Nat} {s : Session}

theorem Hearing.length_chats (h : s.Hearing sender ms tail k got) :
    (chatsOf s.log).length = k := by
  rw [h.handed, List.length_map, List.length_take, Nat.min_eq_left h.le]

theorem Hearing.extend (h : s.Hearing sender ms tail k got) (m : BVChatMessage) :
    s.Hearing sender (ms ++ [m]) (tail ++ m.frame) k got := by
  refine ⟨h.atFrame, h.state, h.serviceName, ?_, ?_, ?_⟩
  · rw [List.length_append]
    exact Nat.le_add_right_of_le h.le
  · rw [List.take_append_of_le_length h.le, h.handed]
  · rw [List.drop_append_of_le_length h.le, List.flatMap_append, ← h.bytes, List.flatMap_singleton,
      List.append_assoc _ tail]

theorem Hearing.supply {d : Bytes} (h : s.Hearing sender ms (d ++ tail) k got) :
    { s with socket := s.socket ++ d }.Hearing sender ms tail k got := by
  refine ⟨⟨h.atFrame.reads, h.atFrame.got_le, h.atFrame.totalBytesRead, h.atFrame.readBuf⟩,
    h.state, h.serviceName, h.le, h.handed, ?_⟩
  rw [← h.bytes]
  simp only [List.append_assoc]

theorem Hearing.arrive (h : s.Hearing sender ms tail k got) (n : Nat) :
    (s.arrive n).Hearing sender ms tail k (got + (s.incoming n got).length) := by
  have hbuf : got ≤ s.readBuf.length := by
    rw [h.atFrame.readBuf]
    exact h.atFrame.got_le
  have harr := h.atFrame.arrive_eq n
  refine ⟨h.atFrame.arrive n, ?_, ?_, h.le, ?_, ?_⟩
  · rw [harr]
    exact h.state
  · rw [harr]
    exact h.serviceName
  · rw [harr]
    exact h.handed
  · rw [harr]
    simp only [take_overwrite hbuf, List.append_assoc]
    rw [← List.append_assoc (s.incoming n got), s.incoming_append_drop, ← h.bytes,
      List.append_assoc]

/-- A full read holds the next message. -/
theorem Hearing.next (h : s.Hearing sender ms tail k messageFrameSizeBytes) :
    ∃ m rest, ms.drop k = m :: rest ∧ s.readBuf = m.frame ∧
      s.socket ++ tail = rest.flatMap BVChatMessage.frame := by
  have hbytes := h.bytes
  rw [List.take_of_length_le (Nat.le_of_eq h.atFrame.readBuf), List.append_assoc] at hbytes
  cases hdrop : ms.drop k with
  | nil =>
    rw [hdrop] at hbytes
    have hlen := congrArg List.length hbytes
    rw [List.length_append, h.atFrame.readBuf] at hlen
    simp [messageFrameSizeBytes] at hlen
  | cons m rest =>
    rw [hdrop, List.flatMap_cons] at hbytes
    have hlen : s.readBuf.length = m.frame.length := by
      rw [h.atFrame.readBuf, BVChatMessage.frame, length_messageFrame]
    obtain ⟨hbuf, hrest⟩ := List.append_inj hbytes hlen
    exact ⟨m, rest, rfl, hbuf, hrest⟩

/-- The callback of a full read hands the next message over. -/
theorem Hearing.complete (h : s.Hearing sender ms tail k messageFrameSizeBytes)
    (hline : ∀ m ∈ ms, m.sender = sender ∧ Console.IsLine m.textData) (env : Env) (w : Window)
    (hw : s.WipesNothing (.complete env w)) :
    ∃ got', (s.completeRead env w).Hearing sender ms tail (k + 1) got' := by
  obtain ⟨m, rest, hdrop, hbuf, hsock⟩ := h.next
  have hlt : k < ms.length := by
    have hlen := congrArg List.length hdrop
    rw [List.length_drop, List.length_cons] at hlen
    omega
  have hm : m = ms[k] := by
    rw [List.drop_eq_getElem_cons hlt] at hdrop
    exact (List.cons.inj hdrop).1.symm
  obtain ⟨hsender, hprint⟩ := hline m (hm ▸ List.getElem_mem hlt)
  have hbuf' : s.readBuf = (PeerFrame.chat m.timestamp m.textData).bytes := hbuf
  have htype : (getMsgHeader s.readBuf).msgType = BVTCPMessageType.chatMessage := by
    rw [hbuf']
    exact PeerFrame.msgType_bytes (.chat m.timestamp m.textData)
  have hzero : ∀ b ∈ s.incoming (w.beforeSwitch + w.afterSwitch) 0, b = 0 :=
    hw h.atFrame.reads htype
  -- a printable text is no file frame to the second switch, and zeros do not make it one
  have hno : isFileFrameType (at_ (s.overlaid w.beforeSwitch) 12) = false := by
    have hz : ∀ b ∈ s.socket.take (min w.beforeSwitch messageFrameSizeBytes), b = 0 :=
      fun b hb => hzero b (List.take_subset_take_left _ (by omega) hb)
    obtain h0 | h0 := at_overwrite_zeros (l := s.readBuf) hz 12
    · rw [overlaid, h0]
      rfl
    · rw [overlaid, h0, hbuf', fileType_chat]
      exact isFileFrameType_of_printable hprint.2
  have hchats := chatsOf_completeRead h.atFrame h.state hbuf env w
  have heq := completeRead_chat h.atFrame h.state htype env w hno
  have hle : (s.incoming (w.beforeSwitch + w.afterSwitch) 0).length ≤ messageFrameSizeBytes :=
    s.length_incoming_le _ 0
  refine ⟨(s.incoming (w.beforeSwitch + w.afterSwitch) 0).length, ?_, ?_, ?_, hlt, ?_, ?_⟩
  · rw [heq]
    exact ⟨rfl, hle, rfl, List.length_replicate⟩
  · rw [heq]
    exact h.state
  · rw [heq]
    exact h.serviceName
  · rw [hchats, h.handed, List.take_succ_eq_append_getElem hlt, List.map_append, ← hm]
    show _ = _ ++ [BVChatMessage.cut m]
    rw [BVChatMessage.cut, h.serviceName, ← hsender]
  · -- the cleared part of the buffer is the zero part of the next frame
    have hpre : List.replicate (s.incoming (w.beforeSwitch + w.afterSwitch) 0).length 0 =
        s.incoming (w.beforeSwitch + w.afterSwitch) 0 := (List.eq_replicate_of_mem hzero).symm
    have hrest : ms.drop (k + 1) = rest := by
      rw [← List.drop_drop, hdrop]
      rfl
    rw [heq, hrest, ← hsock]
    simp only [List.take_replicate]
    rw [Nat.min_eq_left hle, hpre, s.incoming_append_drop]

theorem Hearing.tick (h : s.Hearing sender ms tail k got)
    (hline : ∀ m ∈ ms, m.sender = sender ∧ Console.IsLine m.textData) {t : Tick}
    (hw : s.WipesNothing t) :
    ∃ k' got', k ≤ k' ∧ (s.step t).Hearing sender ms tail k' got' := by
  cases t with
  | arrive n => exact ⟨k, _, le_rfl, h.arrive n⟩
  | complete env w =>
    by_cases hgot : got = messageFrameSizeBytes
    · subst hgot
      obtain ⟨got', hnext⟩ := h.complete hline env w hw
      exact ⟨k + 1, got', Nat.le_succ k, hnext⟩
    · refine ⟨k, got, le_rfl, ?_⟩
      rw [step, h.atFrame.completeRead_of_lt hgot]
      exact h

end Session

/-! ### The logs -/

theorem sentBy_append (sender : Bytes) (l l' : List BVChatMessage) :
    sentBy sender (l ++ l') = sentBy sender l ++ sentBy sender l' :=
  List.filter_append _ _

theorem sender_of_mem_sentBy {sender : Bytes} {log : List BVChatMessage} {m : BVChatMessage}
    (h : m ∈ sentBy sender log) : m.sender = sender :=
  of_decide_eq_true (List.mem_filter.mp h).2

namespace Chatter

variable {x : Chatter}

theorem logWith_addMessage (peer serviceName : Bytes) (msg : BVChatMessage) (a : ChatApp) :
    (((a.addMessage serviceName msg).chatLogsM peer).getD []) =
      (a.chatLogsM peer).getD [] ++ if serviceName = peer then [msg] else [] := by
  unfold ChatApp.addMessage
  by_cases h : serviceName = peer
  · subst h
    simp
  · rw [if_neg h, List.append_nil]
    exact congrArg (fun l : Option (List BVChatMessage) => l.getD [])
      (Function.update_of_ne (Ne.symm h) _ _)

/-- All `SendChatLine` does on the session with `peer`: nothing, a line to someone else, or one more
message of the own log that goes into the write buffer. -/
theorem sendChatLine_cases {m : BVTCPConnectionManager} {session : SessionRef} {peer : Bytes}
    (hfound : ∀ serviceName,
      (m.getSessionIDFromServiceName serviceName).bind m.sessions.lookup = some session ↔
        serviceName = peer)
    (now : UInt64) (serviceName line : Bytes) (x : Chatter) :
    x.sendChatLine m session now serviceName line = x ∨
      (serviceName ≠ peer ∧ x.sendChatLine m session now serviceName line =
        { x with app := x.app.addMessage serviceName ⟨line, x.app.hostname, now⟩ }) ∨
      x.sendChatLine m session now serviceName line =
        { x with
          app := x.app.addMessage peer ⟨line, x.app.hostname, now⟩
          write := x.write.writeMessageFrame (constructChatMessageFromInput now line) } := by
  cases hsend : x.app.sendChatLine m now serviceName line with
  | mk frame app =>
    cases frame with
    | none =>
      left
      have happ : app = x.app := by
        unfold ChatApp.sendChatLine ChatApp.sendText at hsend
        split at hsend
        · exact (Prod.mk.inj hsend).2.symm
        · split at hsend
          · exact (Prod.mk.inj hsend).2.symm
          · split at hsend
            · exact (Prod.mk.inj hsend).2.symm
            · cases hsend
      unfold sendChatLine
      rw [hsend, happ]
    | some target =>
      right
      obtain ⟨r, frame⟩ := target
      have happ := (@ChatApp.send_spec .console _ _ _ _ _ _ _ _ hsend).2
      have hr : (m.getSessionIDFromServiceName serviceName).bind m.sessions.lookup = some r := by
        unfold ChatApp.sendChatLine ChatApp.sendText at hsend
        split at hsend
        · cases hsend
        · split at hsend
          · cases hsend
          · next sid hsid =>
            split at hsend
            · cases hsend
            · next r' hr' =>
              cases hsend
              rw [hsid]
              exact hr'
      unfold sendChatLine
      rw [hsend]
      dsimp only
      by_cases heq : r = session
      · right
        rw [if_pos heq, happ, (hfound serviceName).mp (heq ▸ hr)]
      · left
        refine ⟨fun hname => heq ?_, by rw [if_neg heq, happ]⟩
        rw [(hfound serviceName).mpr hname] at hr
        exact (Option.some.inj hr).symm

/-- All a task of the console does. -/
theorem task_cases {m : BVTCPConnectionManager} {session : SessionRef} {peer : Bytes}
    (hfound : ∀ serviceName,
      (m.getSessionIDFromServiceName serviceName).bind m.sessions.lookup = some session ↔
        serviceName = peer)
    (now : UInt64) (t : Task) (x : Chatter) :
    x.task m session now t = { x with console := x.console.step t } ∨
      (∃ serviceName line, serviceName ≠ peer ∧ x.task m session now t =
        { x with
          console := x.console.step t
          app := x.app.addMessage serviceName ⟨line, x.app.hostname, now⟩ }) ∨
      ∃ serviceName line, .sendChatLine serviceName line ∈ x.console.effects t ∧
        x.task m session now t =
          { x with
            console := x.console.step t
            app := x.app.addMessage peer ⟨line, x.app.hostname, now⟩
            write := x.write.writeMessageFrame (constructChatMessageFromInput now line) } := by
  obtain ⟨e, he, -⟩ := x.console.exists_effect t
  unfold task
  rw [he]
  cases e with
  | none => exact .inl rfl
  | some e =>
    cases e with
    | offer offer => exact .inl rfl
    | respondToFileOffer serviceName key accept => exact .inl rfl
    | sendMessage event => exact .inl rfl
    | sendChatLine serviceName line =>
      show (sendChatLine m session now serviceName line { x with console := x.console.step t } = _ ∨
        _)
      obtain hnone | ⟨hne, hother⟩ | hown := sendChatLine_cases hfound now serviceName line
        { x with console := x.console.step t }
      · exact .inl hnone
      · exact .inr (.inl ⟨serviceName, line, hne, hother⟩)
      · exact .inr (.inr ⟨serviceName, line, Option.mem_toList.mpr rfl, hown⟩)

end Chatter

/-! ### The invariant -/

/-- One direction of a conversation, from `x`, whose name is `me`, to `y`, whose name is `peer`. -/
structure Direction (me peer : Bytes) (x y : Chatter) : Prop where
  hostname : x.app.hostname = me
  typed : x.console.Typed
  sending : x.write.Sending (sentBy me (x.logWith peer))
  lines : ∀ m ∈ sentBy me (x.logWith peer), Console.IsLine m.textData
  hearing : ∃ k got, y.read.Hearing me (sentBy me (x.logWith peer)) x.write.unsent k got
  handled_le : y.handled ≤ (chatsOf y.read.log).length
  handled : sentBy me (y.logWith me) = (chatsOf y.read.log).take y.handled

namespace Direction

variable {me peer : Bytes} {x x' y y' : Chatter}

theorem congr (h : Direction me peer x y) (hhost : x'.app.hostname = x.app.hostname)
    (htyped : x'.console.Typed) (hwrite : x'.write = x.write)
    (hown : sentBy me (x'.logWith peer) = sentBy me (x.logWith peer)) (hread : y'.read = y.read)
    (hhandled : y'.handled = y.handled)
    (hheard : sentBy me (y'.logWith me) = sentBy me (y.logWith me)) : Direction me peer x' y' := by
  refine ⟨hhost.trans h.hostname, htyped, ?_, ?_, ?_, ?_, ?_⟩
  · rw [hwrite, hown]
    exact h.sending
  · rw [hown]
    exact h.lines
  · rw [hwrite, hown, hread]
    exact h.hearing
  · rw [hread, hhandled]
    exact h.handled_le
  · rw [hheard, hread, hhandled]
    exact h.handled

theorem sentBy_logWith_addMessage {sender : Bytes} (serviceName : Bytes) {msg : BVChatMessage}
    (hne : msg.sender ≠ sender) (a : ChatApp) :
    sentBy sender (((a.addMessage serviceName msg).chatLogsM peer).getD []) =
      sentBy sender ((a.chatLogsM peer).getD []) := by
  rw [Chatter.logWith_addMessage, sentBy_append]
  split
  · have hnone : sentBy sender [msg] = [] := List.filter_eq_nil_iff.mpr (by simp [hne])
    rw [hnone, List.append_nil]
  · exact List.append_nil _

theorem task {m : BVTCPConnectionManager} {session : SessionRef} (h : Direction me peer x y)
    (hfound : ∀ serviceName,
      (m.getSessionIDFromServiceName serviceName).bind m.sessions.lookup = some session ↔
        serviceName = peer) (now : UInt64) (t : Task)
    (hpatient : (∃ name line, .sendChatLine name line ∈ x.console.effects t) → x.write.Drained) :
    Direction me peer (x.task m session now t) y := by
  obtain heq | ⟨serviceName, line, hne, heq⟩ | ⟨serviceName, line, hmem, heq⟩ :=
    Chatter.task_cases hfound now t x
  · rw [heq]
    exact h.congr rfl (h.typed.step t) rfl rfl rfl rfl rfl
  · rw [heq]
    refine h.congr rfl (h.typed.step t) rfl ?_ rfl rfl rfl
    show sentBy me (((x.app.addMessage serviceName _).chatLogsM peer).getD []) = _
    rw [Chatter.logWith_addMessage, if_neg hne, List.append_nil]
    rfl
  · -- the line is one more message of the own log
    have hown : sentBy me (((x.app.addMessage peer ⟨line, x.app.hostname, now⟩).chatLogsM
        peer).getD []) = sentBy me (x.logWith peer) ++ [⟨line, x.app.hostname, now⟩] := by
      rw [Chatter.logWith_addMessage, if_pos rfl, sentBy_append]
      have hone : sentBy me [⟨line, x.app.hostname, now⟩] = [⟨line, x.app.hostname, now⟩] :=
        List.filter_eq_self.mpr (by simp [h.hostname])
      rw [hone]
      rfl
    obtain ⟨hsending, hunsent⟩ :=
      h.sending.write (hpatient ⟨serviceName, line, hmem⟩) ⟨line, x.app.hostname, now⟩
    obtain ⟨k, got, hhearing⟩ := h.hearing
    rw [heq]
    refine ⟨h.hostname, h.typed.step t, ?_, ?_, ⟨k, got, ?_⟩, h.handled_le, h.handled⟩
    · show WriteSide.Sending (sentBy me (((x.app.addMessage peer _).chatLogsM peer).getD [])) _
      rw [hown]
      exact hsending
    · show ∀ m ∈ sentBy me (((x.app.addMessage peer _).chatLogsM peer).getD []), _
      rw [hown]
      intro m hm
      obtain hm | hm := List.mem_append.mp hm
      · exact h.lines m hm
      · rw [List.mem_singleton.mp hm]
        exact h.typed.isLine hmem
    · show Session.Hearing me (sentBy me (((x.app.addMessage peer _).chatLogsM peer).getD [])) _ k
        got y.read
      rw [hown]
      have hextended := hhearing.extend ⟨line, x.app.hostname, now⟩
      rw [← hunsent] at hextended
      exact hextended

theorem task_receiver {m : BVTCPConnectionManager} {session : SessionRef} {own : Bytes}
    (h : Direction me peer x y) (hhost : y.app.hostname = own) (hne : own ≠ me)
    (hfound : ∀ serviceName,
      (m.getSessionIDFromServiceName serviceName).bind m.sessions.lookup = some session ↔
        serviceName = me) (now : UInt64) (t : Task) :
    Direction me peer x (y.task m session now t) := by
  have hsender : ∀ line : Bytes, (⟨line, y.app.hostname, now⟩ : BVChatMessage).sender ≠ me :=
    fun line => hhost.symm ▸ hne
  obtain heq | ⟨serviceName, line, -, heq⟩ | ⟨serviceName, line, -, heq⟩ :=
    Chatter.task_cases hfound now t y
  · rw [heq]
    exact h.congr rfl h.typed rfl rfl rfl rfl rfl
  · rw [heq]
    exact h.congr rfl h.typed rfl rfl rfl rfl (sentBy_logWith_addMessage _ (hsender line) _)
  · rw [heq]
    exact h.congr rfl h.typed rfl rfl rfl rfl (sentBy_logWith_addMessage _ (hsender line) _)

theorem take (h : Direction me peer x y) (i n : Nat) :
    Direction me peer { x with write := x.write.takeBytes i n }
      { y with read := { y.read with
          socket := y.read.socket ++ (x.write.takeBytes i n).wire.drop x.write.wire.length } } := by
  obtain ⟨hsending, htaken⟩ := h.sending.take i n
  obtain ⟨k, got, hhearing⟩ := h.hearing
  rw [← htaken] at hhearing
  exact ⟨h.hostname, h.typed, hsending, h.lines, ⟨k, got, hhearing.supply⟩, h.handled_le, h.handled⟩

theorem complete (h : Direction me peer x y) {i : Nat} (hsafe : x.write.Safe (.complete i)) :
    Direction me peer { x with write := x.write.completeWrite i } y := by
  obtain ⟨hsending, hunsent⟩ := h.sending.complete hsafe
  refine ⟨h.hostname, h.typed, hsending, h.lines, ?_, h.handled_le, h.handled⟩
  show ∃ k got, y.read.Hearing me _ (x.write.completeWrite i).unsent k got
  rw [hunsent]
  exact h.hearing

theorem isChat (h : Direction me peer x y) :
    ∀ m ∈ sentBy me (x.logWith peer), m.sender = me ∧ Console.IsLine m.textData :=
  fun m hm => ⟨sender_of_mem_sentBy hm, h.lines m hm⟩

theorem tick (h : Direction me peer x y) {t : Tick} (hw : y.read.WipesNothing t) :
    Direction me peer x { y with read := y.read.step t } := by
  obtain ⟨k, got, hhearing⟩ := h.hearing
  obtain ⟨k', got', hle, hnext⟩ := hhearing.tick h.isChat hw
  have hhandled := h.handled_le
  rw [hhearing.length_chats] at hhandled
  refine ⟨h.hostname, h.typed, h.sending, h.lines, ⟨k', got', hnext⟩, ?_, ?_⟩
  · show y.handled ≤ (chatsOf (y.read.step t).log).length
    rw [hnext.length_chats]
    exact hhandled.trans hle
  · show sentBy me (y.logWith me) = (chatsOf (y.read.step t).log).take y.handled
    rw [h.handled, hhearing.handed, hnext.handed, ← List.map_take, ← List.map_take, List.take_take,
      List.take_take, Nat.min_eq_left hhandled, Nat.min_eq_left (hhandled.trans hle)]

/-- What a handled message adds. -/
theorem sender_of_chat (h : Direction me peer x y) {res : BVChatMessage}
    (hres : (chatsOf y.read.log)[y.handled]? = some res) : res.sender = me := by
  obtain ⟨k, got, hhearing⟩ := h.hearing
  have hmem := List.mem_of_getElem? hres
  rw [hhearing.handed] at hmem
  obtain ⟨m, hm, rfl⟩ := List.mem_map.mp hmem
  show m.sender = me
  exact sender_of_mem_sentBy (List.mem_of_mem_take hm)

theorem listen (h : Direction me peer x y) : Direction me peer x y.listen := by
  cases hres : (chatsOf y.read.log)[y.handled]? with
  | none =>
    have hsame : y.listen = y := by
      unfold Chatter.listen
      rw [hres]
    rw [hsame]
    exact h
  | some res =>
    have hsender := h.sender_of_chat hres
    obtain ⟨hlt, hget⟩ := List.getElem?_eq_some_iff.mp hres
    unfold Chatter.listen
    rw [hres]
    refine ⟨h.hostname, h.typed, h.sending, h.lines, h.hearing, hlt, ?_⟩
    show sentBy me (((y.app.addMessage res.sender res).chatLogsM me).getD []) =
      (chatsOf y.read.log).take (y.handled + 1)
    have hone : sentBy me [res] = [res] := List.filter_eq_self.mpr (by simp [hsender])
    rw [Chatter.logWith_addMessage, if_pos hsender, sentBy_append, hone,
      List.take_succ_eq_append_getElem hlt, hget]
    exact congrArg (· ++ [res]) h.handled

/-- The sender's own log is not touched by what it is told. -/
theorem listen_sender {z : Chatter} {own : Bytes} (h : Direction me peer x y)
    (hback : Direction peer own z x) (hne : peer ≠ me) : Direction me peer x.listen y := by
  cases hres : (chatsOf x.read.log)[x.handled]? with
  | none =>
    have hsame : x.listen = x := by
      unfold Chatter.listen
      rw [hres]
    rw [hsame]
    exact h
  | some res =>
    have hsender := hback.sender_of_chat hres
    unfold Chatter.listen
    rw [hres]
    exact h.congr rfl h.typed rfl (sentBy_logWith_addMessage _ (hsender.symm ▸ hne) _) rfl rfl rfl

end Direction

namespace Conversation

variable {p : Chatters} {c : Conversation}

def Inv (p : Chatters) (c : Conversation) : Prop :=
  ∀ s, Direction (p.name s) (p.name s.other) (c s) (c s.other)

theorem start_inv (p : Chatters) (rootdir : Side → Bytes) (files : Side → Files) :
    Inv p (start p rootdir files) := by
  intro s
  have hnone : (start p rootdir files s).logWith (p.name s.other) = [] := rfl
  have hfaithful := WriteSide.construct_faithful
  refine ⟨rfl, Console.start_typed _ _, ?_, ?_, ⟨0, 0, ?_⟩, Nat.zero_le _, rfl⟩
  · rw [hnone]
    exact ⟨⟨by simp [start], hfaithful.buf, hfaithful.length, hfaithful.totalBytesWritten,
      hfaithful.sizes, hfaithful.earlier, hfaithful.bytes⟩, rfl, rfl⟩
  · rw [hnone]
    simp [sentBy]
  · rw [hnone]
    refine ⟨.of_frameMode (Session.idle_frameMode _ _ _), rfl, ?_, Nat.zero_le _, rfl, rfl⟩
    show p.name s.other.other = p.name s
    rw [Side.other_other]

theorem inv_update {s : Side} {x : Chatter}
    (hsend : Direction (p.name s) (p.name s.other) x (c s.other))
    (hreceive : Direction (p.name s.other) (p.name s) (c s.other) x) :
    Inv p (Function.update c s x) := by
  intro u
  obtain rfl | rfl := Side.eq_or_eq_other s u
  · rw [Function.update_self, Function.update_of_ne (Side.other_ne u)]
    exact hsend
  · rw [Side.other_other, Function.update_self, Function.update_of_ne (Side.other_ne s)]
    exact hreceive

theorem Inv.back (h : Inv p c) (s : Side) :
    Direction (p.name s.other) (p.name s) (c s.other) (c s) := by
  have hother := h s.other
  rwa [Side.other_other] at hother

theorem step_inv (h : Inv p c) (a : Side × ChatAction) (hpatient : Patient c a) :
    Inv p (step p c a) := by
  obtain ⟨s, a⟩ := a
  have hsend := h s
  have hreceive := h.back s
  cases a with
  | task now t =>
    refine inv_update (hsend.task (p.found s) now t hpatient) ?_
    exact hreceive.task_receiver hsend.hostname (p.name_other s).symm (p.found s) now t
  | complete i =>
    refine inv_update (hsend.complete hpatient) ?_
    exact hreceive.congr rfl hreceive.typed rfl rfl rfl rfl rfl
  | tick t =>
    refine inv_update ?_ (hreceive.tick hpatient)
    exact hsend.congr rfl hsend.typed rfl rfl rfl rfl rfl
  | listen => exact inv_update (hsend.listen_sender hreceive (p.name_other s)) hreceive.listen
  | take i n =>
    have htake := hsend.take i n
    intro u
    obtain rfl | rfl := Side.eq_or_eq_other s u
    · show Direction _ _ (Function.update (Function.update c u _) u.other _ u)
        (Function.update (Function.update c u _) u.other _ u.other)
      rw [Function.update_of_ne (Side.ne_other u), Function.update_self, Function.update_self]
      exact htake
    · rw [Side.other_other]
      show Direction _ _ (Function.update (Function.update c s _) s.other _ s.other)
        (Function.update (Function.update c s _) s.other _ s)
      rw [Function.update_self, Function.update_of_ne (Side.ne_other s), Function.update_self]
      exact hreceive.congr rfl hreceive.typed rfl rfl rfl rfl rfl

end Conversation

end LocalChat
