import LocalChat.Session.Outstanding

/-!
# Frames that arrive at any time

The chat handler starts the read of the next frame into `readBuf` while its caller goes on
using that buffer and at last clears it.  `WipesNothing` is the contract this asks of the
timing: whatever part of the next frame has arrived when a chat callback clears the buffer
is zero anyway.

* `Progress frames s`: some of `frames` have been handed to their handlers, once each, in
  order and unaltered, and the bytes of the others are still to come.
* `step_progress`: a step that wipes nothing keeps `Progress`.
* `handed_in_order`: so does every run, and a run can always be continued to the end of
  the frames.
-/

namespace LocalChat

open Octets

namespace PeerFrame

def unit (f : PeerFrame) : Handler × Bytes := (f.handler, f.bytes)

/-- A chat text is printable. -/
def Printable : PeerFrame → Prop
  | chat _ text => ∀ b ∈ text, isprint b = true
  | _ => True

/-- The timestamp of a file frame does not show the chat type under the message layout, as it
would from 5 * 2^40 ms on. -/
def Undisguised : PeerFrame → Prop
  | chat _ _ => True
  | offer now _ _ _ _ => UInt8.ofNat (now.toNat / 256 ^ 5) ≠ BVTCPMessageType.chatMessage
  | verdict now _ _ => UInt8.ofNat (now.toNat / 256 ^ 5) ≠ BVTCPMessageType.chatMessage

def stream (fs : List PeerFrame) : Bytes := fs.flatMap bytes

@[simp] theorem stream_cons (f : PeerFrame) (fs : List PeerFrame) :
    stream (f :: fs) = f.bytes ++ stream fs := rfl

end PeerFrame

namespace Session

/-- The step is not the callback of a chat frame, or every byte of the next frame that arrives
before its end is zero. -/
def WipesNothing (s : Session) : Tick → Prop
  | .arrive _ => True
  | .complete _ w =>
    s.reads = [⟨.frame, 0, messageFrameSizeBytes, messageFrameSizeBytes⟩] →
    (getMsgHeader s.readBuf).msgType = BVTCPMessageType.chatMessage →
      ∀ b ∈ s.socket.take (min (w.beforeSwitch + w.afterSwitch) messageFrameSizeBytes), b = 0

/-- `done` has been handed over and `rest` is still to come, with its first `got` bytes already in
the read buffer. -/
structure Progress (done rest : List PeerFrame) (got : Nat) (s : Session) : Prop where
  atFrame : s.AtFrame got
  state : s.state = .established
  handed : handedUnits s.log = done.map PeerFrame.unit
  unread : s.readBuf.take got ++ s.socket = PeerFrame.stream rest

theorem isFileFrameType_of_printable {text : Bytes} (h : ∀ b ∈ text, isprint b = true) :
    isFileFrameType (at_ text 2) = false := by
  by_cases hlt : 2 < text.length
  · have hp := h _ (at_mem hlt)
    simp only [isprint, Bool.and_eq_true, decide_eq_true_eq] at hp
    have hne : ∀ c : UInt8, c < 32 → at_ text 2 ≠ c := by
      intro c hc he
      rw [he] at hp
      exact absurd hp.1 (UInt8.not_le.mpr hc)
    simp [isFileFrameType, hne 6 (by decide), hne 9 (by decide), hne 10 (by decide),
      hne 11 (by decide)]
  · rw [at_of_length_le (by omega)]; rfl

/-! ### Steps -/

theorem Progress.arrive {done rest : List PeerFrame} {got : Nat} {s : Session}
    (h : Progress done rest got s) (n : Nat) :
    Progress done rest (got + (s.incoming n got).length) (s.arrive n) := by
  have hbuf : got ≤ s.readBuf.length := by rw [h.atFrame.readBuf]; exact h.atFrame.got_le
  refine ⟨h.atFrame.arrive n, ?_, ?_, ?_⟩
  · rw [h.atFrame.arrive_state]; exact h.state
  · rw [h.atFrame.arrive_eq]; exact h.handed
  · rw [h.atFrame.arrive_eq]
    simp only [take_overwrite hbuf, List.append_assoc, s.incoming_append_drop, h.unread]

theorem Progress.next {done rest : List PeerFrame} {s : Session}
    (h : Progress done rest messageFrameSizeBytes s) :
    ∃ f fs, rest = f :: fs ∧ s.readBuf = f.bytes ∧ s.socket = PeerFrame.stream fs := by
  have hu := h.unread
  rw [List.take_of_length_le (by rw [h.atFrame.readBuf])] at hu
  cases rest with
  | nil =>
    have hlen := congrArg List.length hu
    simp [PeerFrame.stream, h.atFrame.readBuf] at hlen
  | cons f fs =>
    rw [PeerFrame.stream_cons] at hu
    obtain ⟨h1, h2⟩ := List.append_inj hu (by rw [h.atFrame.readBuf, PeerFrame.length_bytes])
    exact ⟨f, fs, rfl, h1, h2⟩

/-- The end of a chat callback that the second switch does not interfere with: the next frame is
being read and the buffer is cleared. -/
theorem completeRead_chat {s : Session} (h : s.AtFrame messageFrameSizeBytes)
    (hst : s.state = .established)
    (hm : (getMsgHeader s.readBuf).msgType = BVTCPMessageType.chatMessage) (env : Env) (w : Window)
    (hno : isFileFrameType (at_ (s.overlaid w.beforeSwitch) 12) = false) :
    s.completeRead env w =
      { s with
        log := s.log ++ [.handed .chatMessage s.readBuf,
          .putMessageIntoAppMailbox (s.chatEvent env s.readBuf)]
        reads := [⟨.frame, 0, messageFrameSizeBytes,
          (s.incoming (w.beforeSwitch + w.afterSwitch) 0).length⟩]
        socket := s.socket.drop (s.incoming (w.beforeSwitch + w.afterSwitch) 0).length
        readBuf := List.replicate messageFrameSizeBytes 0
        totalBytesRead := 0 } := by
  obtain ⟨harm, hstate, hover⟩ :=
    firstSwitch_chat (s := s.called) env rfl h.totalBytesRead h.readBuf hm
  have hopen : ((s.called.firstSwitch env).arrive (w.beforeSwitch + w.afterSwitch)).state =
      .established := by rw [harm.arrive_state, hstate]; exact hst
  have hres : s.completeRead env w =
      ((s.called.firstSwitch env).arrive (w.beforeSwitch + w.afterSwitch)).clearReadBuffer := by
    rw [h.completeRead_established hst]
    rcases onReceiveStandardFrame_cases (s := s.called) env w rfl
      (harm.arrive_arrive w.beforeSwitch w.afterSwitch) with ⟨-, he⟩ | ⟨hb, -⟩ | ⟨hb, -⟩
    · simp only [he, finishFrame, hopen, ne_eq, reduceCtorEq, not_false_eq_true, if_true]
    all_goals
      rw [harm.arrive_readBuf, hover,
        show s.called.overlaid w.beforeSwitch = s.overlaid w.beforeSwitch from rfl] at hb
    · exact absurd hno (not_isFileFrameType_fileTransferBegin hb)
    · exact absurd hno (isFileFrameType_of_frame_case hb).1
  have htot := h.totalBytesRead
  rw [hres, harm.arrive_eq, firstSwitch_eq (s := s.called) env h.readBuf hm]
  simp [clearReadBuffer, startReadingFrames, emit, called, chatEvent, incoming]

/-- Where only zeros have arrived, the cleared buffer still begins with what has arrived. -/
theorem take_cleared {s : Session} (n : Nat) (hzero : ∀ b ∈ s.incoming n 0, b = 0) :
    (List.replicate messageFrameSizeBytes 0).take (s.incoming n 0).length ++
      s.socket.drop (s.incoming n 0).length = s.socket := by
  have hle : (s.incoming n 0).length ≤ messageFrameSizeBytes := s.length_incoming_le n 0
  have hpre : List.replicate (s.incoming n 0).length 0 = s.incoming n 0 :=
    (List.eq_replicate_of_mem hzero).symm
  rw [List.take_replicate, Nat.min_eq_left hle, hpre, s.incoming_append_drop]

/-- The callback of a chat frame hands it over; what has arrived of the next frame by then is zero
and so is the cleared buffer. -/
theorem Progress.complete_chat {done fs : List PeerFrame} {s : Session} {now : UInt64}
    {text : Bytes}
    (h : Progress done (.chat now text :: fs) messageFrameSizeBytes s)
    (hbuf : s.readBuf = (PeerFrame.chat now text).bytes) (hsock : s.socket = PeerFrame.stream fs)
    (hp : (PeerFrame.chat now text).Printable) (env : Env) (w : Window)
    (hw : s.WipesNothing (.complete env w)) :
    ∃ got, Progress (done ++ [.chat now text]) fs got (s.completeRead env w) := by
  have hm : (getMsgHeader s.readBuf).msgType = BVTCPMessageType.chatMessage := by
    rw [hbuf]; exact PeerFrame.msgType_bytes (.chat now text)
  have hzero : ∀ b ∈ s.incoming (w.beforeSwitch + w.afterSwitch) 0, b = 0 :=
    hw h.atFrame.reads hm
  have hno : isFileFrameType (at_ (s.overlaid w.beforeSwitch) 12) = false := by
    have hz : ∀ b ∈ s.socket.take (min w.beforeSwitch messageFrameSizeBytes), b = 0 :=
      fun b hb => hzero b (List.take_subset_take_left _ (by omega) hb)
    rcases at_overwrite_zeros (l := s.readBuf) hz 12 with h0 | h0
    · rw [overlaid, h0]; rfl
    · rw [overlaid, h0, hbuf, fileType_chat]
      exact isFileFrameType_of_printable hp
  have hle : (s.incoming (w.beforeSwitch + w.afterSwitch) 0).length ≤ messageFrameSizeBytes :=
    s.length_incoming_le _ 0
  refine ⟨(s.incoming (w.beforeSwitch + w.afterSwitch) 0).length, ?_⟩
  rw [completeRead_chat h.atFrame h.state hm env w hno]
  refine ⟨⟨rfl, hle, rfl, List.length_replicate⟩, h.state, ?_, ?_⟩
  · rw [handedUnits_append, h.handed, List.map_append, hbuf]
    rfl
  · -- the cleared prefix of the buffer is the zero prefix of the next frame
    rw [← hsock]
    exact take_cleared _ hzero

/-- The callback of an OFFER, ACCEPT or REJECT frame hands it over and starts afresh. -/
theorem Progress.complete_control {done fs : List PeerFrame} {s : Session} {f : PeerFrame}
    (h : Progress done (f :: fs) messageFrameSizeBytes s) (hbuf : s.readBuf = f.bytes)
    (hsock : s.socket = PeerFrame.stream fs) (hc : ∀ now text, f ≠ .chat now text)
    (hu : f.Undisguised) (env : Env) (w : Window) :
    Progress (done ++ [f]) fs 0 (s.completeRead env w) := by
  have hm : at_ f.bytes 9 ≠ BVTCPMessageType.chatMessage := by
    rw [PeerFrame.msgType_bytes]
    cases f with
    | chat now text => exact absurd rfl (hc now text)
    | offer now _ _ _ _ => exact hu
    | verdict now _ _ => exact hu
  have hm' : (getMsgHeader s.readBuf).msgType ≠ BVTCPMessageType.chatMessage := by
    rw [hbuf]; exact hm
  have hrs : s.rewound.socket = f.bytes ++ s.socket := by rw [rewound, hbuf]
  obtain ⟨e, hmode, hh⟩ : ∃ e, (s.rewound.readOnce env).FrameMode ∧
      Handled s.rewound (s.rewound.readOnce env) s.socket [.handed f.handler f.bytes, e] ∧
      handedUnits [e] = [] := by
    cases f with
    | chat now text => exact absurd rfl (hc now text)
    | offer now name key fsize fname =>
      have ht := PeerFrame.fileType_bytes (.offer now name key fsize fname)
      obtain ⟨h1, h2⟩ := readOnce_fileOffer env h.atFrame.rewound_frameMode h.state hrs
        (PeerFrame.length_bytes _) hm ht
      exact ⟨_, h1, h2, rfl⟩
    | verdict now key accept =>
      have ht := PeerFrame.fileType_bytes (.verdict now key accept)
      obtain ⟨h1, h2⟩ := readOnce_signal env h.atFrame.rewound_frameMode h.state hrs
        (PeerFrame.length_bytes _) hm accept ht
      exact ⟨_, h1, h2, rfl⟩
  rw [h.atFrame.completeRead_of_not_chat h.state hm']
  refine ⟨.of_frameMode hmode, hh.1.state.trans h.state, ?_, ?_⟩
  · rw [hh.1.log, handedUnits_append, show s.rewound.log = s.log from rfl, h.handed,
      List.map_append]
    rw [show [Effect.handed f.handler f.bytes, e] = [.handed f.handler f.bytes] ++ [e] from rfl,
      handedUnits_append, hh.2]
    rfl
  · rw [List.take_zero, List.nil_append, hh.1.socket, hsock]

/-- **One step** that wipes nothing keeps every frame. -/
theorem step_progress {frames done rest : List PeerFrame} {got : Nat} {s : Session}
    (hp : ∀ f ∈ frames, f.Printable) (hu : ∀ f ∈ frames, f.Undisguised)
    (hsplit : frames = done ++ rest) (h : Progress done rest got s) (t : Tick)
    (hw : s.WipesNothing t) :
    ∃ done' rest' got', frames = done' ++ rest' ∧ Progress done' rest' got' (s.step t) := by
  cases t with
  | arrive n => exact ⟨done, rest, _, hsplit, h.arrive n⟩
  | complete env w =>
    by_cases hgot : got = messageFrameSizeBytes
    · subst hgot
      obtain ⟨f, fs, rfl, hbuf, hsock⟩ := h.next
      have hmem : f ∈ frames := by rw [hsplit]; simp
      have hsplit' : frames = (done ++ [f]) ++ fs := by rw [hsplit]; simp
      by_cases hc : ∃ now text, f = .chat now text
      · obtain ⟨now, text, rfl⟩ := hc
        obtain ⟨got', h'⟩ := h.complete_chat hbuf hsock (hp _ hmem) env w hw
        exact ⟨_, fs, got', hsplit', h'⟩
      · have hc' : ∀ now text, f ≠ .chat now text := fun now text e => hc ⟨now, text, e⟩
        exact ⟨_, fs, 0, hsplit', h.complete_control hbuf hsock hc' (hu f hmem) env w⟩
    · exact ⟨done, rest, got, hsplit, by
        rw [step, h.atFrame.completeRead_of_lt hgot]; exact h⟩

/-! ### Runs -/

/-- One read after another, with no byte arriving inside a callback. -/
def undisturbed (envs : List Env) : List Tick :=
  envs.flatMap fun env => [.arrive messageFrameSizeBytes, .complete env .quiet]

/-- An undisturbed read hands over the next frame, if there is one. -/
theorem Progress.undisturbed_one {done rest : List PeerFrame} {got : Nat} {s : Session}
    (hp : ∀ f ∈ rest, f.Printable) (hu : ∀ f ∈ rest, f.Undisguised)
    (h : Progress done rest got s) (env : Env) :
    ∃ got', Progress (done ++ rest.take 1) (rest.drop 1) got'
      (Runs.run step s (undisturbed [env])) := by
  have harr := h.arrive messageFrameSizeBytes
  have hgot := h.atFrame.got_le
  have hlen := congrArg List.length h.unread
  simp only [List.length_append, List.length_take, h.atFrame.readBuf, Nat.min_eq_left hgot] at hlen
  cases rest with
  | nil =>
    have hne : got + (s.incoming messageFrameSizeBytes got).length ≠ messageFrameSizeBytes := by
      simp only [PeerFrame.stream, List.flatMap_nil, List.length_nil] at hlen
      simp only [incoming, List.length_take, messageFrameSizeBytes]
      omega
    have hrun : Runs.run step s (undisturbed [env]) = s.arrive messageFrameSizeBytes :=
      harr.atFrame.completeRead_of_lt hne env .quiet
    exact ⟨_, by simpa [hrun] using harr⟩
  | cons f fs =>
    have hfull : got + (s.incoming messageFrameSizeBytes got).length = messageFrameSizeBytes := by
      simp only [PeerFrame.stream_cons, List.length_append, PeerFrame.length_bytes] at hlen
      simp only [incoming, List.length_take]
      omega
    rw [hfull] at harr
    have hquiet : (s.arrive messageFrameSizeBytes).WipesNothing (.complete env .quiet) := by
      intro _ _ b hb
      simp at hb
    obtain ⟨g, gs, he, hbuf, hsock⟩ := harr.next
    obtain ⟨rfl, rfl⟩ := List.cons.inj he
    by_cases hc : ∃ now text, f = .chat now text
    · obtain ⟨now, text, rfl⟩ := hc
      exact harr.complete_chat hbuf hsock (hp _ List.mem_cons_self) env .quiet hquiet
    · have hc' : ∀ now text, f ≠ .chat now text := fun now text e => hc ⟨now, text, e⟩
      exact ⟨0, harr.complete_control hbuf hsock hc' (hu f List.mem_cons_self) env .quiet⟩

theorem Progress.undisturbed {done rest : List PeerFrame} {got : Nat} {s : Session}
    (hp : ∀ f ∈ rest, f.Printable) (hu : ∀ f ∈ rest, f.Undisguised)
    (h : Progress done rest got s) (envs : List Env) :
    ∃ got', Progress (done ++ rest.take envs.length) (rest.drop envs.length) got'
      (Runs.run step s (undisturbed envs)) := by
  induction envs generalizing done rest got s with
  | nil => exact ⟨got, by simpa [Session.undisturbed] using h⟩
  | cons env envs ih =>
    obtain ⟨got₁, h₁⟩ := h.undisturbed_one hp hu env
    obtain ⟨got₂, h₂⟩ := ih (fun f hf => hp f (List.mem_of_mem_drop hf))
      (fun f hf => hu f (List.mem_of_mem_drop hf)) h₁
    refine ⟨got₂, ?_⟩
    have hrun : Runs.run step s (Session.undisturbed (env :: envs)) =
        Runs.run step (Runs.run step s (Session.undisturbed [env])) (Session.undisturbed envs) :=
      Runs.run_append s (Session.undisturbed [env]) (Session.undisturbed envs)
    rw [hrun]
    rw [List.append_assoc, ← List.take_add, List.drop_drop, Nat.add_comm 1] at h₂
    exact h₂

theorem idle_progress (self peer : Bytes) (frames : List PeerFrame) :
    Progress [] frames 0 (idle self peer (PeerFrame.stream frames)) :=
  ⟨.of_frameMode (idle_frameMode _ _ _), rfl, rfl, rfl⟩

/-- **No frame is lost, altered or duplicated in a run that wipes nothing.**  After any such run
the frames handed over are the first `k` of those sent, the bytes of the others are still unread,
and undisturbed reads from there hand over the rest. -/
theorem handed_in_order (self peer : Bytes) (frames : List PeerFrame)
    (hp : ∀ f ∈ frames, f.Printable) (hu : ∀ f ∈ frames, f.Undisguised) (ts : List Tick)
    (hw : Runs.Meets step WipesNothing (idle self peer (PeerFrame.stream frames)) ts) :
    ∃ k got, (Runs.run step (idle self peer (PeerFrame.stream frames)) ts).AtFrame got ∧
      handedUnits (Runs.run step (idle self peer (PeerFrame.stream frames)) ts).log =
        (frames.take k).map PeerFrame.unit ∧
      (Runs.run step (idle self peer (PeerFrame.stream frames)) ts).readBuf.take got ++
        (Runs.run step (idle self peer (PeerFrame.stream frames)) ts).socket =
        PeerFrame.stream (frames.drop k) ∧
      ∀ envs : List Env, frames.length ≤ envs.length →
        handedUnits (Runs.run step (idle self peer (PeerFrame.stream frames))
          (ts ++ undisturbed envs)).log = frames.map PeerFrame.unit := by
  obtain ⟨done, rest, got, hsplit, h⟩ := Runs.run_invariant
    (I := fun s => ∃ done rest got, frames = done ++ rest ∧ Progress done rest got s)
    (fun s t ⟨done, rest, got, hsplit, h⟩ ht => step_progress hp hu hsplit h t ht)
    ⟨[], frames, 0, rfl, idle_progress self peer frames⟩ hw
  refine ⟨done.length, got, h.atFrame, ?_, ?_, ?_⟩
  · rw [h.handed, hsplit, List.take_left]
  · rw [h.unread, hsplit, List.drop_left]
  · intro envs hlen
    have hp' : ∀ f ∈ rest, f.Printable := fun f hf => hp f (by rw [hsplit]; simp [hf])
    have hu' : ∀ f ∈ rest, f.Undisguised := fun f hf => hu f (by rw [hsplit]; simp [hf])
    obtain ⟨got', h'⟩ := h.undisturbed hp' hu' envs
    have hle : rest.length ≤ envs.length := by
      rw [hsplit, List.length_append] at hlen; omega
    rw [Runs.run_append, h'.handed, List.take_of_length_le hle, ← hsplit]

/-- Two chat frames whose second arrives in one piece after the callback of the first. -/
theorem handed_in_order_two_chats :
    handedUnits (Runs.run step
      (idle [] [] (PeerFrame.stream [.chat 0 [104, 105], .chat 0 [111, 107]]))
      ([.arrive 138, .complete .blank .quiet] ++ undisturbed [.blank, .blank])).log =
      [PeerFrame.chat 0 [104, 105], .chat 0 [111, 107]].map PeerFrame.unit :=
  (handed_in_order [] [] [.chat 0 [104, 105], .chat 0 [111, 107]]
    (by simp [PeerFrame.Printable, isprint]) (by simp [PeerFrame.Undisguised])
    [.arrive 138, .complete .blank .quiet]
    ⟨trivial, fun _ _ b hb => by simp at hb, trivial⟩).choose_spec.choose_spec.2.2.2
    [.blank, .blank] (by decide)

/-- The second of two chat frames is lost when it has arrived before the callback of the first has
cleared the buffer: it is never handed over, no byte is left to read and no read is outstanding. -/
theorem chat_lost_when_early :
    let s := Runs.run step
      (idle [] [] (PeerFrame.stream [.chat 0 [104, 105], .chat 0 [111, 107]]))
      [.arrive 138, .complete .blank ⟨138, 0⟩, .complete .blank .quiet]
    handedUnits s.log = [(PeerFrame.chat 0 [104, 105]).unit] ∧ s.socket = [] ∧ s.reads = [] := by
  decide +kernel

end Session

end LocalChat
