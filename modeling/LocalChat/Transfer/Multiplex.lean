import LocalChat.Transfer.Receive
import LocalChat.Session.Simulation
import LocalChat.Session.Log

/-!
# Several writers on one session

The io thread and any number of file-transfer workers write whole frames to one session, in any
order.  The receiving session decides from the last BEGIN or END how many bytes to read next, and
nothing coordinates the writers on that; the program relies on a transfer not being interleaved
with other traffic of its session.

* `Serial cur w`: in `w`, while a transfer is under way, only its own frames are written.
* `Mode`: what the receiver waits for is what the writers will write next.
  `Mode.read`: it stays so over a frame that `Serial` allows.
* `Mode.not_decodes`: over any other frame the receiver, which waits for a chunk, cannot hand the
  frame to its handler.
* `Mode.not_atRest`: at rest the receiver has got every frame it was to get.
* `decodes_iff_serial`: so in every timing that wipes nothing the stream is decoded into the written
  frames exactly when the writing was serial.
-/

namespace LocalChat

open Octets

variable {ι : Type}

/-- A frame written to the session, by the io thread or by a worker. -/
inductive Written (ι : Type)
  | io (f : PeerFrame)
  | worker (i : ι) (f : FileFrame)
  deriving DecidableEq

def FileFrame.handler (f : FileFrame) : Handler :=
  if f.chunk.header.msgType = BVTCPMessageType.fileTransferChunkSent then .fileChunkSent
  else if f.chunk.header.msgType = BVTCPMessageType.fileTransferEnd then .fileTransferEnd
  else .fileTransferBegin

namespace Written

def bytes : Written ι → Bytes
  | io f => f.bytes
  | worker _ f => f.bytes

def handler : Written ι → Handler
  | io f => f.handler
  | worker _ f => f.handler

/-- What the handler is to do with the frame; `peer` is the name of the sending host. -/
def effect (ts : ι → Transfer) (peer : Bytes) (env : Env) : Written ι → Effect
  | io (.chat now text) =>
    .putMessageIntoAppMailbox (.messageIncoming (text.take payloadSizeBytes) now peer)
  | io (.offer now serviceName key fsize name) =>
    .putMessageIntoAppMailbox
      (Session.offerEvent env (sendFileOffer now serviceName key fsize name))
  | io (.verdict _ key accept) => .signalFileTransfer key accept
  | worker i f => .putMessageIntoAppMailbox <|
    match f.handler with
    | .fileChunkSent => .fileTransferChunkSent ((ts i).data f.chunk.payload)
    | .fileTransferEnd => .fileTransferEnd ((ts i).data f.chunk.payload)
    | _ => Session.beginEvent env f.bytes

def effects (ts : ι → Transfer) (peer : Bytes) (env : Env) (x : Written ι) : List Effect :=
  [.handed x.handler x.bytes, x.effect ts peer env]

def framesOf [DecidableEq ι] (i : ι) (w : List (Written ι)) : List FileFrame :=
  w.filterMap fun
    | io _ => none
    | worker j f => if j = i then some f else none

/-- The transfer under way after worker `i` has written `f`. -/
def after (i : ι) (f : FileFrame) : Option ι :=
  if f.handler = .fileTransferEnd then none else some i

/-- While a transfer is under way only its own frames are written; `cur` is under way at first. -/
def Serial : Option ι → List (Written ι) → Prop
  | _, [] => True
  | none, io _ :: w => Serial none w
  | none, worker i f :: w => Serial (after i f) w
  | some _, io _ :: _ => False
  | some i, worker j f :: w => j = i ∧ Serial (after j f) w

end Written

/-- The frame is not taken for one of another kind: a chat text does not have a file frame type as
its third byte, and a file frame does not have the chat type in its timestamp. -/
def PeerFrame.Plain : PeerFrame → Prop
  | .chat _ text => Session.isFileFrameType (at_ text 2) = false
  | f => f.Undisguised

instance : DecidablePred PeerFrame.Plain
  | .chat _ text => inferInstanceAs (Decidable (Session.isFileFrameType (at_ text 2) = false))
  | .offer now _ _ _ _ => inferInstanceAs (Decidable
      (UInt8.ofNat (now.toNat / 256 ^ 5) ≠ BVTCPMessageType.chatMessage))
  | .verdict now _ _ => inferInstanceAs (Decidable
      (UInt8.ofNat (now.toNat / 256 ^ 5) ≠ BVTCPMessageType.chatMessage))

/-! ### One frame -/

namespace PeerFrame

/-- What the handler of the frame does; `peer` is the name of the sending host. -/
def effect (peer : Bytes) (env : Env) : PeerFrame → Effect
  | chat now text =>
    .putMessageIntoAppMailbox (.messageIncoming (text.take payloadSizeBytes) now peer)
  | offer now serviceName key fsize name =>
    .putMessageIntoAppMailbox
      (Session.offerEvent env (sendFileOffer now serviceName key fsize name))
  | verdict _ key accept => .signalFileTransfer key accept

theorem readOnce_plain {s : Session} {rest : Bytes} (f : PeerFrame) (env : Env) (h : s.FrameMode)
    (hst : s.state = .established) (hf : f.Plain) (hs : s.socket = f.bytes ++ rest) :
    (s.readOnce env).FrameMode ∧ Session.Handled s (s.readOnce env) rest
      [.handed f.handler f.bytes, f.effect s.serviceName env] := by
  have htype := f.msgType_bytes
  have hfile := f.fileType_bytes
  cases f with
  | chat now text =>
    have hread := Session.readOnce_chatMessage env h hst hs (length_bytes _) htype
      (by rw [hfile]; exact hf)
    rw [chatEvent_chat] at hread
    exact hread
  | offer now serviceName key fsize name =>
    have hread := Session.readOnce_fileOffer env h hst hs (length_bytes _)
      (by rw [htype]; exact hf) hfile
    exact hread
  | verdict now key accept =>
    have hread := Session.readOnce_signal env h hst hs (length_bytes _)
      (by rw [htype]; exact hf) accept hfile
    have hkey : (getFileHeader (verdict now key accept).bytes).correlationKey = key := by
      rw [bytes, sendFileControl, getFileHeader_writeFileChunkSync]
      rfl
    rw [hkey] at hread
    exact hread

end PeerFrame

namespace Written

variable {ts : ι → Transfer}

theorem readOnce_io {s : Session} {rest : Bytes} (env : Env) (h : s.FrameMode)
    (hst : s.state = .established) {f : PeerFrame} (hf : f.Plain)
    (hs : s.socket = f.bytes ++ rest) :
    (s.readOnce env).FrameMode ∧ Session.Handled s (s.readOnce env) rest
      ((io f : Written ι).effects ts s.serviceName env) := by
  have heffect : (io f : Written ι).effect ts s.serviceName env = f.effect s.serviceName env := by
    cases f <;> rfl
  rw [effects, heffect]
  exact f.readOnce_plain env h hst hf hs

theorem effects_handed (ts : ι → Transfer) (peer : Bytes) (env : Env) (x : Written ι) :
    handedUnits (x.effects ts peer env) = [(x.handler, x.bytes)] := by
  have hnone : handedUnits [x.effect ts peer env] = [] := by
    cases x with
    | io f => cases f <;> rfl
    | worker i f => rfl
  rw [effects, show [Effect.handed x.handler x.bytes, x.effect ts peer env] =
    [.handed x.handler x.bytes] ++ [x.effect ts peer env] from rfl, handedUnits_append, hnone]
  rfl

/-- A frame that may be written while `cur` is under way. -/
def Allowed : Option ι → Written ι → Prop
  | none, _ => True
  | some _, io _ => False
  | some i, worker j _ => j = i

theorem not_serial_of_not_allowed {cur : Option ι} {x : Written ι} (h : ¬ Allowed cur x)
    (w : List (Written ι)) : ¬ Serial cur (x :: w) := by
  cases cur with
  | none => exact absurd trivial h
  | some i =>
    cases x with
    | io f => exact id
    | worker j f => exact fun hserial => h hserial.1

variable [DecidableEq ι]

@[simp] theorem framesOf_io (i : ι) (f : PeerFrame) (w : List (Written ι)) :
    framesOf i (io f :: w) = framesOf i w := rfl

@[simp] theorem framesOf_self (i : ι) (f : FileFrame) (w : List (Written ι)) :
    framesOf i (worker i f :: w) = f :: framesOf i w := by
  simp [framesOf]

theorem framesOf_of_ne {i j : ι} (h : j ≠ i) (f : FileFrame) (w : List (Written ι)) :
    framesOf i (worker j f :: w) = framesOf i w := by
  simp [framesOf, h]

/-! ### What the receiver waits for -/

/-- The receiver waits for what the writers will write next.  `left` are the frames the workers have
still to write, `cur` the transfer under way. -/
inductive Mode (ts : ι → Transfer) (left : ι → List FileFrame) (s : Session) : Option ι → Prop
  | frames : s.FrameMode → (∀ i, left i = (ts i).frames ∨ left i = []) → Mode ts left s none
  | chunks (i : ι) (ps : List (UInt64 × Bytes)) : (ts i).Reading s → (∀ p ∈ ps, p ∈ (ts i).pieces) →
      left i = (ts i).bodyFrom ps → (∀ j, j ≠ i → left j = (ts j).frames ∨ left j = []) →
        Mode ts left s (some i)

theorem left_update {left : ι → List FileFrame} {i : ι} (l : List FileFrame)
    {P : ι → List FileFrame → Prop} (hi : P i l) (h : ∀ j, j ≠ i → P j (left j)) :
    ∀ j, P j (Function.update left i l j) := by
  intro j
  by_cases hj : j = i
  · subst hj
    rw [Function.update_self]
    exact hi
  · rw [Function.update_of_ne hj]
    exact h j hj

theorem first_frame {t : Transfer} {l fs : List FileFrame} {f : FileFrame}
    (h : l = t.frames ∨ l = []) (hpre : f :: fs <+: l) : f = t.beginFrame ∧ fs <+: t.body := by
  rcases h with rfl | rfl
  · exact List.cons_prefix_cons.mp hpre
  · cases List.prefix_nil.mp hpre

theorem left_of_ne {left : ι → List FileFrame} {j : ι} {f : FileFrame} {w : List (Written ι)}
    (hleft : ∀ i, framesOf i (worker j f :: w) <+: left i) :
    ∀ k, k ≠ j → framesOf k w <+: left k := by
  intro k hk
  have hprefix := hleft k
  rwa [framesOf_of_ne (Ne.symm hk)] at hprefix

/-- **One frame.**  A frame that may be written is decoded, and the receiver then waits for the next
one. -/
theorem Mode.read {left : ι → List FileFrame} {s : Session} {cur : Option ι}
    (h : Mode ts left s cur) (hst : s.state = .established)
    (hts : ∀ i, UInt8.ofNat ((ts i).beganAt.toNat / 256 ^ 5) ≠ BVTCPMessageType.chatMessage)
    {x : Written ι} {w : List (Written ι)} (hallowed : Allowed cur x)
    (hplain : ∀ f, x = io f → f.Plain) (hleft : ∀ i, framesOf i (x :: w) <+: left i) {rest : Bytes}
    (hs : s.socket = x.bytes ++ rest) (env : Env) :
    ∃ left' cur', Mode ts left' (s.readOnce env) cur' ∧ (∀ i, framesOf i w <+: left' i) ∧
      Session.Handled s (s.readOnce env) rest (x.effects ts s.serviceName env) ∧
      (Serial cur (x :: w) ↔ Serial cur' w) := by
  cases h with
  | frames hmode hidle =>
    cases x with
    | io f =>
      obtain ⟨hmode', hhandled⟩ := readOnce_io env hmode hst (hplain f rfl) hs
      exact ⟨left, none, .frames hmode' hidle, hleft, hhandled, Iff.rfl⟩
    | worker i f =>
      have hown := hleft i
      rw [framesOf_self] at hown
      obtain ⟨rfl, hbody⟩ := first_frame (hidle i) hown
      obtain ⟨hreading, hhandled⟩ := Transfer.readOnce_begin env hmode hst hs (hts i)
      refine ⟨Function.update left i (ts i).body, some i, ?_, ?_, hhandled, Iff.rfl⟩
      · refine .chunks i (ts i).pieces hreading (fun p hp => hp) (Function.update_self _ _ _) ?_
        intro j hj
        rw [Function.update_of_ne hj]
        exact hidle j
      · exact left_update (P := fun j l => framesOf j w <+: l) _ hbody (left_of_ne hleft)
  | chunks i ps hreading hps hi hidle =>
    cases x with
    | io f => exact absurd hallowed id
    | worker j f =>
      have hj : j = i := hallowed
      subst hj
      have hown := hleft j
      rw [framesOf_self, hi] at hown
      have hothers := left_of_ne hleft
      cases ps with
      | nil =>
        obtain ⟨rfl, hnil⟩ := List.cons_prefix_cons.mp hown
        obtain ⟨hmode, hhandled⟩ := Transfer.readOnce_end env hreading hs
        refine ⟨Function.update left j [], none, .frames hmode ?_, ?_, hhandled, ?_⟩
        · exact left_update (P := fun k l => l = (ts k).frames ∨ l = []) _ (.inr rfl) hidle
        · exact left_update (P := fun k l => framesOf k w <+: l) _ hnil hothers
        · exact ⟨fun hserial => hserial.2, fun hserial => ⟨rfl, hserial⟩⟩
      | cons p ps =>
        obtain ⟨rfl, hbody⟩ := List.cons_prefix_cons.mp hown
        obtain ⟨hreading', hhandled⟩ :=
          Transfer.readOnce_chunk env hreading (hps p List.mem_cons_self) hs
        have hpayload : (ts j).chunkEvent p = .fileTransferChunkSent ((ts j).data
            ((ts j).chunkFrame BVTCPMessageType.fileTransferChunkSent p).chunk.payload) := by
          rw [Transfer.chunkEvent, Transfer.chunkFrame,
            padTo_of_length ((ts j).piece_length p (hps p List.mem_cons_self))]
        rw [hpayload] at hhandled
        refine ⟨Function.update left j ((ts j).bodyFrom ps), some j, ?_, ?_, hhandled, ?_⟩
        · refine .chunks j ps hreading' (fun q hq => hps q (List.mem_cons_of_mem p hq))
            (Function.update_self _ _ _) ?_
          intro k hk
          rw [Function.update_of_ne hk]
          exact hidle k hk
        · exact left_update (P := fun k l => framesOf k w <+: l) _ hbody hothers
        · exact ⟨fun hserial => hserial.2, fun hserial => ⟨rfl, hserial⟩⟩

/-! ### Frames the receiver does not wait for -/

/-- A frame that may not be written now is meant for no handler of the chunk reader. -/
theorem Mode.not_isChunkHandler {left : ι → List FileFrame} {s : Session} {cur : Option ι}
    (h : Mode ts left s cur) {x : Written ι} {w : List (Written ι)} (hallowed : ¬ Allowed cur x)
    (hleft : ∀ i, framesOf i (x :: w) <+: left i) : ¬ Session.IsChunkHandler x.handler := by
  cases h with
  | frames hmode hidle => exact absurd trivial hallowed
  | chunks i ps hreading hps hi hidle =>
    cases x with
    | io f =>
      cases f with
      | chat now text => exact fun h => by rcases h with h | h <;> cases h
      | offer now serviceName key fsize name => exact fun h => by rcases h with h | h <;> cases h
      | verdict now key accept => cases accept <;> exact fun h => by rcases h with h | h <;> cases h
    | worker j f =>
      have hown := hleft j
      rw [framesOf_self] at hown
      obtain ⟨rfl, -⟩ := first_frame (hidle j hallowed) hown
      exact fun h => by rcases h with h | h <;> cases h

/-- **A frame out of turn.**  A receiver in the middle of a transfer does not hand over a frame from
outside of it, whatever follows. -/
theorem Mode.not_decodes {left : ι → List FileFrame} {s₀ s : Session} {cur : Option ι}
    (h : Mode ts left s₀ cur) (hamid : Session.Amid s₀ s) {x : Written ι} {w : List (Written ι)}
    (hallowed : ¬ Allowed cur x) (hleft : ∀ i, framesOf i (x :: w) <+: left i)
    (ticks : List Tick) (es : List Effect) (peer : Bytes) (env : Env) :
    (Runs.run Session.step s ticks).log ≠ s.log ++ (x.effects ts peer env ++ es) := by
  intro hlog
  have hkind := h.not_isChunkHandler hallowed hleft
  cases h with
  | frames hmode hidle => exact hallowed trivial
  | chunks i ps hreading hps hi hidle =>
    obtain ⟨got, hmid, -, -⟩ := hamid.midChunk hreading.chunkMode
    have hhanded := congrArg handedUnits hlog
    rw [handedUnits_append, handedUnits_append, effects_handed] at hhanded
    exact hkind (Session.handed_of_atChunk ticks s got hmid.atChunk _ _ _ hhanded)

/-! ### Every timing -/

/-- The stream is decoded into the frames it was made of: in the timing `ticks` there is a callback
for each, and each is handed to its handler as it was written, and handled, in order. -/
def Decodes (ts : ι → Transfer) (s : Session) (ticks : List Tick) (w : List (Written ι)) : Prop :=
  (s.callbacks ticks).length = w.length ∧
    (Runs.run Session.step s ticks).log =
      s.log ++ (List.zipWith (effects ts s.serviceName) (s.callbacks ticks) w).flatten

/-- A frame that the receiver waits for has the length of one and is not taken for another. -/
theorem Mode.frame_plain {left : ι → List FileFrame} {s : Session} {cur : Option ι}
    (h : Mode ts left s cur) (hframe : s.FrameMode)
    (hts : ∀ i, UInt8.ofNat ((ts i).beganAt.toNat / 256 ^ 5) ≠ BVTCPMessageType.chatMessage)
    {x : Written ι} {w : List (Written ι)} (hplain : ∀ f, x = io f → f.Plain)
    (hleft : ∀ i, framesOf i (x :: w) <+: left i) :
    x.bytes.length = messageFrameSizeBytes ∧
      (at_ x.bytes 9 = BVTCPMessageType.chatMessage →
        Session.isFileFrameType (at_ x.bytes 12) = false) := by
  cases h with
  | frames hmode hidle =>
    cases x with
    | io f =>
      refine ⟨f.length_bytes, ?_⟩
      intro hchat
      have htype := f.msgType_bytes
      have hfile := f.fileType_bytes
      have hf : f.Plain := hplain f rfl
      cases f with
      | chat now text => exact (congrArg _ hfile).trans hf
      | offer now serviceName key fsize name => exact absurd (htype.symm.trans hchat) hf
      | verdict now key accept => exact absurd (htype.symm.trans hchat) hf
    | worker i f =>
      have hown := hleft i
      rw [framesOf_self] at hown
      obtain ⟨rfl, -⟩ := first_frame (hidle i) hown
      refine ⟨(ts i).length_beginFrame, ?_⟩
      intro hchat
      exact absurd ((ts i).msgType_beginFrame.symm.trans hchat) (hts i)
  | chunks i ps hreading hps hi hidle =>
    have hreads := hframe.reads
    rw [hreading.chunkMode.reads] at hreads
    cases hreads

omit [DecidableEq ι] in
theorem Mode.betweenReads {left : ι → List FileFrame} {s : Session} {cur : Option ι}
    (h : Mode ts left s cur) : s.BetweenReads := by
  cases h with
  | frames hmode hidle => exact .inl hmode
  | chunks i ps hreading hps hi hidle => exact .inr (.inl hreading.chunkMode)

/-- The callback of an allowed frame, in any timing that wipes nothing, does what an undisturbed
read does. -/
theorem Mode.completeRead {left : ι → List FileFrame} {s₀ s : Session} {cur : Option ι}
    (h : Mode ts left s₀ cur) (hamid : Session.Amid s₀ s) (hst : s₀.state = .established)
    (hts : ∀ i, UInt8.ofNat ((ts i).beganAt.toNat / 256 ^ 5) ≠ BVTCPMessageType.chatMessage)
    {x : Written ι} {w : List (Written ι)} (hplain : ∀ f, x = io f → f.Plain)
    (hleft : ∀ i, framesOf i (x :: w) <+: left i) {rest : Bytes}
    (hs : s₀.socket = x.bytes ++ rest) (hfull : s.Full) {env : Env} {win : Window}
    (hwipes : s.WipesNothing (.complete env win)) (hend : (s₀.readOnce env).BetweenReads) :
    Session.Amid (s₀.readOnce env) (s.completeRead env win) := by
  refine hamid.established (hamid.state.symm.trans hst) hfull hwipes ?_ hend
  intro hframe hchat
  obtain ⟨hlen, htype⟩ := h.frame_plain hframe hts hplain hleft
  obtain ⟨hat, hsocket⟩ := hamid.frame_of_full hframe hfull
  obtain ⟨hbuf, -⟩ := List.append_inj (hsocket.symm.trans hs) (hat.readBuf.trans hlen.symm)
  rw [hbuf] at hchat ⊢
  exact htype hchat

/-- At rest the receiver has not got a frame that it waits for. -/
theorem Mode.not_atRest {left : ι → List FileFrame} {s₀ s : Session} {cur : Option ι}
    (h : Mode ts left s₀ cur) (hamid : Session.Amid s₀ s)
    (hts : ∀ i, UInt8.ofNat ((ts i).beganAt.toNat / 256 ^ 5) ≠ BVTCPMessageType.chatMessage)
    {x : Written ι} {w : List (Written ι)} (hallowed : Allowed cur x)
    (hplain : ∀ f, x = io f → f.Plain) (hleft : ∀ i, framesOf i (x :: w) <+: left i) {rest : Bytes}
    (hs : s₀.socket = x.bytes ++ rest) : ¬ s.AtRest := by
  intro hrest
  have hle : x.bytes.length ≤ s₀.socket.length := by
    rw [hs, List.length_append]
    exact Nat.le_add_right _ _
  cases h with
  | frames hmode hidle =>
    have hlen := (Mode.frame_plain (.frames hmode hidle) hmode hts hplain hleft).1
    rw [hlen] at hle
    exact Nat.not_lt.mpr hle (hamid.length_lt_frame hmode hrest)
  | chunks i ps hreading hps hi hidle =>
    have hlen : x.bytes.length = (ts i).csize.toNat + fileHeaderSizeBytes := by
      cases x with
      | io f => exact absurd hallowed id
      | worker j f =>
        obtain rfl : j = i := hallowed
        have hown := hleft j
        rw [framesOf_self, hi] at hown
        cases ps with
        | nil =>
          obtain ⟨rfl, -⟩ := List.cons_prefix_cons.mp hown
          exact (ts j).length_chunkFrame _ _
        | cons p ps =>
          obtain ⟨rfl, -⟩ := List.cons_prefix_cons.mp hown
          exact (ts j).length_chunkFrame _ _
    rw [hlen, ← hreading.csize] at hle
    exact Nat.not_lt.mpr hle (hamid.length_lt_chunk hreading.chunkMode hrest)

theorem Mode.decodes_iff (hts : ∀ i, UInt8.ofNat ((ts i).beganAt.toNat / 256 ^ 5) ≠
      BVTCPMessageType.chatMessage) (ticks : List Tick) :
    ∀ (s₀ s : Session) (left : ι → List FileFrame) (cur : Option ι) (w : List (Written ι)),
      Mode ts left s₀ cur → Session.Amid s₀ s → s₀.state = .established →
      (∀ i, framesOf i w <+: left i) → (∀ f, io f ∈ w → f.Plain) →
      s₀.socket = w.flatMap bytes → Runs.Meets Session.step Session.WipesNothing s ticks →
      (Runs.run Session.step s ticks).AtRest → (Decodes ts s ticks w ↔ Serial cur w) := by
  have hplainHead : ∀ {x : Written ι} {w : List (Written ι)}, (∀ f, io f ∈ x :: w → f.Plain) →
      ∀ f, x = io f → f.Plain := by
    rintro x w hplain f rfl
    exact hplain f List.mem_cons_self
  induction ticks with
  | nil =>
    intro s₀ s left cur w hmode hamid _ hleft hplain hs _ hrest
    cases w with
    | nil =>
      have hdecodes : Decodes ts s [] ([] : List (Written ι)) := by
        simp [Decodes, Session.callbacks]
      exact iff_of_true hdecodes (by cases cur <;> exact trivial)
    | cons x w =>
      refine iff_of_false (fun hdecodes => ?_) (fun hserial => ?_)
      · exact absurd hdecodes.1 (Nat.succ_ne_zero _).symm
      · by_cases hallowed : Allowed cur x
        · exact hmode.not_atRest hamid hts hallowed (hplainHead hplain) hleft hs hrest
        · exact not_serial_of_not_allowed hallowed w hserial
  | cons t ticks ih =>
    intro s₀ s left cur w hmode hamid hst hleft hplain hs hwipes hrest
    cases t with
    | arrive n =>
      have harrive := hamid.arrive n
      have hiff := ih s₀ (s.arrive n) left cur w hmode harrive hst hleft hplain hs hwipes.2 hrest
      rw [Decodes, ← harrive.log, ← harrive.serviceName] at hiff
      rw [Decodes, ← hamid.log, ← hamid.serviceName]
      exact hiff
    | complete env win =>
      rw [Runs.run_cons, Session.step] at hrest
      rw [Decodes, Session.callbacks, Runs.run_cons, Session.step]
      by_cases hfull : s.Full
      · rw [if_pos hfull]
        cases w with
        | nil => exact absurd hs (hamid.socket_ne_nil_of_full hfull)
        | cons x w =>
          rw [List.flatMap_cons] at hs
          rw [List.length_cons, List.length_cons, Nat.succ_inj, List.zipWith_cons_cons,
            List.flatten_cons]
          by_cases hallowed : Allowed cur x
          · have hx := hplainHead hplain
            obtain ⟨left', cur', hmode', hleft', hhandled, hserial⟩ :=
              hmode.read hst hts hallowed hx hleft hs env
            have hamid' := hmode.completeRead hamid hst hts hx hleft hs hfull hwipes.1
              hmode'.betweenReads
            have hiff := ih (s₀.readOnce env) (s.completeRead env win) left' cur' w hmode' hamid'
              (hhandled.state.trans hst) hleft' (fun f hf => hplain f (List.mem_cons_of_mem x hf))
              hhandled.socket hwipes.2 hrest
            rw [Decodes, ← hamid'.log, ← hamid'.serviceName, hhandled.log, hhandled.serviceName,
              hamid.serviceName, hamid.log, List.append_assoc] at hiff
            rw [hiff, hserial]
          · refine iff_of_false ?_ (not_serial_of_not_allowed hallowed w)
            rintro ⟨-, hlog⟩
            exact hmode.not_decodes hamid hallowed hleft (.complete env win :: ticks) _ _ env hlog
      · rw [Session.completeRead_of_not_full hfull] at hrest
        rw [if_neg hfull, Session.completeRead_of_not_full hfull]
        have hwipes' := hwipes.2
        rw [Session.step, Session.completeRead_of_not_full hfull] at hwipes'
        exact ih s₀ s left cur w hmode hamid hst hleft hplain hs hwipes' hrest

def inTurn : List (Written Unit) :=
  [io (.chat 0 [104, 105]), worker () (oneByte 0 [97] 1).beginFrame,
    worker () ((oneByte 0 [97] 1).chunkFrame BVTCPMessageType.fileTransferEnd (0, [1])),
    io (.chat 0 [104, 105])]

/-- The reads of the first three frames are undisturbed, the last one comes in two pieces. -/
def inTurnTicks : List Tick :=
  Session.undisturbed [.blank, .blank, .blank] ++
    [.arrive 100, .complete .blank .quiet, .arrive 38, .complete .blank ⟨1, 1⟩]

def outOfTurn : List (Written Unit) :=
  [worker () (oneByte 0 [97] 1).beginFrame, io (.chat 0 [104, 105]),
    worker () ((oneByte 0 [97] 1).chunkFrame BVTCPMessageType.fileTransferEnd (0, [1]))]

end Written

end LocalChat
