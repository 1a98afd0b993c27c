import LocalChat.Session.Handshake

/-!
# The handshake in every timing

The bytes of the frames come in bit by bit, and the callbacks run at any time once their read is
full.

* `AmidPhase`: the link is amid one of the stages of the handshake.  `step_phase`: every step that
  is `Safe` stays so.
* `handshake_completes`: so, when nothing is on its way, both sessions are ESTABLISHED and `B`'s app
  has every message; and from every state some deliveries lead there.
* `early_chat_blocks`: a message that is sent before HELLO has been answered blocks `B` for good.
-/

namespace LocalChat

open Octets

namespace Link

/-! ### What the sessions wait for in a stage -/

theorem Phase.waits_a {h : Hosts} {l : Link} (hp : Phase h l) :
    l.a.FrameMode ∨ l.a.reads = [] := by
  have hready : ∀ incoming, AReady h l incoming → l.a.FrameMode ∨ l.a.reads = [] := by
    intro incoming ha
    have hreads := ha.reads
    cases hc : l.connected with
    | true =>
      rw [hc, if_pos rfl] at hreads
      exact .inl ⟨hreads, ha.totalBytesRead, ha.readBuf⟩
    | false =>
      rw [hc, if_neg Bool.false_ne_true] at hreads
      exact .inr hreads
  cases hp with
  | untouched ha _ _ _ => exact hready _ ha
  | greeted now ha _ _ _ => exact hready _ ha
  | answered env ha _ _ _ _ => exact .inl ha.frameMode
  | identified now done rest ha _ _ => exact .inl ha.frameMode
  | settled done rest ha _ _ => exact .inl ha.frameMode

theorem Phase.waits_b {h : Hosts} {l : Link} (hp : Phase h l) :
    l.b.FrameMode ∨ l.b.reads = [] := by
  cases hp with
  | untouched _ hb _ _ =>
    rw [hb]
    exact .inr rfl
  | greeted now _ hb _ _ => exact .inl hb.frameMode
  | answered env _ _ hb _ _ => exact .inl hb.frameMode
  | identified now done rest _ hb _ => exact .inl hb.frameMode
  | settled done rest _ hb _ => exact .inl hb.frameMode

theorem Phase.incoming_a {h : Hosts} {l : Link} (hp : Phase h l) :
    l.a.socket = [] ∨ l.a.state = .unprepared ∧ messageFrameSizeBytes ≤ l.a.socket.length := by
  cases hp with
  | untouched ha _ _ _ => exact .inl ha.socket
  | greeted now ha _ _ _ =>
    refine .inr ⟨ha.state, ?_⟩
    rw [ha.socket, length_messageFrame]
  | answered env ha _ _ _ _ => exact .inl ha.socket
  | identified now done rest ha _ _ =>
    refine .inr ⟨ha.state, ?_⟩
    rw [ha.socket, length_messageFrame]
  | settled done rest ha _ _ => exact .inl ha.socket

/-- What `B` has still to read is nothing, a frame of the handshake, or a chat message that is not
taken for a file frame. -/
theorem Phase.incoming_b {h : Hosts} {l : Link} (hp : Phase h l) :
    l.b.socket = [] ∨
      (l.b.state = .unprepared ∧ messageFrameSizeBytes ≤ l.b.socket.length) ∨
      ∃ (c : UInt64 × Bytes) (cs : List (UInt64 × Bytes)), l.b.state = .established ∧
        Session.isFileFrameType (at_ c.2 2) = false ∧
          l.b.socket = (PeerFrame.chat c.1 c.2).bytes ++ stream cs := by
  have hserves : ∀ done rest, BServes h l done rest → l.b.socket = [] ∨
      ∃ (c : UInt64 × Bytes) (cs : List (UInt64 × Bytes)), l.b.state = .established ∧
        Session.isFileFrameType (at_ c.2 2) = false ∧
          l.b.socket = (PeerFrame.chat c.1 c.2).bytes ++ stream cs := by
    intro done rest hb
    cases rest with
    | nil => exact .inl hb.socket
    | cons c cs => exact .inr ⟨c, cs, hb.state, hb.plain c List.mem_cons_self, hb.socket⟩
  cases hp with
  | untouched _ hb _ _ =>
    rw [hb]
    exact .inl rfl
  | greeted now _ hb _ _ => exact .inl hb.socket
  | answered env _ _ hb _ _ =>
    refine .inr (.inl ⟨hb.state, ?_⟩)
    rw [hb.socket, List.length_append, length_messageFrame]
    exact Nat.le_add_right _ _
  | identified now done rest _ hb _ => exact (hserves _ _ hb).imp id .inr
  | settled done rest _ hb _ => exact (hserves _ _ hb).imp id .inr

/-! ### Every timing -/

/-- `l` is `l₀` with some bytes of the outstanding reads taken in. -/
structure Amid (l₀ l : Link) : Prop where
  a : Session.Amid l₀.a l.a
  b : Session.Amid l₀.b l.b
  connected : l.connected = l₀.connected
  accepted : l.accepted = l₀.accepted
  answered : l.answered = l₀.answered
  sent : l.sent = l₀.sent

variable {h : Hosts} {l₀ l : Link}

theorem amid_push {s₀ s : Session} (hs : Session.Amid s₀ s) (bs : Bytes) :
    Session.Amid (push s₀ bs) (push s bs) := by
  cases hs with
  | frame got buf hbuf hat heq =>
    refine .frame got buf hbuf ⟨hat.reads, hat.got_le, hat.totalBytesRead, hat.readBuf⟩ ?_
    rw [heq]
    simp only [push, List.append_assoc]
  | chunk got buf hbuf hat heq =>
    refine .chunk got buf hbuf ⟨hat.reads, hat.got_le, hat.totalBytesRead, hat.fileReadBuf,
      hat.fits⟩ ?_
    rw [heq]
    simp only [push, List.append_assoc]
  | still hnone heq =>
    refine .still hnone ?_
    rw [heq]

theorem Amid.setA (hl : Amid l₀ l) {a₀ a : Session} (ha : Session.Amid a₀ a) :
    Amid (l₀.setA a₀) (l.setA a) := by
  have hwritten : written l₀.a a₀ = written l.a a := by
    rw [written, written, hl.a.log, ha.log]
  refine ⟨ha, ?_, hl.connected, hl.accepted, hl.answered, hl.sent⟩
  rw [Link.setA, Link.setA, hwritten]
  exact amid_push hl.b _

theorem Amid.setB (hl : Amid l₀ l) {b₀ b : Session} (hb : Session.Amid b₀ b) :
    Amid (l₀.setB b₀) (l.setB b) := by
  have hwritten : written l₀.b b₀ = written l.b b := by
    rw [written, written, hl.b.log, hb.log]
  refine ⟨?_, hb, hl.connected, hl.accepted, hl.answered, hl.sent⟩
  rw [Link.setB, Link.setB, hwritten]
  exact amid_push hl.a _

/-- **A callback at `A`** into which only zeros arrive does what an undisturbed delivery does. -/
theorem Phase.completeRead_a (hp : Phase h l₀) {a : Session} (ha : Session.Amid l₀.a a)
    (hfull : a.Full) {w : Window} (hcalm : a.Calm w) (env : Env) :
    Session.Amid (l₀.a.readOnce env) (a.completeRead env w) := by
  have hmode := ha.frameMode_of_full hp.waits_a hfull
  obtain ⟨hat, hsocket⟩ := ha.frame_of_full hmode hfull
  obtain hnone | ⟨hst, -⟩ := hp.incoming_a
  · rw [hnone] at hsocket
    have hlen := congrArg List.length hsocket
    rw [List.length_append, hat.readBuf] at hlen
    exact absurd hlen (by simp only [List.length_nil, messageFrameSizeBytes]; omega)
  · exact ha.unprepared hmode (ha.state.symm.trans hst) hfull hcalm env

/-- **A callback at `B`** likewise. -/
theorem Phase.completeRead_b (hp : Phase h l₀) {b : Session} (hb : Session.Amid l₀.b b)
    (hfull : b.Full) {w : Window} (hcalm : b.Calm w) (env : Env) :
    Session.Amid (l₀.b.readOnce (envOfB h env)) (b.completeRead (envOfB h env) w) := by
  have hmode := hb.frameMode_of_full hp.waits_b hfull
  obtain ⟨hat, hsocket⟩ := hb.frame_of_full hmode hfull
  obtain hnone | ⟨hst, -⟩ | ⟨c, cs, hst, hplain, hchat⟩ := hp.incoming_b
  · rw [hnone] at hsocket
    have hlen := congrArg List.length hsocket
    rw [List.length_append, hat.readBuf] at hlen
    exact absurd hlen (by simp only [List.length_nil, messageFrameSizeBytes]; omega)
  · exact hb.unprepared hmode (hb.state.symm.trans hst) hfull hcalm _
  · obtain ⟨hbuf, -⟩ := List.append_inj (hsocket.symm.trans hchat)
      (hat.readBuf.trans (PeerFrame.length_bytes _).symm)
    refine hb.established (hb.state.symm.trans hst) hfull (fun _ _ => hcalm hfull) ?_ ?_
    · intro _ _
      rw [hbuf, fileType_chat]
      exact hplain
    · exact (phase_deliverToB hp env).waits_b.imp id .inr

theorem Amid.connectHandler (hl : Amid l₀ l) (hp : Phase h l₀) :
    Amid (l₀.step h .connectHandler) (l.step h .connectHandler) := by
  have hp' := phase_connectHandler hp
  rw [step, step, hl.connected] at *
  cases hc : l₀.connected with
  | true => exact hl
  | false =>
    have hreads : l₀.a.reads = [] := by
      cases hp with
      | untouched ha _ _ _ => rw [ha.reads, hc, if_neg Bool.false_ne_true]
      | greeted now ha _ _ _ => rw [ha.reads, hc, if_neg Bool.false_ne_true]
      | answered env ha _ _ _ _ => exact absurd (hc.symm.trans ha.connected) (by decide)
      | identified now done rest ha _ _ => exact absurd (hc.symm.trans ha.connected) (by decide)
      | settled done rest ha _ _ => exact absurd (hc.symm.trans ha.connected) (by decide)
    rw [hc, if_neg Bool.false_ne_true] at hp'
    refine ⟨?_, hl.b, rfl, hl.accepted, hl.answered, hl.sent⟩
    rw [hl.a.reads_nil hreads]
    exact .refl (hp'.waits_a.imp id .inr)

theorem Amid.accept (hl : Amid l₀ l) (hp : Phase h l₀) (now : UInt64) :
    Amid (l₀.step h (.accept now)) (l.step h (.accept now)) := by
  have hp' := phase_accept hp now
  rw [step, step, hl.accepted] at *
  cases hacc : l₀.accepted with
  | true => exact hl
  | false =>
    have hreads : l₀.b.reads = [] := by
      cases hp with
      | untouched _ hb _ _ => rw [hb]; rfl
      | greeted _ _ _ h' _ => exact absurd (hacc.symm.trans h') (by decide)
      | answered _ _ _ _ h' _ => exact absurd (hacc.symm.trans h') (by decide)
      | identified _ _ _ _ _ h' => exact absurd (hacc.symm.trans h') (by decide)
      | settled _ _ _ _ h' => exact absurd (hacc.symm.trans h') (by decide)
    rw [hacc, if_neg Bool.false_ne_true] at hp'
    refine ⟨amid_push hl.a _, ?_, hl.connected, rfl, hl.answered, hl.sent⟩
    rw [hl.b.reads_nil hreads]
    exact .refl (hp'.waits_b.imp id .inr)

theorem Amid.sendChat (hl : Amid l₀ l) (now : UInt64) (text : Bytes) :
    Amid (l₀.step h (.sendChat now text)) (l.step h (.sendChat now text)) := by
  rw [step, step, sendDataToNode, sendDataToNode, hl.connected]
  cases hc : l₀.connected with
  | false => exact hl
  | true =>
    refine ⟨hl.a, amid_push hl.b _, rfl, hl.accepted, hl.answered, ?_⟩
    show l.sent ++ _ = l₀.sent ++ _
    rw [hl.sent]

def AmidPhase (h : Hosts) (l : Link) : Prop := ∃ l₀, Phase h l₀ ∧ Amid l₀ l

/-- **A safe step stays in the stages.** -/
theorem step_phase {m : Move} (hp : AmidPhase h l) (hsafe : Safe h l m) :
    AmidPhase h (l.step h m) := by
  obtain ⟨l₀, hp, hl⟩ := hp
  cases m with
  | connectHandler => exact ⟨_, phase_connectHandler hp, hl.connectHandler hp⟩
  | accept now => exact ⟨_, phase_accept hp now, hl.accept hp now⟩
  | arriveAtA n =>
    exact ⟨l₀, hp, hl.a.arrive n, hl.b, hl.connected, hl.accepted, hl.answered, hl.sent⟩
  | arriveAtB n =>
    exact ⟨l₀, hp, hl.a, hl.b.arrive n, hl.connected, hl.accepted, hl.answered, hl.sent⟩
  | completeAtA env w =>
    obtain ⟨hname, hcalm⟩ := hsafe
    rw [step]
    by_cases hfull : l.a.Full
    · exact ⟨_, phase_deliverToA hp hname env,
        hl.setA (hp.completeRead_a hl.a hfull hcalm env)⟩
    · rw [Session.completeRead_of_not_full hfull, setA_self]
      exact ⟨l₀, hp, hl⟩
  | completeAtB env w =>
    rw [step]
    by_cases hfull : l.b.Full
    · exact ⟨_, phase_deliverToB hp env, hl.setB (hp.completeRead_b hl.b hfull hsafe env)⟩
    · rw [Session.completeRead_of_not_full hfull, setB_self]
      exact ⟨l₀, hp, hl⟩
  | writeHandler =>
    refine ⟨_, phase_writeHandler hp, hl.a, hl.b, hl.connected, hl.accepted, ?_, hl.sent⟩
    show (l.answered || greeted l.a) = (l₀.answered || greeted l₀.a)
    rw [hl.answered, greeted, greeted, hl.a.log]
  | sendChat now text =>
    have hsafe₀ : Safe h l₀ (.sendChat now text) := by
      intro hc
      rw [← hl.answered]
      exact hsafe (hl.connected.trans hc)
    exact ⟨_, phase_sendChat hp hsafe₀, hl.sendChat now text⟩

/-! ### Nothing on its way -/

def Idle (s : Session) : Prop := s.socket = [] ∧ ∀ op ∈ s.reads, op.got = 0

instance (s : Session) : Decidable (Idle s) :=
  inferInstanceAs (Decidable (s.socket = [] ∧ ∀ op ∈ s.reads, op.got = 0))

theorem idle_iff {s₀ s : Session} (hs : Session.Amid s₀ s) : Idle s ↔ s₀.socket = [] := by
  cases hs with
  | frame got buf _ hat heq =>
    have hlen := hat.readBuf
    rw [Idle, hat.reads, heq, List.append_eq_nil_iff, List.take_eq_nil_iff,
      List.forall_mem_singleton]
    constructor
    · rintro ⟨hsocket, hgot⟩
      exact ⟨.inl hgot, hsocket⟩
    · rintro ⟨hgot | hnil, hsocket⟩
      · exact ⟨hsocket, hgot⟩
      · rw [hnil] at hlen
        cases hlen
  | chunk got buf _ hat heq =>
    have hlen := hat.fileReadBuf
    rw [Idle, hat.reads, heq, List.append_eq_nil_iff, List.take_eq_nil_iff,
      List.forall_mem_singleton]
    constructor
    · rintro ⟨hsocket, hgot⟩
      exact ⟨.inl hgot, hsocket⟩
    · rintro ⟨hgot | hnil, hsocket⟩
      · exact ⟨hsocket, hgot⟩
      · rw [hnil] at hlen
        exact absurd hlen.symm (Nat.succ_ne_zero _)
  | still hnone heq =>
    rw [Idle, hnone, heq]
    simp

def Quiet (l : Link) : Prop := Idle l.a ∧ Idle l.b

/-- Both sessions are ESTABLISHED, and `B`'s app has every message that was sent, in order. -/
structure Complete (h : Hosts) (l : Link) : Prop where
  stateA : l.a.state = .established
  stateB : l.b.state = .established
  mailbox : mailboxOf l.b.log = l.sent.map (event h)

theorem messageFrame_ne_nil (m : BVTCPMessage) : messageFrame m ≠ [] :=
  List.ne_nil_of_length_pos (by rw [length_messageFrame]; decide)

theorem stream_eq_nil {cs : List (UInt64 × Bytes)} (h : stream cs = []) : cs = [] := by
  cases cs with
  | nil => rfl
  | cons c cs =>
    rw [stream, List.flatMap_cons, List.append_eq_nil_iff] at h
    exact absurd h.1 (messageFrame_ne_nil _)

theorem Phase.complete {l : Link} (hp : Phase h l) (hacc : l.accepted = true)
    (hqa : l.a.socket = []) (hqb : l.b.socket = []) : Complete h l := by
  cases hp with
  | untouched _ _ hnot _ => exact absurd (hacc.symm.trans hnot) (by decide)
  | greeted now ha _ _ _ => exact absurd (ha.socket.symm.trans hqa) (messageFrame_ne_nil _)
  | answered env _ _ hb _ _ =>
    have hnil := hb.socket.symm.trans hqb
    rw [List.append_eq_nil_iff] at hnil
    exact absurd hnil.1 (messageFrame_ne_nil _)
  | identified now done rest ha _ _ =>
    exact absurd (ha.socket.symm.trans hqa) (messageFrame_ne_nil _)
  | settled done rest ha hb _ =>
    obtain rfl : rest = [] := stream_eq_nil (hb.socket.symm.trans hqb)
    refine ⟨ha.state, hb.state, ?_⟩
    rw [hb.mailbox, hb.sent, List.append_nil]

theorem AmidPhase.complete (hp : AmidPhase h l) (hacc : l.accepted = true) (hquiet : l.Quiet) :
    Complete h l := by
  obtain ⟨l₀, hp, hl⟩ := hp
  have hcomplete := hp.complete (hl.accepted.symm.trans hacc) ((idle_iff hl.a).mp hquiet.1)
    ((idle_iff hl.b).mp hquiet.2)
  refine ⟨hl.a.state.symm.trans hcomplete.stateA, hl.b.state.symm.trans hcomplete.stateB, ?_⟩
  rw [← hl.b.log, hl.sent]
  exact hcomplete.mailbox

/-! ### Deliveries lead there -/

/-- Bytes arrive, or a callback runs that none arrive in. -/
def IsDelivery : Move → Prop
  | .arriveAtA _ => True
  | .arriveAtB _ => True
  | .completeAtA _ w => w = .quiet
  | .completeAtB _ w => w = .quiet
  | _ => False

inductive Drains (h : Hosts) : Link → Prop
  | rest {l : Link} : l.a.socket = [] → l.b.socket = [] → Drains h l
  | toA {l : Link} (env : Env) : Drains h (l.deliverToA env) → Drains h l
  | toB {l : Link} (env : Env) : Drains h (l.deliverToB h env) → Drains h l

theorem drains_settled (rest : List (UInt64 × Bytes)) :
    ∀ (l : Link) (done : List (UInt64 × Bytes)), AWaits l .established [] → BServes h l done rest →
      Drains h l := by
  induction rest with
  | nil =>
    intro l done ha hb
    exact .rest ha.socket hb.socket
  | cons c cs ih =>
    intro l done ha hb
    obtain ⟨hsame, hb'⟩ := hb.deliver .blank
    exact .toB .blank (ih _ _ (ha.of_eq hsame rfl) hb')

theorem Phase.drains {l : Link} (hp : Phase h l) (hname : h.nameA.length ≤ 128)
    (hc : l.connected = true) (hacc : l.accepted = true) : Drains h l := by
  -- the later stages first: each leads to the next by one delivery
  have hidentified : ∀ (l : Link) (now : UInt64) (done rest : List (UInt64 × Bytes)),
      AWaits l .unprepared (messageFrame (Session.confirmEstablishedMessage now)) →
      BServes h l done rest → Drains h l := by
    intro l now done rest ha hb
    obtain ⟨ha', hsame⟩ := ha.confirm .blank
    exact .toA .blank (drains_settled rest _ done ha' (hb.of_eq hsame rfl))
  have hanswered : ∀ (l : Link) (env : Env), AWaits l .unprepared [] →
      BWaits l (messageFrame (Session.replyMsg env h.nameA) ++ stream l.sent) →
      (∀ c ∈ l.sent, Session.isFileFrameType (at_ c.2 2) = false) → Drains h l := by
    intro l env ha hb hplain
    obtain ⟨ha', hb'⟩ := hb.identify ha hname hplain .blank
    exact .toB .blank (hidentified _ _ _ _ ha' hb')
  cases hp with
  | untouched _ _ hnot _ => exact absurd (hacc.symm.trans hnot) (by decide)
  | greeted now ha hb _ hsent =>
    obtain ⟨ha', hb'⟩ := ha.answer hb hsent hc .blank
    refine .toA .blank (hanswered _ .blank ha' hb' ?_)
    show ∀ c ∈ l.sent, _
    rw [hsent]
    intro c hmem
    cases hmem
  | answered env ha _ hb _ hplain => exact hanswered l env ha hb hplain
  | identified now done rest ha hb _ => exact hidentified l now done rest ha hb
  | settled done rest ha hb _ => exact drains_settled rest l done ha hb

/-- An undisturbed delivery is made of bytes that arrive and a callback. -/
theorem Amid.deliverToA (hl : Amid l₀ l) (hp : Phase h l₀) (env : Env) :
    Amid (l₀.deliverToA env)
      (Runs.run (step h) l [.arriveAtA messageFrameSizeBytes, .completeAtA env .quiet]) := by
  have harrive := hl.a.arrive messageFrameSizeBytes
  have hl' : Amid l₀ { l with a := l.a.arrive messageFrameSizeBytes } :=
    ⟨harrive, hl.b, hl.connected, hl.accepted, hl.answered, hl.sent⟩
  show Amid _ (Link.setA ((l.a.arrive messageFrameSizeBytes).completeRead env .quiet)
    { l with a := l.a.arrive messageFrameSizeBytes })
  by_cases hfull : (l.a.arrive messageFrameSizeBytes).Full
  · exact hl'.setA (hp.completeRead_a harrive hfull (Session.calm_quiet _) env)
  · have hsame : l₀.deliverToA env = l₀ := by
      refine deliverToA_same ?_
      obtain hmode | hnone := hp.waits_a
      · refine Session.readOnce_of_empty env hmode ?_
        obtain hnil | ⟨-, hlen⟩ := hp.incoming_a
        · exact hnil
        · exact absurd (hl.a.full_of_length hmode hlen) hfull
      · exact Session.readOnce_of_no_reads env hnone
    have hself : Link.setA (l.a.arrive messageFrameSizeBytes)
        { l with a := l.a.arrive messageFrameSizeBytes } =
          { l with a := l.a.arrive messageFrameSizeBytes } :=
      setA_self { l with a := l.a.arrive messageFrameSizeBytes }
    rw [Session.completeRead_of_not_full hfull, hsame, hself]
    exact hl'

theorem Amid.deliverToB (hl : Amid l₀ l) (hp : Phase h l₀) (env : Env) :
    Amid (l₀.deliverToB h env)
      (Runs.run (step h) l [.arriveAtB messageFrameSizeBytes, .completeAtB env .quiet]) := by
  have harrive := hl.b.arrive messageFrameSizeBytes
  have hl' : Amid l₀ { l with b := l.b.arrive messageFrameSizeBytes } :=
    ⟨hl.a, harrive, hl.connected, hl.accepted, hl.answered, hl.sent⟩
  show Amid _ (Link.setB ((l.b.arrive messageFrameSizeBytes).completeRead (envOfB h env) .quiet)
    { l with b := l.b.arrive messageFrameSizeBytes })
  by_cases hfull : (l.b.arrive messageFrameSizeBytes).Full
  · exact hl'.setB (hp.completeRead_b harrive hfull (Session.calm_quiet _) env)
  · have hsame : l₀.deliverToB h env = l₀ := by
      refine deliverToB_same ?_
      obtain hmode | hnone := hp.waits_b
      · refine Session.readOnce_of_empty _ hmode ?_
        obtain hnil | ⟨-, hlen⟩ | ⟨c, cs, -, -, hsocket⟩ := hp.incoming_b
        · exact hnil
        · exact absurd (hl.b.full_of_length hmode hlen) hfull
        · refine absurd (hl.b.full_of_length hmode ?_) hfull
          rw [hsocket, List.length_append, PeerFrame.length_bytes]
          exact Nat.le_add_right _ _
      · exact Session.readOnce_of_no_reads _ hnone
    have hself : Link.setB (l.b.arrive messageFrameSizeBytes)
        { l with b := l.b.arrive messageFrameSizeBytes } =
          { l with b := l.b.arrive messageFrameSizeBytes } :=
      setB_self { l with b := l.b.arrive messageFrameSizeBytes }
    rw [Session.completeRead_of_not_full hfull, hsame, hself]
    exact hl'

/-- What an undisturbed link comes to, a link amid it comes to. -/
theorem Drains.lift {l₀ : Link} (hd : Drains h l₀) : ∀ l : Link, Phase h l₀ → Amid l₀ l →
    h.nameA.length ≤ 128 → ∃ moves, (∀ m ∈ moves, IsDelivery m) ∧
      (Runs.run (step h) l moves).Quiet := by
  induction hd with
  | rest hqa hqb =>
    intro l hp hl hname
    refine ⟨[], ?_, (idle_iff hl.a).mpr hqa, (idle_iff hl.b).mpr hqb⟩
    intro m hm
    cases hm
  | toA env _ ih =>
    intro l hp hl hname
    obtain ⟨moves, hmoves, hquiet⟩ :=
      ih _ (phase_deliverToA hp hname env) (hl.deliverToA hp env) hname
    refine ⟨[.arriveAtA messageFrameSizeBytes, .completeAtA env .quiet] ++ moves, ?_, ?_⟩
    · intro m hm
      simp only [List.cons_append, List.nil_append, List.mem_cons] at hm
      rcases hm with rfl | rfl | hm
      · trivial
      · rfl
      · exact hmoves m hm
    · rw [Runs.run_append]
      exact hquiet
  | toB env _ ih =>
    intro l hp hl hname
    obtain ⟨moves, hmoves, hquiet⟩ :=
      ih _ (phase_deliverToB hp env) (hl.deliverToB hp env) hname
    refine ⟨[.arriveAtB messageFrameSizeBytes, .completeAtB env .quiet] ++ moves, ?_, ?_⟩
    · intro m hm
      simp only [List.cons_append, List.nil_append, List.mem_cons] at hm
      rcases hm with rfl | rfl | hm
      · trivial
      · rfl
      · exact hmoves m hm
    · rw [Runs.run_append]
      exact hquiet

theorem IsDelivery.safe {m : Move} (hm : IsDelivery m) (hname : h.nameA.length ≤ 128) (l : Link) :
    Safe h l m := by
  cases m with
  | arriveAtA n => trivial
  | arriveAtB n => trivial
  | completeAtA env w =>
    obtain rfl : w = .quiet := hm
    exact ⟨hname, l.a.calm_quiet⟩
  | completeAtB env w =>
    obtain rfl : w = .quiet := hm
    exact l.b.calm_quiet
  | connectHandler => trivial
  | accept now => trivial
  | writeHandler => trivial
  | sendChat now text => cases hm

theorem step_of_delivery (h : Hosts) (l : Link) {m : Move} (hm : IsDelivery m) :
    (l.step h m).accepted = l.accepted ∧ (l.step h m).sent = l.sent := by
  cases m with
  | arriveAtA n => exact ⟨rfl, rfl⟩
  | arriveAtB n => exact ⟨rfl, rfl⟩
  | completeAtA env w => exact ⟨rfl, rfl⟩
  | completeAtB env w => exact ⟨rfl, rfl⟩
  | connectHandler => cases hm
  | accept now => cases hm
  | writeHandler => cases hm
  | sendChat now text => cases hm

theorem run_of_deliveries (hname : h.nameA.length ≤ 128) (moves : List Move) :
    ∀ l : Link, AmidPhase h l → (∀ m ∈ moves, IsDelivery m) →
      AmidPhase h (Runs.run (step h) l moves) ∧
        (Runs.run (step h) l moves).accepted = l.accepted ∧
        (Runs.run (step h) l moves).sent = l.sent := by
  induction moves with
  | nil =>
    intro l hp _
    exact ⟨hp, rfl, rfl⟩
  | cons m moves ih =>
    intro l hp hall
    have hm := hall m List.mem_cons_self
    obtain ⟨hacc, hsent⟩ := step_of_delivery h l hm
    obtain ⟨hp', hacc', hsent'⟩ :=
      ih _ (step_phase hp (hm.safe hname l)) fun m' hm' => hall m' (List.mem_cons_of_mem m hm')
    exact ⟨hp', hacc'.trans hacc, hsent'.trans hsent⟩

/-- **The handshake completes.**  In every run whose chat messages go out after `A` has answered
HELLO, and in whose callbacks no byte arrives that is not zero: once `B` has accepted, a state with
nothing on its way has both sessions ESTABLISHED and every message that `SendDataToNode` took in
`B`'s app; and from every state of a connection that both sides have taken up, some deliveries lead
to such a state. -/
theorem handshake_completes (h : Hosts) (moves : List Move)
    (hsafe : Runs.Meets (step h) (Safe h) (start h) moves) :
    ((Runs.run (step h) (start h) moves).accepted = true →
      (Runs.run (step h) (start h) moves).Quiet →
        Complete h (Runs.run (step h) (start h) moves)) ∧
      (h.nameA.length ≤ 128 → (Runs.run (step h) (start h) moves).connected = true →
        (Runs.run (step h) (start h) moves).accepted = true →
          ∃ more, (∀ m ∈ more, IsDelivery m) ∧
            (Runs.run (step h) (start h) (moves ++ more)).sent =
              (Runs.run (step h) (start h) moves).sent ∧
            Complete h (Runs.run (step h) (start h) (moves ++ more))) := by
  have hstart : AmidPhase h (start h) :=
    ⟨start h, start_phase h, .refl (.inr (.inr rfl)), .refl (.inr (.inr rfl)), rfl, rfl, rfl, rfl⟩
  have hp : AmidPhase h (Runs.run (step h) (start h) moves) :=
    Runs.run_invariant (I := AmidPhase h) (fun l m hl hm => step_phase hl hm) hstart hsafe
  refine ⟨hp.complete, ?_⟩
  intro hname hc hacc
  obtain ⟨l₀, hp₀, hl⟩ := hp
  have hdrains := hp₀.drains hname (hl.connected.symm.trans hc) (hl.accepted.symm.trans hacc)
  obtain ⟨more, hmore, hquiet⟩ := hdrains.lift _ hp₀ hl hname
  obtain ⟨hp', hacc', hsent'⟩ := run_of_deliveries hname more _ ⟨l₀, hp₀, hl⟩ hmore
  refine ⟨more, hmore, ?_⟩
  rw [Runs.run_append]
  exact ⟨hsent', hp'.complete (hacc'.trans hacc) hquiet⟩

def twoHosts : Hosts := ⟨[97], [98], fun _ => false, rfl⟩

/-- A message sent once HELLO has been answered, which comes in two pieces. -/
def helloThenChat : List Move :=
  [.connectHandler, .accept 0, .arriveAtA 138, .completeAtA .blank .quiet, .writeHandler,
    .sendChat 0 [104, 105], .arriveAtB 138, .completeAtB .blank .quiet, .arriveAtB 100,
    .arriveAtA 138, .completeAtA .blank .quiet, .arriveAtB 38, .completeAtB .blank .quiet]

theorem handshake_completes_hi :
    Complete twoHosts (Runs.run (step twoHosts) (start twoHosts) helloThenChat) := by
  have hname : twoHosts.nameA.length ≤ 128 := by decide
  have hsafe : Runs.Meets (step twoHosts) (Safe twoHosts) (start twoHosts) helloThenChat := by
    refine ⟨trivial, trivial, trivial, ⟨hname, Session.calm_quiet _⟩, trivial, ?_, trivial,
      Session.calm_quiet _, trivial, trivial, ⟨hname, Session.calm_quiet _⟩, trivial,
      Session.calm_quiet _, trivial⟩
    exact fun _ => ⟨by decide +kernel, by decide⟩
  exact (handshake_completes twoHosts helloThenChat hsafe).1 (by decide +kernel)
    ⟨by decide +kernel, by decide +kernel⟩

/-! ### An early message -/

theorem run_of_blocked (h : Hosts) (moves : List Move) :
    ∀ l : Link, l.accepted = true → l.b.reads = [] →
      (Runs.run (step h) l moves).b.state = l.b.state ∧
        (Runs.run (step h) l moves).b.log = l.b.log := by
  induction moves with
  | nil =>
    intro l _ _
    exact ⟨rfl, rfl⟩
  | cons m moves ih =>
    intro l hacc hreads
    have hstep : (l.step h m).accepted = true ∧ (l.step h m).b.reads = [] ∧
        (l.step h m).b.state = l.b.state ∧ (l.step h m).b.log = l.b.log := by
      cases m with
      | connectHandler =>
        rw [step]
        split <;> exact ⟨hacc, hreads, rfl, rfl⟩
      | accept now =>
        rw [step, if_pos hacc]
        exact ⟨hacc, hreads, rfl, rfl⟩
      | arriveAtA n => exact ⟨hacc, hreads, rfl, rfl⟩
      | arriveAtB n =>
        rw [step, Session.arrive_of_no_reads hreads]
        exact ⟨hacc, hreads, rfl, rfl⟩
      | completeAtA env w => exact ⟨hacc, hreads, rfl, rfl⟩
      | completeAtB env w =>
        have hfull : ¬ l.b.Full := by
          rw [Session.Full, hreads]
          exact Bool.false_ne_true
        rw [step, Session.completeRead_of_not_full hfull, setB_self]
        exact ⟨hacc, hreads, rfl, rfl⟩
      | writeHandler => exact ⟨hacc, hreads, rfl, rfl⟩
      | sendChat now text =>
        rw [step, sendDataToNode]
        split <;> exact ⟨hacc, hreads, rfl, rfl⟩
    obtain ⟨hacc', hreads', hstate, hlog⟩ := hstep
    obtain ⟨hstate', hlog'⟩ := ih _ hacc' hreads'
    exact ⟨hstate'.trans hstate, hlog'.trans hlog⟩

/-- The user of `a` sends `hi` before HELLO has arrived. -/
def chatThenHello : List Move :=
  [.connectHandler, .accept 0, .sendChat 0 [104, 105], .arriveAtB 138, .completeAtB .blank .quiet,
    .arriveAtA 138, .completeAtA .blank .quiet]

/-- `b` reads the early message while UNPREPARED, for which it has no branch, and never reads again:
no continuation establishes its session or brings the message to its app. -/
theorem early_chat_blocks :
    (Runs.run (step twoHosts) (start twoHosts) chatThenHello).sent = [(0, [104, 105])] ∧
      ¬ ∃ moves,
        (Runs.run (step twoHosts) (start twoHosts) (chatThenHello ++ moves)).b.state =
            .established ∨
          mailboxOf (Runs.run (step twoHosts) (start twoHosts) (chatThenHello ++ moves)).b.log ≠
            [] := by
  refine ⟨by decide +kernel, ?_⟩
  rintro ⟨moves, hbad⟩
  rw [Runs.run_append] at hbad
  obtain ⟨hstate, hlog⟩ := run_of_blocked twoHosts moves
    (Runs.run (step twoHosts) (start twoHosts) chatThenHello) (by decide +kernel)
    (by decide +kernel)
  rw [hstate, hlog] at hbad
  revert hbad
  decide +kernel

end Link

end LocalChat
