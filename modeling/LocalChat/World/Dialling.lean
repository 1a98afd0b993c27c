import LocalChat.World.Basic

/-!
# One host dials

Only the host with the smaller name dials.  As long as no session is taken out of a map and no
connection is lost that is needed, the first of its attempts that runs its connect handler is the
only one that is ever listed; the others are given up.  So the two hosts go through one handshake,
whose stages are those of `Stage`, and at its end both list their end of it.

`Dialling` is the invariant of the two managers and the connections.  There is a lemma for each
thing that can happen: `Dialling.dial`, `connect`, `fail`, `giveUp`, `enter`, `accept`, `answer`,
`identify`, `confirm`, `lose`.
-/

namespace LocalChat

open Octets

namespace BVTCPConnectionManager

variable {m m' : BVTCPConnectionManager} {r : SessionRef}

def Holds (m : BVTCPConnectionManager) (r : SessionRef) : Prop :=
  ∃ id, m.sessions.lookup id = some r

/-- A listed session that reads frames, in state `st`. -/
structure Entered (m : BVTCPConnectionManager) (r : SessionRef) (st : BVSessionState) : Prop where
  connection : (m.data r).connection = .live
  state : (m.data r).state = st
  held : m.Holds r

/-- An accepted session that has not said its name. -/
structure Waits (m : BVTCPConnectionManager) (r : SessionRef) : Prop where
  unprepared : m.Unprepared r
  notHeld : ¬ m.Holds r

theorem Entered.unprepared (h : m.Entered r .unprepared) : m.Unprepared r :=
  ⟨h.connection, h.state⟩

theorem Listed.holds_unique (h : m.Listed) {r' : SessionRef} (hr : m.Holds r) (hr' : m.Holds r')
    (hname : m.nameOf r = m.nameOf r') : r = r' := by
  obtain ⟨i, hi⟩ := hr
  obtain ⟨j, hj⟩ := hr'
  obtain rfl := h.one i j r r' hi hj hname
  exact Option.some.inj (hi.symm.trans hj)

theorem present_iff_holds {serviceName : Bytes} :
    m.isSessionAlreadyPresent serviceName = true ↔
      ∃ r, m.Holds r ∧ m.nameOf r = serviceName := by
  rw [isSessionAlreadyPresent_iff]
  constructor
  · rintro ⟨i, r, hi, hname⟩
    exact ⟨r, ⟨i, hi⟩, hname⟩
  · rintro ⟨r, ⟨i, hi⟩, hname⟩
    exact ⟨i, r, hi, hname⟩

theorem Enters.holds_iff {serviceName : Bytes} (he : m.Enters r serviceName m')
    (hempty : ∀ q, ¬ m.Holds q) (q : SessionRef) : m'.Holds q ↔ q = r := by
  constructor
  · rintro ⟨i, hi⟩
    rw [he.sessions] at hi
    rcases eq_or_ne i (m.data r).sessionID with rfl | hne
    · rw [AList.lookup_insert, Option.some.injEq] at hi
      exact hi.symm
    · rw [AList.lookup_insert_ne hne] at hi
      exact absurd ⟨i, hi⟩ (hempty q)
  · rintro rfl
    exact ⟨(m.data q).sessionID, by rw [he.sessions, AList.lookup_insert]⟩

end BVTCPConnectionManager

namespace World

/-! ### The stages of a connection -/

/-- A connection of the session `r` of the dialling host `m` with the host `k`. -/
inductive Stage (m k : BVTCPConnectionManager) (r : SessionRef) (c : TcpConnection) : Prop
  /-- the connect handler has not run -/
  | pending : (m.data r).connection = .connecting → c.toAcceptor = [] →
      (c.acceptor = none ∧ c.toDialler = [] ∨
        ∃ q, c.acceptor = some q ∧ k.Waits q ∧ (c.alive = true → c.toDialler = [.hello])) →
      (c.alive = false → ∃ q, m.Holds q) → Stage m k r c
  /-- the connect handler came second -/
  | givenUp : (m.data r).connection = .dropped → c.alive = false →
      (∀ q, c.acceptor = some q → k.Waits q) → Stage m k r c
  | entered : m.Entered r .unprepared → c = ⟨none, [], [], true⟩ → Stage m k r c
  | greeted (q : SessionRef) : m.Entered r .unprepared → k.Waits q →
      c = ⟨some q, [.hello], [], true⟩ → Stage m k r c
  | answered (q : SessionRef) : m.Entered r .unprepared → k.Waits q →
      c = ⟨some q, [], [.helloBack (some m.thisMachine)], true⟩ → Stage m k r c
  | identified (q : SessionRef) : m.Entered r .unprepared → k.Entered q .established →
      c = ⟨some q, [.confirmEstablished], [], true⟩ → Stage m k r c
  | settled (q : SessionRef) : m.Entered r .established → k.Entered q .established →
      c = ⟨some q, [], [], true⟩ → Stage m k r c

variable {m m' k k' : BVTCPConnectionManager} {r : SessionRef} {c : TcpConnection}

theorem Stage.frame (h : Stage m k r c) (hdata : m'.data r = m.data r)
    (hthis : m'.thisMachine = m.thisMachine) (hholds : m.Holds r → m'.Holds r)
    (hany : (∃ q, m.Holds q) → ∃ q, m'.Holds q)
    (hacc : ∀ q, c.acceptor = some q → k'.data q = k.data q ∧ (k'.Holds q ↔ k.Holds q)) :
    Stage m' k' r c := by
  have hentered : ∀ st, m.Entered r st → m'.Entered r st := fun st he =>
    ⟨hdata ▸ he.connection, hdata ▸ he.state, hholds he.held⟩
  have hwaits : ∀ q, c.acceptor = some q → k.Waits q → k'.Waits q := by
    intro q hq hw
    obtain ⟨hd, hh⟩ := hacc q hq
    refine ⟨?_, fun hheld => hw.notHeld (hh.mp hheld)⟩
    rw [BVTCPConnectionManager.Unprepared, hd]
    exact hw.unprepared
  have henteredK : ∀ q st, c.acceptor = some q → k.Entered q st → k'.Entered q st := by
    intro q st hq he
    obtain ⟨hd, hh⟩ := hacc q hq
    exact ⟨hd ▸ he.connection, hd ▸ he.state, hh.mpr he.held⟩
  cases h with
  | pending hc hto hgreet hlost =>
    refine .pending (hdata ▸ hc) hto ?_ fun hdead => hany (hlost hdead)
    rcases hgreet with hnone | ⟨q, hq, hw, hhello⟩
    · exact .inl hnone
    · exact .inr ⟨q, hq, hwaits q hq hw, hhello⟩
  | givenUp hc hdead hw => exact .givenUp (hdata ▸ hc) hdead fun q hq => hwaits q hq (hw q hq)
  | entered he heq => exact .entered (hentered _ he) heq
  | greeted q he hw heq => exact .greeted q (hentered _ he) (hwaits q (by rw [heq]) hw) heq
  | answered q he hw heq =>
    exact .answered q (hentered _ he) (hwaits q (by rw [heq]) hw) (hthis ▸ heq)
  | identified q he hq heq =>
    exact .identified q (hentered _ he) (henteredK q _ (by rw [heq]) hq) heq
  | settled q he hq heq => exact .settled q (hentered _ he) (henteredK q _ (by rw [heq]) hq) heq

/-- A session that accepted a connection reads frames. -/
theorem Stage.acceptor_live (h : Stage m k r c) {q : SessionRef} (hq : c.acceptor = some q) :
    (k.data q).connection = .live := by
  cases h with
  | pending _ _ hgreet _ =>
    rcases hgreet with ⟨hnone, -⟩ | ⟨q', hq', hw, -⟩
    · rw [hnone] at hq
      cases hq
    · rw [hq'] at hq
      cases hq
      exact hw.unprepared.1
  | givenUp _ _ hw => exact (hw q hq).unprepared.1
  | entered _ heq =>
    rw [heq] at hq
    cases hq
  | greeted q' _ hw heq =>
    rw [heq] at hq
    cases hq
    exact hw.unprepared.1
  | answered q' _ hw heq =>
    rw [heq] at hq
    cases hq
    exact hw.unprepared.1
  | identified q' _ he heq =>
    rw [heq] at hq
    cases hq
    exact he.connection
  | settled q' _ he heq =>
    rw [heq] at hq
    cases hq
    exact he.connection

/-- Only a connection whose connect handler has run belongs to a listed session. -/
theorem Stage.entered_of_live (h : Stage m k r c) (hlive : (m.data r).connection = .live) :
    m.Holds r ∧ c.alive = true := by
  cases h with
  | pending hc _ _ _ =>
    rw [hc] at hlive
    cases hlive
  | givenUp hc _ _ =>
    rw [hc] at hlive
    cases hlive
  | entered he heq => exact ⟨he.held, by rw [heq]⟩
  | greeted q he _ heq => exact ⟨he.held, by rw [heq]⟩
  | answered q he _ heq => exact ⟨he.held, by rw [heq]⟩
  | identified q he _ heq => exact ⟨he.held, by rw [heq]⟩
  | settled q he _ heq => exact ⟨he.held, by rw [heq]⟩

/-! ### The invariant -/

/-- `m` has the smaller name.  It alone dials, and what it lists is one of its connections. -/
structure Dialling (m k : BVTCPConnectionManager) (tcp : SessionRef → Option TcpConnection) :
    Prop where
  listedM : m.Listed
  listedK : k.Listed
  smaller : m.thisMachine < k.thisMachine
  made : ∀ r c, tcp r = some c → r < m.created
  stage : ∀ r c, tcp r = some c → Stage m k r c
  named : ∀ r, (m.data r).connection = .connecting → m.nameOf r = k.thisMachine
  heldM : ∀ r, m.Holds r → m.nameOf r = k.thisMachine ∧ (m.data r).connection = .live ∧
    ∃ c, tcp r = some c
  heldK : ∀ q, k.Holds q → k.nameOf q = m.thisMachine ∧
    ∃ r c, tcp r = some c ∧ c.acceptor = some q ∧ m.Holds r
  ends : ∀ r r' c c' q, tcp r = some c → tcp r' = some c' → c.acceptor = some q →
    c'.acceptor = some q → r = r'
  waiting : ∀ q, (k.data q).connection ≠ .connecting
  serviceM : ∀ n id, m.serviceSessionid n = some id → n = k.thisMachine
  serviceK : ∀ n id, k.serviceSessionid n = some id → n = m.thisMachine

variable {tcp : SessionRef → Option TcpConnection}

/-- At the end of the handshake both hosts list their session of it. -/
theorem Dialling.settled (h : Dialling m k tcp) {q : SessionRef} (hr : m.Holds r)
    (hc : tcp r = some c)
    (hquiet : c.acceptor ≠ none ∧ c.toDialler = [] ∧ c.toAcceptor = [])
    (hq : c.acceptor = some q) :
    m.Entered r .established ∧ k.Entered q .established ∧ c.alive = true := by
  have hlive := (h.heldM r hr).2.1
  cases h.stage r c hc with
  | pending hconn _ _ _ =>
    rw [hconn] at hlive
    cases hlive
  | givenUp hconn _ _ =>
    rw [hconn] at hlive
    cases hlive
  | entered _ heq =>
    rw [heq] at hq
    cases hq
  | greeted q' _ _ heq =>
    rw [heq] at hquiet
    cases hquiet.2.1
  | answered q' _ _ heq =>
    rw [heq] at hquiet
    cases hquiet.2.2
  | identified q' _ _ heq =>
    rw [heq] at hquiet
    cases hquiet.2.1
  | settled q' he he' heq =>
    rw [heq] at hq
    cases hq
    exact ⟨he, he', by rw [heq]⟩

/-! ### Steps that leave the sessions alone -/

structure SameView (m m' : BVTCPConnectionManager) : Prop where
  thisMachine : m'.thisMachine = m.thisMachine
  lookup : ∀ i, m'.sessions.lookup i = m.sessions.lookup i
  data : m'.data = m.data
  created : m'.created = m.created
  service : ∀ n id, m'.serviceSessionid n = some id → m.serviceSessionid n = some id

theorem SameView.refl (m : BVTCPConnectionManager) : SameView m m :=
  ⟨rfl, fun _ => rfl, rfl, rfl, fun _ _ h => h⟩

theorem SameView.trans {m'' : BVTCPConnectionManager} (h : SameView m m') (h' : SameView m' m'') :
    SameView m m'' :=
  ⟨h'.thisMachine.trans h.thisMachine, fun i => (h'.lookup i).trans (h.lookup i),
    h'.data.trans h.data, h'.created.trans h.created,
    fun n id hn => h.service n id (h'.service n id hn)⟩

theorem SameView.nameOf (h : SameView m m') : m'.nameOf = m.nameOf := by
  funext r
  rw [BVTCPConnectionManager.nameOf, h.data, BVTCPConnectionManager.nameOf]

theorem SameView.holds (h : SameView m m') (r : SessionRef) : m'.Holds r ↔ m.Holds r := by
  simp only [BVTCPConnectionManager.Holds, h.lookup]

theorem SameView.listed (h : SameView m m') (hl : m.Listed) : m'.Listed where
  own := by
    intro i r hi
    rw [h.data]
    exact hl.own i r (h.lookup i ▸ hi)
  made := by
    intro i r hi
    rw [h.created]
    exact hl.made i r (h.lookup i ▸ hi)
  unmade := by
    intro r hr
    rw [h.data]
    exact hl.unmade r (h.created ▸ hr)
  one := by
    intro i j r r' hi hj hname
    rw [h.nameOf] at hname
    exact hl.one i j r r' (h.lookup i ▸ hi) (h.lookup j ▸ hj) hname

theorem Dialling.of_sameView (h : Dialling m k tcp) (hm : SameView m m') (hk : SameView k k') :
    Dialling m' k' tcp where
  listedM := hm.listed h.listedM
  listedK := hk.listed h.listedK
  smaller := by
    rw [hm.thisMachine, hk.thisMachine]
    exact h.smaller
  made := by
    intro r c hc
    rw [hm.created]
    exact h.made r c hc
  stage := by
    intro r c hc
    refine (h.stage r c hc).frame (by rw [hm.data]) hm.thisMachine (hm.holds r).mpr ?_ ?_
    · rintro ⟨q, hq⟩
      exact ⟨q, (hm.holds q).mpr hq⟩
    · intro q _
      exact ⟨by rw [hk.data], hk.holds q⟩
  named := by
    intro r hc
    rw [hm.nameOf, hk.thisMachine]
    exact h.named r (hm.data ▸ hc)
  heldM := by
    intro r hr
    rw [hm.nameOf, hm.data, hk.thisMachine]
    exact h.heldM r ((hm.holds r).mp hr)
  heldK := by
    intro q hq
    rw [hk.nameOf, hm.thisMachine]
    obtain ⟨hname, r, c, hc, hacc, hr⟩ := h.heldK q ((hk.holds q).mp hq)
    exact ⟨hname, r, c, hc, hacc, (hm.holds r).mpr hr⟩
  ends := h.ends
  waiting := by
    intro q
    rw [hk.data]
    exact h.waiting q
  serviceM := by
    intro n id hn
    rw [hk.thisMachine]
    exact h.serviceM n id (hm.service n id hn)
  serviceK := by
    intro n id hn
    rw [hm.thisMachine]
    exact h.serviceK n id (hk.service n id hn)

/-! ### The dialling host -/

/-- A step on the session `r` of the dialling host that leaves the maps, the ids and the names
alone, and the connection with the session that accepted it. -/
structure Turn (m : BVTCPConnectionManager) (tcp : SessionRef → Option TcpConnection)
    (r : SessionRef) (m' : BVTCPConnectionManager) (tcp' : SessionRef → Option TcpConnection) :
    Prop where
  sessions : m.SameSessions m'
  created : m'.created = m.created
  thisMachine : m'.thisMachine = m.thisMachine
  service : m'.serviceSessionid = m.serviceSessionid
  exists_ : r < m.created
  data : ∀ q, q ≠ r → m'.data q = m.data q
  connecting : (m'.data r).connection = .connecting → (m.data r).connection = .connecting
  live : m.Holds r → (m'.data r).connection = .live
  others : ∀ q, q ≠ r → tcp' q = tcp q
  back : ∀ c', tcp' r = some c' →
    c'.acceptor = none ∨ ∃ c, tcp r = some c ∧ c'.acceptor = c.acceptor
  forth : ∀ c, tcp r = some c → ∃ c', tcp' r = some c' ∧ c'.acceptor = c.acceptor

variable {tcp' : SessionRef → Option TcpConnection}

theorem of_update_some {P : TcpConnection → Prop} (h : P c) :
    ∀ c', Function.update tcp r (some c) r = some c' → P c' := by
  intro c' hc'
  rw [Function.update_self, Option.some.injEq] at hc'
  exact hc' ▸ h

theorem exists_update_of_some {c' : TcpConnection} (htcp : tcp r = some c)
    (hacc : c'.acceptor = c.acceptor) :
    ∀ c₁, tcp r = some c₁ →
      ∃ c₂, Function.update tcp r (some c') r = some c₂ ∧ c₂.acceptor = c₁.acceptor := by
  intro c₁ hc₁
  rw [htcp, Option.some.injEq] at hc₁
  exact ⟨c', Function.update_self _ _ _, hc₁ ▸ hacc⟩

theorem Turn.holds (h : Turn m tcp r m' tcp') (q : SessionRef) : m'.Holds q ↔ m.Holds q := by
  simp only [BVTCPConnectionManager.Holds, h.sessions.sessions]

theorem Turn.nameOf (h : Turn m tcp r m' tcp') {q : SessionRef} (hq : q < m.created) :
    m'.nameOf q = m.nameOf q :=
  h.sessions.name q hq

theorem Turn.back_of_some (h : Turn m tcp r m' tcp') {q p : SessionRef} {c' : TcpConnection}
    (hc : tcp' q = some c') (hp : c'.acceptor = some p) :
    ∃ c, tcp q = some c ∧ c.acceptor = some p := by
  rcases eq_or_ne q r with rfl | hne
  · rcases h.back c' hc with hnone | ⟨c, hc, heq⟩
    · rw [hnone] at hp
      cases hp
    · exact ⟨c, hc, heq ▸ hp⟩
  · exact ⟨c', h.others q hne ▸ hc, hp⟩

theorem Dialling.turn (h : Dialling m k tcp) (ht : Turn m tcp r m' tcp')
    (hstage : ∀ c', tcp' r = some c' → Stage m' k r c') : Dialling m' k tcp' where
  listedM := h.listedM.of_same ht.sessions
  listedK := h.listedK
  smaller := by
    rw [ht.thisMachine]
    exact h.smaller
  made := by
    intro q c hc
    rw [ht.created]
    rcases eq_or_ne q r with rfl | hne
    · exact ht.exists_
    · exact h.made q c (ht.others q hne ▸ hc)
  stage := by
    intro q c hc
    rcases eq_or_ne q r with rfl | hne
    · exact hstage c hc
    · refine (h.stage q c (ht.others q hne ▸ hc)).frame (ht.data q hne) ht.thisMachine
        (ht.holds q).mpr ?_ fun _ _ => ⟨rfl, Iff.rfl⟩
      rintro ⟨p, hp⟩
      exact ⟨p, (ht.holds p).mpr hp⟩
  named := by
    intro q hq
    have hq' : (m.data q).connection = .connecting := by
      rcases eq_or_ne q r with rfl | hne
      · exact ht.connecting hq
      · exact ht.data q hne ▸ hq
    rw [ht.nameOf (h.listedM.lt_created hq' (by decide))]
    exact h.named q hq'
  heldM := by
    intro q hq
    rw [ht.holds] at hq
    obtain ⟨hname, hlive, c, hc⟩ := h.heldM q hq
    rw [ht.nameOf (h.listedM.lt_created hlive (by decide))]
    refine ⟨hname, ?_⟩
    rcases eq_or_ne q r with rfl | hne
    · obtain ⟨c', hc', -⟩ := ht.forth c hc
      exact ⟨ht.live hq, c', hc'⟩
    · rw [ht.data q hne, ht.others q hne]
      exact ⟨hlive, c, hc⟩
  heldK := by
    intro q hq
    rw [ht.thisMachine]
    obtain ⟨hname, r', c, hc, hacc, hr'⟩ := h.heldK q hq
    refine ⟨hname, r', ?_⟩
    rcases eq_or_ne r' r with rfl | hne
    · obtain ⟨c', hc', heq⟩ := ht.forth c hc
      exact ⟨c', hc', heq.trans hacc, (ht.holds r').mpr hr'⟩
    · exact ⟨c, (ht.others r' hne).trans hc, hacc, (ht.holds r').mpr hr'⟩
  ends := by
    intro q q' c c' p hc hc' hp hp'
    obtain ⟨c₁, hc₁, hp₁⟩ := ht.back_of_some hc hp
    obtain ⟨c₂, hc₂, hp₂⟩ := ht.back_of_some hc' hp'
    exact h.ends q q' c₁ c₂ p hc₁ hc₂ hp₁ hp₂
  waiting := h.waiting
  serviceM := by
    rw [ht.service]
    exact h.serviceM
  serviceK := by
    rw [ht.thisMachine]
    exact h.serviceK

theorem Dialling.setTcp (h : Dialling m k tcp) {c' : TcpConnection} (hr : r < m.created)
    (hback : c'.acceptor = none ∨ ∃ c, tcp r = some c ∧ c'.acceptor = c.acceptor)
    (hforth : ∀ c, tcp r = some c → c'.acceptor = c.acceptor) (hstage : Stage m k r c') :
    Dialling m k (Function.update tcp r (some c')) := by
  have ht : Turn m tcp r m (Function.update tcp r (some c')) :=
    { sessions := ⟨rfl, le_rfl, fun _ _ => rfl, fun _ _ => rfl, fun _ _ => rfl⟩
      created := rfl
      thisMachine := rfl
      service := rfl
      exists_ := hr
      data := fun _ _ => rfl
      connecting := id
      live := fun hheld => (h.heldM r hheld).2.1
      others := fun q hne => Function.update_of_ne hne _ _
      back := of_update_some hback
      forth := fun c hc => ⟨c', Function.update_self _ _ _, hforth c hc⟩ }
  exact h.turn ht (of_update_some hstage)

theorem Dialling.replaceTcp (h : Dialling m k tcp) {c' : TcpConnection} (htcp : tcp r = some c)
    (hacc : c'.acceptor = c.acceptor) (hstage : Stage m k r c') :
    Dialling m k (Function.update tcp r (some c')) := by
  refine h.setTcp (h.made r c htcp) (.inr ⟨c, htcp, hacc⟩) (fun c₁ hc₁ => ?_) hstage
  rw [htcp, Option.some.injEq] at hc₁
  exact hc₁ ▸ hacc

/-- A connecting session is not listed. -/
theorem Dialling.not_holds_of_connecting (h : Dialling m k tcp)
    (hc : (m.data r).connection = .connecting) : ¬ m.Holds r := by
  intro hr
  rw [(h.heldM r hr).2.1] at hc
  cases hc

theorem Dialling.turn_drop (h : Dialling m k tcp) (hc : (m.data r).connection = .connecting)
    (htcp : ∀ q, q ≠ r → tcp' q = tcp q)
    (hback : ∀ c', tcp' r = some c' → ∃ c, tcp r = some c ∧ c'.acceptor = c.acceptor)
    (hforth : ∀ c, tcp r = some c → ∃ c', tcp' r = some c' ∧ c'.acceptor = c.acceptor) :
    Turn m tcp r (m.drop r) tcp' where
  sessions := BVTCPConnectionManager.sameSessions_drop (h.listedM.lt_created hc (by decide))
  created := rfl
  thisMachine := rfl
  service := rfl
  exists_ := h.listedM.lt_created hc (by decide)
  data := fun q hne => Function.update_of_ne hne _ _
  connecting := by
    intro hdrop
    simp [BVTCPConnectionManager.drop] at hdrop
  live := fun hr => absurd hr (h.not_holds_of_connecting hc)
  others := htcp
  back := fun c' hc' => .inr (hback c' hc')
  forth := hforth

theorem Dialling.fail (h : Dialling m k tcp) (hc : (m.data r).connection = .connecting)
    (htcp : tcp r = none) : Dialling (m.drop r) k tcp := by
  refine h.turn (h.turn_drop hc (fun _ _ => rfl) (fun c' hc' => ⟨c', hc', rfl⟩)
    fun c hc' => ⟨c, hc', rfl⟩) fun c' hc' => ?_
  rw [htcp] at hc'
  cases hc'

/-- The connection of a session that is not listed is pending or given up. -/
theorem Stage.of_not_holds (h : Stage m k r c) (hr : ¬ m.Holds r) :
    ((m.data r).connection = .connecting ∧ c.toAcceptor = [] ∧
        (c.alive = true → c.acceptor = none ∧ c.toDialler = [] ∨
          ∃ q, c.acceptor = some q ∧ c.toDialler = [.hello]) ∧
        (c.alive = false → ∃ q, m.Holds q) ∨
      (m.data r).connection = .dropped ∧ c.alive = false) ∧
    ∀ q, c.acceptor = some q → k.Waits q := by
  cases h with
  | pending hc hto hgreet hlost =>
    refine ⟨.inl ⟨hc, hto, fun halive => ?_, hlost⟩, fun q hq => ?_⟩
    · rcases hgreet with hnone | ⟨q, hq, -, hhello⟩
      · exact .inl hnone
      · exact .inr ⟨q, hq, hhello halive⟩
    · rcases hgreet with ⟨hnone, -⟩ | ⟨q', hq', hw, -⟩
      · rw [hnone] at hq
        cases hq
      · rw [hq'] at hq
        cases hq
        exact hw
  | givenUp hc hdead hw => exact ⟨.inr ⟨hc, hdead⟩, hw⟩
  | entered he _ => exact absurd he.held hr
  | greeted _ he _ _ => exact absurd he.held hr
  | answered _ he _ _ => exact absurd he.held hr
  | identified _ he _ _ => exact absurd he.held hr
  | settled _ he _ _ => exact absurd he.held hr

/-- A closed connection whose connect handler has not run. -/
theorem stage_closed (hc : (m.data r).connection = .connecting) (hany : ∃ q, m.Holds q)
    (hw : ∀ q, c.acceptor = some q → k.Waits q) : Stage m k r c.closed := by
  refine .pending hc rfl ?_ fun _ => hany
  cases hacc : c.acceptor with
  | none => exact .inl ⟨hacc, rfl⟩
  | some q => exact .inr ⟨q, hacc, hw q hacc, Bool.noConfusion⟩

/-- A connect attempt comes second, and its socket is closed. -/
theorem Dialling.giveUp (h : Dialling m k tcp) (hc : (m.data r).connection = .connecting)
    (htcp : tcp r = some c) :
    Dialling (m.drop r) k (Function.update tcp r (some c.closed)) := by
  have hw := ((h.stage r c htcp).of_not_holds (h.not_holds_of_connecting hc)).2
  have hstage : Stage (m.drop r) k r c.closed :=
    .givenUp (by simp [BVTCPConnectionManager.drop]) rfl hw
  have ht : Turn m tcp r (m.drop r) (Function.update tcp r (some c.closed)) :=
    h.turn_drop hc (fun q hne => Function.update_of_ne hne _ _) (of_update_some ⟨c, htcp, rfl⟩)
      (exists_update_of_some htcp rfl)
  exact h.turn ht (of_update_some hstage)

theorem Dialling.connect (h : Dialling m k tcp) (hc : (m.data r).connection = .connecting)
    (htcp : tcp r = none) :
    Dialling m k (Function.update tcp r (some ⟨none, [], [], true⟩)) := by
  refine h.setTcp (h.listedM.lt_created hc (by decide)) (.inl rfl) (fun c hc' => ?_) ?_
  · rw [htcp] at hc'
    cases hc'
  · exact .pending hc rfl (.inl ⟨rfl, rfl⟩) Bool.noConfusion

/-- A connection that comes second is lost before its connect handler has run. -/
theorem Dialling.lose (h : Dialling m k tcp) (hc : (m.data r).connection = .connecting)
    (hany : ∃ q, m.Holds q) (htcp : tcp r = some c) :
    Dialling m k (Function.update tcp r (some c.closed)) := by
  have hw := ((h.stage r c htcp).of_not_holds (h.not_holds_of_connecting hc)).2
  exact h.replaceTcp htcp rfl (stage_closed hc hany hw)

/-- A connection is lost that is closed already. -/
theorem Dialling.loseAgain (h : Dialling m k tcp) (hdead : c.alive = false)
    (htcp : tcp r = some c) :
    Dialling m k (Function.update tcp r (some c.closed)) := by
  have hnot : ¬ m.Holds r := by
    intro hr
    rw [((h.stage r c htcp).entered_of_live (h.heldM r hr).2.1).2] at hdead
    cases hdead
  refine h.replaceTcp htcp rfl ?_
  obtain ⟨⟨hc, -, -, hlost⟩ | ⟨hc, -⟩, hw⟩ := (h.stage r c htcp).of_not_holds hnot
  · exact stage_closed hc (hlost hdead) hw
  · exact .givenUp hc rfl hw

theorem Dialling.answer (h : Dialling m k tcp) {q : SessionRef} (he : m.Entered r .unprepared)
    (hw : k.Waits q) (htcp : tcp r = some ⟨some q, [.hello], [], true⟩) :
    Dialling m k (Function.update tcp r
      (some ⟨some q, [], [.helloBack (some m.thisMachine)], true⟩)) :=
  h.replaceTcp htcp rfl (.answered q he hw rfl)

theorem Dialling.confirm (h : Dialling m k tcp) {q : SessionRef} (he : m.Entered r .unprepared)
    (hq : k.Entered q .established)
    (htcp : tcp r = some ⟨some q, [.confirmEstablished], [], true⟩) :
    Dialling (m.setState .established r) k
      (Function.update tcp r (some ⟨some q, [], [], true⟩)) := by
  have hr := h.listedM.lt_created he.connection (by decide)
  have hs := BVTCPConnectionManager.sameSessions_setState hr .established
  have hlive : ((m.setState .established r).data r).connection = .live := by
    simp [BVTCPConnectionManager.setState, he.connection]
  have ht : Turn m tcp r (m.setState .established r)
      (Function.update tcp r (some ⟨some q, [], [], true⟩)) :=
    { sessions := hs
      created := rfl
      thisMachine := rfl
      service := rfl
      exists_ := hr
      data := fun p hne => Function.update_of_ne hne _ _
      connecting := by
        intro hc
        rw [hlive] at hc
        cases hc
      live := fun _ => hlive
      others := fun p hne => Function.update_of_ne hne _ _
      back := of_update_some (.inr ⟨_, htcp, rfl⟩)
      forth := exists_update_of_some htcp rfl }
  have hstage : Stage (m.setState .established r) k r ⟨some q, [], [], true⟩ := by
    refine .settled q ⟨hlive, ?_, (ht.holds r).mpr he.held⟩ hq rfl
    simp [BVTCPConnectionManager.setState]
  exact h.turn ht (of_update_some hstage)

theorem Dialling.dial (h : Dialling m k tcp) : Dialling (m.dial k.thisMachine) k tcp := by
  have hs := BVTCPConnectionManager.sameSessions_handOut m k.thisMachine .connecting
  have hdata : ∀ q, q ≠ m.created → (m.dial k.thisMachine).data q = m.data q := fun q hne =>
    Function.update_of_ne hne _ _
  have hnew : (m.dial k.thisMachine).nameOf m.created = k.thisMachine := by
    simp [BVTCPConnectionManager.dial, BVTCPConnectionManager.handOut,
      BVTCPConnectionManager.nameOf]
  refine
    { listedM := h.listedM.of_same hs
      listedK := h.listedK
      smaller := h.smaller
      made := fun r c hc => (h.made r c hc).trans (Nat.lt_succ_self _)
      stage := ?_
      named := ?_
      heldM := ?_
      heldK := h.heldK
      ends := h.ends
      waiting := h.waiting
      serviceM := h.serviceM
      serviceK := h.serviceK }
  · intro r c hc
    exact (h.stage r c hc).frame (hdata r (h.made r c hc).ne) rfl id id fun _ _ => ⟨rfl, Iff.rfl⟩
  · intro r hc
    rcases eq_or_ne r m.created with rfl | hne
    · exact hnew
    · rw [hdata r hne] at hc
      rw [BVTCPConnectionManager.nameOf, hdata r hne]
      exact h.named r hc
  · intro r hr
    obtain ⟨hname, hlive, hc⟩ := h.heldM r hr
    have hne : r ≠ m.created := (h.listedM.lt_created hlive (by decide)).ne
    rw [BVTCPConnectionManager.nameOf, hdata r hne]
    exact ⟨hname, hlive, hc⟩

/-- The first connect handler lists its session. -/
theorem Dialling.enter (h : Dialling m k tcp) (hc : (m.data r).connection = .connecting)
    (hempty : ∀ q, ¬ m.Holds q) (htcp : tcp r = some c) : Dialling (m.enterConnected r) k tcp := by
  have hr := h.listedM.lt_created hc (by decide)
  have he : m.Enters r (m.nameOf r) (m.enterConnected r) :=
    BVTCPConnectionManager.enters_connected r fun i q hi => absurd ⟨i, hi⟩ (hempty q)
  have hholds := he.holds_iff hempty
  have hentered : (m.enterConnected r).Entered r .unprepared :=
    ⟨by simp [BVTCPConnectionManager.enterConnected],
      by simp [BVTCPConnectionManager.enterConnected], (hholds r).mpr rfl⟩
  refine
    { listedM := h.listedM.enter hr he
      listedK := h.listedK
      smaller := h.smaller
      made := h.made
      stage := ?_
      named := ?_
      heldM := ?_
      heldK := ?_
      ends := h.ends
      waiting := h.waiting
      serviceM := ?_
      serviceK := h.serviceK }
  · intro q c' hc'
    rcases eq_or_ne q r with rfl | hne
    · rw [htcp, Option.some.injEq] at hc'
      subst hc'
      obtain ⟨⟨-, hto, hgreet, hlost⟩ | ⟨hdrop, -⟩, hw⟩ :=
        (h.stage q c htcp).of_not_holds (hempty q)
      · -- nothing is listed yet, hence the connection was not lost
        have halive : c.alive = true := by
          rw [← Bool.not_eq_false]
          intro hdead
          obtain ⟨p, hp⟩ := hlost hdead
          exact hempty p hp
        obtain ⟨acceptor, toDialler, toAcceptor, alive⟩ := c
        subst hto halive
        rcases hgreet rfl with ⟨rfl, rfl⟩ | ⟨p, rfl, rfl⟩
        · exact .entered hentered rfl
        · exact .greeted p hentered (hw p rfl) rfl
      · rw [hc] at hdrop
        cases hdrop
    · exact (h.stage q c' hc').frame (he.other q hne) rfl (fun hq => absurd hq (hempty q))
        (fun _ => ⟨r, hentered.held⟩) fun _ _ => ⟨rfl, Iff.rfl⟩
  · intro q hq
    have hne : q ≠ r := by
      rintro rfl
      rw [hentered.connection] at hq
      cases hq
    rw [he.other q hne] at hq
    rw [BVTCPConnectionManager.nameOf, he.other q hne]
    exact h.named q hq
  · intro q hq
    obtain rfl := (hholds q).mp hq
    exact ⟨he.name.trans (h.named q hc), hentered.connection, c, htcp⟩
  · intro q hq
    obtain ⟨-, r', -, -, -, hr'⟩ := h.heldK q hq
    exact absurd hr' (hempty r')
  · intro n id hn
    rw [he.service] at hn
    rcases eq_or_ne n (m.nameOf r) with rfl | hne
    · exact h.named r hc
    · rw [Function.update_of_ne hne] at hn
      exact h.serviceM n id hn

/-! ### The accepting host -/

theorem forall_update_some {P : SessionRef → TcpConnection → Prop} (hr : P r c)
    (hne : ∀ p c', p ≠ r → tcp p = some c' → P p c') :
    ∀ p c', Function.update tcp r (some c) p = some c' → P p c' := by
  intro p c' hc'
  rcases eq_or_ne p r with rfl | hp
  · exact of_update_some hr c' hc'
  · rw [Function.update_of_ne hp] at hc'
    exact hne p c' hp hc'

theorem exists_update_some {p : SessionRef} (h : ∃ c', tcp p = some c') :
    ∃ c', Function.update tcp r (some c) p = some c' := by
  rcases eq_or_ne p r with rfl | hne
  · exact ⟨c, Function.update_self _ _ _⟩
  · rw [Function.update_of_ne hne]
    exact h

theorem acceptHandler_data_of_ne {p q : SessionRef} (hp : p ≠ k.created) (hne : p ≠ q) :
    (k.acceptHandler q).data p = k.data p := by
  simp [BVTCPConnectionManager.acceptHandler, BVTCPConnectionManager.accept,
    BVTCPConnectionManager.handOut, Function.update_of_ne hp, Function.update_of_ne hne]

theorem acceptHandler_unprepared {q : SessionRef} (hq : q < k.created) :
    (k.acceptHandler q).Unprepared q := by
  simp [BVTCPConnectionManager.Unprepared, BVTCPConnectionManager.acceptHandler,
    BVTCPConnectionManager.accept, BVTCPConnectionManager.handOut, Function.update_of_ne hq.ne]

theorem Dialling.liveK (h : Dialling m k tcp) {q : SessionRef} (hq : k.Holds q) :
    (k.data q).connection = .live := by
  obtain ⟨-, r, c, hc, hacc, -⟩ := h.heldK q hq
  exact (h.stage r c hc).acceptor_live hacc

/-- The socket that waits for a peer belongs to no connection. -/
theorem Dialling.acceptor_ne (h : Dialling m k tcp) {p q : SessionRef}
    (hq : (k.data q).connection = .accepting) (hc : tcp r = some c) (hp : c.acceptor = some p) :
    p < k.created ∧ p ≠ q := by
  have hlive := (h.stage r c hc).acceptor_live hp
  refine ⟨h.listedK.lt_created hlive (by decide), ?_⟩
  rintro rfl
  rw [hlive] at hq
  cases hq

/-- A connection nobody had accepted, once it is accepted and greeted. -/
theorem Stage.accept {q : SessionRef} (h : Stage m k r c) (hnone : c.acceptor = none)
    (hwaits : k'.Waits q) :
    Stage m k' r { c with
      acceptor := some q
      toDialler := if c.alive then c.toDialler ++ [.hello] else c.toDialler } := by
  cases h with
  | pending hc hto hgreet hlost =>
    refine .pending hc hto (.inr ⟨q, rfl, hwaits, fun halive => ?_⟩) hlost
    rcases hgreet with ⟨-, htoD⟩ | ⟨q', hq', -⟩
    · simp [show c.alive = true from halive, htoD]
    · rw [hnone] at hq'
      cases hq'
  | givenUp hc hdead _ =>
    refine .givenUp hc hdead fun q' hq' => ?_
    cases hq'
    exact hwaits
  | entered he heq =>
    subst heq
    exact .greeted q he hwaits rfl
  | greeted _ _ _ heq =>
    rw [heq] at hnone
    cases hnone
  | answered _ _ _ heq =>
    rw [heq] at hnone
    cases hnone
  | identified _ _ _ heq =>
    rw [heq] at hnone
    cases hnone
  | settled _ _ _ heq =>
    rw [heq] at hnone
    cases hnone

/-- A session that belongs to no connection may be the end of a new one. -/
theorem ends_update {q : SessionRef}
    (h : ∀ r r' c c' q, tcp r = some c → tcp r' = some c' → c.acceptor = some q →
      c'.acceptor = some q → r = r')
    (hacc : c.acceptor = some q)
    (hfree : ∀ p c', tcp p = some c' → c'.acceptor ≠ some q) :
    ∀ p p' c₁ c₂ q', Function.update tcp r (some c) p = some c₁ →
      Function.update tcp r (some c) p' = some c₂ → c₁.acceptor = some q' →
      c₂.acceptor = some q' → p = p' := by
  intro p p' c₁ c₂ q' hc₁ hc₂ hq₁ hq₂
  rcases eq_or_ne p r with rfl | hne
  · rcases eq_or_ne p' p with rfl | hne'
    · rfl
    · rw [Function.update_self, Option.some.injEq] at hc₁
      rw [Function.update_of_ne hne'] at hc₂
      rw [← hc₁, hacc, Option.some.injEq] at hq₁
      exact absurd (hq₁ ▸ hq₂) (hfree p' c₂ hc₂)
  · rw [Function.update_of_ne hne] at hc₁
    rcases eq_or_ne p' r with rfl | hne'
    · rw [Function.update_self, Option.some.injEq] at hc₂
      rw [← hc₂, hacc, Option.some.injEq] at hq₂
      exact absurd (hq₂ ▸ hq₁) (hfree p c₁ hc₁)
    · rw [Function.update_of_ne hne'] at hc₂
      exact h p p' c₁ c₂ q' hc₁ hc₂ hq₁ hq₂

/-- The accepting host takes a connection and greets. -/
theorem Dialling.accept (h : Dialling m k tcp) {q : SessionRef}
    (hq : (k.data q).connection = .accepting) (hnone : c.acceptor = none) (htcp : tcp r = some c) :
    Dialling m (k.acceptHandler q) (Function.update tcp r (some { c with
      acceptor := some q
      toDialler := if c.alive then c.toDialler ++ [.hello] else c.toDialler })) := by
  have hlt := h.listedK.lt_created hq (by decide)
  have hs := BVTCPConnectionManager.sameSessions_acceptHandler hlt
  have hnot : ¬ k.Holds q := by
    intro hheld
    rw [h.liveK hheld] at hq
    cases hq
  have hwaits : (k.acceptHandler q).Waits q := ⟨acceptHandler_unprepared hlt, hnot⟩
  refine
    { listedM := h.listedM
      listedK := h.listedK.of_same hs
      smaller := h.smaller
      made := ?_
      stage := ?_
      named := h.named
      heldM := ?_
      heldK := ?_
      ends := ?_
      waiting := ?_
      serviceM := h.serviceM
      serviceK := h.serviceK }
  · exact forall_update_some (h.made r c htcp) fun p c' _ hc' => h.made p c' hc'
  · refine forall_update_some ?_ fun p c' _ hc' => ?_
    · exact (h.stage r c htcp).accept hnone hwaits
    · refine (h.stage p c' hc').frame rfl rfl id id fun q' hq' => ?_
      obtain ⟨hlt', hne'⟩ := h.acceptor_ne hq hc' hq'
      exact ⟨acceptHandler_data_of_ne hlt'.ne hne', Iff.rfl⟩
  · intro p hp
    obtain ⟨hname, hlive, hsome⟩ := h.heldM p hp
    exact ⟨hname, hlive, exists_update_some hsome⟩
  · intro p hp
    have hp' : k.Holds p := hp
    obtain ⟨hname, r', c', hc', hacc, hr'⟩ := h.heldK p hp'
    have hne : r' ≠ r := by
      rintro rfl
      rw [htcp, Option.some.injEq] at hc'
      rw [← hc', hnone] at hacc
      cases hacc
    refine ⟨?_, r', c', by rw [Function.update_of_ne hne, hc'], hacc, hr'⟩
    rw [hs.name p (h.listedK.lt_created (h.liveK hp') (by decide))]
    exact hname
  · exact ends_update h.ends rfl fun p c' hc' hq' => (h.acceptor_ne hq hc' hq').2 rfl
  · intro p
    rcases eq_or_ne p q with rfl | hne
    · rw [(acceptHandler_unprepared hlt).1]
      decide
    · rcases eq_or_ne p k.created with rfl | hne'
      · simp [BVTCPConnectionManager.acceptHandler, BVTCPConnectionManager.accept,
          BVTCPConnectionManager.handOut]
      · rw [acceptHandler_data_of_ne hne' hne]
        exact h.waiting p

/-- While the accepting host waits for a name on a listed connection, it lists no session. -/
theorem Dialling.emptyK (h : Dialling m k tcp) {q : SessionRef} (hr : m.Holds r)
    (htcp : tcp r = some c) (hacc : c.acceptor = some q) (hq : ¬ k.Holds q) :
    ∀ p, ¬ k.Holds p := by
  intro p hp
  obtain ⟨-, r', c', hc', hacc', hr'⟩ := h.heldK p hp
  obtain rfl := h.listedM.holds_unique hr hr'
    ((h.heldM r hr).1.trans (h.heldM r' hr').1.symm)
  rw [htcp, Option.some.injEq] at hc'
  subst hc'
  rw [hacc, Option.some.injEq] at hacc'
  exact hq (hacc' ▸ hp)

/-- The accepting host learns the name, lists the session and confirms. -/
theorem Dialling.identify (h : Dialling m k tcp) {q : SessionRef} (he : m.Entered r .unprepared)
    (hw : k.Waits q)
    (htcp : tcp r = some ⟨some q, [], [.helloBack (some m.thisMachine)], true⟩) :
    Dialling m ((k.setState .established q).enterIdentified m.thisMachine q)
      (Function.update tcp r (some ⟨some q, [.confirmEstablished], [], true⟩)) := by
  have hempty := h.emptyK he.held htcp rfl hw.notHeld
  have hlt := h.listedK.lt_created hw.unprepared.1 (by decide)
  have hs := BVTCPConnectionManager.sameSessions_setState hlt .established
  have hempty' : ∀ p, ¬ (k.setState .established q).Holds p := hempty
  have hin : (k.setState .established q).Enters q m.thisMachine
      ((k.setState .established q).enterIdentified m.thisMachine q) :=
    BVTCPConnectionManager.enters_identified q fun i p hi => absurd ⟨i, hi⟩ (hempty' p)
  have hholds := hin.holds_iff hempty'
  have hdata : ∀ p, p ≠ q →
      ((k.setState .established q).enterIdentified m.thisMachine q).data p = k.data p := by
    intro p hne
    rw [hin.other p hne]
    exact Function.update_of_ne hne _ _
  have hentered : ((k.setState .established q).enterIdentified m.thisMachine q).Entered q
      .established :=
    ⟨by simp [BVTCPConnectionManager.enterIdentified, BVTCPConnectionManager.setState,
      hw.unprepared.1], by simp [BVTCPConnectionManager.enterIdentified,
      BVTCPConnectionManager.setState], (hholds q).mpr rfl⟩
  refine
    { listedM := h.listedM
      listedK := (h.listedK.of_same hs).enter hlt hin
      smaller := h.smaller
      made := ?_
      stage := ?_
      named := h.named
      heldM := ?_
      heldK := ?_
      ends := ?_
      waiting := ?_
      serviceM := h.serviceM
      serviceK := ?_ }
  · exact forall_update_some (h.made r _ htcp) fun p c' _ hc' => h.made p c' hc'
  · refine forall_update_some (.identified q he hentered rfl) fun p c' hne hc' => ?_
    refine (h.stage p c' hc').frame rfl rfl id id fun q' hq' => ?_
    have hne' : q' ≠ q := by
      rintro rfl
      exact hne (h.ends p r c' _ q' hc' htcp hq' rfl)
    exact ⟨hdata q' hne', ⟨fun hq => absurd ((hholds q').mp hq) hne',
      fun hq => absurd hq (hempty q')⟩⟩
  · intro p hp
    obtain ⟨hname, hlive, hsome⟩ := h.heldM p hp
    exact ⟨hname, hlive, exists_update_some hsome⟩
  · intro p hp
    obtain rfl := (hholds p).mp hp
    exact ⟨hin.name, r, _, Function.update_self _ _ _, rfl, he.held⟩
  · intro p p' c₁ c₂ q' hc₁ hc₂ hq₁ hq₂
    -- the sessions that accepted the connections are the same as before
    have hback : ∀ p c', Function.update tcp r
        (some ⟨some q, [.confirmEstablished], [], true⟩) p = some c' → c'.acceptor = some q' →
        ∃ c, tcp p = some c ∧ c.acceptor = some q' :=
      forall_update_some (fun hq' => ⟨_, htcp, hq'⟩) fun p c' _ hc' hq' => ⟨c', hc', hq'⟩
    obtain ⟨d₁, hd₁, hp₁⟩ := hback p c₁ hc₁ hq₁
    obtain ⟨d₂, hd₂, hp₂⟩ := hback p' c₂ hc₂ hq₂
    exact h.ends p p' d₁ d₂ q' hd₁ hd₂ hp₁ hp₂
  · intro p
    rcases eq_or_ne p q with rfl | hne
    · rw [hentered.connection]
      decide
    · rw [hdata p hne]
      exact h.waiting p
  · intro n id hn
    rw [hin.service] at hn
    rcases eq_or_ne n m.thisMachine with rfl | hne
    · rfl
    · rw [Function.update_of_ne hne] at hn
      exact h.serviceK n id hn

end World

end LocalChat
