import LocalChat.Lib.Measures
import LocalChat.World.Agreement

/-!
# Two hosts meet

Hosts that never connect agree as well.  Here the network and the handlers of two hosts run on, in
any order, with no more news of discovery and no loss.

* `Dials.step_cases`: an undisturbed step is one of the eight turns of a handshake, or nothing can
  run it.
* `Dials.pending_lt`: every turn lowers what is left to do on the attempts of the dialling host.
* `Meeting.exists_moves`: as long as something is pending, something can run.
* `hosts_meet`: so the two hosts come to agree, and each lists a session for the other unless no
  attempt was connected.
-/

namespace LocalChat

/-! ### What is left to do on a connection -/

/-- How many handshake frames are delivered from this one on. -/
def HandshakeFrame.toCome : HandshakeFrame → ℕ
  | .hello => 3
  | .helloBack _ => 2
  | .confirmEstablished => 1

/-- The accept handler of a connection, and the frames that are still to be delivered on it. -/
def TcpConnection.remaining (c : TcpConnection) : ℕ :=
  (if c.acceptor = none then 1 else 0) +
    if c.alive then
      if c.acceptor = none then 3
      else ((c.toDialler ++ c.toAcceptor).map HandshakeFrame.toCome).sum
    else 0

theorem TcpConnection.remaining_closed_le (c : TcpConnection) :
    c.closed.remaining ≤ c.remaining := by
  rw [remaining, remaining]
  exact Nat.add_le_add_left (Nat.zero_le _) _

theorem TcpConnection.remaining_accept_lt {c : TcpConnection} (hnone : c.acceptor = none)
    (hempty : c.alive = true → c.toDialler = [] ∧ c.toAcceptor = []) (q : SessionRef) :
    TcpConnection.remaining { c with
      acceptor := some q
      toDialler := if c.alive then c.toDialler ++ [.hello] else c.toDialler } < c.remaining := by
  obtain ⟨acceptor, toDialler, toAcceptor, alive⟩ := c
  cases hnone
  cases alive with
  | false => simp [remaining]
  | true =>
    obtain ⟨hto, hfrom⟩ := hempty rfl
    cases hto
    cases hfrom
    simp [remaining, HandshakeFrame.toCome]

namespace World

/-! ### What can run -/

/-- The network connects or refuses an attempt, or a handler of the io thread has something to do.
-/
def Moves (w : World) : Happening → Prop
  | .connect s r => ((w.manager s).data r).connection = .connecting ∧ w.tcp s r = none
  | .connectHandler s r error =>
    ((w.manager s).data r).connection = .connecting ∧ (w.tcp s r).isNone = error
  | .acceptHandler s r q =>
    (∃ c, w.tcp s r = some c ∧ c.acceptor = none) ∧
      ((w.manager s.other).data q).connection = .accepting
  | .deliverToDialler s r _ =>
    ((w.manager s).data r).connection = .live ∧
      ∃ c, w.tcp s r = some c ∧ c.alive = true ∧ c.toDialler ≠ []
  | .deliverToAcceptor s r _ =>
    ∃ c, w.tcp s r = some c ∧ c.alive = true ∧ c.acceptor ≠ none ∧ c.toAcceptor ≠ []
  | .published .. | .resolved .. | .deregistered .. | .lose .. => False

/-- Nothing is pending and the hosts agree, and if the network has connected an attempt, each host
lists a session for the other. -/
structure Met (w : World) : Prop where
  quiescent : w.Quiescent
  agree : w.Agree
  lists : (∃ s r, w.tcp s r ≠ none) → ∀ s, ∃ r, w.Lists s r

/-! ### What a step does -/

inductive Turned (w : World) (s : Side) : World → Prop
  | connect {r : SessionRef} : ((w.manager s).data r).connection = .connecting → w.tcp s r = none →
      Turned w s (w.setTcp s r ⟨none, [], [], true⟩)
  | fail {r : SessionRef} : ((w.manager s).data r).connection = .connecting → w.tcp s r = none →
      Turned w s (w.setManager s ((w.manager s).drop r))
  | giveUp {r : SessionRef} {c : TcpConnection} :
      ((w.manager s).data r).connection = .connecting → w.tcp s r = some c →
      (∃ q, (w.manager s).Holds q) →
      Turned w s ((w.setManager s ((w.manager s).drop r)).setTcp s r c.closed)
  | enter {r : SessionRef} {c : TcpConnection} :
      ((w.manager s).data r).connection = .connecting → w.tcp s r = some c →
      Turned w s (w.setManager s ((w.manager s).enterConnected r))
  | accept {r q : SessionRef} {c : TcpConnection} : w.tcp s r = some c → c.acceptor = none →
      ((w.manager s.other).data q).connection = .accepting →
      Turned w s ((w.setManager s.other ((w.manager s.other).acceptHandler q)).setTcp s r
        { c with
          acceptor := some q
          toDialler := if c.alive then c.toDialler ++ [.hello] else c.toDialler })
  | answer {r q : SessionRef} : ((w.manager s).data r).connection = .live →
      w.tcp s r = some ⟨some q, [.hello], [], true⟩ →
      Turned w s ((w.setManager s (w.manager s)).setTcp s r
        ⟨some q, [], [.helloBack (some (w.name s))], true⟩)
  | identify {r q : SessionRef} : ((w.manager s.other).data q).connection = .live →
      w.tcp s r = some ⟨some q, [], [.helloBack (some (w.name s))], true⟩ →
      Turned w s ((w.setManager s.other
        (((w.manager s.other).setState .established q).enterIdentified (w.name s) q)).setTcp s r
          ⟨some q, [.confirmEstablished], [], true⟩)
  | confirm {r q : SessionRef} : ((w.manager s).data r).connection = .live →
      w.tcp s r = some ⟨some q, [.confirmEstablished], [], true⟩ →
      Turned w s ((w.setManager s ((w.manager s).setState .established r)).setTcp s r
        ⟨some q, [], [], true⟩)

/-- A step that is not a turn: an idle one, news of discovery, or a loss. -/
inductive Told (w : World) (s : Side) : World → Prop
  | idle : Told w s w
  | mail {u : Side} {e : MailEvent} : SameView (w.manager u) ((w.host u).step e).manager →
      Told w s (w.mail u e)
  | dial {e : MailEvent} :
      ((w.host s).step e).manager =
        (Client.addNode (w.name s.other) (w.manager s)).dial (w.name s.other) →
      Told w s (w.mail s e)
  | lose {r : SessionRef} {c : TcpConnection} : w.tcp s r = some c →
      (c.alive = true → ∃ q, (w.manager s).Holds q) → Told w s (w.setTcp s r c.closed)

variable {w w' : World} {s : Side}

theorem cases_published (w : World) (s u : Side) (services : List BVServiceBrowseInstance) :
    Told w s (w.step (.published u services)) := by
  refine .mail ?_
  have hsame : ((w.host u).step (.publishedService services)).manager = w.manager u :=
    Client.foldl_publish_manager services (w.host u)
  rw [hsame]
  exact .refl _

theorem Dials.cases_resolved (h : w.Dials s) (u : Side) (attempts : Fin 5 → Bool) :
    Told w s (w.step (.resolved u attempts)) := by
  obtain hsame | hadd | ⟨hlt, hdial⟩ := resolved_cases (w.host u) (w.name u.other) attempts
  · refine .mail ?_
    rw [hsame]
    exact .refl _
  · refine .mail ?_
    rw [hadd]
    exact sameView_nodes _ _
  · rcases Side.eq_or_eq_other s u with rfl | rfl
    · exact .dial hdial
    · -- the larger name does not dial
      rw [Side.other_other] at hlt
      exact absurd hlt (List.lt_asymm h.dialling.smaller)

theorem Dials.cases_deregistered (h : w.Dials s) (u : Side)
    {services : List BVServiceBrowseInstance} (hok : Undisturbed w (.deregistered u services)) :
    Told w s (w.step (.deregistered u services)) := by
  have hknows : KnowsOnly (w.manager u) (w.name u.other) := by
    rcases Side.eq_or_eq_other s u with rfl | rfl
    · exact h.knows
    · rw [Side.other_other]
      exact h.knowsOther
  exact .mail (sameView_deregisterAll services hknows hok)

theorem Dials.cases_connect (h : w.Dials s) (u : Side) (r : SessionRef) :
    Turned w s (w.connect u r) ∨ ¬ w.Moves (.connect u r) ∧ Told w s (w.connect u r) := by
  by_cases hc : ((w.manager u).data r).connection = .connecting ∧ w.tcp u r = none
  · rw [World.connect, if_pos hc]
    rcases Side.eq_or_eq_other s u with rfl | rfl
    · exact .inl (.connect hc.1 hc.2)
    · exact absurd hc.1 (h.dialling.waiting r)
  · rw [World.connect, if_neg hc]
    exact .inr ⟨hc, .idle⟩

theorem Dials.cases_connectHandler (h : w.Dials s) (u : Side) (r : SessionRef) (error : Bool) :
    Turned w s (w.connectHandler u r error) ∨
      ¬ w.Moves (.connectHandler u r error) ∧ Told w s (w.connectHandler u r error) := by
  by_cases hmoves : w.Moves (.connectHandler u r error)
  · obtain ⟨hc, herror⟩ := hmoves
    rcases Side.eq_or_eq_other s u with rfl | rfl
    · left
      cases htcp : w.tcp u r with
      | none =>
        rw [htcp] at herror
        subst herror
        have hstep : w.connectHandler u r true = w.setManager u ((w.manager u).drop r) := by
          simp [World.connectHandler, hc, htcp, BVTCPConnectionManager.connectHandler]
        exact hstep ▸ .fail hc htcp
      | some c =>
        rw [htcp] at herror
        subst herror
        cases hp : (w.manager u).isSessionAlreadyPresent ((w.manager u).nameOf r) with
        | true =>
          have hstep : w.connectHandler u r false =
              (w.setManager u ((w.manager u).drop r)).setTcp u r c.closed := by
            simp [World.connectHandler, hc, htcp, hp, BVTCPConnectionManager.connectHandler]
          obtain ⟨q, hq, -⟩ := BVTCPConnectionManager.present_iff_holds.mp hp
          exact hstep ▸ .giveUp hc htcp ⟨q, hq⟩
        | false =>
          have hstep : w.connectHandler u r false =
              w.setManager u ((w.manager u).enterConnected r) := by
            simp [World.connectHandler, hc, htcp, hp, BVTCPConnectionManager.connectHandler]
          exact hstep ▸ .enter hc htcp
    · exact absurd hc (h.dialling.waiting r)
  · refine .inr ⟨hmoves, ?_⟩
    have hidle : w.connectHandler u r error = w := by
      by_cases hc : ((w.manager u).data r).connection = .connecting
      · cases htcp : w.tcp u r with
        | none =>
          cases error with
          | false => simp [World.connectHandler, hc, htcp]
          | true => exact absurd ⟨hc, by rw [htcp]; rfl⟩ hmoves
        | some c =>
          cases error with
          | false => exact absurd ⟨hc, by rw [htcp]; rfl⟩ hmoves
          | true => simp [World.connectHandler, hc, htcp]
      · simp [World.connectHandler, hc]
    rw [hidle]
    exact .idle

theorem Dials.cases_acceptHandler (h : w.Dials s) (u : Side) (r q : SessionRef) :
    Turned w s (w.acceptHandler u r q) ∨
      ¬ w.Moves (.acceptHandler u r q) ∧ Told w s (w.acceptHandler u r q) := by
  cases htcp : w.tcp u r with
  | none =>
    have hidle : w.acceptHandler u r q = w := by simp only [World.acceptHandler, htcp]
    rw [hidle]
    refine .inr ⟨?_, .idle⟩
    rintro ⟨⟨c, hc, -⟩, -⟩
    rw [htcp] at hc
    cases hc
  | some c =>
    rcases Side.eq_or_eq_other s u with rfl | rfl
    · by_cases hc : c.acceptor = none ∧ ((w.manager u.other).data q).connection = .accepting
      · have hstep := Turned.accept htcp hc.1 hc.2
        left
        simp only [World.acceptHandler, htcp, if_pos hc]
        exact hstep
      · have hidle : w.acceptHandler u r q = w := by
          simp only [World.acceptHandler, htcp, if_neg hc]
        rw [hidle]
        refine .inr ⟨?_, .idle⟩
        rintro ⟨⟨c', hc', hnone⟩, hq⟩
        rw [htcp, Option.some.injEq] at hc'
        exact hc ⟨hc' ▸ hnone, hq⟩
    · rw [h.silent r] at htcp
      cases htcp

theorem Dials.cases_lose (h : w.Dials s) (u : Side) {r : SessionRef}
    (hok : Undisturbed w (.lose u r)) : Told w s (w.lose u r) := by
  rw [World.lose]
  split
  · exact .idle
  next c htcp =>
  rcases Side.eq_or_eq_other s u with rfl | rfl
  · refine .lose htcp fun halive => ?_
    obtain ⟨-, hpresent⟩ := hok c htcp halive
    obtain ⟨q, hq, -⟩ := BVTCPConnectionManager.present_iff_holds.mp hpresent
    exact ⟨q, hq⟩
  · rw [h.silent r] at htcp
    cases htcp

theorem Dials.cases_deliverToDialler (h : w.Dials s) (u : Side) (r : SessionRef) {env : Env}
    (hok : Undisturbed w (.deliverToDialler u r env)) :
    Turned w s (w.deliverToDialler u r env) ∨
      ¬ w.Moves (.deliverToDialler u r env) ∧ Told w s (w.deliverToDialler u r env) := by
  by_cases hmoves : w.Moves (.deliverToDialler u r env)
  · obtain ⟨hlive, c, htcp, halive, hne⟩ := hmoves
    rcases Side.eq_or_eq_other s u with rfl | rfl
    · left
      obtain ⟨acceptor, toDialler, toAcceptor, alive⟩ := c
      subst halive
      cases h.dialling.stage r _ htcp with
      | pending hc _ _ _ =>
        rw [hlive] at hc
        cases hc
      | givenUp hc _ _ =>
        rw [hlive] at hc
        cases hc
      | entered _ hframes =>
        cases hframes
        exact absurd rfl hne
      | greeted q he hw hframes =>
        cases hframes
        have hreply : HandshakeFrame.reply env (w.manager u).thisMachine =
            .helloBack (some (w.name u)) := reply_of_length_le hok env
        have hstep : w.deliverToDialler u r env = (w.setManager u (w.manager u)).setTcp u r
            ⟨some q, [], [.helloBack (some (w.name u))], true⟩ := by
          simp [World.deliverToDialler, htcp, hlive, receive, he.unprepared, hreply]
        exact hstep ▸ .answer hlive htcp
      | answered q _ _ hframes =>
        cases hframes
        exact absurd rfl hne
      | identified q he hq hframes =>
        cases hframes
        have hstep : w.deliverToDialler u r env =
            (w.setManager u ((w.manager u).setState .established r)).setTcp u r
              ⟨some q, [], [], true⟩ := by
          simp [World.deliverToDialler, htcp, hlive, receive, he.unprepared]
        exact hstep ▸ .confirm hlive htcp
      | settled q _ _ hframes =>
        cases hframes
        exact absurd rfl hne
    · rw [h.silent r] at htcp
      cases htcp
  · refine .inr ⟨hmoves, ?_⟩
    obtain hsame | ⟨acceptor, f, rest, toAcceptor, htcp, hlive, -⟩ :=
      deliverToDialler_cases w u r env
    · rw [hsame]
      exact .idle
    · exact absurd ⟨hlive, _, htcp, rfl, List.cons_ne_nil f rest⟩ hmoves

theorem Dials.cases_deliverToAcceptor (h : w.Dials s) (u : Side) (r : SessionRef) (env : Env) :
    Turned w s (w.deliverToAcceptor u r env) ∨
      ¬ w.Moves (.deliverToAcceptor u r env) ∧ Told w s (w.deliverToAcceptor u r env) := by
  by_cases hmoves : w.Moves (.deliverToAcceptor u r env)
  · obtain ⟨c, htcp, halive, hacc, hne⟩ := hmoves
    rcases Side.eq_or_eq_other s u with rfl | rfl
    · left
      obtain ⟨acceptor, toDialler, toAcceptor, alive⟩ := c
      subst halive
      cases h.dialling.stage r _ htcp with
      | pending _ hto _ _ => exact absurd hto hne
      | givenUp _ hdead _ => cases hdead
      | entered _ hframes =>
        cases hframes
        exact absurd rfl hne
      | greeted q _ _ hframes =>
        cases hframes
        exact absurd rfl hne
      | answered q he hw hframes =>
        cases hframes
        have hnew : (w.manager u.other).isSessionAlreadyPresent (w.name u) = false := by
          rw [← Bool.not_eq_true, BVTCPConnectionManager.present_iff_holds]
          rintro ⟨p, hp, -⟩
          exact h.dialling.emptyK he.held htcp rfl hw.notHeld p hp
        have hstep : w.deliverToAcceptor u r env = (w.setManager u.other
            (((w.manager u.other).setState .established q).enterIdentified (w.name u) q)).setTcp u r
              ⟨some q, [.confirmEstablished], [], true⟩ := by
          have htcp' : w.tcp u r =
            some ⟨some q, [], [.helloBack (some (w.name u))], true⟩ := htcp
          simp [World.deliverToAcceptor, htcp', receive, hw.unprepared, hnew,
            BVTCPConnectionManager.handleSessionIdentification]
        exact hstep ▸ .identify hw.unprepared.1 htcp
      | identified q _ _ hframes =>
        cases hframes
        exact absurd rfl hne
      | settled q _ _ hframes =>
        cases hframes
        exact absurd rfl hne
    · rw [h.silent r] at htcp
      cases htcp
  · refine .inr ⟨hmoves, ?_⟩
    obtain hsame | ⟨q, toDialler, f, rest, htcp, -⟩ := deliverToAcceptor_cases w u r env
    · rw [hsame]
      exact .idle
    · exact absurd ⟨_, htcp, rfl, Option.some_ne_none q, List.cons_ne_nil f rest⟩ hmoves

/-- **What a step does**: it is a turn, or nothing can run it. -/
theorem Dials.step_cases (h : w.Dials s) {a : Happening} (hok : Undisturbed w a) :
    Turned w s (w.step a) ∨ ¬ w.Moves a ∧ Told w s (w.step a) := by
  cases a with
  | published u services => exact .inr ⟨id, cases_published w s u services⟩
  | resolved u attempts => exact .inr ⟨id, h.cases_resolved u attempts⟩
  | deregistered u services => exact .inr ⟨id, h.cases_deregistered u hok⟩
  | connect u r => exact h.cases_connect u r
  | connectHandler u r error => exact h.cases_connectHandler u r error
  | acceptHandler u r q => exact h.cases_acceptHandler u r q
  | deliverToDialler u r env => exact h.cases_deliverToDialler u r hok
  | deliverToAcceptor u r env => exact h.cases_deliverToAcceptor u r env
  | lose u r => exact .inr ⟨id, h.cases_lose u hok⟩

/-! ### Every turn lowers what is left -/

def attempt (w : World) (s : Side) (r : SessionRef) : ℕ :=
  match ((w.manager s).data r).connection, w.tcp s r with
  | .connecting, none => 6
  | .connecting, some c => 1 + c.remaining
  | _, some c => c.remaining
  | _, none => 0

theorem attempt_of_none {r : SessionRef} (htcp : w.tcp s r = none) :
    w.attempt s r = if ((w.manager s).data r).connection = .connecting then 6 else 0 := by
  rw [attempt, htcp]
  cases ((w.manager s).data r).connection <;> rfl

theorem attempt_of_some {r : SessionRef} {c : TcpConnection} (htcp : w.tcp s r = some c) :
    w.attempt s r =
      (if ((w.manager s).data r).connection = .connecting then 1 else 0) + c.remaining := by
  rw [attempt, htcp]
  cases ((w.manager s).data r).connection <;> simp

theorem attempt_congr {r : SessionRef}
    (hdata : ((w'.manager s).data r).connection = ((w.manager s).data r).connection)
    (htcp : w'.tcp s r = w.tcp s r) : w'.attempt s r = w.attempt s r := by
  rw [attempt, attempt, hdata, htcp]

def pending (w : World) (s : Side) : ℕ :=
  ∑ r ∈ Finset.range (w.manager s).created, w.attempt s r

/-- One attempt comes on, and the others stay as they are. -/
theorem pending_lt_of_attempt {r : SessionRef}
    (hcreated : (w'.manager s).created = (w.manager s).created) (hr : r < (w.manager s).created)
    (hdata : ∀ q, q ≠ r → (w'.manager s).data q = (w.manager s).data q)
    (htcp : ∀ q, q ≠ r → w'.tcp s q = w.tcp s q)
    (hlt : w'.attempt s r < w.attempt s r) : w'.pending s < w.pending s := by
  rw [pending, pending, hcreated]
  apply Finset.sum_lt_sum
  · intro q _
    rcases eq_or_ne q r with rfl | hne
    · exact hlt.le
    · exact (attempt_congr (by rw [hdata q hne]) (htcp q hne)).le
  · exact ⟨r, Finset.mem_range.mpr hr, hlt⟩

theorem pending_lt_of_remaining {r : SessionRef} {c d : TcpConnection}
    (hcreated : (w'.manager s).created = (w.manager s).created) (hr : r < (w.manager s).created)
    (hdata : ∀ q, q ≠ r → (w'.manager s).data q = (w.manager s).data q)
    (hconnecting : ((w'.manager s).data r).connection = .connecting →
      ((w.manager s).data r).connection = .connecting)
    (htcp : w.tcp s r = some c) (htcp' : w'.tcp s = Function.update (w.tcp s) r (some d))
    (hlt : d.remaining < c.remaining) : w'.pending s < w.pending s := by
  refine pending_lt_of_attempt hcreated hr hdata (fun q hne => ?_) ?_
  · rw [htcp', Function.update_of_ne hne]
  · rw [attempt_of_some htcp, attempt_of_some (by rw [htcp', Function.update_self])]
    split
    · next hc =>
      rw [if_pos (hconnecting hc)]
      omega
    · omega

theorem pending_lt_of_over {r : SessionRef} {c d : TcpConnection}
    (hcreated : (w'.manager s).created = (w.manager s).created) (hr : r < (w.manager s).created)
    (hdata : ∀ q, q ≠ r → (w'.manager s).data q = (w.manager s).data q)
    (hc : ((w.manager s).data r).connection = .connecting)
    (hover : ((w'.manager s).data r).connection ≠ .connecting)
    (htcp : w.tcp s r = some c) (htcp' : w'.tcp s = Function.update (w.tcp s) r (some d))
    (hle : d.remaining ≤ c.remaining) : w'.pending s < w.pending s := by
  refine pending_lt_of_attempt hcreated hr hdata (fun q hne => ?_) ?_
  · rw [htcp', Function.update_of_ne hne]
  · rw [attempt_of_some htcp, attempt_of_some (by rw [htcp', Function.update_self]), if_pos hc,
      if_neg hover]
    omega

/-- A connection nobody has accepted carries no frames. -/
theorem Stage.unaccepted {m k : BVTCPConnectionManager} {r : SessionRef} {c : TcpConnection}
    (h : Stage m k r c) (hnone : c.acceptor = none) (halive : c.alive = true) :
    c.toDialler = [] ∧ c.toAcceptor = [] := by
  cases h with
  | pending _ hto hgreet _ =>
    rcases hgreet with ⟨-, hfrom⟩ | ⟨q, hq, -, -⟩
    · exact ⟨hfrom, hto⟩
    · rw [hnone] at hq
      cases hq
  | givenUp _ hdead _ =>
    rw [halive] at hdead
    cases hdead
  | entered _ heq =>
    rw [heq]
    exact ⟨rfl, rfl⟩
  | greeted q _ _ heq =>
    rw [heq] at hnone
    cases hnone
  | answered q _ _ heq =>
    rw [heq] at hnone
    cases hnone
  | identified q _ _ heq =>
    rw [heq] at hnone
    cases hnone
  | settled q _ _ heq =>
    rw [heq] at hnone
    cases hnone

/-- The attempt of a connection that is alive is under way, or its connect handler has run. -/
theorem Stage.live_of_alive {m k : BVTCPConnectionManager} {r : SessionRef} {c : TcpConnection}
    (h : Stage m k r c) (halive : c.alive = true) (hc : (m.data r).connection ≠ .connecting) :
    (m.data r).connection = .live := by
  cases h with
  | pending hconn _ _ _ => exact absurd hconn hc
  | givenUp _ hdead _ =>
    rw [halive] at hdead
    cases hdead
  | entered he _ => exact he.connection
  | greeted q he _ _ => exact he.connection
  | answered q he _ _ => exact he.connection
  | identified q he _ _ => exact he.connection
  | settled q he _ _ => exact he.connection

/-- **Every turn lowers what is left to do.** -/
theorem Dials.pending_lt (h : w.Dials s) (ht : Turned w s w') : w'.pending s < w.pending s := by
  cases ht with
  | @connect r hc htcp =>
    refine pending_lt_of_attempt (r := r) rfl (h.dialling.listedM.lt_created hc (by decide))
      (fun q _ => rfl) (fun q hne => ?_) ?_
    · rw [tcp_setTcp_self, Function.update_of_ne hne]
    · rw [attempt_of_none htcp, attempt_of_some (by rw [tcp_setTcp_self, Function.update_self]),
        manager_setTcp, if_pos hc, if_pos hc]
      decide
  | @fail r hc htcp =>
    have hover : (((w.manager s).drop r).data r).connection ≠ .connecting := by
      simp [BVTCPConnectionManager.drop]
    refine pending_lt_of_attempt (r := r) ?_ (h.dialling.listedM.lt_created hc (by decide))
      (fun q hne => ?_) (fun q _ => rfl) ?_
    · rw [manager_setManager_self]
      rfl
    · rw [manager_setManager_self]
      exact Function.update_of_ne hne _ _
    · rw [attempt_of_none htcp, attempt_of_none (by rw [tcp_setManager, htcp]),
        manager_setManager_self, if_pos hc, if_neg hover]
      decide
  | @giveUp r c hc htcp _ =>
    have hover : (((w.manager s).drop r).data r).connection ≠ .connecting := by
      simp [BVTCPConnectionManager.drop]
    refine pending_lt_of_over ?_ (h.dialling.made r c htcp) (fun q hne => ?_) hc ?_ htcp ?_
      c.remaining_closed_le
    · rw [manager_setTcp, manager_setManager_self]
      rfl
    · rw [manager_setTcp, manager_setManager_self]
      exact Function.update_of_ne hne _ _
    · rw [manager_setTcp, manager_setManager_self]
      exact hover
    · rw [tcp_setTcp_self, tcp_setManager]
  | @enter r c hc htcp =>
    have hover : (((w.manager s).enterConnected r).data r).connection ≠ .connecting := by
      simp [BVTCPConnectionManager.enterConnected]
    refine pending_lt_of_over (d := c) ?_ (h.dialling.made r c htcp) (fun q hne => ?_) hc ?_ htcp
      ?_ (Nat.le_refl _)
    · rw [manager_setManager_self]
      rfl
    · rw [manager_setManager_self]
      exact Function.update_of_ne hne _ _
    · rw [manager_setManager_self]
      exact hover
    · rw [tcp_setManager, ← htcp, Function.update_eq_self]
  | @accept r q c htcp hnone _ =>
    have hsame : ∀ k c, ((w.setManager s.other k).setTcp s r c).manager s = w.manager s := by
      intro k c
      rw [manager_setTcp, manager_setManager_of_other]
    refine pending_lt_of_remaining ?_ (h.dialling.made r c htcp) (fun q _ => ?_) (fun hc => ?_) htcp
      ?_ (TcpConnection.remaining_accept_lt hnone
        (fun halive => (h.dialling.stage r c htcp).unaccepted hnone halive) q)
    · rw [hsame]
    · rw [hsame]
    · rwa [hsame] at hc
    · rw [tcp_setTcp_self, tcp_setManager]
  | @answer r q hlive htcp =>
    have hsame : ∀ c, ((w.setManager s (w.manager s)).setTcp s r c).manager s = w.manager s := by
      intro c
      rw [manager_setTcp, manager_setManager_self]
    refine pending_lt_of_remaining (d := ⟨some q, [], [.helloBack (some (w.name s))], true⟩) ?_
      (h.dialling.made r _ htcp) (fun q _ => ?_) (fun hc => ?_) htcp ?_ ?_
    · rw [hsame]
    · rw [hsame]
    · rwa [hsame] at hc
    · rw [tcp_setTcp_self, tcp_setManager]
    · simp [TcpConnection.remaining, HandshakeFrame.toCome]
  | @identify r q _ htcp =>
    have hsame : ∀ k c, ((w.setManager s.other k).setTcp s r c).manager s = w.manager s := by
      intro k c
      rw [manager_setTcp, manager_setManager_of_other]
    refine pending_lt_of_remaining (d := ⟨some q, [.confirmEstablished], [], true⟩) ?_
      (h.dialling.made r _ htcp) (fun q _ => ?_) (fun hc => ?_) htcp ?_ ?_
    · rw [hsame]
    · rw [hsame]
    · rwa [hsame] at hc
    · rw [tcp_setTcp_self, tcp_setManager]
    · simp [TcpConnection.remaining, HandshakeFrame.toCome]
  | @confirm r q hlive htcp =>
    refine pending_lt_of_remaining (d := ⟨some q, [], [], true⟩) ?_ (h.dialling.made r _ htcp)
      (fun q hne => ?_) (fun hc => ?_) htcp ?_ ?_
    · rw [manager_setTcp, manager_setManager_self]
      rfl
    · rw [manager_setTcp, manager_setManager_self]
      exact Function.update_of_ne hne _ _
    · rw [manager_setTcp, manager_setManager_self] at hc
      simpa [BVTCPConnectionManager.setState] using hc
    · rw [tcp_setTcp_self, tcp_setManager]
    · simp [TcpConnection.remaining, HandshakeFrame.toCome]

/-! ### Something can run -/

/-- Two hosts on their way: the accepting host has a socket that waits for a peer, and where a
connection came to nothing the dialling host lists a session. -/
structure Meeting (w : World) (s : Side) : Prop where
  dials : w.Dials s
  fits : (w.name s).length ≤ 128
  accepts : ∃ q, ((w.manager s.other).data q).connection = .accepting
  lost : ∀ r c, w.tcp s r = some c → c.alive = false → ∃ q, (w.manager s).Holds q

theorem Meeting.undisturbed (h : w.Meeting s) {a : Happening} (hmoves : w.Moves a) :
    Undisturbed w a := by
  cases a with
  | published u services => trivial
  | resolved u attempts => trivial
  | deregistered u services => exact hmoves.elim
  | connect u r => trivial
  | connectHandler u r error => trivial
  | acceptHandler u r q => trivial
  | deliverToDialler u r env =>
    rcases Side.eq_or_eq_other s u with rfl | rfl
    · exact h.fits
    · obtain ⟨-, c, htcp, -⟩ := hmoves
      rw [h.dials.silent r] at htcp
      cases htcp
  | deliverToAcceptor u r env => trivial
  | lose u r => exact hmoves.elim

/-- As long as something is pending, something can run. -/
theorem Meeting.exists_moves (h : w.Meeting s) (hpending : ¬ w.Quiescent) : ∃ a, w.Moves a := by
  by_contra hnone
  refine hpending fun u r hr => ?_
  rcases Side.eq_or_eq_other s u with rfl | rfl
  · have hconnecting : ((w.manager u).data r).connection ≠ .connecting := by
      intro hc
      cases htcp : w.tcp u r with
      | none => exact hnone ⟨.connect u r, hc, htcp⟩
      | some c => exact hnone ⟨.connectHandler u r false, hc, by rw [htcp]; rfl⟩
    refine ⟨hconnecting, fun c htcp halive => ?_⟩
    have hlive := (h.dials.dialling.stage r c htcp).live_of_alive halive hconnecting
    have haccepted : c.acceptor ≠ none := by
      intro hacc
      obtain ⟨q, hq⟩ := h.accepts
      exact hnone ⟨.acceptHandler u r q, ⟨c, htcp, hacc⟩, hq⟩
    refine ⟨haccepted, ?_, ?_⟩
    · by_contra hframes
      exact hnone ⟨.deliverToDialler u r .blank, hlive, c, htcp, halive, hframes⟩
    · by_contra hframes
      exact hnone ⟨.deliverToAcceptor u r .blank, c, htcp, halive, haccepted, hframes⟩
  · refine ⟨h.dials.dialling.waiting r, fun c htcp => ?_⟩
    rw [h.dials.silent r] at htcp
    cases htcp

/-- Where nothing is pending, the hosts have met. -/
theorem Meeting.met (h : w.Meeting s) (hquiet : w.Quiescent) : w.Met := by
  refine ⟨hquiet, h.dials.agree hquiet, ?_⟩
  rintro ⟨u, r, htcp⟩
  obtain ⟨c, hc⟩ := Option.ne_none_iff_exists'.mp htcp
  rcases Side.eq_or_eq_other s u with rfl | rfl
  · have hheld : ∃ p, (w.manager u).Holds p := by
      cases halive : c.alive with
      | false => exact h.lost r c hc halive
      | true =>
        have hstage := h.dials.dialling.stage r c hc
        have hconnecting := (hquiet u r (h.dials.dialling.made r c hc)).1
        exact ⟨r, (hstage.entered_of_live (hstage.live_of_alive halive hconnecting)).1⟩
    obtain ⟨p, hp⟩ := hheld
    obtain ⟨c', q, hc', hq, halive, ⟨-, -, i, hi⟩, ⟨-, -, j, hj⟩⟩ := h.dials.settled hquiet hp
    intro v
    rcases Side.eq_or_eq_other u v with rfl | rfl
    · exact ⟨p, i, hi, (h.dials.dialling.heldM p hp).1⟩
    · refine ⟨q, j, hj, ?_⟩
      rw [Side.other_other]
      exact (h.dials.dialling.heldK q ⟨j, hj⟩).1
  · exact absurd (h.dials.silent r) htcp

/-! ### The invariant -/

theorem holds_enterConnected (m : BVTCPConnectionManager) (r : SessionRef) :
    (m.enterConnected r).Holds r :=
  ⟨(m.data r).sessionID, AList.lookup_insert _⟩

theorem accepting_acceptHandler (k : BVTCPConnectionManager) (q : SessionRef) :
    ((k.acceptHandler q).data k.created).connection = .accepting := by
  simp [BVTCPConnectionManager.acceptHandler, BVTCPConnectionManager.accept,
    BVTCPConnectionManager.handOut]

/-- A socket that waits goes on to wait while another session says its name. -/
theorem accepting_enterIdentified {k : BVTCPConnectionManager} {q : SessionRef} (name : Bytes)
    (hlive : (k.data q).connection = .live)
    (h : ∃ p, (k.data p).connection = .accepting) :
    ∃ p, (((k.setState .established q).enterIdentified name q).data p).connection =
      .accepting := by
  obtain ⟨p, hp⟩ := h
  have hne : p ≠ q := by
    rintro rfl
    rw [hlive] at hp
    cases hp
  refine ⟨p, ?_⟩
  simpa [BVTCPConnectionManager.enterIdentified, BVTCPConnectionManager.setState,
    Function.update_of_ne hne] using hp

/-- A connection that is alive takes the place of one. -/
theorem lost_update {m : BVTCPConnectionManager} {tcp : SessionRef → Option TcpConnection}
    {r : SessionRef} {c : TcpConnection} (halive : c.alive = true)
    (h : ∀ p c', tcp p = some c' → c'.alive = false → ∃ q, m.Holds q) :
    ∀ p c', Function.update tcp r (some c) p = some c' → c'.alive = false → ∃ q, m.Holds q := by
  apply forall_update_some
  · intro hdead
    rw [halive] at hdead
    cases hdead
  · intro p c' _ hc'
    exact h p c' hc'

theorem Meeting.turn (h : w.Meeting s) (ht : Turned w s w') (hd : w'.Dials s) : w'.Meeting s := by
  cases ht with
  | @connect r hc htcp =>
    refine ⟨hd, h.fits, h.accepts, ?_⟩
    rw [tcp_setTcp_self, manager_setTcp]
    exact lost_update rfl h.lost
  | @fail r hc htcp =>
    refine ⟨hd, ?_, ?_, fun p c hp hdead => ?_⟩
    · rw [name, manager_setManager_self]
      exact h.fits
    · rw [manager_setManager_other]
      exact h.accepts
    · rw [manager_setManager_self]
      exact h.lost p c hp hdead
  | @giveUp r c hc htcp hheld =>
    refine ⟨hd, ?_, ?_, fun p c hp hdead => ?_⟩
    · rw [name, manager_setTcp, manager_setManager_self]
      exact h.fits
    · rw [manager_setTcp, manager_setManager_other]
      exact h.accepts
    · rw [manager_setTcp, manager_setManager_self]
      exact hheld
  | @enter r c hc htcp =>
    refine ⟨hd, ?_, ?_, fun p c hp hdead => ?_⟩
    · rw [name, manager_setManager_self]
      exact h.fits
    · rw [manager_setManager_other]
      exact h.accepts
    · rw [manager_setManager_self]
      exact ⟨r, holds_enterConnected _ r⟩
  | @accept r q c htcp hnone hq =>
    refine ⟨hd, ?_, ⟨(w.manager s.other).created, ?_⟩, ?_⟩
    · rw [name, manager_setTcp, manager_setManager_of_other]
      exact h.fits
    · rw [manager_setTcp, manager_setManager_self]
      exact accepting_acceptHandler _ q
    · rw [tcp_setTcp_self, manager_setTcp, manager_setManager_of_other, tcp_setManager]
      exact forall_update_some (h.lost r c htcp) fun p c' _ hc' => h.lost p c' hc'
  | @answer r q hlive htcp =>
    refine ⟨hd, ?_, ?_, ?_⟩
    · rw [name, manager_setTcp, manager_setManager_self]
      exact h.fits
    · rw [manager_setTcp, manager_setManager_other]
      exact h.accepts
    · rw [tcp_setTcp_self, manager_setTcp, manager_setManager_self, tcp_setManager]
      exact lost_update rfl h.lost
  | @identify r q hlive htcp =>
    refine ⟨hd, ?_, ?_, ?_⟩
    · rw [name, manager_setTcp, manager_setManager_of_other]
      exact h.fits
    · rw [manager_setTcp, manager_setManager_self]
      exact accepting_enterIdentified _ hlive h.accepts
    · rw [tcp_setTcp_self, manager_setTcp, manager_setManager_of_other, tcp_setManager]
      exact lost_update rfl h.lost
  | @confirm r q hlive htcp =>
    refine ⟨hd, ?_, ?_, ?_⟩
    · rw [name, manager_setTcp, manager_setManager_self]
      exact h.fits
    · rw [manager_setTcp, manager_setManager_other]
      exact h.accepts
    · rw [tcp_setTcp_self, manager_setTcp, manager_setManager_self, tcp_setManager]
      exact lost_update rfl h.lost

theorem Meeting.told (h : w.Meeting s) (ht : Told w s w') (hd : w'.Dials s) : w'.Meeting s := by
  cases ht with
  | idle => exact h
  | @mail u e hv =>
    rcases Side.eq_or_eq_other s u with rfl | rfl
    · refine ⟨hd, ?_, ?_, fun p c hp hdead => ?_⟩
      · rw [name, manager_mail_self, hv.thisMachine]
        exact h.fits
      · rw [manager_mail_other]
        exact h.accepts
      · obtain ⟨q, hq⟩ := h.lost p c hp hdead
        rw [manager_mail_self]
        exact ⟨q, (hv.holds q).mpr hq⟩
    · refine ⟨hd, ?_, ?_, fun p c hp hdead => ?_⟩
      · rw [name, manager_mail_of_other]
        exact h.fits
      · rw [manager_mail_self, hv.data]
        exact h.accepts
      · rw [manager_mail_of_other]
        exact h.lost p c hp hdead
  | @dial e hdial =>
    refine ⟨hd, ?_, ?_, fun p c hp hdead => ?_⟩
    · rw [name, manager_mail_self, hdial]
      exact h.fits
    · rw [manager_mail_other]
      exact h.accepts
    · rw [manager_mail_self, hdial]
      exact h.lost p c hp hdead
  | @lose r c htcp hheld =>
    refine ⟨hd, h.fits, h.accepts, ?_⟩
    rw [tcp_setTcp_self, manager_setTcp]
    refine forall_update_some (fun _ => ?_) fun p c' _ hc' => h.lost p c' hc'
    cases halive : c.alive with
    | true => exact hheld halive
    | false => exact h.lost r c htcp halive

theorem step_meeting (w : World) (a : Happening) (h : w.Meeting s) (hok : Undisturbed w a) :
    (w.step a).Meeting s := by
  have hd := step_dials w a h.dials hok
  obtain hturn | ⟨-, htold⟩ := h.dials.step_cases hok
  · exact h.turn hturn hd
  · exact h.told htold hd

theorem meeting_start {name : Side → Bytes} (rootdir : Side → Bytes) (files : Side → Files)
    (hne : name .left ≠ name .right)
    (hfits : ∀ s : Side, name s < name s.other → (name s).length ≤ 128) :
    ∃ s, (start name rootdir files).Meeting s := by
  obtain ⟨s, hs⟩ := dials_start rootdir files hne
  refine ⟨s, hs, hfits s hs.dialling.smaller, ⟨0, rfl⟩, fun r c hc => ?_⟩
  cases hc

/-- **Two hosts meet.**  From whatever two hosts with distinct names have come to in a run in which
no listed peer is deregistered and no connection is lost that is needed, the network and the
handlers take them, in whichever order they run, to where nothing is pending and the hosts agree;
there each lists a session for the other, unless the network has connected no attempt. -/
theorem hosts_meet (name rootdir : Side → Bytes) (files : Side → Files)
    (hne : name .left ≠ name .right)
    (hfits : ∀ s : Side, name s < name s.other → (name s).length ≤ 128) (as : List Happening)
    (hok : Runs.Meets step Undisturbed (start name rootdir files) as) :
    Runs.Inevitable step Moves Met (Runs.run step (start name rootdir files) as) := by
  obtain ⟨s, hs⟩ := meeting_start rootdir files hne hfits
  have hrun := Runs.run_invariant (I := fun w : World => w.Meeting s) step_meeting hs hok
  refine Runs.inevitable_of_rank (R := fun w n => w.Meeting s ∧ w.pending s = n) ?_ ?_ ⟨hrun, rfl⟩
  · rintro w n ⟨h, -⟩
    by_cases hquiet : w.Quiescent
    · exact .inl (h.met hquiet)
    · exact .inr (h.exists_moves hquiet)
  · rintro w n a ⟨h, rfl⟩ hmoves
    have hok := h.undisturbed hmoves
    obtain hturn | ⟨hidle, -⟩ := h.dials.step_cases hok
    · exact ⟨_, h.dials.pending_lt hturn, step_meeting w a h hok, rfl⟩
    · exact absurd hmoves hidle

/-- `a` and `b` have discovered each other, and `a` has dialled. -/
theorem hosts_meet_dialled :
    let w := Runs.run step ab (meet.take 4)
    ((w.manager .left).data 1).connection = .connecting ∧ Runs.Inevitable step Moves Met w :=
  ⟨by decide, hosts_meet _ _ _ (by decide) (Side.forall_iff.mpr (by decide)) (meet.take 4)
    (by decide)⟩

end World

end LocalChat
