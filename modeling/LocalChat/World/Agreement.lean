import LocalChat.World.Dialling

/-!
# Two hosts agree

The invariant `Dialling` along the runs of two hosts.  What discovery tells a host reaches its
manager as a new node, a dial or a removal.

`hosts_agree`: in all runs that leave listed peers registered and needed connections alive, the
hosts agree whenever nothing is pending.

Neither of the two conditions can be left out: `RemoveSession` does not close the socket, and a read
error does not remove the session.
-/

namespace LocalChat

open Octets

namespace World

variable {m m' k k' : BVTCPConnectionManager} {r : SessionRef} {c : TcpConnection}

/-! ### Mail -/

theorem sameView_removeSession {n : Bytes}
    (hno : m.serviceSessionid n ≠ none → ∀ r, ¬ m.Holds r) :
    SameView m (m.removeSession n).2 := by
  obtain ⟨-, hsame⟩ | ⟨id, hid, hsome⟩ := BVTCPConnectionManager.removeSession_cases n m
  · rw [hsame]
    exact .refl m
  · rw [hsome]
    have hempty := hno (by rw [hid]; exact Option.some_ne_none id)
    refine ⟨rfl, fun i => ?_, rfl, rfl, fun n' id' hn' => ?_⟩
    · rcases eq_or_ne i id with rfl | hne
      · rw [AList.lookup_erase]
        cases hi : m.sessions.lookup i with
        | none => rfl
        | some r => exact absurd ⟨i, hi⟩ (hempty r)
      · exact AList.lookup_erase_ne hne
    · rcases eq_or_ne n' n with rfl | hne
      · simp at hn'
      · simpa [Function.update_of_ne hne] using hn'

theorem sameView_nodes (m : BVTCPConnectionManager) (nodes : Bytes → Bool) :
    SameView m { m with nodesM := nodes } :=
  ⟨rfl, fun _ => rfl, rfl, rfl, fun _ _ h => h⟩

structure KnowsOnly (m : BVTCPConnectionManager) (peer : Bytes) : Prop where
  service : ∀ n id, m.serviceSessionid n = some id → n = peer
  held : ∀ r, m.Holds r → m.nameOf r = peer

theorem KnowsOnly.of_sameView {peer : Bytes} (h : KnowsOnly m peer) (hv : SameView m m') :
    KnowsOnly m' peer :=
  ⟨fun n id hn => h.service n id (hv.service n id hn), fun r hr => by
    rw [hv.nameOf]
    exact h.held r ((hv.holds r).mp hr)⟩

/-- The peer is deregistered only while it has no session. -/
def Unlisted (services known : List BVServiceBrowseInstance) (m : BVTCPConnectionManager)
    (peer : Bytes) : Prop :=
  (∃ x ∈ services, x.serviceName = peer) → (∃ x ∈ known, x.serviceName = peer) →
    m.isSessionAlreadyPresent peer = false

theorem sameView_deregister {client : Client} {peer : Bytes} {x : BVServiceBrowseInstance}
    (h : KnowsOnly client.manager peer)
    (hok : x.serviceName = peer → (∃ y ∈ client.serviceV, y.serviceName = peer) →
      client.manager.isSessionAlreadyPresent peer = false) :
    SameView client.manager (client.deregister x).manager := by
  rw [Client.deregister]
  split
  · next hshort =>
    refine (sameView_nodes client.manager _).trans (sameView_removeSession fun hsome r hr => ?_)
    -- only the peer has a mapping, so it is the peer that is removed
    obtain ⟨id, hid⟩ := Option.ne_none_iff_exists'.mp hsome
    have hpeer := h.service x.serviceName id hid
    obtain ⟨y, hy, hdrop⟩ := List.length_filter_lt_length_iff_exists.mp hshort
    have hpresent := hok hpeer ⟨y, hy, by simpa [hpeer] using hdrop⟩
    rw [← Bool.not_eq_true, BVTCPConnectionManager.present_iff_holds] at hpresent
    exact hpresent ⟨r, hr, h.held r hr⟩
  · exact .refl _

theorem deregister_serviceV_subset (client : Client) (x : BVServiceBrowseInstance) :
    (client.deregister x).serviceV ⊆ client.serviceV := by
  rw [Client.deregister]
  split
  · exact List.filter_subset_self _
  · exact List.filter_subset_self _

theorem SameView.present (h : SameView m m') (n : Bytes) :
    m'.isSessionAlreadyPresent n = m.isSessionAlreadyPresent n := by
  rw [Bool.eq_iff_iff, BVTCPConnectionManager.present_iff_holds,
    BVTCPConnectionManager.present_iff_holds]
  simp only [h.holds, h.nameOf]

theorem sameView_deregisterAll {peer : Bytes} (services : List BVServiceBrowseInstance)
    {client : Client} (h : KnowsOnly client.manager peer)
    (hok : Unlisted services client.serviceV client.manager peer) :
    SameView client.manager (services.foldl Client.deregister client).manager := by
  induction services generalizing client with
  | nil => exact .refl _
  | cons x services ih =>
    have hx : SameView client.manager (client.deregister x).manager :=
      sameView_deregister h fun hpeer hknown => hok ⟨x, List.mem_cons_self, hpeer⟩ hknown
    refine hx.trans (ih (h.of_sameView hx) fun hin hknown => ?_)
    obtain ⟨y, hy, hpeer⟩ := hin
    obtain ⟨z, hz, hzpeer⟩ := hknown
    rw [hx.present]
    exact hok ⟨y, List.mem_cons_of_mem _ hy, hpeer⟩
      ⟨z, deregister_serviceV_subset client x hz, hzpeer⟩

/-- What a resolved event does to the manager: nothing, a new node, or a dial. -/
theorem resolved_cases (client : Client) (n : Bytes) (attempts : Fin 5 → Bool) :
    (client.step (.serviceResolved n attempts)).manager = client.manager ∨
      (client.step (.serviceResolved n attempts)).manager =
        Client.addNode n client.manager ∨
      (client.manager.thisMachine < n ∧
        (client.step (.serviceResolved n attempts)).manager =
          (Client.addNode n client.manager).dial n) := by
  have hstep : client.step (.serviceResolved n attempts) =
      (client.handleResolvedServices n attempts).2 := rfl
  rw [hstep, Client.handleResolvedServices]
  split
  · exact .inl rfl
  · split
    · exact .inl rfl
    · right
      simp only [BVTCPConnectionManager.initiateSessionWithNode]
      split
      · next hdial =>
        rw [BVTCPConnectionManager.mayDial, Bool.and_eq_true, decide_eq_true_eq] at hdial
        exact .inr ⟨hdial.1, rfl⟩
      · exact .inl rfl

/-! ### The two hosts -/

section Updates

variable {w : World} {s : Side}

@[simp] theorem manager_setManager_self : (w.setManager s m).manager s = m := by
  simp [manager, setManager, setHost]

@[simp] theorem manager_setManager_other :
    (w.setManager s m).manager s.other = w.manager s.other := by
  simp [manager, setManager, setHost, Function.update_of_ne]

@[simp] theorem manager_setManager_of_other :
    (w.setManager s.other m).manager s = w.manager s := by
  simp [manager, setManager, setHost, Function.update_of_ne]

@[simp] theorem tcp_setManager : (w.setManager s m).tcp = w.tcp := rfl

@[simp] theorem manager_setTcp : (w.setTcp s r c).manager = w.manager := rfl

@[simp] theorem tcp_setTcp_self :
    (w.setTcp s r c).tcp s = Function.update (w.tcp s) r (some c) := by
  simp [setTcp]

@[simp] theorem tcp_setTcp_other : (w.setTcp s r c).tcp s.other = w.tcp s.other := by
  simp [setTcp, Function.update_of_ne]

@[simp] theorem manager_mail_self {e : MailEvent} :
    (w.mail s e).manager s = ((w.host s).step e).manager := by
  simp [manager, mail, setHost]

@[simp] theorem manager_mail_other {e : MailEvent} :
    (w.mail s e).manager s.other = w.manager s.other := by
  simp [manager, mail, setHost, Function.update_of_ne]

@[simp] theorem manager_mail_of_other {e : MailEvent} :
    (w.mail s.other e).manager s = w.manager s := by
  simp [manager, mail, setHost, Function.update_of_ne]

end Updates

/-- No peer is deregistered at a host that lists a session for it, and no connection is lost but one
that its dialling host is about to give up, since it lists another.  And the name of the dialling
host fits its frame. -/
def Undisturbed (w : World) : Happening → Prop
  | .deregistered s services =>
    Unlisted services (w.host s).serviceV (w.manager s) (w.name s.other)
  | .lose s r => ∀ c ∈ w.tcp s r, c.alive = true →
    ((w.manager s).data r).connection = .connecting ∧
      (w.manager s).isSessionAlreadyPresent (w.name s.other) = true
  | .deliverToDialler s _ _ => (w.name s).length ≤ 128
  | _ => True

instance (services known : List BVServiceBrowseInstance) (m : BVTCPConnectionManager)
    (peer : Bytes) : Decidable (Unlisted services known m peer) :=
  inferInstanceAs (Decidable ((∃ x ∈ services, x.serviceName = peer) →
    (∃ x ∈ known, x.serviceName = peer) → m.isSessionAlreadyPresent peer = false))

instance (w : World) : DecidablePred (Undisturbed w)
  | .deregistered s services => inferInstanceAs
    (Decidable (Unlisted services (w.host s).serviceV (w.manager s) (w.name s.other)))
  | .lose s r => inferInstanceAs (Decidable (∀ c ∈ w.tcp s r, c.alive = true →
    ((w.manager s).data r).connection = .connecting ∧
      (w.manager s).isSessionAlreadyPresent (w.name s.other) = true))
  | .deliverToDialler s _ _ => inferInstanceAs (Decidable ((w.name s).length ≤ 128))
  | .published .. | .resolved .. | .connect .. | .connectHandler .. | .acceptHandler ..
  | .deliverToAcceptor .. => inferInstanceAs (Decidable True)

structure Dials (w : World) (s : Side) : Prop where
  dialling : Dialling (w.manager s) (w.manager s.other) (w.tcp s)
  silent : ∀ r, w.tcp s.other r = none

variable {w : World} {s : Side}

theorem Dials.setManager (h : w.Dials s)
    (hd : Dialling m' (w.manager s.other) (w.tcp s)) : (w.setManager s m').Dials s := by
  refine ⟨?_, h.silent⟩
  rw [manager_setManager_self, manager_setManager_other, tcp_setManager]
  exact hd

theorem Dials.setTcp (h : w.Dials s)
    (hd : Dialling (w.manager s) (w.manager s.other) (Function.update (w.tcp s) r (some c))) :
    (w.setTcp s r c).Dials s := by
  refine ⟨?_, fun p => ?_⟩
  · rw [manager_setTcp, tcp_setTcp_self]
    exact hd
  · rw [tcp_setTcp_other]
    exact h.silent p

theorem Dials.setEnd (h : w.Dials s)
    (hd : Dialling m' (w.manager s.other) (Function.update (w.tcp s) r (some c))) :
    ((w.setManager s m').setTcp s r c).Dials s := by
  refine ⟨?_, fun p => ?_⟩
  · rw [manager_setTcp, tcp_setTcp_self, manager_setManager_self, manager_setManager_other,
      tcp_setManager]
    exact hd
  · rw [tcp_setTcp_other, tcp_setManager]
    exact h.silent p

theorem Dials.setOtherEnd (h : w.Dials s)
    (hd : Dialling (w.manager s) k' (Function.update (w.tcp s) r (some c))) :
    ((w.setManager s.other k').setTcp s r c).Dials s := by
  refine ⟨?_, fun p => ?_⟩
  · rw [manager_setTcp, tcp_setTcp_self, manager_setManager_self, manager_setManager_of_other,
      tcp_setManager]
    exact hd
  · rw [tcp_setTcp_other, tcp_setManager]
    exact h.silent p

theorem Dials.knows (h : w.Dials s) : KnowsOnly (w.manager s) (w.name s.other) :=
  ⟨h.dialling.serviceM, fun r hr => (h.dialling.heldM r hr).1⟩

theorem Dials.knowsOther (h : w.Dials s) : KnowsOnly (w.manager s.other) (w.name s) :=
  ⟨h.dialling.serviceK, fun q hq => (h.dialling.heldK q hq).1⟩

/-- Mail that changes no session. -/
theorem Dials.mail_of_sameView (h : w.Dials s) (u : Side) {e : MailEvent}
    (hv : SameView (w.manager u) ((w.host u).step e).manager) : (w.mail u e).Dials s := by
  refine ⟨?_, h.silent⟩
  rcases Side.eq_or_eq_other s u with rfl | rfl
  · rw [manager_mail_self, manager_mail_other]
    exact h.dialling.of_sameView hv (.refl _)
  · rw [manager_mail_self, manager_mail_of_other]
    exact h.dialling.of_sameView (.refl _) hv

theorem Dials.published (h : w.Dials s) (u : Side) (services : List BVServiceBrowseInstance) :
    (w.mail u (.publishedService services)).Dials s := by
  refine h.mail_of_sameView u ?_
  have hsame : ((w.host u).step (.publishedService services)).manager = w.manager u :=
    Client.foldl_publish_manager services (w.host u)
  rw [hsame]
  exact .refl _

theorem Dials.deregistered (h : w.Dials s) (u : Side) {services : List BVServiceBrowseInstance}
    (hok : Undisturbed w (.deregistered u services)) :
    (w.mail u (.deregisteredService services)).Dials s := by
  have hknows : KnowsOnly (w.manager u) (w.name u.other) := by
    rcases Side.eq_or_eq_other s u with rfl | rfl
    · exact h.knows
    · rw [Side.other_other]
      exact h.knowsOther
  exact h.mail_of_sameView u (sameView_deregisterAll services hknows hok)

theorem Dials.resolved (h : w.Dials s) (u : Side) (attempts : Fin 5 → Bool) :
    (w.mail u (.serviceResolved (w.name u.other) attempts)).Dials s := by
  obtain hsame | hadd | ⟨hlt, hdial⟩ := resolved_cases (w.host u) (w.name u.other) attempts
  · refine h.mail_of_sameView u ?_
    rw [hsame]
    exact .refl _
  · refine h.mail_of_sameView u ?_
    rw [hadd]
    exact sameView_nodes _ _
  · rcases Side.eq_or_eq_other s u with rfl | rfl
    · refine ⟨?_, h.silent⟩
      rw [manager_mail_self, manager_mail_other, hdial]
      exact (h.dialling.of_sameView (sameView_nodes _ _) (.refl _)).dial
    · -- the larger name does not dial
      rw [Side.other_other] at hlt
      exact absurd hlt (List.lt_asymm h.dialling.smaller)

theorem Dials.connect (h : w.Dials s) (u : Side) (r : SessionRef) : (w.connect u r).Dials s := by
  rw [World.connect]
  split
  · next hc =>
    rcases Side.eq_or_eq_other s u with rfl | rfl
    · exact h.setTcp (h.dialling.connect hc.1 hc.2)
    · exact absurd hc.1 (h.dialling.waiting r)
  · exact h

/-- What a connect handler does to the world: nothing, a failed attempt, a second one, or a new
session. -/
theorem connectHandler_cases (w : World) (u : Side) (r : SessionRef) (error : Bool) :
    w.connectHandler u r error = w ∨
      ((w.manager u).data r).connection = .connecting ∧
        (w.tcp u r = none ∧
            w.connectHandler u r error = w.setManager u ((w.manager u).drop r) ∨
          ∃ c, w.tcp u r = some c ∧
            (w.connectHandler u r error =
                (w.setManager u ((w.manager u).drop r)).setTcp u r c.closed ∨
              (w.manager u).isSessionAlreadyPresent ((w.manager u).nameOf r) = false ∧
                w.connectHandler u r error =
                  w.setManager u ((w.manager u).enterConnected r))) := by
  by_cases hc : ((w.manager u).data r).connection = .connecting
  · cases htcp : w.tcp u r with
    | none =>
      cases error with
      | false => exact .inl (by simp [connectHandler, hc, htcp])
      | true =>
        refine .inr ⟨hc, .inl ⟨rfl, ?_⟩⟩
        simp [connectHandler, hc, htcp, BVTCPConnectionManager.connectHandler]
    | some c =>
      cases error with
      | true => exact .inl (by simp [connectHandler, hc, htcp])
      | false =>
        refine .inr ⟨hc, .inr ⟨c, rfl, ?_⟩⟩
        cases hp : (w.manager u).isSessionAlreadyPresent ((w.manager u).nameOf r) with
        | true =>
          refine .inl ?_
          simp [connectHandler, hc, htcp, hp, BVTCPConnectionManager.connectHandler]
        | false =>
          refine .inr ⟨rfl, ?_⟩
          simp [connectHandler, hc, htcp, hp, BVTCPConnectionManager.connectHandler]
  · exact .inl (by simp [connectHandler, hc])

theorem Dials.connectHandler (h : w.Dials s) (u : Side) (r : SessionRef) (error : Bool) :
    (w.connectHandler u r error).Dials s := by
  obtain hsame | ⟨hc, hcases⟩ := connectHandler_cases w u r error
  · rw [hsame]
    exact h
  rcases Side.eq_or_eq_other s u with rfl | rfl
  · obtain ⟨htcp, heq⟩ | ⟨c, htcp, heq | ⟨hnew, heq⟩⟩ := hcases
    · rw [heq]
      exact h.setManager (h.dialling.fail hc htcp)
    · rw [heq]
      exact h.setEnd (h.dialling.giveUp hc htcp)
    · rw [heq]
      refine h.setManager (h.dialling.enter hc (fun q hq => ?_) htcp)
      -- a listed session would carry the name that is dialled
      rw [← Bool.not_eq_true, BVTCPConnectionManager.present_iff_holds] at hnew
      exact hnew ⟨q, hq, (h.dialling.heldM q hq).1.trans (h.dialling.named r hc).symm⟩
  · exact absurd hc (h.dialling.waiting r)

theorem Dials.acceptHandler (h : w.Dials s) (u : Side) (r q : SessionRef) :
    (w.acceptHandler u r q).Dials s := by
  rw [World.acceptHandler]
  split
  · exact h
  next c htcp =>
  rcases Side.eq_or_eq_other s u with rfl | rfl
  · split
    · next hc =>
      exact h.setOtherEnd (h.dialling.accept hc.2 hc.1 htcp)
    · exact h
  · rw [h.silent r] at htcp
    cases htcp

theorem Dials.lose (h : w.Dials s) (u : Side) {r : SessionRef} (hok : Undisturbed w (.lose u r)) :
    (w.lose u r).Dials s := by
  rw [World.lose]
  split
  · exact h
  next c htcp =>
  rcases Side.eq_or_eq_other s u with rfl | rfl
  · cases halive : c.alive with
    | true =>
      obtain ⟨hc, hpresent⟩ := hok c htcp halive
      obtain ⟨q, hq, -⟩ := BVTCPConnectionManager.present_iff_holds.mp hpresent
      exact h.setTcp (h.dialling.lose hc ⟨q, hq⟩ htcp)
    | false => exact h.setTcp (h.dialling.loseAgain halive htcp)
  · rw [h.silent r] at htcp
    cases htcp

theorem deliverToDialler_cases (w : World) (u : Side) (r : SessionRef) (env : Env) :
    w.deliverToDialler u r env = w ∨
      ∃ acceptor f rest toAcceptor,
        w.tcp u r = some ⟨acceptor, f :: rest, toAcceptor, true⟩ ∧
        ((w.manager u).data r).connection = .live ∧
        ∀ m' answer closes, receive env r (w.manager u) f = (m', answer, closes) →
          w.deliverToDialler u r env = (w.setManager u m').setTcp u r
            (if closes then TcpConnection.closed ⟨acceptor, rest, toAcceptor ++ answer, true⟩
              else ⟨acceptor, rest, toAcceptor ++ answer, true⟩) := by
  unfold deliverToDialler
  split
  · next acceptor f rest toAcceptor htcp =>
    by_cases hlive : ((w.manager u).data r).connection = .live
    · refine .inr ⟨acceptor, f, rest, toAcceptor, htcp, hlive, fun m' answer closes hrec => ?_⟩
      simp [hlive, hrec]
    · exact .inl (by simp [hlive])
  · exact .inl rfl

theorem deliverToAcceptor_cases (w : World) (u : Side) (r : SessionRef) (env : Env) :
    w.deliverToAcceptor u r env = w ∨
      ∃ q toDialler f rest,
        w.tcp u r = some ⟨some q, toDialler, f :: rest, true⟩ ∧
        ∀ k' answer closes, receive env q (w.manager u.other) f = (k', answer, closes) →
          w.deliverToAcceptor u r env = (w.setManager u.other k').setTcp u r
            (if closes then TcpConnection.closed ⟨some q, toDialler ++ answer, rest, true⟩
              else ⟨some q, toDialler ++ answer, rest, true⟩) := by
  unfold deliverToAcceptor
  split
  · next q toDialler f rest htcp =>
    refine .inr ⟨q, toDialler, f, rest, htcp, fun k' answer closes hrec => ?_⟩
    simp [hrec]
  · exact .inl rfl

theorem Dials.deliverToDialler (h : w.Dials s) (u : Side) (r : SessionRef) {env : Env}
    (hok : Undisturbed w (.deliverToDialler u r env)) : (w.deliverToDialler u r env).Dials s := by
  obtain hsame | ⟨acceptor, f, rest, toAcceptor, htcp, hlive, heq⟩ :=
    deliverToDialler_cases w u r env
  · rw [hsame]
    exact h
  rcases Side.eq_or_eq_other s u with rfl | rfl
  · cases h.dialling.stage r _ htcp with
    | pending hc _ _ _ =>
      rw [hlive] at hc
      cases hc
    | givenUp hc _ _ =>
      rw [hlive] at hc
      cases hc
    | entered _ hframes => cases hframes
    | greeted q he hw hframes =>
      cases hframes
      have hreply : HandshakeFrame.reply env (w.manager u).thisMachine =
          .helloBack (some (w.name u)) := reply_of_length_le hok env
      have hrec : receive env r (w.manager u) .hello =
          (w.manager u, [.helloBack (some (w.name u))], false) := by
        rw [receive, if_neg (not_not.mpr he.unprepared), hreply]
      rw [heq _ _ _ hrec]
      exact h.setEnd (h.dialling.answer he hw htcp)
    | answered q _ _ hframes => cases hframes
    | identified q he hq hframes =>
      cases hframes
      have hrec : receive env r (w.manager u) .confirmEstablished =
          ((w.manager u).setState .established r, [], false) := by
        rw [receive, if_neg (not_not.mpr he.unprepared)]
      rw [heq _ _ _ hrec]
      exact h.setEnd (h.dialling.confirm he hq htcp)
    | settled q _ _ hframes => cases hframes
  · rw [h.silent r] at htcp
    cases htcp

theorem Dials.deliverToAcceptor (h : w.Dials s) (u : Side) (r : SessionRef) (env : Env) :
    (w.deliverToAcceptor u r env).Dials s := by
  obtain hsame | ⟨q, toDialler, f, rest, htcp, heq⟩ := deliverToAcceptor_cases w u r env
  · rw [hsame]
    exact h
  rcases Side.eq_or_eq_other s u with rfl | rfl
  · cases h.dialling.stage r _ htcp with
    | pending _ hto _ _ => cases hto
    | givenUp _ hdead _ => cases hdead
    | entered _ hframes => cases hframes
    | greeted q' _ _ hframes => cases hframes
    | answered q' he hw hframes =>
      cases hframes
      have hnew : (w.manager u.other).isSessionAlreadyPresent (w.name u) = false := by
        rw [← Bool.not_eq_true, BVTCPConnectionManager.present_iff_holds]
        rintro ⟨p, hp, -⟩
        exact h.dialling.emptyK he.held htcp rfl hw.notHeld p hp
      have hrec : receive env q (w.manager u.other) (.helloBack (some (w.name u))) =
          (((w.manager u.other).setState .established q).enterIdentified (w.name u) q,
            [.confirmEstablished], false) := by
        simp [receive, hw.unprepared, hnew, BVTCPConnectionManager.handleSessionIdentification]
      rw [heq _ _ _ hrec]
      exact h.setOtherEnd (h.dialling.identify he hw htcp)
    | identified q' _ _ hframes => cases hframes
    | settled q' _ _ hframes => cases hframes
  · rw [h.silent r] at htcp
    cases htcp

theorem step_dials (w : World) (a : Happening) (h : w.Dials s) (hok : Undisturbed w a) :
    (w.step a).Dials s := by
  cases a with
  | published u services => exact h.published u services
  | resolved u attempts => exact h.resolved u attempts
  | deregistered u services => exact h.deregistered u hok
  | connect u r => exact h.connect u r
  | connectHandler u r error => exact h.connectHandler u r error
  | acceptHandler u r q => exact h.acceptHandler u r q
  | deliverToDialler u r env => exact h.deliverToDialler u r hok
  | deliverToAcceptor u r env => exact h.deliverToAcceptor u r env
  | lose u r => exact h.lose u hok

theorem waiting_accept (name : Bytes) (q : SessionRef) :
    ((BVTCPConnectionManager.construct name).accept.data q).connection ≠ .connecting := by
  rcases eq_or_ne q 0 with rfl | hne
  · simp [BVTCPConnectionManager.accept, BVTCPConnectionManager.handOut,
      BVTCPConnectionManager.construct]
  · simp [BVTCPConnectionManager.accept, BVTCPConnectionManager.handOut,
      BVTCPConnectionManager.construct, Function.update_of_ne hne]

theorem dialling_start {name name' : Bytes} (hlt : name < name') :
    Dialling (BVTCPConnectionManager.construct name).accept
      (BVTCPConnectionManager.construct name').accept fun _ => none where
  listedM := (BVTCPConnectionManager.listed_construct name).of_same
    (BVTCPConnectionManager.sameSessions_handOut _ _ _)
  listedK := (BVTCPConnectionManager.listed_construct name').of_same
    (BVTCPConnectionManager.sameSessions_handOut _ _ _)
  smaller := hlt
  made := nofun
  stage := nofun
  named := fun r hc => absurd hc (waiting_accept name r)
  heldM := fun _ ⟨_, hr⟩ => nomatch hr
  heldK := fun _ ⟨_, hq⟩ => nomatch hq
  ends := nofun
  waiting := waiting_accept name'
  serviceM := nofun
  serviceK := nofun

theorem dials_start {name : Side → Bytes} (rootdir : Side → Bytes) (files : Side → Files)
    (hne : name .left ≠ name .right) : ∃ s, (start name rootdir files).Dials s := by
  by_cases hlt : name .left < name .right
  · exact ⟨.left, dialling_start hlt, fun _ => rfl⟩
  · obtain hlt | heq := List.le_iff_lt_or_eq.mp (List.not_lt.mp hlt)
    · exact ⟨.right, dialling_start hlt, fun _ => rfl⟩
    · exact absurd heq.symm hne

/-! ### Agreement -/

/-- Where nothing is pending, the connection of a listed session is settled. -/
theorem Dials.settled (h : w.Dials s) (hquiet : w.Quiescent) (hr : (w.manager s).Holds r) :
    ∃ c q, w.tcp s r = some c ∧ c.acceptor = some q ∧ c.alive = true ∧
      (w.manager s).Entered r .established ∧ (w.manager s.other).Entered q .established := by
  obtain ⟨-, hlive, c, hc⟩ := h.dialling.heldM r hr
  have halive := ((h.dialling.stage r c hc).entered_of_live hlive).2
  have hdone := (hquiet s r (h.dialling.made r c hc)).2 c hc halive
  obtain ⟨q, hq⟩ := Option.ne_none_iff_exists'.mp hdone.1
  obtain ⟨he, he', -⟩ := h.dialling.settled hr hc hdone hq
  exact ⟨c, q, hc, hq, halive, he, he'⟩

theorem Dials.agree (h : w.Dials s) (hquiet : w.Quiescent) : w.Agree := by
  intro u p hlists
  obtain ⟨id, hid, -⟩ := hlists
  rcases Side.eq_or_eq_other s u with rfl | rfl
  · obtain ⟨c, q, hc, hq, halive, he, he'⟩ := h.settled hquiet ⟨id, hid⟩
    obtain ⟨id', hid'⟩ := he'.held
    refine ⟨q, ⟨id', hid', ?_⟩, .inl ⟨c, hc, hq, halive⟩, he.state, he'.state⟩
    rw [Side.other_other]
    exact (h.dialling.heldK q he'.held).1
  · -- a session that was accepted: its peer lists the connection
    obtain ⟨-, r, c, hc, hacc, hr⟩ := h.dialling.heldK p ⟨id, hid⟩
    obtain ⟨c', q, hc', hq, halive, he, he'⟩ := h.settled hquiet hr
    rw [hc, Option.some.injEq] at hc'
    subst hc'
    rw [hacc, Option.some.injEq] at hq
    subst hq
    obtain ⟨id', hid'⟩ := he.held
    refine ⟨r, ⟨id', ?_, ?_⟩, .inr ⟨c, ?_, hacc, halive⟩, he'.state, ?_⟩
    · rw [Side.other_other]
      exact hid'
    · rw [Side.other_other]
      exact (h.dialling.heldM r hr).1
    · rw [Side.other_other]
      exact hc
    · rw [Side.other_other]
      exact he.state

/-- **Agreement.**  From the start of two hosts with distinct names, in every run in which no listed
peer is deregistered and no connection is lost that is needed, whenever nothing is pending the two
hosts list the two ends of one connection that is alive and ESTABLISHED, or neither lists the other.
-/
theorem hosts_agree (name rootdir : Side → Bytes) (files : Side → Files)
    (hne : name .left ≠ name .right) (as : List Happening)
    (hok : Runs.Meets step Undisturbed (start name rootdir files) as)
    (hquiet : (Runs.run step (start name rootdir files) as).Quiescent) :
    (Runs.run step (start name rootdir files) as).Agree := by
  obtain ⟨s, hs⟩ := dials_start rootdir files hne
  exact (Runs.run_invariant (I := fun w : World => w.Dials s) step_dials hs hok).agree hquiet

def ab : World :=
  start (fun | .left => [97] | .right => [98]) (fun _ => [47]) fun _ _ => none

/-- `a` and `b` discover each other, `a` dials, and the handshake runs to its end. -/
def meet : List Happening :=
  [.published .left [⟨[98], [], []⟩], .published .right [⟨[97], [], []⟩],
    .resolved .right fun _ => true, .resolved .left fun _ => true, .connect .left 1,
    .connectHandler .left 1 false, .acceptHandler .left 1 0, .deliverToDialler .left 1 .blank,
    .deliverToAcceptor .left 1 .blank, .deliverToDialler .left 1 .blank]

theorem hosts_agree_met : (Runs.run step ab meet).Quiescent ∧
    (Runs.run step ab meet).Lists .left 1 ∧ (Runs.run step ab meet).Agree := by
  refine ⟨by decide, ⟨1, by decide, by decide⟩, ?_⟩
  exact hosts_agree _ _ _ (by decide) meet (by decide) (by decide)

/-- After the handshake `b` is deregistered at `a`: `b` lists a session for `a`, and `a` none for
`b`.  Or the connection is lost: both list a session, but the connection is not alive. -/
theorem removal_and_loss_disagree :
    let removed := Runs.run step ab (meet ++ [.deregistered .left [⟨[98], [], []⟩]])
    let lost := Runs.run step ab (meet ++ [.lose .left 1])
    (removed.Quiescent ∧ removed.Lists .right 0 ∧ ¬ removed.Agree) ∧
      lost.Quiescent ∧ lost.Lists .left 1 ∧ lost.Lists .right 0 ∧ ¬ lost.Agree := by
  intro removed lost
  have hright : removed.Lists .right 0 := ⟨0, by decide, by decide⟩
  have hleft : lost.Lists .left 1 := ⟨1, by decide, by decide⟩
  refine ⟨⟨by decide, hright, fun h => ?_⟩,
    by decide, hleft, ⟨0, by decide, by decide⟩, fun h => ?_⟩
  · obtain ⟨q, ⟨id, hid, hname⟩, -⟩ := h .right 0 hright
    have hnone : (removed.manager .left).isSessionAlreadyPresent (removed.name .right) = false := by
      decide
    exact BVTCPConnectionManager.not_present_iff.mp hnone id q hid hname
  · obtain ⟨q, -, ⟨c, hc, -, halive⟩ | ⟨c, hc, -, -⟩, -⟩ := h .left 1 hleft
    · have hdead : ∀ c ∈ lost.tcp .left 1, c.alive = false := by decide
      rw [hdead c hc] at halive
      cases halive
    · -- `b` has dialled nobody
      have hnone : lost.tcp Side.left.other q = none := rfl
      rw [hnone] at hc
      cases hc

end World

end LocalChat
