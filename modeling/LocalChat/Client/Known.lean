import LocalChat.Client.Basic
import LocalChat.Manager.Addressing

/-!
# Known nodes

`HandleResolvedServices` ignores a node that is in `nodesM`, so a node that is there and has neither
a session nor a connect attempt is not dialled again: unless the peer dials, it is out of reach
until it is deregistered.  This happens when a connect attempt fails, since `ConnectHandler` leaves
the node in `nodesM`, and when a session disappears behind the back of the two maps: it is given
another name, or another session comes in under its id.

`none_abandoned`: in the runs where neither happens, every known node has a session or an attempt,
or it is the peer that has to dial.

Each event is handled in one piece here.
-/

namespace LocalChat

namespace BVTCPConnectionManager

variable {m m' : BVTCPConnectionManager} {r : SessionRef} {serviceName n : Bytes}

/-! ### Attempts -/

def attempts (serviceName : Bytes) (m : BVTCPConnectionManager) : List SessionRef :=
  (List.range m.created).filter fun r =>
    (m.data r).connection = .connecting ∧ m.nameOf r = serviceName

theorem mem_attempts_iff :
    r ∈ m.attempts serviceName ↔
      r < m.created ∧ (m.data r).connection = .connecting ∧ m.nameOf r = serviceName := by
  simp [attempts]

/-- A peer that has a session or is being dialled, or that has to dial itself. -/
def Awaited (m : BVTCPConnectionManager) (serviceName : Bytes) : Prop :=
  m.isSessionAlreadyPresent serviceName = true ∨ m.attempts serviceName ≠ [] ∨
    ¬ m.thisMachine < serviceName

instance (m : BVTCPConnectionManager) : DecidablePred m.Awaited := fun serviceName =>
  inferInstanceAs (Decidable (m.isSessionAlreadyPresent serviceName = true ∨
    m.attempts serviceName ≠ [] ∨ ¬ m.thisMachine < serviceName))

/-- Every known node is awaited. -/
def NoneAbandoned (m : BVTCPConnectionManager) : Prop :=
  ∀ serviceName, m.nodesM serviceName = true → m.Awaited serviceName

theorem Awaited.mono (hthis : m'.thisMachine = m.thisMachine)
    (hpresent : m.isSessionAlreadyPresent n = true → m'.Awaited n)
    (hattempt : ∀ q ∈ m.attempts n, m'.Awaited n) (h : m.Awaited n) : m'.Awaited n := by
  rcases h with h | h | h
  · exact hpresent h
  · obtain ⟨q, hq⟩ := List.exists_mem_of_ne_nil _ h
    exact hattempt q hq
  · exact .inr (.inr (hthis ▸ h))

theorem awaited_of_attempt (h : r ∈ m.attempts n) : m.Awaited n :=
  .inr (.inl (List.ne_nil_of_mem h))

/-! ### The maps -/

/-- What the two maps and the ids keep while no name and no id is ambiguous. -/
structure Orderly (m : BVTCPConnectionManager) : Prop where
  listed : m.Listed
  numbered : m.Numbered
  filed : m.Filed

theorem orderly_construct (hostname : Bytes) : (construct hostname).Orderly :=
  ⟨listed_construct hostname, numbered_construct hostname, filed_construct hostname⟩

theorem Orderly.of_same (h : m.Orderly) (hs : m.SameSessions m') (hn : m'.Numbered)
    (hservice : m'.serviceSessionid = m.serviceSessionid) : m'.Orderly :=
  ⟨h.listed.of_same hs, hn, h.filed.of_same h.listed hs hservice⟩

theorem Orderly.handOut (h : m.Orderly) (serviceName : Bytes) (c : Connection) :
    (m.handOut serviceName c).Orderly :=
  h.of_same (sameSessions_handOut m serviceName c) (h.numbered.handOut serviceName c) rfl

theorem Orderly.update {d : SessionData} (h : m.Orderly) (hr : r < m.created)
    (hid : d.sessionID = (m.data r).sessionID) (hname : d.serviceName = m.nameOf r) :
    Orderly { m with data := Function.update m.data r d } :=
  h.of_same (sameSessions_update hr hid hname) (h.numbered.update hid) rfl

theorem Orderly.setNodes (h : m.Orderly) (nodes : Bytes → Bool) :
    Orderly { m with nodesM := nodes } :=
  ⟨⟨h.listed.own, h.listed.made, h.listed.unmade, h.listed.one⟩,
    ⟨h.numbered.current, h.numbered.id⟩, h.filed⟩

theorem Orderly.enter (h : m.Orderly) (hr : r < m.created) (he : m.Enters r serviceName m')
    (hcurrent : m'.currentSessionID = m.currentSessionID) (hfree : m.FreeFor r) : m'.Orderly := by
  rw [freeFor_iff h.listed h.numbered, ← h.numbered.id r hr] at hfree
  exact ⟨h.listed.enter hr he, h.numbered.of_same_ids he.created hcurrent he.id,
    h.filed.enter h.listed he hfree⟩

theorem Orderly.removeSession (h : m.Orderly) (serviceName : Bytes) :
    (m.removeSession serviceName).2.Orderly :=
  ⟨h.listed.removeSession serviceName, h.numbered.removeSession serviceName,
    h.filed.removeSession serviceName⟩

/-! ### What stays awaited -/

theorem Awaited.of_same (h : m.Listed) (hs : m.SameSessions m')
    (hthis : m'.thisMachine = m.thisMachine)
    (hconn : ∀ q ∈ m.attempts n, (m'.data q).connection = .connecting) (ha : m.Awaited n) :
    m'.Awaited n := by
  refine ha.mono hthis (fun hp => .inl ?_) fun q hq => ?_
  · obtain ⟨id, hid⟩ := present_iff_peerOf.mp hp
    exact present_iff_peerOf.mpr ⟨id, (hs.peerOf h id).trans hid⟩
  · obtain ⟨hlt, -, hname⟩ := mem_attempts_iff.mp hq
    refine awaited_of_attempt (mem_attempts_iff.mpr ⟨hlt.trans_le hs.created, hconn q hq, ?_⟩)
    rw [hs.name q hlt, hname]

theorem Awaited.handOut (h : m.Listed) (ha : m.Awaited n) (serviceName : Bytes) (c : Connection) :
    (m.handOut serviceName c).Awaited n := by
  refine ha.of_same h (sameSessions_handOut m serviceName c) rfl fun q hq => ?_
  obtain ⟨hlt, hc, -⟩ := mem_attempts_iff.mp hq
  simp [BVTCPConnectionManager.handOut, Function.update_of_ne hlt.ne, hc]

/-- An update of a session that keeps its id and name; a session that stops connecting may only be
given up if the name is awaited without it. -/
theorem Awaited.update {d : SessionData} (h : m.Listed) (hr : r < m.created)
    (hid : d.sessionID = (m.data r).sessionID) (hname : d.serviceName = m.nameOf r)
    (ha : m.Awaited n)
    (hgiven : d.connection ≠ .connecting → r ∈ m.attempts n →
      m.isSessionAlreadyPresent n = true ∨ ∃ q ∈ m.attempts n, q ≠ r) :
    Awaited { m with data := Function.update m.data r d } n := by
  have hs := sameSessions_update hr hid hname
  -- the attempts other than `r` stay
  have hother : ∀ q ∈ m.attempts n, q ≠ r →
      Awaited { m with data := Function.update m.data r d } n := by
    intro q hq hne
    obtain ⟨hlt, hc, hq'⟩ := mem_attempts_iff.mp hq
    refine awaited_of_attempt (r := q) (mem_attempts_iff.mpr ⟨hlt, ?_, ?_⟩)
    · simp [Function.update_of_ne hne, hc]
    · rw [hs.name q hlt, hq']
  have hpresent : m.isSessionAlreadyPresent n = true →
      Awaited { m with data := Function.update m.data r d } n := by
    intro hp
    obtain ⟨id, hid'⟩ := present_iff_peerOf.mp hp
    exact .inl (present_iff_peerOf.mpr ⟨id, (hs.peerOf h id).trans hid'⟩)
  refine Awaited.mono (m := m) rfl hpresent (fun q hq => ?_) ha
  rcases eq_or_ne q r with rfl | hne
  · by_cases hconn : d.connection = .connecting
    · obtain ⟨hlt, -, hq'⟩ := mem_attempts_iff.mp hq
      refine awaited_of_attempt (r := q) (mem_attempts_iff.mpr ⟨hlt, ?_, ?_⟩)
      · simp [hconn]
      · rw [hs.name q hlt, hq']
    · obtain hp | ⟨q', hq', hne⟩ := hgiven hconn hq
      · exact hpresent hp
      · exact hother q' hq' hne
  · exact hother q hq hne

theorem Awaited.enter (h : m.Orderly) (hr : r < m.created) (he : m.Enters r serviceName m')
    (hthis : m'.thisMachine = m.thisMachine) (hfree : m.FreeFor r)
    (hname : r ∈ m.attempts n → n = serviceName) (ha : m.Awaited n) : m'.Awaited n := by
  have hself : m'.Awaited serviceName :=
    .inl (present_iff_peerOf.mpr ⟨_, he.peerOf_self⟩)
  refine ha.mono hthis (fun hp => .inl ?_) fun q hq => ?_
  · obtain ⟨id, hid⟩ := present_iff_peerOf.mp hp
    rw [freeFor_iff h.listed h.numbered, ← h.numbered.id r hr] at hfree
    have hne : id ≠ (m.data r).sessionID := by
      rintro rfl
      rw [peerOf, AList.lookup_eq_none.mpr hfree] at hid
      cases hid
    exact present_iff_peerOf.mpr ⟨id, (he.peerOf_of_ne h.listed hne).trans hid⟩
  · rcases eq_or_ne q r with rfl | hne
    · exact hname hq ▸ hself
    · obtain ⟨hlt, hc, hq'⟩ := mem_attempts_iff.mp hq
      refine awaited_of_attempt (r := q) (mem_attempts_iff.mpr ⟨he.created ▸ hlt, ?_, ?_⟩)
      · rw [he.other q hne, hc]
      · rw [nameOf, he.other q hne]
        exact hq'

theorem removeSession_thisMachine :
    (m.removeSession serviceName).2.thisMachine = m.thisMachine := by
  obtain ⟨-, hsame⟩ | ⟨id, -, hsome⟩ := removeSession_cases serviceName m
  · rw [hsame]
  · rw [hsome]

theorem removeSession_nodesM : (m.removeSession serviceName).2.nodesM = m.nodesM := by
  obtain ⟨-, hsame⟩ | ⟨id, -, hsome⟩ := removeSession_cases serviceName m
  · rw [hsame]
  · rw [hsome]

theorem attempts_removeSession :
    (m.removeSession serviceName).2.attempts n = m.attempts n := by
  simp [attempts]

/-- A removal takes away no session but that of its name. -/
theorem Awaited.removeSession (h : m.Orderly) (hne : n ≠ serviceName) (ha : m.Awaited n) :
    (m.removeSession serviceName).2.Awaited n := by
  refine ha.mono removeSession_thisMachine (fun hp => .inl ?_) fun q hq => ?_
  · obtain ⟨id, hid⟩ := present_iff_peerOf.mp hp
    refine present_iff_peerOf.mpr ⟨id, ?_⟩
    rw [h.filed.peerOf_removeSession hid, if_neg hne]
  · exact awaited_of_attempt (attempts_removeSession ▸ hq)

end BVTCPConnectionManager

/-! ### Events -/

inductive HostEvent
  | mail (e : MailEvent)
  | connectHandler (r : SessionRef) (error : Bool)
  | acceptHandler (r : SessionRef)
  | handleSessionIdentification (serviceName : Bytes) (r : SessionRef)
  | confirmEstablished (r : SessionRef)
  | removeSession (serviceName : Bytes)

namespace Client

/-- The manager after an event of the io thread; a handler runs only for a socket in its state. -/
def ioEvent (m : BVTCPConnectionManager) : HostEvent → BVTCPConnectionManager
  | .connectHandler r error =>
    if (m.data r).connection = .connecting then m.connectHandler error r else m
  | .acceptHandler r => if (m.data r).connection = .accepting then m.acceptHandler r else m
  | .handleSessionIdentification serviceName r =>
    if m.Unprepared r then m.handleSessionIdentification serviceName r else m
  | .confirmEstablished r => if m.Unprepared r then m.setState .established r else m
  | .removeSession serviceName => (m.removeSession serviceName).2
  | .mail _ => m

def hostStep (c : Client) : HostEvent → Client
  | .mail e => c.step e
  | e => { c with manager := ioEvent c.manager e }

/-- No known node loses its last connect attempt to an error, no session comes in under the id of a
listed one or under a second name of its own, and only unknown nodes have their sessions removed
apart from a deregistration. -/
def Kept (c : Client) : HostEvent → Prop
  | .connectHandler r error => (c.manager.data r).connection = .connecting →
    if error then
      c.manager.nodesM (c.manager.nameOf r) = true →
        c.manager.isSessionAlreadyPresent (c.manager.nameOf r) = true ∨
          ∃ q ∈ c.manager.attempts (c.manager.nameOf r), q ≠ r
    else
      c.manager.isSessionAlreadyPresent (c.manager.nameOf r) = false → c.manager.FreeFor r
  | .handleSessionIdentification serviceName r => c.manager.Unprepared r →
    c.manager.isSessionAlreadyPresent serviceName = false → c.manager.FreeFor r
  | .removeSession serviceName => c.manager.nodesM serviceName = true →
    c.manager.attempts serviceName ≠ [] ∨ ¬ c.manager.thisMachine < serviceName
  | _ => True

instance (c : Client) : DecidablePred c.Kept
  | .mail _ => .isTrue trivial
  | .connectHandler r error => inferInstanceAs (Decidable
      ((c.manager.data r).connection = .connecting →
        if error then
          c.manager.nodesM (c.manager.nameOf r) = true →
            c.manager.isSessionAlreadyPresent (c.manager.nameOf r) = true ∨
              ∃ q ∈ c.manager.attempts (c.manager.nameOf r), q ≠ r
        else
          c.manager.isSessionAlreadyPresent (c.manager.nameOf r) = false → c.manager.FreeFor r))
  | .acceptHandler _ => .isTrue trivial
  | .handleSessionIdentification serviceName r => inferInstanceAs (Decidable
      (c.manager.Unprepared r → c.manager.isSessionAlreadyPresent serviceName = false →
        c.manager.FreeFor r))
  | .confirmEstablished _ => .isTrue trivial
  | .removeSession serviceName => inferInstanceAs (Decidable
      (c.manager.nodesM serviceName = true →
        c.manager.attempts serviceName ≠ [] ∨ ¬ c.manager.thisMachine < serviceName))

structure Attended (m : BVTCPConnectionManager) : Prop where
  orderly : m.Orderly
  none : m.NoneAbandoned

variable {m : BVTCPConnectionManager} {c : Client}

theorem attended_start (hostname rootdir : Bytes) (files : Files) :
    Attended (start hostname rootdir files).manager where
  orderly := (BVTCPConnectionManager.orderly_construct hostname).handOut _ _
  none := by
    intro n hn
    cases hn

/-! ### The io thread -/

theorem Attended.drop (h : Attended m) {r : SessionRef}
    (hc : (m.data r).connection = .connecting)
    (hgiven : m.nodesM (m.nameOf r) = true → m.isSessionAlreadyPresent (m.nameOf r) = true ∨
      ∃ q ∈ m.attempts (m.nameOf r), q ≠ r) : Attended (m.drop r) := by
  have hr := h.orderly.listed.lt_created hc (by decide)
  refine ⟨h.orderly.update hr rfl rfl, fun n hn => ?_⟩
  refine (h.none n hn).update h.orderly.listed hr rfl rfl fun _ hmem => ?_
  obtain rfl := (BVTCPConnectionManager.mem_attempts_iff.mp hmem).2.2
  exact hgiven hn

theorem Attended.enterConnected (h : Attended m) {r : SessionRef}
    (hc : (m.data r).connection = .connecting)
    (hpresent : m.isSessionAlreadyPresent (m.nameOf r) = false) (hfree : m.FreeFor r) :
    Attended (m.enterConnected r) := by
  have hr := h.orderly.listed.lt_created hc (by decide)
  have he := BVTCPConnectionManager.enters_connected r
    (BVTCPConnectionManager.not_present_iff.mp hpresent)
  refine ⟨h.orderly.enter hr he rfl hfree, fun n hn => ?_⟩
  refine (h.none n hn).enter h.orderly hr he rfl hfree fun hmem => ?_
  exact (BVTCPConnectionManager.mem_attempts_iff.mp hmem).2.2.symm

theorem Attended.connectHandler (h : Attended m) {r : SessionRef} {error : Bool}
    (hc : (m.data r).connection = .connecting)
    (hok : if error then
        m.nodesM (m.nameOf r) = true → m.isSessionAlreadyPresent (m.nameOf r) = true ∨
          ∃ q ∈ m.attempts (m.nameOf r), q ≠ r
      else m.isSessionAlreadyPresent (m.nameOf r) = false → m.FreeFor r) :
    Attended (m.connectHandler error r) := by
  rw [BVTCPConnectionManager.connectHandler]
  cases error with
  | true => exact h.drop hc hok
  | false =>
    cases hpresent : m.isSessionAlreadyPresent (m.nameOf r) with
    | true => exact h.drop hc fun _ => .inl hpresent
    | false => exact h.enterConnected hc hpresent (hok hpresent)

theorem Attended.update (h : Attended m) {r : SessionRef} {d : SessionData} {k : Connection}
    (hk : (m.data r).connection = k) (hne : k ≠ .dropped) (hne' : k ≠ .connecting)
    (hid : d.sessionID = (m.data r).sessionID) (hname : d.serviceName = m.nameOf r) :
    Attended { m with data := Function.update m.data r d } := by
  have hr := h.orderly.listed.lt_created hk hne
  refine ⟨h.orderly.update hr hid hname, fun n hn => ?_⟩
  refine (h.none n hn).update h.orderly.listed hr hid hname fun _ hmem => ?_
  have hconn := (BVTCPConnectionManager.mem_attempts_iff.mp hmem).2.1
  exact absurd (hk.symm.trans hconn) hne'

theorem Attended.handOut (h : Attended m) (serviceName : Bytes) (k : Connection) :
    Attended (m.handOut serviceName k) :=
  ⟨h.orderly.handOut serviceName k, fun n hn =>
    (h.none n hn).handOut h.orderly.listed serviceName k⟩

theorem Attended.acceptHandler (h : Attended m) {r : SessionRef}
    (hc : (m.data r).connection = .accepting) : Attended (m.acceptHandler r) := by
  have hlive := h.update (d := { m.data r with state := .unprepared, connection := .live }) hc
    (by decide) (by decide) rfl rfl
  exact hlive.handOut _ _

theorem Attended.setState (h : Attended m) {r : SessionRef} (hu : m.Unprepared r)
    (s : BVSessionState) : Attended (m.setState s r) :=
  h.update hu.1 (by decide) (by decide) rfl rfl

theorem Attended.enterIdentified (h : Attended m) {r : SessionRef} {serviceName : Bytes}
    (hc : (m.data r).connection = .live)
    (hpresent : m.isSessionAlreadyPresent serviceName = false) (hfree : m.FreeFor r) :
    Attended (m.enterIdentified serviceName r) := by
  have hr := h.orderly.listed.lt_created hc (by decide)
  have he := BVTCPConnectionManager.enters_identified r
    (BVTCPConnectionManager.not_present_iff.mp hpresent)
  refine ⟨h.orderly.enter hr he rfl hfree, fun n hn => ?_⟩
  rcases eq_or_ne n serviceName with rfl | hne
  · exact .inl (BVTCPConnectionManager.present_iff_peerOf.mpr ⟨_, he.peerOf_self⟩)
  · have hn' : m.nodesM n = true := by
      simpa [BVTCPConnectionManager.enterIdentified, Function.update_of_ne hne] using hn
    refine (h.none n hn').enter h.orderly hr he rfl hfree fun hmem => ?_
    have hconn := (BVTCPConnectionManager.mem_attempts_iff.mp hmem).2.1
    exact absurd (hc.symm.trans hconn) (by decide)

theorem Attended.handleSessionIdentification (h : Attended m) {r : SessionRef}
    {serviceName : Bytes} (hu : m.Unprepared r)
    (hok : m.isSessionAlreadyPresent serviceName = false → m.FreeFor r) :
    Attended (m.handleSessionIdentification serviceName r) := by
  rw [BVTCPConnectionManager.handleSessionIdentification]
  cases hpresent : m.isSessionAlreadyPresent serviceName with
  | true => exact h.setState hu .closed
  | false =>
    have hr := h.orderly.listed.lt_created hu.1 (by decide)
    have hs := BVTCPConnectionManager.sameSessions_setState hr .established
    have hlive : ((m.setState .established r).data r).connection = .live := by
      simp [BVTCPConnectionManager.setState, hu.1]
    have habsent : (m.setState .established r).isSessionAlreadyPresent serviceName = false := by
      rw [BVTCPConnectionManager.not_present_iff]
      intro i q hlist
      rw [hs.name q (h.orderly.listed.made i q hlist)]
      exact BVTCPConnectionManager.not_present_iff.mp hpresent i q hlist
    exact (h.setState hu .established).enterIdentified hlive habsent (hok hpresent)

theorem Attended.removeSession (h : Attended m) {serviceName : Bytes}
    (hok : m.nodesM serviceName = true →
      m.attempts serviceName ≠ [] ∨ ¬ m.thisMachine < serviceName) :
    Attended (m.removeSession serviceName).2 := by
  refine ⟨h.orderly.removeSession serviceName, fun n hn => ?_⟩
  rw [BVTCPConnectionManager.removeSession_nodesM] at hn
  rcases eq_or_ne n serviceName with rfl | hne
  · right
    rw [BVTCPConnectionManager.attempts_removeSession,
      BVTCPConnectionManager.removeSession_thisMachine]
    exact hok hn
  · exact (h.none n hn).removeSession h.orderly hne

/-! ### The mailbox thread -/

theorem Attended.deregister (h : Attended c.manager) (s : BVServiceBrowseInstance) :
    Attended (c.deregister s).manager := by
  rw [Client.deregister]
  split
  · have herased : Attended (eraseNode s.serviceName c.manager) := by
      refine ⟨h.orderly.setNodes _, fun n hn => ?_⟩
      rcases eq_or_ne n s.serviceName with rfl | hne
      · simp [eraseNode] at hn
      · exact h.none n (by simpa [eraseNode, Function.update_of_ne hne] using hn)
    refine herased.removeSession fun hn => ?_
    simp [eraseNode] at hn
  · exact h

theorem Attended.foldl_deregister (services : List BVServiceBrowseInstance)
    (h : Attended c.manager) : Attended (services.foldl Client.deregister c).manager := by
  induction services generalizing c with
  | nil => exact h
  | cons s services ih => exact ih (h.deregister s)

/-- A node that becomes known is dialled, unless it has a session or has to dial itself. -/
theorem Attended.initiate (h : Attended m) (serviceName : Bytes) :
    Attended ((addNode serviceName m).initiateSessionWithNode serviceName) := by
  have horderly : (addNode serviceName m).Orderly := h.orderly.setNodes _
  have hother : ∀ n, (addNode serviceName m).nodesM n = true → n ≠ serviceName →
      (addNode serviceName m).Awaited n := by
    intro n hn hne
    exact h.none n (by simpa [addNode, Function.update_of_ne hne] using hn)
  rw [BVTCPConnectionManager.initiateSessionWithNode]
  split
  · refine ⟨horderly.handOut _ _, fun n hn => ?_⟩
    rcases eq_or_ne n serviceName with rfl | hne
    · refine BVTCPConnectionManager.awaited_of_attempt (r := m.created)
        (BVTCPConnectionManager.mem_attempts_iff.mpr ⟨Nat.lt_succ_self _, ?_, ?_⟩)
      · simp [BVTCPConnectionManager.dial, BVTCPConnectionManager.handOut, addNode]
      · simp [BVTCPConnectionManager.dial, BVTCPConnectionManager.handOut, addNode,
          BVTCPConnectionManager.nameOf]
    · exact (hother n hn hne).handOut horderly.listed _ _
  · next hdial =>
    refine ⟨horderly, fun n hn => ?_⟩
    rcases eq_or_ne n serviceName with rfl | hne
    · rw [BVTCPConnectionManager.mayDial, Bool.and_eq_true, Bool.not_eq_true',
        decide_eq_true_eq] at hdial
      by_cases hlt : (addNode n m).thisMachine < n
      · left
        rw [← Bool.not_eq_false]
        exact fun hp => hdial ⟨hlt, hp⟩
      · exact .inr (.inr hlt)
    · exact hother n hn hne

theorem Attended.handle (h : Attended c.manager) (e : MailEvent) : Attended (c.step e).manager := by
  rw [step]
  cases e with
  | publishedService services =>
    exact (foldl_publish_manager services c).symm ▸ h
  | serviceResolved serviceName attempts =>
    show Attended (c.handleResolvedServices serviceName attempts).2.manager
    rw [handleResolvedServices]
    split
    · exact h
    · split
      · exact h
      · exact h.initiate serviceName
  | deregisteredService services => exact h.foldl_deregister services
  | fromSession e lost flt =>
    rw [Client.handle]
    split
    · exact h
    · exact h
  | terminateAll => exact h

/-! ### Runs -/

theorem hostStep_attended (h : Attended c.manager) {e : HostEvent} (hok : Kept c e) :
    Attended (c.hostStep e).manager := by
  cases e with
  | mail e => exact h.handle e
  | connectHandler r error =>
    show Attended (ioEvent c.manager (.connectHandler r error))
    rw [ioEvent]
    split
    · next hc => exact h.connectHandler hc (hok hc)
    · exact h
  | acceptHandler r =>
    show Attended (ioEvent c.manager (.acceptHandler r))
    rw [ioEvent]
    split
    · next hc => exact h.acceptHandler hc
    · exact h
  | handleSessionIdentification serviceName r =>
    show Attended (ioEvent c.manager (.handleSessionIdentification serviceName r))
    rw [ioEvent]
    split
    · next hu => exact h.handleSessionIdentification hu (hok hu)
    · exact h
  | confirmEstablished r =>
    show Attended (ioEvent c.manager (.confirmEstablished r))
    rw [ioEvent]
    split
    · next hu => exact h.setState hu .established
    · exact h
  | removeSession serviceName => exact h.removeSession hok

/-- **Known nodes.**  In every run that keeps the contract, each service name in `nodesM` has a
session in `sessions_m` or a connect attempt in progress, or the name of this host is not smaller,
so that the peer has to dial. -/
theorem none_abandoned (hostname rootdir : Bytes) (files : Files) (es : List HostEvent)
    (hok : Runs.Meets hostStep Kept (start hostname rootdir files) es) :
    (Runs.run hostStep (start hostname rootdir files) es).manager.NoneAbandoned :=
  (Runs.run_invariant (I := fun c : Client => Attended c.manager)
    (fun _ _ h hok => hostStep_attended h hok) (attended_start hostname rootdir files) hok).none

/-- `a` learns of `b` and dials it; `c` connects and gives its name; `b` goes away. -/
theorem none_abandoned_two_peers : (Runs.run hostStep (start [97] [47] fun _ => none)
    [.mail (.publishedService [⟨[98], [], []⟩]), .mail (.serviceResolved [98] fun _ => true),
      .connectHandler 1 false, .acceptHandler 0, .handleSessionIdentification [99] 0,
      .mail (.deregisteredService [⟨[98], [], []⟩])]).manager.NoneAbandoned :=
  none_abandoned [97] [47] (fun _ => none) _ (by decide)

/-- `a` learns of `b` and its connect attempt fails.  Then `b` is known and stays without a session
and without an attempt, even when it is resolved again, although it is `a` that has to dial. -/
theorem failed_connect_abandons :
    let c := Runs.run hostStep (start [97] [47] fun _ => none)
      [.mail (.publishedService [⟨[98], [], []⟩]), .mail (.serviceResolved [98] fun _ => true),
        .connectHandler 1 true, .mail (.serviceResolved [98] fun _ => true)]
    c.manager.nodesM [98] = true ∧ ¬ c.manager.Awaited [98] ∧ ¬ c.manager.NoneAbandoned := by
  intro c
  have hknown : c.manager.nodesM [98] = true := by decide
  have hnot : ¬ c.manager.Awaited [98] := by decide
  exact ⟨hknown, hnot, fun h => hnot (h [98] hknown)⟩

end Client

end LocalChat
