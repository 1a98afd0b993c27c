import LocalChat.Manager.Sessions

/-!
# Addressing a peer by its name

A name leads to a session in two steps: `service_sessionid_m` gives the id, `sessions_m` the
session.  `Filed` says that the two maps are inverse to each other.  Two things break this.

* A listed session that still waits for its handshake can be given a second name by a HELLOBACK
  frame; its first name then leads to it too.
* The id counter has 16 bits.  The number of ids that were handed out is `created`, so an id comes
  again after 65536 sockets; if its old session is still listed, the new one takes its place.

And between the lookup of an id and its use the mailbox thread can remove the session.

`addressing_along_iff`: these are the only ways in which a name leads to the wrong session, to none,
or in which an id is handed out that a listed session has.
-/

namespace LocalChat

namespace BVTCPConnectionManager

variable {m m' : BVTCPConnectionManager} {r : SessionRef} {serviceName : Bytes}

/-! ### Ids -/

theorem ofNat_eq_ofNat_iff {a b : Nat} :
    UInt16.ofNat a = UInt16.ofNat b ↔ a % 65536 = b % 65536 := by
  rw [UInt16.ofNat_eq_iff_mod_eq_toNat]
  simp

/-- The id of a session is the number of ids handed out before it, modulo 65536. -/
structure Numbered (m : BVTCPConnectionManager) : Prop where
  current : m.currentSessionID = UInt16.ofNat m.created
  id : ∀ r, r < m.created → (m.data r).sessionID = UInt16.ofNat r

theorem numbered_construct (thisMachine : Bytes) : (construct thisMachine).Numbered where
  current := rfl
  id := by
    intro r hr
    cases hr

theorem Numbered.handOut (h : m.Numbered) (serviceName : Bytes) (c : Connection) :
    (m.handOut serviceName c).Numbered where
  current := by
    show m.currentSessionID + 1 = UInt16.ofNat (m.created + 1)
    rw [h.current, UInt16.ofNat_add]
    rfl
  id := by
    intro r hr
    rcases Nat.lt_succ_iff_lt_or_eq.mp hr with hlt | rfl
    · rw [(sameSessions_handOut m serviceName c).id r hlt]
      exact h.id r hlt
    · simp [BVTCPConnectionManager.handOut, h.current]

theorem Numbered.of_same_ids (h : m.Numbered) (hcreated : m'.created = m.created)
    (hcurrent : m'.currentSessionID = m.currentSessionID)
    (hid : ∀ r, (m'.data r).sessionID = (m.data r).sessionID) : m'.Numbered where
  current := by rw [hcurrent, hcreated, h.current]
  id := by
    intro r hr
    rw [hid]
    exact h.id r (hcreated ▸ hr)

theorem Numbered.update (h : m.Numbered) {r : SessionRef} {d : SessionData}
    (hid : d.sessionID = (m.data r).sessionID) :
    Numbered { m with data := Function.update m.data r d } := by
  refine h.of_same_ids rfl rfl fun q => ?_
  rcases eq_or_ne q r with rfl | hne
  · simp [hid]
  · simp [Function.update_of_ne hne]

theorem Numbered.acceptHandler (h : m.Numbered) (r : SessionRef) :
    (m.acceptHandler r).Numbered := by
  have hlive : Numbered { m with
      data := Function.update m.data r
        { m.data r with state := .unprepared, connection := .live } } := h.update rfl
  exact hlive.handOut _ _

theorem Numbered.removeSession (h : m.Numbered) (serviceName : Bytes) :
    (m.removeSession serviceName).2.Numbered := by
  obtain ⟨-, hsame⟩ | ⟨id, -, hsome⟩ := removeSession_cases serviceName m
  · rw [hsame]
    exact h
  · rw [hsome]
    exact ⟨h.current, h.id⟩

def FreeFor (m : BVTCPConnectionManager) (k : Nat) : Prop :=
  ∀ e ∈ m.sessions.entries, e.2 % 65536 ≠ k % 65536

instance (m : BVTCPConnectionManager) (k : Nat) : Decidable (m.FreeFor k) :=
  inferInstanceAs (Decidable (∀ e ∈ m.sessions.entries, e.2 % 65536 ≠ k % 65536))

theorem freeFor_iff (h : m.Listed) (hn : m.Numbered) (k : Nat) :
    m.FreeFor k ↔ UInt16.ofNat k ∉ m.sessions := by
  rw [← AList.lookup_eq_none]
  constructor
  · intro hfree
    by_contra hsome
    obtain ⟨q, hq⟩ := Option.ne_none_iff_exists'.mp hsome
    have hid := h.own _ _ hq
    rw [hn.id q (h.made _ _ hq), ofNat_eq_ofNat_iff] at hid
    exact hfree ⟨_, q⟩ (mem_entries_iff.mpr hq) hid
  · rintro hnone ⟨i, q⟩ hmem heq
    have hq := mem_entries_iff.mp hmem
    have hi : UInt16.ofNat k = i := by
      rw [← h.own i q hq, hn.id q (h.made i q hq)]
      exact ofNat_eq_ofNat_iff.mpr heq.symm
    rw [hi, hq] at hnone
    cases hnone

theorem nextId_of_freeFor (h : m.Listed) (hn : m.Numbered) (hfree : m.FreeFor m.created) :
    m.nextId = .handedOut m.currentSessionID false := by
  rw [freeFor_iff h hn, ← hn.current] at hfree
  rw [nextId, decide_eq_false hfree]

theorem freeFor_of_nextId (h : m.Listed) (hn : m.Numbered) {id : UInt16}
    (heq : m.nextId = .handedOut id false) : m.FreeFor m.created := by
  rw [freeFor_iff h hn, ← hn.current]
  rw [nextId, ManagerEvent.handedOut.injEq] at heq
  exact of_decide_eq_false heq.2

/-! ### The two maps -/

/-- The two maps lead from a name to the session with this name, and from every session back. -/
def Filed (m : BVTCPConnectionManager) : Prop :=
  ∀ serviceName id, m.serviceSessionid serviceName = some id ↔ m.peerOf id = some serviceName

theorem peerOf_eq_some_iff {id : UInt16} :
    m.peerOf id = some serviceName ↔
      ∃ r, m.sessions.lookup id = some r ∧ m.nameOf r = serviceName :=
  Option.map_eq_some_iff

theorem present_iff_peerOf :
    m.isSessionAlreadyPresent serviceName = true ↔ ∃ id, m.peerOf id = some serviceName := by
  simp only [isSessionAlreadyPresent_iff, peerOf_eq_some_iff]

theorem SameSessions.peerOf (hs : m.SameSessions m') (h : m.Listed) (id : UInt16) :
    m'.peerOf id = m.peerOf id := by
  rw [BVTCPConnectionManager.peerOf, BVTCPConnectionManager.peerOf, hs.sessions]
  cases hlist : m.sessions.lookup id with
  | none => rfl
  | some r =>
    rw [Option.map_some, Option.map_some]
    rw [hs.name r (h.made id r hlist)]

theorem filed_construct (thisMachine : Bytes) : (construct thisMachine).Filed := by
  intro serviceName id
  constructor
  · intro h
    cases h
  · intro h
    cases h

theorem Filed.of_same (hf : m.Filed) (h : m.Listed) (hs : m.SameSessions m')
    (hservice : m'.serviceSessionid = m.serviceSessionid) : m'.Filed := by
  intro serviceName id
  rw [hservice, hs.peerOf h]
  exact hf serviceName id

theorem Enters.peerOf_self (he : m.Enters r serviceName m') :
    m'.peerOf (m.data r).sessionID = some serviceName := by
  rw [BVTCPConnectionManager.peerOf, he.sessions, AList.lookup_insert, Option.map_some, he.name]

theorem Enters.peerOf_of_ne (he : m.Enters r serviceName m') (h : m.Listed) {id : UInt16}
    (hne : id ≠ (m.data r).sessionID) : m'.peerOf id = m.peerOf id := by
  rw [BVTCPConnectionManager.peerOf, BVTCPConnectionManager.peerOf, he.sessions,
    AList.lookup_insert_ne hne]
  cases hlist : m.sessions.lookup id with
  | none => rfl
  | some q =>
    have hq : q ≠ r := by
      rintro rfl
      exact hne (h.own id q hlist).symm
    rw [Option.map_some, Option.map_some, nameOf, nameOf, he.other q hq]

/-- An insertion keeps the maps inverse to each other if its id is free. -/
theorem Filed.enter (hf : m.Filed) (h : m.Listed) (he : m.Enters r serviceName m')
    (hfree : (m.data r).sessionID ∉ m.sessions) : m'.Filed := by
  intro n id
  rw [he.service]
  rcases eq_or_ne id (m.data r).sessionID with rfl | hid
  · rw [he.peerOf_self, Option.some.injEq]
    rcases eq_or_ne n serviceName with rfl | hn
    · simp
    · rw [Function.update_of_ne hn, hf, BVTCPConnectionManager.peerOf,
        AList.lookup_eq_none.mpr hfree]
      simp [hn.symm]
  · rw [he.peerOf_of_ne h hid]
    rcases eq_or_ne n serviceName with rfl | hn
    · rw [Function.update_self, Option.some.injEq]
      constructor
      · intro heq
        exact absurd heq.symm hid
      · intro hpeer
        obtain ⟨q, hlist, hname⟩ := peerOf_eq_some_iff.mp hpeer
        exact absurd hname (he.absent id q hlist)
    · rw [Function.update_of_ne hn, hf]

/-- An insertion under the id of a listed session leaves that session's name behind. -/
theorem Filed.not_filed_of_enter (hf : m.Filed) (he : m.Enters r serviceName m') {q : SessionRef}
    (hlist : m.sessions.lookup (m.data r).sessionID = some q) :
    ∃ n id, m'.serviceSessionid n = some id ∧ m'.peerOf id ≠ some n := by
  have hne := he.absent _ q hlist
  refine ⟨m.nameOf q, (m.data r).sessionID, ?_, ?_⟩
  · rw [he.service, Function.update_of_ne hne]
    exact (hf _ _).mpr (peerOf_eq_some_iff.mpr ⟨q, hlist, rfl⟩)
  · rw [he.peerOf_self, ne_eq, Option.some.injEq]
    exact hne.symm

theorem Filed.peerOf_removeSession (hf : m.Filed) {id : UInt16} {n : Bytes}
    (hpeer : m.peerOf id = some n) (serviceName : Bytes) :
    (m.removeSession serviceName).2.peerOf id = if n = serviceName then none else some n := by
  obtain ⟨hnone, hsame⟩ | ⟨i, hi, hsome⟩ := removeSession_cases serviceName m
  · rw [hsame, if_neg]
    · exact hpeer
    · rintro rfl
      rw [(hf n id).mpr hpeer] at hnone
      cases hnone
  · rw [hsome]
    have hpeer' := (hf serviceName i).mp hi
    rcases eq_or_ne id i with rfl | hne
    · rw [hpeer, Option.some.injEq] at hpeer'
      simp [BVTCPConnectionManager.peerOf, hpeer']
    · have hn : n ≠ serviceName := by
        rintro rfl
        rw [(hf n id).mpr hpeer, Option.some.injEq] at hi
        exact hne hi
      rw [if_neg hn, ← hpeer]
      simp only [BVTCPConnectionManager.peerOf, AList.lookup_erase_ne hne]
      rfl

theorem Filed.removeSession (hf : m.Filed) (serviceName : Bytes) :
    (m.removeSession serviceName).2.Filed := by
  intro n id
  constructor
  · intro hservice
    have hold : m.serviceSessionid n = some id ∧ n ≠ serviceName := by
      obtain ⟨hnone, hsame⟩ | ⟨i, hi, hsome⟩ := removeSession_cases serviceName m
      · rw [hsame] at hservice
        refine ⟨hservice, ?_⟩
        rintro rfl
        rw [hservice] at hnone
        cases hnone
      · rw [hsome] at hservice
        rcases eq_or_ne n serviceName with rfl | hn
        · simp at hservice
        · exact ⟨by simpa [Function.update_of_ne hn] using hservice, hn⟩
    rw [hf.peerOf_removeSession ((hf n id).mp hold.1), if_neg hold.2]
  · intro hpeer
    obtain ⟨q, hlist, hname⟩ := peerOf_eq_some_iff.mp hpeer
    have hold : m.peerOf id = some n := by
      rw [removeSession_nameOf] at hname
      exact peerOf_eq_some_iff.mpr ⟨q, lookup_removeSession hlist, hname⟩
    rw [hf.peerOf_removeSession hold] at hpeer
    split at hpeer
    · cases hpeer
    · next hn =>
      obtain ⟨-, hsame⟩ | ⟨i, -, hsome⟩ := removeSession_cases serviceName m
      · rw [hsame, hf, hold]
      · rw [hsome]
        simpa [Function.update_of_ne hn] using (hf n id).mpr hold

end BVTCPConnectionManager

/-! ### Runs -/

namespace Running

/-- Names lead to their sessions: those that are on file, the one the io thread has just looked up,
and those that were used.  And no id was handed out that a listed session had. -/
structure Addressing (x : Running) : Prop where
  mapped : ∀ n id, x.manager.serviceSessionid n = some id → x.manager.peerOf id = some n
  sending : ∀ n id, x.io = .sending n id → x.manager.peerOf id = some n
  used : ∀ n id peer, ManagerEvent.used n id peer ∈ x.log → peer = some n
  free : ∀ id listed, ManagerEvent.handedOut id listed ∈ x.log → listed = false

def incoming (x : Running) : Option SessionRef :=
  match x.io with
  | .connected r => some r
  | .identified _ r => some r
  | _ => none

/-- The id counter has not come round to a listed session, when an id is handed out and when a
session comes in; a session that comes in is not listed already; and no session is removed between
the lookup of its id and its use. -/
def Unambiguous (x : Running) : ManagerAction → Prop
  | .dial => x.dialling ≠ none → x.manager.FreeFor x.manager.created
  | .acceptHandler r => x.io = .idle → (x.manager.data r).connection = .accepting →
    x.manager.FreeFor x.manager.created
  | .insert => ∀ r ∈ x.incoming, x.manager.FreeFor r
  | .removeSession n =>
    match x.io with
    | .sending n' _ => n ≠ n'
    | _ => True
  | _ => True

structure Filing (x : Running) : Prop where
  numbered : x.manager.Numbered
  filed : x.manager.Filed
  addressing : x.Addressing

variable {x x' : Running}

theorem filing_start (thisMachine : Bytes) : (start thisMachine).Filing where
  numbered := (BVTCPConnectionManager.numbered_construct thisMachine).handOut _ _
  filed := (BVTCPConnectionManager.filed_construct thisMachine).of_same
    (BVTCPConnectionManager.listed_construct thisMachine)
    (BVTCPConnectionManager.sameSessions_handOut _ _ _) rfl
  addressing := by
    refine ⟨?_, ?_, ?_, ?_⟩
    · intro n id h
      cases h
    · intro n id h
      cases h
    · intro n id peer h
      cases h with
      | tail _ h => cases h
    · intro id listed h
      cases h with
      | head => rfl
      | tail _ h => cases h

theorem Filing.of_same (h : x.Filing) (hx : x.Sound)
    (hs : x.manager.SameSessions x'.manager) (hnumbered : x'.manager.Numbered)
    (hservice : x'.manager.serviceSessionid = x.manager.serviceSessionid)
    (hio : ∀ n id, x'.io = .sending n id → x.manager.peerOf id = some n)
    (hlog : ∀ e ∈ x'.log, e ∈ x.log ∨ ∃ id, e = .handedOut id false) : x'.Filing where
  numbered := hnumbered
  filed := h.filed.of_same hx.listed hs hservice
  addressing := by
    refine ⟨?_, ?_, ?_, ?_⟩
    · intro n id
      exact (h.filed.of_same hx.listed hs hservice n id).mp
    · intro n id hsend
      rw [hs.peerOf hx.listed]
      exact hio n id hsend
    · intro n id peer hmem
      rcases hlog _ hmem with hold | ⟨id', heq⟩
      · exact h.addressing.used n id peer hold
      · cases heq
    · intro id listed hmem
      rcases hlog _ hmem with hold | ⟨id', heq⟩
      · exact h.addressing.free id listed hold
      · cases heq
        rfl

/-- Steps of the idle io thread that change a session and keep its id and name. -/
theorem Filing.update {d : SessionData} {r : SessionRef} (h : x.Filing) (hx : x.Sound)
    (hidle : x.io = .idle) (hr : r < x.manager.created)
    (hid : d.sessionID = (x.manager.data r).sessionID)
    (hname : d.serviceName = x.manager.nameOf r) :
    Filing { x with manager := { x.manager with data := Function.update x.manager.data r d } } := by
  refine h.of_same hx (BVTCPConnectionManager.sameSessions_update hr hid hname)
    (h.numbered.update hid) rfl ?_ ?_
  · intro n id heq
    rw [show _ = IoThread.idle from hidle] at heq
    cases heq
  · exact fun e he => .inl he

theorem Filing.setIo (h : x.Filing) {io : IoThread} (hio : ∀ n id, io ≠ .sending n id) :
    Filing { x with io := io } where
  numbered := h.numbered
  filed := h.filed
  addressing :=
    { mapped := h.addressing.mapped
      sending := fun n id heq => absurd heq (hio n id)
      used := h.addressing.used
      free := h.addressing.free }

theorem Filing.takeUp {handler : Running → Running} (h : x.Filing)
    (hstep : x.io = .idle → (handler x).Filing) : (x.takeUp handler).Filing := by
  rw [Running.takeUp]
  split
  · next hio => exact hstep hio
  · exact h

theorem Filing.connectHandler (h : x.Filing) (hx : x.Sound) (hidle : x.io = .idle)
    (r : SessionRef) (error : Bool) : (x.connectHandler r error).Filing := by
  obtain heq | ⟨hc, heq | ⟨-, heq⟩⟩ := connectHandler_cases r error x
  · rw [heq]
    exact h
  · rw [heq]
    exact h.update hx hidle (hx.listed.lt_created hc (by decide)) rfl rfl
  · rw [heq]
    exact h.setIo fun n id => IoThread.noConfusion

theorem Filing.setState (h : x.Filing) (hx : x.Sound) (hidle : x.io = .idle) {r : SessionRef}
    (hu : x.manager.Unprepared r) (s : BVSessionState) :
    Filing { x with manager := x.manager.setState s r } :=
  h.update hx hidle (hx.listed.lt_created hu.1 (by decide)) rfl rfl

theorem Filing.handleSessionIdentification (h : x.Filing) (hx : x.Sound) (hidle : x.io = .idle)
    (serviceName : Bytes) (r : SessionRef) :
    (x.handleSessionIdentification serviceName r).Filing := by
  obtain heq | ⟨hu, heq | ⟨-, heq⟩⟩ := handleSessionIdentification_cases serviceName r x
  · rw [heq]
    exact h
  · rw [heq]
    exact h.setState hx hidle hu .closed
  · rw [heq]
    exact (h.setState hx hidle hu .established).setIo fun n id => IoThread.noConfusion

theorem Filing.confirmEstablished (h : x.Filing) (hx : x.Sound) (hidle : x.io = .idle)
    (r : SessionRef) : (x.confirmEstablished r).Filing := by
  obtain heq | ⟨hu, heq⟩ := confirmEstablished_cases r x
  · rw [heq]
    exact h
  · rw [heq]
    exact h.setState hx hidle hu .established

theorem Filing.getSessionIDFromServiceName (h : x.Filing) (serviceName : Bytes) :
    (x.getSessionIDFromServiceName serviceName).Filing := by
  rw [Running.getSessionIDFromServiceName]
  split
  · exact h
  · next id hid =>
    refine ⟨h.numbered, h.filed, h.addressing.mapped, ?_, h.addressing.used, h.addressing.free⟩
    intro n i heq
    cases heq
    exact h.addressing.mapped _ _ hid

theorem Filing.send (h : x.Filing) : x.send.Filing := by
  rw [Running.send]
  split
  · next n id hio =>
    refine ⟨h.numbered, h.filed, h.addressing.mapped, ?_, ?_, ?_⟩
    · intro n' id' heq
      cases heq
    · intro n' id' peer hmem
      rcases List.mem_append.mp hmem with hold | hnew
      · exact h.addressing.used n' id' peer hold
      · cases List.mem_singleton.mp hnew
        exact h.addressing.sending n id hio
    · intro id' listed hmem
      rcases List.mem_append.mp hmem with hold | hnew
      · exact h.addressing.free id' listed hold
      · cases List.mem_singleton.mp hnew
  · exact h

theorem Filing.initiateSessionWithNode (h : x.Filing) (serviceName : Bytes) :
    (x.initiateSessionWithNode serviceName).Filing := by
  rw [Running.initiateSessionWithNode]
  split
  · exact ⟨h.numbered, h.filed, h.addressing.mapped, h.addressing.sending, h.addressing.used,
      h.addressing.free⟩
  · exact h

/-! ### Ids that are handed out -/

theorem Filing.handOut (h : x.Filing) (hx : x.Sound)
    (hs : x.manager.SameSessions x'.manager) (hnumbered : x'.manager.Numbered)
    (hservice : x'.manager.serviceSessionid = x.manager.serviceSessionid) (hio : x'.io = x.io)
    (hlog : x'.log = x.log ++ [x.manager.nextId]) (hfree : x.manager.FreeFor x.manager.created) :
    x'.Filing := by
  refine h.of_same hx hs hnumbered hservice ?_ ?_
  · intro n id heq
    exact h.addressing.sending n id (hio ▸ heq)
  · intro e he
    rw [hlog] at he
    rcases List.mem_append.mp he with hold | hnew
    · exact .inl hold
    · rw [List.mem_singleton.mp hnew]
      exact .inr ⟨_, BVTCPConnectionManager.nextId_of_freeFor hx.listed h.numbered hfree⟩

theorem Filing.freeFor_of_addressing (h : x.Filing) (hx : x.Sound)
    (hlog : x'.log = x.log ++ [x.manager.nextId]) (h' : x'.Addressing) :
    x.manager.FreeFor x.manager.created := by
  have hmem : x.manager.nextId ∈ x'.log := by
    rw [hlog]
    exact List.mem_append_right _ List.mem_cons_self
  have hnext : x.manager.nextId = .handedOut x.manager.currentSessionID false := by
    rw [BVTCPConnectionManager.nextId] at hmem ⊢
    rw [h'.free _ _ hmem]
  exact BVTCPConnectionManager.freeFor_of_nextId hx.listed h.numbered hnext

theorem Filing.dial (h : x.Filing) (hx : x.Sound) (hok : Unambiguous x .dial) : x.dial.Filing := by
  rw [Unambiguous] at hok
  rw [Running.dial]
  split
  · exact h
  · next n hd =>
    refine h.handOut hx (BVTCPConnectionManager.sameSessions_handOut _ n .connecting)
      (h.numbered.handOut _ _) rfl rfl rfl (hok ?_)
    rw [hd]
    exact Option.some_ne_none n

theorem Filing.acceptHandler (h : x.Filing) (hx : x.Sound) (hidle : x.io = .idle) (r : SessionRef)
    (hok : Unambiguous x (.acceptHandler r)) : (x.acceptHandler r).Filing := by
  obtain heq | ⟨hc, heq⟩ := acceptHandler_cases r x
  · rw [heq]
    exact h
  · rw [heq]
    have hr := hx.listed.lt_created hc (by decide)
    exact h.handOut hx (BVTCPConnectionManager.sameSessions_acceptHandler hr)
      (h.numbered.acceptHandler r) rfl rfl rfl (hok hidle hc)

/-! ### Insertions and removals -/

theorem Filing.enter (h : x.Filing) (hx : x.Sound) {r : SessionRef} {n : Bytes}
    {m' : BVTCPConnectionManager} (he : x.manager.Enters r n m') (hr : r < x.manager.created)
    (hcurrent : m'.currentSessionID = x.manager.currentSessionID) (hfree : x.manager.FreeFor r) :
    Filing { x with manager := m', io := .idle } := by
  rw [BVTCPConnectionManager.freeFor_iff hx.listed h.numbered, ← h.numbered.id r hr] at hfree
  have hfiled := h.filed.enter hx.listed he hfree
  refine ⟨h.numbered.of_same_ids he.created hcurrent he.id, hfiled, ?_, ?_, h.addressing.used,
    h.addressing.free⟩
  · intro n' id
    exact (hfiled n' id).mp
  · intro n' id heq
    cases heq

theorem Filing.freeFor_of_enter (h : x.Filing) (hx : x.Sound) {r : SessionRef} {n : Bytes}
    {m' : BVTCPConnectionManager} (he : x.manager.Enters r n m') (hr : r < x.manager.created)
    (hm : x'.manager = m') (h' : x'.Addressing) : x.manager.FreeFor r := by
  rw [BVTCPConnectionManager.freeFor_iff hx.listed h.numbered, ← h.numbered.id r hr,
    ← AList.lookup_eq_none]
  by_contra hsome
  obtain ⟨q, hq⟩ := Option.ne_none_iff_exists'.mp hsome
  obtain ⟨n', id, hservice, hpeer⟩ := h.filed.not_filed_of_enter he hq
  rw [← hm] at hservice hpeer
  exact hpeer (h'.mapped n' id hservice)

theorem Filing.insert (h : x.Filing) (hx : x.Sound) (hok : Unambiguous x .insert) :
    x.insert.Filing := by
  have hpending := hx.pending
  rw [PendingAbsent] at hpending
  rw [Unambiguous, incoming] at hok
  rw [Running.insert]
  cases hat : x.io with
  | idle => exact h
  | sending _ _ => exact h
  | connected r =>
    rw [hat] at hpending hok
    exact h.enter hx (BVTCPConnectionManager.enters_connected r hpending.2) hpending.1 rfl
      (hok r rfl)
  | identified n r =>
    rw [hat] at hpending hok
    exact h.enter hx (BVTCPConnectionManager.enters_identified r hpending.2) hpending.1 rfl
      (hok r rfl)

theorem Filing.insert_unambiguous (h : x.Filing) (hx : x.Sound) (h' : x.insert.Addressing) :
    Unambiguous x .insert := by
  have hpending := hx.pending
  rw [PendingAbsent] at hpending
  rw [Running.insert] at h'
  rw [Unambiguous, incoming]
  cases hat : x.io with
  | idle =>
    intro r hr
    cases hr
  | sending _ _ =>
    intro r hr
    cases hr
  | connected r =>
    rw [hat] at hpending h'
    intro q hq
    cases hq
    exact h.freeFor_of_enter hx (BVTCPConnectionManager.enters_connected r hpending.2)
      hpending.1 rfl h'
  | identified n r =>
    rw [hat] at hpending h'
    intro q hq
    cases hq
    exact h.freeFor_of_enter hx (BVTCPConnectionManager.enters_identified r hpending.2)
      hpending.1 rfl h'

theorem Filing.removeSession (h : x.Filing) {n : Bytes} (hok : Unambiguous x (.removeSession n)) :
    Filing { x with manager := (x.manager.removeSession n).2 } := by
  have hfiled := h.filed.removeSession n
  refine ⟨h.numbered.removeSession n, hfiled, ?_, ?_, h.addressing.used, h.addressing.free⟩
  · intro n' id
    exact (hfiled n' id).mp
  · intro n' id hio
    replace hio : x.io = .sending n' id := hio
    have hne : n ≠ n' := by
      rw [Unambiguous, hio] at hok
      exact hok
    rw [h.filed.peerOf_removeSession (h.addressing.sending n' id hio), if_neg hne.symm]

/-- A removal between a lookup and the use of the id leaves the id without a session. -/
theorem Filing.removeSession_unambiguous (h : x.Filing) {n : Bytes}
    (h' : Addressing { x with manager := (x.manager.removeSession n).2 }) :
    Unambiguous x (.removeSession n) := by
  rw [Unambiguous]
  split
  · next n' id hio =>
    rintro rfl
    have hpeer := h'.sending n id hio
    rw [h.filed.peerOf_removeSession (h.addressing.sending n id hio), if_pos rfl] at hpeer
    cases hpeer
  · trivial

/-! ### The exact contract -/

theorem step_filing (h : x.Filing) (hx : x.Sound) {a : ManagerAction} (hok : Unambiguous x a) :
    (x.step a).Filing := by
  cases a with
  | initiateSessionWithNode serviceName => exact h.initiateSessionWithNode serviceName
  | dial => exact h.dial hx hok
  | connectHandler r error => exact h.takeUp fun hidle => h.connectHandler hx hidle r error
  | acceptHandler r => exact h.takeUp fun hidle => h.acceptHandler hx hidle r hok
  | handleSessionIdentification serviceName r =>
    exact h.takeUp fun hidle => h.handleSessionIdentification hx hidle serviceName r
  | insert => exact h.insert hx hok
  | confirmEstablished r => exact h.takeUp fun hidle => h.confirmEstablished hx hidle r
  | removeSession serviceName => exact h.removeSession hok
  | getSessionIDFromServiceName serviceName =>
    exact h.takeUp fun _ => h.getSessionIDFromServiceName serviceName
  | send => exact h.send

theorem unambiguous_of_addressing (h : x.Filing) (hx : x.Sound) {a : ManagerAction}
    (h' : (x.step a).Addressing) : Unambiguous x a := by
  cases a with
  | dial =>
    intro hd
    obtain ⟨n, hn⟩ := Option.ne_none_iff_exists'.mp hd
    refine h.freeFor_of_addressing hx ?_ h'
    rw [step, Running.dial, hn]
  | acceptHandler r =>
    intro hidle hc
    refine h.freeFor_of_addressing hx ?_ h'
    rw [step, Running.takeUp, if_pos hidle, Running.acceptHandler, if_neg (not_not.mpr hc)]
  | insert => exact h.insert_unambiguous hx h'
  | removeSession n => exact h.removeSession_unambiguous h'
  | initiateSessionWithNode _ => trivial
  | connectHandler _ _ => trivial
  | handleSessionIdentification _ _ => trivial
  | confirmEstablished _ => trivial
  | getSessionIDFromServiceName _ => trivial
  | send => trivial

/-- **Addressing.**  All along a run of the manager every name leads to the session registered under
it, and no id of a listed session is handed out again, exactly when every step of the run is
unambiguous. -/
theorem addressing_along_iff (thisMachine : Bytes) (as : List ManagerAction) :
    (∀ p, p <+: as → (Runs.run step (start thisMachine) p).Addressing) ↔
      Runs.Meets step Unambiguous (start thisMachine) as := by
  refine Runs.forall_prefix_iff_meets (I := fun x => x.Sound ∧ x.Filing) (P := Addressing)
    (fun x h => h.2.addressing) ?_ ?_ ⟨sound_start thisMachine, filing_start thisMachine⟩ as
  · intro x a h hok
    exact ⟨step_sound h.1 a, step_filing h.2 h.1 hok⟩
  · intro x a h
    exact ⟨unambiguous_of_addressing h.2 h.1, fun hok => (step_filing h.2 h.1 hok).addressing⟩

/-- The host `a` dials `b`, whose connection then calls itself `c`.  A message to `b` goes to the
session of `c`; and once `c` is removed, the id of `b` leads to no session. -/
theorem renamed_session_addressed :
    let x := Runs.run step (start [97])
      [.initiateSessionWithNode [98], .dial, .connectHandler 1 false, .insert,
        .handleSessionIdentification [99] 1, .insert,
        .getSessionIDFromServiceName [98], .send, .removeSession [99],
        .getSessionIDFromServiceName [98], .send]
    x.log = [.handedOut 0 false, .handedOut 1 false, .used [98] 1 (some [99]), .used [98] 1 none] ∧
      ¬ x.Addressing := by
  intro x
  have hlog : x.log =
      [.handedOut 0 false, .handedOut 1 false, .used [98] 1 (some [99]), .used [98] 1 none] := by
    decide
  refine ⟨hlog, fun h => ?_⟩
  have hused := h.used [98] 1 none (by rw [hlog]; simp)
  cases hused

end Running

end LocalChat
