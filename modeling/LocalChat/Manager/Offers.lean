import LocalChat.Manager.Sessions

/-!
# Offered files

`InitiateFileTransferWithSession` takes the next correlation key for a file, remembers the file and
the session id under it and sends the offer.  The peer's verdict comes back as a FILE_ACCEPT or
FILE_REJECT frame with the key.  The session that reads the frame calls `SignalFileTransfer` with
the key alone: who sent the frame is not passed on.

`on_its_word_along_iff`: a file is streamed to the peer it was offered to and on this peer's word,
and offers are settled by the peers they were made to, exactly when no verdict with a pending key
comes from another session.

The log and the session beside each key, `offeredOn`, are not kept by the program.
-/

namespace LocalChat

inductive OfferEvent
  /-- a FILE_OFFER frame was written -/
  | offered (session : SessionRef) (correlationKey : UInt32) (fpath : Bytes)
  /-- a FILE_ACCEPT or FILE_REJECT frame was read -/
  | received (session : SessionRef) (correlationKey : UInt32) (accept : Bool)
  /-- the frame read by `session` took out the offer that was made on `offeredOn` -/
  | settled (session : SessionRef) (correlationKey : UInt32) (offeredOn : Option SessionRef)
  /-- a `BVFileTransferContext` was made -/
  | created (session : SessionRef) (correlationKey : UInt32) (fpath : Bytes)
  /-- the call was left with an exception -/
  | threw
  deriving DecidableEq, Repr

/-- What the constructor of a `BVFileTransferContext` finds at its path. -/
inductive FileFound
  /-- `file_size` throws -/
  | gone
  /-- the file has a size but does not open: the context is made and starts no worker -/
  | unopened
  | opened
  deriving DecidableEq, Repr

structure FileTransfer where
  session : SessionRef
  fpath : Bytes
  launched : Bool
  deriving DecidableEq, Repr

structure FileDesk where
  manager : BVTCPConnectionManager
  /-- the static counter of `InitiateFileTransferWithSession` -/
  ftcid : UInt32
  pendingOutgoing : UInt32 → Option (UInt16 × Bytes)
  fileTransferContext : UInt32 → Option FileTransfer
  offeredOn : UInt32 → Option SessionRef
  log : List OfferEvent

inductive OfferAction
  | initiateFileTransferWithSession (sid : UInt16) (fpath : Bytes)
  /-- a session reads a verdict, with the file in the state `file` -/
  | verdict (session : SessionRef) (correlationKey : UInt32) (accept : Bool) (file : FileFound)
  | removeSession (serviceName : Bytes)
  deriving DecidableEq, Repr

namespace FileDesk

def start (m : BVTCPConnectionManager) : FileDesk where
  manager := m
  ftcid := 0
  pendingOutgoing := fun _ => none
  fileTransferContext := fun _ => none
  offeredOn := fun _ => none
  log := []

def emit (d : FileDesk) (e : OfferEvent) : FileDesk := { d with log := d.log ++ [e] }

/-- The offer is remembered before `sessions_m.at(sid)`, which throws if there is no session. -/
def initiateFileTransferWithSession (sid : UInt16) (fpath : Bytes) (d : FileDesk) : FileDesk :=
  let key := d.ftcid
  let remembered := { d with
    ftcid := d.ftcid + 1
    pendingOutgoing := Function.update d.pendingOutgoing key (some (sid, fpath))
    offeredOn := Function.update d.offeredOn key (d.manager.sessions.lookup sid) }
  match d.manager.sessions.lookup sid with
  | none => remembered.emit .threw
  | some r => remembered.emit (.offered r key fpath)

/-- The transfer context is made, and replaces one with the same key, whether its file opens or
not. -/
def signalFileTransfer (session : SessionRef) (correlationKey : UInt32) (accept : Bool)
    (file : FileFound) (d : FileDesk) : FileDesk :=
  match d.pendingOutgoing correlationKey with
  | none => d
  | some (sid, fpath) =>
    let taken := { d with
      pendingOutgoing := Function.update d.pendingOutgoing correlationKey none }.emit
        (.settled session correlationKey (d.offeredOn correlationKey))
    if ¬ accept then taken
    else
      match d.manager.sessions.lookup sid with
      | none => taken.emit .threw
      | some r =>
        if file = .gone then taken.emit .threw
        else
          { taken with
            fileTransferContext := Function.update d.fileTransferContext correlationKey
              (some ⟨r, fpath, file = FileFound.opened⟩) }.emit
                (.created r correlationKey fpath)

def step (d : FileDesk) : OfferAction → FileDesk
  | .initiateFileTransferWithSession sid fpath => d.initiateFileTransferWithSession sid fpath
  | .verdict session key accept file =>
    (d.emit (.received session key accept)).signalFileTransfer session key accept file
  | .removeSession serviceName => { d with manager := (d.manager.removeSession serviceName).2 }

/-! ### The contract -/

/-- Every transfer was offered to its session and accepted on it, and every offer was settled by a
frame of the session it was made on. -/
structure OnItsWord (log : List OfferEvent) : Prop where
  created : ∀ r key f, OfferEvent.created r key f ∈ log →
    OfferEvent.offered r key f ∈ log ∧ OfferEvent.received r key true ∈ log
  settled : ∀ r key on, OfferEvent.settled r key on ∈ log → on = some r

/-- A verdict with a pending key comes from the session the offer was made on. -/
def Expected (d : FileDesk) : OfferAction → Prop
  | .verdict session key _ _ => d.pendingOutgoing key ≠ none → d.offeredOn key = some session
  | _ => True

/-- A pending offer was sent on its session, and its id leads to this session or, once this is
removed, to none. -/
structure OnTheDesk (d : FileDesk) : Prop where
  word : OnItsWord d.log
  pending : ∀ key sid f r, d.pendingOutgoing key = some (sid, f) → d.offeredOn key = some r →
    OfferEvent.offered r key f ∈ d.log ∧ ∀ q, d.manager.sessions.lookup sid = some q → q = r

variable {d : FileDesk}

theorem onTheDesk_start (m : BVTCPConnectionManager) : (start m).OnTheDesk where
  word := by
    refine ⟨?_, ?_⟩
    · intro r key f h
      cases h
    · intro r key on h
      cases h
  pending := by
    intro key sid f r h
    cases h

theorem OnItsWord.concat {log : List OfferEvent} (h : OnItsWord log) {e : OfferEvent}
    (hc : ∀ r key f, e = .created r key f →
      OfferEvent.offered r key f ∈ log ∧ OfferEvent.received r key true ∈ log)
    (hs : ∀ r key on, e = .settled r key on → on = some r) : OnItsWord (log ++ [e]) where
  created := by
    intro r key f hmem
    have hwas : OfferEvent.offered r key f ∈ log ∧ OfferEvent.received r key true ∈ log := by
      rcases List.mem_append.mp hmem with hold | hnew
      · exact h.created r key f hold
      · exact hc r key f (List.mem_singleton.mp hnew).symm
    exact ⟨List.mem_append_left _ hwas.1, List.mem_append_left _ hwas.2⟩
  settled := by
    intro r key on hmem
    rcases List.mem_append.mp hmem with hold | hnew
    · exact h.settled r key on hold
    · exact hs r key on (List.mem_singleton.mp hnew).symm

/-- All a verdict can do: nothing, or the offer is taken out and, if it was accepted, its transfer
is set up or the call is left with an exception. -/
theorem signalFileTransfer_cases (session : SessionRef) (key : UInt32) (accept : Bool)
    (file : FileFound) (d : FileDesk) :
    (d.pendingOutgoing key = none ∧ d.signalFileTransfer session key accept file = d) ∨
      ∃ sid f, d.pendingOutgoing key = some (sid, f) ∧
        let taken := { d with
          pendingOutgoing := Function.update d.pendingOutgoing key none }.emit
            (.settled session key (d.offeredOn key))
        (d.signalFileTransfer session key accept file = taken ∨
          (accept = true ∧ d.signalFileTransfer session key accept file = taken.emit .threw) ∨
          ∃ r, accept = true ∧ d.manager.sessions.lookup sid = some r ∧
            d.signalFileTransfer session key accept file =
              { taken with
                fileTransferContext := Function.update d.fileTransferContext key
                  (some ⟨r, f, file = FileFound.opened⟩) }.emit (.created r key f)) := by
  cases hpending : d.pendingOutgoing key with
  | none => exact .inl ⟨rfl, by rw [signalFileTransfer, hpending]⟩
  | some v =>
    obtain ⟨sid, f⟩ := v
    refine .inr ⟨sid, f, rfl, ?_⟩
    simp only [signalFileTransfer, hpending]
    rcases accept with - | -
    · exact .inl rfl
    · right
      cases hlist : d.manager.sessions.lookup sid with
      | none => exact .inl ⟨rfl, rfl⟩
      | some r =>
        by_cases hgone : file = .gone
        · exact .inl ⟨rfl, if_pos hgone⟩
        · exact .inr ⟨r, rfl, rfl, if_neg hgone⟩

/-! ### Steps -/

theorem OnTheDesk.remember (h : d.OnTheDesk) {sid : UInt16} {fpath : Bytes} {on : Option SessionRef}
    {e : OfferEvent} (hword : OnItsWord (d.log ++ [e]))
    (hon : ∀ r, on = some r → e = .offered r d.ftcid fpath ∧
      ∀ q, d.manager.sessions.lookup sid = some q → q = r) :
    OnTheDesk ({ d with
      ftcid := d.ftcid + 1
      pendingOutgoing := Function.update d.pendingOutgoing d.ftcid (some (sid, fpath))
      offeredOn := Function.update d.offeredOn d.ftcid on }.emit e) where
  word := hword
  pending := by
    intro key sid' f r hpending hoffered
    simp only [emit] at hpending hoffered ⊢
    rcases eq_or_ne key d.ftcid with rfl | hne
    · rw [Function.update_self] at hpending hoffered
      cases hpending
      obtain ⟨rfl, hsame⟩ := hon r hoffered
      exact ⟨List.mem_append_right _ List.mem_cons_self, hsame⟩
    · rw [Function.update_of_ne hne] at hpending hoffered
      obtain ⟨hmem, hsame⟩ := h.pending key sid' f r hpending hoffered
      exact ⟨List.mem_append_left _ hmem, hsame⟩

theorem OnTheDesk.initiateFileTransferWithSession (h : d.OnTheDesk) (sid : UInt16) (fpath : Bytes) :
    (d.initiateFileTransferWithSession sid fpath).OnTheDesk := by
  rw [FileDesk.initiateFileTransferWithSession]
  cases hlist : d.manager.sessions.lookup sid with
  | none =>
    refine h.remember (h.word.concat ?_ ?_) ?_
    · intro r key f he
      cases he
    · intro r key on he
      cases he
    · intro r hr
      cases hr
  | some r =>
    refine h.remember (h.word.concat ?_ ?_) ?_
    · intro r' key f he
      cases he
    · intro r' key on he
      cases he
    · intro r' hr
      cases hr
      exact ⟨rfl, fun q hq => Option.some.inj (hq.symm.trans hlist)⟩

theorem OnTheDesk.emit (h : d.OnTheDesk) {e : OfferEvent} (hword : OnItsWord (d.log ++ [e])) :
    (d.emit e).OnTheDesk where
  word := hword
  pending := by
    intro key sid f r hpending hon
    obtain ⟨hmem, hsame⟩ := h.pending key sid f r hpending hon
    exact ⟨List.mem_append_left _ hmem, hsame⟩

theorem OnTheDesk.erase (h : d.OnTheDesk) (key : UInt32) :
    OnTheDesk { d with pendingOutgoing := Function.update d.pendingOutgoing key none } where
  word := h.word
  pending := by
    intro key' sid f r hpending hon
    rcases eq_or_ne key' key with rfl | hne
    · simp at hpending
    · simp only [Function.update_of_ne hne] at hpending
      exact h.pending key' sid f r hpending hon

theorem OnTheDesk.setContext (h : d.OnTheDesk) (c : UInt32 → Option FileTransfer) :
    OnTheDesk { d with fileTransferContext := c } :=
  ⟨h.word, h.pending⟩

theorem OnTheDesk.signalFileTransfer (h : d.OnTheDesk) {session : SessionRef} {key : UInt32}
    {accept : Bool} {file : FileFound}
    (hreceived : OfferEvent.received session key accept ∈ d.log)
    (hok : d.pendingOutgoing key ≠ none → d.offeredOn key = some session) :
    (d.signalFileTransfer session key accept file).OnTheDesk := by
  obtain ⟨-, heq⟩ | ⟨sid, f, hpending, hcases⟩ :=
    signalFileTransfer_cases session key accept file d
  · rw [heq]
    exact h
  have hon : d.offeredOn key = some session := hok (by
    rw [hpending]
    exact Option.some_ne_none _)
  have htaken := (h.erase key).emit (e := .settled session key (d.offeredOn key))
    (h.word.concat (fun _ _ _ he => by cases he) (by
      intro r key' on he
      cases he
      exact hon))
  obtain heq | ⟨-, heq⟩ | ⟨r, haccept, hlist, heq⟩ := hcases
  · rw [heq]
    exact htaken
  · rw [heq]
    exact htaken.emit
      (htaken.word.concat (fun _ _ _ he => by cases he) (fun _ _ _ he => by cases he))
  · rw [heq]
    obtain ⟨hoffered, hsame⟩ := h.pending key sid f session hpending hon
    obtain rfl := hsame r hlist
    refine (htaken.setContext _).emit (htaken.word.concat ?_ (fun _ _ _ he => by cases he))
    intro r' key' f' he
    cases he
    exact ⟨List.mem_append_left _ hoffered, List.mem_append_left _ (haccept ▸ hreceived)⟩

theorem OnTheDesk.removeSession (h : d.OnTheDesk) (serviceName : Bytes) :
    OnTheDesk { d with manager := (d.manager.removeSession serviceName).2 } where
  word := h.word
  pending := by
    intro key sid f r hpending hon
    obtain ⟨hmem, hsame⟩ := h.pending key sid f r hpending hon
    exact ⟨hmem, fun q hq => hsame q (BVTCPConnectionManager.lookup_removeSession hq)⟩

theorem step_onTheDesk (h : d.OnTheDesk) {a : OfferAction} (hok : Expected d a) :
    (d.step a).OnTheDesk := by
  cases a with
  | initiateFileTransferWithSession sid fpath => exact h.initiateFileTransferWithSession sid fpath
  | verdict session key accept file =>
    have hemit := h.emit (e := .received session key accept)
      (h.word.concat (fun _ _ _ he => by cases he) (fun _ _ _ he => by cases he))
    exact hemit.signalFileTransfer (List.mem_append_right _ List.mem_cons_self) hok
  | removeSession serviceName => exact h.removeSession serviceName

/-- A pending offer is settled by whatever verdict comes first. -/
theorem settled_mem_log {session : SessionRef} {key : UInt32} (accept : Bool) (file : FileFound)
    (hpending : d.pendingOutgoing key ≠ none) :
    OfferEvent.settled session key (d.offeredOn key) ∈
      (d.signalFileTransfer session key accept file).log := by
  obtain ⟨hnone, -⟩ | ⟨sid, f, -, heq | ⟨-, heq⟩ | ⟨r, -, -, heq⟩⟩ :=
    signalFileTransfer_cases session key accept file d
  · exact absurd hnone hpending
  · simp [heq, emit]
  · simp [heq, emit]
  · simp [heq, emit]

theorem expected_of_onItsWord {a : OfferAction} (h : OnItsWord (d.step a).log) : Expected d a := by
  cases a with
  | initiateFileTransferWithSession _ _ => trivial
  | removeSession _ => trivial
  | verdict session key accept file =>
    intro hpending
    exact h.settled session key _
      (settled_mem_log (d := d.emit (.received session key accept)) accept file hpending)

/-- **Offers.**  All along a run every transfer was offered to its session and accepted on it, and
every offer was settled by a frame of the session it was made on, exactly when the verdicts with
pending keys come from the sessions the offers were made on. -/
theorem on_its_word_along_iff (m : BVTCPConnectionManager) (as : List OfferAction) :
    (∀ p, p <+: as → OnItsWord (Runs.run step (start m) p).log) ↔
      Runs.Meets step Expected (start m) as :=
  Runs.forall_prefix_iff_meets (I := OnTheDesk) (P := fun d => OnItsWord d.log)
    (fun _ h => h.word) (fun _ _ h hok => step_onTheDesk h hok)
    (fun _ _ h => ⟨expected_of_onItsWord, fun hok => (step_onTheDesk h hok).word⟩)
    (onTheDesk_start m) as

/-- A host with sessions to `b` and `c` offers a file to `b`; `c` accepts it, and the transfer to
`b` starts without a word of `b`. -/
theorem stranger_accepts :
    let m := ((((BVTCPConnectionManager.construct [97]).accept.acceptHandler
      0).handleSessionIdentification [98] 0).acceptHandler 1).handleSessionIdentification [99] 1
    let d := Runs.run step (start m)
      [.initiateFileTransferWithSession 0 [120], .verdict 1 0 true .opened]
    d.log = [.offered 0 0 [120], .received 1 0 true, .settled 1 0 (some 0), .created 0 0 [120]] ∧
      ¬ OnItsWord d.log := by
  intro m d
  have hlog : d.log =
      [.offered 0 0 [120], .received 1 0 true, .settled 1 0 (some 0), .created 0 0 [120]] := by
    decide
  refine ⟨hlog, fun h => ?_⟩
  have hsettled := h.settled 1 0 (some 0) (by rw [hlog]; simp)
  cases hsettled

end FileDesk

end LocalChat
