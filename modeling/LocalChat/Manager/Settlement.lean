import LocalChat.Manager.Offers

/-!
# How offers are settled

The calls of `InitiateFileTransferWithSession` take the keys 0, 1, 2, … in turn.  An offer waits in
`pendingOutgoing_m` until the first FILE_ACCEPT or FILE_REJECT frame with its key takes it out;
`verdictsOn` are the verdicts that a run reads for a key after the call that took it.

* `settled_at_most_once`: while sessions stay and files can be read, each call offers its key, the
  offers that wait are those of the calls without a verdict, and a transfer context is made once for
  a key whose first verdict was an accept and for no other key.
* `offers_survive_along_iff`: with sessions taken out and files gone, no call is left with an
  exception, and none that cannot proceed leaves an entry behind, exactly if every call finds its
  session listed, and an accepted offer a file that opens.
-/

namespace LocalChat

/-! ### Reading the run and the log -/

namespace OfferAction

def offer : OfferAction → Option (UInt16 × Bytes)
  | initiateFileTransferWithSession sid fpath => some (sid, fpath)
  | _ => none

def verdictOn (key : UInt32) : OfferAction → Option Bool
  | verdict _ k accept _ => if k = key then some accept else none
  | _ => none

end OfferAction

/-- The offers of a run.  The one at position `n` is made under the key `n`. -/
def offersOf (as : List OfferAction) : List (UInt16 × Bytes) := as.filterMap (·.offer)

/-- The verdicts read for the key after the call that takes it, where `n` calls have been made
already. -/
def verdictsFrom (key : UInt32) : Nat → List OfferAction → List Bool
  | _, [] => []
  | n, a :: as =>
    (if key.toNat < n then (a.verdictOn key).toList else []) ++
      verdictsFrom key (n + a.offer.toList.length) as

def verdictsOn (key : UInt32) (as : List OfferAction) : List Bool := verdictsFrom key 0 as

namespace OfferEvent

def offeredKey : OfferEvent → Option UInt32
  | offered _ key _ => some key
  | _ => none

def creates (key : UInt32) : OfferEvent → Bool
  | created _ k _ => k = key
  | _ => false

end OfferEvent

def createdIn (key : UInt32) (log : List OfferEvent) : Nat := log.countP (·.creates key)

theorem createdIn_concat (key : UInt32) (log : List OfferEvent) (e : OfferEvent) :
    createdIn key (log ++ [e]) = createdIn key log + if e.creates key then 1 else 0 := by
  rw [createdIn, List.countP_append, List.countP_singleton, createdIn]

section Histories

variable {key : UInt32} {as : List OfferAction} {a : OfferAction}

theorem offersOf_concat : offersOf (as ++ [a]) = offersOf as ++ a.offer.toList := by
  rw [offersOf, List.filterMap_append, offersOf]
  cases ha : a.offer <;> simp [ha]

theorem length_offersOf_cons : (offersOf (a :: as)).length =
    a.offer.toList.length + (offersOf as).length := by
  cases ha : a.offer with
  | none => simp [offersOf, ha]
  | some o =>
    simp only [offersOf, List.filterMap_cons, ha, List.length_cons, Option.toList_some,
      List.length_nil]
    omega

theorem verdictsFrom_concat (n : Nat) : verdictsFrom key n (as ++ [a]) = verdictsFrom key n as ++
    if key.toNat < n + (offersOf as).length then (a.verdictOn key).toList else [] := by
  induction as generalizing n with
  | nil => simp [verdictsFrom, offersOf]
  | cons b as ih =>
    rw [List.cons_append, verdictsFrom, ih, verdictsFrom, length_offersOf_cons, Nat.add_assoc,
      List.append_assoc]

/-- A verdict counts if its key was taken before. -/
theorem verdictsOn_concat : verdictsOn key (as ++ [a]) = verdictsOn key as ++
    if key.toNat < (offersOf as).length then (a.verdictOn key).toList else [] := by
  rw [verdictsOn, verdictsFrom_concat, Nat.zero_add, verdictsOn]

theorem verdictsOn_concat_none (ha : a.verdictOn key = none) :
    verdictsOn key (as ++ [a]) = verdictsOn key as := by
  rw [verdictsOn_concat, ha, Option.toList_none, ite_self, List.append_nil]

theorem verdictsFrom_of_le {n : Nat} (h : n + (offersOf as).length ≤ key.toNat) :
    verdictsFrom key n as = [] := by
  induction as generalizing n with
  | nil => rfl
  | cons a as ih =>
    rw [length_offersOf_cons] at h
    rw [verdictsFrom, if_neg (by omega), ih (by omega), List.append_nil]

theorem verdictsOn_of_length_le (h : (offersOf as).length ≤ key.toNat) :
    verdictsOn key as = [] := verdictsFrom_of_le (by omega)

end Histories

open BVTCPConnectionManager (hostWithPeer)

namespace FileDesk

/-! ### Settled at most once -/

/-- An offer on a listed session, or a verdict while the sizes of files can be read. -/
def Undisturbed (m : BVTCPConnectionManager) : OfferAction → Prop
  | .initiateFileTransferWithSession sid _ => m.sessions.lookup sid ≠ none
  | .verdict _ _ _ file => file ≠ .gone
  | .removeSession _ => False

/-- How the key stands in the maps and in the log after the calls `as`. -/
structure SettledOnce (key : UInt32) (as : List OfferAction) (d : FileDesk) : Prop where
  /-- its offer waits as long as there is no verdict on it -/
  pending : d.pendingOutgoing key =
    if verdictsOn key as = [] then (offersOf as)[key.toNat]? else none
  /-- it has a transfer context if its first verdict was an accept -/
  context : d.fileTransferContext key ≠ none ↔ (verdictsOn key as).head? = some true
  /-- and this was made once -/
  created : createdIn key d.log = if (verdictsOn key as).head? = some true then 1 else 0

/-- The desk after the calls `as`, on listed sessions. -/
structure Books (m : BVTCPConnectionManager) (as : List OfferAction) (d : FileDesk) : Prop where
  settled : ∀ key, SettledOnce key as d
  offered : d.log.filterMap (·.offeredKey) =
    (List.range (offersOf as).length).map UInt32.ofNat
  manager : d.manager = m
  ftcid : d.ftcid = UInt32.ofNat (offersOf as).length
  listed : ∀ o ∈ offersOf as, m.sessions.lookup o.1 ≠ none

variable {m : BVTCPConnectionManager} {as : List OfferAction} {d : FileDesk} {key : UInt32}

theorem start_books (m : BVTCPConnectionManager) : Books m [] (start m) where
  settled := by
    intro key
    refine ⟨rfl, ?_, rfl⟩
    constructor
    · intro h
      exact absurd rfl h
    · intro h
      cases h
  offered := rfl
  manager := rfl
  ftcid := rfl
  listed := by
    intro o h
    cases h

/-- A call that is not about the key changes nothing for it. -/
theorem SettledOnce.congr (h : SettledOnce key as d) {as' : List OfferAction} {d' : FileDesk}
    (hv : verdictsOn key as' = verdictsOn key as)
    (ho : (offersOf as')[key.toNat]? = (offersOf as)[key.toNat]?)
    (hp : d'.pendingOutgoing key = d.pendingOutgoing key)
    (hx : d'.fileTransferContext key = d.fileTransferContext key)
    (hc : createdIn key d'.log = createdIn key d.log) : SettledOnce key as' d' := by
  refine ⟨?_, ?_, ?_⟩
  · rw [hp, hv, ho]
    exact h.pending
  · rw [hx, hv]
    exact h.context
  · rw [hc, hv]
    exact h.created

def put (sid : UInt16) (fpath : Bytes) (r : SessionRef) (d : FileDesk) : FileDesk :=
  { d with
    ftcid := d.ftcid + 1
    pendingOutgoing := Function.update d.pendingOutgoing d.ftcid (some (sid, fpath))
    offeredOn := Function.update d.offeredOn d.ftcid (some r)
    log := d.log ++ [OfferEvent.offered r d.ftcid fpath] }

theorem initiate_of_listed {sid : UInt16} {r : SessionRef}
    (hr : d.manager.sessions.lookup sid = some r) (fpath : Bytes) :
    d.initiateFileTransferWithSession sid fpath = d.put sid fpath r := by
  simp only [FileDesk.initiateFileTransferWithSession, hr]
  rfl

theorem Books.put (h : Books m as d) (hn : (offersOf as).length < 2 ^ 32) {sid : UInt16}
    (hlisted : m.sessions.lookup sid ≠ none) (fpath : Bytes) (r : SessionRef) :
    Books m (as ++ [.initiateFileTransferWithSession sid fpath]) (d.put sid fpath r) := by
  have hkey : d.ftcid.toNat = (offersOf as).length := by
    rw [h.ftcid, UInt32.toNat_ofNat', Nat.mod_eq_of_lt hn]
  have hoffers : offersOf (as ++ [.initiateFileTransferWithSession sid fpath]) =
      offersOf as ++ [(sid, fpath)] := offersOf_concat
  have hcreated : ∀ key, createdIn key (d.put sid fpath r).log = createdIn key d.log := by
    intro key
    exact createdIn_concat key d.log (.offered r d.ftcid fpath)
  refine ⟨?_, ?_, h.manager, ?_, ?_⟩
  · intro key
    have hsame : verdictsOn key (as ++ [.initiateFileTransferWithSession sid fpath]) =
        verdictsOn key as := verdictsOn_concat_none rfl
    rcases eq_or_ne key d.ftcid with rfl | hne
    · have hnone : verdictsOn d.ftcid as = [] := verdictsOn_of_length_le hkey.ge
      have hold := h.settled d.ftcid
      refine ⟨?_, ?_, ?_⟩
      · rw [hsame, hnone, if_pos rfl, hoffers, hkey, List.getElem?_concat_length]
        exact Function.update_self _ _ _
      · rw [hsame]
        exact hold.context
      · rw [hsame, hcreated]
        exact hold.created
    · have hnat : key.toNat ≠ (offersOf as).length := by
        rw [← hkey]
        exact fun heq => hne (UInt32.toNat_inj.mp heq)
      refine (h.settled key).congr hsame ?_ (Function.update_of_ne hne _ _) rfl (hcreated key)
      rw [hoffers]
      rcases Nat.lt_or_gt_of_ne hnat with hlt | hgt
      · exact List.getElem?_append_left hlt
      · rw [List.getElem?_eq_none (by simp; omega), List.getElem?_eq_none (by omega)]
  · have hlog : (d.put sid fpath r).log.filterMap (·.offeredKey) =
        d.log.filterMap (·.offeredKey) ++ [d.ftcid] := List.filterMap_append
    rw [hlog, h.offered, hoffers, List.length_append, List.length_singleton, List.range_succ,
      List.map_append, h.ftcid]
    rfl
  · rw [hoffers, List.length_append, UInt32.ofNat_add, ← h.ftcid]
    rfl
  · intro o ho
    rw [hoffers] at ho
    rcases List.mem_append.mp ho with hold | hnew
    · exact h.listed o hold
    · rw [List.mem_singleton.mp hnew]
      exact hlisted

theorem Books.of_verdict (h : Books m as d) {session : SessionRef} {k : UInt32} {accept : Bool}
    {file : FileFound} {d' : FileDesk} (es : List OfferEvent) (hlog : d'.log = d.log ++ es)
    (hes : es.filterMap (·.offeredKey) = []) (hm : d'.manager = d.manager)
    (hf : d'.ftcid = d.ftcid)
    (hother : ∀ key, key ≠ k → d'.pendingOutgoing key = d.pendingOutgoing key ∧
      d'.fileTransferContext key = d.fileTransferContext key ∧ createdIn key es = 0)
    (hk : SettledOnce k (as ++ [.verdict session k accept file]) d') :
    Books m (as ++ [.verdict session k accept file]) d' := by
  have hoffers : offersOf (as ++ [.verdict session k accept file]) = offersOf as := by
    rw [offersOf_concat]
    exact List.append_nil _
  refine ⟨?_, ?_, hm.trans h.manager, ?_, ?_⟩
  · intro key
    rcases eq_or_ne key k with rfl | hne
    · exact hk
    · obtain ⟨hp, hx, hc⟩ := hother key hne
      have hsame : verdictsOn key (as ++ [.verdict session k accept file]) = verdictsOn key as :=
        verdictsOn_concat_none (if_neg fun he => hne he.symm)
      refine (h.settled key).congr hsame ?_ hp hx ?_
      · rw [hoffers]
      · rw [hlog, createdIn, List.countP_append]
        exact congrArg (createdIn key d.log + ·) hc
  · rw [hlog, List.filterMap_append, hes, List.append_nil, hoffers]
    exact h.offered
  · rw [hf, hoffers]
    exact h.ftcid
  · rw [hoffers]
    exact h.listed

/-- A verdict for a key that does not wait changes nothing: no call has taken the key, or it has had
its first verdict. -/
theorem SettledOnce.late (h : SettledOnce key as d) (hnone : d.pendingOutgoing key = none)
    (session : SessionRef) (accept : Bool) (file : FileFound) :
    SettledOnce key (as ++ [.verdict session key accept file])
      (d.emit (.received session key accept)) := by
  have hverdict : (OfferAction.verdict session key accept file).verdictOn key = some accept :=
    if_pos rfl
  have hoffers : offersOf (as ++ [.verdict session key accept file]) = offersOf as := by
    rw [offersOf_concat]
    exact List.append_nil _
  have hcreated : createdIn key (d.emit (.received session key accept)).log =
      createdIn key d.log := createdIn_concat key d.log _
  have hpending := h.pending
  rw [hnone] at hpending
  by_cases hempty : verdictsOn key as = []
  · rw [if_pos hempty] at hpending
    have hle : (offersOf as).length ≤ key.toNat := List.getElem?_eq_none_iff.mp hpending.symm
    refine h.congr ?_ (by rw [hoffers]) rfl rfl hcreated
    rw [verdictsOn_concat, if_neg (by omega), List.append_nil]
  · have hhead : (verdictsOn key (as ++ [.verdict session key accept file])).head? =
        (verdictsOn key as).head? := by
      rw [verdictsOn_concat]
      exact List.head?_append_of_ne_nil _ hempty
    refine ⟨?_, ?_, ?_⟩
    · rw [if_neg]
      · exact hnone
      · rw [verdictsOn_concat]
        exact fun hall => hempty (List.append_eq_nil_iff.mp hall).1
    · rw [hhead]
      exact h.context
    · rw [hhead, hcreated]
      exact h.created

theorem SettledOnce.first (h : SettledOnce key as d) (hsome : d.pendingOutgoing key ≠ none)
    (session : SessionRef) (accept : Bool) (file : FileFound) :
    verdictsOn key (as ++ [.verdict session key accept file]) = [accept] ∧
      createdIn key d.log = 0 ∧ d.fileTransferContext key = none := by
  have hpending := h.pending
  have hempty : verdictsOn key as = [] := by
    by_contra hne
    rw [if_neg hne] at hpending
    exact hsome hpending
  rw [if_pos hempty] at hpending
  have hlt : key.toNat < (offersOf as).length := by
    by_contra hle
    rw [List.getElem?_eq_none (by omega)] at hpending
    exact hsome hpending
  have hverdict : (OfferAction.verdict session key accept file).verdictOn key = some accept :=
    if_pos rfl
  have hcreated := h.created
  rw [hempty] at hcreated
  refine ⟨?_, hcreated, ?_⟩
  · rw [verdictsOn_concat, hempty, if_pos hlt, hverdict]
    rfl
  · by_contra hne
    have hhead := h.context.mp hne
    rw [hempty] at hhead
    cases hhead

def taken (session : SessionRef) (k : UInt32) (accept : Bool) (d : FileDesk) : FileDesk :=
  { d with
    pendingOutgoing := Function.update d.pendingOutgoing k none
    log := d.log ++ [.received session k accept, .settled session k (d.offeredOn k)] }

theorem Books.reject (h : Books m as d) (session : SessionRef) (k : UInt32) (file : FileFound)
    (hsome : d.pendingOutgoing k ≠ none) :
    Books m (as ++ [.verdict session k false file]) (d.taken session k false) := by
  obtain ⟨hverdicts, hcreated, hcontext⟩ := (h.settled k).first hsome session false file
  refine h.of_verdict _ rfl rfl rfl rfl ?_ ⟨?_, ?_, ?_⟩
  · intro key hne
    exact ⟨Function.update_of_ne hne _ _, rfl, rfl⟩
  · rw [hverdicts]
    exact Function.update_self _ _ _
  · rw [hverdicts]
    simp [taken, hcontext]
  · rw [hverdicts, taken, createdIn, List.countP_append]
    exact hcreated

theorem Books.accept (h : Books m as d) (session : SessionRef) (k : UInt32) (file : FileFound)
    (hsome : d.pendingOutgoing k ≠ none) (t : FileTransfer) (r : SessionRef) (f : Bytes) :
    Books m (as ++ [.verdict session k true file]) ({ d.taken session k true with
      fileTransferContext := Function.update d.fileTransferContext k (some t) }.emit
        (.created r k f)) := by
  obtain ⟨hverdicts, hcreated, -⟩ := (h.settled k).first hsome session true file
  refine h.of_verdict [.received session k true, .settled session k (d.offeredOn k),
    .created r k f] ?_ rfl rfl rfl ?_ ⟨?_, ?_, ?_⟩
  · simp [emit, taken]
  · intro key hne
    refine ⟨Function.update_of_ne hne _ _, Function.update_of_ne hne _ _, ?_⟩
    simp [createdIn, OfferEvent.creates, hne.symm]
  · rw [hverdicts]
    exact Function.update_self _ _ _
  · rw [hverdicts]
    simp [emit]
  · have hlog : createdIn k (d.log ++ [.received session k true,
        .settled session k (d.offeredOn k)]) = 0 := by
      rw [createdIn, List.countP_append]
      exact hcreated
    rw [hverdicts, emit, createdIn_concat]
    simp only [taken, hlog, OfferEvent.creates]
    simp

theorem Books.verdict (h : Books m as d) (session : SessionRef) (k : UInt32) (accept : Bool)
    {file : FileFound} (hfile : file ≠ .gone) :
    Books m (as ++ [.verdict session k accept file]) (d.step (.verdict session k accept file)) := by
  cases hpending : d.pendingOutgoing k with
  | none =>
    have heq : d.step (.verdict session k accept file) = d.emit (.received session k accept) := by
      simp only [FileDesk.step, FileDesk.signalFileTransfer, emit, hpending]
    rw [heq]
    refine h.of_verdict [.received session k accept] rfl rfl rfl rfl ?_
      ((h.settled k).late hpending session accept file)
    intro key hne
    exact ⟨rfl, rfl, rfl⟩
  | some v =>
    obtain ⟨sid, f⟩ := v
    have hsome : d.pendingOutgoing k ≠ none := by
      rw [hpending]
      exact Option.some_ne_none _
    have hmem : (sid, f) ∈ offersOf as := by
      have hwait := (h.settled k).pending
      rw [hpending] at hwait
      split at hwait
      · exact List.mem_of_getElem? hwait.symm
      · cases hwait
    obtain ⟨r, hr⟩ := Option.ne_none_iff_exists'.mp (h.listed _ hmem)
    cases accept with
    | false =>
      have heq : d.step (.verdict session k false file) = d.taken session k false := by
        simp [FileDesk.step, FileDesk.signalFileTransfer, emit, hpending, FileDesk.taken]
      rw [heq]
      exact h.reject session k file hsome
    | true =>
      have heq : d.step (.verdict session k true file) = { d.taken session k true with
          fileTransferContext := Function.update d.fileTransferContext k
            (some ⟨r, f, file = FileFound.opened⟩) }.emit (.created r k f) := by
        simp [FileDesk.step, FileDesk.signalFileTransfer, emit, hpending, h.manager, hr, hfile,
          FileDesk.taken]
      rw [heq]
      exact h.accept session k file hsome _ r f

theorem Books.step (h : Books m as d) {a : OfferAction} (ha : Undisturbed m a)
    (hn : (offersOf (as ++ [a])).length ≤ 2 ^ 32) : Books m (as ++ [a]) (d.step a) := by
  cases a with
  | initiateFileTransferWithSession sid fpath =>
    have hlisted : m.sessions.lookup sid ≠ none := ha
    obtain ⟨r, hr⟩ := Option.ne_none_iff_exists'.mp hlisted
    rw [← h.manager] at hr
    rw [offersOf_concat, List.length_append] at hn
    rw [FileDesk.step, initiate_of_listed hr]
    exact h.put (Nat.lt_of_succ_le hn) hlisted fpath r
  | verdict session k accept file => exact h.verdict session k accept ha
  | removeSession serviceName => exact ha.elim

/-- A run keeps the books of the calls before it and its own. -/
theorem run_books (bs : List OfferAction) : ∀ (as : List OfferAction) (d : FileDesk),
    Books m as d → (∀ b ∈ bs, Undisturbed m b) → (offersOf (as ++ bs)).length ≤ 2 ^ 32 →
      Books m (as ++ bs) (Runs.run FileDesk.step d bs) := by
  induction bs with
  | nil =>
    intro as d h _ _
    rw [List.append_nil]
    exact h
  | cons b bs ih =>
    intro as d h hall hcount
    rw [List.append_cons] at hcount ⊢
    have hfirst : (offersOf (as ++ [b])).length ≤ 2 ^ 32 := by
      rw [offersOf, List.filterMap_append, List.length_append] at hcount
      rw [offersOf]
      omega
    have hstep := h.step (hall b List.mem_cons_self) hfirst
    exact ih _ _ hstep (fun c hc => hall c (List.mem_cons_of_mem _ hc)) hcount

/-- **Offers are settled at most once.**  In every run of fewer than 2^32 offers on listed sessions
and of verdicts with any keys, the call at position `n` offers the key `n`; the offers that wait are
those of the calls without a verdict; a key whose first verdict was an accept has had one transfer
context made for it, and any other key none. -/
theorem settled_at_most_once (m : BVTCPConnectionManager) (as : List OfferAction)
    (hall : ∀ a ∈ as, Undisturbed m a) (hcount : (offersOf as).length < 2 ^ 32) :
    (Runs.run step (start m) as).log.filterMap (·.offeredKey) =
        (List.range (offersOf as).length).map UInt32.ofNat ∧
      ∀ key, SettledOnce key as (Runs.run step (start m) as) := by
  have hbooks := run_books as [] (start m) (start_books m) hall hcount.le
  exact ⟨hbooks.offered, hbooks.settled⟩

/-- A verdict before any offer, an offer, and three verdicts on it. -/
def repeatedVerdicts : List OfferAction :=
  [.verdict 0 0 false .opened, .initiateFileTransferWithSession 0 [120],
    .verdict 0 0 true .opened, .verdict 0 0 true .opened, .verdict 0 0 false .opened]

theorem settled_at_most_once_repeated :
    verdictsOn 0 repeatedVerdicts = [true, true, false] ∧
      ∀ key, SettledOnce key repeatedVerdicts
        (Runs.run step (start hostWithPeer) repeatedVerdicts) := by
  refine ⟨by decide, (settled_at_most_once hostWithPeer repeatedVerdicts ?_ (by decide)).2⟩
  intro a ha
  simp only [repeatedVerdicts, List.mem_cons, List.not_mem_nil, or_false] at ha
  rcases ha with rfl | rfl | rfl | rfl | rfl
  · exact FileFound.noConfusion
  · show hostWithPeer.sessions.lookup 0 ≠ none
    decide
  · exact FileFound.noConfusion
  · exact FileFound.noConfusion
  · exact FileFound.noConfusion

/-! ### Sessions that go -/

/-- The call about `key` cannot proceed: the session of the offer is not listed, or the file of an
accepted offer is gone or does not open. -/
def CannotProceed (d : FileDesk) (key : UInt32) : OfferAction → Prop
  | .initiateFileTransferWithSession sid _ =>
    key = d.ftcid ∧ d.manager.sessions.lookup sid = none
  | .verdict _ k accept file =>
    key = k ∧ accept = true ∧ ∃ sid f, d.pendingOutgoing k = some (sid, f) ∧
      (d.manager.sessions.lookup sid = none ∨ file ≠ .opened)
  | .removeSession _ => False

/-- No call so far was left with an exception, this one included, and if it cannot proceed it leaves
no entry for its key. -/
structure Survives (d : FileDesk) (a : OfferAction) : Prop where
  returns : OfferEvent.threw ∉ (d.step a).log
  cleared : ∀ key, CannotProceed d key a →
    (d.step a).pendingOutgoing key = none ∧ (d.step a).fileTransferContext key = none

/-- An offer is made on a listed session, and when an offer that waits is accepted its session is
listed and its file opens. -/
def Ready (d : FileDesk) : OfferAction → Prop
  | .initiateFileTransferWithSession sid _ => d.manager.sessions.lookup sid ≠ none
  | .verdict _ k accept file =>
    accept = true → ∀ sid f, d.pendingOutgoing k = some (sid, f) →
      d.manager.sessions.lookup sid ≠ none ∧ file = .opened
  | .removeSession _ => True

theorem Ready.not_cannotProceed {a : OfferAction} (h : Ready d a) : ¬ CannotProceed d key a := by
  cases a with
  | initiateFileTransferWithSession sid fpath =>
    rintro ⟨-, hnone⟩
    exact h hnone
  | verdict session k accept file =>
    rintro ⟨-, haccept, sid, f, hpending, hgone⟩
    obtain ⟨hlisted, hopened⟩ := h haccept sid f hpending
    rcases hgone with hnone | hfile
    · exact hlisted hnone
    · exact hfile hopened
  | removeSession serviceName => exact id

theorem Ready.initiate {sid : UInt16} {fpath : Bytes} (h : OfferEvent.threw ∉ d.log)
    (hready : Ready d (.initiateFileTransferWithSession sid fpath)) :
    OfferEvent.threw ∉ (d.step (.initiateFileTransferWithSession sid fpath)).log := by
  obtain ⟨r, hr⟩ := Option.ne_none_iff_exists'.mp hready
  rw [step, initiate_of_listed hr]
  simp [put, h]

theorem Ready.verdict {session : SessionRef} {k : UInt32} {accept : Bool} {file : FileFound}
    (h : OfferEvent.threw ∉ d.log) (hready : Ready d (.verdict session k accept file)) :
    OfferEvent.threw ∉ (d.step (.verdict session k accept file)).log := by
  rw [step, FileDesk.signalFileTransfer]
  cases hpending : d.pendingOutgoing k with
  | none => simp [emit, hpending, h]
  | some v =>
    obtain ⟨sid, f⟩ := v
    cases accept with
    | false => simp [emit, hpending, h]
    | true =>
      obtain ⟨hlisted, rfl⟩ := hready rfl sid f hpending
      obtain ⟨r, hr⟩ := Option.ne_none_iff_exists'.mp hlisted
      simp [emit, hpending, hr, h]

/-- A ready call returns. -/
theorem Ready.returns {a : OfferAction} (h : OfferEvent.threw ∉ d.log) (hready : Ready d a) :
    OfferEvent.threw ∉ (d.step a).log := by
  cases a with
  | initiateFileTransferWithSession sid fpath => exact Ready.initiate h hready
  | verdict session k accept file => exact Ready.verdict h hready
  | removeSession serviceName => exact h

/-- A call that returns and leaves no entry where it cannot proceed is ready. -/
theorem Survives.ready {a : OfferAction} (h : Survives d a) : Ready d a := by
  cases a with
  | removeSession serviceName => trivial
  | initiateFileTransferWithSession sid fpath =>
    intro hnone
    have hreturns := h.returns
    rw [step, FileDesk.initiateFileTransferWithSession, hnone] at hreturns
    simp [emit] at hreturns
  | verdict session k accept file =>
    rintro rfl sid f hpending
    have hreturns := h.returns
    have hcleared := h.cleared k
    rw [step, FileDesk.signalFileTransfer] at hreturns hcleared
    cases hlist : d.manager.sessions.lookup sid with
    | none => simp [emit, hpending, hlist] at hreturns
    | some r =>
      cases file with
      | gone => simp [emit, hpending, hlist] at hreturns
      | opened => exact ⟨Option.some_ne_none r, rfl⟩
      | unopened =>
        -- the context of a file that does not open stays
        have hstuck : CannotProceed d k (.verdict session k true .unopened) :=
          ⟨rfl, rfl, sid, f, hpending, .inr FileFound.noConfusion⟩
        have hcontext := (hcleared hstuck).2
        simp [emit, hpending, hlist] at hcontext

/-- **Offers and removed sessions.**  All along a run no call is left with an exception, and none
that cannot proceed leaves an entry for its key, exactly if every call of the run is ready. -/
theorem offers_survive_along_iff (m : BVTCPConnectionManager) (as : List OfferAction) :
    (∀ p a, p ++ [a] <+: as → Survives (Runs.run step (start m) p) a) ↔
      Runs.Meets step Ready (start m) as := by
  have hany : Runs.Meets step (fun _ _ => True) (start m) as :=
    Runs.meets_of_forall (fun _ _ => trivial) _ _
  refine Runs.forall_step_iff_meets (I := fun d : FileDesk => OfferEvent.threw ∉ d.log)
    ?_ ?_ List.not_mem_nil hany
  · intro d a h _ hready
    exact Ready.returns h hready
  · intro d a h _
    constructor
    · intro hsurvives
      exact hsurvives.ready
    · intro hready
      exact ⟨Ready.returns h hready, fun key hstuck => absurd hstuck hready.not_cannotProceed⟩

/-- The id of the session to `b` is looked up and the session is then taken out: the offer throws
and stays in `pendingOutgoing_m`.  If the session goes between offer and accept, the verdict throws.
If the file can no longer be opened by then, its context is kept without a worker. -/
theorem removed_session_throws :
    let d := Runs.run step (start hostWithPeer)
      [.removeSession [98], .initiateFileTransferWithSession 0 [120]]
    let d' := Runs.run step (start hostWithPeer)
      [.initiateFileTransferWithSession 0 [120], .removeSession [98], .verdict 0 0 true .opened]
    let d'' := Runs.run step (start hostWithPeer)
      [.initiateFileTransferWithSession 0 [120], .verdict 0 0 true .unopened]
    hostWithPeer.getSessionIDFromServiceName [98] = some 0 ∧
      d.log = [.threw] ∧ d.pendingOutgoing 0 = some (0, [120]) ∧
      d'.log = [.offered 0 0 [120], .received 0 0 true, .settled 0 0 (some 0), .threw] ∧
      d''.fileTransferContext 0 = some ⟨0, [120], false⟩ ∧
      ¬ ∀ p a, p ++ [a] <+: [OfferAction.removeSession [98],
          .initiateFileTransferWithSession 0 [120]] →
        Survives (Runs.run step (start hostWithPeer) p) a := by
  intro d d' d''
  have hlog : d.log = [.threw] := by decide
  refine ⟨by decide, hlog, by decide, by decide, by decide, ?_⟩
  intro hall
  have hlast := (hall [.removeSession [98]] (.initiateFileTransferWithSession 0 [120])
    List.prefix_rfl).returns
  apply hlast
  show OfferEvent.threw ∈ d.log
  rw [hlog]
  exact List.mem_cons_self

end FileDesk

end LocalChat
