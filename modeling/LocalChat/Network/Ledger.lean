import LocalChat.Network.Streams
import LocalChat.App.Containment

/-!
# The ledger of offers

A ledger `o` says which offers have been made: `o h key = some (g, fname)` if the offer number `key`
of `h` was of the file `fname` and went to `g`.

* `Offering`: what the hosts keep about their own offers is in the ledger.
* `Told`: so is all that the receiving apps have been told.
* `Backed`: so are the frames on their way, and a FILE_ACCEPT stands for an acceptance.
* `Settled`: an offer is in at most one of the stages from its acceptance to the opened file, and in
  none of them while it is pending.

`Ledger` is all of this.  It is about the hosts and the frames on their way alone, and every kind of
step keeps it: `Ledger.write`, `Ledger.offer`, `Ledger.work`, `Ledger.begin_`, `Ledger.signal`,
`Ledger.mail`, `Ledger.listen`, `Ledger.onKey`.
-/

namespace LocalChat

open Octets

namespace Network

variable {H : Type}

abbrev Offers (H : Type) := H → UInt32 → Option (H × Bytes)

/-- The later ledger has the offers of the earlier. -/
def Extends (o o' : Offers H) : Prop := ∀ h key v, o h key = some v → o' h key = some v

theorem Extends.refl (o : Offers H) : Extends o o := fun _ _ _ h => h

/-! ### The ledger and the hosts -/

/-- The payload `<service>|<name>` is about the offer `key` of `p` to `g`. -/
def Names (dir : Directory H) (o : Offers H) (g p : H) (key : UInt32) (info : Bytes) : Prop :=
  ∃ fname, info = dir.name p ++ [bar] ++ fname ∧ o p key = some (g, fname)

structure Offering (dir : Directory H) (o : Offers H) (hosts : H → Host H) : Prop where
  fresh : ∀ h key, (hosts h).ftcid ≤ key → o h key = none
  pending : ∀ h key g fname, (hosts h).pendingOutgoing key = some (g, fname) →
    o h key = some (g, fname) ∧ (hosts h).fileTransferContext key = none ∧ Fits (dir.name h) fname
  context : ∀ h key g c, (hosts h).fileTransferContext key = some (g, c) →
    o h key = some (g, c.fname)

def Truthful (dir : Directory H) (o : Offers H) (g p : H) : AppEvent → Prop
  | .fileOffer d => 0 ∉ d.fdata ∧ Names dir o g p d.correlationKey d.fdata
  | .fileTransferBegin d => Names dir o g p d.correlationKey d.fdata
  | _ => True

structure Told (dir : Directory H) (o : Offers H) (g : H) (x : Host H) : Prop where
  mail : ∀ p e, (p, e) ∈ x.mailbox → Truthful dir o g p e
  shown : ∀ offer, x.app.pendingOffer = some offer → ∃ p, x.offeredOn = some p ∧
    offer.sender = dir.name p ∧ o p offer.key = some (g, offer.fname)
  begun : ∀ r ∈ x.begun, r.serviceName = dir.name r.peer ∧ o r.peer r.key = some (g, r.fname)

/-- What a frame from `p` to `g` may say. -/
def Backed (dir : Directory H) (o : Offers H) (hosts : H → Host H) (g p : H) :
    Written UInt32 → Prop
  | .io (.chat _ _) => True
  | .io (.offer _ serviceName key _ fname) =>
    serviceName = dir.name p ∧ Fits serviceName fname ∧ o p key = some (g, fname)
  | .io (.verdict _ key accept) => accept = true →
    ∃ fname, o g key = some (p, fname) ∧ ⟨g, key, dir.name g, fname⟩ ∈ (hosts p).accepted
  | .worker key f => f.handler = .fileTransferBegin →
    ∃ info, f.chunk.payload = info ++ [0] ∧ Names dir o g p key info

/-! ### Counting transfers -/

section Counting

variable [DecidableEq H]

/-- Transfer `key` to `g` has been accepted and its BEGIN not yet written. -/
def waiting (x : Host H) (g : H) (key : UInt32) : Nat :=
  match x.fileTransferContext key with
  | some (q, c) => if q = g ∧ c.state = .firstChunk then 1 else 0
  | none => 0

def isBegin (key : UInt32) : Written UInt32 → Bool
  | .io _ => false
  | .worker k f => k = key ∧ f.handler = .fileTransferBegin

def isBeginEvent (p : H) (key : UInt32) : H × AppEvent → Bool
  | (q, .fileTransferBegin d) => q = p ∧ d.correlationKey = key
  | _ => false

/-- How often the offer `key` of `p` to `g` is in one of the stages from its acceptance to the
opened file. -/
def transfers (w : H × H → List (Written UInt32)) (hosts : H → Host H) (g p : H) (key : UInt32) :
    Nat :=
  waiting (hosts p) g key + (w (g, p)).countP (isBegin key) +
    (hosts g).mailbox.countP (isBeginEvent p key) +
    (hosts g).begun.countP fun r => r.peer = p ∧ r.key = key

structure Settled (dir : Directory H) (o : Offers H) (w : H × H → List (Written UInt32))
    (hosts : H → Host H) : Prop where
  spent : ∀ g p key, 0 < transfers w hosts g p key → (hosts p).pendingOutgoing key = none ∧
    ∃ fname, o p key = some (g, fname) ∧ ⟨p, key, dir.name p, fname⟩ ∈ (hosts g).accepted
  once : ∀ g p key, transfers w hosts g p key ≤ 1

structure Ledger (dir : Directory H) (o : Offers H) (w : H × H → List (Written UInt32))
    (hosts : H → Host H) : Prop where
  offering : Offering dir o hosts
  told : ∀ g, Told dir o g (hosts g)
  backed : ∀ g p x, x ∈ w (g, p) → Backed dir o hosts g p x
  settled : Settled dir o w hosts

end Counting

/-! ### What does not matter to the ledger -/

variable {dir : Directory H} {o o' : Offers H} {hosts hosts' : H → Host H} {g p : H}

theorem Names.mono {key : UInt32} {info : Bytes} (h : Names dir o g p key info)
    (ho : Extends o o') : Names dir o' g p key info := by
  obtain ⟨fname, hinfo, hoffer⟩ := h
  exact ⟨fname, hinfo, ho _ _ _ hoffer⟩

theorem Truthful.mono {e : AppEvent} (h : Truthful dir o g p e) (ho : Extends o o') :
    Truthful dir o' g p e := by
  cases e with
  | messageIncoming text now sender => trivial
  | fileOffer d => exact ⟨h.1, h.2.mono ho⟩
  | fileTransferBegin d => exact Names.mono h ho
  | fileTransferChunkSent d => trivial
  | fileTransferEnd d => trivial

theorem Told.mono {x : Host H} (h : Told dir o g x) (ho : Extends o o') : Told dir o' g x where
  mail := fun p e he => (h.mail p e he).mono ho
  shown := by
    intro offer hoffer
    obtain ⟨p, hon, hsender, hledger⟩ := h.shown offer hoffer
    exact ⟨p, hon, hsender, ho _ _ _ hledger⟩
  begun := fun r hr => ⟨(h.begun r hr).1, ho _ _ _ (h.begun r hr).2⟩

theorem Backed.mono {x : Written UInt32} (h : Backed dir o hosts g p x) (ho : Extends o o')
    (hacc : ∀ g, (hosts g).accepted ⊆ (hosts' g).accepted) : Backed dir o' hosts' g p x := by
  cases x with
  | io f =>
    cases f with
    | chat now text => trivial
    | offer now serviceName key fsize fname => exact ⟨h.1, h.2.1, ho _ _ _ h.2.2⟩
    | verdict now key accept =>
      intro haccept
      obtain ⟨fname, hoffer, hmem⟩ := h haccept
      exact ⟨fname, ho _ _ _ hoffer, hacc _ hmem⟩
  | worker key f =>
    intro hbegin
    obtain ⟨info, hpayload, hnames⟩ := h hbegin
    exact ⟨info, hpayload, hnames.mono ho⟩

/-! ### What an app is told -/

theorem Names.split {key : UInt32} {info : Bytes} (h : Names dir o g p key info) :
    beforeBar info = dir.name p ∧ bar ∈ info ∧ o p key = some (g, afterBar info) := by
  obtain ⟨fname, rfl, hoffer⟩ := h
  rw [Transfer.beforeBar_append (dir.bar_not_mem p), Transfer.afterBar_append (dir.bar_not_mem p)]
  exact ⟨rfl, by simp, hoffer⟩

theorem Told.listen {x : Host H} (h : Told dir o g x) (flt : Faults) :
    Told dir o g (x.listen flt) := by
  rw [Host.listen]
  split
  · rename_i peer e rest hlistening hbox
    have htruth := h.mail peer e (by rw [hbox]; exact List.mem_cons_self)
    refine ⟨?_, ?_, ?_⟩
    · intro q e' he'
      exact h.mail q e' (by rw [hbox]; exact List.mem_cons_of_mem _ he')
    · intro offer hoffer
      by_cases hkind : ∃ d, e = .fileOffer d
      · obtain ⟨d, rfl⟩ := hkind
        obtain ⟨hzero, hnames⟩ := htruth
        obtain ⟨hsender, hbar, hledger⟩ := hnames.split
        have hshown : offer = ⟨d.correlationKey, beforeBar d.fdata, afterBar d.fdata,
            d.fsize.toUInt64⟩ := by
          simp only [App.handle, App.handleFileOffer, cstr_of_zero_not_mem hzero, if_pos hbar,
            Option.some.injEq] at hoffer
          exact hoffer.symm
        subst hshown
        exact ⟨peer, rfl, hsender, hledger⟩
      · have hne : ∀ d, e ≠ .fileOffer d := fun d hd => hkind ⟨d, hd⟩
        rw [App.handle_pendingOffer flt e _ hne] at hoffer
        obtain ⟨p, hon, hrest⟩ := h.shown offer hoffer
        refine ⟨p, ?_, hrest⟩
        cases e with
        | fileOffer d => exact absurd rfl (hne d)
        | messageIncoming text now sender => exact hon
        | fileTransferBegin d => exact hon
        | fileTransferChunkSent d => exact hon
        | fileTransferEnd d => exact hon
    · intro r hr
      rcases List.mem_append.mp hr with hr | hr
      · exact h.begun r hr
      · unfold Host.opened at hr
        split at hr
        · cases List.mem_singleton.mp hr
          obtain ⟨hservice, -, hledger⟩ := Names.split htruth
          exact ⟨hservice, hledger⟩
        · cases hr
  · exact h

theorem Told.onKey {x : Host H} (h : Told dir o g x) (c : UInt8) : Told dir o g (x.onKey c).2 := by
  obtain ⟨answer, shown, uiState, noted, heq, hcases⟩ := x.onKey_cases c
  rw [heq]
  refine ⟨h.mail, ?_, h.begun⟩
  intro offer hoffer
  rcases hcases with ⟨-, rfl, -⟩ | ⟨_, _, -, -, rfl, -⟩
  · exact h.shown offer hoffer
  · cases hoffer

variable [DecidableEq H] {w w' : H × H → List (Written UInt32)}

/-- No new transfer is counted, and an offer that has been made does not become pending. -/
theorem Settled.mono (h : Settled dir o w hosts) (ho : Extends o o')
    (hacc : ∀ g, (hosts g).accepted ⊆ (hosts' g).accepted)
    (hpending : ∀ p key, (hosts p).pendingOutgoing key = none → o p key ≠ none →
      (hosts' p).pendingOutgoing key = none)
    (hle : ∀ g p key, transfers w' hosts' g p key ≤ transfers w hosts g p key) :
    Settled dir o' w' hosts' where
  spent := by
    intro g p key hpos
    obtain ⟨hnone, fname, hoffer, hmem⟩ := h.spent g p key (Nat.lt_of_lt_of_le hpos (hle g p key))
    refine ⟨hpending p key hnone ?_, fname, ho _ _ _ hoffer, hacc _ hmem⟩
    rw [hoffer]
    exact Option.some_ne_none _
  once := fun g p key => (hle g p key).trans (h.once g p key)

/-! ### Frames come and go -/

theorem update_congr {β : Type} (F : Host H → β) {h : H} {x : Host H} (hF : F x = F (hosts h))
    (g : H) : F (Function.update hosts h x g) = F (hosts g) := by
  by_cases hg : g = h
  · subst hg
    rw [Function.update_self, hF]
  · rw [Function.update_of_ne hg]

theorem accepted_update {x : Host H} (h : (hosts g).accepted ⊆ x.accepted) :
    ∀ g', (hosts g').accepted ⊆ (Function.update hosts g x g').accepted :=
  (Function.forall_update_iff hosts fun g' x => (hosts g').accepted ⊆ x.accepted).mpr
    ⟨h, fun _ _ => List.Subset.refl _⟩

theorem told_update (h : ∀ g, Told dir o g (hosts g)) {x : Host H} (hx : Told dir o g x) :
    ∀ g', Told dir o g' (Function.update hosts g x g') :=
  (Function.forall_update_iff hosts fun g x => Told dir o g x).mpr ⟨hx, fun g' _ => h g'⟩

theorem Offering.update (h : Offering dir o hosts) {x : Host H} (hftcid : x.ftcid = (hosts g).ftcid)
    (hpending : x.pendingOutgoing = (hosts g).pendingOutgoing)
    (hctx : x.fileTransferContext = (hosts g).fileTransferContext) :
    Offering dir o (Function.update hosts g x) where
  fresh := by
    intro p key hle
    rw [update_congr Host.ftcid hftcid] at hle
    exact h.fresh p key hle
  pending := by
    intro p key q f hp
    rw [update_congr Host.pendingOutgoing hpending] at hp
    rw [update_congr Host.fileTransferContext hctx]
    exact h.pending p key q f hp
  context := by
    intro p key q c hc
    rw [update_congr Host.fileTransferContext hctx] at hc
    exact h.context p key q c hc

theorem waiting_congr {x x' : Host H} (h : x'.fileTransferContext = x.fileTransferContext) (g : H)
    (key : UInt32) : waiting x' g key = waiting x g key := by
  rw [waiting, waiting, h]

theorem transfers_update {a : H} {x : Host H}
    (hctx : x.fileTransferContext = (hosts a).fileTransferContext)
    (hmail : x.mailbox = (hosts a).mailbox) (hbegun : x.begun = (hosts a).begun) (g p : H)
    (key : UInt32) : transfers w (Function.update hosts a x) g p key =
    transfers w hosts g p key := by
  rw [transfers, transfers, update_congr Host.mailbox hmail, update_congr Host.begun hbegun,
    update_congr (fun x => waiting x g key) (waiting_congr hctx g key)]

theorem transfers_le_of_le (hw : ∀ g p key, (w' (g, p)).countP (isBegin key) ≤
      (w (g, p)).countP (isBegin key)) (g p : H) (key : UInt32) :
    transfers w' hosts g p key ≤ transfers w hosts g p key := by
  have := hw g p key
  unfold transfers
  omega

theorem Ledger.write (h : Ledger dir o w hosts) {x : Written UInt32}
    (hx : ∀ key, isBegin key x = false) (hbacked : Backed dir o hosts g p x) :
    Ledger dir o (Function.update w (g, p) (w (g, p) ++ [x])) hosts := by
  refine ⟨h.offering, h.told, ?_, ?_⟩
  · intro g' p' y hy
    by_cases hl : (g', p') = (g, p)
    · obtain ⟨rfl, rfl⟩ := Prod.mk.inj hl
      rw [Function.update_self] at hy
      rcases List.mem_append.mp hy with hy | hy
      · exact h.backed g' p' y hy
      · rw [List.mem_singleton.mp hy]
        exact hbacked
    · rw [Function.update_of_ne hl] at hy
      exact h.backed g' p' y hy
  · refine h.settled.mono (.refl o) (fun _ => List.Subset.refl _) (fun _ _ hnone _ => hnone) ?_
    refine transfers_le_of_le fun g' p' key => ?_
    by_cases hl : (g', p') = (g, p)
    · rw [hl, Function.update_self, List.countP_append, List.countP_singleton, hx key]
      simp
    · rw [Function.update_of_ne hl]

theorem Ledger.take (h : Ledger dir o w hosts) {x : Written UInt32} {rest : List (Written UInt32)}
    (hx : w (g, p) = x :: rest) : Ledger dir o (Function.update w (g, p) rest) hosts := by
  refine ⟨h.offering, h.told, ?_, ?_⟩
  · intro g' p' y hy
    by_cases hl : (g', p') = (g, p)
    · obtain ⟨rfl, rfl⟩ := Prod.mk.inj hl
      rw [Function.update_self] at hy
      exact h.backed g' p' y (by rw [hx]; exact List.mem_cons_of_mem x hy)
    · rw [Function.update_of_ne hl] at hy
      exact h.backed g' p' y hy
  · refine h.settled.mono (.refl o) (fun _ => List.Subset.refl _) (fun _ _ hnone _ => hnone) ?_
    refine transfers_le_of_le fun g' p' key => ?_
    by_cases hl : (g', p') = (g, p)
    · rw [hl, Function.update_self, hx, List.countP_cons]
      exact Nat.le_add_right _ _
    · rw [Function.update_of_ne hl]

/-! ### Offers -/

def record (o : Offers H) (h : H) (key : UInt32) (v : H × Bytes) : Offers H :=
  Function.update o h (Function.update (o h) key (some v))

theorem record_self (o : Offers H) (h : H) (key : UInt32) (v : H × Bytes) :
    record o h key v h key = some v := by
  simp [record]

theorem record_of_ne (o : Offers H) {h h' : H} {key key' : UInt32} (v : H × Bytes)
    (hne : ¬ (h' = h ∧ key' = key)) : record o h key v h' key' = o h' key' := by
  by_cases hh : h' = h
  · subst hh
    have hkey : key' ≠ key := fun hkey => hne ⟨rfl, hkey⟩
    simp [record, hkey]
  · simp [record, hh]

theorem extends_record {h : H} {key : UInt32} (hnone : o h key = none) (v : H × Bytes) :
    Extends o (record o h key v) := by
  intro h' key' v' hv'
  rw [record_of_ne]
  · exact hv'
  · rintro ⟨rfl, rfl⟩
    rw [hnone] at hv'
    cases hv'

theorem lt_of_succ_le {c key : UInt32} (hlt : c.toNat + 1 < 2 ^ 32) (h : c + 1 ≤ key) :
    c < key := by
  rw [UInt32.lt_iff_toNat_lt]
  rw [UInt32.le_iff_toNat_le, UInt32.toNat_add, show (1 : UInt32).toNat = 1 from rfl,
    Nat.mod_eq_of_lt hlt] at h
  exact h

theorem Offering.offer (h : Offering dir o hosts) {a : H} {fname : Bytes}
    (hfits : Fits (dir.name a) fname) (hlt : (hosts a).ftcid.toNat + 1 < 2 ^ 32) :
    Offering dir (record o a (hosts a).ftcid (g, fname))
      (Function.update hosts a ((hosts a).offer g fname)) := by
  have hnone : o a (hosts a).ftcid = none := h.fresh a _ (UInt32.le_refl _)
  have hext := extends_record hnone (g, fname)
  have hctx : ∀ p, (Function.update hosts a ((hosts a).offer g fname) p).fileTransferContext =
      (hosts p).fileTransferContext := update_congr Host.fileTransferContext rfl
  refine ⟨?_, ?_, ?_⟩
  · intro p key hle
    by_cases hp : p = a
    · subst hp
      rw [Function.update_self] at hle
      have hlater : (hosts p).ftcid < key := lt_of_succ_le hlt hle
      rw [record_of_ne _ _ fun hsame => (UInt32.ne_of_lt hlater) hsame.2.symm]
      exact h.fresh p key (UInt32.le_of_lt hlater)
    · rw [Function.update_of_ne hp] at hle
      rw [record_of_ne _ _ fun hsame => hp hsame.1]
      exact h.fresh p key hle
  · intro p key q f hpending
    rw [hctx]
    by_cases hsame : p = a ∧ key = (hosts a).ftcid
    · obtain ⟨rfl, rfl⟩ := hsame
      rw [Function.update_self, Host.offer_pendingOutgoing, Function.update_self] at hpending
      cases hpending
      refine ⟨record_self _ _ _ _, ?_, hfits⟩
      rw [Option.eq_none_iff_forall_ne_some]
      intro v hc
      rw [h.context p _ v.1 v.2 hc] at hnone
      cases hnone
    · have hbefore : (hosts p).pendingOutgoing key = some (q, f) := by
        by_cases hp : p = a
        · subst hp
          rw [Function.update_self, Host.offer_pendingOutgoing,
            Function.update_of_ne fun hk => hsame ⟨rfl, hk⟩] at hpending
          exact hpending
        · rwa [Function.update_of_ne hp] at hpending
      obtain ⟨hoffer, hrest⟩ := h.pending p key q f hbefore
      exact ⟨hext _ _ _ hoffer, hrest⟩
  · intro p key q c hc
    rw [hctx] at hc
    exact hext _ _ _ (h.context p key q c hc)

/-- **A file is offered.** -/
theorem Ledger.offer (h : Ledger dir o w hosts) {a : H} {fname : Bytes}
    (hfits : Fits (dir.name a) fname) (hlt : (hosts a).ftcid.toNat + 1 < 2 ^ 32) :
    Ledger dir (record o a (hosts a).ftcid (g, fname)) w
      (Function.update hosts a ((hosts a).offer g fname)) := by
  have hnone : o a (hosts a).ftcid = none := h.offering.fresh a _ (UInt32.le_refl _)
  have hext := extends_record hnone (g, fname)
  refine ⟨h.offering.offer hfits hlt, ?_, ?_, ?_⟩
  · refine told_update (fun p => (h.told p).mono hext) ?_
    have htold := (h.told a).mono hext
    exact ⟨htold.mail, htold.shown, htold.begun⟩
  · intro p q x hx
    exact (h.backed p q x hx).mono hext (accepted_update (List.Subset.refl _))
  · refine h.settled.mono hext (accepted_update (List.Subset.refl _)) ?_ ?_
    · -- the new offer has a number that no offer had
      intro p key hpending hoffer
      by_cases hp : p = a
      · subst hp
        have hkey : key ≠ (hosts p).ftcid := by
          rintro rfl
          exact hoffer hnone
        rw [Function.update_self, Host.offer_pendingOutgoing, Function.update_of_ne hkey]
        exact hpending
      · rwa [Function.update_of_ne hp]
    · intro p q key
      exact Nat.le_of_eq (transfers_update (x := (hosts a).offer g fname) rfl rfl rfl p q key)

/-! ### Transfers -/

theorem Offering.setContext (h : Offering dir o hosts) {a : H} {key : UInt32}
    {c : BVFileTransferContext} (hpending : (hosts a).pendingOutgoing key = none)
    (hoffer : o a key = some (g, c.fname)) :
    Offering dir o (Function.update hosts a ((hosts a).setContext key (g, c))) := by
  refine ⟨?_, ?_, ?_⟩
  · intro p k hk
    rw [update_congr Host.ftcid (by rfl)] at hk
    exact h.fresh p k hk
  · intro p k q f hp
    rw [update_congr Host.pendingOutgoing (by rfl)] at hp
    obtain ⟨ho, hnone, hfits⟩ := h.pending p k q f hp
    refine ⟨ho, ?_, hfits⟩
    by_cases hpa : p = a
    · subst hpa
      have hk : k ≠ key := by
        rintro rfl
        rw [hpending] at hp
        cases hp
      rw [Function.update_self, Host.setContext_of_ne hk]
      exact hnone
    · rwa [Function.update_of_ne hpa]
  · intro p k q d hd
    by_cases hp : p = a
    · subst hp
      rw [Function.update_self] at hd
      by_cases hk : k = key
      · subst hk
        rw [Host.setContext_self] at hd
        cases hd
        exact hoffer
      · rw [Host.setContext_of_ne hk] at hd
        exact h.context p k q d hd
    · rw [Function.update_of_ne hp] at hd
      exact h.context p k q d hd

theorem Ledger.context (h : Ledger dir o w hosts) {a : H} {key : UInt32}
    {c c' : BVFileTransferContext} (hc : (hosts a).fileTransferContext key = some (g, c))
    (hfname : c'.fname = c.fname)
    (hle : ∀ q r k,
      transfers w' (Function.update hosts a ((hosts a).setContext key (g, c'))) q r k ≤
      transfers w hosts q r k)
    (hbacked : ∀ q r x, x ∈ w' (q, r) → Backed dir o hosts q r x) :
    Ledger dir o w' (Function.update hosts a ((hosts a).setContext key (g, c'))) := by
  have hpending : (hosts a).pendingOutgoing key = none := by
    rw [Option.eq_none_iff_forall_ne_some]
    rintro ⟨q, f⟩ hpending
    rw [(h.offering.pending a key q f hpending).2.1] at hc
    cases hc
  have hoffer : o a key = some (g, c'.fname) := by
    rw [hfname]
    exact h.offering.context a key g c hc
  refine ⟨h.offering.setContext hpending hoffer, ?_, ?_, ?_⟩
  · exact told_update h.told ⟨(h.told a).mail, (h.told a).shown, (h.told a).begun⟩
  · intro q r x hx
    exact (hbacked q r x hx).mono (.refl o) (accepted_update (List.Subset.refl _))
  · refine h.settled.mono (.refl o) (accepted_update (List.Subset.refl _)) ?_ hle
    intro p k hnone _
    rw [update_congr Host.pendingOutgoing (by rfl)]
    exact hnone

theorem waiting_setContext {key : UInt32} {c' : BVFileTransferContext}
    (hstate : c'.state = .ongoing)
    (x : Host H) (g q : H) (k : UInt32) :
    waiting (x.setContext key (g, c')) q k = if k = key then 0 else waiting x q k := by
  by_cases hk : k = key
  · subst hk
    simp [waiting, hstate]
  · rw [waiting, Host.setContext_of_ne hk, if_neg hk, waiting]

/-- The count after a turn of a worker, its own stage apart. -/
theorem transfers_setContext {a : H} {key : UInt32} {c' : BVFileTransferContext}
    (hstate : c'.state = .ongoing) (q r : H) (k : UInt32) :
    transfers w' (Function.update hosts a ((hosts a).setContext key (g, c'))) q r k =
      (if r = a ∧ k = key then 0 else waiting (hosts r) q k) + (w' (q, r)).countP (isBegin k) +
        (hosts q).mailbox.countP (isBeginEvent r k) +
        (hosts q).begun.countP fun x => x.peer = r ∧ x.key = k := by
  rw [transfers, update_congr Host.mailbox (by rfl), update_congr Host.begun (by rfl)]
  by_cases hr : r = a
  · subst hr
    rw [Function.update_self, waiting_setContext hstate]
    simp
  · rw [Function.update_of_ne hr, if_neg fun h => hr h.1]

/-- **A turn of a worker** that does not write a BEGIN. -/
theorem Ledger.work (h : Ledger dir o w hosts) {a : H} {key : UInt32} {c c' : BVFileTransferContext}
    (hc : (hosts a).fileTransferContext key = some (g, c)) (hfname : c'.fname = c.fname)
    (hstate : c'.state = .ongoing) :
    Ledger dir o w (Function.update hosts a ((hosts a).setContext key (g, c'))) := by
  refine h.context hc hfname ?_ h.backed
  intro q r k
  rw [transfers_setContext hstate, transfers]
  split <;> omega

/-- **A worker writes its BEGIN.** -/
theorem Ledger.begin_ (h : Ledger dir o w hosts) {a : H} {key : UInt32}
    {c c' : BVFileTransferContext} (hc : (hosts a).fileTransferContext key = some (g, c))
    (hfirst : c.state = .firstChunk) (hfname : c'.fname = c.fname) (hstate : c'.state = .ongoing)
    {f : FileFrame} (hbacked : Backed dir o hosts g a (.worker key f)) :
    Ledger dir o (Function.update w (g, a) (w (g, a) ++ [.worker key f]))
      (Function.update hosts a ((hosts a).setContext key (g, c'))) := by
  refine h.context hc hfname ?_ ?_
  · intro q r k
    rw [transfers_setContext hstate, transfers]
    by_cases hl : (q, r) = (g, a)
    · obtain ⟨rfl, rfl⟩ := Prod.mk.inj hl
      rw [Function.update_self, List.countP_append, List.countP_singleton]
      by_cases hk : k = key
      · -- from the worker to the wire
        subst hk
        have hone : waiting (hosts r) q k = 1 := by
          rw [waiting, hc]
          exact if_pos ⟨rfl, hfirst⟩
        rw [if_pos ⟨rfl, rfl⟩, hone]
        split <;> omega
      · have hnot : isBegin k (.worker key f) = false := by
          simp [isBegin, Ne.symm hk]
        rw [if_neg fun hsame => hk hsame.2, hnot]
        simp
    · rw [Function.update_of_ne hl]
      split <;> omega
  · intro q r x hx
    by_cases hl : (q, r) = (g, a)
    · obtain ⟨rfl, rfl⟩ := Prod.mk.inj hl
      rw [Function.update_self] at hx
      rcases List.mem_append.mp hx with hx | hx
      · exact h.backed q r x hx
      · rw [List.mem_singleton.mp hx]
        exact hbacked
    · rw [Function.update_of_ne hl] at hx
      exact h.backed q r x hx

/-! ### Verdicts -/

theorem Ledger.settle (h : Ledger dir o w hosts) (g : H) (key : UInt32) :
    Ledger dir o w (Function.update hosts g ((hosts g).erasePending key)) := by
  have hsub : ∀ p k v,
      (Function.update hosts g ((hosts g).erasePending key) p).pendingOutgoing k = some v →
        (hosts p).pendingOutgoing k = some v := by
    intro p k v hv
    by_cases hp : p = g
    · subst hp
      rw [Function.update_self, Host.erasePending] at hv
      by_cases hk : k = key
      · subst hk
        simp at hv
      · simpa [Function.update_of_ne hk] using hv
    · rwa [Function.update_of_ne hp] at hv
  refine ⟨⟨?_, ?_, ?_⟩, ?_, ?_, ?_⟩
  · intro p k hk
    rw [update_congr Host.ftcid (by rfl)] at hk
    exact h.offering.fresh p k hk
  · intro p k q f hpending
    rw [update_congr Host.fileTransferContext (by rfl)]
    exact h.offering.pending p k q f (hsub p k _ hpending)
  · intro p k q c hc
    rw [update_congr Host.fileTransferContext (by rfl)] at hc
    exact h.offering.context p k q c hc
  · exact told_update h.told ⟨(h.told g).mail, (h.told g).shown, (h.told g).begun⟩
  · intro q r x hx
    exact (h.backed q r x hx).mono (.refl o) (accepted_update (List.Subset.refl _))
  · refine h.settled.mono (.refl o) (accepted_update (List.Subset.refl _)) ?_ ?_
    · intro p k hpending _
      rw [Option.eq_none_iff_forall_ne_some]
      intro v hv
      rw [hsub p k v hv] at hpending
      cases hpending
    · intro q r k
      refine Nat.le_of_eq (transfers_update ?_ ?_ ?_ q r k) <;> rfl

theorem transfers_setContext_of_ne {a : H} {key : UInt32} {c : BVFileTransferContext} {p : H}
    {k : UInt32} (hne : ¬ (p = a ∧ k = key)) (r : H) :
    transfers w (Function.update hosts a ((hosts a).setContext key (g, c))) r p k =
      transfers w hosts r p k := by
  have hctx : (Function.update hosts a ((hosts a).setContext key (g, c)) p).fileTransferContext k =
      (hosts p).fileTransferContext k := by
    by_cases hp : p = a
    · subst hp
      rw [Function.update_self, Host.setContext_of_ne fun hk => hne ⟨rfl, hk⟩]
    · rw [Function.update_of_ne hp]
  rw [transfers, transfers, update_congr Host.mailbox (by rfl), update_congr Host.begun (by rfl),
    waiting, waiting, hctx]

/-- A transfer that was not counted is counted at most once when it is set up, for its receiver. -/
theorem transfers_setContext_le {a : H} {key : UInt32} (c : BVFileTransferContext) {r : H}
    (hzero : transfers w hosts r a key = 0) :
    transfers w (Function.update hosts a ((hosts a).setContext key (g, c))) r a key ≤
      if r = g then 1 else 0 := by
  rw [transfers] at hzero
  rw [transfers, update_congr Host.mailbox (by rfl), update_congr Host.begun (by rfl),
    Function.update_self, waiting, Host.setContext_self]
  dsimp only
  by_cases hr : r = g
  · rw [if_pos hr]
    split <;> omega
  · rw [if_neg hr, if_neg fun hg => hr hg.1.symm]
    omega

/-- A transfer that is not counted anywhere is set up, for an accepted offer. -/
theorem Ledger.start (h : Ledger dir o w hosts) {a : H} {key : UInt32} {c : BVFileTransferContext}
    (hpending : (hosts a).pendingOutgoing key = none) (hoffer : o a key = some (g, c.fname))
    (haccepted : ⟨a, key, dir.name a, c.fname⟩ ∈ (hosts g).accepted)
    (hzero : ∀ r, transfers w hosts r a key = 0) :
    Ledger dir o w (Function.update hosts a ((hosts a).setContext key (g, c))) := by
  refine ⟨h.offering.setContext hpending hoffer, ?_, ?_, ⟨?_, ?_⟩⟩
  · exact told_update h.told ⟨(h.told a).mail, (h.told a).shown, (h.told a).begun⟩
  · intro r p x hx
    exact (h.backed r p x hx).mono (.refl o) (accepted_update (List.Subset.refl _))
  · intro r p k hpos
    rw [update_congr Host.pendingOutgoing (by rfl), update_congr Host.accepted (by rfl)]
    by_cases hsame : p = a ∧ k = key
    · obtain ⟨rfl, rfl⟩ := hsame
      have hle := transfers_setContext_le (g := g) c (hzero r)
      by_cases hr : r = g
      · subst hr
        exact ⟨hpending, c.fname, hoffer, haccepted⟩
      · rw [if_neg hr] at hle
        omega
    · rw [transfers_setContext_of_ne hsame] at hpos
      exact h.settled.spent r p k hpos
  · intro r p k
    by_cases hsame : p = a ∧ k = key
    · obtain ⟨rfl, rfl⟩ := hsame
      have hle := transfers_setContext_le (g := g) c (hzero r)
      split at hle <;> omega
    · rw [transfers_setContext_of_ne hsame]
      exact h.settled.once r p k

/-- **A verdict on an offer.** -/
theorem Ledger.signal (h : Ledger dir o w hosts) {key : UInt32} {accept : Bool}
    (hverdict : accept = true → ∃ fname, o g key = some (p, fname) ∧
      ⟨g, key, dir.name g, fname⟩ ∈ (hosts p).accepted) (file : Option Bytes) :
    Ledger dir o w (Function.update hosts g
      ((hosts g).signalFileTransfer (dir.name g) file key accept)) := by
  have hsettled := h.settle g key
  rcases (hosts g).signalFileTransfer_cases (dir.name g) file key accept with heq | heq |
    ⟨q, fname, content, hpending, rfl, heq⟩
  · rw [heq, Function.update_eq_self]
    exact h
  · rw [heq]
    exact hsettled
  · obtain ⟨hoffer, -, -⟩ := h.offering.pending g key q fname hpending
    obtain ⟨fname', hoffer', hmem⟩ := hverdict rfl
    obtain ⟨rfl, rfl⟩ : q = p ∧ fname = fname' := by
      rw [hoffer] at hoffer'
      exact Prod.mk.inj (Option.some.inj hoffer')
    -- a pending offer has not been counted
    have hzero : ∀ r, transfers w (Function.update hosts g ((hosts g).erasePending key)) r g key =
        0 := by
      intro r
      rw [transfers_update (x := (hosts g).erasePending key) rfl rfl rfl]
      by_contra hne
      obtain ⟨hnone, -⟩ := h.settled.spent r g key (Nat.pos_of_ne_zero hne)
      rw [hpending] at hnone
      cases hnone
    have hstart := hsettled.start (c := .construct content fname (dir.name g) key)
      (by rw [Function.update_self]; exact Function.update_self _ _ _) hoffer
      (by rw [update_congr Host.accepted (by rfl)]; exact hmem) hzero
    rw [Function.update_self, Function.update_idem] at hstart
    rw [heq]
    exact hstart

/-! ### Mail -/

/-- **A frame becomes an event.**  A BEGIN event comes from a BEGIN frame. -/
theorem Ledger.mail (h : Ledger dir o w hosts) {x : Written UInt32} {rest : List (Written UInt32)}
    (hx : w (g, p) = x :: rest) {e : AppEvent} (htruth : Truthful dir o g p e)
    (hbegin : ∀ q key, isBeginEvent q key (p, e) = true → q = p ∧ isBegin key x = true) :
    Ledger dir o (Function.update w (g, p) rest)
      (Function.update hosts g { hosts g with mailbox := (hosts g).mailbox ++ [(p, e)] }) := by
  refine ⟨h.offering.update rfl rfl rfl, ?_, ?_, ?_⟩
  · refine told_update h.told ⟨?_, (h.told g).shown, (h.told g).begun⟩
    intro q e' he'
    rcases List.mem_append.mp he' with he' | he'
    · exact (h.told g).mail q e' he'
    · cases List.mem_singleton.mp he'
      exact htruth
  · intro q r y hy
    exact ((h.take hx).backed q r y hy).mono (.refl o) (accepted_update (List.Subset.refl _))
  · refine h.settled.mono (.refl o) (accepted_update (List.Subset.refl _)) ?_ ?_
    · intro q key hnone _
      rwa [update_congr Host.pendingOutgoing (by rfl)]
    · intro q r key
      rw [transfers, transfers, update_congr Host.begun (by rfl),
        update_congr (fun x => waiting x q key) (waiting_congr (by rfl) q key)]
      by_cases hq : q = g
      · subst hq
        rw [Function.update_self]
        dsimp only
        rw [List.countP_append, List.countP_singleton]
        by_cases hr : r = p
        · -- from the wire to the mailbox
          subst hr
          rw [Function.update_self, hx, List.countP_cons]
          split
          · rename_i hmail
            rw [if_pos (hbegin r key hmail).2]
            omega
          · omega
        · have hnot : ¬ isBeginEvent r key (p, e) = true := fun hmail => hr (hbegin r key hmail).1
          rw [if_neg hnot, Function.update_of_ne fun hl => hr (Prod.mk.inj hl).2]
          omega
      · rw [Function.update_of_ne hq, Function.update_of_ne fun hl => hq (Prod.mk.inj hl).1]

theorem opened_countP_le (r p : H) (key : UInt32) (e : AppEvent) (st : BVStatus) :
    (Host.opened p e st).countP (fun x => x.peer = r ∧ x.key = key) ≤
      if isBeginEvent r key (p, e) then 1 else 0 := by
  unfold Host.opened
  split
  · simp [isBeginEvent, List.countP_singleton]
  · simp

/-- **An event is handled.**  The BEGIN events there were are now opened files. -/
theorem Ledger.listen (h : Ledger dir o w hosts) (g : H) (flt : Faults) :
    Ledger dir o w (Function.update hosts g ((hosts g).listen flt)) := by
  have hpending : ((hosts g).listen flt).pendingOutgoing = (hosts g).pendingOutgoing := by
    rw [Host.listen]; split <;> rfl
  have hctx : ((hosts g).listen flt).fileTransferContext = (hosts g).fileTransferContext := by
    rw [Host.listen]; split <;> rfl
  have hftcid : ((hosts g).listen flt).ftcid = (hosts g).ftcid := by
    rw [Host.listen]; split <;> rfl
  have hacc : (hosts g).accepted ⊆ ((hosts g).listen flt).accepted := by
    rw [Host.listen]; split <;> exact List.Subset.refl _
  refine ⟨h.offering.update hftcid hpending hctx,
    told_update h.told ((h.told g).listen flt), ?_, ?_⟩
  · intro q r x hx
    exact (h.backed q r x hx).mono (.refl o) (accepted_update hacc)
  · refine h.settled.mono (.refl o) (accepted_update hacc) ?_ ?_
    · intro q key hnone _
      rwa [update_congr Host.pendingOutgoing hpending]
    · intro q r key
      rw [transfers, transfers, update_congr (fun x => waiting x q key) (waiting_congr hctx q key)]
      by_cases hq : q = g
      · subst hq
        rw [Function.update_self, Host.listen]
        split
        · -- from the mailbox to the file
          rename_i p e rest hlistening hbox
          have hle := opened_countP_le r p key e ((hosts q).app.handle flt e).1
          dsimp only
          rw [hbox, List.countP_cons, List.countP_append]
          omega
        · exact Nat.le_refl _
      · rw [Function.update_of_ne hq]

/-! ### Keys -/

/-- **A key is pressed.** -/
theorem Ledger.onKey (h : Ledger dir o w hosts) (g : H) (c : UInt8) :
    Ledger dir o w (Function.update hosts g ((hosts g).onKey c).2) := by
  have htold := told_update h.told ((h.told g).onKey c)
  obtain ⟨answer, shown, uiState, noted, heq, -⟩ := (hosts g).onKey_cases c
  have hacc : (hosts g).accepted ⊆ ((hosts g).onKey c).2.accepted := by
    rw [heq]
    exact List.subset_append_left _ _
  rw [heq] at htold hacc ⊢
  refine ⟨h.offering.update rfl rfl rfl, htold, ?_, ?_⟩
  · intro q r x hx
    exact (h.backed q r x hx).mono (.refl o) (accepted_update hacc)
  · refine h.settled.mono (.refl o) (accepted_update hacc) ?_ ?_
    · intro q key hnone _
      rwa [update_congr Host.pendingOutgoing (by rfl)]
    · intro q r key
      refine Nat.le_of_eq (transfers_update ?_ ?_ ?_ q r key) <;> rfl

/-- The answer to an offer goes to the host that made it, and an acceptance has been noted. -/
theorem Ledger.answer (h : Ledger dir o w hosts) {c : UInt8} {offer : PendingOffer} {accept : Bool}
    (hkey : ((hosts g).onKey c).1 = some (offer, accept)) : ∃ p, dir.session offer.sender = some p ∧
      ∀ now, Backed dir o (Function.update hosts g ((hosts g).onKey c).2) p g
        (.io (.verdict now offer.key accept)) := by
  obtain ⟨answer, shown, uiState, noted, heq, hcases⟩ := (hosts g).onKey_cases c
  rw [heq] at hkey ⊢
  rcases hcases with ⟨rfl, -, -⟩ | ⟨offer', accept', rfl, hshown, -, rfl⟩
  · cases hkey
  · obtain ⟨rfl, rfl⟩ := Prod.mk.inj (Option.some.inj hkey)
    obtain ⟨p, hon, hsender, hledger⟩ := (h.told g).shown offer' hshown
    refine ⟨p, by rw [hsender]; exact dir.session_name p, ?_⟩
    intro now haccept
    refine ⟨offer'.fname, hledger, ?_⟩
    rw [Function.update_self]
    refine List.mem_append_right _ ?_
    subst haccept
    simp [Host.acceptance, hon, hsender]

end Network

end LocalChat
