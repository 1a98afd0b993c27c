import LocalChat.Network.Ledger

/-!
# From an offer to its acceptance

An offer is a question to the user of another host.  It travels as an OFFER frame, waits in the
mailbox, is shown, and comes back as a verdict; an offer that is shown while another one is shown
takes its place, and nobody answers that one any more.

* `Asked`: a question is in at most one of these places, and as long as it is in one of them the
  offer is pending at the host that made it.
* `Pursued`: so what a user has accepted is still on its way back, or its transfer is in one of the
  stages that `transfers` counts.

The first is kept by every step that the contract allows.  For the second the sender has to find the
offered file when the acceptance comes in.
-/

namespace LocalChat

open Octets

namespace Network

variable {H : Type} [DecidableEq H]

/-! ### Frames on their way -/

variable {w : H × H → List (Written UInt32)}

theorem countP_write (w : H × H → List (Written UInt32)) (l l' : H × H) (x : Written UInt32)
    (P : Written UInt32 → Bool) :
    (Function.update w l (w l ++ [x]) l').countP P =
      (w l').countP P + if l' = l ∧ P x then 1 else 0 := by
  by_cases hl : l' = l
  · subst hl
    rw [Function.update_self, List.countP_append, List.countP_singleton]
    simp only [true_and]
  · rw [Function.update_of_ne hl, if_neg fun h => hl h.1, Nat.add_zero]

theorem countP_take {l : H × H} {x : Written UInt32} {rest : List (Written UInt32)}
    (hx : w l = x :: rest) (l' : H × H) (P : Written UInt32 → Bool) :
    (w l').countP P =
      (Function.update w l rest l').countP P + if l' = l ∧ P x then 1 else 0 := by
  by_cases hl : l' = l
  · subst hl
    rw [Function.update_self, hx, List.countP_cons]
    simp only [true_and]
  · rw [Function.update_of_ne hl, if_neg fun h => hl h.1, Nat.add_zero]

/-! ### Questions -/

def isOffer (key : UInt32) : Written UInt32 → Bool
  | .io (.offer _ _ k _ _) => k = key
  | _ => false

def isVerdict (key : UInt32) : Written UInt32 → Bool
  | .io (.verdict _ k _) => k = key
  | _ => false

def isOfferEvent (p : H) (key : UInt32) : H × AppEvent → Bool
  | (q, .fileOffer d) => q = p ∧ d.correlationKey = key
  | _ => false

def shown (x : Host H) (p : H) (key : UInt32) : Nat :=
  match x.app.pendingOffer with
  | some offer => if x.offeredOn = some p ∧ offer.key = key then 1 else 0
  | none => 0

theorem shown_of_none {x : Host H} (h : x.app.pendingOffer = none) (p : H) (key : UInt32) :
    shown x p key = 0 := by
  rw [shown, h]

def questions (w : H × H → List (Written UInt32)) (hosts : H → Host H) (g p : H) (key : UInt32) :
    Nat :=
  (w (g, p)).countP (isOffer key) + (hosts g).mailbox.countP (isOfferEvent p key) +
    shown (hosts g) p key + (w (p, g)).countP (isVerdict key)

/-- What the frame `x` on the session `l` adds to the count. -/
def asks (l : H × H) (g p : H) (key : UInt32) (x : Written UInt32) : Nat :=
  (if (g, p) = l ∧ isOffer key x then 1 else 0) + if (p, g) = l ∧ isVerdict key x then 1 else 0

/-- A question is in one place, and the host that asks has not forgotten it. -/
structure Asked (w : H × H → List (Written UInt32)) (hosts : H → Host H) : Prop where
  pending : ∀ g p key, 0 < questions w hosts g p key →
    ∃ fname, (hosts p).pendingOutgoing key = some (g, fname)
  once : ∀ g p key, questions w hosts g p key ≤ 1

variable {w' : H × H → List (Written UInt32)} {hosts hosts' : H → Host H} {g p : H}

theorem questions_update {a : H} {x : Host H} (hmail : x.mailbox = (hosts a).mailbox)
    (hshown : ∀ p key, shown x p key = shown (hosts a) p key) (g p : H) (key : UInt32) :
    questions w (Function.update hosts a x) g p key = questions w hosts g p key := by
  rw [questions, questions, update_congr Host.mailbox hmail,
    update_congr (fun x => shown x p key) (hshown p key)]

theorem asks_le_one (l : H × H) (g p : H) (key : UInt32) (x : Written UInt32) :
    asks l g p key x ≤ 1 := by
  have hnot : isOffer key x = true → isVerdict key x = false := by
    intro h
    cases x with
    | io f =>
      cases f with
      | chat now text => rfl
      | offer now serviceName k fsize fname => rfl
      | verdict now k accept => cases h
    | worker k f => rfl
  unfold asks
  by_cases hoffer : isOffer key x = true
  · simp only [hnot hoffer, Bool.false_eq_true, and_false, if_false]
    split <;> omega
  · rw [if_neg fun h => hoffer h.2]
    split <;> omega

theorem questions_write (w : H × H → List (Written UInt32)) (l : H × H) (x : Written UInt32)
    (g p : H) (key : UInt32) :
    questions (Function.update w l (w l ++ [x])) hosts g p key =
      questions w hosts g p key + asks l g p key x := by
  rw [questions, questions, countP_write, countP_write, asks]
  omega

theorem questions_take (hosts : H → Host H) {l : H × H} {x : Written UInt32}
    {rest : List (Written UInt32)}
    (hx : w l = x :: rest) (g p : H) (key : UInt32) :
    questions w hosts g p key =
      questions (Function.update w l rest) hosts g p key + asks l g p key x := by
  rw [questions, questions, countP_take hx, countP_take hx (p, g), asks]
  omega

/-- No new question is counted, and what is pending stays so. -/
theorem Asked.mono (h : Asked w hosts)
    (hpending : ∀ p key v, (hosts p).pendingOutgoing key = some v →
      (hosts' p).pendingOutgoing key = some v)
    (hle : ∀ g p key, questions w' hosts' g p key ≤ questions w hosts g p key) :
    Asked w' hosts' where
  pending := by
    intro g p key hpos
    obtain ⟨fname, hp⟩ := h.pending g p key (Nat.lt_of_lt_of_le hpos (hle g p key))
    exact ⟨fname, hpending p key _ hp⟩
  once := fun g p key => (hle g p key).trans (h.once g p key)

/-- A frame is written; a question that it carries was in no place, and its offer is pending. -/
theorem Asked.write (h : Asked w hosts) {l : H × H} {x : Written UInt32}
    (hx : ∀ g p key, 0 < asks l g p key x → questions w hosts g p key = 0 ∧
      ∃ fname, (hosts p).pendingOutgoing key = some (g, fname)) :
    Asked (Function.update w l (w l ++ [x])) hosts where
  pending := by
    intro g p key hpos
    rw [questions_write] at hpos
    by_cases hasks : 0 < asks l g p key x
    · exact (hx g p key hasks).2
    · apply h.pending
      omega
  once := by
    intro g p key
    rw [questions_write]
    by_cases hasks : 0 < asks l g p key x
    · rw [(hx g p key hasks).1, Nat.zero_add]
      exact asks_le_one l g p key x
    · have hone := h.once g p key
      omega

theorem Asked.write_of_asks (h : Asked w hosts) {l : H × H} {x : Written UInt32}
    (hx : ∀ g p key, asks l g p key x = 0) :
    Asked (Function.update w l (w l ++ [x])) hosts := by
  apply h.write
  intro g p key hpos
  rw [hx] at hpos
  exact absurd hpos (Nat.lt_irrefl 0)

/-! ### What the hosts do to the questions -/

theorem Asked.update (h : Asked w hosts) {a : H} {x : Host H}
    (hpending : x.pendingOutgoing = (hosts a).pendingOutgoing)
    (hmail : x.mailbox = (hosts a).mailbox)
    (hshown : ∀ p key, shown x p key = shown (hosts a) p key) :
    Asked w (Function.update hosts a x) := by
  refine h.mono ?_ ?_
  · intro p key v hv
    rw [update_congr Host.pendingOutgoing hpending]
    exact hv
  · intro g p key
    exact Nat.le_of_eq (questions_update hmail hshown g p key)

/-- **A file is offered.**  The offer has a number that no other offer had. -/
theorem Asked.offer {dir : Directory H} {o : Offers H} (h : Asked w hosts)
    (hl : Offering dir o hosts) (g a : H) (fname serviceName : Bytes) (now : UInt64)
    (fsize : UInt32) :
    Asked (Function.update w (g, a) (w (g, a) ++
        [.io (.offer now serviceName (hosts a).ftcid fsize fname)]))
      (Function.update hosts a ((hosts a).offer g fname)) := by
  have hsame : ∀ q r key, questions w (Function.update hosts a ((hosts a).offer g fname)) q r key =
      questions w hosts q r key := questions_update rfl fun _ _ => rfl
  have hnew : ∀ q, questions w hosts q a (hosts a).ftcid = 0 := by
    intro q
    by_contra hne
    obtain ⟨f, hpending⟩ := h.pending q a _ (Nat.pos_of_ne_zero hne)
    have hnone := hl.fresh a _ (UInt32.le_refl _)
    rw [(hl.pending a _ q f hpending).1] at hnone
    cases hnone
  have hasked : Asked w (Function.update hosts a ((hosts a).offer g fname)) := by
    refine ⟨?_, fun q p key => (hsame q p key).trans_le (h.once q p key)⟩
    intro q p key hpos
    rw [hsame] at hpos
    obtain ⟨f, hpending⟩ := h.pending q p key hpos
    refine ⟨f, ?_⟩
    by_cases hp : p = a
    · subst hp
      have hkey : key ≠ (hosts p).ftcid := by
        rintro rfl
        rw [hnew] at hpos
        cases hpos
      rw [Function.update_self, Host.offer_pendingOutgoing, Function.update_of_ne hkey]
      exact hpending
    · rw [Function.update_of_ne hp]
      exact hpending
  apply hasked.write
  intro q p key hpos
  obtain ⟨hl', rfl⟩ : (q, p) = (g, a) ∧ (hosts a).ftcid = key := by
    simp only [asks, isOffer, isVerdict, Bool.false_eq_true, and_false, if_false, Nat.add_zero,
      decide_eq_true_eq] at hpos
    by_contra hne
    rw [if_neg hne] at hpos
    cases hpos
  obtain ⟨rfl, rfl⟩ := Prod.mk.inj hl'
  refine ⟨(hsame _ _ _).trans (hnew q), fname, ?_⟩
  rw [Function.update_self, Host.offer_pendingOutgoing, Function.update_self]

/-- A frame is taken, and what it told is not in the mailbox twice. -/
theorem Asked.mail (h : Asked w hosts) {x : Written UInt32} {rest : List (Written UInt32)}
    (hx : w (g, p) = x :: rest) {e : AppEvent}
    (he : ∀ q key, isOfferEvent q key (p, e) = true → q = p ∧ isOffer key x = true) :
    Asked (Function.update w (g, p) rest)
      (Function.update hosts g { hosts g with mailbox := (hosts g).mailbox ++ [(p, e)] }) := by
  refine h.mono ?_ ?_
  · intro q key v hv
    rw [update_congr Host.pendingOutgoing (by rfl)]
    exact hv
  · intro q r key
    rw [questions_take hosts hx, questions, questions,
      update_congr (fun x => shown x r key) (by rfl), asks]
    by_cases hq : q = g
    · subst hq
      rw [Function.update_self]
      dsimp only
      rw [List.countP_append, List.countP_singleton]
      by_cases hmail : isOfferEvent r key (p, e) = true
      · obtain ⟨rfl, hoffer⟩ := he r key hmail
        rw [if_pos hmail, if_pos (⟨rfl, hoffer⟩ : (q, r) = (q, r) ∧ isOffer key x = true)]
        omega
      · rw [if_neg hmail]
        omega
    · rw [Function.update_of_ne hq]
      omega

/-- The offer that a verdict is about is pending. -/
theorem Asked.pending_of_verdict (h : Asked w hosts) {now : UInt64} {key : UInt32} {accept : Bool}
    {rest : List (Written UInt32)} (hx : w (g, p) = .io (.verdict now key accept) :: rest) :
    ∃ fname, (hosts g).pendingOutgoing key = some (p, fname) := by
  apply h.pending p g key
  rw [questions_take hosts hx]
  simp [asks, isOffer, isVerdict]

/-- **A verdict comes back.**  It was the only place of its question, and the offer is no longer
pending. -/
theorem Asked.verdict (h : Asked w hosts) {now : UInt64} {key : UInt32} {accept : Bool}
    {rest : List (Written UInt32)} (hx : w (g, p) = .io (.verdict now key accept) :: rest)
    (name : Bytes) (file : Option Bytes) :
    Asked (Function.update w (g, p) rest)
      (Function.update hosts g ((hosts g).signalFileTransfer name file key accept)) := by
  have hasks : asks (g, p) p g key (.io (.verdict now key accept)) = 1 := by
    simp [asks, isOffer, isVerdict]
  have hbefore := questions_take hosts hx p g key
  rw [hasks] at hbefore
  have hone := h.once p g key
  -- the question had no other place and no other host to answer it
  have hzero : ∀ q, questions (Function.update w (g, p) rest) hosts q g key = 0 := by
    intro q
    by_contra hne
    have hpos : 0 < questions w hosts q g key := by
      rw [questions_take hosts hx]
      omega
    obtain ⟨f, hpending⟩ := h.pending q g key hpos
    obtain ⟨f', hpending'⟩ := h.pending_of_verdict hx
    rw [hpending'] at hpending
    cases hpending
    omega
  have hsame : ∀ q r k, questions (Function.update w (g, p) rest)
      (Function.update hosts g ((hosts g).signalFileTransfer name file key accept)) q r k =
        questions (Function.update w (g, p) rest) hosts q r k := by
    rcases (hosts g).signalFileTransfer_cases name file key accept with heq | heq |
      ⟨_, _, _, -, -, heq⟩
    · rw [heq]
      exact questions_update rfl fun _ _ => rfl
    · rw [heq]
      exact questions_update rfl fun _ _ => rfl
    · rw [heq]
      exact questions_update rfl fun _ _ => rfl
  have hle : ∀ q r k, questions (Function.update w (g, p) rest) hosts q r k ≤
      questions w hosts q r k := by
    intro q r k
    rw [questions_take hosts hx q r k]
    exact Nat.le_add_right _ _
  refine ⟨?_, fun q r k => (hsame q r k).trans_le ((hle q r k).trans (h.once q r k))⟩
  intro q r k hpos
  rw [hsame] at hpos
  obtain ⟨f, hpending⟩ := h.pending q r k (hpos.trans_le (hle q r k))
  refine ⟨f, ?_⟩
  by_cases hr : r = g
  · subst hr
    have hk : k ≠ key := by
      rintro rfl
      rw [hzero] at hpos
      cases hpos
    rw [Function.update_self]
    rcases (hosts r).signalFileTransfer_cases name file key accept with heq | heq |
      ⟨_, _, _, -, -, heq⟩
    · rw [heq]
      exact hpending
    · rw [heq]
      exact (Function.update_of_ne hk _ _).trans hpending
    · rw [heq]
      exact (Function.update_of_ne hk _ _).trans hpending
  · rw [Function.update_of_ne hr]
    exact hpending

/-- **An event is handled.**  An offer that was shown before is shown no more. -/
theorem Asked.listen (h : Asked w hosts) (g : H) (flt : Faults) :
    Asked w (Function.update hosts g ((hosts g).listen flt)) := by
  refine h.mono ?_ ?_
  · intro p key v hv
    rw [update_congr Host.pendingOutgoing (by rw [Host.listen]; split <;> rfl)]
    exact hv
  · intro q r key
    rw [questions, questions]
    by_cases hq : q = g
    · subst hq
      rw [Function.update_self, Host.listen]
      split
      · rename_i p e rest hlistening hbox
        have hshown : shown { hosts q with
            app := ((hosts q).app.handle flt e).2
            offeredOn := Host.shownOn p (hosts q).offeredOn e } r key ≤
            shown (hosts q) r key + if isOfferEvent r key (p, e) then 1 else 0 := by
          by_cases hoffer : ∃ d, e = .fileOffer d
          · obtain ⟨d, rfl⟩ := hoffer
            simp only [shown, App.handle, App.handleFileOffer, Host.shownOn, isOfferEvent,
              Option.some.injEq, decide_eq_true_eq]
            exact Nat.le_add_left _ _
          · have hne : ∀ d, e ≠ .fileOffer d := fun d hd => hoffer ⟨d, hd⟩
            have hon : Host.shownOn p (hosts q).offeredOn e = (hosts q).offeredOn := by
              cases e with
              | fileOffer d => exact absurd rfl (hne d)
              | messageIncoming text now sender => rfl
              | fileTransferBegin d => rfl
              | fileTransferChunkSent d => rfl
              | fileTransferEnd d => rfl
            rw [hon, shown, shown]
            dsimp only
            rw [App.handle_pendingOffer flt e _ hne]
            exact Nat.le_add_right _ _
        -- from the mailbox to the screen
        rw [hbox, List.countP_cons]
        unfold shown at hshown ⊢
        dsimp only at hshown ⊢
        omega
      · exact Nat.le_refl _
    · rw [Function.update_of_ne hq]

/-- **A key is pressed.**  It leaves the shown offer or takes it away. -/
theorem Asked.onKey (h : Asked w hosts) (g : H) (c : UInt8) :
    Asked w (Function.update hosts g ((hosts g).onKey c).2) := by
  obtain ⟨answer, offer, uiState, noted, heq, hcases⟩ := (hosts g).onKey_cases c
  rw [heq]
  refine h.mono ?_ ?_
  · intro p key v hv
    rw [update_congr Host.pendingOutgoing (by rfl)]
    exact hv
  · intro q r key
    rw [questions, questions, update_congr Host.mailbox (by rfl)]
    by_cases hq : q = g
    · subst hq
      rw [Function.update_self]
      rcases hcases with ⟨-, rfl, -⟩ | ⟨_, _, -, -, rfl, -⟩
      · exact Nat.le_refl _
      · rw [shown_of_none (by rfl)]
        omega
    · rw [Function.update_of_ne hq]

/-- **An offer is answered.**  It is shown no more, and its verdict is written. -/
theorem Asked.answer {dir : Directory H} {o : Offers H} (h : Asked w hosts)
    (htold : Told dir o g (hosts g)) {c : UInt8} {offer : PendingOffer} {accept : Bool}
    (hkey : ((hosts g).onKey c).1 = some (offer, accept))
    (hsession : dir.session offer.sender = some p) (now : UInt64) :
    Asked (Function.update w (p, g) (w (p, g) ++ [.io (.verdict now offer.key accept)]))
      (Function.update hosts g ((hosts g).onKey c).2) := by
  have honKey := h.onKey g c
  obtain ⟨answer, offer', uiState, noted, heq, hcases⟩ := (hosts g).onKey_cases c
  rw [heq] at hkey
  rcases hcases with ⟨rfl, -, -⟩ | ⟨_, _, rfl, hshown, rfl, -⟩
  · cases hkey
  cases hkey
  -- the answer goes to the host that has asked
  obtain ⟨q, hon, hsender, -⟩ := htold.shown offer hshown
  obtain rfl : q = p := by
    rw [hsender, dir.session_name] at hsession
    exact Option.some.inj hsession
  have hone : shown (hosts g) q offer.key = 1 := by
    rw [shown, hshown]
    exact if_pos ⟨hon, rfl⟩
  have hcount := h.once g q offer.key
  have hpos : 0 < questions w hosts g q offer.key := by
    rw [questions]
    omega
  apply honKey.write
  intro r r' key hasks
  obtain ⟨hl, rfl⟩ : (r', r) = (q, g) ∧ offer.key = key := by
    simp only [asks, isOffer, isVerdict, Bool.false_eq_true, and_false, if_false, Nat.zero_add,
      decide_eq_true_eq] at hasks
    by_contra hne
    rw [if_neg hne] at hasks
    cases hasks
  obtain ⟨rfl, rfl⟩ := Prod.mk.inj hl
  obtain ⟨fname, hpending⟩ := h.pending r r' offer.key hpos
  refine ⟨?_, fname, ?_⟩
  · rw [questions] at hcount ⊢
    rw [update_congr Host.mailbox (by rw [heq]), Function.update_self, heq]
    rw [shown_of_none (by rfl)]
    omega
  · rw [update_congr Host.pendingOutgoing (by rw [heq])]
    exact hpending

/-! ### Acceptances -/

def isAcceptance (key : UInt32) : Written UInt32 → Bool
  | .io (.verdict _ k accept) => k = key ∧ accept
  | _ => false

/-- In how many places the offer `key` of `p` is on its way from the acceptance of `g` to the opened
file. -/
def pursuits (w : H × H → List (Written UInt32)) (hosts : H → Host H) (g p : H) (key : UInt32) :
    Nat :=
  (w (p, g)).countP (isAcceptance key) + transfers w hosts g p key

/-- Nothing that a user has accepted is forgotten, as long as the mailbox thread lives. -/
structure Pursued (dir : Directory H) (o : Offers H) (w : H × H → List (Written UInt32))
    (hosts : H → Host H) : Prop where
  named : ∀ g, ∀ r ∈ (hosts g).accepted,
    r.serviceName = dir.name r.peer ∧ o r.peer r.key = some (g, r.fname)
  pursued : ∀ g, (hosts g).listening = true → ∀ r ∈ (hosts g).accepted,
    0 < pursuits w hosts g r.peer r.key

variable {dir : Directory H} {o o' : Offers H}

/-- Nothing more is accepted, and nothing falls out of the count. -/
theorem Pursued.mono (h : Pursued dir o w hosts) (ho : Extends o o')
    (hacc : ∀ g, (hosts' g).accepted = (hosts g).accepted)
    (hlistening : ∀ g, (hosts' g).listening = true → (hosts g).listening = true)
    (hle : ∀ g p key, (hosts' g).listening = true →
      pursuits w hosts g p key ≤ pursuits w' hosts' g p key) : Pursued dir o' w' hosts' where
  named := by
    intro g r hr
    rw [hacc] at hr
    obtain ⟨hservice, hledger⟩ := h.named g r hr
    exact ⟨hservice, ho _ _ _ hledger⟩
  pursued := by
    intro g hl r hr
    rw [hacc] at hr
    exact (h.pursued g (hlistening g hl) r hr).trans_le (hle g r.peer r.key hl)

theorem pursuits_write (w : H × H → List (Written UInt32)) (l : H × H) (x : Written UInt32)
    (g p : H) (key : UInt32) :
    pursuits (Function.update w l (w l ++ [x])) hosts g p key = pursuits w hosts g p key +
      (if (p, g) = l ∧ isAcceptance key x then 1 else 0) +
      if (g, p) = l ∧ isBegin key x then 1 else 0 := by
  rw [pursuits, pursuits, transfers, transfers, countP_write, countP_write]
  omega

theorem pursuits_take (hosts : H → Host H) {l : H × H} {x : Written UInt32}
    {rest : List (Written UInt32)}
    (hx : w l = x :: rest) (g p : H) (key : UInt32) :
    pursuits w hosts g p key = pursuits (Function.update w l rest) hosts g p key +
      (if (p, g) = l ∧ isAcceptance key x then 1 else 0) +
      if (g, p) = l ∧ isBegin key x then 1 else 0 := by
  rw [pursuits, pursuits, transfers, transfers, countP_take hx, countP_take hx (g, p)]
  omega

theorem pursuits_update {a : H} {x : Host H}
    (hctx : x.fileTransferContext = (hosts a).fileTransferContext)
    (hmail : x.mailbox = (hosts a).mailbox) (hbegun : x.begun = (hosts a).begun) (g p : H)
    (key : UInt32) :
    pursuits w (Function.update hosts a x) g p key = pursuits w hosts g p key := by
  rw [pursuits, pursuits, transfers_update hctx hmail hbegun]

theorem Pursued.write (h : Pursued dir o w hosts) (l : H × H) (x : Written UInt32) :
    Pursued dir o (Function.update w l (w l ++ [x])) hosts := by
  refine h.mono (.refl o) (fun _ => rfl) (fun _ hl => hl) ?_
  intro g p key _
  rw [pursuits_write]
  omega

theorem Pursued.update (h : Pursued dir o w hosts) (ho : Extends o o') {a : H} {x : Host H}
    (hacc : x.accepted = (hosts a).accepted) (hlistening : x.listening = (hosts a).listening)
    (hctx : x.fileTransferContext = (hosts a).fileTransferContext)
    (hmail : x.mailbox = (hosts a).mailbox) (hbegun : x.begun = (hosts a).begun) :
    Pursued dir o' w (Function.update hosts a x) := by
  refine h.mono ho (update_congr Host.accepted hacc) ?_ ?_
  · intro g hl
    rwa [update_congr Host.listening hlistening] at hl
  · intro g p key _
    exact Nat.le_of_eq (pursuits_update hctx hmail hbegun g p key).symm

/-- A turn of a worker that has written its BEGIN before. -/
theorem Pursued.work (h : Pursued dir o w hosts) {a : H} {key : UInt32}
    {c c' : BVFileTransferContext} (hc : (hosts a).fileTransferContext key = some (g, c))
    (hongoing : c.state = .ongoing) (hstate : c'.state = .ongoing) :
    Pursued dir o w (Function.update hosts a ((hosts a).setContext key (g, c'))) := by
  refine h.mono (.refl o) (update_congr Host.accepted (by rfl)) ?_ ?_
  · intro q hl
    rwa [update_congr Host.listening (by rfl)] at hl
  · intro q r k _
    rw [pursuits, pursuits, transfers_setContext hstate, transfers]
    by_cases hsame : r = a ∧ k = key
    · obtain ⟨rfl, rfl⟩ := hsame
      have hzero : waiting (hosts r) q k = 0 := by
        rw [waiting, hc]
        exact if_neg fun h => by rw [hongoing] at h; cases h.2
      rw [hzero]
      omega
    · rw [if_neg hsame]

theorem Pursued.begin_ (h : Pursued dir o w hosts) {a : H} {key : UInt32}
    {c c' : BVFileTransferContext} (hc : (hosts a).fileTransferContext key = some (g, c))
    (hstate : c'.state = .ongoing) {f : FileFrame} (hf : f.handler = .fileTransferBegin) :
    Pursued dir o (Function.update w (g, a) (w (g, a) ++ [.worker key f]))
      (Function.update hosts a ((hosts a).setContext key (g, c'))) := by
  refine h.mono (.refl o) (update_congr Host.accepted (by rfl)) ?_ ?_
  · intro q hl
    rwa [update_congr Host.listening (by rfl)] at hl
  · intro q r k _
    rw [pursuits_write, pursuits, pursuits, transfers_setContext hstate, transfers]
    by_cases hsame : r = a ∧ k = key
    · obtain ⟨rfl, rfl⟩ := hsame
      rw [if_pos ⟨rfl, rfl⟩]
      by_cases hq : q = g
      · -- from the worker to the wire
        subst hq
        have hone : waiting (hosts r) q k ≤ 1 := by
          rw [waiting, hc]
          dsimp only
          split <;> omega
        have hbegin : isBegin k (.worker k f) = true := by simp [isBegin, hf]
        rw [if_pos (⟨rfl, hbegin⟩ : (q, r) = (q, r) ∧ isBegin k (.worker k f) = true)]
        omega
      · have hzero : waiting (hosts r) q k = 0 := by
          rw [waiting, hc]
          exact if_neg fun h => hq h.1.symm
        omega
    · rw [if_neg hsame]
      omega

/-- A frame becomes an event.  A BEGIN frame becomes a BEGIN event. -/
theorem Pursued.mail (h : Pursued dir o w hosts) {x : Written UInt32}
    {rest : List (Written UInt32)} (hx : w (g, p) = x :: rest) {e : AppEvent}
    (hbegin : ∀ key, isBegin key x = true → isBeginEvent p key (p, e) = true)
    (hno : ∀ key, isAcceptance key x = false) :
    Pursued dir o (Function.update w (g, p) rest)
      (Function.update hosts g { hosts g with mailbox := (hosts g).mailbox ++ [(p, e)] }) := by
  refine h.mono (.refl o) (update_congr Host.accepted (by rfl)) ?_ ?_
  · intro q hl
    rwa [update_congr Host.listening (by rfl)] at hl
  · intro q r key _
    rw [pursuits_take hosts hx, hno, pursuits, pursuits, transfers, transfers,
      update_congr Host.begun (by rfl),
      update_congr (fun x => waiting x q key) (waiting_congr (by rfl) q key)]
    by_cases hq : q = g
    · subst hq
      rw [Function.update_self (β := fun _ => Host H)]
      dsimp only
      rw [List.countP_append, List.countP_singleton]
      by_cases hb : (q, r) = (q, p) ∧ isBegin key x = true
      · obtain ⟨hl, hb⟩ := hb
        obtain ⟨-, rfl⟩ := Prod.mk.inj hl
        rw [if_pos (hbegin key hb)]
        simp only [Bool.false_eq_true, and_false, if_false, hb, and_self, if_true]
        omega
      · rw [if_neg hb]
        simp only [Bool.false_eq_true, and_false, if_false]
        omega
    · have hb : ¬ ((q, r) = (g, p) ∧ isBegin key x = true) := fun h => hq (Prod.mk.inj h.1).1
      rw [Function.update_of_ne hq, if_neg hb]
      simp only [Bool.false_eq_true, and_false, if_false]
      omega

/-- Transfer `key` to `g` is set up; there was none before. -/
theorem pursuits_setContext (w : H × H → List (Written UInt32)) (hosts : H → Host H) {a : H}
    {key : UInt32} {c : BVFileTransferContext}
    (hnone : (hosts a).fileTransferContext key = none) (hfirst : c.state = .firstChunk) (q r : H)
    (k : UInt32) :
    pursuits w hosts q r k + (if q = g ∧ r = a ∧ k = key then 1 else 0) =
      pursuits w (Function.update hosts a ((hosts a).setContext key (g, c))) q r k := by
  by_cases hsame : r = a ∧ k = key
  · obtain ⟨rfl, rfl⟩ := hsame
    have hbefore : waiting (hosts r) q k = 0 := by rw [waiting, hnone]
    have hafter : waiting ((hosts r).setContext k (g, c)) q k = if q = g then 1 else 0 := by
      rw [waiting, Host.setContext_self]
      by_cases hq : q = g
      · rw [if_pos hq]
        exact if_pos ⟨hq.symm, hfirst⟩
      · rw [if_neg hq]
        exact if_neg fun h => hq h.1.symm
    rw [pursuits, pursuits, transfers, transfers, update_congr Host.mailbox (by rfl),
      update_congr Host.begun (by rfl), Function.update_self, hbefore, hafter]
    simp only [and_true]
    omega
  · rw [pursuits, pursuits, transfers_setContext_of_ne hsame, if_neg fun h => hsame h.2,
      Nat.add_zero]

/-- **A verdict comes back**, and the offered file is found. -/
theorem Pursued.verdict (h : Pursued dir o w hosts) (hl : Offering dir o hosts)
    (hasked : Asked w hosts) {now : UInt64} {key : UInt32} {accept : Bool}
    {rest : List (Written UInt32)} (hx : w (g, p) = .io (.verdict now key accept) :: rest)
    (content : Bytes) :
    Pursued dir o (Function.update w (g, p) rest) (Function.update hosts g
      ((hosts g).signalFileTransfer (dir.name g) (some content) key accept)) := by
  obtain ⟨fname, hpending⟩ := hasked.pending_of_verdict hx
  have herase : ∀ q r k, pursuits (Function.update w (g, p) rest)
      (Function.update hosts g ((hosts g).erasePending key)) q r k =
        pursuits (Function.update w (g, p) rest) hosts q r k :=
    pursuits_update rfl rfl rfl
  have hlost : ∀ q r k, pursuits w hosts q r k =
      pursuits (Function.update w (g, p) rest) hosts q r k +
        if (r, q) = (g, p) ∧ key = k ∧ accept = true then 1 else 0 := by
    intro q r k
    rw [pursuits_take hosts hx]
    simp [isAcceptance, isBegin]
  rw [Host.signalFileTransfer, hpending]
  cases accept with
  | false =>
    refine h.mono (.refl o) (update_congr Host.accepted (by rfl)) ?_ ?_
    · intro q hlistening
      rwa [update_congr Host.listening (by rfl)] at hlistening
    · intro q r k _
      rw [hlost]
      simp only [Bool.false_eq_true, and_false, if_false, Nat.add_zero]
      exact Nat.le_of_eq (herase q r k).symm
  | true =>
    refine h.mono (.refl o) (update_congr Host.accepted (by rfl)) ?_ ?_
    · intro q hlistening
      rwa [update_congr Host.listening (by rfl)] at hlistening
    · -- from the wire to the worker
      intro q r k _
      have hset := pursuits_setContext (Function.update w (g, p) rest)
        (Function.update hosts g ((hosts g).erasePending key)) (a := g) (g := p)
        (c := .construct content fname (dir.name g) key)
        (by rw [Function.update_self]; exact (hl.pending g key p fname hpending).2.1) rfl q r k
      rw [herase, Function.update_self, Function.update_idem] at hset
      refine Nat.le_of_eq (Eq.trans ?_ hset)
      rw [hlost]
      congr 1
      by_cases hsame : q = p ∧ r = g ∧ k = key
      · obtain ⟨rfl, rfl, rfl⟩ := hsame
        simp
      · rw [if_neg hsame, if_neg]
        rintro ⟨hl, rfl, -⟩
        obtain ⟨rfl, rfl⟩ := Prod.mk.inj hl
        exact hsame ⟨rfl, rfl, rfl⟩

theorem opened_countP_of_ok (r p : H) (key : UInt32) (e : AppEvent) :
    (Host.opened p e .ok).countP (fun x => x.peer = r ∧ x.key = key) =
      if isBeginEvent r key (p, e) then 1 else 0 := by
  cases e with
  | fileTransferBegin d => simp [Host.opened, isBeginEvent, List.countP_singleton]
  | messageIncoming text now sender => rfl
  | fileOffer d => rfl
  | fileTransferChunkSent d => rfl
  | fileTransferEnd d => rfl

/-- **An event is handled.**  If the mailbox thread goes on, a BEGIN event has opened its file. -/
theorem Pursued.listen (h : Pursued dir o w hosts) (g : H) (flt : Faults) :
    Pursued dir o w (Function.update hosts g ((hosts g).listen flt)) := by
  have hctx : ((hosts g).listen flt).fileTransferContext = (hosts g).fileTransferContext := by
    rw [Host.listen]
    split <;> rfl
  have hlistening : ((hosts g).listen flt).listening = true → (hosts g).listening = true := by
    rw [Host.listen]
    split
    · rename_i hl _
      exact fun _ => hl
    · exact id
  refine h.mono (.refl o) (update_congr Host.accepted (by rw [Host.listen]; split <;> rfl)) ?_ ?_
  · intro q
    by_cases hq : q = g
    · subst hq
      rw [Function.update_self]
      exact hlistening
    · rw [Function.update_of_ne hq]
      exact id
  · intro q r key hl
    rw [pursuits, pursuits, transfers, transfers,
      update_congr (fun x => waiting x q key) (waiting_congr hctx q key)]
    by_cases hq : q = g
    · subst hq
      rw [Function.update_self] at hl ⊢
      rw [Host.listen] at hl ⊢
      split at hl
      · -- from the mailbox to the file
        rename_i p e rest hlive hbox
        have hok : ((hosts q).app.handle flt e).1 = .ok := of_decide_eq_true hl
        dsimp only
        rw [hbox, hok, List.countP_cons, List.countP_append, opened_countP_of_ok]
        omega
      · exact Nat.le_refl _
    · rw [Function.update_of_ne hq]

/-- **An offer is answered.**  An acceptance is noted, and its verdict is written. -/
theorem Pursued.answer (h : Pursued dir o w hosts) (htold : Told dir o g (hosts g)) {c : UInt8}
    {offer : PendingOffer} {accept : Bool} (hkey : ((hosts g).onKey c).1 = some (offer, accept))
    (hsession : dir.session offer.sender = some p) (now : UInt64) :
    Pursued dir o (Function.update w (p, g) (w (p, g) ++ [.io (.verdict now offer.key accept)]))
      (Function.update hosts g ((hosts g).onKey c).2) := by
  obtain ⟨answer, offer', uiState, noted, heq, hcases⟩ := (hosts g).onKey_cases c
  rw [heq] at hkey ⊢
  rcases hcases with ⟨rfl, -, -⟩ | ⟨_, _, rfl, hshown, -, rfl⟩
  · cases hkey
  cases hkey
  obtain ⟨q, hon, hsender, hledger⟩ := htold.shown offer hshown
  obtain rfl : q = p := by
    rw [hsender, dir.session_name] at hsession
    exact Option.some.inj hsession
  -- what is accepted now
  have hnoted : ∀ r ∈ (hosts g).acceptance offer accept,
      r = ⟨q, offer.key, offer.sender, offer.fname⟩ ∧ accept = true := by
    intro r hr
    cases accept with
    | false => cases hr
    | true =>
      unfold Host.acceptance at hr
      rw [hon] at hr
      exact ⟨List.mem_singleton.mp hr, rfl⟩
  refine ⟨?_, ?_⟩
  · intro q' r hr
    by_cases hq : q' = g
    · subst hq
      rw [Function.update_self] at hr
      rcases List.mem_append.mp hr with hr | hr
      · exact h.named q' r hr
      · obtain ⟨rfl, -⟩ := hnoted r hr
        exact ⟨hsender, hledger⟩
    · rw [Function.update_of_ne hq] at hr
      exact h.named q' r hr
  · intro q' hl r hr
    rw [pursuits_write, pursuits_update (by rfl) (by rfl) (by rfl)]
    by_cases hq : q' = g
    · subst hq
      rw [Function.update_self] at hl hr
      rcases List.mem_append.mp hr with hr | hr
      · have hbefore := h.pursued q' hl r hr
        omega
      · obtain ⟨rfl, rfl⟩ := hnoted r hr
        have hnew : isAcceptance offer.key (.io (.verdict now offer.key true)) = true :=
          decide_eq_true ⟨rfl, rfl⟩
        rw [if_pos ⟨rfl, hnew⟩]
        omega
    · rw [Function.update_of_ne hq] at hl hr
      have hbefore := h.pursued q' hl r hr
      omega

end Network

end LocalChat
