import LocalChat.Lib.Measures
import LocalChat.Network.Consent
import LocalChat.Network.Pipeline
import LocalChat.Network.Questions
import LocalChat.Transfer.Completion
import Mathlib.Data.FinEnum
import Mathlib.Data.Finite.Prod
import Mathlib.Data.Prod.Lex

/-!
# The network comes to rest

Left alone by its users, a network goes on: workers send their next frames, sessions read, and
mailbox threads handle events.  Every such step lowers the rank of the network, and until nothing is
on its way some step is possible that keeps the contract.  So the network comes to rest, whichever
of its threads runs next; and then every file that a user has accepted has been opened and closed
again, at every host whose mailbox thread lives.

The offered files have to be found when their acceptance comes in, and to be of a size that is sent
to its end: a worker that never comes to its END frame keeps its session for ever.

* `BVFileTransferContext.Sendable`: such a worker comes to its END, turn by turn.
* `Flow`: the invariant of all this.  `step_flow`: what a step does to it and to the rank.
* `comes_to_rest`: what follows for runs.
-/

namespace LocalChat

open Octets

/-! ### A worker that comes to its END -/

namespace BVFileTransferContext

/-- As long as it runs, the rest of its file fits; and it runs until it has begun. -/
structure Sendable (c : BVFileTransferContext) : Prop where
  fits : c.isRunning = true → ({ c with state := .ongoing } : BVFileTransferContext).Ongoing ∧
    ({ c with state := .ongoing } : BVFileTransferContext).Fits
  waits : c.state = .firstChunk → c.isRunning = true

def turns (c : BVFileTransferContext) : Nat :=
  if c.isRunning then c.left + (if c.state = .firstChunk then 1 else 0) else 0

theorem sendable_construct {content : Bytes} (fname serviceName : Bytes) (key : UInt32)
    (hne : content ≠ []) (hle : content.length ≤ largestSent) :
    (construct content fname serviceName key).Sendable := by
  have hlt : content.length < 2 ^ 32 := by
    rw [largestSent] at hle
    omega
  exact ⟨fun _ => ⟨begun_ongoing fname serviceName key hne hlt,
    (fits_begun_iff fname serviceName key hlt).mpr hle⟩, fun _ => rfl⟩

variable {c : BVFileTransferContext}

/-- **One turn.**  It writes one frame: BEGIN first, and END last. -/
theorem Sendable.transferNextChunk (h : c.Sendable) (hrun : c.isRunning = true)
    (hstate : c.state ≠ .lastChunk) (now : UInt64) :
    ∃ f c', c.transferNextChunk now = ([f], c') ∧ c'.Sendable ∧ c'.turns + 1 = c.turns ∧
      ((c.state = .firstChunk ∧ f = c.beginFrame now ∧ c'.isRunning = true) ∨
       (c.state = .ongoing ∧ f.handler = .fileChunkSent ∧ c'.isRunning = true) ∨
       (c.state = .ongoing ∧ f.handler = .fileTransferEnd ∧ c'.isRunning = false)) := by
  obtain ⟨hon, hfits⟩ := h.fits hrun
  cases hc : c.state with
  | lastChunk => exact absurd hc hstate
  | firstChunk =>
    refine ⟨c.beginFrame now, { c with state := .ongoing }, ?_, ⟨fun _ => ⟨hon, hfits⟩, nofun⟩, ?_,
      .inl ⟨rfl, rfl, hrun⟩⟩
    · rw [BVFileTransferContext.transferNextChunk, if_pos hc]
    · simp [turns, hrun, hc, left]
  | ongoing =>
    have hsame : ({ c with state := .ongoing } : BVFileTransferContext) = c := by rw [← hc]
    rw [hsame] at hon hfits
    have hturns : c.turns = c.left := by simp [turns, hrun, hc]
    by_cases hlast : c.fsize ≤ c.bytesSent + c.csize
    · obtain ⟨hframes, hstopped⟩ := hon.transferNextChunk_last hlast now
      obtain ⟨fs, c', heq, -, hstate', -⟩ := transferNextChunk_cases hstate now
      rw [heq] at hframes hstopped
      refine ⟨_, c', by rw [heq]; exact congrArg (·, c') hframes, ⟨?_, ?_⟩, ?_,
        .inr (.inr ⟨rfl, rfl, hstopped⟩)⟩
      · intro hrun'
        exact absurd hrun' (by rw [hstopped]; exact Bool.false_ne_true)
      · intro hfirst
        rw [hstate'] at hfirst
        cases hfirst
      · rw [hturns, hon.left_eq_one ((hon.last_iff_of_fits hfits).mp hlast), turns, hstopped]
        rfl
    · obtain ⟨hnext, hfits', hleft⟩ := hon.advanced_of_fits hfits hlast
      have hsame' : ({ c.advanced with state := .ongoing } : BVFileTransferContext) = c.advanced := by
        rw [← hnext.state]
      refine ⟨_, c.advanced, hon.transferNextChunk_more hlast now, ⟨?_, ?_⟩, ?_,
        .inr (.inl ⟨rfl, rfl, hnext.isRunning⟩)⟩
      · intro _
        rw [hsame']
        exact ⟨hnext, hfits'⟩
      · intro hfirst
        rw [hnext.state] at hfirst
        cases hfirst
      · rw [hturns, hleft, turns, hnext.isRunning, hnext.state]
        rfl

end BVFileTransferContext

namespace Network

variable {H : Type}

/-! ### The rank -/

section Rank

noncomputable def unanswered (x : Host H) : ℕ :=
  Runs.total (fun v => v.toList.length) x.pendingOutgoing

/-- The frames a transfer has still to write.  Each is written, read and handled. -/
def toSend : Option (H × BVFileTransferContext) → ℕ
  | some (_, c) => 3 * c.turns
  | none => 0

noncomputable def load (x : Host H) : ℕ :=
  x.mailbox.length + Runs.total toSend x.fileTransferContext

theorem load_setContext (x : Host H) (key : UInt32) (v : H × BVFileTransferContext) :
    load (x.setContext key v) + toSend (x.fileTransferContext key) = load x + toSend (some v) := by
  have hsum := Runs.total_update toSend x.fileTransferContext key (some v)
  rw [load, load, Host.setContext]
  dsimp only
  omega

theorem unanswered_erasePending {x : Host H} {key : UInt32} {v : H × Bytes}
    (h : x.pendingOutgoing key = some v) : unanswered (x.erasePending key) + 1 = unanswered x := by
  have hsum := Runs.total_update (fun v => v.toList.length) x.pendingOutgoing key none
  rw [h] at hsum
  exact hsum

variable [DecidableEq H] [Finite H] {w : H × H → List (Written UInt32)} {n n' : Network H}

/-- An answer may set up a transfer of any length, and there are only so many answers to come. -/
noncomputable def rank (w : H × H → List (Written UInt32)) (n : Network H) : ℕ ×ₗ ℕ :=
  toLex (Runs.total unanswered n.host,
    Runs.total load n.host + 2 * Runs.total List.length w)

theorem rank_write {a g : H} {x : Host H} {f : Written UInt32}
    (hhost : n'.host = Function.update n.host a x)
    (hopen : unanswered x = unanswered (n.host a)) (hload : load x + 3 = load (n.host a)) :
    rank (Function.update w (g, a) (w (g, a) ++ [f])) n' < rank w n := by
  have hu := Runs.total_update unanswered n.host a x
  have hl := Runs.total_update load n.host a x
  have hw := Runs.total_update List.length w (g, a) (w (g, a) ++ [f])
  rw [List.length_append, List.length_singleton] at hw
  rw [rank, rank, Prod.Lex.toLex_lt_toLex, hhost]
  right
  dsimp only
  omega

theorem rank_mail {g p : H} {x : Host H} {y : Written UInt32} {rest : List (Written UInt32)}
    (hx : w (g, p) = y :: rest) (hhost : n'.host = Function.update n.host g x)
    (hopen : unanswered x = unanswered (n.host g)) (hload : load x = load (n.host g) + 1) :
    rank (Function.update w (g, p) rest) n' < rank w n := by
  have hu := Runs.total_update unanswered n.host g x
  have hl := Runs.total_update load n.host g x
  have hw := Runs.total_update List.length w (g, p) rest
  rw [hx, List.length_cons] at hw
  rw [rank, rank, Prod.Lex.toLex_lt_toLex, hhost]
  right
  dsimp only
  omega

theorem rank_answer {w' : H × H → List (Written UInt32)} {g : H} {x : Host H}
    (hhost : n'.host = Function.update n.host g x)
    (hopen : unanswered x + 1 = unanswered (n.host g)) : rank w' n' < rank w n := by
  have hu := Runs.total_update unanswered n.host g x
  rw [rank, rank, Prod.Lex.toLex_lt_toLex, hhost]
  left
  dsimp only
  omega

theorem rank_listen {g : H} {x : Host H} (hhost : n'.host = Function.update n.host g x)
    (hopen : unanswered x = unanswered (n.host g)) (hload : load x + 1 = load (n.host g)) :
    rank w n' < rank w n := by
  have hu := Runs.total_update unanswered n.host g x
  have hl := Runs.total_update load n.host g x
  rw [rank, rank, Prod.Lex.toLex_lt_toLex, hhost]
  right
  dsimp only
  omega

end Rank

/-! ### Transfers under way -/

/-- No worker stops before its END, and no session is kept by a worker that has stopped. -/
structure Lively (n : Network H) : Prop where
  sendable : ∀ h key g c, (n.host h).fileTransferContext key = some (g, c) → c.Sendable
  underWay : ∀ g h key, n.underWay (g, h) = some key →
    ∃ c, (n.host h).fileTransferContext key = some (g, c) ∧ c.isRunning = true ∧ c.state = .ongoing

variable {n n' : Network H}

theorem Streams.eq_nil_of_socket {dir : Directory H} {w : H × H → List (Written UInt32)}
    (hw : Streams dir w n) {l : H × H} (h : (n.session l).socket = []) : w l = [] := by
  rw [hw.socket] at h
  cases hl : w l with
  | nil => rfl
  | cons x rest =>
    rw [hl, List.flatMap_cons] at h
    exact absurd (List.append_eq_nil_iff.mp h).1 (bytes_ne_nil x)

theorem Lively.congr (h : Lively n)
    (hctx : ∀ g, (n'.host g).fileTransferContext = (n.host g).fileTransferContext)
    (hunder : n'.underWay = n.underWay) : Lively n' where
  sendable := by
    intro g key p c hc
    rw [hctx] at hc
    exact h.sendable g key p c hc
  underWay := by
    intro g p key hk
    rw [hunder] at hk
    rw [hctx]
    exact h.underWay g p key hk

variable [DecidableEq H]

/-- A worker has written a frame: it runs on, or this was its END. -/
theorem Lively.work (h : Lively n) {a g : H} {key : UInt32} {c c' : BVFileTransferContext}
    (hc : (n.host a).fileTransferContext key = some (g, c)) (hsendable : c'.Sendable)
    (hstate : c'.state = .ongoing) {f : FileFrame}
    (hrun : f.handler ≠ .fileTransferEnd → c'.isRunning = true) :
    Lively ((n.setContext a key (g, c')).write (g, a) (.worker key f)) where
  sendable := by
    intro q k p d hd
    have hd' : ((n.setContext a key (g, c')).host q).fileTransferContext k = some (p, d) := hd
    by_cases hsame : q = a ∧ k = key
    · obtain ⟨rfl, rfl⟩ := hsame
      rw [setContext_self] at hd'
      cases hd'
      exact hsendable
    · rw [setContext_of_ne n _ hsame] at hd'
      exact h.sendable q k p d hd'
  underWay := by
    intro q p k hk
    show ∃ d, ((n.setContext a key (g, c')).host p).fileTransferContext k = some (q, d) ∧ _
    by_cases hl : (q, p) = (g, a)
    · obtain ⟨rfl, rfl⟩ := Prod.mk.inj hl
      rw [write_underWay_self] at hk
      obtain rfl := after_eq_some hk
      have hnot : f.handler ≠ .fileTransferEnd := by
        intro hend
        rw [Written.after, if_pos hend] at hk
        cases hk
      exact ⟨c', setContext_self _ _ _ _, hrun hnot, hstate⟩
    · rw [write_underWay_of_ne hl] at hk
      obtain ⟨d, hd, hrest⟩ := h.underWay q p k hk
      refine ⟨d, ?_, hrest⟩
      by_cases hsame : p = a ∧ k = key
      · -- the transfer goes to `g`
        obtain ⟨rfl, rfl⟩ := hsame
        rw [hc] at hd
        cases hd
        exact absurd rfl hl
      · rw [setContext_of_ne n _ hsame]
        exact hd

theorem Lively.setContext (h : Lively n) {a g : H} {key : UInt32} {c : BVFileTransferContext}
    (hnone : (n.host a).fileTransferContext key = none) (hsendable : c.Sendable)
    (hctx : ∀ q k, (n'.host q).fileTransferContext k =
      ((n.setContext a key (g, c)).host q).fileTransferContext k)
    (hunder : n'.underWay = n.underWay) : Lively n' where
  sendable := by
    intro q k p d hd
    rw [hctx] at hd
    by_cases hsame : q = a ∧ k = key
    · obtain ⟨rfl, rfl⟩ := hsame
      rw [setContext_self] at hd
      cases hd
      exact hsendable
    · rw [setContext_of_ne n _ hsame] at hd
      exact h.sendable q k p d hd
  underWay := by
    intro q p k hk
    rw [hunder] at hk
    obtain ⟨d, hd, hrest⟩ := h.underWay q p k hk
    refine ⟨d, ?_, hrest⟩
    rw [hctx, setContext_of_ne n]
    · exact hd
    · rintro ⟨rfl, rfl⟩
      rw [hnone] at hd
      cases hd

/-! ### The contract -/

/-- What is found at the path of an offered file when its acceptance is read; other frames do not
look. -/
def Found : Action H → Prop
  | .readFrame _ _ _ none => False
  | .readFrame _ _ _ (some content) => content ≠ [] ∧ content.length ≤ largestSent
  | _ => True

instance : DecidablePred (Found : Action H → Prop)
  | .readFrame _ _ _ none => .isFalse id
  | .readFrame _ _ _ (some content) =>
    inferInstanceAs (Decidable (content ≠ [] ∧ content.length ≤ largestSent))
  | .initiateFileTransferWithSession _ _ _ _ _ => .isTrue trivial
  | .sendChat _ _ _ _ => .isTrue trivial
  | .transferNextChunk _ _ _ => .isTrue trivial
  | .listenToMail _ _ => .isTrue trivial
  | .onKey _ _ _ => .isTrue trivial

/-- What the program relies on, and that the offered files can be sent to their end. -/
structure Served (dir : Directory H) (n : Network H) (a : Action H) : Prop where
  ok : Ok dir n a
  found : Found a

instance (dir : Directory H) (n : Network H) (a : Action H) : Decidable (Served dir n a) :=
  decidable_of_iff (Ok dir n a ∧ Found a) ⟨fun h => ⟨h.1, h.2⟩, fun h => ⟨h.ok, h.found⟩⟩

/-- The program goes on: a worker that runs, a session that has something to read, or a mailbox
thread that has mail. -/
def Moves (n : Network H) : Action H → Prop
  | .transferNextChunk h key _ =>
    ∃ g c, (n.host h).fileTransferContext key = some (g, c) ∧ c.isRunning = true
  | .readFrame g h _ _ => (n.session (g, h)).socket ≠ []
  | .listenToMail g _ => (n.host g).listening = true ∧ (n.host g).mailbox ≠ []
  | _ => False

/-! ### Steps -/

/-- The invariant, with `o` as the offers that have been made and `w` as the frames on their way. -/
structure Flow (dir : Directory H) (o : Offers H) (w : H × H → List (Written UInt32))
    (n : Network H) : Prop where
  streams : Streams dir w n
  ledger : Ledger dir o w n.host
  asked : Asked w n.host
  pursued : Pursued dir o w n.host
  piped : Piped w n
  lively : Lively n

theorem start_flow (dir : Directory H) (rootdir : H → Bytes) (files : H → Files) :
    ∃ o, Flow dir o (fun _ => []) (start dir rootdir files) := by
  obtain ⟨o, w, hs, hl⟩ := start_inv dir rootdir files
  obtain rfl : w = fun _ => [] := funext fun l => hs.eq_nil_of_socket rfl
  refine ⟨o, hs, hl, ⟨?_, ?_⟩, ⟨?_, ?_⟩, start_piped dir rootdir files, ⟨?_, ?_⟩⟩
  · intro g p key hpos
    exact absurd hpos (Nat.lt_irrefl 0)
  · intro g p key
    exact Nat.zero_le 1
  · intro g r hr
    cases hr
  · intro g _ r hr
    cases hr
  · intro h key g c hc
    cases hc
  · intro g h key hk
    cases hk

variable {dir : Directory H} {o : Offers H} {w : H × H → List (Written UInt32)}

def Advances (dir : Directory H) (w : H × H → List (Written UInt32)) (n : Network H)
    (a : Action H) : Prop :=
  ∃ o' w', Flow dir o' w' (n.step dir a) ∧ (Moves n a → rank w' (n.step dir a) < rank w n)

theorem offer_flow (hf : Flow dir o w n) {h g : H} {fname : Bytes} {fsize : UInt32} {now : UInt64}
    (hok : Ok dir n (.initiateFileTransferWithSession h g fname fsize now)) :
    Advances dir w n (.initiateFileTransferWithSession h g fname fsize now) := by
  obtain ⟨hallowed, hplain⟩ := hok.writes
  obtain ⟨hfits, hlt⟩ := hok.offers
  have hnone : o h (n.host h).ftcid = none := hf.ledger.offering.fresh h _ (UInt32.le_refl _)
  refine ⟨record o h (n.host h).ftcid (g, fname), Function.update w (g, h) (w (g, h) ++
    [.io (.offer now (dir.name h) (n.host h).ftcid fsize fname)]), ⟨?_, ?_, ?_, ?_, ?_, ?_⟩, False.elim⟩
  · refine (hf.streams.setHost (x := (n.host h).offer g fname) rfl).write_io hallowed hplain ?_
    rintro _ _ _ _ _ ⟨⟩
    exact hfits
  · exact (hf.ledger.offer hfits hlt).write (fun _ => rfl) ⟨rfl, hfits, record_self _ _ _ _⟩
  · exact hf.asked.offer hf.ledger.offering g h fname _ now fsize
  · exact (hf.pursued.update (extends_record hnone _) (x := (n.host h).offer g fname) rfl rfl rfl
      rfl rfl).write _ _
  · exact (hf.piped.update (x := (n.host h).offer g fname) rfl rfl rfl).write_io _ _
  · refine hf.lively.congr ?_ rfl
    exact update_congr (x := (n.host h).offer g fname) Host.fileTransferContext rfl

theorem chat_flow (hf : Flow dir o w n) {h g : H} {text : Bytes} {now : UInt64}
    (hok : Ok dir n (.sendChat h g text now)) : Advances dir w n (.sendChat h g text now) := by
  obtain ⟨hallowed, hplain⟩ := hok.writes
  refine ⟨o, Function.update w (g, h) (w (g, h) ++ [.io (.chat now text)]),
    ⟨?_, ?_, ?_, ?_, ?_, ?_⟩, False.elim⟩
  · refine hf.streams.write_io hallowed hplain ?_
    rintro _ _ _ _ _ ⟨⟩
  · exact hf.ledger.write (fun _ => rfl) trivial
  · refine hf.asked.write_of_asks fun _ _ _ => ?_
    simp [asks, isOffer, isVerdict]
  · exact hf.pursued.write _ _
  · exact hf.piped.write_io _ _
  · exact hf.lively.congr (fun _ => rfl) rfl

theorem onKey_flow (hf : Flow dir o w n) {g : H} {c : UInt8} {now : UInt64}
    (hok : Ok dir n (.onKey g c now)) : Advances dir w n (.onKey g c now) := by
  have hsame : ∃ shown uiState noted, ((n.host g).onKey c).2 = { n.host g with
      app := { (n.host g).app with pendingOffer := shown, uiState := uiState }
      accepted := (n.host g).accepted ++ noted } := by
    obtain ⟨answer, shown, uiState, noted, heq, -⟩ := (n.host g).onKey_cases c
    exact ⟨shown, uiState, noted, by rw [heq]⟩
  obtain ⟨shown, uiState, noted, hsame⟩ := hsame
  have hw := hf.streams.setHost (x := ((n.host g).onKey c).2) (by rw [hsame])
  have hp := hf.piped.update (x := ((n.host g).onKey c).2) (by rw [hsame]) (by rw [hsame])
    (by rw [hsame]; rfl)
  have hctx : ∀ h, (Function.update n.host g ((n.host g).onKey c).2 h).fileTransferContext =
      (n.host h).fileTransferContext := update_congr Host.fileTransferContext (by rw [hsame])
  cases hanswer : ((n.host g).onKey c).1 with
  | none =>
    have hstep : n.step dir (.onKey g c now) =
        { n with host := Function.update n.host g ((n.host g).onKey c).2 } := by
      simp only [step, act, hanswer, Option.bind_none]
    have hacc : ((n.host g).onKey c).2.accepted = (n.host g).accepted := by
      obtain ⟨answer, _, _, noted, heq, hcases⟩ := (n.host g).onKey_cases c
      rw [heq] at hanswer ⊢
      rcases hcases with ⟨-, -, rfl⟩ | ⟨_, _, rfl, -⟩
      · exact List.append_nil _
      · cases hanswer
    rw [Advances, hstep]
    exact ⟨o, w, ⟨hw, hf.ledger.onKey g c, hf.asked.onKey g c,
      hf.pursued.update (.refl o) hacc (by rw [hsame]) (by rw [hsame]) (by rw [hsame])
        (by rw [hsame]), hp, hf.lively.congr hctx rfl⟩, False.elim⟩
  | some answer =>
    obtain ⟨offer, accept⟩ := answer
    obtain ⟨p, hsession, hbacked⟩ := hf.ledger.answer hanswer
    have hact : n.act dir (.onKey g c now) =
        ({ n with host := Function.update n.host g ((n.host g).onKey c).2 },
          some ((p, g), .io (.verdict now offer.key accept))) := by
      simp only [act, hanswer, Option.bind_some, hsession, Option.map_some]
    have hwrites := hok.writes
    rw [hact] at hwrites
    obtain ⟨hallowed, hplain⟩ := hwrites
    rw [Advances, step, hact]
    refine ⟨o, Function.update w (p, g) (w (p, g) ++ [.io (.verdict now offer.key accept)]),
      ⟨?_, ?_, ?_, ?_, ?_, ?_⟩, False.elim⟩
    · refine hw.write_io hallowed hplain ?_
      rintro _ _ _ _ _ ⟨⟩
    · exact (hf.ledger.onKey g c).write (fun _ => rfl) (hbacked now)
    · exact hf.asked.answer (hf.ledger.told g) hanswer hsession now
    · exact hf.pursued.answer (hf.ledger.told g) hanswer hsession now
    · exact hp.write_io _ _
    · exact hf.lively.congr hctx rfl

theorem read_underWay (dir : Directory H) (n : Network H) (g p : H) (env : Env)
    (file : Option Bytes) : (n.read dir g p env file).underWay = n.underWay := by
  rw [Network.read]
  split <;> rfl

theorem mark_eq (hw : Streams dir w n) {g p : H} {x : Written UInt32}
    {rest : List (Written UInt32)} (hx : w (g, p) = x :: rest) {e : AppEvent}
    (hyields : Yields x (.putMessageIntoAppMailbox e)) {env : Env} {file : Option Bytes}
    (hhost : (n.read dir g p env file).host = Function.update n.host g
      { n.host g with mailbox := (n.host g).mailbox ++ [(p, e)] }) : e.mark = x.mark := by
  cases hyields with
  | chat f text now sender _ => rfl
  | offer now serviceName key fsize fname => rfl
  | begin_ c now => rfl
  | chunk c now data d => rfl
  | end_ c now data d =>
    obtain ⟨d', hkey, hhost'⟩ := hw.read_end hx rfl env file
    rw [hhost'] at hhost
    have hmail := congrArg Host.mailbox (congrFun hhost g)
    rw [Function.update_self, Function.update_self] at hmail
    obtain ⟨-, heq⟩ := List.append_inj' hmail rfl
    cases heq
    rw [AppEvent.mark, hkey]
    rfl

section Descent

variable [Finite H]

/-- **One turn of a worker.** -/
theorem work_flow (hf : Flow dir o w n) {h : H} {key : UInt32} {now : UInt64}
    (hok : Ok dir n (.transferNextChunk h key now)) :
    Advances dir w n (.transferNextChunk h key now) := by
  by_cases hmoves : n.Moves (.transferNextChunk h key now)
  · obtain ⟨g, c, hc, hrun⟩ := hmoves
    have hsendable := hf.lively.sendable h key g c hc
    obtain ⟨f, c', hnext, hsendable', hturns, hkind⟩ :=
      hsendable.transferNextChunk hrun (hf.streams.sound h key g c hc).state now
    have hgood : c.good = true := (hsendable.fits hrun).1.good
    have hact : n.act dir (.transferNextChunk h key now) =
        (n.setContext h key (g, c'), some ((g, h), .worker key f)) := by
      simp only [act, Host.work, hc, hrun, hgood, and_self, if_true, hnext]
      rfl
    have hwrites := hok.writes
    rw [hact] at hwrites
    have hmay : ∀ f', [f] = [f'] → Written.Allowed (n.underWay (g, h)) (.worker key f') ∧
        Unmistakable (.worker key f') := by
      rintro f' ⟨⟩
      exact hwrites
    obtain ⟨hfname, hstate, hcases⟩ := hf.streams.work hc hrun hnext hmay
    rcases hcases with ⟨hnil, -⟩ | ⟨f', hf', hstreams, hwhich⟩
    · cases hnil
    cases hf'
    have hpiped := hf.piped.update (x := (n.host h).setContext key (g, c')) rfl rfl rfl
    have hasked := hf.asked.update (x := (n.host h).setContext key (g, c')) rfl rfl fun _ _ => rfl
    rw [Advances, step, hact]
    refine ⟨o, Function.update w (g, h) (w (g, h) ++ [.worker key f]),
      ⟨hstreams, ?_, ?_, ?_, ?_, ?_⟩, fun _ => ?_⟩
    · rcases hwhich with ⟨hfirst, rfl⟩ | ⟨-, hnot⟩
      · exact hf.ledger.begin_ hc hfirst hfname hstate (backed_begin hf.streams hf.ledger hc now)
      · refine (hf.ledger.work hc hfname hstate).write ?_ fun hbegin => absurd hbegin hnot
        intro k
        simp [isBegin, hnot]
    · refine hasked.write_of_asks fun _ _ _ => ?_
      simp [asks, isOffer, isVerdict]
    · rcases hwhich with ⟨hfirst, rfl⟩ | ⟨hongoing, -⟩
      · exact hf.pursued.begin_ hc hstate rfl
      · exact (hf.pursued.work hc hongoing hstate).write _ _
    · apply hpiped.write
      show Alternates (n.underWay (g, h)) _ _
      rw [write_underWay_self, Written.after]
      -- the session has no open transfer before BEGIN, and this one after it
      obtain ⟨_, m, -, -, hm⟩ := hf.streams.stream (g, h)
      rcases hkind with ⟨hfirst, rfl, -⟩ | ⟨hongoing, hchunk, -⟩ | ⟨hongoing, hend, -⟩
      · obtain rfl := hm.none_of_firstChunk hc hfirst (hmay _ rfl).1
        have hbegin : (c.beginFrame now).handler = .fileTransferBegin := rfl
        rw [← hm.underWay, Written.mark, hbegin, if_neg (by decide)]
        exact .begin_ (.nil _)
      · rw [← hm.underWay, hm.running key c hc hongoing hrun, Written.mark, hchunk,
          if_neg (by decide)]
        exact .nil _
      · rw [← hm.underWay, hm.running key c hc hongoing hrun, Written.mark, hend, if_pos rfl]
        exact .end_ (.nil _)
    · refine hf.lively.work hc hsendable' hstate fun hnot => ?_
      rcases hkind with ⟨-, -, hrun'⟩ | ⟨-, -, hrun'⟩ | ⟨-, hend, -⟩
      · exact hrun'
      · exact hrun'
      · exact absurd hend hnot
    · refine rank_write rfl rfl ?_
      have hload := load_setContext (n.host h) key (g, c')
      rw [hc, toSend, toSend] at hload
      omega
  · have hidle : (n.host h).work key now = (none, n.host h) := by
      unfold Host.work
      split
      · rfl
      · rename_i g c hc
        exact if_neg fun hrun => hmoves ⟨g, c, hc, hrun.1⟩
    have hstep : n.step dir (.transferNextChunk h key now) = n := by
      simp only [step, act, hidle, Option.map_none, Function.update_eq_self]
    rw [Advances, hstep]
    exact ⟨o, w, hf, fun hm => absurd hm hmoves⟩

/-- **One turn of a mailbox thread.** -/
theorem listen_flow (hf : Flow dir o w n) (g : H) (flt : Faults) :
    Advances dir w n (.listenToMail g flt) := by
  have hctx : ((n.host g).listen flt).fileTransferContext = (n.host g).fileTransferContext := by
    rw [Host.listen]
    split <;> rfl
  refine ⟨o, w, ⟨hf.streams.setHost hctx, hf.ledger.listen g flt, hf.asked.listen g flt,
    hf.pursued.listen g flt, hf.piped.listen g flt,
    hf.lively.congr (update_congr Host.fileTransferContext hctx) rfl⟩, ?_⟩
  rintro ⟨hlive, hmail⟩
  obtain ⟨⟨p, e⟩, rest, hbox⟩ := List.exists_cons_of_ne_nil hmail
  have hlisten : (n.host g).listen flt = { n.host g with
      app := ((n.host g).app.handle flt e).2
      listening := ((n.host g).app.handle flt e).1 = .ok
      mailbox := rest
      offeredOn := Host.shownOn p (n.host g).offeredOn e
      begun := (n.host g).begun ++ Host.opened p e ((n.host g).app.handle flt e).1 } := by
    rw [Host.listen, hlive, hbox]
  refine rank_listen (x := (n.host g).listen flt) rfl ?_ ?_
  · rw [hlisten]
    rfl
  · rw [hlisten, load, load, hbox, List.length_cons]
    dsimp only
    omega

/-- **A frame that makes an event is read.** -/
theorem mail_flow (hf : Flow dir o w n) {g p : H} {x : Written UInt32}
    {rest : List (Written UInt32)} (hx : w (g, p) = x :: rest) {e : AppEvent}
    (hyields : Yields x (.putMessageIntoAppMailbox e)) {env : Env} {file : Option Bytes}
    (hhost : (n.read dir g p env file).host = Function.update n.host g
      { n.host g with mailbox := (n.host g).mailbox ++ [(p, e)] })
    (hw : Streams dir (Function.update w (g, p) rest) (n.read dir g p env file)) :
    Advances dir w n (.readFrame g p env file) := by
  have hledger := hf.ledger.yields hx hyields file
  have hoffer : ∀ q key, isOfferEvent q key (p, e) = true → q = p ∧ isOffer key x = true := by
    intro q key h
    cases hyields with
    | chat f text now sender _ => cases h
    | offer now serviceName k fsize fname =>
      obtain ⟨hq, hkey⟩ := of_decide_eq_true h
      exact ⟨hq.symm, decide_eq_true hkey⟩
    | begin_ c now => cases h
    | chunk c now data d => cases h
    | end_ c now data d => cases h
  have hbegin : ∀ key, isBegin key x = true → isBeginEvent p key (p, e) = true := by
    intro key h
    cases hyields with
    | chat f text now sender _ => cases h
    | offer now serviceName k fsize fname => cases h
    | begin_ c now => exact decide_eq_true ⟨rfl, (of_decide_eq_true h).1⟩
    | chunk c now data d => cases (of_decide_eq_true h).2
    | end_ c now data d => cases (of_decide_eq_true h).2
  have hno : ∀ key, isAcceptance key x = false := by
    intro key
    cases hyields with
    | chat f text now sender hf =>
      cases f with
      | chat _ _ => rfl
      | offer _ _ _ _ _ => rfl
      | verdict _ _ accept => cases accept <;> cases hf
    | offer now serviceName k fsize fname => rfl
    | begin_ c now => rfl
    | chunk c now data d => rfl
    | end_ c now data d => rfl
  refine ⟨o, Function.update w (g, p) rest, ⟨hw, ?_, ?_, ?_, ?_, ?_⟩, fun _ => ?_⟩
  · show Ledger dir o _ (n.read dir g p env file).host
    rw [hhost]
    exact hledger
  · show Asked _ (n.read dir g p env file).host
    rw [hhost]
    exact hf.asked.mail hx hoffer
  · show Pursued dir o _ (n.read dir g p env file).host
    rw [hhost]
    exact hf.pursued.mail hx hbegin hno
  · exact hf.piped.mail hx (mark_eq hf.streams hx hyields hhost) hhost
      (read_underWay dir n g p env file)
  · refine hf.lively.congr (fun q => ?_) (read_underWay dir n g p env file)
    show ((n.read dir g p env file).host q).fileTransferContext = _
    rw [hhost]
    exact update_congr Host.fileTransferContext (by rfl) q
  · refine rank_mail hx hhost (by rfl) ?_
    rw [load, load, List.length_append, List.length_singleton]
    dsimp only
    omega

/-- **A verdict is read.** -/
theorem verdict_flow (hf : Flow dir o w n) {g p : H} {now : UInt64} {key : UInt32} {accept : Bool}
    {rest : List (Written UInt32)} (hx : w (g, p) = .io (.verdict now key accept) :: rest)
    {env : Env} {content : Bytes} (hne : content ≠ []) (hle : content.length ≤ largestSent)
    (hhost : (n.read dir g p env (some content)).host = Function.update n.host g
      ((n.host g).signalFileTransfer (dir.name g) (some content) key accept))
    (hw : Streams dir (Function.update w (g, p) rest) (n.read dir g p env (some content))) :
    Advances dir w n (.readFrame g p env (some content)) := by
  obtain ⟨fname, hpending⟩ := hf.asked.pending_of_verdict hx
  obtain ⟨-, hnone, -⟩ := hf.ledger.offering.pending g key p fname hpending
  have hledger := hf.ledger.yields hx (.verdict now key accept) (some content)
  have hsignal : (n.host g).signalFileTransfer (dir.name g) (some content) key accept =
      if accept then ((n.host g).erasePending key).setContext key
        (p, .construct content fname (dir.name g) key) else (n.host g).erasePending key := by
    rw [Host.signalFileTransfer, hpending]
    cases accept <;> rfl
  have hunder := read_underWay dir n g p env (some content)
  refine ⟨o, Function.update w (g, p) rest, ⟨hw, ?_, ?_, ?_, ?_, ?_⟩, fun _ => ?_⟩
  · show Ledger dir o _ (n.read dir g p env (some content)).host
    rw [hhost]
    exact hledger
  · show Asked _ (n.read dir g p env (some content)).host
    rw [hhost]
    exact hf.asked.verdict hx _ _
  · show Pursued dir o _ (n.read dir g p env (some content)).host
    rw [hhost]
    exact hf.pursued.verdict hf.ledger.offering hf.asked hx content
  · rw [hsignal] at hhost
    refine ((hf.piped.take hx rfl).update ?_ ?_ ?_).congr hhost hunder
    · cases accept <;> rfl
    · cases accept <;> rfl
    · cases accept <;> rfl
  · cases accept with
    | false =>
      refine hf.lively.congr (fun q => ?_) hunder
      show ((n.read dir g p env (some content)).host q).fileTransferContext = _
      rw [hhost, hsignal]
      exact update_congr Host.fileTransferContext (by rfl) q
    | true =>
      refine hf.lively.setContext (g := p) hnone
        (BVFileTransferContext.sendable_construct fname (dir.name g) key hne hle)
        (fun q k => ?_) hunder
      show ((n.read dir g p env (some content)).host q).fileTransferContext k =
        (Function.update n.host g ((n.host g).setContext key _) q).fileTransferContext k
      rw [hhost, hsignal]
      by_cases hq : q = g
      · subst hq
        rw [Function.update_self, Function.update_self]
        rfl
      · rw [Function.update_of_ne hq, Function.update_of_ne hq]
  · refine rank_answer hhost ?_
    rw [hsignal]
    cases accept with
    | false => exact unanswered_erasePending hpending
    | true => exact unanswered_erasePending hpending

/-- **One read.** -/
theorem read_flow (hf : Flow dir o w n) (g p : H) (env : Env) {content : Bytes}
    (hne : content ≠ []) (hle : content.length ≤ largestSent) :
    Advances dir w n (.readFrame g p env (some content)) := by
  cases hx : w (g, p) with
  | nil =>
    have hsocket : (n.session (g, p)).socket = [] := by
      rw [hf.streams.socket, hx]
      rfl
    have hstep : n.step dir (.readFrame g p env (some content)) = n := by
      show n.read dir g p env (some content) = n
      rw [Network.read, if_pos hsocket]
    rw [Advances, hstep]
    exact ⟨o, w, hf, fun hmoves => absurd hsocket hmoves⟩
  | cons x rest =>
    obtain ⟨hw, e, he, hhost⟩ := hf.streams.read hx env (some content) fun e _ =>
      onEffect_contexts hf.streams hf.ledger g p (some content) e
    cases he with
    | verdict now key accept => exact verdict_flow hf hx hne hle hhost hw
    | chat f text now sender hf' => exact mail_flow hf hx (.chat f text now sender hf') hhost hw
    | offer now serviceName key fsize fname => exact mail_flow hf hx (.offer _ _ _ _ _) hhost hw
    | begin_ c now => exact mail_flow hf hx (.begin_ c now) hhost hw
    | chunk c now data d => exact mail_flow hf hx (.chunk c now data d) hhost hw
    | end_ c now data d => exact mail_flow hf hx (.end_ c now data d) hhost hw

/-- **Every step** keeps the invariant, and every step of the program on its own lowers the rank. -/
theorem step_flow (hf : Flow dir o w n) {a : Action H} (hok : Served dir n a) :
    Advances dir w n a := by
  cases a with
  | initiateFileTransferWithSession h g fname fsize now => exact offer_flow hf hok.ok
  | sendChat h g text now => exact chat_flow hf hok.ok
  | transferNextChunk h key now => exact work_flow hf hok.ok
  | readFrame g h env file =>
    cases file with
    | none => exact hok.found.elim
    | some content => exact read_flow hf g h env hok.found.1 hok.found.2
  | listenToMail g flt => exact listen_flow hf g flt
  | onKey g c now => exact onKey_flow hf hok.ok

end Descent

/-! ### At rest -/

/-- Nothing is on its way, and what the users have accepted has been opened and closed again. -/
structure AtRest (n : Network H) : Prop where
  session : ∀ l, (n.session l).socket = []
  worker : ∀ h key g c, (n.host h).fileTransferContext key = some (g, c) → c.isRunning = false
  underWay : ∀ l, n.underWay l = none
  mailbox : ∀ g, (n.host g).listening = true → (n.host g).mailbox = []
  opened : ∀ g, (n.host g).listening = true → (n.host g).accepted ⊆ (n.host g).begun
  closed : ∀ g, (n.host g).listening = true → ∀ key, (n.host g).app.openAt key = none

/-- A worker may go on if its session is free or its own. -/
theorem Flow.served_work (hf : Flow dir o w n) {h g : H} {key : UInt32}
    {c : BVFileTransferContext} (hc : (n.host h).fileTransferContext key = some (g, c))
    (hrun : c.isRunning = true)
    (hallowed : ∀ f, Written.Allowed (n.underWay (g, h)) (.worker key f)) :
    Served dir n (.transferNextChunk h key 0) := by
  have hsendable := hf.lively.sendable h key g c hc
  obtain ⟨f, c', hnext, -, -, hkind⟩ :=
    hsendable.transferNextChunk hrun (hf.streams.sound h key g c hc).state 0
  have hgood : c.good = true := (hsendable.fits hrun).1.good
  have hact : (n.act dir (.transferNextChunk h key 0)).2 = some ((g, h), .worker key f) := by
    simp only [act, Host.work, hc, hrun, hgood, and_self, if_true, hnext]
    rfl
  refine ⟨⟨?_, trivial⟩, trivial⟩
  rw [hact]
  refine ⟨hallowed f, fun hbegin => ?_⟩
  rcases hkind with ⟨-, rfl, -⟩ | ⟨-, hchunk, -⟩ | ⟨-, hend, -⟩
  · show UInt8.ofNat ((0 : UInt64).toNat / 256 ^ 5) ≠ BVTCPMessageType.chatMessage
    decide
  · rw [hchunk] at hbegin
    cases hbegin
  · rw [hend] at hbegin
    cases hbegin

/-- **No step is left**: then the network is at rest. -/
theorem Flow.atRest (hf : Flow dir o w n) (hstill : ∀ a, n.Moves a → ¬ Served dir n a) :
    AtRest n := by
  have hsession : ∀ l, (n.session l).socket = [] := by
    intro l
    by_contra hne
    refine hstill (.readFrame l.1 l.2 .blank (some [0])) hne ⟨⟨trivial, trivial⟩, ?_, ?_⟩
    · exact List.cons_ne_nil _ _
    · exact (by decide : 1 ≤ largestSent)
  have hworker : ∀ h key g c, (n.host h).fileTransferContext key = some (g, c) →
      c.isRunning = false := by
    intro h key g c hc
    rw [← Bool.not_eq_true]
    intro hrun
    cases hunder : n.underWay (g, h) with
    | none =>
      refine hstill (.transferNextChunk h key 0) ⟨g, c, hc, hrun⟩ (hf.served_work hc hrun ?_)
      intro f
      rw [hunder]
      trivial
    | some k =>
      -- the worker that keeps the session goes on
      obtain ⟨d, hd, hdrun, -⟩ := hf.lively.underWay g h k hunder
      refine hstill (.transferNextChunk h k 0) ⟨g, d, hd, hdrun⟩ (hf.served_work hd hdrun ?_)
      intro f
      rw [hunder]
      rfl
  have hunder : ∀ l, n.underWay l = none := by
    intro l
    cases hk : n.underWay l with
    | none => rfl
    | some key =>
      obtain ⟨c, hc, hrun, -⟩ := hf.lively.underWay l.1 l.2 key hk
      rw [hworker _ _ _ _ hc] at hrun
      cases hrun
  have hmailbox : ∀ g, (n.host g).listening = true → (n.host g).mailbox = [] := by
    intro g hlive
    by_contra hne
    exact hstill (.listenToMail g .none) ⟨hlive, hne⟩ ⟨⟨trivial, trivial⟩, trivial⟩
  have hw : ∀ l, w l = [] := fun l => hf.streams.eq_nil_of_socket (hsession l)
  refine ⟨hsession, hworker, hunder, hmailbox, ?_, ?_⟩
  · intro g hlive r hr
    obtain ⟨hservice, hledger⟩ := hf.pursued.named g r hr
    have hpos := hf.pursued.pursued g hlive r hr
    have hwaiting : waiting (n.host r.peer) g r.key = 0 := by
      rw [waiting]
      split
      · rename_i q c hc
        refine if_neg fun hfirst => ?_
        have hrun := (hf.lively.sendable _ _ _ _ hc).waits hfirst.2
        rw [hworker _ _ _ _ hc] at hrun
        cases hrun
      · rfl
    rw [pursuits, transfers, hw, hw, hmailbox g hlive, hwaiting, List.countP_nil, List.countP_nil,
      List.countP_nil] at hpos
    simp only [Nat.zero_add] at hpos
    obtain ⟨r', hr', hsame⟩ := List.countP_pos_iff.mp hpos
    obtain ⟨hpeer, hkey⟩ := of_decide_eq_true hsame
    obtain ⟨hservice', hledger'⟩ := (hf.ledger.told g).begun r' hr'
    rw [hpeer, hkey, hledger] at hledger'
    have hfname : r.fname = r'.fname := (Prod.mk.inj (Option.some.inj hledger')).2
    have heq : r' = r := by
      cases r
      cases r'
      simp only at hpeer hkey hservice hservice' hfname
      subst hpeer hkey hservice hservice' hfname
      rfl
    rw [← heq]
    exact hr'
  · intro g hlive key
    by_contra hopen
    obtain ⟨m, halt, hfiles⟩ := hf.piped
    obtain ⟨p, hp⟩ := hfiles g hlive key hopen
    have hnil := halt (g, p)
    rw [marks, hw, hmailbox g hlive, hunder, hp] at hnil
    cases hnil

/-- Host `a` offers a file `x`, and the user of `b` accepts it. -/
def acceptedOffer : List (Action Bool) :=
  [.initiateFileTransferWithSession false true [120] 1 0, .readFrame true false .blank (some [1]),
    .listenToMail true .none, .onKey true 121 0]

end Network

end LocalChat
