import LocalChat.Transfer.Receive
import LocalChat.App.Containment
import LocalChat.Lib.Runs

/-!
# Transfers from several peers

Any number of peers send files to one app.  The events of each come into the app's mailbox in
order, and those of different peers in any order: a run is a list of peers, each entry the next
event of that peer.  The app tells transfers apart by their correlation key alone, and a key is
the sender's own counter.

* `Clear`: a BEGIN event finds no entry under its key, and no entry for its file.
* `Serving`: every peer is between two transfers, or the app is `Receiving` the current one, and
  no two current transfers share a key or a file.
* `step_serving`: a step that is clear keeps `Serving`; `files_received` is what follows for runs.
-/

namespace LocalChat

open Octets PosixPath

/-- A peer and the transfers it has sent, one after another.  `InitiateFileTransferWithSession`
numbers its offers with a counter that starts at 0; `counts` are the numbers of those accepted. -/
structure Peer where
  transfers : List Transfer
  counts : List Nat
  increasing : counts.Pairwise (· < ·)
  keys : transfers.map (·.correlationKey) = counts.map UInt32.ofNat

namespace Transfer

def mail (t : Transfer) : List (Transfer × AppEvent) := t.events.map (Prod.mk t)

end Transfer

variable {ι : Type}

/-- The app, the statuses its handlers have returned, and what each peer has still to send. -/
structure Mailroom (ι : Type) where
  app : App
  statuses : List BVStatus
  left : ι → List (Transfer × AppEvent)

namespace Mailroom

def step [DecidableEq ι] (m : Mailroom ι) (i : ι) : Mailroom ι :=
  match m.left i with
  | [] => m
  | (_, e) :: rest =>
    { app := (m.app.handle .none e).2
      statuses := m.statuses ++ [(m.app.handle .none e).1]
      left := Function.update m.left i rest }

def start (app : App) (peers : ι → Peer) : Mailroom ι where
  app := app
  statuses := []
  left := fun i => (peers i).transfers.flatMap Transfer.mail

/-- If the next event of `i` begins a transfer, then its service name has no `|`, its key is not in
use, and no transfer under way has its file. -/
def Clear (m : Mailroom ι) (i : ι) : Prop :=
  ∀ t d rest, m.left i = (t, .fileTransferBegin d) :: rest →
    bar ∉ t.serviceName ∧ m.app.fileTransferData t.correlationKey = none ∧
      ∀ key serviceName fname, m.app.fileTransferData key = some (serviceName, fname) →
        BVReceivedFile.fileAt m.app.rootdir serviceName fname ≠ t.location m.app.rootdir

/-! ### The invariant -/

/-- Where peer `i` stands: between two transfers, or inside one that the app is receiving. -/
inductive Phase (a : App) : List (Transfer × AppEvent) → Option Transfer → Prop
  | between (rest : List Transfer) : Phase a (rest.flatMap Transfer.mail) none
  | within {t : Transfer} (qs ps : List (UInt64 × Bytes)) (rest : List Transfer) :
      t.pieces = qs ++ ps → Transfer.Receiving a t (qs.map (·.2)).flatten →
      Phase a ((ps.map t.chunkEvent ++ [t.endEvent]).map (Prod.mk t) ++
        rest.flatMap Transfer.mail) (some t)

/-- Every peer is in a phase, and the transfers under way do not meet. -/
structure Serving (m : Mailroom ι) (cur : ι → Option Transfer) : Prop where
  phase : ∀ i, Phase m.app (m.left i) (cur i)
  apart : ∀ i j t u, i ≠ j → cur i = some t → cur j = some u →
    t.correlationKey ≠ u.correlationKey ∧ t.location m.app.rootdir ≠ u.location m.app.rootdir
  ok : ∀ st ∈ m.statuses, st = .ok

theorem start_serving (app : App) (peers : ι → Peer) :
    (start app peers).Serving fun _ => none where
  phase := fun i => .between (peers i).transfers
  apart := by intro i j t u _ h; cases h
  ok := by intro st h; cases h

theorem receiving_of_eq {a a' : App} {t : Transfer} {done : Bytes} (h : Transfer.Receiving a t done)
    (hroot : a'.rootdir = a.rootdir)
    (hentry : a'.fileTransferData t.correlationKey = a.fileTransferData t.correlationKey)
    (hfile : a'.files (t.location a.rootdir) = a.files (t.location a.rootdir)) :
    Transfer.Receiving a' t done :=
  ⟨hentry.trans h.entry, by rw [hroot, hfile]; exact h.file⟩

theorem Phase.of_eq {a a' : App} {l : List (Transfer × AppEvent)} {c : Option Transfer}
    (h : Phase a l c) (hroot : a'.rootdir = a.rootdir)
    (hsame : ∀ t, c = some t →
      a'.fileTransferData t.correlationKey = a.fileTransferData t.correlationKey ∧
      a'.files (t.location a.rootdir) = a.files (t.location a.rootdir)) : Phase a' l c := by
  cases h with
  | between rest => exact .between rest
  | within qs ps rest hpieces hrec =>
    obtain ⟨hentry, hfile⟩ := hsame _ rfl
    exact .within qs ps rest hpieces (receiving_of_eq hrec hroot hentry hfile)

/-! ### Steps -/

variable [DecidableEq ι]

/-- What a step has to show: its handler succeeds, peer `i` is in the phase `c` afterwards, and
the other transfers under way do not notice. -/
theorem Serving.advance {m : Mailroom ι} {cur : ι → Option Transfer} (h : m.Serving cur) {i : ι}
    {t : Transfer} {e : AppEvent} {rest : List (Transfer × AppEvent)} {a : App}
    {c : Option Transfer} (hleft : m.left i = (t, e) :: rest)
    (hhandle : m.app.handle .none e = (.ok, a)) (hroot : a.rootdir = m.app.rootdir)
    (hphase : Phase a rest c)
    (hapart : ∀ j u v, j ≠ i → c = some u → cur j = some v → u.correlationKey ≠ v.correlationKey ∧
      u.location m.app.rootdir ≠ v.location m.app.rootdir)
    (hsame : ∀ j v, j ≠ i → cur j = some v →
      a.fileTransferData v.correlationKey = m.app.fileTransferData v.correlationKey ∧
      a.files (v.location m.app.rootdir) = m.app.files (v.location m.app.rootdir)) :
    (m.step i).Serving (Function.update cur i c) := by
  have hstep : m.step i = ⟨a, m.statuses ++ [.ok], Function.update m.left i rest⟩ := by
    rw [step, hleft]
    simp only [hhandle]
  rw [hstep]
  refine ⟨?_, ?_, ?_⟩
  · intro j
    by_cases hj : j = i
    · subst hj
      simpa using hphase
    · simp only [Function.update_of_ne hj]
      exact (h.phase j).of_eq hroot fun v hv => hsame j v hj hv
  · intro j k u v hjk hu hv
    rw [hroot]
    by_cases hj : j = i
    · subst hj
      rw [Function.update_self] at hu
      rw [Function.update_of_ne (Ne.symm hjk)] at hv
      exact hapart k u v (Ne.symm hjk) hu hv
    · rw [Function.update_of_ne hj] at hu
      by_cases hk : k = i
      · subst hk
        rw [Function.update_self] at hv
        obtain ⟨hkey, hloc⟩ := hapart j v u hj hv hu
        exact ⟨Ne.symm hkey, Ne.symm hloc⟩
      · rw [Function.update_of_ne hk] at hv
        exact h.apart j k u v hjk hu hv
  · intro st hst
    rcases List.mem_append.mp hst with hst | hst
    · exact h.ok st hst
    · exact List.mem_singleton.mp hst

theorem Phase.receiving {a : App} {l : List (Transfer × AppEvent)} {t : Transfer}
    (h : Phase a l (some t)) : ∃ done, Transfer.Receiving a t done := by
  cases h with
  | within qs ps rest hpieces hrec => exact ⟨_, hrec⟩

theorem begin_serving {m : Mailroom ι} {cur : ι → Option Transfer} (h : m.Serving cur) {i : ι}
    (hclear : m.Clear i) {t : Transfer} {rest : List Transfer}
    (hleft : m.left i = t.mail ++ rest.flatMap Transfer.mail) :
    (m.step i).Serving (Function.update cur i (some t)) := by
  obtain ⟨hbar, hkey, hfile⟩ := hclear t _ _ hleft
  have hother : ∀ j v, cur j = some v → t.correlationKey ≠ v.correlationKey ∧
      t.location m.app.rootdir ≠ v.location m.app.rootdir := by
    intro j v hv
    obtain ⟨done, hrec⟩ : ∃ done, Transfer.Receiving m.app v done := by
      have hphase := h.phase j
      rw [hv] at hphase
      exact hphase.receiving
    refine ⟨?_, fun he => hfile _ _ _ hrec.entry he.symm⟩
    intro he
    rw [he, hrec.entry] at hkey
    cases hkey
  refine h.advance hleft (Transfer.handle_begin hbar m.app) rfl ?_ ?_ ?_
  · exact .within [] t.pieces rest rfl ⟨Function.update_self _ _ _, Function.update_self _ _ _⟩
  · rintro j u v - ⟨⟩ hv
    exact hother j v hv
  · intro j v _ hv
    obtain ⟨hne, hloc⟩ := hother j v hv
    exact ⟨Function.update_of_ne (Ne.symm hne) _ _, Function.update_of_ne (Ne.symm hloc) _ _⟩

theorem chunk_serving {m : Mailroom ι} {cur : ι → Option Transfer} (h : m.Serving cur) {i : ι}
    {t : Transfer} (hcur : cur i = some t) {qs ps : List (UInt64 × Bytes)} {p : UInt64 × Bytes}
    {rest : List Transfer} (hpieces : t.pieces = qs ++ p :: ps)
    (hrec : Transfer.Receiving m.app t (qs.map (·.2)).flatten)
    (hleft : m.left i = (((p :: ps).map t.chunkEvent ++ [t.endEvent]).map (Prod.mk t) ++
      rest.flatMap Transfer.mail)) :
    (m.step i).Serving (Function.update cur i (some t)) := by
  refine h.advance hleft (hrec.handle_chunk p) rfl ?_ ?_ ?_
  · refine .within (qs ++ [p]) ps rest (by simp [hpieces]) ⟨hrec.entry, ?_⟩
    simp
  · rintro j u v hj ⟨⟩ hv
    exact h.apart i j _ v (Ne.symm hj) hcur hv
  · intro j v hj hv
    obtain ⟨-, hloc⟩ := h.apart i j t v (Ne.symm hj) hcur hv
    exact ⟨rfl, Function.update_of_ne (Ne.symm hloc) _ _⟩

theorem end_serving {m : Mailroom ι} {cur : ι → Option Transfer} (h : m.Serving cur) {i : ι}
    {t : Transfer} (hcur : cur i = some t) {rest : List Transfer}
    (hrec : Transfer.Receiving m.app t (t.pieces.map (·.2)).flatten)
    (hleft : m.left i = (t, t.endEvent) :: rest.flatMap Transfer.mail) :
    (m.step i).Serving (Function.update cur i none) := by
  refine h.advance hleft hrec.handle_end rfl (.between rest) ?_ ?_
  · intro j u v _ hu
    cases hu
  · intro j v hj hv
    obtain ⟨hkey, hloc⟩ := h.apart i j t v (Ne.symm hj) hcur hv
    exact ⟨Function.update_of_ne (Ne.symm hkey) _ _, Function.update_of_ne (Ne.symm hloc) _ _⟩

/-- **A clear step keeps the transfers apart.** -/
theorem step_serving {m : Mailroom ι} {cur : ι → Option Transfer} (h : m.Serving cur) {i : ι}
    (hclear : m.Clear i) : ∃ cur', (m.step i).Serving cur' := by
  have hphase := h.phase i
  generalize hl : m.left i = l at hphase
  generalize hc : cur i = c at hphase
  cases hphase with
  | between rest =>
    cases rest with
    | nil =>
      refine ⟨cur, ?_⟩
      have hstep : m.step i = m := by
        rw [step, hl]
        rfl
      rw [hstep]
      exact h
    | cons t rest => exact ⟨_, begin_serving h hclear hl⟩
  | within qs ps rest hpieces hrec =>
    cases ps with
    | nil =>
      rw [List.append_nil] at hpieces
      rw [← hpieces] at hrec
      exact ⟨_, end_serving h hc hrec hl⟩
    | cons p ps => exact ⟨_, chunk_serving h hc hpieces hrec hl⟩

/-! ### Runs -/

theorem step_rootdir (m : Mailroom ι) (i : ι) : (m.step i).app.rootdir = m.app.rootdir := by
  rw [step]
  split
  · rfl
  · exact App.handle_rootdir _ _ _

theorem run_serving {m : Mailroom ι} {cur : ι → Option Transfer} (h : m.Serving cur)
    {schedule : List ι} (hclear : Runs.Meets step Clear m schedule) :
    (∃ cur', (Runs.run step m schedule).Serving cur') ∧
      (Runs.run step m schedule).app.rootdir = m.app.rootdir := by
  refine Runs.run_invariant (I := fun m' => (∃ c, m'.Serving c) ∧ m'.app.rootdir = m.app.rootdir)
    ?_ ⟨⟨cur, h⟩, rfl⟩ hclear
  rintro m' i ⟨⟨c, hc⟩, hroot⟩ hok
  exact ⟨step_serving hc hok, (step_rootdir m' i).trans hroot⟩

/-- After its END event the file of a transfer is complete. -/
theorem Serving.file_of_end {m : Mailroom ι} {cur : ι → Option Transfer} (h : m.Serving cur) {i : ι}
    {t : Transfer} {d : BVTCPFileData} {rest : List (Transfer × AppEvent)}
    (hleft : m.left i = (t, .fileTransferEnd d) :: rest) :
    (m.step i).app.files (t.location m.app.rootdir) = some t.content := by
  have hphase := h.phase i
  rw [step, hleft]
  generalize hl : m.left i = l at hphase
  generalize cur i = c at hphase
  rw [hl] at hleft
  cases hphase with
  | between rest' =>
    cases rest' with
    | nil => cases hleft
    | cons u us =>
      have hhead : (u, u.beginEvent) = (t, AppEvent.fileTransferEnd d) := (List.cons.inj hleft).1
      cases hhead
  | @within u qs ps rest' hpieces hrec =>
    cases ps with
    | nil =>
      have hhead : (u, u.endEvent) = (t, AppEvent.fileTransferEnd d) := (List.cons.inj hleft).1
      obtain ⟨rfl, hevent⟩ := Prod.mk.inj hhead
      rw [List.append_nil] at hpieces
      rw [← hpieces] at hrec
      rw [← hevent]
      simp only [hrec.handle_end, Function.update_self]
    | cons p ps =>
      have hhead : (u, u.chunkEvent p) = (t, AppEvent.fileTransferEnd d) := (List.cons.inj hleft).1
      cases (Prod.mk.inj hhead).2

/-- **Concurrent transfers.**  In every interleaving of the events of any number of peers whose
BEGIN events are all clear, every handler succeeds, and whenever the END event of a transfer has
been handled the file saved for it is the one that was sent. -/
theorem files_received (app : App) (peers : ι → Peer) (schedule : List ι)
    (hclear : Runs.Meets step Clear (start app peers) schedule) :
    (∀ st ∈ (Runs.run step (start app peers) schedule).statuses, st = .ok) ∧
      ∀ before i after, schedule = before ++ i :: after → ∀ t d rest,
        (Runs.run step (start app peers) before).left i = (t, .fileTransferEnd d) :: rest →
        (Runs.run step (start app peers) (before ++ [i])).app.files (t.location app.rootdir) =
          some t.content := by
  constructor
  · obtain ⟨⟨cur, h⟩, -⟩ := run_serving (start_serving app peers) hclear
    exact h.ok
  · intro before i after hsplit t d rest hleft
    rw [hsplit] at hclear
    obtain ⟨⟨cur, h⟩, hroot⟩ :=
      run_serving (start_serving app peers) (Runs.meets_append.mp hclear).1
    have hfile := h.file_of_end hleft
    rw [hroot] at hfile
    rw [Runs.run_append]
    exact hfile

end Mailroom

/-! ### Two peers -/

/-- A peer whose offers up to number `n` were rejected and whose offer `n` was accepted. -/
def onePeer (n : Nat) (serviceName : Bytes) (b : UInt8) : Peer where
  transfers := [oneByte (UInt32.ofNat n) serviceName b]
  counts := [n]
  increasing := by simp
  keys := rfl

def twoPeers (n m : Nat) : Bool → Peer
  | false => onePeer n [97] 1
  | true => onePeer m [98] 2

/-- With keys 0 and 1 the two transfers can alternate: both files arrive. -/
theorem files_received_alternating :
    (Runs.run Mailroom.step (Mailroom.start (.start [47] fun _ => none) (twoPeers 0 1))
        [false, true, false, true]).app.files [BVReceivedFile.dataDir, [98], [120]] = some [2] := by
  have hclear : Runs.Meets Mailroom.step Mailroom.Clear
      (Mailroom.start (.start [47] fun _ => none) (twoPeers 0 1)) [false, true, false, true] := by
    refine ⟨?_, ?_, ?_, ?_, trivial⟩
    · rintro t d rest ⟨⟩
      refine ⟨by decide, rfl, ?_⟩
      intro key serviceName fname h
      cases h
    · rintro t d rest ⟨⟩
      refine ⟨by decide, by decide, ?_⟩
      intro key serviceName fname h
      have hentry : Function.update (fun _ => none) (0 : UInt32)
          (some (([97], [120]) : Bytes × Bytes)) key = some (serviceName, fname) := h
      have hkey : key = 0 := by
        by_contra hne
        rw [Function.update_of_ne hne] at hentry
        cases hentry
      subst hkey
      cases h
      decide +kernel
    · rintro t d rest ⟨⟩
    · rintro t d rest ⟨⟩
  obtain ⟨-, hfile⟩ := Mailroom.files_received (.start [47] fun _ => none) (twoPeers 0 1) _ hclear
  exact hfile [false, true, false] true [] rfl _ _ _ rfl

/-- Both peers number their first offer 0.  When their transfers alternate, the data of `a` goes
into the file of `b`, and the END of `b` finds no entry. -/
theorem transfers_collide :
    let m := Runs.run Mailroom.step (Mailroom.start (.start [47] fun _ => none) (twoPeers 0 0))
      [false, true, false, true]
    m.statuses = [.ok, .ok, .ok, .fatalError] ∧
      m.app.files [BVReceivedFile.dataDir, [97], [120]] = some [] ∧
      m.app.files [BVReceivedFile.dataDir, [98], [120]] = some [1] := by
  decide +kernel

end LocalChat
