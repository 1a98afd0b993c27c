import LocalChat.Lib.Runs
import Mathlib.Data.List.Nodup

/-!
# The browse waits of the Bonjour backend

`AwaitFDForProcessingBrowseResult` starts a wait for `browseFD`, and the handler of the wait calls
`DNSServiceProcessResult`, which blocks if there is nothing to read, and starts the next wait.  A
pause cancels the wait and starts a timer; a resume, by the user or by the timer, starts a wait
again.

What Asio does is in the steps: `cancel` aborts the waits that have not completed, and a completion
that is queued already still runs as successful.  When the descriptor gets ready, all waits that are
pending complete, with one and the same notification.

`OnPause` looks at the flag first, `OnResume` does not look at anything.  `one_wait_iff`: there is
one wait at most, exactly one while browsing is active, and each call of `DNSServiceProcessResult`
has a notification of its own, exactly if no resume comes while a wait is outstanding or before
`Browse`, and none while a completion is handled.

Handlers run in one piece, but for a completion: the mailbox thread may come in between the call of
`DNSServiceProcessResult` and the next wait.
-/

namespace LocalChat

namespace Discovery

structure BonjourWaits where
  isBrowsingActive : Bool
  /-- `Browse` has been called -/
  started : Bool
  /-- `dnsRef` is not null -/
  dnsRef : Bool
  /-- `browseFD` has a descriptor -/
  assigned : Bool
  /-- waits that have not completed -/
  pending : Nat
  /-- successful completions that are queued, with the notification they come from -/
  ready : List Nat
  /-- aborted completions that are queued -/
  aborted : Nat
  /-- completions that are queued with another error: waits without a descriptor -/
  errors : Nat
  /-- a completion is being handled -/
  handling : Bool
  /-- the pause timer has not expired -/
  pauseTimer : Bool
  /-- handlers of the pause timer that are queued -/
  expired : Nat
  /-- `ioContext` has been stopped and runs no more handlers -/
  stopped : Bool
  /-- the number of notifications so far -/
  notifications : Nat
  /-- the notifications `DNSServiceProcessResult` was called for -/
  processed : List Nat

inductive BonjourStep
  /-- `Browse`; it fails if there is no descriptor or it cannot be assigned -/
  | browse (ok : Bool)
  /-- the descriptor gets ready -/
  | notify
  /-- a successful completion, up to `DNSServiceProcessResult` and its result -/
  | complete (error : Bool)
  /-- the rest of the completion -/
  | finish
  | completeAborted
  | completeError
  /-- `OnPause` -/
  | pause
  /-- `OnResume`, for the user -/
  | resume
  | expire
  /-- `OnResume`, for the timer -/
  | timer
  /-- `OnShutdown` -/
  | shutdown

namespace BonjourWaits

def start : BonjourWaits :=
  ⟨false, false, true, false, 0, [], 0, 0, false, false, 0, false, 0, []⟩

def await (s : BonjourWaits) : BonjourWaits :=
  if s.isBrowsingActive && s.dnsRef then
    if s.assigned then { s with pending := s.pending + 1 } else { s with errors := s.errors + 1 }
  else s

def cancel (s : BonjourWaits) : BonjourWaits :=
  { s with pending := 0, aborted := s.aborted + s.pending }

def browse (ok : Bool) (s : BonjourWaits) : BonjourWaits :=
  if ok && s.dnsRef then
    await { s with started := true, assigned := true, isBrowsingActive := true }
  else { s with started := true, dnsRef := false }

/-- `ProcessDNSServiceBrowseResult`, up to the result of `DNSServiceProcessResult`. -/
def processResult (t : Nat) (error : Bool) (s : BonjourWaits) : BonjourWaits :=
  if s.isBrowsingActive && s.dnsRef then
    { s with
      processed := s.processed ++ [t]
      isBrowsingActive := !error
      handling := !error }
  else s

def finish (s : BonjourWaits) : BonjourWaits := await { s with handling := false }

def onPause (s : BonjourWaits) : BonjourWaits :=
  if s.isBrowsingActive then
    { { s with isBrowsingActive := false }.cancel with pauseTimer := true }
  else s

def onResume (s : BonjourWaits) : BonjourWaits :=
  await { s with pauseTimer := false, isBrowsingActive := true }

/-- Without a descriptor `cancel` throws here; the program ends then, and no handler runs any more
either. -/
def onShutdown (s : BonjourWaits) : BonjourWaits :=
  { { s with isBrowsingActive := false }.cancel with pauseTimer := false, stopped := true }

/-- The thread of `ioContext` can run another handler. -/
def Idle (s : BonjourWaits) : Prop := s.stopped = false ∧ s.handling = false

instance : DecidablePred Idle := fun s =>
  inferInstanceAs (Decidable (s.stopped = false ∧ s.handling = false))

/-- A step that cannot be taken changes nothing. -/
def step (s : BonjourWaits) : BonjourStep → BonjourWaits
  | .browse ok => if s.started then s else s.browse ok
  | .notify =>
    if s.stopped then s
    else
      { s with
        pending := 0
        ready := s.ready ++ List.replicate s.pending s.notifications
        notifications := s.notifications + 1 }
  | .complete error =>
    if s.Idle then
      match s.ready with
      | [] => s
      | t :: rest => processResult t error { s with ready := rest }
    else s
  | .finish => if s.handling then s.finish else s
  | .completeAborted => if s.Idle then { s with aborted := s.aborted - 1 } else s
  | .completeError =>
    if s.Idle ∧ 0 < s.errors then
      { s with errors := s.errors - 1, isBrowsingActive := false }
    else s
  | .pause => s.onPause
  | .resume => s.onResume
  | .expire =>
    if s.pauseTimer && !s.stopped then { s with pauseTimer := false, expired := s.expired + 1 }
    else s
  | .timer => if s.Idle ∧ 0 < s.expired then onResume { s with expired := s.expired - 1 } else s
  | .shutdown => s.onShutdown

/-- The waits that may still lead to a call of `DNSServiceProcessResult`. -/
def outstanding (s : BonjourWaits) : Nat := s.pending + s.ready.length

structure OneWait (s : BonjourWaits) : Prop where
  atMost : s.outstanding ≤ 1
  exactly : s.isBrowsingActive = true → s.handling = false → s.outstanding = 1
  own : s.processed.Nodup

variable {s : BonjourWaits}

/-- Whether a wait would be started, and with a descriptor. -/
def armed (s : BonjourWaits) : Bool := s.isBrowsingActive && s.dnsRef && s.assigned

theorem await_eq (s : BonjourWaits) : s.await = { s with
    pending := s.pending + (if s.armed then 1 else 0)
    errors := s.errors + (if s.isBrowsingActive && s.dnsRef && !s.assigned then 1 else 0) } := by
  obtain ⟨active, started, dnsRef, assigned⟩ := s
  cases active <;> cases dnsRef <;> cases assigned <;> rfl

/-! ### What no step breaks -/

/-- What the steps keep while there is one wait at most. -/
structure Sound (s : BonjourWaits) : Prop where
  started : s.started = false → s.assigned = false
  ref : s.assigned = true → s.dnsRef = true
  unassigned : s.assigned = false → s.pending = 0 ∧ s.ready = [] ∧ s.handling = false
  fresh : ∀ t ∈ s.ready ++ s.processed, t < s.notifications
  distinct : (s.ready ++ s.processed).Nodup

theorem sound_start : start.Sound :=
  ⟨fun _ => rfl, fun h => (by cases h), fun _ => ⟨rfl, rfl, rfl⟩, fun _ h => (by cases h),
    List.nodup_nil⟩

theorem Sound.await (h : s.Sound) : s.await.Sound := by
  rw [await_eq]
  refine ⟨h.started, h.ref, fun ha => ?_, h.fresh, h.distinct⟩
  obtain ⟨hpending, hrest⟩ := h.unassigned ha
  have hassigned : s.assigned = false := ha
  exact ⟨by simp [armed, hpending, hassigned], hrest⟩

theorem Sound.browse (h : s.Sound) (hs : s.started = false) (ok : Bool) : (s.browse ok).Sound := by
  rw [BonjourWaits.browse]
  obtain ⟨hpending, hready, hhandling⟩ := h.unassigned (h.started hs)
  split
  case isTrue hok =>
    refine Sound.await ⟨fun h => (by cases h), fun _ => (Bool.and_eq_true_iff.mp hok).2,
      fun h => (by cases h), h.fresh, h.distinct⟩
  case isFalse =>
    refine ⟨fun h => (by cases h), fun ha => ?_, h.unassigned, h.fresh, h.distinct⟩
    rw [h.started hs] at ha
    cases ha

theorem Sound.notify (h : s.Sound) (hone : s.pending ≤ 1) : Sound { s with
    pending := 0
    ready := s.ready ++ List.replicate s.pending s.notifications
    notifications := s.notifications + 1 } := by
  refine ⟨h.started, h.ref, fun ha => ?_, fun t ht => ?_, ?_⟩
  · obtain ⟨hpending, hready, hhandling⟩ := h.unassigned ha
    exact ⟨rfl, by simp [hpending, hready], hhandling⟩
  · rw [List.append_assoc, List.mem_append, List.mem_append] at ht
    rcases ht with ht | ht | ht
    · exact Nat.lt_succ_of_lt (h.fresh t (List.mem_append_left _ ht))
    · rw [List.eq_of_mem_replicate ht]
      exact Nat.lt_succ_self _
    · exact Nat.lt_succ_of_lt (h.fresh t (List.mem_append_right _ ht))
  · -- the new notification is on neither list, and it comes once at most
    have hnew : s.notifications ∉ s.ready ++ s.processed := fun hmem =>
      Nat.lt_irrefl _ (h.fresh _ hmem)
    rw [List.mem_append, not_or] at hnew
    have hperm : (s.ready ++ List.replicate s.pending s.notifications ++ s.processed).Perm
        (List.replicate s.pending s.notifications ++ (s.ready ++ s.processed)) := by
      rw [← List.append_assoc]
      exact List.perm_append_comm.append_right _
    refine hperm.nodup_iff.mpr (List.nodup_append.mpr ⟨?_, h.distinct, ?_⟩)
    · exact List.nodup_replicate.mpr hone
    · rintro x hx y hy rfl
      rw [List.eq_of_mem_replicate hx, List.mem_append] at hy
      exact hy.elim hnew.1 hnew.2

theorem Sound.assigned_of_ready (h : s.Sound) {t : Nat} {rest : List Nat}
    (ht : s.ready = t :: rest) : s.assigned = true := by
  cases ha : s.assigned with
  | true => rfl
  | false =>
    rw [(h.unassigned ha).2.1] at ht
    cases ht

theorem Sound.complete (h : s.Sound) {t : Nat} {rest : List Nat} (ht : s.ready = t :: rest)
    (error : Bool) : (processResult t error { s with ready := rest }).Sound := by
  have hassigned := h.assigned_of_ready ht
  have hperm : (rest ++ (s.processed ++ [t])).Perm (s.ready ++ s.processed) := by
    rw [ht, ← List.append_assoc]
    exact List.perm_append_comm
  have hsub : (rest ++ s.processed).Sublist (s.ready ++ s.processed) := by
    rw [ht]
    exact (List.sublist_cons_self t rest).append_right _
  rw [processResult]
  split
  · refine ⟨h.started, h.ref, fun ha => ?_, fun x hx => ?_, hperm.nodup_iff.mpr h.distinct⟩
    · exact absurd (hassigned.symm.trans ha) (by decide)
    · exact h.fresh x (hperm.subset hx)
  · refine ⟨h.started, h.ref, fun ha => ?_, fun x hx => ?_, h.distinct.sublist hsub⟩
    · exact absurd (hassigned.symm.trans ha) (by decide)
    · exact h.fresh x (hsub.subset hx)

theorem Sound.finish (h : s.Sound) : s.finish.Sound :=
  Sound.await ⟨h.started, h.ref, fun ha => ⟨(h.unassigned ha).1, (h.unassigned ha).2.1, rfl⟩,
    h.fresh, h.distinct⟩

theorem Sound.onResume (h : s.Sound) : s.onResume.Sound :=
  Sound.await ⟨h.started, h.ref, h.unassigned, h.fresh, h.distinct⟩

theorem Sound.cancel (h : s.Sound) : s.cancel.Sound :=
  ⟨h.started, h.ref, fun ha => ⟨rfl, (h.unassigned ha).2⟩, h.fresh, h.distinct⟩

theorem Sound.step (h : s.Sound) (hone : s.OneWait) (a : BonjourStep) : (s.step a).Sound := by
  cases a with
  | browse ok =>
    simp only [BonjourWaits.step]
    split
    · exact h
    · next hs => exact h.browse (by simpa using hs) ok
  | notify =>
    simp only [BonjourWaits.step]
    split
    · exact h
    · exact h.notify (Nat.le_trans (Nat.le_add_right _ _) hone.atMost)
  | complete error =>
    simp only [BonjourWaits.step]
    split
    · split
      · exact h
      · next ht => exact h.complete ht error
    · exact h
  | finish =>
    simp only [BonjourWaits.step]
    split
    · exact h.finish
    · exact h
  | pause =>
    rw [BonjourWaits.step, onPause]
    split
    · have hc := h.cancel
      exact ⟨hc.started, hc.ref, hc.unassigned, hc.fresh, hc.distinct⟩
    · exact h
  | resume => exact h.onResume
  | timer =>
    simp only [BonjourWaits.step]
    split
    · exact Sound.onResume ⟨h.started, h.ref, h.unassigned, h.fresh, h.distinct⟩
    · exact h
  | shutdown =>
    have hc := h.cancel
    exact ⟨hc.started, hc.ref, hc.unassigned, hc.fresh, hc.distinct⟩
  | _ =>
    simp only [BonjourWaits.step]
    split
    · exact ⟨h.started, h.ref, h.unassigned, h.fresh, h.distinct⟩
    · exact h

/-! ### Waits -/

/-- The contract of a step: a resume finds a descriptor and no outstanding wait, and so does the end
of a completion if browsing is active. -/
def Solitary (s : BonjourWaits) : BonjourStep → Prop
  | .resume => s.assigned = true ∧ s.outstanding = 0
  | .timer => s.Idle ∧ 0 < s.expired → s.assigned = true ∧ s.outstanding = 0
  | .finish => s.handling = true → s.isBrowsingActive = true → s.outstanding = 0
  | _ => True

theorem outstanding_await (s : BonjourWaits) :
    s.await.outstanding = s.outstanding + if s.armed then 1 else 0 := by
  rw [await_eq, outstanding, outstanding]
  dsimp only
  omega

theorem await_frame (s : BonjourWaits) : s.await.isBrowsingActive = s.isBrowsingActive ∧
    s.await.handling = s.handling ∧ s.await.processed = s.processed := by
  rw [await_eq]
  exact ⟨rfl, rfl, rfl⟩

theorem onResume_iff (h : s.Sound) (hone : s.OneWait) :
    s.onResume.OneWait ↔ s.assigned = true ∧ s.outstanding = 0 := by
  obtain ⟨hactive, hhandling, hprocessed⟩ :=
    await_frame { s with pauseTimer := false, isBrowsingActive := true }
  have hcount : s.onResume.outstanding = s.outstanding + if s.dnsRef && s.assigned then 1 else 0 :=
    outstanding_await _
  constructor
  · intro hres
    cases ha : s.assigned with
    | true =>
      have hle := hres.atMost
      rw [hcount, h.ref ha, ha] at hle
      exact ⟨rfl, by simpa using hle⟩
    | false =>
      -- without a descriptor nothing is outstanding, although browsing is active
      obtain ⟨hpending, hready, hidle⟩ := h.unassigned ha
      have hnone : s.outstanding = 0 := by rw [outstanding, hpending, hready]; rfl
      have hexactly := hres.exactly hactive (hhandling.trans hidle)
      rw [hcount, ha, hnone, Bool.and_false] at hexactly
      cases hexactly
  · rintro ⟨ha, hnone⟩
    have hres : s.onResume.outstanding = 1 := by rw [hcount, h.ref ha, ha, hnone]; rfl
    exact ⟨Nat.le_of_eq hres, fun _ _ => hres, hprocessed.symm ▸ hone.own⟩

theorem finish_iff (h : s.Sound) (hone : s.OneWait) (hs : s.handling = true) :
    s.finish.OneWait ↔ (s.isBrowsingActive = true → s.outstanding = 0) := by
  obtain ⟨hactive, -, hprocessed⟩ := await_frame { s with handling := false }
  have hassigned : s.assigned = true := by
    cases ha : s.assigned with
    | true => rfl
    | false =>
      rw [(h.unassigned ha).2.2] at hs
      cases hs
  have harmed : s.armed = s.isBrowsingActive := by
    rw [armed, h.ref hassigned, hassigned, Bool.and_true, Bool.and_true]
  have hcount : s.finish.outstanding = s.outstanding + if s.isBrowsingActive then 1 else 0 :=
    harmed ▸ outstanding_await { s with handling := false }
  by_cases ha : s.isBrowsingActive = true
  · rw [if_pos ha] at hcount
    constructor
    · intro hres _
      have hle := hres.atMost
      omega
    · intro hnone
      have hres : s.finish.outstanding = 1 := by rw [hcount, hnone ha]
      exact ⟨Nat.le_of_eq hres, fun _ _ => hres, hprocessed.symm ▸ hone.own⟩
  · rw [if_neg ha, Nat.add_zero] at hcount
    refine iff_of_true ⟨hcount ▸ hone.atMost, fun hact => ?_, hprocessed.symm ▸ hone.own⟩
      fun hact => absurd hact ha
    exact absurd (hactive.symm.trans hact) ha

/-! ### The other steps -/

/-- A step after which browsing is not active, with no more waits than before. -/
theorem OneWait.of_inactive {s' : BonjourWaits} (h : s.OneWait)
    (hactive : s'.isBrowsingActive = false) (hle : s'.outstanding ≤ s.outstanding)
    (hown : s'.processed.Nodup) : s'.OneWait :=
  ⟨Nat.le_trans hle h.atMost, fun hact => absurd (hactive.symm.trans hact) (by decide), hown⟩

theorem OneWait.of_same {s' : BonjourWaits} (h : s.OneWait)
    (hactive : s'.isBrowsingActive = s.isBrowsingActive) (hhandling : s'.handling = s.handling)
    (hcount : s'.outstanding = s.outstanding) (hprocessed : s'.processed = s.processed) :
    s'.OneWait := by
  refine ⟨hcount ▸ h.atMost, fun hact hidle => ?_, hprocessed ▸ h.own⟩
  rw [hcount]
  exact h.exactly (hactive ▸ hact) (hhandling ▸ hidle)

theorem outstanding_cancel (s : BonjourWaits) : s.cancel.outstanding ≤ s.outstanding := by
  simp [cancel, outstanding]

theorem OneWait.browse (h : s.Sound) (hone : s.OneWait) (hs : s.started = false) (ok : Bool) :
    (s.browse ok).OneWait := by
  obtain ⟨hpending, hready, hidle⟩ := h.unassigned (h.started hs)
  have hnone : s.outstanding = 0 := by rw [outstanding, hpending, hready]; rfl
  rw [BonjourWaits.browse]
  split
  case isTrue hok =>
    have href : s.dnsRef = true := (Bool.and_eq_true_iff.mp hok).2
    have hcount : (BonjourWaits.await { s with
        started := true, assigned := true, isBrowsingActive := true }).outstanding = 1 := by
      rw [outstanding_await, armed, href]
      exact congrArg (· + 1) hnone
    obtain ⟨-, -, hprocessed⟩ :=
      await_frame { s with started := true, assigned := true, isBrowsingActive := true }
    exact ⟨Nat.le_of_eq hcount, fun _ _ => hcount, hprocessed.symm ▸ hone.own⟩
  case isFalse => exact hone.of_same rfl rfl rfl rfl

theorem Sound.own (h : s.Sound) : s.processed.Nodup :=
  h.distinct.sublist (List.sublist_append_right _ _)

theorem OneWait.complete (h : s.Sound) (hone : s.OneWait) {t : Nat} {rest : List Nat}
    (ht : s.ready = t :: rest) (error : Bool) :
    (processResult t error { s with ready := rest }).OneWait := by
  have hown := (h.complete ht error).own
  have hle : s.pending + rest.length ≤ s.outstanding := by
    rw [outstanding, ht, List.length_cons]
    omega
  rw [processResult] at hown ⊢
  split at hown
  case isTrue hactive =>
    rw [if_pos hactive]
    -- browsing goes on only while the completion is being handled
    refine ⟨Nat.le_trans hle hone.atMost, fun hact hidle => ?_, hown⟩
    exact absurd (hact.symm.trans hidle) (by decide)
  case isFalse hinactive =>
    rw [if_neg hinactive]
    have hassigned := h.assigned_of_ready ht
    refine hone.of_inactive ?_ hle hown
    rw [h.ref hassigned, Bool.and_true, Bool.not_eq_true] at hinactive
    exact hinactive

theorem oneWait_step_iff (h : s.Sound) (hone : s.OneWait) (a : BonjourStep) :
    (s.step a).OneWait ↔ s.Solitary a := by
  cases a with
  | resume => exact onResume_iff h hone
  | timer =>
    simp only [step, Solitary]
    split
    case isTrue hready =>
      rw [onResume_iff (s := { s with expired := s.expired - 1 })
        ⟨h.started, h.ref, h.unassigned, h.fresh, h.distinct⟩ (hone.of_same rfl rfl rfl rfl)]
      exact ⟨fun hres _ => hres, fun hres => hres hready⟩
    case isFalse hbusy => exact iff_of_true hone fun hready => absurd hready hbusy
  | finish =>
    simp only [step, Solitary]
    split
    case isTrue hs =>
      rw [finish_iff h hone hs]
      exact ⟨fun hres _ => hres, fun hres => hres hs⟩
    case isFalse hs => exact iff_of_true hone fun hs' => absurd hs' hs
  | browse ok =>
    refine iff_of_true ?_ trivial
    simp only [step]
    split
    · exact hone
    · next hs => exact OneWait.browse h hone (by simpa using hs) ok
  | notify =>
    refine iff_of_true ?_ trivial
    simp only [step]
    split
    · exact hone
    · refine hone.of_same rfl rfl ?_ rfl
      simp only [outstanding, List.length_append, List.length_replicate]
      omega
  | complete error =>
    refine iff_of_true ?_ trivial
    simp only [step]
    split
    · split
      · exact hone
      · next ht => exact OneWait.complete h hone ht error
    · exact hone
  | completeError =>
    refine iff_of_true ?_ trivial
    simp only [step]
    split
    · exact hone.of_inactive rfl (Nat.le_refl _) hone.own
    · exact hone
  | pause =>
    refine iff_of_true ?_ trivial
    rw [step, onPause]
    split
    · exact hone.of_inactive rfl (outstanding_cancel s) hone.own
    · exact hone
  | shutdown =>
    exact iff_of_true (hone.of_inactive rfl (outstanding_cancel s) hone.own) trivial
  | _ =>
    refine iff_of_true ?_ trivial
    simp only [step]
    split
    · exact hone.of_same rfl rfl rfl rfl
    · exact hone

/-- **One browse wait**, in every state of a run, exactly if every step of the run meets its
contract. -/
theorem one_wait_iff (as : List BonjourStep) :
    (∀ p, p <+: as → (Runs.run step start p).OneWait) ↔ Runs.Meets step Solitary start as :=
  Runs.forall_prefix_iff_meets (I := fun s : BonjourWaits => s.Sound ∧ s.OneWait)
    (fun _ h => h.2)
    (fun _ a h hok => ⟨h.1.step h.2 a, (oneWait_step_iff h.1 h.2 a).mpr hok⟩)
    (fun _ a h => oneWait_step_iff h.1 h.2 a)
    ⟨sound_start, by decide, fun hact => (by cases hact), List.nodup_nil⟩ as

/-- The user resumes while browsing is active: there are two waits, one notification completes both,
and `DNSServiceProcessResult` is called for it twice. -/
theorem resume_doubles_wait : ¬ (Runs.run step start [.browse true, .resume]).OneWait ∧
    (Runs.run step start [.browse true, .resume, .notify, .complete false, .finish,
      .complete false]).processed = [0, 0] :=
  ⟨fun h => absurd h.atMost (by decide), by decide⟩

end BonjourWaits

end Discovery

end LocalChat
