import LocalChat.Lib.Runs
import Mathlib.Logic.Function.Iterate

/-!
# The worker of the Avahi backend

`Browse` runs in a thread of its own: it polls, or it waits in `Pause` while `isPaused` is set.  The
mailbox thread sets the two flags and notifies `pauseCV`, without `pauseMutex`.

`OnShutdown` only takes `isBrowsingActive` back.  So a worker that waits in `Pause`, or is on its
way there, is not released by it; and a worker that starts after it sets the flag again.

`shutdown_releases_iff`: after a shutdown the worker can always leave `Browse` by its own steps
exactly if the shutdown does not come while the worker is paused, no pause comes while the worker
looks whether it is paused, and the worker has started before.

`avahi_simple_poll_iterate` does not fail here.
-/

namespace LocalChat

namespace Discovery

/-- Where the worker thread is in `Browse` and `Pause`. -/
inductive WorkerAt
  | notStarted
  /-- before `while (GetIsBrowsingActive())` -/
  | loopTest
  /-- before `if (!GetIsPaused())` -/
  | pausedTest
  /-- in `avahi_simple_poll_iterate` -/
  | polling
  /-- in `Pause`, before the predicate of the wait -/
  | pauseTest
  /-- the predicate was false -/
  | aboutToBlock
  | blocked
  /-- woken from `pauseCV` -/
  | woken
  /-- `Browse` has returned -/
  | exited
  deriving DecidableEq, Repr

inductive MailboxAt
  | ready
  /-- in `OnResume`, after the flag is taken back and before `notify_all` -/
  | resuming
  /-- it has left `ListenToMail`, after `BVEVENTTYPE_TERMINATE_ALL` -/
  | ended
  deriving DecidableEq, Repr

structure AvahiThreads where
  isBrowsingActive : Bool
  isPaused : Bool
  worker : WorkerAt
  mailbox : MailboxAt
  /-- `OnShutdown` has returned -/
  isShutDown : Bool
  deriving DecidableEq, Repr

inductive AvahiStep
  /-- the next step of the worker -/
  | work
  /-- `pauseCV` wakes without a notification -/
  | wakeSpuriously
  /-- `OnPause` -/
  | pause
  /-- the first half of `OnResume` -/
  | resume
  /-- the second half of `OnResume` -/
  | notifyAll
  /-- `OnShutdown`, for `BVEVENTTYPE_DISCOVERY_REQUEST_SHUTDOWN` -/
  | shutdown
  /-- `OnShutdown`, for `BVEVENTTYPE_TERMINATE_ALL` -/
  | terminateAll
  deriving DecidableEq, Repr

namespace AvahiThreads

def start : AvahiThreads := ⟨false, false, .notStarted, .ready, false⟩

/-- The next step of the worker.  A blocked worker has none. -/
def work (s : AvahiThreads) : AvahiThreads :=
  match s.worker with
  | .notStarted => { s with isBrowsingActive := true, worker := .loopTest }
  | .loopTest => { s with worker := if s.isBrowsingActive then .pausedTest else .exited }
  | .pausedTest => { s with worker := if s.isPaused then .pauseTest else .polling }
  | .polling => { s with worker := .loopTest }
  | .pauseTest => { s with worker := if s.isPaused then .aboutToBlock else .loopTest }
  | .aboutToBlock => { s with worker := .blocked }
  | .blocked => s
  | .woken => { s with worker := .pauseTest }
  | .exited => s

def wake (s : AvahiThreads) : AvahiThreads :=
  if s.worker = .blocked then { s with worker := .woken } else s

/-- A step that its thread cannot take changes nothing. -/
def step (s : AvahiThreads) : AvahiStep → AvahiThreads
  | .work => s.work
  | .wakeSpuriously => s.wake
  | .pause => if s.mailbox = .ready then { s with isPaused := true } else s
  | .resume => if s.mailbox = .ready then { s with isPaused := false, mailbox := .resuming } else s
  | .notifyAll => if s.mailbox = .resuming then { s.wake with mailbox := .ready } else s
  | .shutdown =>
    if s.mailbox = .ready then { s with isBrowsingActive := false, isShutDown := true } else s
  | .terminateAll =>
    if s.mailbox = .ready then
      { s with isBrowsingActive := false, isShutDown := true, mailbox := .ended }
    else s

/-- The worker leaves `Browse` if only it takes steps. -/
def CanLeave (s : AvahiThreads) : Prop := ∃ n, (work^[n] s).worker = .exited

/-- After a shutdown, a worker that is in `Browse` can leave it. -/
def Released (s : AvahiThreads) : Prop :=
  s.isShutDown = true → s.worker = .notStarted ∨ s.CanLeave

end AvahiThreads

/-! ### Leaving -/

namespace WorkerAt

/-- The worker looks at `isPaused` before it looks at `isBrowsingActive` again. -/
def LooksAtPause (w : WorkerAt) : Prop := w = .pausedTest ∨ w = .pauseTest ∨ w = .woken

def Waits (w : WorkerAt) : Prop := w = .aboutToBlock ∨ w = .blocked

instance : DecidablePred LooksAtPause := fun w =>
  inferInstanceAs (Decidable (w = .pausedTest ∨ w = .pauseTest ∨ w = .woken))

instance : DecidablePred Waits := fun w =>
  inferInstanceAs (Decidable (w = .aboutToBlock ∨ w = .blocked))

end WorkerAt

namespace AvahiThreads

variable {s : AvahiThreads}

/-- The way out is open: the loop has been told to stop, and the worker gets back to it. -/
def Free (s : AvahiThreads) : Prop :=
  s.worker = .exited ∨ (s.isBrowsingActive = false ∧ s.worker ≠ .notStarted ∧ ¬ s.worker.Waits ∧
    (s.isPaused = true → ¬ s.worker.LooksAtPause))

instance (s : AvahiThreads) : Decidable s.Free :=
  inferInstanceAs (Decidable (s.worker = .exited ∨ (s.isBrowsingActive = false ∧
    s.worker ≠ .notStarted ∧ ¬ s.worker.Waits ∧ (s.isPaused = true → ¬ s.worker.LooksAtPause))))

theorem free_of_work (s : AvahiThreads) (h : s.work.Free) : s.Free := by
  obtain ⟨active, paused, worker, mailbox, shut⟩ := s
  revert h
  cases worker <;> cases active <;> cases paused <;> simp [work, Free, WorkerAt.Waits,
    WorkerAt.LooksAtPause]

/-- Three steps are enough, from the predicate of the wait back to the loop and out of it. -/
theorem work_of_free (h : s.Free) : (work^[3] s).worker = .exited := by
  obtain ⟨active, paused, worker, mailbox, shut⟩ := s
  revert h
  cases worker <;> cases active <;> cases paused <;> simp [work, Free, WorkerAt.Waits,
    WorkerAt.LooksAtPause]

theorem canLeave_iff_free : s.CanLeave ↔ s.Free := by
  constructor
  · rintro ⟨n, hn⟩
    induction n generalizing s with
    | zero => exact .inl hn
    | succ n ih => exact free_of_work s (ih hn)
  · exact fun h => ⟨3, work_of_free h⟩

theorem CanLeave.work (h : s.CanLeave) : s.work.CanLeave := by
  obtain ⟨n, hn⟩ := h
  refine ⟨n, ?_⟩
  rw [← Function.iterate_succ_apply, Function.iterate_succ_apply', AvahiThreads.work, hn]
  exact hn

/-! ### Steps -/

def Releasing (s : AvahiThreads) : AvahiStep → Prop
  | .work => s.isShutDown = true → s.worker ≠ .notStarted
  | .pause => s.mailbox = .ready → s.isShutDown = true → ¬ s.worker.LooksAtPause
  | .shutdown =>
    s.mailbox = .ready → ¬ s.worker.Waits ∧ (s.isPaused = true → ¬ s.worker.LooksAtPause)
  | .terminateAll =>
    s.mailbox = .ready → ¬ s.worker.Waits ∧ (s.isPaused = true → ¬ s.worker.LooksAtPause)
  | _ => True

theorem released_iff : s.Released ↔ (s.isShutDown = true → s.worker = .notStarted ∨ s.Free) := by
  rw [Released, canLeave_iff_free]

theorem Free.wake (h : s.worker = .notStarted ∨ s.Free) : s.wake = s := by
  rw [AvahiThreads.wake, if_neg]
  intro hb
  rcases h with h | h | h
  · rw [hb] at h
    cases h
  · rw [hb] at h
    cases h
  · exact h.2.2.1 (.inr hb)

theorem Released.wake (h : s.Released) : s.wake.Released := by
  intro hs
  have hshut : s.isShutDown = true := by
    rw [← hs, AvahiThreads.wake]
    split <;> rfl
  rw [Free.wake (released_iff.mp h hshut)]
  exact h hshut

theorem Released.setMailbox (h : s.Released) (m : MailboxAt) :
    Released { s with mailbox := m } := by
  rw [released_iff] at h ⊢
  exact h

theorem Released.resume (h : s.Released) {m : MailboxAt} :
    Released { s with isPaused := false, mailbox := m } := by
  rw [released_iff] at h ⊢
  intro hs
  rcases h hs with hstart | hexit | ⟨hactive, hstart, hwaits, -⟩
  · exact .inl hstart
  · exact .inr (.inl hexit)
  · exact .inr (.inr ⟨hactive, hstart, hwaits, fun hp => by cases hp⟩)

theorem released_work_iff (h : s.Released) : s.work.Released ↔ s.Releasing .work := by
  have hshut : s.work.isShutDown = s.isShutDown := by
    rw [work]
    split <;> rfl
  rw [Released, hshut, Releasing]
  refine forall_congr' fun hs => ?_
  constructor
  · -- a worker that starts sets `isBrowsingActive`
    rintro hrel hstart
    have hwork : s.work = { s with isBrowsingActive := true, worker := .loopTest } := by
      rw [work, hstart]
    rw [hwork, canLeave_iff_free] at hrel
    simp [Free] at hrel
  · intro hstart
    exact .inr ((h hs).resolve_left hstart).work

theorem released_pause_iff (h : s.Released) : (s.step .pause).Released ↔ s.Releasing .pause := by
  rw [released_iff] at h ⊢
  simp only [step, Releasing]
  split
  case isFalse hbusy => exact iff_of_true h fun hready => absurd hready hbusy
  case isTrue hready =>
    simp only [hready, true_implies]
    refine forall_congr' fun hs => ?_
    rcases h hs with hstart | hexit | ⟨hactive, hstart, hwaits, -⟩
    · simp [hstart, WorkerAt.LooksAtPause]
    · simp [Free, hexit, WorkerAt.LooksAtPause]
    · simp only [Free, hactive, hstart, hwaits, false_or, true_and, true_implies, not_false_eq_true,
        ne_eq]
      constructor
      · rintro (hexit | hlook)
        · simp [hexit, WorkerAt.LooksAtPause]
        · exact hlook
      · exact .inr

theorem released_shutdown_iff {m : MailboxAt} :
    Released { s with isBrowsingActive := false, isShutDown := true, mailbox := m } ↔
      ¬ s.worker.Waits ∧ (s.isPaused = true → ¬ s.worker.LooksAtPause) := by
  rw [released_iff]
  simp only [Free, true_implies, true_and]
  constructor
  · rintro (hstart | hexit | ⟨-, hfree⟩)
    · simp [hstart, WorkerAt.Waits, WorkerAt.LooksAtPause]
    · simp [hexit, WorkerAt.Waits, WorkerAt.LooksAtPause]
    · exact hfree
  · intro hfree
    by_cases hstart : s.worker = .notStarted
    · exact .inl hstart
    · exact .inr (.inr ⟨hstart, hfree⟩)

theorem released_step_iff (h : s.Released) (a : AvahiStep) :
    (s.step a).Released ↔ s.Releasing a := by
  cases a with
  | work => exact released_work_iff h
  | pause => exact released_pause_iff h
  | shutdown =>
    simp only [step, Releasing]
    split
    case isTrue hready =>
      have hrel := released_shutdown_iff (s := s) (m := s.mailbox)
      simpa only [hready, true_implies] using hrel
    case isFalse hbusy => exact iff_of_true h fun hready => absurd hready hbusy
  | terminateAll =>
    simp only [step, Releasing]
    split
    case isTrue hready => simpa only [hready, true_implies] using released_shutdown_iff
    case isFalse hbusy => exact iff_of_true h fun hready => absurd hready hbusy
  | wakeSpuriously => exact iff_of_true h.wake trivial
  | resume =>
    refine iff_of_true ?_ trivial
    simp only [step]
    split
    · exact h.resume
    · exact h
  | notifyAll =>
    refine iff_of_true ?_ trivial
    simp only [step]
    split
    · exact h.wake.setMailbox .ready
    · exact h

/-- **Shutdown releases the worker**, in every state of a run, exactly if every step of the run
meets its contract. -/
theorem shutdown_releases_iff (as : List AvahiStep) :
    (∀ p, p <+: as → (Runs.run step start p).Released) ↔ Runs.Meets step Releasing start as :=
  Runs.forall_prefix_iff_meets (I := Released) (fun _ h => h)
    (fun _ a h hok => (released_step_iff h a).mpr hok) (fun _ a h => released_step_iff h a)
    (fun hs => by cases hs) as

/-- The worker waits in `Pause` when the shutdown comes. -/
theorem paused_worker_stays : ¬ (Runs.run step start
    [.work, .pause, .work, .work, .work, .work, .shutdown]).Released := by
  rw [released_iff]
  decide

end AvahiThreads

end Discovery

end LocalChat
