import LocalChat.Program.Shutdown

/-!
# Waiting for the last message

A thread in `wait_and_pop` evaluates its predicate and then blocks.  A message that comes in between
the two wakes nobody, and if it is the last one the thread waits for ever.  `Threads` are the three
threads of the program with their places in `wait_and_pop`; a push notifies in the same step.

* `Prompt`: no wakeup is lost, since a thread blocks only while its mailbox is still empty.
  `Awake.step`: so a blocked thread has nothing in its mailbox.
* `Closed.step`: after the quit key each step of a thread lowers `threadsWork`.
* `threads_end`: so the threads take only so many steps, and when there is none to take they have
  returned.
-/

namespace LocalChat

open Exchange

variable {α : Type*}

inductive MailThread
  | broker
  | discovery
  | app
  deriving DecidableEq, Repr

/-- Where a thread is in `wait_and_pop`. -/
inductive Waiter
  /-- it evaluates the predicate next -/
  | looking
  /-- the predicate was false -/
  | tested
  /-- it waits at `data_cond` -/
  | blocked
  deriving DecidableEq, Repr

structure Threads (α : Type*) where
  exchange : Exchange α
  waiter : MailThread → Waiter

inductive ThreadsAction (α : Type*)
  /-- the predicate is true; the thread pops a message and handles it -/
  | turn (t : MailThread)
  /-- the predicate is false -/
  | test (t : MailThread)
  | block (t : MailThread)
  | wakeSpuriously (t : MailThread)
  | send (m : BVMessage α)
  | put (m : BVMessage α) (h : m.eventT ∈ sessionEvents)

namespace Program

def mailbox (p : Program) : MailThread → QueueRef
  | .broker => p.broker.inMailBox
  | .discovery => p.discovery.inMailBox
  | .app => p.app.inMailBox

def inLoop (p : Program) (x : Exchange α) : MailThread → Bool
  | .broker => x.post.isRunning
  | .discovery => x.listening p.discovery.id
  | .app => x.listening p.app.id

def turnOf (p : Program) : MailThread → ProgramAction α
  | .broker => .thread .broker
  | .discovery => .thread (.listen p.discovery.id)
  | .app => .thread (.listen p.app.id)

/-- Each thread whose mailbox grows and that is blocked is notified. -/
def act (p : Program) (cs : Callbacks α) (s : Threads α) (a : ProgramAction α) : Threads α :=
  let x := p.step cs s.exchange a
  { exchange := x
    waiter := fun t =>
      if s.waiter t = .blocked ∧
          (s.exchange.post.queue (p.mailbox t)).length < (x.post.queue (p.mailbox t)).length then
        .looking
      else s.waiter t }

def setWaiter (t : MailThread) (w : Waiter) (s : Threads α) : Threads α :=
  { s with waiter := Function.update s.waiter t w }

def steps (p : Program) (s : Threads α) : ThreadsAction α → Bool
  | .turn t => s.waiter t = .looking && s.exchange.moves (p.turnOf t)
  | .test t =>
    s.waiter t = .looking && p.inLoop s.exchange t &&
      (s.exchange.post.queue (p.mailbox t)).isEmpty
  | .block t => s.waiter t = .tested
  | _ => false

def threadsStep (p : Program) (cs : Callbacks α) (s : Threads α) :
    ThreadsAction α → Threads α
  | .turn t => if p.steps s (.turn t) then p.act cs s (p.turnOf t) else s
  | .test t => if p.steps s (.test t) then setWaiter t .tested s else s
  | .block t => if p.steps s (.block t) then setWaiter t .blocked s else s
  | .wakeSpuriously t => if s.waiter t = .blocked then setWaiter t .looking s else s
  | .send m => p.act cs s (.thread (.send m))
  | .put m h => p.act cs s (.put m h)

def threadsStart (p : Program) : Threads α := ⟨.start p.broker, fun _ => .looking⟩

variable {p : Program} {cs : Callbacks α} {s : Threads α}

/-- Every step is one of the exchange, or one that leaves it alone. -/
theorem threadsStep_exchange (p : Program) (cs : Callbacks α) (s : Threads α)
    (a : ThreadsAction α) :
    (p.threadsStep cs s a).exchange = s.exchange ∨
      ∃ b, (p.threadsStep cs s a).exchange = p.step cs s.exchange b := by
  cases a with
  | turn t =>
    rw [threadsStep]
    split
    · exact .inr ⟨_, rfl⟩
    · exact .inl rfl
  | test t =>
    rw [threadsStep]
    split <;> exact .inl rfl
  | block t =>
    rw [threadsStep]
    split <;> exact .inl rfl
  | wakeSpuriously t =>
    rw [threadsStep]
    split <;> exact .inl rfl
  | send m => exact .inr ⟨.thread (.send m), rfl⟩
  | put m h => exact .inr ⟨.put m h, rfl⟩

/-! ### No wakeup is lost -/

/-- A thread blocks only while its mailbox is still empty. -/
def Prompt (p : Program) (s : Threads α) : ThreadsAction α → Prop
  | .block t => s.waiter t = .tested → s.exchange.post.queue (p.mailbox t) = []
  | _ => True

def Awake (p : Program) (s : Threads α) : Prop :=
  ∀ t, s.waiter t = .blocked → s.exchange.post.queue (p.mailbox t) = []

/-- A mailbox that is no longer empty has grown. -/
theorem Awake.act (h : p.Awake s) (a : ProgramAction α) : p.Awake (p.act cs s a) := by
  intro t hblocked
  simp only [Program.act] at hblocked ⊢
  split at hblocked
  · cases hblocked
  · next hquiet =>
    rw [not_and, h t hblocked, List.length_nil, Nat.not_lt, Nat.le_zero] at hquiet
    exact List.eq_nil_of_length_eq_zero (hquiet hblocked)

theorem Awake.setWaiter (h : p.Awake s) {t : MailThread} {w : Waiter}
    (hw : w = .blocked → s.exchange.post.queue (p.mailbox t) = []) :
    p.Awake (setWaiter t w s) := by
  intro t' hblocked
  simp only [Program.setWaiter] at hblocked ⊢
  rcases eq_or_ne t' t with rfl | hne
  · rw [Function.update_self] at hblocked
    exact hw hblocked
  · rw [Function.update_of_ne hne] at hblocked
    exact h t' hblocked

theorem Awake.step (h : p.Awake s) {a : ThreadsAction α} (hprompt : p.Prompt s a) :
    p.Awake (p.threadsStep cs s a) := by
  cases a with
  | turn t =>
    rw [threadsStep]
    split
    · exact h.act _
    · exact h
  | test t =>
    rw [threadsStep]
    split
    · exact h.setWaiter Waiter.noConfusion
    · exact h
  | block t =>
    rw [threadsStep]
    split
    · next hsteps => exact h.setWaiter fun _ => hprompt (of_decide_eq_true hsteps)
    · exact h
  | wakeSpuriously t =>
    rw [threadsStep]
    split
    · exact h.setWaiter Waiter.noConfusion
    · exact h
  | send m => exact h.act _
  | put m hm => exact h.act _

/-! ### The steps that are left -/

/-- How many steps a thread takes before it is blocked. -/
def toBlock : Waiter → Nat
  | .looking => 2
  | .tested => 1
  | .blocked => 0

def toBlockAll (s : Threads α) : Nat :=
  toBlock (s.waiter .broker) + toBlock (s.waiter .discovery) + toBlock (s.waiter .app)

/-- What the threads have to do, in steps.  A message may wake all of them. -/
def threadsWork (p : Program) (s : Threads α) : Nat := 7 * p.work s.exchange + toBlockAll s

def threadsAdds : ThreadsAction α → Nat
  | .wakeSpuriously _ => 2
  | .send _ => 6
  | .put _ _ => 13
  | _ => 0

theorem toBlockAll_le (s : Threads α) : toBlockAll s ≤ 6 := by
  have hle : ∀ w, toBlock w ≤ 2 := by
    intro w
    cases w <;> decide
  have hbroker := hle (s.waiter .broker)
  have hdiscovery := hle (s.waiter .discovery)
  have happ := hle (s.waiter .app)
  unfold toBlockAll
  omega

theorem toBlockAll_setWaiter (t : MailThread) (w : Waiter) (s : Threads α) :
    toBlockAll (setWaiter t w s) + toBlock (s.waiter t) = toBlockAll s + toBlock w := by
  cases t with
  | broker =>
    simp [toBlockAll, setWaiter]
    omega
  | discovery =>
    simp [toBlockAll, setWaiter]
    omega
  | app =>
    simp [toBlockAll, setWaiter]
    omega

/-- The last message is on its way to the threads. -/
def Closed (p : Program) (cs : Callbacks α) (s : Threads α) : Prop := Closing p cs s.exchange

variable {onDiscovery onApp : BVEventType → Option α → BVStatus}

/-- An action of the exchange: what it adds to the work, and six steps for threads that it wakes. -/
theorem Closed.act (hp : p.Wired) (h : p.Closed (p.callbacks onDiscovery onApp) s)
    (a : ProgramAction α) :
    p.Closed (p.callbacks onDiscovery onApp) (p.act (p.callbacks onDiscovery onApp) s a) ∧
      p.threadsWork (p.act (p.callbacks onDiscovery onApp) s a) +
          7 * (s.exchange.moves a).toNat ≤ 7 * p.work s.exchange + 7 * adds a + 6 := by
  obtain ⟨hclosing, hwork⟩ := Closing.step hp h a
  refine ⟨hclosing, ?_⟩
  have hle := toBlockAll_le (p.act (p.callbacks onDiscovery onApp) s a)
  unfold threadsWork
  show 7 * p.work (p.step (p.callbacks onDiscovery onApp) s.exchange a) + _ + _ ≤ _
  omega

theorem Closed.setWaiter (h : p.Closed cs s) {t : MailThread} {w : Waiter} {n : Nat}
    (hn : toBlock w + n ≤ toBlock (s.waiter t)) :
    p.Closed cs (setWaiter t w s) ∧ p.threadsWork (setWaiter t w s) + n ≤ p.threadsWork s := by
  refine ⟨h, ?_⟩
  have hset := toBlockAll_setWaiter t w s
  unfold threadsWork
  show 7 * p.work s.exchange + _ + _ ≤ _
  omega

/-- **One step**, of a thread or of others. -/
theorem Closed.step (hp : p.Wired) (h : p.Closed (p.callbacks onDiscovery onApp) s)
    (a : ThreadsAction α) :
    p.Closed (p.callbacks onDiscovery onApp)
        (p.threadsStep (p.callbacks onDiscovery onApp) s a) ∧
      p.threadsWork (p.threadsStep (p.callbacks onDiscovery onApp) s a) + (p.steps s a).toNat ≤
        p.threadsWork s + threadsAdds a := by
  cases a with
  | turn t =>
    rw [threadsStep]
    cases hsteps : p.steps s (.turn t) with
    | false => exact ⟨h, Nat.le_refl _⟩
    | true =>
      obtain ⟨-, hmoves⟩ := Bool.and_eq_true_iff.mp hsteps
      obtain ⟨hclosed, hwork⟩ := h.act hp (p.turnOf t)
      have hadds : adds (p.turnOf t : ProgramAction α) = 0 := by
        cases t <;> rfl
      rw [hmoves, hadds, Bool.toNat_true] at hwork
      refine ⟨hclosed, ?_⟩
      rw [if_pos rfl]
      unfold threadsWork at hwork ⊢
      simp only [Bool.toNat_true, threadsAdds]
      omega
  | test t =>
    rw [threadsStep]
    cases hsteps : p.steps s (.test t) with
    | false => exact ⟨h, Nat.le_refl _⟩
    | true =>
      have hlooking : s.waiter t = .looking := by
        simp only [steps, Bool.and_eq_true, decide_eq_true_eq] at hsteps
        exact hsteps.1.1
      exact h.setWaiter (by rw [hlooking]; decide)
  | block t =>
    rw [threadsStep]
    cases hsteps : p.steps s (.block t) with
    | false => exact ⟨h, Nat.le_refl _⟩
    | true =>
      have htested : s.waiter t = .tested := of_decide_eq_true hsteps
      exact h.setWaiter (by rw [htested]; decide)
  | wakeSpuriously t =>
    rw [threadsStep]
    split
    · next hblocked =>
      have hset := toBlockAll_setWaiter t .looking s
      rw [hblocked] at hset
      refine ⟨h, ?_⟩
      unfold threadsWork
      show 7 * p.work s.exchange + toBlockAll (Program.setWaiter t .looking s) + 0 ≤
        7 * p.work s.exchange + toBlockAll s + 2
      simp only [toBlock] at hset
      omega
    · exact ⟨h, Nat.le_add_right _ _⟩
  | send m =>
    obtain ⟨hclosed, hwork⟩ := h.act hp (.thread (.send m))
    refine ⟨hclosed, ?_⟩
    unfold threadsWork at hwork ⊢
    simp only [threadsStep, steps, threadsAdds, adds, Bool.toNat_false] at hwork ⊢
    omega
  | put m hm =>
    obtain ⟨hclosed, hwork⟩ := h.act hp (.put m hm)
    refine ⟨hclosed, ?_⟩
    unfold threadsWork at hwork ⊢
    simp only [threadsStep, steps, threadsAdds, adds, Bool.toNat_false] at hwork ⊢
    omega

/-! ### Nothing left to do -/

theorem moves_turnOf (hp : p.Wired) {x : Exchange α} (hb : x.post.broker = p.broker)
    (t : MailThread) : x.moves (p.turnOf t) =
      (p.inLoop x t && !(x.post.queue (p.mailbox t)).isEmpty) := by
  cases t with
  | broker =>
    rw [turnOf, moves, hb]
    rfl
  | discovery =>
    rw [turnOf, moves, hb, hp.discoveryMailbox]
    rfl
  | app =>
    rw [turnOf, moves, hb, hp.appMailbox]
    rfl

/-- A thread that has no step to take, and has lost no wakeup, has no message to take. -/
theorem Awake.moves_eq_false (h : p.Awake s) (hp : p.Wired)
    (hb : s.exchange.post.broker = p.broker) (hnone : ∀ a, p.steps s a = false) (t : MailThread) :
    s.exchange.moves (p.turnOf t) = false := by
  cases hw : s.waiter t with
  | looking =>
    have hturn := hnone (.turn t)
    rw [steps, hw] at hturn
    exact hturn
  | tested =>
    have hblock := hnone (.block t)
    rw [steps, hw] at hblock
    cases hblock
  | blocked =>
    rw [moves_turnOf hp hb, h t hw]
    exact Bool.and_false _

theorem stopped_run (hp : p.Wired) (as : List (ThreadsAction α)) :
    Stopped p (p.callbacks onDiscovery onApp)
      (Runs.run (p.threadsStep (p.callbacks onDiscovery onApp)) p.threadsStart as).exchange := by
  let cs := p.callbacks onDiscovery onApp
  refine Runs.run_invariant_of_forall (I := fun s : Threads α => Stopped p cs s.exchange) ?_
    (stopped_start _ p) as
  intro s a h
  rcases threadsStep_exchange p cs s a with heq | ⟨b, heq⟩
  · rw [heq]
    exact h
  · rw [heq]
    exact h.step hp b

theorem closed_quit (hp : p.Wired) (as : List (ThreadsAction α)) :
    p.Closed (p.callbacks onDiscovery onApp)
      (Runs.run (p.threadsStep (p.callbacks onDiscovery onApp)) p.threadsStart
        (as ++ [.send ⟨.terminateAll, none⟩])) := by
  have hbefore : Stopped p (p.callbacks onDiscovery onApp) _ := stopped_run hp as
  rw [Runs.run_append]
  exact closing_sent (hbefore.step hp (.thread (.send ⟨.terminateAll, none⟩))) hbefore.inv.broker

/-- Where no wakeup was lost and no thread has a step to take, all of them have returned. -/
theorem Closed.ended (hp : p.Wired) (h : p.Closed cs s) (hawake : p.Awake s)
    (hnone : ∀ a, p.steps s a = false) :
    s.exchange.post.isRunning = false ∧ ∀ c, p.IsComponent c →
      s.exchange.listening c.id = false ∧ ∃ call ∈ s.exchange.calls, call.sid = c.id ∧
        ((s.exchange.post.message call.message).eventT = .terminateAll ∨
          ∃ callback, cs c.id (s.exchange.post.message call.message).eventT = some callback ∧
            callback call.data ≠ .ok) := by
  have hmoves := hawake.moves_eq_false hp h.stopped.inv.broker hnone
  obtain ⟨hrun, hended⟩ := Closing.ended hp h (hmoves .broker) (by
    rintro c (rfl | rfl)
    · exact hmoves .discovery
    · exact hmoves .app)
  exact ⟨hrun, fun c hc => ⟨hended c hc, h.stopped.ended c hc (hended c hc)⟩⟩

/-- **Shutdown.**  Whatever has happened before the quit key and whatever happens after it: the
broker's thread and the two mailbox threads take only so many steps more, each message and each
spurious wakeup allows some more, and when none of them has a step to take and no wakeup was lost
they have all returned, each component's after it has handled `BVEVENTTYPE_TERMINATE_ALL` or its
callback has failed. -/
theorem threads_end (inMailBox : QueueRef) (discovery app : BVComponent)
    (onDiscovery onApp : BVEventType → Option α → BVStatus) (as bs : List (ThreadsAction α)) :
    ∃ p, setup inMailBox discovery app = some p ∧
      let cs := p.callbacks onDiscovery onApp
      let quit : ThreadsAction α := .send ⟨.terminateAll, none⟩
      let s := Runs.run (p.threadsStep cs) p.threadsStart (as ++ [quit])
      let t := Runs.run (p.threadsStep cs) p.threadsStart (as ++ [quit] ++ bs)
      Runs.progress (p.threadsStep cs) p.steps s bs ≤
          p.threadsWork s + (bs.map threadsAdds).sum ∧
        (Runs.Meets (p.threadsStep cs) p.Prompt p.threadsStart (as ++ [quit] ++ bs) →
          (∀ a, p.steps t a = false) →
            t.exchange.post.isRunning = false ∧ ∀ c, p.IsComponent c →
              t.exchange.listening c.id = false ∧ ∃ call ∈ t.exchange.calls, call.sid = c.id ∧
                ((t.exchange.post.message call.message).eventT = .terminateAll ∨
                  ∃ callback, cs c.id (t.exchange.post.message call.message).eventT =
                    some callback ∧ callback call.data ≠ .ok)) := by
  obtain ⟨p, hsetup, hp⟩ := exists_setup inMailBox discovery app
  refine ⟨p, hsetup, ?_⟩
  intro cs quit s t
  have hclosed : p.Closed cs s := closed_quit hp as
  have ht : t = Runs.run (p.threadsStep cs) s bs := Runs.run_append _ _ _
  refine ⟨?_, fun hprompt hnone => ?_⟩
  · have hle : p.threadsWork (Runs.run (p.threadsStep cs) s bs) +
        Runs.progress (p.threadsStep cs) p.steps s bs ≤
          p.threadsWork s + (bs.map threadsAdds).sum :=
      Runs.progress_le (I := p.Closed cs) (fun s a h => h.step hp a) hclosed bs
    exact Nat.le_trans (Nat.le_add_left _ _) hle
  · have hend : p.Closed cs t := by
      rw [ht]
      exact Runs.run_invariant_of_forall (I := p.Closed cs) (fun s a h => (h.step hp a).1)
        hclosed bs
    have hawake : p.Awake t :=
      Runs.run_invariant (I := p.Awake) (fun s a h ha => h.step ha) (fun t h => by cases h) hprompt
    exact hend.ended hp hawake hnone

end Program

end LocalChat
