import LocalChat.Lib.Runs
import Mathlib.Logic.Function.Basic

/-!
# Waiting at a mailbox

`threadsafe_queue`, in the steps of its threads.  A producer links a node under `tail_mutex` and
then calls `notify_one`; the consumer, in `wait_and_pop`, evaluates its predicate under `head_mutex`
and then blocks.  Since the producers do not take `head_mutex`, both steps of a producer may fall
between the two of the consumer, and then nobody is there to be notified.

`no_lost_wakeup_iff`: no run loses a wakeup exactly if, whenever the consumer blocks, the queue is
still empty or a producer that has linked its node has yet to notify.
-/

namespace LocalChat

inductive Producer
  /-- not in `push` -/
  | idle
  /-- it has linked its node and released `tail_mutex` -/
  | linked
  deriving DecidableEq, Repr

inductive Consumer
  /-- not in `wait_and_pop` -/
  | idle
  /-- it has `head_mutex` and evaluates the predicate next -/
  | locked
  /-- the predicate was false -/
  | tested
  /-- it waits at `data_cond`, without `head_mutex` -/
  | blocked
  /-- it was woken and takes `head_mutex` again next -/
  | woken
  /-- the predicate was true -/
  | ready
  deriving DecidableEq, Repr

/-- A queue with its producers, which are named by `ι`, and its consumer. -/
structure Mailbox (ι α : Type*) where
  /-- the data from `head` to `tail`; `head` is `tail` if there is none -/
  data : List α
  producer : ι → Producer
  consumer : Consumer
  /-- a notification the blocked consumer has not woken from yet -/
  notified : Bool
  /-- what `wait_and_pop` has returned -/
  popped : List α

inductive MailboxStep (ι α : Type*)
  /-- the critical section of `push` -/
  | link (i : ι) (a : α)
  /-- `data_cond.notify_one()` -/
  | notify (i : ι)
  /-- take `head_mutex` -/
  | lock
  /-- `head.get() != get_tail()` -/
  | test
  /-- release `head_mutex` and block, in one -/
  | block
  | wake
  /-- wake without a notification -/
  | wakeSpuriously
  /-- `pop_head`, and release `head_mutex` -/
  | pop

namespace Mailbox

variable {ι α : Type*} [DecidableEq ι]

def empty : Mailbox ι α := ⟨[], fun _ => .idle, .idle, false, []⟩

/-- A step that its thread cannot take changes nothing. -/
def step (m : Mailbox ι α) : MailboxStep ι α → Mailbox ι α
  | .link i a =>
    if m.producer i = .idle then
      { m with data := m.data ++ [a], producer := Function.update m.producer i .linked }
    else m
  | .notify i =>
    if m.producer i = .linked then
      { m with
        producer := Function.update m.producer i .idle
        notified := m.notified || m.consumer = .blocked }
    else m
  | .lock =>
    if m.consumer = .idle ∨ m.consumer = .woken then { m with consumer := .locked } else m
  | .test =>
    if m.consumer = .locked then
      { m with consumer := if m.data = [] then .tested else .ready }
    else m
  | .block => if m.consumer = .tested then { m with consumer := .blocked } else m
  | .wake =>
    if m.consumer = .blocked ∧ m.notified then { m with consumer := .woken, notified := false }
    else m
  | .wakeSpuriously =>
    if m.consumer = .blocked then { m with consumer := .woken, notified := false } else m
  | .pop =>
    match m.consumer, m.data with
    | .ready, a :: rest => { m with data := rest, consumer := .idle, popped := m.popped ++ [a] }
    | _, _ => m

/-- The wakeup is lost: there is something to pop, nobody will notify any more, and the consumer
waits. -/
structure Lost (m : Mailbox ι α) : Prop where
  data : m.data ≠ []
  finished : ∀ i, m.producer i = .idle
  blocked : m.consumer = .blocked
  unnotified : m.notified = false

variable {m : Mailbox ι α}

/-! ### The order of the data -/

def linkedBy (m : Mailbox ι α) : MailboxStep ι α → List α
  | .link i a => if m.producer i = .idle then [a] else []
  | _ => []

theorem step_data (m : Mailbox ι α) (a : MailboxStep ι α) :
    (m.step a).popped ++ (m.step a).data = m.popped ++ m.data ++ m.linkedBy a := by
  cases a with
  | link i a =>
    by_cases hi : m.producer i = .idle
    · simp [step, linkedBy, hi]
    · simp [step, linkedBy, hi]
  | pop =>
    simp only [step, linkedBy]
    split
    · next hdata => simp [hdata]
    · simp
  | _ =>
    simp only [step, linkedBy, List.append_nil]
    split <;> rfl

def linkedAlong : Mailbox ι α → List (MailboxStep ι α) → List α
  | _, [] => []
  | m, a :: as => m.linkedBy a ++ (m.step a).linkedAlong as

/-- **First in, first out.**  What was popped and what is still there is what was pushed. -/
theorem fifo (m : Mailbox ι α) (as : List (MailboxStep ι α)) :
    (Runs.run step m as).popped ++ (Runs.run step m as).data =
      m.popped ++ m.data ++ m.linkedAlong as := by
  induction as generalizing m with
  | nil => simp [linkedAlong]
  | cons a as ih =>
    rw [Runs.run_cons, ih, step_data, linkedAlong, List.append_assoc (m.popped ++ _)]

/-! ### Wakeups -/

/-- Only a blocked consumer has a notification to wake from. -/
def Sound (m : Mailbox ι α) : Prop := m.notified = true → m.consumer = .blocked

theorem Sound.step (h : m.Sound) (a : MailboxStep ι α) : (m.step a).Sound := by
  cases a with
  | link i a =>
    simp only [Mailbox.step]
    split <;> exact h
  | notify i =>
    simp only [Mailbox.step]
    split
    · intro hn
      rcases Bool.or_eq_true_iff.mp hn with hn | hn
      · exact h hn
      · exact of_decide_eq_true hn
    · exact h
  | wake =>
    simp only [Mailbox.step]
    split
    · intro hn
      cases hn
    · exact h
  | wakeSpuriously =>
    simp only [Mailbox.step]
    split
    · intro hn
      cases hn
    · exact h
  | pop =>
    simp only [Mailbox.step]
    split
    · next hready _ =>
      intro hn
      rw [h hn] at hready
      cases hready
    · exact h
  | _ =>
    simp only [Mailbox.step]
    split
    · next hc =>
      intro hn
      simp [h hn] at hc
    · exact h

/-- The contract of a step: the consumer blocks only while the queue is empty or a producer has yet
to notify. -/
def Timely (m : Mailbox ι α) : MailboxStep ι α → Prop
  | .block => m.consumer = .tested → m.data = [] ∨ ∃ i, m.producer i = .linked
  | _ => True

omit [DecidableEq ι] in
theorem not_lost_of_consumer (h : m.consumer ≠ .blocked) : ¬ m.Lost := fun hl => h hl.blocked

theorem not_lost_link (hl : ¬ m.Lost) (i : ι) (a : α) : ¬ (m.step (.link i a)).Lost := by
  simp only [step]
  split
  · intro hlost
    have hi : Function.update m.producer i .linked i = .idle := hlost.finished i
    rw [Function.update_self] at hi
    cases hi
  · exact hl

theorem not_lost_notify (hl : ¬ m.Lost) (i : ι) : ¬ (m.step (.notify i)).Lost := by
  simp only [step]
  split
  · intro hlost
    have hblocked : m.consumer = .blocked := hlost.blocked
    have hn := (Bool.or_eq_false_iff.mp hlost.unnotified).2
    exact of_decide_eq_false hn hblocked
  · exact hl

/-- A consumer that found the queue empty has not been notified; so a node that was linked since,
and notified of, goes unnoticed. -/
theorem lost_block_iff (h : m.Sound) (hl : ¬ m.Lost) :
    ¬ (m.step .block).Lost ↔ m.Timely .block := by
  simp only [step, Timely]
  split
  case isTrue htested =>
    have hn : m.notified = false := by
      cases hn : m.notified with
      | false => rfl
      | true =>
        have hb := h hn
        rw [htested] at hb
        cases hb
    constructor
    · intro hnot _
      by_contra hno
      rw [not_or, not_exists] at hno
      refine hnot ⟨hno.1, fun i => ?_, rfl, hn⟩
      cases hi : m.producer i with
      | idle => rfl
      | linked => exact absurd hi (hno.2 i)
    · intro htimely hlost
      rcases htimely htested with hdata | ⟨i, hi⟩
      · exact hlost.data hdata
      · have hidle : m.producer i = .idle := hlost.finished i
        rw [hi] at hidle
        cases hidle
  case isFalse hno => exact iff_of_true hl fun htested => absurd htested hno

theorem lost_step_iff (h : m.Sound) (hl : ¬ m.Lost) (a : MailboxStep ι α) :
    ¬ (m.step a).Lost ↔ m.Timely a := by
  cases a with
  | block => exact lost_block_iff h hl
  | link i a => exact iff_of_true (not_lost_link hl i a) trivial
  | notify i => exact iff_of_true (not_lost_notify hl i) trivial
  | test =>
    refine iff_of_true ?_ trivial
    simp only [step]
    split
    · refine not_lost_of_consumer ?_
      dsimp only
      split <;> simp
    · exact hl
  | pop =>
    refine iff_of_true ?_ trivial
    simp only [step]
    split
    · exact not_lost_of_consumer (by simp)
    · exact hl
  | _ =>
    refine iff_of_true ?_ trivial
    simp only [step]
    split
    · exact not_lost_of_consumer (by simp)
    · exact hl

/-- **No lost wakeup**, in any state of a run, exactly if the consumer never blocks when the queue
is no longer empty and every producer has notified already. -/
theorem no_lost_wakeup_iff (ι α : Type*) [DecidableEq ι] (as : List (MailboxStep ι α)) :
    (∀ p, p <+: as → ¬ (Runs.run step (empty : Mailbox ι α) p).Lost) ↔
      Runs.Meets step Timely (empty : Mailbox ι α) as := by
  refine Runs.forall_prefix_iff_meets (I := fun m : Mailbox ι α => m.Sound ∧ ¬ m.Lost)
    (fun m h => h.2) (fun m a h hok => ⟨h.1.step a, (lost_step_iff h.1 h.2 a).mpr hok⟩)
    (fun m a h => lost_step_iff h.1 h.2 a) ⟨?_, not_lost_of_consumer (by simp [empty])⟩ as
  intro hn
  cases hn

/-- A message is pushed after the consumer has seen the queue empty and before it blocks. -/
theorem lost_wakeup : (Runs.run step (empty : Mailbox Unit Nat)
    [.lock, .test, .link () 0, .notify (), .block]).Lost :=
  ⟨by decide, fun _ => rfl, rfl, rfl⟩

end Mailbox

end LocalChat
