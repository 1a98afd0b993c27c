import LocalChat.Lib.AtomicObjects
import LocalChat.Lib.HeapLists

/-!
# The nodes of a mailbox

`threadsafe_queue` as it is written: nodes on a heap, `head` under `head_mutex`, `tail` under
`tail_mutex`, and every statement of `push`, `try_pop`, `wait_and_pop` and `empty` a step of its
own.  Any number of threads push and pop.  Null or a node that was deleted faults when it is
dereferenced, and a freed address may be given out again.

* `NodeQueue.step`: the next statement of a thread.
* `fifo`: what the queue is for, as a sequential object.
* `NodeQueue.event`: the step with which a call takes effect: `tail = new_tail`, the move of
  `old_head->next` into `head`, and the reading of `tail` where the queue is found empty.
* `NodeQueue.accesses`: the shared locations that the next statement of a thread reads and writes.
-/

namespace LocalChat

open HeapLists AtomicObjects

/-- The functions that take `head_mutex`.  `try_pop(T&)` does not compile where it is used: it
returns a node as data. -/
inductive HeadCall
  | tryPop
  | waitAndPop
  /-- `wait_and_pop(T& value)` -/
  | waitAndPopInto
  | empty
  deriving DecidableEq, Repr

inductive QueueCall (α : Type*)
  | push (a : α)
  | head (k : HeadCall)
  deriving DecidableEq, Repr

inductive QueueResult (α : Type*)
  | pushed
  | popped (a : α)
  /-- a null `shared_ptr` -/
  | null
  | isEmpty (b : Bool)
  deriving DecidableEq, Repr

/-! ### What a queue is for -/

def fifo {α : Type*} : SequentialObject (List α) (QueueCall α) (QueueResult α)
  | xs, .push a => some (.pushed, xs ++ [a])
  | [], .head .tryPop => some (.null, [])
  | xs, .head .empty => some (.isEmpty xs.isEmpty, xs)
  | [], .head _ => none
  | a :: xs, .head _ => some (.popped a, xs)

theorem fifo_empty {α : Type*} (xs : List α) :
    fifo xs (.head .empty) = some (.isEmpty (xs = []), xs) := by
  cases xs with
  | nil => rfl
  | cons a xs => simp [fifo]

/-! ### Threads -/

/-- Where a thread is; the comment names the statement that comes next. -/
inductive QueueThread (P α : Type*)
  | idle
  /-- `new node` -/
  | pushing (a : α)
  /-- take `tail_mutex` -/
  | allocated (a : α) (p : P)
  /-- `tail->data = new_data` -/
  | tailTaken (a : α) (p : P)
  /-- `tail->next = std::move(p)` -/
  | dataSet (a : α) (p : P)
  /-- `tail = new_tail` -/
  | nextSet (a : α) (p : P)
  /-- release `tail_mutex` -/
  | tailSet
  /-- `data_cond.notify_one()`, and return -/
  | linked
  /-- take `head_mutex` -/
  | calling (k : HeadCall)
  /-- `get_tail` takes `tail_mutex` -/
  | headTaken (k : HeadCall)
  /-- it reads `tail` -/
  | getTail (k : HeadCall)
  /-- it releases `tail_mutex` -/
  | gotTail (k : HeadCall) (t : Option P)
  /-- `head.get() == t` -/
  | comparing (k : HeadCall) (t : Option P)
  /-- it waits at `data_cond`, without `head_mutex` -/
  | waiting (k : HeadCall)
  /-- `value = std::move(*head->data)` -/
  | moving (k : HeadCall)
  /-- `old_head = std::move(head)`; `value` has been moved out already in the last form -/
  | popping (k : HeadCall) (value : Option α)
  /-- `head = std::move(old_head->next)` -/
  | oldTaken (k : HeadCall) (value : Option α) (old : Option P)
  /-- release `head_mutex` -/
  | popped (k : HeadCall) (value : Option α) (old : Option P)
  /-- `old_head->data` is copied -/
  | reading (old : Option P)
  /-- `old_head` is deleted -/
  | deleting (old : Option P) (r : QueueResult α)
  /-- release `head_mutex`, with nothing popped -/
  | releasing (r : QueueResult α)
  | returning (r : QueueResult α)
  deriving DecidableEq, Repr

/-- A `threadsafe_queue` with the threads `ι` that use it, and the memory of its nodes, at addresses
from `P`. -/
structure NodeQueue (ι P α : Type*) where
  heap : Heap P (Option α)
  head : Option P
  tail : Option P
  /-- who has the mutex -/
  headMutex : Option ι
  tailMutex : Option ι
  thread : ι → QueueThread P α

inductive QueueAction (ι P α : Type*)
  | call (i : ι) (c : QueueCall α)
  /-- `new node` gives `p` -/
  | new (i : ι) (p : P)
  /-- a waiting thread wakes, notified or not -/
  | wake (i : ι)
  /-- any other statement -/
  | next (i : ι)

namespace NodeQueue

variable {ι P α : Type}

def fresh : Cell P (Option α) := ⟨none, none⟩

variable [DecidableEq P]

/-- The constructor, whose `new node` gives `p`. -/
def construct (p : P) : NodeQueue ι P α where
  heap := Function.update (fun _ => none) p (some fresh)
  head := some p
  tail := some p
  headMutex := none
  tailMutex := none
  thread := fun _ => .idle

variable [DecidableEq ι]

def goto (s : NodeQueue ι P α) (i : ι) (t : QueueThread P α) : NodeQueue ι P α :=
  { s with thread := Function.update s.thread i t }

/-- The next statement of thread `i`.  A thread that waits for a mutex stays where it is until the
mutex is free.  The assignments to `tail->next` and to `head` would delete what these pointers own;
they own nothing then. -/
def next (s : NodeQueue ι P α) (i : ι) : Except Fault (NodeQueue ι P α) :=
  match s.thread i with
  | .allocated a p =>
    if s.tailMutex = none then .ok ({ s with tailMutex := some i }.goto i (.tailTaken a p)) else .ok s
  | .tailTaken a p => do
    let h ← storeData s.heap s.tail (some a)
    .ok ({ s with heap := h }.goto i (.dataSet a p))
  | .dataSet a p => do
    let h ← storeNext s.heap s.tail (some p)
    .ok ({ s with heap := h }.goto i (.nextSet a p))
  | .nextSet _ p => .ok ({ s with tail := some p }.goto i .tailSet)
  | .tailSet => .ok ({ s with tailMutex := none }.goto i .linked)
  | .linked => .ok (s.goto i .idle)
  | .calling k =>
    if s.headMutex = none then .ok ({ s with headMutex := some i }.goto i (.headTaken k)) else .ok s
  | .headTaken k =>
    if s.tailMutex = none then .ok ({ s with tailMutex := some i }.goto i (.getTail k)) else .ok s
  | .getTail k => .ok (s.goto i (.gotTail k s.tail))
  | .gotTail k t => .ok ({ s with tailMutex := none }.goto i (.comparing k t))
  | .comparing k t =>
    if s.head = t then
      match k with
      | .tryPop => .ok (s.goto i (.releasing .null))
      | .empty => .ok (s.goto i (.releasing (.isEmpty true)))
      | .waitAndPop | .waitAndPopInto =>
        .ok ({ s with headMutex := none }.goto i (.waiting k))
    else
      match k with
      | .tryPop | .waitAndPop => .ok (s.goto i (.popping k none))
      | .waitAndPopInto => .ok (s.goto i (.moving k))
      | .empty => .ok (s.goto i (.releasing (.isEmpty false)))
  | .moving k => do
    let c ← load s.heap s.head
    match c.data with
    | none => .error .null
    | some a => .ok (s.goto i (.popping k (some a)))
  | .popping k v => .ok ({ s with head := none }.goto i (.oldTaken k v s.head))
  | .oldTaken k v old => do
    let c ← load s.heap old
    let h ← storeNext s.heap old none
    .ok ({ s with heap := h, head := c.next }.goto i (.popped k v old))
  | .popped k v old =>
    .ok ({ s with headMutex := none }.goto i
      (match k, v with
        | .waitAndPopInto, some a => .deleting old (.popped a)
        | _, _ => .reading old))
  | .reading old => do
    let c ← load s.heap old
    .ok (s.goto i (.deleting old (match c.data with
      | some a => .popped a
      | none => .null)))
  | .deleting none r => .ok (s.goto i (.returning r))
  -- `~node` deletes what `next` owns, and so on
  | .deleting (some p) r => do
    let c ← load s.heap (some p)
    let h ← free s.heap (some p)
    .ok ({ s with heap := h }.goto i (.deleting c.next r))
  | .releasing r => .ok ({ s with headMutex := none }.goto i (.returning r))
  | .returning _ => .ok (s.goto i .idle)
  | .idle | .pushing _ | .waiting _ => .ok s

/-- A step that its thread cannot take changes nothing. -/
def step (s : NodeQueue ι P α) : QueueAction ι P α → Except Fault (NodeQueue ι P α)
  | .call i c =>
    match s.thread i, c with
    | .idle, .push a => .ok (s.goto i (.pushing a))
    | .idle, .head k => .ok (s.goto i (.calling k))
    | _, _ => .ok s
  | .new i p =>
    match s.thread i, s.heap p with
    | .pushing a, none =>
      .ok ({ s with heap := Function.update s.heap p (some fresh) }.goto i (.allocated a p))
    | _, _ => .ok s
  | .wake i =>
    match s.thread i with
    | .waiting k => .ok (s.goto i (.calling k))
    | _ => .ok s
  | .next i => s.next i

/-! ### What a step means -/

/-- The calls, the returns, and the steps with which a call takes effect. -/
def event (s : NodeQueue ι P α) :
    QueueAction ι P α → Option (Event ι (QueueCall α) (QueueResult α))
  | .call i c =>
    match s.thread i with
    | .idle => some (.call i c)
    | _ => none
  | .next i =>
    match s.thread i with
    | .nextSet a _ => some (.effect i (.push a) .pushed)
    | .getTail .tryPop => if s.head = s.tail then some (.effect i (.head .tryPop) .null) else none
    | .getTail .empty => some (.effect i (.head .empty) (.isEmpty (s.head = s.tail)))
    | .oldTaken k _ old =>
      match old.bind s.heap with
      | some ⟨_, some a⟩ => some (.effect i (.head k) (.popped a))
      | _ => none
    | .linked => some (.ret i .pushed)
    | .returning r => some (.ret i r)
    | _ => none
  | _ => none

end NodeQueue

/-! ### Shared locations -/

inductive QueueLocation (P : Type)
  | head
  | tail
  | data (p : P)
  | next (p : P)
  deriving DecidableEq, Repr

namespace NodeQueue

variable {ι P α : Type}

/-- What the next statement of a thread reads or writes.  Who deletes a node writes to all of it. -/
def accesses (s : NodeQueue ι P α) (i : ι) : List (QueueLocation P) :=
  match s.thread i with
  | .tailTaken _ _ => .tail :: s.tail.toList.map .data
  | .dataSet _ _ => .tail :: s.tail.toList.map .next
  | .nextSet _ _ | .getTail _ => [.tail]
  | .comparing _ _ | .popping _ _ => [.head]
  | .moving _ => .head :: s.head.toList.map .data
  | .oldTaken _ _ old => .head :: old.toList.map .next
  | .reading old => old.toList.map .data
  | .deleting old _ => old.toList.map .data ++ old.toList.map .next
  | _ => []

def Race (s : NodeQueue ι P α) : Prop :=
  ∃ i j, i ≠ j ∧ ∃ l, l ∈ s.accesses i ∧ l ∈ s.accesses j

end NodeQueue

end LocalChat
