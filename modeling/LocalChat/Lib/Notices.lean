import LocalChat.Lib.Runs
import Mathlib.Data.List.Nodup
import Mathlib.Logic.Function.Basic

/-!
# Notices

Several workers change something that one reader looks at.  After a change a worker owes the reader
notices; later it posts them, one after another, to the queue from which the reader takes them.  A
notice that is owed or posted is due.

* `due_owe`, `due_post`, `due_take`: a notice is due from the change on until the reader takes it.
* `settling`: every worker posts what it owes, and then the reader takes all of it.
* `quiet_settling`: after this nothing is due.
-/

namespace Notices

variable {ι E : Type*}

structure Board (ι E : Type*) where
  owes : ι → List E
  queue : List E

namespace Board

def empty : Board ι E := ⟨fun _ => [], []⟩

def Due (b : Board ι E) (e : E) : Prop := e ∈ b.queue ∨ ∃ i, e ∈ b.owes i

def Quiet (b : Board ι E) : Prop := b.queue = [] ∧ ∀ i, b.owes i = []

theorem Quiet.not_due {b : Board ι E} (h : b.Quiet) (e : E) : ¬ b.Due e := by
  obtain ⟨hqueue, howes⟩ := h
  unfold Due
  simp [hqueue, howes]

/-- The reader takes the oldest notice. -/
def take (b : Board ι E) : Board ι E := { b with queue := b.queue.tail }

theorem due_take {b : Board ι E} {x : E} {rest : List E} (hqueue : b.queue = x :: rest) {e : E}
    (h : b.Due e) : e = x ∨ b.take.Due e := by
  unfold Due take at *
  rw [hqueue] at h ⊢
  obtain hmem | howed := h
  · obtain rfl | hmem := List.mem_cons.mp hmem
    · exact .inl rfl
    · exact .inr (.inl hmem)
  · exact .inr (.inr howed)

/-- A notice that nobody owes. -/
def push (e : E) (b : Board ι E) : Board ι E := { b with queue := b.queue ++ [e] }

theorem due_push {b : Board ι E} {e x : E} (h : b.Due e) : (b.push x).Due e := by
  obtain hmem | howed := h
  · exact .inl (List.mem_append_left _ hmem)
  · exact .inr howed

variable [DecidableEq ι]

def owe (i : ι) (es : List E) (b : Board ι E) : Board ι E :=
  { b with owes := Function.update b.owes i (b.owes i ++ es) }

/-- The worker `i` posts the first notice it owes. -/
def post (i : ι) (b : Board ι E) : Board ι E :=
  match b.owes i with
  | [] => b
  | e :: es => { owes := Function.update b.owes i es, queue := b.queue ++ [e] }

theorem due_owe {b : Board ι E} {i : ι} {es : List E} {e : E} :
    (b.owe i es).Due e ↔ b.Due e ∨ e ∈ es := by
  have howes : (∃ j, e ∈ Function.update b.owes i (b.owes i ++ es) j) ↔
      (∃ j, e ∈ b.owes j) ∨ e ∈ es := by
    apply Iff.intro
    · intro ⟨j, hj⟩
      by_cases hji : j = i
      · subst hji
        rw [Function.update_self, List.mem_append] at hj
        exact hj.imp_left fun h => ⟨j, h⟩
      · rw [Function.update_of_ne hji] at hj
        exact .inl ⟨j, hj⟩
    · intro h
      obtain ⟨j, hj⟩ | he := h
      · refine ⟨j, ?_⟩
        by_cases hji : j = i
        · subst hji
          rw [Function.update_self]
          exact List.mem_append_left _ hj
        · rw [Function.update_of_ne hji]
          exact hj
      · refine ⟨i, ?_⟩
        rw [Function.update_self]
        exact List.mem_append_right _ he
  unfold Due owe
  rw [howes, or_assoc]

/-- Posting loses no notice. -/
theorem due_post {b : Board ι E} {i : ι} {e : E} (h : b.Due e) : (b.post i).Due e := by
  unfold post
  split
  · exact h
  · next x es howes =>
    obtain hmem | ⟨j, hj⟩ := h
    · exact .inl (List.mem_append_left _ hmem)
    · by_cases hji : j = i
      · subst hji
        rw [howes] at hj
        obtain rfl | hj := List.mem_cons.mp hj
        · exact .inl (List.mem_append_right _ (List.mem_singleton_self _))
        · refine .inr ⟨j, ?_⟩
          show e ∈ Function.update b.owes j es j
          rw [Function.update_self]
          exact hj
      · refine .inr ⟨j, ?_⟩
        show e ∈ Function.update b.owes i es j
        rw [Function.update_of_ne hji]
        exact hj

/-! ### Coming to rest -/

inductive Move (ι : Type*)
  | post (i : ι)
  | take

def move (b : Board ι E) : Move ι → Board ι E
  | .post i => b.post i
  | .take => b.take

/-- The workers post what they owe, one after another, and the reader takes everything. -/
def settling (workers : List ι) (b : Board ι E) : List (Move ι) :=
  workers.flatMap (fun i => List.replicate (b.owes i).length (.post i)) ++
    List.replicate (b.queue ++ workers.flatMap b.owes).length .take

theorem run_post (i : ι) (b : Board ι E) :
    Runs.run move b (List.replicate (b.owes i).length (.post i)) =
      { owes := Function.update b.owes i [], queue := b.queue ++ b.owes i } := by
  induction howes : b.owes i generalizing b with
  | nil =>
    rw [List.append_nil, ← howes, Function.update_eq_self, howes]
    rfl
  | cons e es ih =>
    have hpost : b.post i = { owes := Function.update b.owes i es, queue := b.queue ++ [e] } := by
      rw [post, howes]
    rw [List.length_cons, List.replicate_succ, Runs.run_cons]
    show Runs.run move (b.post i) _ = _
    rw [hpost, ih _ (Function.update_self _ _ _), Function.update_idem, List.append_assoc]
    rfl

theorem run_posts {workers : List ι} (hworkers : workers.Nodup) (b : Board ι E) :
    Runs.run move b (workers.flatMap fun i => List.replicate (b.owes i).length (.post i)) =
      { owes := fun i => if i ∈ workers then [] else b.owes i
        queue := b.queue ++ workers.flatMap b.owes } := by
  induction workers generalizing b with
  | nil => simp
  | cons i workers ih =>
    obtain ⟨hi, hworkers⟩ := List.nodup_cons.mp hworkers
    -- the others owe what they have owed
    have hothers : ∀ j ∈ workers, Function.update b.owes i [] j = b.owes j := by
      intro j hj
      refine Function.update_of_ne ?_ _ _
      rintro rfl
      exact hi hj
    have hrest := ih hworkers { owes := Function.update b.owes i [], queue := b.queue ++ b.owes i }
    have hmoves : (workers.flatMap fun j =>
        List.replicate (Function.update b.owes i [] j).length (Move.post j)) =
          workers.flatMap fun j => List.replicate (b.owes j).length (.post j) :=
      List.flatMap_congr fun j hj => by rw [hothers j hj]
    have hqueue : workers.flatMap (Function.update b.owes i []) = workers.flatMap b.owes :=
      List.flatMap_congr hothers
    rw [List.flatMap_cons, Runs.run_append, run_post, ← hmoves, hrest, hqueue, List.flatMap_cons,
      List.append_assoc]
    congr 1
    funext j
    by_cases hj : j = i
    · simp [hj]
    · simp [hj]

omit [DecidableEq ι] in
theorem take_eq (b : Board ι E) : b.take = { b with queue := b.queue.drop 1 } := by
  rw [take, List.drop_one]

theorem run_takes (n : Nat) (b : Board ι E) :
    Runs.run move b (List.replicate n .take) = { b with queue := b.queue.drop n } := by
  induction n generalizing b with
  | zero => rfl
  | succ n ih =>
    rw [List.replicate_succ, Runs.run_cons]
    show Runs.run move b.take _ = _
    rw [ih, take_eq, List.drop_drop, Nat.add_comm]

/-- **Coming to rest.** -/
theorem quiet_settling {workers : List ι} (hworkers : workers.Nodup) (hall : ∀ i, i ∈ workers)
    (b : Board ι E) : (Runs.run move b (b.settling workers)).Quiet := by
  rw [settling, Runs.run_append, run_posts hworkers, run_takes]
  refine ⟨List.drop_length, fun i => if_pos (hall i)⟩

end Board

end Notices
