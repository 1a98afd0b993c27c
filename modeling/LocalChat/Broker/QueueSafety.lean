import LocalChat.Broker.QueueInvariant

/-!
# The mailbox is a linearizable queue

* `Inv.step`: every statement of every thread succeeds, keeps the invariant of the nodes, and is one
  turn of the atomic queue or none.
* `linearizable`: so no run faults, and the calls and returns of every run are those of a queue whose
  calls happen one at a time.
* `race_free`: no two threads ever touch one location at once.
-/

namespace LocalChat

open HeapLists AtomicObjects Mutexes

namespace NodeQueue

variable {ι P α : Type} [DecidableEq P] [DecidableEq ι] {s s' : NodeQueue ι P α} {nodes : List P}
  {t p : P} {xs : List α} {i : ι} {phase : ι → Phase (QueueCall α) (QueueResult α)}

/-! ### Every statement -/

/-- The statement succeeds, keeps the invariant, and is a turn of the atomic queue or none. -/
def Turns (o : Except Fault (NodeQueue ι P α)) (e : Option (Event ι (QueueCall α) (QueueResult α)))
    (xs : List α) (phase : ι → Phase (QueueCall α) (QueueResult α)) : Prop :=
  ∃ s' nodes t xs' phase', o = .ok s' ∧ Inv s' nodes t xs' phase' ∧
    Matched fifo phase xs e phase' xs'

theorem Turns.silent (hI : Inv s nodes t xs phase) : Turns (.ok s) none xs phase :=
  ⟨s, nodes, t, xs, phase, rfl, hI, rfl, rfl⟩

/-- The last part of `get_tail`: whether the queue is empty is settled here. -/
theorem Inv.getTail (hI : Inv s nodes t xs phase) {k : HeadCall} (hi : s.thread i = .getTail k) :
    Turns (s.next i) (s.event (.next i)) xs phase := by
  have hk := hI.knows i
  rw [hi] at hk
  have hph : phase i = .called (.head k) := hk
  have hfirst : s.first = s.head := hI.first_of_hasHead hi rfl
  have hmem : ∃ q ∈ nodes ++ [t], s.tail = some q :=
    ⟨t, List.mem_append_right _ (List.mem_singleton_self t), hI.tail⟩
  -- `head` is `tail` exactly if nothing is there
  have hempty : s.head = s.tail ↔ xs = [] := by
    have hseg := hI.seg
    have hdata := hI.data
    have hnodup := hI.nodup
    rw [hfirst] at hseg
    rw [hI.tail]
    cases nodes with
    | nil =>
      have hxs : xs = [] := by simpa [contents] using hdata.symm
      exact iff_of_true hseg hxs
    | cons b nodes =>
      obtain ⟨hb, c, hc, -⟩ := hseg
      refine iff_of_false ?_ ?_
      · intro hsame
        obtain rfl : b = t := Option.some.inj (hb.symm.trans hsame)
        exact (List.nodup_cons.mp hnodup).1 (List.mem_append_right _ (List.mem_singleton_self b))
      · rintro rfl
        simp [contents, hc] at hdata
  have hmove : ∀ ph, ph = judged k (s.head = s.tail) →
      Inv (s.goto i (.gotTail k s.tail)) nodes t xs (Function.update phase i ph) :=
    fun ph hph' => hI.move hi .kept .kept rfl rfl (.inl rfl) ⟨hmem, hph'⟩
  unfold next event
  simp only [hi]
  cases k with
  | tryPop =>
    by_cases hsame : s.head = s.tail
    · refine ⟨_, _, _, _, _, rfl, hmove _ rfl, ?_⟩
      rw [if_pos hsame, judged, if_pos hsame]
      refine .effect hph ?_
      rw [hempty.mp hsame]
      rfl
    · rw [if_neg hsame]
      refine .silent (hI.move_silent hi .kept .kept rfl rfl (.inl rfl) ⟨hmem, ?_⟩)
      rw [judged, if_neg hsame]
      exact hph
  | empty =>
    refine ⟨_, _, _, _, _, rfl, hmove _ rfl, .effect hph ?_⟩
    rw [decide_eq_decide.mpr hempty]
    exact fifo_empty xs
  | _ => exact .silent (hI.move_silent hi .kept .kept rfl rfl (.inl rfl) ⟨hmem, hph⟩)

/-- `head.get() == get_tail()`: `tail` may have moved on meanwhile, but `head` has not. -/
theorem Inv.comparing (hI : Inv s nodes t xs phase) {k : HeadCall} {r : Option P}
    (hi : s.thread i = .comparing k r) : Turns (s.next i) (s.event (.next i)) xs phase := by
  have hk := hI.knows i
  rw [hi] at hk
  obtain ⟨⟨q, hq, rfl⟩, hph⟩ := hk
  have hfirst : s.first = s.head := hI.first_of_hasHead hi rfl
  have hevent : s.event (.next i) = none := by
    unfold event
    simp only [hi]
  rw [hevent]
  have hnodes : s.head ≠ some q → nodes ≠ [] := by
    rintro hne rfl
    have hhead : s.head = some t := hfirst.symm.trans hI.seg
    obtain rfl : q = t := List.mem_singleton.mp hq
    exact hne hhead
  unfold next
  simp only [hi]
  by_cases hsame : s.head = some q
  · rw [if_pos hsame]
    cases k with
    | tryPop =>
      rw [judged, if_pos hsame] at hph
      exact .silent (hI.move_silent hi .kept .kept rfl rfl (.inl rfl) hph)
    | empty =>
      rw [judged, decide_eq_true hsame] at hph
      exact .silent (hI.move_silent hi .kept .kept rfl rfl (.inl rfl) hph)
    | _ => exact .silent (hI.move_silent hi .released .kept rfl rfl (.inl rfl) hph)
  · rw [if_neg hsame]
    have hne := hnodes hsame
    cases k with
    | tryPop =>
      rw [judged, if_neg hsame] at hph
      exact .silent (hI.move_silent hi .kept .kept rfl rfl (.inl rfl)
        ⟨hph, by decide, hne, fun a ha => by cases ha⟩)
    | empty =>
      rw [judged, decide_eq_false hsame] at hph
      exact .silent (hI.move_silent hi .kept .kept rfl rfl (.inl rfl) hph)
    | waitAndPop =>
      exact .silent (hI.move_silent hi .kept .kept rfl rfl (.inl rfl)
        ⟨hph, by decide, hne, fun a ha => by cases ha⟩)
    | waitAndPopInto =>
      exact .silent (hI.move_silent hi .kept .kept rfl rfl (.inl rfl) ⟨hph, by decide, hne⟩)

/-- `value = std::move(*head->data)`: there is a first node, and it holds something. -/
theorem Inv.moving (hI : Inv s nodes t xs phase) {k : HeadCall} (hi : s.thread i = .moving k) :
    Turns (s.next i) (s.event (.next i)) xs phase := by
  have hk := hI.knows i
  rw [hi] at hk
  obtain ⟨hph, hke, hnil⟩ := hk
  have hfirst : s.first = s.head := hI.first_of_hasHead hi rfl
  have hseg := hI.seg
  have hdata := hI.data
  rw [hfirst] at hseg
  unfold next event
  simp only [hi]
  obtain ⟨b, rest, hnodes⟩ := List.exists_cons_of_ne_nil hnil
  rw [hnodes] at hseg hdata
  obtain ⟨hb, ⟨n, d⟩, hc, -⟩ := hseg
  cases xs with
  | nil => simp [contents, hc] at hdata
  | cons a xs =>
    have hd : d = some a := by
      have := hdata
      simp only [contents, List.filterMap_cons, hc, Option.map_some, List.map_cons,
        List.cons.injEq] at this
      exact this.1
    rw [hb, load_some hc, hd]
    refine .silent (hI.move_silent hi .kept .kept rfl rfl (.inl rfl) ⟨hph, hke, hnil, ?_⟩)
    exact fun x hx => hx

/-- **Every statement** that a thread executes next is a turn of the atomic queue or none. -/
theorem Inv.next (hI : Inv s nodes t xs phase) (i : ι) :
    Turns (s.next i) (s.event (.next i)) xs phase := by
  have hk := hI.knows i
  cases hi : s.thread i with
  | getTail k => exact hI.getTail hi
  | comparing k r => exact hI.comparing hi
  | moving k => exact hI.moving hi
  | allocated a p =>
    rw [hi] at hk
    unfold NodeQueue.next event
    simp only [hi]
    split
    · next hfree => exact .silent (hI.move_silent hi .kept (.taken hfree) rfl rfl (.inr rfl) hk)
    · exact .silent hI
  | tailTaken a p =>
    rw [hi] at hk
    have hlast : s.heap t = some fresh :=
      hI.last.trans (congrArg some (hI.lastCell_of_hasTail hi rfl))
    have hp : p ≠ t := hI.own_ne_last (by rw [hi]; rfl)
    unfold NodeQueue.next event
    simp only [hi]
    rw [hI.tail, storeData_some hlast]
    exact .silent (hI.writeLast hi rfl ⟨rfl, rfl, hI.tail.symm, rfl, rfl⟩ rfl rfl rfl rfl rfl
      ⟨hk.1, (Function.update_of_ne hp _ _).trans hk.2⟩)
  | dataSet a p =>
    rw [hi] at hk
    have hlast : s.heap t = some ⟨none, some a⟩ :=
      hI.last.trans (congrArg some (hI.lastCell_of_hasTail hi rfl))
    have hp : p ≠ t := hI.own_ne_last (by rw [hi]; rfl)
    unfold NodeQueue.next event
    simp only [hi]
    rw [hI.tail, storeNext_some hlast]
    exact .silent (hI.writeLast hi rfl ⟨rfl, rfl, hI.tail.symm, rfl, rfl⟩ rfl rfl rfl rfl rfl
      ⟨hk.1, (Function.update_of_ne hp _ _).trans hk.2⟩)
  | nextSet a p =>
    rw [hi] at hk
    unfold NodeQueue.next event
    simp only [hi]
    exact ⟨_, _, _, _, _, rfl, hI.link hi, .effect hk.1 rfl⟩
  | tailSet =>
    rw [hi] at hk
    unfold NodeQueue.next event
    simp only [hi]
    exact .silent (hI.move_silent hi .kept .released rfl rfl (.inl rfl) hk)
  | linked =>
    rw [hi] at hk
    unfold NodeQueue.next event
    simp only [hi]
    exact ⟨_, _, _, _, _, rfl, hI.move hi .kept .kept rfl rfl (.inl rfl) rfl, .ret hk⟩
  | calling k =>
    rw [hi] at hk
    unfold NodeQueue.next event
    simp only [hi]
    split
    · next hfree => exact .silent (hI.move_silent hi (.taken hfree) .kept rfl rfl (.inl rfl) hk)
    · exact .silent hI
  | headTaken k =>
    rw [hi] at hk
    unfold NodeQueue.next event
    simp only [hi]
    split
    · next hfree => exact .silent (hI.move_silent hi .kept (.taken hfree) rfl rfl (.inl rfl) hk)
    · exact .silent hI
  | gotTail k r =>
    rw [hi] at hk
    unfold NodeQueue.next event
    simp only [hi]
    exact .silent (hI.move_silent hi .kept .released rfl rfl (.inl rfl) hk)
  | popping k v =>
    unfold NodeQueue.next event
    simp only [hi]
    exact .silent (hI.takeHead hi)
  | oldTaken k v old =>
    obtain ⟨b, n, a, nodes', xs', rfl, hb, hInv, hph, hfifo⟩ := hI.pop hi
    unfold NodeQueue.next event
    simp only [hi]
    rw [load_some hb, storeNext_some hb, Option.bind_some, hb]
    exact ⟨_, _, _, _, _, rfl, hInv, .effect hph hfifo⟩
  | popped k v old =>
    rw [hi] at hk
    obtain ⟨p, a, rfl, hp, hph, hv⟩ := hk
    unfold NodeQueue.next event
    simp only [hi]
    have hreading : Knows s.heap s.head nodes t xs (.reading (some p)) (phase i) :=
      ⟨p, a, rfl, hp, hph⟩
    split
    · next b =>
      obtain rfl : b = a := hv b rfl
      refine .silent (hI.move_silent hi .released .kept rfl rfl (.inr rfl) ⟨hph, ?_⟩)
      rintro q ⟨⟩
      exact ⟨_, hp⟩
    · exact .silent (hI.move_silent hi .released .kept rfl rfl (.inr rfl) hreading)
  | reading old =>
    rw [hi] at hk
    obtain ⟨p, a, rfl, hp, hph⟩ := hk
    unfold NodeQueue.next event
    simp only [hi]
    rw [load_some hp]
    refine .silent (hI.move_silent hi .kept .kept rfl rfl (.inr rfl) ⟨hph, ?_⟩)
    rintro q ⟨⟩
    exact ⟨_, hp⟩
  | deleting old r =>
    rw [hi] at hk
    unfold NodeQueue.next event
    simp only [hi]
    cases old with
    | none => exact .silent (hI.move_silent hi .kept .kept rfl rfl (.inl rfl) hk.1)
    | some p =>
      obtain ⟨d, hd⟩ := hk.2 p rfl
      dsimp only
      rw [load_some hd, free_some hd]
      exact .silent (hI.delete hi)
  | releasing r =>
    rw [hi] at hk
    unfold NodeQueue.next event
    simp only [hi]
    exact .silent (hI.move_silent hi .released .kept rfl rfl (.inl rfl) hk)
  | returning r =>
    rw [hi] at hk
    unfold NodeQueue.next event
    simp only [hi]
    exact ⟨_, _, _, _, _, rfl, hI.move hi .kept .kept rfl rfl (.inl rfl) rfl, .ret hk⟩
  | _ =>
    unfold NodeQueue.next event
    simp only [hi]
    exact .silent hI

theorem Inv.step (hI : Inv s nodes t xs phase) (a : QueueAction ι P α) :
    Turns (s.step a) (s.event a) xs phase := by
  cases a with
  | call i c =>
    have hk := hI.knows i
    unfold NodeQueue.step event
    cases hi : s.thread i with
    | idle =>
      rw [hi] at hk
      simp only [hi]
      cases c with
      | push a => exact ⟨_, _, _, _, _, rfl, hI.move hi .kept .kept rfl rfl (.inl rfl) rfl, .call hk⟩
      | head k => exact ⟨_, _, _, _, _, rfl, hI.move hi .kept .kept rfl rfl (.inl rfl) rfl, .call hk⟩
    | _ =>
      simp only [hi]
      exact .silent hI
  | new i p =>
    unfold NodeQueue.step event
    dsimp only
    split
    · next hi hp => exact .silent (hI.new hi hp)
    · exact .silent hI
  | wake i =>
    have hk := hI.knows i
    unfold NodeQueue.step event
    dsimp only
    split
    · next k hi =>
      rw [hi] at hk
      exact .silent (hI.move_silent hi .kept .kept rfl rfl (.inl rfl) hk)
    · exact .silent hI
  | next i => exact hI.next i

/-! ### Runs -/

omit [DecidableEq ι] in
theorem inv_construct (p : P) :
    Inv (construct p : NodeQueue ι P α) [] p [] (fun _ => .idle) where
  tail := rfl
  nodup := List.nodup_singleton p
  seg := rfl
  data := rfl
  last := by simp [construct, lastCell, viewOf]
  head_iff _ := iff_of_false Bool.false_ne_true (by simp [construct])
  tail_iff _ := iff_of_false Bool.false_ne_true (by simp [construct])
  knows _ := rfl
  owns _ _ hp := by cases hp
  apart _ _ _ hp := by cases hp

/-- What a run keeps, and what it is a run of. -/
theorem exists_run (p : P) (as : List (QueueAction ι P α)) :
    ∃ s phase xs, as.foldlM step (construct p) = .ok s ∧ (∃ nodes t, Inv s nodes t xs phase) ∧
      Execution fifo (fun _ => .idle) [] (eventsAlong step event (construct p) as) phase xs := by
  refine exists_execution (fun s phase xs a hI => ?_) ⟨[], p, inv_construct p⟩ as
  obtain ⟨nodes, t, hI⟩ := hI
  obtain ⟨s', nodes', t', xs', phase', hs', hI', hmatched⟩ := hI.step a
  exact ⟨s', phase', xs', hs', ⟨nodes', t', hI'⟩, hmatched⟩

/-- **The mailbox is linearizable.**  Whatever statements any number of threads execute in any order,
nothing is dereferenced that is not there, the calls and returns are those of the atomic queue, and
the nodes from `head` to `tail` hold what that queue holds. -/
theorem linearizable (p : P) (as : List (QueueAction ι P α)) :
    ∃ s phase xs, as.foldlM step (construct p) = .ok s ∧
      Execution fifo (fun _ => .idle) [] (eventsAlong step event (construct p) as) phase xs ∧
      ∃ nodes, Seg s.heap s.first nodes s.tail ∧ contents s.heap nodes = xs.map some := by
  obtain ⟨s, phase, xs, hs, ⟨nodes, t, hI⟩, hrun⟩ := exists_run p as
  refine ⟨s, phase, xs, hs, hrun, nodes, ?_, hI.data⟩
  rw [hI.tail]
  exact hI.seg

/-! ### Races -/

section Race

variable {j : ι} {l : QueueLocation P}

/-- The node a thread may touch, and why: it is the last one and the thread has `tail_mutex`, it is
the thread's own, or it is in the queue and the thread has `head_mutex`. -/
def Guards (s : NodeQueue ι P α) (nodes : List P) (t : P) (i : ι) (p : P) : Prop :=
  ((s.thread i).hasTail = true ∧ p = t) ∨ (s.thread i).own = some p ∨
    ((s.thread i).hasHead = true ∧ p ∈ nodes)

omit [DecidableEq ι] in
theorem Inv.guards_unique (hI : Inv s nodes t xs phase) (hi : Guards s nodes t i p)
    (hj : Guards s nodes t j p) : i = j := by
  have hmem : ∀ {q}, q ∈ nodes → q ∈ nodes ++ [t] := fun hq => List.mem_append_left _ hq
  rcases hi with ⟨hi, rfl⟩ | hi | ⟨hi, hp⟩
  · rcases hj with ⟨hj, -⟩ | hj | ⟨-, hp⟩
    · exact Option.some.inj (((hI.tail_iff i).mp hi).symm.trans ((hI.tail_iff j).mp hj))
    · exact absurd rfl (hI.own_ne_last hj)
    · exact absurd hp hI.last_notMem
  · rcases hj with ⟨-, rfl⟩ | hj | ⟨-, hp⟩
    · exact absurd rfl (hI.own_ne_last hi)
    · exact hI.apart i j p hi hj
    · exact absurd (hmem hp) (hI.owns i p hi)
  · rcases hj with ⟨-, rfl⟩ | hj | ⟨hj, -⟩
    · exact absurd hp hI.last_notMem
    · exact absurd (hmem hp) (hI.owns j p hj)
    · exact Option.some.inj (((hI.head_iff i).mp hi).symm.trans ((hI.head_iff j).mp hj))

def Allows (s : NodeQueue ι P α) (nodes : List P) (t : P) (i : ι) : QueueLocation P → Prop
  | .head => (s.thread i).hasHead = true
  | .tail => (s.thread i).hasTail = true
  | .data p | .next p => Guards s nodes t i p

omit [DecidableEq ι] in
theorem Inv.allows_unique (hI : Inv s nodes t xs phase) (hi : Allows s nodes t i l)
    (hj : Allows s nodes t j l) : i = j := by
  cases l with
  | head => exact Option.some.inj (((hI.head_iff i).mp hi).symm.trans ((hI.head_iff j).mp hj))
  | tail => exact Option.some.inj (((hI.tail_iff i).mp hi).symm.trans ((hI.tail_iff j).mp hj))
  | data p => exact hI.guards_unique hi hj
  | next p => exact hI.guards_unique hi hj

omit [DecidableEq ι] in
theorem Inv.allows (hI : Inv s nodes t xs phase) (hl : l ∈ s.accesses i) : Allows s nodes t i l := by
  have hk := hI.knows i
  unfold accesses at hl
  cases hi : s.thread i with
  | tailTaken a p =>
    rw [hi, hI.tail] at hl
    rcases List.mem_cons.mp hl with rfl | hl
    · show (s.thread i).hasTail = true
      rw [hi]
      rfl
    · obtain rfl := List.mem_singleton.mp hl
      exact .inl ⟨by rw [hi]; rfl, rfl⟩
  | dataSet a p =>
    rw [hi, hI.tail] at hl
    rcases List.mem_cons.mp hl with rfl | hl
    · show (s.thread i).hasTail = true
      rw [hi]
      rfl
    · obtain rfl := List.mem_singleton.mp hl
      exact .inl ⟨by rw [hi]; rfl, rfl⟩
  | nextSet a p =>
    rw [hi] at hl
    obtain rfl := List.mem_singleton.mp hl
    show (s.thread i).hasTail = true
    rw [hi]
    rfl
  | getTail k =>
    rw [hi] at hl
    obtain rfl := List.mem_singleton.mp hl
    show (s.thread i).hasTail = true
    rw [hi]
    rfl
  | comparing k r =>
    rw [hi] at hl
    obtain rfl := List.mem_singleton.mp hl
    show (s.thread i).hasHead = true
    rw [hi]
    rfl
  | popping k v =>
    rw [hi] at hl
    obtain rfl := List.mem_singleton.mp hl
    show (s.thread i).hasHead = true
    rw [hi]
    rfl
  | moving k =>
    have hfirst : s.first = s.head := hI.first_of_hasHead hi rfl
    have hseg := hI.seg
    rw [hi] at hk hl
    obtain ⟨b, rest, rfl⟩ := List.exists_cons_of_ne_nil hk.2.2
    have hb : s.head = some b := hfirst.symm.trans hseg.1
    rw [hb] at hl
    rcases List.mem_cons.mp hl with rfl | hl
    · show (s.thread i).hasHead = true
      rw [hi]
      rfl
    · obtain rfl := List.mem_singleton.mp hl
      exact .inr (.inr ⟨by rw [hi]; rfl, List.mem_cons_self⟩)
  | oldTaken k v old =>
    rw [hi] at hk hl
    obtain ⟨-, -, hnil, hold, -⟩ := hk
    obtain ⟨b, rest, rfl⟩ := List.exists_cons_of_ne_nil hnil
    obtain rfl : old = some b := hold
    rcases List.mem_cons.mp hl with rfl | hl
    · show (s.thread i).hasHead = true
      rw [hi]
      rfl
    · obtain rfl := List.mem_singleton.mp hl
      exact .inr (.inr ⟨by rw [hi]; rfl, List.mem_cons_self⟩)
  | reading old =>
    rw [hi] at hl
    obtain ⟨p, hp, rfl⟩ := List.mem_map.mp hl
    exact .inr (.inl (by rw [hi]; exact Option.mem_toList.mp hp))
  | deleting old r =>
    rw [hi] at hl
    rcases List.mem_append.mp hl with hl | hl
    · obtain ⟨p, hp, rfl⟩ := List.mem_map.mp hl
      exact .inr (.inl (by rw [hi]; exact Option.mem_toList.mp hp))
    · obtain ⟨p, hp, rfl⟩ := List.mem_map.mp hl
      exact .inr (.inl (by rw [hi]; exact Option.mem_toList.mp hp))
  | _ =>
    rw [hi] at hl
    cases hl

end Race

/-- **No data race.**  In every state of every run the threads' next statements touch different
locations. -/
theorem race_free (p : P) (as : List (QueueAction ι P α)) :
    ∃ s, as.foldlM step (construct p) = .ok s ∧ ¬ s.Race := by
  obtain ⟨s, phase, xs, hs, ⟨nodes, t, hI⟩, -⟩ := exists_run p as
  refine ⟨s, hs, ?_⟩
  rintro ⟨i, j, hij, l, hi, hj⟩
  exact hij (hI.allows_unique (hI.allows hi) (hI.allows hj))

end NodeQueue

end LocalChat
