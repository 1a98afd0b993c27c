import LocalChat.Broker.QueueNodes
import LocalChat.Lib.Mutexes

/-!
# The invariant of the nodes

The invariant of the nodes of a `threadsafe_queue`: from `head` on they are linked up to the node at
`tail`, which is empty except while a thread under `tail_mutex` fills it; a thread that has moved
`head` away still has the first node; and what a thread has made or popped is its own.

* `Knows.frame`: what a thread relies on, and what the statements of the others leave of it.
* `Inv.update`: what a statement has to establish.
* `Inv.new`, `Inv.writeLast`, `Inv.link`, `Inv.takeHead`, `Inv.pop`, `Inv.delete`: the statements that
  change a node or one of the two ends.
-/

namespace LocalChat

open HeapLists AtomicObjects Mutexes

/-! ### What a thread has -/

namespace QueueThread

variable {P α : Type}

def hasHead : QueueThread P α → Bool
  | .headTaken _ | .getTail _ | .gotTail _ _ | .comparing _ _ | .moving _ | .popping _ _
  | .oldTaken _ _ _ | .popped _ _ _ | .releasing _ => true
  | _ => false

def hasTail : QueueThread P α → Bool
  | .tailTaken _ _ | .dataSet _ _ | .nextSet _ _ | .tailSet | .getTail _ | .gotTail _ _ => true
  | _ => false

/-- The node that only this thread knows, or will be the only one to use. -/
def own : QueueThread P α → Option P
  | .allocated _ p | .tailTaken _ p | .dataSet _ p | .nextSet _ p => some p
  | .popped _ _ old | .reading old | .deleting old _ => old
  | _ => none

def first (head : Option P) : QueueThread P α → Option P
  | .oldTaken _ _ old => old
  | _ => head

def lastCell : QueueThread P α → Cell P (Option α)
  | .dataSet a _ => ⟨none, some a⟩
  | .nextSet a p => ⟨some p, some a⟩
  | _ => NodeQueue.fresh

theorem first_of_not_hasHead {head : Option P} (t : QueueThread P α) (h : t.hasHead = false) :
    t.first head = head := by
  cases t <;> first | rfl | cases h

theorem lastCell_of_not_hasTail (t : QueueThread P α) (h : t.hasTail = false) :
    t.lastCell = NodeQueue.fresh := by
  cases t <;> first | rfl | cases h

end QueueThread

namespace NodeQueue

variable {ι P α : Type}

def first (s : NodeQueue ι P α) : Option P :=
  viewOf s.thread (QueueThread.first s.head) s.head s.headMutex

def lastCell (s : NodeQueue ι P α) : Cell P (Option α) :=
  viewOf s.thread QueueThread.lastCell fresh s.tailMutex

/-! ### The invariant -/

/-- How far a call is that has read `tail`: where that was `head` the queue was empty then. -/
def judged (k : HeadCall) (same : Prop) [Decidable same] : Phase (QueueCall α) (QueueResult α) :=
  match k with
  | .tryPop => if same then .decided .null else .called (.head k)
  | .empty => .decided (.isEmpty same)
  | .waitAndPop | .waitAndPopInto => .called (.head k)

variable [DecidableEq P]

/-- What a thread can rely on: how far its call is, and what it knows of the nodes. -/
def Knows (h : Heap P (Option α)) (head : Option P) (nodes : List P) (t : P) (xs : List α) :
    QueueThread P α → Phase (QueueCall α) (QueueResult α) → Prop
  | .idle, ph => ph = .idle
  | .pushing a, ph => ph = .called (.push a)
  | .allocated a p, ph | .tailTaken a p, ph | .dataSet a p, ph | .nextSet a p, ph =>
    ph = .called (.push a) ∧ h p = some fresh
  | .tailSet, ph | .linked, ph => ph = .decided .pushed
  | .calling k, ph | .headTaken k, ph | .getTail k, ph | .waiting k, ph => ph = .called (.head k)
  | .gotTail k r, ph | .comparing k r, ph =>
    (∃ q ∈ nodes ++ [t], r = some q) ∧ ph = judged k (head = r)
  | .moving k, ph => ph = .called (.head k) ∧ k ≠ .empty ∧ nodes ≠ []
  | .popping k v, ph =>
    ph = .called (.head k) ∧ k ≠ .empty ∧ nodes ≠ [] ∧ ∀ a, v = some a → xs.head? = some a
  | .oldTaken k v old, ph =>
    ph = .called (.head k) ∧ k ≠ .empty ∧ nodes ≠ [] ∧ old = nodes.head? ∧ head = none ∧
      ∀ a, v = some a → xs.head? = some a
  | .popped _ v old, ph =>
    ∃ p a, old = some p ∧ h p = some ⟨none, some a⟩ ∧ ph = .decided (.popped a) ∧
      ∀ b, v = some b → b = a
  | .reading old, ph =>
    ∃ p a, old = some p ∧ h p = some ⟨none, some a⟩ ∧ ph = .decided (.popped a)
  | .deleting old r, ph => ph = .decided r ∧ ∀ p, old = some p → ∃ d, h p = some ⟨none, d⟩
  | .releasing r, ph | .returning r, ph => ph = .decided r

/-- The nodes `nodes` and, behind them, `t` make up the queue, which holds `xs`. -/
structure Inv (s : NodeQueue ι P α) (nodes : List P) (t : P) (xs : List α)
    (phase : ι → Phase (QueueCall α) (QueueResult α)) : Prop where
  tail : s.tail = some t
  nodup : (nodes ++ [t]).Nodup
  seg : Seg s.heap s.first nodes (some t)
  data : contents s.heap nodes = xs.map some
  last : s.heap t = some s.lastCell
  head_iff : ∀ i, (s.thread i).hasHead = true ↔ s.headMutex = some i
  tail_iff : ∀ i, (s.thread i).hasTail = true ↔ s.tailMutex = some i
  knows : ∀ i, Knows s.heap s.head nodes t xs (s.thread i) (phase i)
  owns : ∀ i p, (s.thread i).own = some p → p ∉ nodes ++ [t]
  apart : ∀ i j p, (s.thread i).own = some p → (s.thread j).own = some p → i = j

variable {s s' : NodeQueue ι P α} {nodes nodes' : List P} {t t' p : P} {xs xs' : List α} {i : ι}
  {phase : ι → Phase (QueueCall α) (QueueResult α)} {th₀ th : QueueThread P α}
  {ph : Phase (QueueCall α) (QueueResult α)} {h h' : Heap P (Option α)} {head head' : Option P}

theorem head?_of_prefix {β : Type} {l l' : List β} {b : β} (hl : l <+: l')
    (hb : l.head? = some b) : l'.head? = some b := by
  obtain ⟨r, rfl⟩ := hl
  rw [List.head?_append, hb]
  rfl

/-- What a thread knows stays true while its own node stays as it is and, if it has `head_mutex`,
nodes are only appended. -/
theorem Knows.frame (hk : Knows h head nodes t xs th ph)
    (hown : ∀ p, th.own = some p → h' p = h p)
    (hhead : th.hasHead = true → head' = head ∧ (∀ q ∈ nodes ++ [t], q ∈ nodes' ++ [t']) ∧
      nodes <+: nodes' ∧ xs <+: xs') : Knows h' head' nodes' t' xs' th ph := by
  have hne : nodes <+: nodes' → nodes ≠ [] → nodes' ≠ [] := by
    intro hpre hnil hnil'
    rw [hnil', List.prefix_nil] at hpre
    exact hnil hpre
  have hfront : nodes <+: nodes' → nodes ≠ [] → nodes.head? = nodes'.head? := by
    intro hpre hnil
    obtain ⟨b, hb⟩ := Option.isSome_iff_exists.mp (List.isSome_head?.mpr hnil)
    rw [hb, head?_of_prefix hpre hb]
  cases th with
  | allocated a p => exact ⟨hk.1, (hown p rfl).trans hk.2⟩
  | tailTaken a p => exact ⟨hk.1, (hown p rfl).trans hk.2⟩
  | dataSet a p => exact ⟨hk.1, (hown p rfl).trans hk.2⟩
  | nextSet a p => exact ⟨hk.1, (hown p rfl).trans hk.2⟩
  | gotTail k r =>
    obtain ⟨rfl, hsub, -⟩ := hhead rfl
    obtain ⟨⟨q, hq, hr⟩, hph⟩ := hk
    exact ⟨⟨q, hsub q hq, hr⟩, hph⟩
  | comparing k r =>
    obtain ⟨rfl, hsub, -⟩ := hhead rfl
    obtain ⟨⟨q, hq, hr⟩, hph⟩ := hk
    exact ⟨⟨q, hsub q hq, hr⟩, hph⟩
  | moving k =>
    obtain ⟨-, -, hpre, -⟩ := hhead rfl
    exact ⟨hk.1, hk.2.1, hne hpre hk.2.2⟩
  | popping k v =>
    obtain ⟨-, -, hpre, hpre'⟩ := hhead rfl
    obtain ⟨hph, hke, hnil, hv⟩ := hk
    exact ⟨hph, hke, hne hpre hnil, fun a ha => head?_of_prefix hpre' (hv a ha)⟩
  | oldTaken k v old =>
    obtain ⟨rfl, -, hpre, hpre'⟩ := hhead rfl
    obtain ⟨hph, hke, hnil, hold, hnone, hv⟩ := hk
    exact ⟨hph, hke, hne hpre hnil, hold.trans (hfront hpre hnil), hnone,
      fun a ha => head?_of_prefix hpre' (hv a ha)⟩
  | popped k v old =>
    obtain ⟨p, a, rfl, hp, hrest⟩ := hk
    exact ⟨p, a, rfl, (hown p rfl).trans hp, hrest⟩
  | reading old =>
    obtain ⟨p, a, rfl, hp, hph⟩ := hk
    exact ⟨p, a, rfl, (hown p rfl).trans hp, hph⟩
  | deleting old r =>
    refine ⟨hk.1, ?_⟩
    rintro p rfl
    obtain ⟨d, hd⟩ := hk.2 p rfl
    exact ⟨d, (hown p rfl).trans hd⟩
  | _ => exact hk

/-- A thread's own node is there. -/
theorem Knows.exists_cell (hk : Knows h head nodes t xs th ph) (hown : th.own = some p) :
    ∃ c, h p = some c := by
  cases th with
  | allocated a q => cases hown; exact ⟨_, hk.2⟩
  | tailTaken a q => cases hown; exact ⟨_, hk.2⟩
  | dataSet a q => cases hown; exact ⟨_, hk.2⟩
  | nextSet a q => cases hown; exact ⟨_, hk.2⟩
  | popped k v old =>
    obtain ⟨q, a, rfl, hq, -⟩ := hk
    cases hown
    exact ⟨_, hq⟩
  | reading old =>
    obtain ⟨q, a, rfl, hq, -⟩ := hk
    cases hown
    exact ⟨_, hq⟩
  | deleting old r =>
    obtain ⟨d, hd⟩ := hk.2 p hown
    exact ⟨_, hd⟩
  | _ => cases hown

/-! ### What a statement has to establish -/

variable [DecidableEq ι]

/-- **The rule for a statement** of thread `i`, from `th₀` to `th`. -/
theorem Inv.update (hI : Inv s nodes t xs phase) (hi : s.thread i = th₀)
    (hthread : s'.thread = Function.update s.thread i th)
    (hhead : Passes s.headMutex i th₀.hasHead th.hasHead s'.headMutex)
    (htail : Passes s.tailMutex i th₀.hasTail th.hasTail s'.tailMutex)
    (hlinks : s'.tail = some t' ∧ (nodes' ++ [t']).Nodup ∧ Seg s'.heap s'.first nodes' (some t') ∧
      contents s'.heap nodes' = xs'.map some ∧ s'.heap t' = some s'.lastCell)
    (hown : ∀ p, th.own = some p → p ∉ nodes' ++ [t'] ∧ ∀ j ≠ i, (s.thread j).own ≠ some p)
    (hothers : ∀ j ≠ i, ∀ p, (s.thread j).own = some p →
      s'.heap p = s.heap p ∧ p ∉ nodes' ++ [t'])
    (hframe : ∀ j ≠ i, (s.thread j).hasHead = true → s'.head = s.head ∧
      (∀ q ∈ nodes ++ [t], q ∈ nodes' ++ [t']) ∧ nodes <+: nodes' ∧ xs <+: xs')
    (hknows : Knows s'.heap s'.head nodes' t' xs' th ph) :
    Inv s' nodes' t' xs' (Function.update phase i ph) where
  tail := hlinks.1
  nodup := hlinks.2.1
  seg := hlinks.2.2.1
  data := hlinks.2.2.2.1
  last := hlinks.2.2.2.2
  head_iff j := by
    rw [hthread]
    rw [← hi] at hhead
    exact hhead.holds_iff hI.head_iff j
  tail_iff j := by
    rw [hthread]
    rw [← hi] at htail
    exact htail.holds_iff hI.tail_iff j
  knows j := by
    rw [hthread]
    by_cases hj : j = i
    · subst hj
      rw [Function.update_self, Function.update_self]
      exact hknows
    · rw [Function.update_of_ne hj, Function.update_of_ne hj]
      exact (hI.knows j).frame (fun p hp => (hothers j hj p hp).1) (hframe j hj)
  owns j p hp := by
    rw [hthread] at hp
    by_cases hj : j = i
    · subst hj
      rw [Function.update_self] at hp
      exact (hown p hp).1
    · rw [Function.update_of_ne hj] at hp
      exact (hothers j hj p hp).2
  apart j j' p hp hp' := by
    rw [hthread] at hp hp'
    by_cases hj : j = i
    · subst hj
      by_cases hj' : j' = j
      · exact hj'.symm
      · rw [Function.update_self] at hp
        rw [Function.update_of_ne hj'] at hp'
        exact absurd hp' ((hown p hp).2 j' hj')
    · rw [Function.update_of_ne hj] at hp
      by_cases hj' : j' = i
      · subst hj'
        rw [Function.update_self] at hp'
        exact absurd hp ((hown p hp').2 j hj)
      · rw [Function.update_of_ne hj'] at hp'
        exact hI.apart j j' p hp hp'

/-- The nodes begin where they began. -/
theorem Inv.first_eq (hI : Inv s nodes t xs phase) (hi : s.thread i = th₀)
    (hthread : s'.thread = Function.update s.thread i th) (hs : s'.head = s.head)
    (hhead : Passes s.headMutex i th₀.hasHead th.hasHead s'.headMutex)
    (hfirst : th.first s.head = th₀.first s.head) : s'.first = s.first := by
  rw [← hi] at hhead hfirst
  unfold first
  rw [hthread, hs]
  exact hhead.viewOf (fun t => t.first_of_not_hasHead) hI.head_iff hfirst

theorem Inv.lastCell_eq (hI : Inv s nodes t xs phase) (hi : s.thread i = th₀)
    (hthread : s'.thread = Function.update s.thread i th)
    (htail : Passes s.tailMutex i th₀.hasTail th.hasTail s'.tailMutex)
    (hlast : th.lastCell = th₀.lastCell) : s'.lastCell = s.lastCell := by
  rw [← hi] at htail hlast
  unfold lastCell
  rw [hthread]
  exact htail.viewOf (fun t => t.lastCell_of_not_hasTail) hI.tail_iff hlast

/-- A statement that leaves the nodes from `head` to `tail` as they are. -/
theorem Inv.update_kept (hI : Inv s nodes t xs phase) (hi : s.thread i = th₀)
    (hthread : s'.thread = Function.update s.thread i th)
    (hhead : Passes s.headMutex i th₀.hasHead th.hasHead s'.headMutex)
    (htail : Passes s.tailMutex i th₀.hasTail th.hasTail s'.tailMutex)
    (hfirst : th.first s.head = th₀.first s.head) (hlast : th.lastCell = th₀.lastCell)
    (hends : s'.head = s.head ∧ s'.tail = s.tail)
    (hheap : ∀ q ∈ nodes ++ [t], s'.heap q = s.heap q)
    (hown : ∀ p, th.own = some p → p ∉ nodes ++ [t] ∧ ∀ j ≠ i, (s.thread j).own ≠ some p)
    (hothers : ∀ j ≠ i, ∀ p, (s.thread j).own = some p → s'.heap p = s.heap p)
    (hknows : Knows s'.heap s'.head nodes t xs th ph) :
    Inv s' nodes t xs (Function.update phase i ph) := by
  refine hI.update hi hthread hhead htail ⟨hends.2.trans hI.tail, hI.nodup, ?_, ?_, ?_⟩ hown
    (fun j hj p hp => ⟨hothers j hj p hp, hI.owns j p hp⟩) ?_ hknows
  · rw [hI.first_eq hi hthread hends.1 hhead hfirst]
    exact hI.seg.frame fun q hq => hheap q (List.mem_append_left _ hq)
  · rw [← hI.data]
    exact contents_frame fun q hq => congrArg _ (hheap q (List.mem_append_left _ hq))
  · rw [hI.lastCell_eq hi hthread htail hlast, ← hI.last]
    exact hheap t (List.mem_append_right _ (List.mem_singleton_self t))
  · exact fun j _ _ => ⟨hends.1, fun q hq => hq, List.prefix_rfl, List.prefix_rfl⟩

/-- A statement that leaves all memory as it is. -/
theorem Inv.move (hI : Inv s nodes t xs phase) (hi : s.thread i = th₀) {hm tm : Option ι}
    (hhead : Passes s.headMutex i th₀.hasHead th.hasHead hm)
    (htail : Passes s.tailMutex i th₀.hasTail th.hasTail tm)
    (hfirst : th.first s.head = th₀.first s.head) (hlast : th.lastCell = th₀.lastCell)
    (hown : th.own = none ∨ th.own = th₀.own) (hknows : Knows s.heap s.head nodes t xs th ph) :
    Inv ({ s with headMutex := hm, tailMutex := tm }.goto i th) nodes t xs
      (Function.update phase i ph) := by
  refine hI.update_kept hi rfl hhead htail hfirst hlast ⟨rfl, rfl⟩ (fun _ _ => rfl) ?_
    (fun _ _ _ _ => rfl) hknows
  intro p hp
  rcases hown with hnone | hsame
  · rw [hnone] at hp
    cases hp
  · rw [hsame, ← hi] at hp
    exact ⟨hI.owns i p hp, fun j hj hjp => hj (hI.apart j i p hjp hp)⟩

/-- And the call of its thread is as far as it was. -/
theorem Inv.move_silent (hI : Inv s nodes t xs phase) (hi : s.thread i = th₀) {hm tm : Option ι}
    (hhead : Passes s.headMutex i th₀.hasHead th.hasHead hm)
    (htail : Passes s.tailMutex i th₀.hasTail th.hasTail tm)
    (hfirst : th.first s.head = th₀.first s.head) (hlast : th.lastCell = th₀.lastCell)
    (hown : th.own = none ∨ th.own = th₀.own)
    (hknows : Knows s.heap s.head nodes t xs th (phase i)) :
    Inv ({ s with headMutex := hm, tailMutex := tm }.goto i th) nodes t xs phase := by
  have hmove := hI.move hi hhead htail hfirst hlast hown hknows
  rwa [Function.update_eq_self] at hmove

/-! ### The statements that change the nodes -/

omit [DecidableEq ι] in
theorem Inv.exists_cell (hI : Inv s nodes t xs phase) (hp : p ∈ nodes ++ [t]) :
    ∃ c, s.heap p = some c := by
  rcases List.mem_append.mp hp with hp | hp
  · exact hI.seg.exists_cell hp
  · rw [List.mem_singleton.mp hp]
    exact ⟨_, hI.last⟩

omit [DecidableEq ι] in
theorem Inv.last_notMem (hI : Inv s nodes t xs phase) : t ∉ nodes := fun ht =>
  (List.nodup_append.mp hI.nodup).2.2 t ht t (List.mem_singleton_self t) rfl

omit [DecidableEq ι] in
theorem Inv.own_ne_last (hI : Inv s nodes t xs phase) (hp : (s.thread i).own = some p) : p ≠ t := by
  rintro rfl
  exact hI.owns i p hp (List.mem_append_right nodes (List.mem_singleton_self p))

omit [DecidableEq ι] in
theorem Inv.own_ne (hI : Inv s nodes t xs phase) (hi : s.thread i = th₀) (hp : th₀.own = some p)
    {j : ι} (hj : j ≠ i) : (s.thread j).own ≠ some p := by
  intro hjp
  rw [← hi] at hp
  exact hj (hI.apart j i p hjp hp)

omit [DecidableEq ι] in
/-- Only one thread has `head_mutex`. -/
theorem Inv.hasHead_unique (hI : Inv s nodes t xs phase) (hi : s.thread i = th₀)
    (hth : th₀.hasHead = true) {j : ι} (hj : j ≠ i) : (s.thread j).hasHead ≠ true := by
  intro hjh
  rw [← hi] at hth
  exact hj (Option.some.inj (((hI.head_iff j).mp hjh).symm.trans ((hI.head_iff i).mp hth)))

omit [DecidableEq ι] in
theorem Inv.first_of_hasHead (hI : Inv s nodes t xs phase) (hi : s.thread i = th₀)
    (hth : th₀.hasHead = true) : s.first = th₀.first s.head := by
  rw [← hi] at hth
  unfold first
  rw [(hI.head_iff i).mp hth]
  show (s.thread i).first s.head = _
  rw [hi]

omit [DecidableEq ι] in
theorem Inv.lastCell_of_hasTail (hI : Inv s nodes t xs phase) (hi : s.thread i = th₀)
    (hth : th₀.hasTail = true) : s.lastCell = th₀.lastCell := by
  rw [← hi] at hth
  unfold lastCell
  rw [(hI.tail_iff i).mp hth]
  show (s.thread i).lastCell = _
  rw [hi]

/-- `new node`. -/
theorem Inv.new (hI : Inv s nodes t xs phase) {a : α} (hi : s.thread i = .pushing a)
    (hp : s.heap p = none) :
    Inv ({ s with heap := Function.update s.heap p (some fresh) }.goto i (.allocated a p)) nodes t xs
      phase := by
  have hk := hI.knows i
  rw [hi] at hk
  have hmem : p ∉ nodes ++ [t] := by
    intro hmem
    obtain ⟨c, hc⟩ := hI.exists_cell hmem
    rw [hp] at hc
    cases hc
  have hne : ∀ q ∈ nodes ++ [t], Function.update s.heap p (some fresh) q = s.heap q := by
    intro q hq
    refine Function.update_of_ne ?_ _ _
    rintro rfl
    exact hmem hq
  have hown : ∀ j, (s.thread j).own ≠ some p := by
    intro j hj
    obtain ⟨c, hc⟩ := (hI.knows j).exists_cell hj
    rw [hp] at hc
    cases hc
  have hInv : Inv ({ s with heap := Function.update s.heap p (some fresh) }.goto i (.allocated a p))
      nodes t xs (Function.update phase i (phase i)) := by
    refine hI.update_kept hi rfl .kept .kept rfl rfl ⟨rfl, rfl⟩ hne ?_ ?_
      ⟨hk, Function.update_self _ _ _⟩
    · rintro q ⟨⟩
      exact ⟨hmem, fun j _ => hown j⟩
    · intro j _ q hq
      refine Function.update_of_ne ?_ _ _
      rintro rfl
      exact hown j hq
  rwa [Function.update_eq_self] at hInv

/-- A write to the node at `tail`. -/
theorem Inv.writeLast (hI : Inv s nodes t xs phase) (hi : s.thread i = th₀)
    (hthread : s'.thread = Function.update s.thread i th)
    (hs : s'.heap = Function.update s.heap t (some th.lastCell) ∧ s'.head = s.head ∧
      s'.tail = s.tail ∧ s'.headMutex = s.headMutex ∧ s'.tailMutex = s.tailMutex)
    (hhead : th.hasHead = th₀.hasHead) (htail₀ : th₀.hasTail = true) (htail : th.hasTail = true)
    (hfirst : th.first s.head = th₀.first s.head) (hown : th.own = th₀.own)
    (hknows : Knows s'.heap s.head nodes t xs th (phase i)) : Inv s' nodes t xs phase := by
  obtain ⟨hheap, hs, hs', hmutex, hmutex'⟩ := hs
  have hne : ∀ q ≠ t, s'.heap q = s.heap q := by
    intro q hq
    rw [hheap]
    exact Function.update_of_ne hq _ _
  have hnodes : ∀ q ∈ nodes, s'.heap q = s.heap q := by
    intro q hq
    refine hne q ?_
    rintro rfl
    exact hI.last_notMem hq
  have hkeptHead : Passes s.headMutex i th₀.hasHead th.hasHead s'.headMutex := by
    rw [hhead, hmutex]
    exact .kept
  have hkeptTail : Passes s.tailMutex i th₀.hasTail th.hasTail s'.tailMutex := by
    rw [htail₀, htail, hmutex']
    exact .kept
  have hInv : Inv s' nodes t xs (Function.update phase i (phase i)) := by
    refine hI.update hi hthread hkeptHead hkeptTail ⟨hs'.trans hI.tail, hI.nodup, ?_, ?_, ?_⟩ ?_ ?_ ?_
      (hs ▸ hknows)
    · rw [hI.first_eq hi hthread hs hkeptHead hfirst]
      exact hI.seg.frame hnodes
    · rw [← hI.data]
      exact contents_frame fun q hq => congrArg _ (hnodes q hq)
    · have hholds : s.tailMutex = some i := (hI.tail_iff i).mp (by rw [hi, htail₀])
      unfold lastCell
      rw [hmutex', hholds, hthread, hheap, Function.update_self]
      show _ = some (QueueThread.lastCell (Function.update s.thread i th i))
      rw [Function.update_self]
    · intro p hp
      rw [hown] at hp
      refine ⟨?_, fun j hj => hI.own_ne hi hp hj⟩
      rw [← hi] at hp
      exact hI.owns i p hp
    · exact fun j _ q hq => ⟨hne q (hI.own_ne_last hq), hI.owns j q hq⟩
    · exact fun j _ _ => ⟨hs, fun q hq => hq, List.prefix_rfl, List.prefix_rfl⟩
  rwa [Function.update_eq_self] at hInv

/-- `tail = new_tail`: the node at `tail` joins those that hold something. -/
theorem Inv.link (hI : Inv s nodes t xs phase) {a : α} (hi : s.thread i = .nextSet a p) :
    Inv ({ s with tail := some p }.goto i .tailSet) (nodes ++ [t]) p (xs ++ [a])
      (Function.update phase i (.decided .pushed)) := by
  have hk := hI.knows i
  rw [hi] at hk
  have hp : p ∉ nodes ++ [t] := hI.owns i p (by rw [hi]; rfl)
  have hlast : s.heap t = some ⟨some p, some a⟩ :=
    hI.last.trans (congrArg some (hI.lastCell_of_hasTail hi rfl))
  have hfirst : ({ s with tail := some p }.goto i .tailSet).first = s.first :=
    hI.first_eq hi rfl rfl .kept rfl
  have hmutex : s.tailMutex = some i := (hI.tail_iff i).mp (by rw [hi]; rfl)
  refine hI.update hi rfl .kept .kept ⟨rfl, ?_, ?_, ?_, ?_⟩ ?_ ?_ ?_ rfl
  · exact List.Nodup.append hI.nodup (List.nodup_singleton p)
      (List.disjoint_singleton.mpr hp)
  · rw [hfirst]
    exact seg_append.mpr ⟨some t, hI.seg, rfl, _, hlast, rfl⟩
  · show contents s.heap (nodes ++ [t]) = (xs ++ [a]).map some
    rw [contents_append, hI.data, List.map_append]
    simp [contents, hlast]
  · show s.heap p = some (viewOf _ _ _ s.tailMutex)
    rw [hk.2, hmutex]
    show _ = some (QueueThread.lastCell (Function.update s.thread i .tailSet i))
    rw [Function.update_self]
    rfl
  · rintro q ⟨⟩
  · intro j hj q hq
    refine ⟨rfl, fun hmem => ?_⟩
    rcases List.mem_append.mp hmem with hmem | hmem
    · exact hI.owns j q hq hmem
    · obtain rfl := List.mem_singleton.mp hmem
      exact hI.own_ne hi rfl hj hq
  · exact fun j _ _ => ⟨rfl, fun q hq => List.mem_append_left _ hq, List.prefix_append _ _,
      List.prefix_append _ _⟩

/-- `old_head = std::move(head)`. -/
theorem Inv.takeHead (hI : Inv s nodes t xs phase) {k : HeadCall} {v : Option α}
    (hi : s.thread i = .popping k v) :
    Inv ({ s with head := none }.goto i (.oldTaken k v s.head)) nodes t xs phase := by
  have hk := hI.knows i
  rw [hi] at hk
  obtain ⟨hph, hke, hnil, hv⟩ := hk
  have hfirst : s.first = s.head := hI.first_of_hasHead hi rfl
  have hmutex : s.headMutex = some i := (hI.head_iff i).mp (by rw [hi]; rfl)
  have hseg := hI.seg
  have hlast : ({ s with head := none }.goto i (.oldTaken k v s.head)).lastCell = s.lastCell :=
    hI.lastCell_eq hi rfl .kept rfl
  have hInv : Inv ({ s with head := none }.goto i (.oldTaken k v s.head)) nodes t xs
      (Function.update phase i (phase i)) := by
    refine hI.update hi rfl .kept .kept ⟨hI.tail, hI.nodup, ?_, hI.data, ?_⟩ ?_ ?_ ?_
      ⟨hph, hke, hnil, ?_, rfl, hv⟩
    · show Seg s.heap (viewOf _ _ _ s.headMutex) nodes (some t)
      rw [hmutex]
      show Seg s.heap (QueueThread.first _ (Function.update s.thread i _ i)) nodes (some t)
      rw [Function.update_self]
      rwa [hfirst] at hseg
    · rw [hlast]
      exact hI.last
    · rintro q ⟨⟩
    · exact fun j _ q hq => ⟨rfl, hI.owns j q hq⟩
    · exact fun j hj hjh => absurd hjh (hI.hasHead_unique hi rfl hj)
    · cases nodes with
      | nil => exact absurd rfl hnil
      | cons b nodes => exact hfirst.symm.trans hseg.1
  rwa [Function.update_eq_self] at hInv

/-- `head = std::move(old_head->next)`: the first node leaves the queue, with its data. -/
theorem Inv.pop (hI : Inv s nodes t xs phase) {k : HeadCall} {v : Option α} {old : Option P}
    (hi : s.thread i = .oldTaken k v old) :
    ∃ b next a nodes' xs', old = some b ∧ s.heap b = some ⟨next, some a⟩ ∧
      Inv ({ s with heap := Function.update s.heap b (some ⟨none, some a⟩), head := next }.goto i
        (.popped k v old)) nodes' t xs' (Function.update phase i (.decided (.popped a))) ∧
      phase i = .called (.head k) ∧ fifo xs (.head k) = some (.popped a, xs') := by
  have hk := hI.knows i
  rw [hi] at hk
  obtain ⟨hph, hke, hnil, hold, -, hv⟩ := hk
  have hseg := hI.seg
  have hdata := hI.data
  have hnodup := hI.nodup
  cases nodes with
  | nil => exact absurd rfl hnil
  | cons b nodes =>
    obtain ⟨-, ⟨next, d⟩, hb, hseg⟩ := hseg
    cases xs with
    | nil => simp [contents, hb] at hdata
    | cons a xs =>
      have hd : d = some a ∧ contents s.heap nodes = xs.map some := by
        simpa [contents, hb] using hdata
      obtain ⟨rfl, hdata⟩ := hd
      have hnotMem : b ∉ nodes ++ [t] := (List.nodup_cons.mp hnodup).1
      have hne : ∀ q ∈ nodes ++ [t], Function.update s.heap b (some ⟨none, some a⟩) q = s.heap q := by
        intro q hq
        refine Function.update_of_ne ?_ _ _
        rintro rfl
        exact hnotMem hq
      have hown : ∀ j, (s.thread j).own ≠ some b :=
        fun j hj => hI.owns j b hj List.mem_cons_self
      have hmutex : s.headMutex = some i := (hI.head_iff i).mp (by rw [hi]; rfl)
      have hlast : ({ s with
          heap := Function.update s.heap b (some ⟨none, some a⟩), head := next }.goto i
            (.popped k v old)).lastCell = s.lastCell := hI.lastCell_eq hi rfl .kept rfl
      refine ⟨b, next, a, nodes, xs, hold, hb, ?_, hph, ?_⟩
      · refine hI.update hi rfl .kept .kept ⟨hI.tail, (List.nodup_cons.mp hnodup).2, ?_, ?_, ?_⟩ ?_
          ?_ ?_ ⟨b, a, hold, Function.update_self _ _ _, rfl, ?_⟩
        · show Seg _ (viewOf _ _ _ s.headMutex) nodes (some t)
          rw [hmutex]
          show Seg _ (QueueThread.first _ (Function.update s.thread i _ i)) nodes (some t)
          rw [Function.update_self]
          exact hseg.frame fun q hq => hne q (List.mem_append_left _ hq)
        · rw [← hdata]
          exact contents_frame fun q hq => congrArg _ (hne q (List.mem_append_left _ hq))
        · rw [hlast, ← hI.last]
          exact hne t (List.mem_append_right _ (List.mem_singleton_self t))
        · intro q hq
          obtain rfl : b = q := Option.some.inj (hold.symm.trans hq)
          exact ⟨hnotMem, fun j _ => hown j⟩
        · intro j _ q hq
          refine ⟨Function.update_of_ne ?_ _ _, fun hmem => hI.owns j q hq (List.mem_cons_of_mem b hmem)⟩
          rintro rfl
          exact hown j hq
        · exact fun j hj hjh => absurd hjh (hI.hasHead_unique hi rfl hj)
        · exact fun x hx => (Option.some.inj (hv x hx)).symm
      · cases k with
        | empty => exact absurd rfl hke
        | _ => rfl

/-- The popped node is deleted. -/
theorem Inv.delete (hI : Inv s nodes t xs phase) {r : QueueResult α}
    (hi : s.thread i = .deleting (some p) r) :
    Inv ({ s with heap := Function.update s.heap p none }.goto i (.deleting none r)) nodes t xs
      phase := by
  have hk := hI.knows i
  rw [hi] at hk
  have hp : p ∉ nodes ++ [t] := hI.owns i p (by rw [hi]; rfl)
  have hInv : Inv ({ s with heap := Function.update s.heap p none }.goto i (.deleting none r)) nodes
      t xs (Function.update phase i (phase i)) := by
    refine hI.update_kept hi rfl .kept .kept rfl rfl ⟨rfl, rfl⟩ ?_ ?_ ?_ ⟨hk.1, ?_⟩
    · intro q hq
      refine Function.update_of_ne ?_ _ _
      rintro rfl
      exact hp hq
    · rintro q ⟨⟩
    · intro j hj q hq
      refine Function.update_of_ne ?_ _ _
      rintro rfl
      exact hI.own_ne hi rfl hj hq
    · rintro q ⟨⟩
  rwa [Function.update_eq_self] at hInv

end NodeQueue

end LocalChat
