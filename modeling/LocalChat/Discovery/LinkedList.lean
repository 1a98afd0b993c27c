import LocalChat.Discovery.Record
import LocalChat.Lib.HeapLists
import LocalChat.Lib.Runs

/-!
# The C linked list

`linked_list.c` keeps the browse records in a singly linked list on the C heap.  Its functions are
written here over a heap of elements, with their loops as they are: a loop runs on fuel, a null or
freed pointer that is dereferenced is a fault, and `Ends` says what a call comes to with enough
fuel.

* `addElement_ends`, `removeElement_ends`, `clearList_ends`: on a list that represents a sequence
  they append, erase and empty it.
* `removeElement_null`: `LinkedList_str_RemoveElement` with null runs past the end of a list that is
  not empty, since its loop also goes on while the cursor *is* null, and dereferences null there.
* `list_refines_sequence_iff`: so a sequence of calls works on the list as it does on a sequence
  exactly if null is removed from the empty list only.
-/

namespace LocalChat

open Octets HeapLists

namespace Discovery

/-! ### The functions of `linked_list.c` -/

/-- A `LinkedList_str` and the memory its elements are in, at addresses from `P`. -/
structure ListMemory (P : Type) where
  heap : Heap P Bytes
  headP : Option P
  didRegister : Bool

namespace ListMemory

variable {P : Type} [DecidableEq P]

def findTailLoop (h : Heap P Bytes) : Nat → Option P → Option P → Except Fault (Option P)
  | 0, _, _ => .error .fuel
  | fuel + 1, headP, prevP =>
    if headP = none then .ok prevP
    else do
      let e ← load h headP
      findTailLoop h fuel e.next headP

def findTail (m : ListMemory P) (fuel : Nat) : Except Fault (Option P) :=
  if m.headP = none then .ok none else findTailLoop m.heap fuel m.headP m.headP

def addElement (e : Option P) (m : ListMemory P) (fuel : Nat) : Except Fault (ListMemory P) :=
  if m.headP = none then .ok { m with headP := e }
  else do
    let tailP ← m.findTail fuel
    if tailP = none then .ok m
    else do
      let h ← storeNext m.heap tailP e
      .ok { m with heap := h }

def removeLoop (h : Heap P Bytes) (e : Option P) :
    Nat → Option P → Option P → Except Fault (Heap P Bytes)
  | 0, _, _ => .error .fuel
  | fuel + 1, headP, prevP =>
    if headP ≠ none ∨ headP = e then
      if headP = e then do
        let c ← load h headP
        let h ← storeNext h prevP c.next
        free h headP
      else do
        let c ← load h headP
        removeLoop h e fuel c.next headP
    else .ok h

def removeElement (e : Option P) (m : ListMemory P) (fuel : Nat) : Except Fault (ListMemory P) :=
  if m.headP = none then .ok m
  else if e = m.headP then do
    let c ← load m.heap m.headP
    let h ← free m.heap m.headP
    if c.next = none then .ok { m with heap := h, headP := none }
    else .ok { m with heap := h, headP := c.next }
  else do
    let h ← removeLoop m.heap e fuel m.headP m.headP
    .ok { m with heap := h }

/-- The loop of `LinkedList_str_ClearList`; the calls in it have `fuel` for theirs. -/
def clearLoop (fuel : Nat) : Nat → Option P → ListMemory P → Except Fault (ListMemory P)
  | 0, _, _ => .error .fuel
  | turns + 1, prevP, m => do
    let c ← load m.heap prevP
    let m ← removeElement prevP m fuel
    if c.next = none then .ok m else clearLoop fuel turns c.next m

def clearList (m : ListMemory P) (fuel : Nat) : Except Fault (ListMemory P) :=
  let m := { m with didRegister := false }
  if m.headP = none then .ok m else clearLoop fuel fuel m.headP m

def construct (headP : Option P) (h : Heap P Bytes) : ListMemory P := ⟨h, headP, false⟩

/-- `LinkedListElement_str_Constructor`, where `malloc` returns `a`. -/
def constructElement (a : P) (data : Bytes) (next : Option P) (m : ListMemory P) : ListMemory P :=
  { m with heap := Function.update m.heap a (some ⟨next, elementOf data⟩) }

/-! ### The loops -/

variable {h : Heap P Bytes} {m : ListMemory P} {p : Option P} {as l r : List P} {a prev : P}
  {c cprev : Cell P Bytes} {fuel : Nat}

omit [DecidableEq P] in
theorem findTailLoop_eq (hs : Chain h p as) (hf : as.length < fuel) (prevP : Option P) :
    findTailLoop h fuel p prevP = .ok (as.getLast?.or prevP) := by
  induction as generalizing p prevP fuel with
  | nil =>
    obtain ⟨fuel, rfl⟩ := exists_turn hf
    obtain rfl : p = none := hs
    rfl
  | cons b as ih =>
    obtain ⟨fuel, rfl⟩ := exists_turn hf
    obtain ⟨rfl, c, hc, hs⟩ := hs
    rw [findTailLoop, if_neg (by simp), load_some hc]
    show findTailLoop h fuel c.next (some b) = _
    rw [ih hs (Nat.lt_of_succ_lt_succ hf), List.getLast?_cons]
    cases as.getLast? <;> rfl

/-- The loop of `RemoveElement`, behind `prev`, when the element is still to come: it is taken out
of the chain and freed, and every other element keeps its data. -/
theorem removeLoop_mem (hprev : h prev = some cprev) (hnext : cprev.next = p)
    (hs : Chain h p (l ++ a :: r)) (hnot : prev ∉ l ++ a :: r) :
    ∃ h', (∀ fuel, l.length < fuel → removeLoop h (some a) fuel p (some prev) = .ok h') ∧
      Chain h' (some prev) (prev :: (l ++ r)) ∧
      (∀ x ≠ a, (h' x).map Cell.data = (h x).map Cell.data) ∧
      ∀ x, x ∉ prev :: (l ++ [a]) → h' x = h x := by
  induction l generalizing p prev cprev with
  | nil =>
    have hnodup := List.nodup_cons.mp (Chain.nodup hs)
    obtain ⟨rfl, c, hc, hs⟩ := hs
    have hne : prev ≠ a := fun he => hnot (by simp [he])
    have hnotr : prev ∉ r := fun hmem => hnot (by simp [hmem])
    refine ⟨unlink h prev cprev a c, ?_, Chain.unlink hs hne hnotr hnodup.1,
      fun x hx => unlink_data hprev hx, ?_⟩
    · intro fuel hf
      obtain ⟨fuel, rfl⟩ := exists_turn hf
      rw [removeLoop, if_pos (.inl (by simp)), if_pos rfl, load_some hc]
      exact storeNext_free hprev hc hne.symm
    · intro x hx
      simp only [List.nil_append, List.mem_cons, List.not_mem_nil, or_false, not_or] at hx
      exact unlink_of_ne hx.1 hx.2
  | cons b l ih =>
    have hnodup := List.nodup_cons.mp (Chain.nodup hs)
    obtain ⟨rfl, c, hc, hs⟩ := hs
    have hba : some b ≠ some a := fun he => hnodup.1 (by simp [Option.some.inj he])
    obtain ⟨h', hrun, hchain, hdata, hframe⟩ := ih hc rfl hs hnodup.1
    refine ⟨h', ?_, ⟨rfl, cprev, ?_, ?_⟩, hdata, ?_⟩
    · intro fuel hf
      obtain ⟨fuel, rfl⟩ := exists_turn hf
      rw [removeLoop, if_pos (.inl (by simp)), if_neg hba, load_some hc]
      exact hrun fuel (Nat.lt_of_succ_lt_succ hf)
    · -- `prev` lies before the two elements that are written
      rw [hframe prev, hprev]
      intro hmem
      apply hnot
      simp only [List.mem_cons, List.mem_append, List.not_mem_nil, or_false] at hmem ⊢
      tauto
    · rw [hnext]
      exact hchain
    · intro x hx
      exact hframe x fun hmem => hx (List.mem_cons_of_mem prev hmem)

theorem removeLoop_notMem (hs : Chain h p as) (hnot : a ∉ as) (hf : as.length < fuel)
    (prevP : Option P) : removeLoop h (some a) fuel p prevP = .ok h := by
  induction as generalizing p prevP fuel with
  | nil =>
    obtain ⟨fuel, rfl⟩ := exists_turn hf
    obtain rfl : p = none := hs
    rw [removeLoop, if_neg (by simp)]
  | cons b as ih =>
    obtain ⟨fuel, rfl⟩ := exists_turn hf
    obtain ⟨rfl, c, hc, hs⟩ := hs
    obtain ⟨hne, hnot⟩ := not_or.mp (mt List.mem_cons.mpr hnot)
    rw [removeLoop, if_pos (.inl (by simp)), if_neg fun he => hne (Option.some.inj he).symm,
      load_some hc]
    exact ih hs hnot (Nat.lt_of_succ_lt_succ hf) (some b)

/-- Looking for null the loop passes the end of the chain, where its cursor is null. -/
theorem removeLoop_null (hs : Chain h p as) (hf : as.length < fuel) (prevP : Option P) :
    removeLoop h none fuel p prevP = .error .null := by
  induction as generalizing p prevP fuel with
  | nil =>
    obtain ⟨fuel, rfl⟩ := exists_turn hf
    obtain rfl : p = none := hs
    rfl
  | cons b as ih =>
    obtain ⟨fuel, rfl⟩ := exists_turn hf
    obtain ⟨rfl, c, hc, hs⟩ := hs
    rw [removeLoop, if_pos (.inl (by simp)), if_neg (by simp), load_some hc]
    exact ih hs (Nat.lt_of_succ_lt_succ hf) (some b)

/-! ### The functions -/

structure Represents (m : ListMemory P) (as : List P) : Prop where
  chain : Chain m.heap m.headP as
  nodup : as.Nodup

omit [DecidableEq P] in
theorem represents_of_chain (hs : Chain m.heap m.headP as) : m.Represents as := ⟨hs, Chain.nodup hs⟩

omit [DecidableEq P] in
theorem represents_construct_nil (h : Heap P Bytes) : (construct none h).Represents [] :=
  represents_of_chain rfl

omit [DecidableEq P] in
theorem findTail_ends (hm : m.Represents as) : Ends m.findTail (.ok as.getLast?) := by
  refine ⟨as.length + 1, fun fuel hf => ?_⟩
  cases as with
  | nil =>
    obtain hnone : m.headP = none := hm.chain
    rw [findTail, if_pos hnone]
    rfl
  | cons b as =>
    obtain hhead : m.headP = some b := hm.chain.1
    rw [findTail, if_neg (by rw [hhead]; simp), findTailLoop_eq hm.chain hf, List.getLast?_cons]
    rfl

theorem addElement_ends {data : Bytes} (hm : m.Represents as) (hc : m.heap a = some ⟨none, data⟩)
    (ha : a ∉ as) : ∃ m' : ListMemory P, Ends (m.addElement (some a)) (.ok m') ∧
      m'.Represents (as ++ [a]) ∧ m'.didRegister = m.didRegister ∧
      ∀ x, (m'.heap x).map Cell.data = (m.heap x).map Cell.data := by
  rcases List.eq_nil_or_concat as with rfl | ⟨bs, t, rfl⟩
  · obtain hnone : m.headP = none := hm.chain
    refine ⟨{ m with headP := some a }, ?_, ?_, rfl, fun _ => rfl⟩
    · exact .of_forall fun fuel => by rw [addElement, if_pos hnone]
    · exact represents_of_chain ⟨rfl, _, hc, rfl⟩
  · obtain ⟨ct, ht⟩ := hm.chain.exists_cell (a := t) (by simp)
    have hnone : m.headP ≠ none := fun he => by
      simpa using (Chain.eq_nil_iff hm.chain).mp he
    have htail := findTail_ends hm
    rw [List.concat_eq_append] at ha hm htail ⊢
    rw [List.getLast?_concat] at htail
    have hat : a ≠ t := fun he => ha (by simp [he])
    have htbs : t ∉ bs := fun hmem => (List.nodup_append.mp hm.nodup).2.2 t hmem t (by simp) rfl
    refine ⟨{ m with heap := Function.update m.heap t (some { ct with next := some a }) },
      ?_, ?_, rfl, ?_⟩
    · have hrest : Ends (fun fuel => m.addElement (some a) fuel) (.ok
          { m with heap := Function.update m.heap t (some { ct with next := some a }) }) := by
        simp only [addElement, if_neg hnone]
        refine (Ends.bind_iff htail).mpr (.of_forall fun fuel => ?_)
        rw [if_neg (by simp), storeNext_some ht]
        rfl
      exact hrest
    · refine represents_of_chain (seg_append.mpr ⟨some a, ?_, rfl, ⟨none, data⟩, ?_, rfl⟩)
      · exact Seg.storeNext_last hm.chain htbs ht (some a)
      · exact (Function.update_of_ne hat _ _).trans hc
    · intro x
      show (Function.update m.heap t (some { ct with next := some a }) x).map Cell.data = _
      by_cases hx : x = t
      · rw [hx, Function.update_self, ht]
        rfl
      · rw [Function.update_of_ne hx]

theorem removeElement_head {d : Bool} (hc : h a = some c) (fuel : Nat) :
    removeElement (some a) ⟨h, some a, d⟩ fuel = .ok ⟨Function.update h a none, c.next, d⟩ := by
  rw [removeElement, if_neg (by simp), if_pos rfl]
  show (do
    let c ← load h (some a)
    let h ← free h (some a)
    if c.next = none then .ok ⟨h, none, d⟩ else .ok ⟨h, c.next, d⟩ :
      Except Fault (ListMemory P)) = _
  rw [load_some hc, free_some hc]
  show (if c.next = none then .ok ⟨Function.update h a none, none, d⟩
    else .ok ⟨Function.update h a none, c.next, d⟩ : Except Fault (ListMemory P)) = _
  split
  · next hnone => rw [hnone]
  · rfl

theorem chain_free_head (hc : h a = some c) (hs : Chain h (some a) (a :: as)) :
    Chain (Function.update h a none) c.next as := by
  have hnodup := List.nodup_cons.mp (Chain.nodup hs)
  obtain ⟨-, c', hc', hs⟩ := hs
  obtain rfl : c = c' := Option.some.inj (hc.symm.trans hc')
  refine hs.frame fun x hx => Function.update_of_ne ?_ _ _
  rintro rfl
  exact hnodup.1 hx

theorem removeElement_behind {b : P} {d : Bool} (hc : h b = some c) (hne : some a ≠ some b)
    (fuel : Nat) : removeElement (some a) ⟨h, some b, d⟩ (fuel + 1) = (do
      let h ← removeLoop h (some a) fuel c.next (some b)
      .ok ⟨h, some b, d⟩) := by
  rw [removeElement, if_neg (by simp), if_neg hne]
  show (do
    let h ← removeLoop h (some a) (fuel + 1) (some b) (some b)
    .ok (⟨h, some b, d⟩ : ListMemory P)) = _
  rw [removeLoop, if_pos (.inl (by simp)), if_neg hne.symm, load_some hc]
  rfl

/-- `LinkedList_str_RemoveElement` takes the element out, wherever it is, and leaves a list without
it as it is. -/
theorem removeElement_ends (hm : m.Represents as) (a : P) : ∃ m' : ListMemory P,
    Ends (m.removeElement (some a)) (.ok m') ∧ m'.Represents (as.erase a) ∧
      m'.didRegister = m.didRegister ∧
      ∀ x ≠ a, (m'.heap x).map Cell.data = (m.heap x).map Cell.data := by
  obtain ⟨h, headP, d⟩ := m
  cases as with
  | nil =>
    obtain rfl : headP = none := hm.chain
    exact ⟨_, .of_forall fun _ => rfl, hm, rfl, fun _ _ => rfl⟩
  | cons b as =>
    obtain rfl : headP = some b := hm.chain.1
    obtain ⟨c, hc⟩ := hm.chain.exists_cell (a := b) (by simp)
    by_cases hab : a = b
    · subst hab
      refine ⟨_, .of_forall (removeElement_head hc), ?_, rfl, ?_⟩
      · rw [List.erase_cons_head]
        exact represents_of_chain (chain_free_head hc hm.chain)
      · exact fun x hx => congrArg _ (Function.update_of_ne hx _ _)
    · have hne : some a ≠ some b := fun he => hab (Option.some.inj he)
      obtain ⟨-, c', hc', hs⟩ := hm.chain
      obtain rfl : c = c' := Option.some.inj (hc.symm.trans hc')
      have hnodup := List.nodup_cons.mp hm.nodup
      rw [List.erase_cons_tail (by simpa using Ne.symm hab)]
      by_cases ha : a ∈ as
      · obtain ⟨l, r, rfl⟩ := List.append_of_mem ha
        have hnotl : a ∉ l := fun hmem =>
          (List.nodup_append.mp hnodup.2).2.2 a hmem a (by simp) rfl
        obtain ⟨h', hloop, hchain, hdata, -⟩ := removeLoop_mem hc rfl hs hnodup.1
        refine ⟨⟨h', some b, d⟩, ⟨l.length + 2, fun fuel hf => ?_⟩, ?_, rfl, hdata⟩
        · obtain ⟨fuel, rfl⟩ := exists_turn hf
          rw [removeElement_behind hc hne, hloop fuel (by omega)]
          rfl
        · rw [List.erase_append_right _ hnotl, List.erase_cons_head]
          exact represents_of_chain hchain
      · refine ⟨⟨h, some b, d⟩, ⟨as.length + 2, fun fuel hf => ?_⟩, ?_, rfl, fun _ _ => rfl⟩
        · obtain ⟨fuel, rfl⟩ := exists_turn hf
          rw [removeElement_behind hc hne, removeLoop_notMem hs ha (by omega)]
          rfl
        · rw [List.erase_of_not_mem ha]
          exact hm

/-- `LinkedList_str_RemoveElement` with null ends in a fault, unless the list is empty. -/
theorem removeElement_null (hm : m.Represents as) (hne : as ≠ []) :
    Ends (m.removeElement none) (.error .null) := by
  have hnone : m.headP ≠ none := fun he => hne ((Chain.eq_nil_iff hm.chain).mp he)
  refine ⟨as.length + 1, fun fuel hf => ?_⟩
  rw [removeElement, if_neg hnone, if_neg (Ne.symm hnone), removeLoop_null hm.chain hf]
  rfl

theorem removeElement_null_nil (hm : m.Represents []) : Ends (m.removeElement none) (.ok m) := by
  obtain hnone : m.headP = none := hm.chain
  exact .of_forall fun fuel => by rw [removeElement, if_pos hnone]

/-- The clearing loop takes out one head after another and frees it. -/
theorem clearLoop_ends {d : Bool} (hs : Chain h (some a) (a :: as)) : ∃ h', (∀ fuel turns,
    as.length < turns → clearLoop fuel turns (some a) ⟨h, some a, d⟩ = .ok ⟨h', none, d⟩) ∧
      ∀ x, h' x = if x ∈ a :: as then none else h x := by
  induction as generalizing h a with
  | nil =>
    obtain ⟨c, hc⟩ := hs.exists_cell (a := a) (by simp)
    obtain hnone : c.next = none := chain_free_head hc hs
    refine ⟨Function.update h a none, fun fuel turns hf => ?_, fun x => ?_⟩
    · obtain ⟨turns, rfl⟩ := exists_turn hf
      rw [clearLoop, load_some hc]
      show (do
        let m ← removeElement (some a) ⟨h, some a, d⟩ fuel
        if c.next = none then .ok m else clearLoop fuel turns c.next m) = _
      rw [removeElement_head hc, hnone]
      rfl
    · simp only [Function.update_apply, List.mem_singleton]
  | cons b as ih =>
    obtain ⟨c, hc⟩ := hs.exists_cell (a := a) (by simp)
    have hrest := chain_free_head hc hs
    have hnext : c.next = some b := hrest.1
    rw [hnext] at hrest
    obtain ⟨h', hloop, hfreed⟩ := ih hrest
    refine ⟨h', fun fuel turns hf => ?_, fun x => ?_⟩
    · obtain ⟨turns, rfl⟩ := exists_turn hf
      rw [clearLoop, load_some hc]
      show (do
        let m ← removeElement (some a) ⟨h, some a, d⟩ fuel
        if c.next = none then .ok m else clearLoop fuel turns c.next m) = _
      rw [removeElement_head hc, hnext]
      exact hloop fuel turns (Nat.lt_of_succ_lt_succ hf)
    · rw [hfreed x, Function.update_apply]
      by_cases hx : x = a
      · simp [hx]
      · simp only [List.mem_cons, hx, false_or, if_false]

/-- `LinkedList_str_ClearList` leaves an empty list and frees its elements. -/
theorem clearList_ends (hm : m.Represents as) : ∃ m' : ListMemory P,
    Ends m.clearList (.ok m') ∧ m'.Represents [] ∧ m'.didRegister = false ∧
      ∀ x, m'.heap x = if x ∈ as then none else m.heap x := by
  obtain ⟨h, headP, d⟩ := m
  cases as with
  | nil =>
    obtain rfl : headP = none := hm.chain
    refine ⟨⟨h, none, false⟩, .of_forall fun _ => rfl, represents_of_chain rfl, rfl, fun x => ?_⟩
    exact (if_neg List.not_mem_nil).symm
  | cons a as =>
    obtain rfl : headP = some a := hm.chain.1
    obtain ⟨h', hloop, hfreed⟩ := clearLoop_ends (d := false) hm.chain
    refine ⟨⟨h', none, false⟩, ⟨as.length + 1, fun fuel hf => ?_⟩, represents_of_chain rfl, rfl,
      hfreed⟩
    exact hloop fuel fuel hf

end ListMemory

/-! ### Sequences of calls -/

/-- The calls on a list: a new element from `malloc` with the record it is constructed from, the
removal of any pointer, and clearing. -/
inductive ListCall (P : Type)
  | add (a : P) (data : Bytes)
  | remove (e : Option P)
  | clear

section Calls

variable {P : Type} [DecidableEq P]

/-- What a call means for the sequence of the elements. -/
def ListCall.apply (as : List P) : ListCall P → List P
  | .add a _ => as ++ [a]
  | .remove none => as
  | .remove (some a) => as.erase a
  | .clear => []

/-- `malloc` returns no element that is still in the list. -/
def ListCall.Fresh (as : List P) : ListCall P → Prop
  | .add a _ => a ∉ as
  | _ => True

/-- Null is removed from an empty list only. -/
def ListCall.Safe (as : List P) (c : ListCall P) : Prop := c = .remove none → as = []

namespace ListMemory

def call : ListCall P → ListMemory P → Nat → Except Fault (ListMemory P)
  | .add a data, m, fuel => (m.constructElement a data none).addElement (some a) fuel
  | .remove e, m, fuel => m.removeElement e fuel
  | .clear, m, fuel => m.clearList fuel

def calls : List (ListCall P) → ListMemory P → Nat → Except Fault (ListMemory P)
  | [], m, _ => .ok m
  | c :: cs, m, fuel => call c m fuel >>= fun m => calls cs m fuel

variable {m : ListMemory P} {as : List P} {a : P}

theorem Represents.constructElement (hm : m.Represents as) (ha : a ∉ as) (data : Bytes) :
    (m.constructElement a data none).Represents as := by
  refine represents_of_chain (hm.chain.frame fun x hx => Function.update_of_ne ?_ _ _)
  rintro rfl
  exact ha hx

/-- **One call**: it ends, and the list represents the sequence the call makes. -/
theorem call_ends {c : ListCall P} (hm : m.Represents as) (hf : c.Fresh as) (hs : c.Safe as) :
    ∃ m', Ends (call c m) (.ok m') ∧ m'.Represents (c.apply as) := by
  cases c with
  | add a data =>
    obtain ⟨m', hends, hm', -⟩ := addElement_ends (hm.constructElement hf data)
      (Function.update_self _ _ _) hf
    exact ⟨m', hends, hm'⟩
  | remove e =>
    cases e with
    | none =>
      obtain rfl := hs rfl
      exact ⟨m, removeElement_null_nil hm, hm⟩
    | some a =>
      obtain ⟨m', hends, hm', -⟩ := removeElement_ends hm a
      exact ⟨m', hends, hm'⟩
  | clear =>
    obtain ⟨m', hends, hm', -⟩ := clearList_ends hm
    exact ⟨m', hends, hm'⟩

/-- After these calls the list represents the sequence, and its tail is the last element. -/
def Refines (cs : List (ListCall P)) (m : ListMemory P) (as : List P) : Prop :=
  ∃ m', Ends (calls cs m) (.ok m') ∧ m'.Represents (Runs.run ListCall.apply as cs) ∧
    Ends m'.findTail (.ok (Runs.run ListCall.apply as cs).getLast?)

theorem refines_nil (hm : m.Represents as) : Refines [] m as :=
  ⟨m, .of_forall fun _ => rfl, hm, findTail_ends hm⟩

theorem refines_cons {c : ListCall P} {cs : List (ListCall P)} {m' : ListMemory P}
    (hc : Ends (call c m) (.ok m')) : Refines (c :: cs) m as ↔ Refines cs m' (c.apply as) := by
  have hcalls : ∀ r, Ends (calls (c :: cs) m) r ↔ Ends (calls cs m') r := fun _ => Ends.bind_iff hc
  rw [Refines, Refines]
  simp only [hcalls, Runs.run_cons]

/-- **The C list refines a sequence.**  All along a sequence of calls the list represents the
sequence they make (no null or freed pointer is dereferenced, every loop ends) exactly if none of
them removes null while the list has elements. -/
theorem list_refines_sequence_iff (hm : m.Represents as) {cs : List (ListCall P)}
    (hf : Runs.Meets ListCall.apply ListCall.Fresh as cs) :
    (∀ p, p <+: cs → Refines p m as) ↔ Runs.Meets ListCall.apply ListCall.Safe as cs := by
  induction cs generalizing m as with
  | nil => simp [Runs.Meets, refines_nil hm]
  | cons c cs ih =>
    obtain ⟨hfresh, hf⟩ := hf
    constructor
    · intro hall
      have hsafe : c.Safe as := by
        rintro rfl
        by_contra hne
        obtain ⟨m', hends, -⟩ := hall [.remove none] ⟨cs, rfl⟩
        have hfault : Ends (calls [.remove none] m) (.error .null) :=
          Ends.bind_error (removeElement_null hm hne)
        cases Ends.unique hends hfault
      obtain ⟨m', hends, hm'⟩ := call_ends hm hfresh hsafe
      refine ⟨hsafe, (ih hm' hf).mp fun p hp => ?_⟩
      exact (refines_cons hends).mp (hall (c :: p) (List.cons_prefix_cons.mpr ⟨rfl, hp⟩))
    · rintro ⟨hsafe, hrest⟩ p hp
      obtain ⟨m', hends, hm'⟩ := call_ends hm hfresh hsafe
      cases p with
      | nil => exact refines_nil hm
      | cons b p =>
        obtain ⟨rfl, hp'⟩ := List.cons_prefix_cons.mp hp
        exact (refines_cons hends).mpr ((ih hm' hf).mpr hrest p hp')

/-- An element is added, found and removed; then null is removed from the empty list. -/
theorem list_refines_sequence_add_remove :
    let cs : List (ListCall Nat) := [.add 1 [65], .remove (some 1), .remove none]
    ∀ p, p <+: cs → Refines p (construct none fun _ => none) [] := by
  intro cs
  have hfresh : Runs.Meets ListCall.apply ListCall.Fresh [] cs :=
    ⟨List.not_mem_nil, trivial, trivial, trivial⟩
  have hsafe : Runs.Meets ListCall.apply ListCall.Safe [] cs :=
    ⟨fun h => absurd h (by simp), fun h => absurd h (by simp), fun _ => rfl, trivial⟩
  exact (list_refines_sequence_iff (represents_construct_nil _) hfresh).mpr hsafe

/-- Null removed from a list of one element. -/
theorem remove_null_dereferences_null :
    Ends (calls [.add 1 [65], .remove none] (construct none fun _ : Nat => none)) (.error .null) ∧
      ¬ ∀ cs : List (ListCall Nat), Runs.Meets ListCall.apply ListCall.Fresh [] cs →
        ∀ p, p <+: cs → Refines p (construct none fun _ => none) [] := by
  have hfault : Ends (calls [.add 1 [65], .remove none] (construct none fun _ : Nat => none))
      (.error .null) := by
    refine ⟨2, fun fuel hf => ?_⟩
    obtain ⟨fuel, rfl⟩ := Nat.exists_eq_add_of_le hf
    rw [Nat.add_comm]
    rfl
  refine ⟨hfault, fun hall => ?_⟩
  obtain ⟨m', hends, -⟩ := hall [.add 1 [65], .remove none] ⟨List.not_mem_nil, trivial, trivial⟩ _
    (List.prefix_refl _)
  cases Ends.unique hends hfault

end ListMemory

end Calls

end Discovery

end LocalChat
