import LocalChat.Discovery.LinkedList
import LocalChat.Discovery.RoundTrip

/-!
# Browse records in memory

The list of browse records is a C list.  The callbacks of the daemon add elements to it, wherever
`malloc` puts them; `ReturnListFromBrowseResults` goes through it; and once the message is sent
`LinkedList_str_ClearList` frees it.

* `Holds m as l`: the memory has the elements `as` and no others, and they hold the records of `l`.
* `replies_ends`, `report_ends`: the callbacks and what follows them work on the memory as on the
  records.
* `messages_ends`: so over any run every loop ends, no null or freed pointer is dereferenced, no
  element is left allocated, and the messages are those of the records.
* `services_reported_iff`: with the round trip of one service, the messages name the services as the
  daemon reported them exactly if every string is shorter than its field and has no space.
-/

namespace LocalChat

open Octets HeapLists

namespace Discovery

/-- What makes a discovery component send one message, with the addresses `malloc` returns. -/
inductive BrowseCall (P : Type)
  /-- the replies of one call of `DNSServiceProcessResult` -/
  | batch (replies : List (P × BrowseReply))
  /-- Avahi's `browse_callback` -/
  | callback (a : P) (isNew : Bool) (s : DaemonService)

/-- A callback of Avahi is a batch of one reply. -/
def BrowseCall.replies {P : Type} : BrowseCall P → List (P × BrowseReply)
  | .batch replies => replies
  | .callback a isNew s => [(a, if isNew then .add s else .remove s)]

namespace ListMemory

variable {P : Type} [DecidableEq P]

/-! ### The code -/

def returnListLoop (h : Heap P Bytes) :
    Nat → Option P → Except Fault (List BVServiceBrowseInstance)
  | 0, _ => .error .fuel
  | fuel + 1, lleP =>
    if lleP = none then .ok []
    else do
      let e ← load h lleP
      let l ← returnListLoop h fuel e.next
      .ok (readElement e.data :: l)

/-- `C_ServiceBrowseReply`, with the address `malloc` returns. -/
def serviceBrowseReply (m : ListMemory P) : P × BrowseReply → Nat → Except Fault (ListMemory P)
  | (a, .add s), fuel => call (.add a (record s)) { m with didRegister := true } fuel
  | (a, .remove s), fuel => call (.add a (record s)) { m with didRegister := false } fuel
  | (_, .error), _ => .ok m

def replies : List (P × BrowseReply) → ListMemory P → Nat → Except Fault (ListMemory P)
  | [], m, _ => .ok m
  | r :: batch, m, fuel => m.serviceBrowseReply r fuel >>= fun m => replies batch m fuel

/-- `ReturnListFromBrowseResults`, the message, and `LinkedList_str_ClearList`. -/
def report (message : List BVServiceBrowseInstance → MailEvent) (m : ListMemory P) (fuel : Nat) :
    Except Fault (MailEvent × ListMemory P) :=
  returnListLoop m.heap fuel m.headP >>= fun services =>
    m.clearList fuel >>= fun m => .ok (message services, m)

def processDNSServiceBrowseResult (batch : List (P × BrowseReply)) (m : ListMemory P) (fuel : Nat) :
    Except Fault (MailEvent × ListMemory P) :=
  replies batch m fuel >>= fun m =>
    m.report (if m.didRegister then .publishedService else .deregisteredService) fuel

/-- `browse_callback`, with `OnServiceFound` or `OnServiceRemoved`. -/
def browseCallback (a : P) (isNew : Bool) (s : DaemonService) (m : ListMemory P) (fuel : Nat) :
    Except Fault (MailEvent × ListMemory P) :=
  call (.add a (record s)) m fuel >>= fun m =>
    m.report (if isNew then .publishedService else .deregisteredService) fuel

def browse (m : ListMemory P) : BrowseCall P → Nat → Except Fault (MailEvent × ListMemory P)
  | .batch replies => m.processDNSServiceBrowseResult replies
  | .callback a isNew s => m.browseCallback a isNew s

def messages : List (BrowseCall P) → ListMemory P → Nat →
    Except Fault (List MailEvent × ListMemory P)
  | [], m, _ => .ok ([], m)
  | c :: cs, m, fuel =>
    m.browse c fuel >>= fun r => messages cs r.2 fuel >>= fun rs => .ok (r.1 :: rs.1, rs.2)

/-! ### Memory that holds records -/

/-- What the elements hold. -/
def toListStr (m : ListMemory P) (as : List P) : LinkedListStr where
  elements := contents m.heap as
  didRegister := m.didRegister

/-- The memory has the elements `as` and no others, and they hold the records of `l`. -/
structure Holds (m : ListMemory P) (as : List P) (l : LinkedListStr) : Prop where
  represents : m.Represents as
  records : m.toListStr as = l
  only : ∀ x, m.heap x ≠ none → x ∈ as

/-- Where `malloc` has put the records. -/
def places (batch : List (P × BrowseReply)) : List P :=
  batch.filterMap fun r => r.2.service?.map fun _ => r.1

variable {m : ListMemory P} {as : List P} {a : P} {l : LinkedListStr}

omit [DecidableEq P] in
theorem contents_cons {h : Heap P Bytes} {c : Cell P Bytes} (hc : h a = some c) :
    contents h (a :: as) = c.data :: contents h as := by
  rw [contents, List.filterMap_cons, hc]
  rfl

omit [DecidableEq P] in
theorem returnListLoop_eq {h : Heap P Bytes} {p : Option P} (hs : Chain h p as) {fuel : Nat}
    (hf : as.length < fuel) : returnListLoop h fuel p = .ok ((contents h as).map readElement) := by
  induction as generalizing p fuel with
  | nil =>
    obtain ⟨fuel, rfl⟩ := exists_turn hf
    obtain rfl : p = none := hs
    rfl
  | cons b as ih =>
    obtain ⟨fuel, rfl⟩ := exists_turn hf
    obtain ⟨rfl, c, hc, hs⟩ := hs
    rw [returnListLoop, if_neg (by simp), load_some hc, contents_cons hc]
    show (do
      let l ← returnListLoop h fuel c.next
      .ok (readElement c.data :: l)) = _
    rw [ih hs (Nat.lt_of_succ_lt_succ hf)]
    rfl

omit [DecidableEq P] in
theorem holds_construct : (construct none fun _ : P => none).Holds [] .clear where
  represents := represents_construct_nil _
  records := rfl
  only := by
    intro x hx
    exact absurd rfl hx

omit [DecidableEq P] in
theorem Holds.setDidRegister (h : m.Holds as l) (flag : Bool) :
    Holds { m with didRegister := flag } as { l with didRegister := flag } where
  represents := ⟨h.represents.chain, h.represents.nodup⟩
  records := by
    rw [← h.records]
    rfl
  only := h.only

/-! ### The functions -/

theorem add_ends (h : m.Holds as l) (ha : a ∉ as) (buff : Bytes) :
    ∃ m', Ends (call (.add a buff) m) (.ok m') ∧
      m'.Holds (as ++ [a]) (l.addElement (elementOf buff)) := by
  have hnew : (m.constructElement a buff none).heap a = some ⟨none, elementOf buff⟩ :=
    Function.update_self _ _ _
  obtain ⟨m', hends, hm', hflag, hdata⟩ :=
    addElement_ends (h.represents.constructElement ha buff) hnew ha
  have hold : contents m'.heap as = contents m.heap as := by
    refine contents_frame fun x hx => (hdata x).trans (congrArg _ (Function.update_of_ne ?_ _ _))
    rintro rfl
    exact ha hx
  have hlast : contents m'.heap [a] = [elementOf buff] := by
    rw [contents, List.filterMap_cons, hdata a, hnew]
    rfl
  refine ⟨m', hends, hm', ?_, ?_⟩
  · rw [← h.records, toListStr, contents_append, hold, hlast, hflag]
    rfl
  · intro x hx
    by_cases hxa : x = a
    · exact List.mem_append_right _ (List.mem_singleton.mpr hxa)
    · apply List.mem_append_left
      apply h.only
      intro hnone
      have hwas : (m.constructElement a buff none).heap x = none :=
        (Function.update_of_ne hxa _ _).trans hnone
      have hdata' := hdata x
      rw [hwas, Option.map_none, Option.map_eq_none_iff] at hdata'
      exact hx hdata'

theorem serviceBrowseReply_ends (h : m.Holds as l) {r : P × BrowseReply}
    (hnew : (as ++ places [r]).Nodup) : ∃ m', Ends (m.serviceBrowseReply r) (.ok m') ∧
      m'.Holds (as ++ places [r]) (Discovery.serviceBrowseReply l r.2) := by
  obtain ⟨a, reply⟩ := r
  have hfresh : (as ++ [a]).Nodup → a ∉ as := fun hnodup hmem =>
    (List.nodup_append.mp hnodup).2.2 a hmem a List.mem_cons_self rfl
  cases reply with
  | add s => exact add_ends (h.setDidRegister true) (hfresh hnew) (record s)
  | remove s => exact add_ends (h.setDidRegister false) (hfresh hnew) (record s)
  | error =>
    refine ⟨m, .of_forall fun _ => rfl, ?_⟩
    rw [show places [(a, BrowseReply.error)] = [] from rfl, List.append_nil]
    exact h

theorem replies_ends (h : m.Holds as l) {batch : List (P × BrowseReply)}
    (hnew : (as ++ places batch).Nodup) : ∃ m', Ends (replies batch m) (.ok m') ∧
      m'.Holds (as ++ places batch)
        ((batch.map Prod.snd).foldl Discovery.serviceBrowseReply l) := by
  induction batch generalizing m as l with
  | nil =>
    refine ⟨m, .of_forall fun _ => rfl, ?_⟩
    rw [show places ([] : List (P × BrowseReply)) = [] from rfl, List.append_nil]
    exact h
  | cons r batch ih =>
    have hplaces : places (r :: batch) = places [r] ++ places batch :=
      List.filterMap_append (l := [r])
    rw [hplaces, ← List.append_assoc] at hnew ⊢
    obtain ⟨m₁, hends₁, h₁⟩ := serviceBrowseReply_ends h (List.nodup_append.mp hnew).1
    obtain ⟨m₂, hends₂, h₂⟩ := ih h₁ hnew
    exact ⟨m₂, (Ends.bind_iff hends₁).mpr hends₂, h₂⟩

theorem report_ends (h : m.Holds as l) (message : List BVServiceBrowseInstance → MailEvent) :
    ∃ m', Ends (m.report message) (.ok (message (returnListFromBrowseResults l), m')) ∧
      m'.Holds [] .clear := by
  have hread : Ends (fun fuel => returnListLoop m.heap fuel m.headP)
      (.ok (returnListFromBrowseResults l)) := by
    rw [← h.records]
    exact ⟨as.length + 1, fun _ hf => returnListLoop_eq h.represents.chain hf⟩
  obtain ⟨m', hends, hm', hflag, hfreed⟩ := clearList_ends h.represents
  refine ⟨m', ?_, hm', ?_, ?_⟩
  · refine (Ends.bind_iff hread).mpr ((Ends.bind_iff hends).mpr ?_)
    exact .of_forall fun _ => rfl
  · rw [toListStr, hflag]
    rfl
  · intro x hx
    rw [hfreed x] at hx
    split at hx
    · exact absurd rfl hx
    · next hnot => exact absurd (h.only x hx) hnot

theorem processDNSServiceBrowseResult_ends (h : m.Holds as l) {batch : List (P × BrowseReply)}
    (hnew : (as ++ places batch).Nodup) :
    ∃ m', Ends (m.processDNSServiceBrowseResult batch)
        (.ok ((Discovery.processDNSServiceBrowseResult (batch.map Prod.snd) l).1, m')) ∧
      m'.Holds [] .clear := by
  obtain ⟨m₁, hends₁, h₁⟩ := replies_ends h hnew
  obtain ⟨m₂, hends₂, h₂⟩ := report_ends h₁
    (if m₁.didRegister then .publishedService else .deregisteredService)
  refine ⟨m₂, ?_, h₂⟩
  have hflag : m₁.didRegister =
      ((batch.map Prod.snd).foldl Discovery.serviceBrowseReply l).didRegister := by
    rw [← h₁.records]
    rfl
  refine (Ends.bind_iff hends₁).mpr ?_
  rw [Discovery.processDNSServiceBrowseResult, ← hflag]
  cases hset : m₁.didRegister with
  | true =>
    rw [hset] at hends₂
    exact hends₂
  | false =>
    rw [hset] at hends₂
    exact hends₂

theorem browseCallback_ends (h : m.Holds [] .clear) (a : P) (isNew : Bool) (s : DaemonService) :
    ∃ m', Ends (m.browseCallback a isNew s)
        (.ok (messageOf [if isNew then .add s else .remove s], m')) ∧ m'.Holds [] .clear := by
  obtain ⟨m₁, hends₁, h₁⟩ := add_ends h List.not_mem_nil (record s) (a := a)
  obtain ⟨m₂, hends₂, h₂⟩ := report_ends h₁
    (if isNew then .publishedService else .deregisteredService)
  refine ⟨m₂, (Ends.bind_iff hends₁).mpr ?_, h₂⟩
  cases isNew with
  | true => exact hends₂
  | false => exact hends₂

/-! ### Whole runs -/

theorem browse_ends (h : m.Holds [] .clear) {c : BrowseCall P} (hnew : (places c.replies).Nodup) :
    ∃ m', Ends (m.browse c) (.ok (messageOf (c.replies.map Prod.snd), m')) ∧
      m'.Holds [] .clear := by
  cases c with
  | batch replies =>
    have hmessage : (Discovery.processDNSServiceBrowseResult (replies.map Prod.snd) .clear).1 =
        messageOf (replies.map Prod.snd) :=
      (List.cons_eq_cons.mp (messages_clear [replies.map Prod.snd])).1
    have hreplies : ([] ++ places replies).Nodup := hnew
    obtain ⟨m', hends, h'⟩ := processDNSServiceBrowseResult_ends h hreplies
    rw [hmessage] at hends
    exact ⟨m', hends, h'⟩
  | callback a isNew s => exact browseCallback_ends h a isNew s

/-- **The memory refines the records.**  Whatever the daemon reports and wherever `malloc` puts the
records, the calls on the C list end without a fault, the messages are those of the records, and
every element has been freed. -/
theorem messages_ends (h : m.Holds [] .clear) {cs : List (BrowseCall P)}
    (hnew : ∀ c ∈ cs, (places c.replies).Nodup) :
    ∃ m', Ends (m.messages cs) (.ok (cs.map fun c => messageOf (c.replies.map Prod.snd), m')) ∧
      m'.Holds [] .clear := by
  induction cs generalizing m with
  | nil => exact ⟨m, .of_forall fun _ => rfl, h⟩
  | cons c cs ih =>
    rw [List.forall_mem_cons] at hnew
    obtain ⟨m₁, hends₁, h₁⟩ := browse_ends h hnew.1
    obtain ⟨m₂, hends₂, h₂⟩ := ih h₁ hnew.2
    refine ⟨m₂, (Ends.bind_iff hends₁).mpr ((Ends.bind_iff hends₂).mpr ?_), h₂⟩
    exact .of_forall fun _ => rfl

/-- The message that names the services of a batch as the daemon reported them. -/
def reported (batch : List BrowseReply) : MailEvent :=
  let services := (batch.filterMap BrowseReply.service?).map DaemonService.toInstance
  if flagAfter false (batch.map BrowseReply.kind) then .publishedService services
  else .deregisteredService services

theorem messageOf_eq_reported_iff (batch : List BrowseReply) :
    messageOf batch = reported batch ↔ ∀ s ∈ batch.filterMap BrowseReply.service?, s.Fits := by
  have hinstances : instances batch =
      (batch.filterMap BrowseReply.service?).map DaemonService.toInstance ↔
        ∀ s ∈ batch.filterMap BrowseReply.service?, s.Fits := by
    rw [instances, List.map_inj_left]
    simp only [decodes_iff]
  rw [← hinstances, messageOf, reported]
  split
  · exact ⟨MailEvent.publishedService.inj, congrArg _⟩
  · exact ⟨MailEvent.deregisteredService.inj, congrArg _⟩

end ListMemory

end Discovery

end LocalChat
