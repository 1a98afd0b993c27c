import LocalChat.Client.Services
import LocalChat.Discovery.Record

/-!
# Batches of browse replies

One call of `DNSServiceProcessResult` may run `C_ServiceBrowseReply` several times.  The callback
puts each service into one list, and whether it was added or removed into a flag of that list; then
`ProcessDNSServiceBrowseResult` sends the whole list under the event the flag stands for.

`batches_mean_singles_iff`: the app ends up with the services it would have after replies that come
one by one if no batch has both an added and a removed service.  For every other shape of batches
there are services for which it does not, since a removed service is published or an added one is
deregistered.

The daemon reports no error from `DNSServiceProcessResult` itself here.
-/

namespace LocalChat

open Octets

namespace Discovery

/-! ### The callback -/

/-- A call of `C_ServiceBrowseReply`; an error is printed and nothing else. -/
inductive BrowseReply
  | add (s : DaemonService)
  | remove (s : DaemonService)
  | error

inductive ReplyKind
  | add
  | remove
  | error
  deriving DecidableEq, Repr

def serviceBrowseReply (l : LinkedListStr) : BrowseReply → LinkedListStr
  | .add s => { l with didRegister := true }.addElement (elementOf (record s))
  | .remove s => { l with didRegister := false }.addElement (elementOf (record s))
  | .error => l

/-- `ProcessDNSServiceBrowseResult`, with the replies of the one call of `DNSServiceProcessResult`:
the message to the app and the list that is left. -/
def processDNSServiceBrowseResult (batch : List BrowseReply) (l : LinkedListStr) :
    MailEvent × LinkedListStr :=
  let l := batch.foldl serviceBrowseReply l
  let services := returnListFromBrowseResults l
  (if l.didRegister then .publishedService services else .deregisteredService services, .clear)

def messages : LinkedListStr → List (List BrowseReply) → List MailEvent
  | _, [] => []
  | l, batch :: batches =>
    let (m, l) := processDNSServiceBrowseResult batch l
    m :: messages l batches

namespace BrowseReply

def kind : BrowseReply → ReplyKind
  | .add _ => .add
  | .remove _ => .remove
  | .error => .error

def service? : BrowseReply → Option DaemonService
  | .add s => some s
  | .remove s => some s
  | .error => none

end BrowseReply

/-! ### The message of a batch -/

def instances (batch : List BrowseReply) : List BVServiceBrowseInstance :=
  (batch.filterMap BrowseReply.service?).map browsed

/-- The flag after replies of these kinds: the last one that is not an error sets it. -/
def flagAfter (flag : Bool) (kinds : List ReplyKind) : Bool :=
  kinds.foldl (fun flag k => match k with
    | .add => true
    | .remove => false
    | .error => flag) flag

def messageOf (batch : List BrowseReply) : MailEvent :=
  if flagAfter false (batch.map BrowseReply.kind) then .publishedService (instances batch)
  else .deregisteredService (instances batch)

theorem foldl_serviceBrowseReply (batch : List BrowseReply) (l : LinkedListStr) :
    returnListFromBrowseResults (batch.foldl serviceBrowseReply l) =
        returnListFromBrowseResults l ++ instances batch ∧
      (batch.foldl serviceBrowseReply l).didRegister =
        flagAfter l.didRegister (batch.map BrowseReply.kind) := by
  induction batch generalizing l with
  | nil => exact ⟨by simp [instances], rfl⟩
  | cons r batch ih =>
    obtain ⟨hlist, hflag⟩ := ih (serviceBrowseReply l r)
    rw [List.foldl_cons]
    refine ⟨hlist.trans ?_, hflag.trans ?_⟩
    · cases r with
      | error => rfl
      | _ => simp [serviceBrowseReply, LinkedListStr.addElement, returnListFromBrowseResults,
          instances, BrowseReply.service?, browsed]
    · cases r <;> rfl

theorem messages_clear (batches : List (List BrowseReply)) :
    messages .clear batches = batches.map messageOf := by
  induction batches with
  | nil => rfl
  | cons batch batches ih =>
    obtain ⟨hlist, hflag⟩ := foldl_serviceBrowseReply batch .clear
    have hmessage : (processDNSServiceBrowseResult batch .clear).1 = messageOf batch := by
      simp only [processDNSServiceBrowseResult, hlist, hflag]
      rfl
    rw [List.map_cons, ← hmessage, ← ih]
    rfl

/-! ### Batches of one kind -/

theorem instances_append (a b : List BrowseReply) :
    instances (a ++ b) = instances a ++ instances b := by
  rw [instances, List.filterMap_append, List.map_append]
  rfl

theorem flagAfter_of_no_add {kinds : List ReplyKind} (h : .add ∉ kinds) :
    flagAfter false kinds = false := by
  induction kinds with
  | nil => rfl
  | cons k kinds ih =>
    rw [List.mem_cons, not_or] at h
    cases k with
    | add => exact absurd rfl h.1
    | remove => exact ih h.2
    | error => exact ih h.2

theorem flagAfter_of_no_remove {kinds : List ReplyKind} (h : .remove ∉ kinds) (flag : Bool) :
    flagAfter flag kinds = (flag || decide (.add ∈ kinds)) := by
  induction kinds generalizing flag with
  | nil => simp [flagAfter]
  | cons k kinds ih =>
    rw [List.mem_cons, not_or] at h
    cases k with
    | add => exact (ih h.2 true).trans (by simp)
    | remove => exact absurd rfl h.1
    | error => exact (ih h.2 flag).trans (by simp)

def single (r : BrowseReply) : MailEvent := messageOf [r]

variable {c : Client}

/-- Without a removed service, one message publishes what the single ones publish. -/
theorem run_singles_of_no_remove {batch : List BrowseReply}
    (h : .remove ∉ batch.map BrowseReply.kind) :
    Runs.run Client.step c (batch.map single) = (instances batch).foldl Client.publish c := by
  induction batch generalizing c with
  | nil => rfl
  | cons r batch ih =>
    rw [List.map_cons, List.mem_cons, not_or] at h
    rw [List.map_cons, Runs.run_cons, ih h.2, ← List.singleton_append, instances_append,
      List.foldl_append]
    cases r with
    | add s => rfl
    | remove s => exact absurd rfl h.1
    | error => rfl

theorem run_singles_of_no_add {batch : List BrowseReply}
    (h : .add ∉ batch.map BrowseReply.kind) :
    Runs.run Client.step c (batch.map single) = (instances batch).foldl Client.deregister c := by
  induction batch generalizing c with
  | nil => rfl
  | cons r batch ih =>
    rw [List.map_cons, List.mem_cons, not_or] at h
    rw [List.map_cons, Runs.run_cons, ih h.2, ← List.singleton_append, instances_append,
      List.foldl_append]
    cases r with
    | add s => exact absurd rfl h.1
    | remove s => rfl
    | error => rfl

def Mixed (kinds : List ReplyKind) : Prop := .add ∈ kinds ∧ .remove ∈ kinds

instance : DecidablePred Mixed := fun kinds =>
  inferInstanceAs (Decidable (.add ∈ kinds ∧ .remove ∈ kinds))

theorem step_batch {batch : List BrowseReply} (h : ¬ Mixed (batch.map BrowseReply.kind)) :
    c.step (messageOf batch) = Runs.run Client.step c (batch.map single) := by
  by_cases hadd : .add ∈ batch.map BrowseReply.kind
  · have hremove : .remove ∉ batch.map BrowseReply.kind := fun hr => h ⟨hadd, hr⟩
    rw [run_singles_of_no_remove hremove, messageOf, flagAfter_of_no_remove hremove,
      decide_eq_true hadd, Bool.or_true, if_pos rfl]
    rfl
  · rw [run_singles_of_no_add hadd, messageOf, flagAfter_of_no_add hadd, if_neg Bool.false_ne_true]
    rfl

theorem run_batches {batches : List (List BrowseReply)}
    (h : ∀ b ∈ batches, ¬ Mixed (b.map BrowseReply.kind)) :
    Runs.run Client.step c (batches.map messageOf) =
      Runs.run Client.step c (batches.flatten.map single) := by
  induction batches generalizing c with
  | nil => rfl
  | cons b batches ih =>
    rw [List.forall_mem_cons] at h
    rw [List.map_cons, Runs.run_cons, step_batch h.1, ih h.2, List.flatten_cons, List.map_append,
      Runs.run_append]

/-! ### Mixed batches -/

def publishing (batch : List BrowseReply) : Bool := flagAfter false (batch.map BrowseReply.kind)

theorem messageOf_publishes_iff {batch : List BrowseReply} {x : BVServiceBrowseInstance} :
    (messageOf batch).Publishes x ↔ publishing batch = true ∧ x ∈ instances batch := by
  rw [messageOf, publishing]
  split <;> simp_all [MailEvent.Publishes]

theorem messageOf_deregisters_iff {batch : List BrowseReply} {n : Bytes} :
    (messageOf batch).Deregisters n ↔
      publishing batch = false ∧ ∃ y ∈ instances batch, y.serviceName = n := by
  rw [messageOf, publishing]
  split <;> simp_all [MailEvent.Deregisters]

section Client

variable {hostname rootdir : Bytes} {files : Files} {batches : List (List BrowseReply)}
  {batch : List BrowseReply} {x : BVServiceBrowseInstance}

theorem mem_of_published (hother : x.serviceName ≠ hostname) (hmem : batch ∈ batches)
    (hpub : publishing batch = true) (hx : x ∈ instances batch)
    (hkept : ∀ b ∈ batches, publishing b = false → ∀ y ∈ instances b,
      y.serviceName ≠ x.serviceName) :
    x ∈ (Runs.run Client.step (.start hostname rootdir files)
      (batches.map messageOf)).serviceV := by
  refine ((Client.lists_run hostname rootdir files _).mem x hother).mpr ?_
  refine History.since_of_mem (List.mem_map_of_mem hmem)
    (messageOf_publishes_iff.mpr ⟨hpub, hx⟩) fun e he => ?_
  obtain ⟨b, hb, rfl⟩ := List.mem_map.mp he
  rw [messageOf_deregisters_iff]
  rintro ⟨hder, y, hy, hname⟩
  exact hkept b hb hder y hy hname

theorem notMem_of_unpublished (hother : x.serviceName ≠ hostname)
    (hnever : ∀ b ∈ batches, publishing b = true → x ∉ instances b) :
    x ∉ (Runs.run Client.step (.start hostname rootdir files)
      (batches.map messageOf)).serviceV := by
  rw [(Client.lists_run hostname rootdir files _).mem x hother]
  intro hsince
  obtain ⟨e, he, hpub⟩ := History.exists_mem_of_since hsince
  obtain ⟨b, hb, rfl⟩ := List.mem_map.mp he
  obtain ⟨hpub, hx⟩ := messageOf_publishes_iff.mp hpub
  exact hnever b hb hpub hx

end Client

/-- A reply of the given kind about the service `s`. -/
def ReplyKind.reply (s : DaemonService) : ReplyKind → BrowseReply
  | .add => .add s
  | .remove => .remove s
  | .error => .error

@[simp] theorem ReplyKind.kind_reply (s : DaemonService) (k : ReplyKind) :
    (k.reply s).kind = k := by
  cases k <;> rfl

theorem eq_of_mem_instances_reply {kinds : List ReplyKind} {s : DaemonService}
    {x : BVServiceBrowseInstance} (h : x ∈ instances (kinds.map (·.reply s))) : x = browsed s := by
  simp only [instances, List.mem_map, List.mem_filterMap] at h
  obtain ⟨t, ⟨r, ⟨k, -, rfl⟩, ht⟩, rfl⟩ := h
  cases k <;> cases ht <;> rfl

/-- If only one batch is about a service, the service is listed exactly if that batch publishes. -/
theorem mem_iff_publishing {hostname : Bytes} (rootdir : Bytes) (files : Files)
    {batches : List (List BrowseReply)} {batch : List BrowseReply} {r w : DaemonService}
    (hother : (browsed r).serviceName ≠ hostname)
    (hne : (browsed w).serviceName ≠ (browsed r).serviceName) (hmem : batch ∈ batches)
    (hr : browsed r ∈ instances batch)
    (hall : ∀ b ∈ batches, b = batch ∨ ∃ kinds : List ReplyKind, b = kinds.map (·.reply w)) :
    browsed r ∈ (Runs.run Client.step (.start hostname rootdir files)
        (batches.map messageOf)).serviceV ↔ publishing batch = true := by
  have hname : ∀ b ∈ batches, ∀ y ∈ instances b, y.serviceName = (browsed r).serviceName →
      b = batch := by
    intro b hb y hy heq
    rcases hall b hb with rfl | ⟨kinds, rfl⟩
    · rfl
    · rw [eq_of_mem_instances_reply hy] at heq
      exact absurd heq hne
  constructor
  · contrapose
    intro hder
    refine notMem_of_unpublished hother fun b hb hpub hx => hder ?_
    rw [← hname b hb _ hx rfl, hpub]
  · intro hpub
    refine mem_of_published hother hmem hpub hr fun b hb hder y hy heq => ?_
    rw [hname b hb y hy heq, hpub] at hder
    cases hder

/-- The batches of a given shape, all about `w` but for one reply of the kind `k`, about `r`. -/
def oddOne (w r : DaemonService) (pre post : List (List ReplyKind)) (a b : List ReplyKind)
    (k : ReplyKind) : List (List BrowseReply) :=
  pre.map (·.map (·.reply w)) ++
    (a.map (·.reply w) ++ k.reply r :: b.map (·.reply w)) :: post.map (·.map (·.reply w))

section OddOne

variable {w r : DaemonService} {pre post : List (List ReplyKind)} {a b : List ReplyKind}
  {k : ReplyKind}

theorem kinds_oddOne : (oddOne w r pre post a b k).map (·.map BrowseReply.kind) =
    pre ++ (a ++ k :: b) :: post := by
  have hkinds : ∀ kinds : List ReplyKind,
      (kinds.map (·.reply w)).map BrowseReply.kind = kinds := by simp [Function.comp_def]
  have hshape : ∀ shape : List (List ReplyKind),
      (shape.map (·.map (·.reply w))).map (·.map BrowseReply.kind) = shape := by
    simp [Function.comp_def]
  rw [oddOne, List.map_append, List.map_cons, hshape, hshape, List.map_append, List.map_cons,
    hkinds, hkinds, ReplyKind.kind_reply]

theorem mem_oddOne {batch : List BrowseReply} (h : batch ∈ oddOne w r pre post a b k) :
    batch = a.map (·.reply w) ++ k.reply r :: b.map (·.reply w) ∨
      ∃ kinds : List ReplyKind, batch = kinds.map (·.reply w) := by
  rcases List.mem_append.mp h with h | h
  · obtain ⟨kinds, -, rfl⟩ := List.mem_map.mp h
    exact .inr ⟨kinds, rfl⟩
  · rcases List.mem_cons.mp h with rfl | h
    · exact .inl rfl
    · obtain ⟨kinds, -, rfl⟩ := List.mem_map.mp h
      exact .inr ⟨kinds, rfl⟩

theorem mem_flatten_oddOne {reply : BrowseReply} (h : reply ∈ (oddOne w r pre post a b k).flatten) :
    reply = k.reply r ∨ ∃ k' : ReplyKind, reply = k'.reply w := by
  obtain ⟨batch, hbatch, hreply⟩ := List.mem_flatten.mp h
  have hfill : ∀ kinds : List ReplyKind, reply ∈ kinds.map (·.reply w) →
      ∃ k' : ReplyKind, reply = k'.reply w := by
    intro kinds hmem
    obtain ⟨k', -, rfl⟩ := List.mem_map.mp hmem
    exact ⟨k', rfl⟩
  rcases mem_oddOne hbatch with rfl | ⟨kinds, rfl⟩
  · rcases List.mem_append.mp hreply with hmem | hmem
    · exact .inr (hfill a hmem)
    · rcases List.mem_cons.mp hmem with rfl | hmem
      · exact .inl rfl
      · exact .inr (hfill b hmem)
  · exact .inr (hfill kinds hreply)

/-- In the batches the odd service is listed according to the flag of its batch; one by one,
according to its own reply. -/
theorem oddOne_differs {hostname rootdir : Bytes} {files : Files} (hk : k ≠ .error)
    (hother : (browsed r).serviceName ≠ hostname)
    (hne : (browsed w).serviceName ≠ (browsed r).serviceName)
    (hflag : flagAfter false (a ++ k :: b) ≠ decide (k = .add)) :
    (Runs.run Client.step (.start hostname rootdir files)
        ((oddOne w r pre post a b k).map messageOf)).serviceV ≠
      (Runs.run Client.step (.start hostname rootdir files)
        (((oddOne w r pre post a b k).flatten.map fun r => [r]).map messageOf)).serviceV := by
  have hodd : a.map (·.reply w) ++ k.reply r :: b.map (·.reply w) ∈ oddOne w r pre post a b k :=
    List.mem_append_right _ List.mem_cons_self
  have hkinds : (a.map (·.reply w) ++ k.reply r :: b.map (·.reply w)).map BrowseReply.kind =
      a ++ k :: b := by simp [Function.comp_def]
  have hsingle : browsed r ∈ instances [k.reply r] := by
    cases k with
    | error => exact absurd rfl hk
    | _ => exact List.mem_singleton_self _
  have hin : browsed r ∈ instances (a.map (·.reply w) ++ k.reply r :: b.map (·.reply w)) := by
    rw [instances_append, ← List.singleton_append, instances_append]
    exact List.mem_append_right _ (List.mem_append_left _ hsingle)
  have hbatched := mem_iff_publishing rootdir files hother hne hodd hin
    fun batch hbatch => mem_oddOne hbatch
  have hone : [k.reply r] ∈ (oddOne w r pre post a b k).flatten.map fun r => [r] := by
    refine List.mem_map_of_mem (List.mem_flatten.mpr ⟨_, hodd, ?_⟩)
    exact List.mem_append_right _ List.mem_cons_self
  have hsingles := mem_iff_publishing rootdir files hother hne hone hsingle
    fun batch hbatch => by
      obtain ⟨reply, hreply, rfl⟩ := List.mem_map.mp hbatch
      rcases mem_flatten_oddOne hreply with rfl | ⟨k', rfl⟩
      · exact .inl rfl
      · exact .inr ⟨[k'], rfl⟩
  have hown : publishing [k.reply r] = decide (k = .add) := by cases k <;> rfl
  rw [publishing, hkinds] at hbatched
  rw [hown] at hsingles
  intro heq
  rw [heq] at hbatched
  exact hflag (Bool.eq_iff_iff.mpr (hbatched.symm.trans hsingles))

end OddOne

def serviceNamed (name : Bytes) (h : 0 ∉ name) : DaemonService :=
  ⟨name, [], [], h, List.not_mem_nil, List.not_mem_nil⟩

theorem exists_other (hostname : Bytes) : ∃ w r : DaemonService, Survives w.serviceName ∧
    Survives r.serviceName ∧ (browsed r).serviceName ≠ hostname ∧
      (browsed w).serviceName ≠ (browsed r).serviceName := by
  by_cases h : hostname = [98]
  · subst h
    exact ⟨serviceNamed [97] (by decide), serviceNamed [99] (by decide), by decide⟩
  · refine ⟨serviceNamed [97] (by decide), serviceNamed [98] (by decide), by decide, by decide, ?_,
      by decide⟩
    rw [browsed_of_survives (by decide)]
    exact fun heq => h heq.symm

/-- Every reply is about a service whose name survives the codec. -/
def AllSurvive (batches : List (List BrowseReply)) : Prop :=
  ∀ b ∈ batches, ∀ r ∈ b, ∀ s ∈ r.service?, Survives s.serviceName

instance : DecidablePred AllSurvive := fun batches =>
  inferInstanceAs (Decidable (∀ b ∈ batches, ∀ r ∈ b, ∀ s ∈ r.service?, Survives s.serviceName))

theorem allSurvive_oddOne {w r : DaemonService} {pre post : List (List ReplyKind)}
    {a b : List ReplyKind} {k : ReplyKind} (hw : Survives w.serviceName)
    (hr : Survives r.serviceName) : AllSurvive (oddOne w r pre post a b k) := by
  have hreply : ∀ {t s : DaemonService} {k : ReplyKind}, (k.reply t).service? = some s → s = t := by
    intro t s k h
    cases k <;> cases h <;> rfl
  intro batch hbatch reply hmem s hs
  rcases mem_flatten_oddOne (List.mem_flatten.mpr ⟨batch, hbatch, hmem⟩) with rfl | ⟨k', rfl⟩
  · rw [hreply hs]
    exact hr
  · rw [hreply hs]
    exact hw

/-- **Batches and single replies.**  For replies of a given shape, the app lists after the batches
what it lists after the single replies, whatever the services are, exactly if no batch has both an
added and a removed service. -/
theorem batches_mean_singles_iff (hostname rootdir : Bytes) (files : Files)
    (shape : List (List ReplyKind)) :
    (∀ batches : List (List BrowseReply), batches.map (·.map BrowseReply.kind) = shape →
        AllSurvive batches →
        (Runs.run Client.step (.start hostname rootdir files) (messages .clear batches)).serviceV =
          (Runs.run Client.step (.start hostname rootdir files)
            (messages .clear (batches.flatten.map fun r => [r]))).serviceV) ↔
      ∀ kinds ∈ shape, ¬ Mixed kinds := by
  simp only [messages_clear]
  constructor
  · intro hall kinds hmem hmixed
    obtain ⟨pre, post, rfl⟩ := List.append_of_mem hmem
    obtain ⟨w, r, hw, hr, hother, hne⟩ := exists_other hostname
    -- the reply that goes against the flag of its batch
    obtain ⟨k, hk, hkerror, hflag⟩ : ∃ k ∈ kinds, k ≠ .error ∧
        flagAfter false kinds ≠ decide (k = .add) := by
      cases hflag : flagAfter false kinds with
      | true => exact ⟨.remove, hmixed.2, by decide⟩
      | false => exact ⟨.add, hmixed.1, by decide⟩
    obtain ⟨a, b, rfl⟩ := List.append_of_mem hk
    exact oddOne_differs hkerror hother hne hflag
      (hall (oddOne w r pre post a b k) kinds_oddOne (allSurvive_oddOne hw hr))
  · rintro hpure batches rfl -
    rw [run_batches fun b hb => hpure _ (List.mem_map_of_mem hb), List.map_map]
    rfl

/-- A host `"a"` is found; then, in one batch, `"b"` is found and `"a"` has gone.  The list of the
app is left without `"b"`. -/
theorem mixed_batch_loses_service : ∃ batches : List (List BrowseReply), AllSurvive batches ∧
    (Runs.run Client.step (.start [104] [] fun _ => none) (messages .clear batches)).serviceV ≠
      (Runs.run Client.step (.start [104] [] fun _ => none)
        (messages .clear (batches.flatten.map fun r => [r]))).serviceV := by
  let a := serviceNamed [97] (by decide)
  let b := serviceNamed [98] (by decide)
  exact ⟨[[.add a], [.add b, .remove a]], by decide, by decide⟩

end Discovery

end LocalChat
