import LocalChat.Broker.Basic
import Mathlib.Data.List.Nodup

/-!
# Ids

`CycleCurrentSubscriberId` looks at all 256 ids, starting behind the current one: `cycle_cases` says
that it stops at a free one, or that there is none.  From this `attach_cases` says all `Attach` can
do, whatever the eight-bit counter of subscribers says: a component enters at a free id, or there is
none and nothing has changed.

`ids_allocated` carries this over whole histories.
-/

namespace LocalChat

namespace BVBroker

variable {b : BVBroker}

/-! ### Slots -/

/-- `b'` differs from `b` in its counters at most, and in what is a key of `mailbox_m`. -/
structure SameTables (b b' : BVBroker) : Prop where
  slot : ∀ sid, b'.getOutMailBoxAtSubId sid = b.getOutMailBoxAtSubId sid
  subs : b'.subs = b.subs

theorem SameTables.trans {b' b'' : BVBroker} (h : SameTables b b') (h' : SameTables b' b'') :
    SameTables b b'' :=
  ⟨fun sid => (h'.slot sid).trans (h.slot sid), h'.subs.trans h.subs⟩

theorem getOutMailBoxAtSubId_update (b : BVBroker) (sid j : SubscriberID) (q : Option QueueRef) :
    { b with mailbox := Function.update b.mailbox sid (some q) }.getOutMailBoxAtSubId j =
      if j = sid then q else b.getOutMailBoxAtSubId j := by
  by_cases h : j = sid
  · subst h
    simp [getOutMailBoxAtSubId]
  · simp [getOutMailBoxAtSubId, h]

theorem sameTables_touch (b : BVBroker) (sid : SubscriberID) : SameTables b (b.touch sid) := by
  refine ⟨fun j => ?_, rfl⟩
  rw [touch, getOutMailBoxAtSubId_update]
  split
  · subst_vars
    rfl
  · rfl

/-! ### The scan -/

theorem exists_nextId (start sid : SubscriberID) : ∃ i ∈ List.range 256, nextId start i = sid := by
  have hs := start.toNat_lt
  have hsid := sid.toNat_lt
  refine ⟨(sid.toNat + 255 - start.toNat) % 256, List.mem_range.mpr (Nat.mod_lt _ (by decide)), ?_⟩
  have hmod : (start.toNat + 1 + (sid.toNat + 255 - start.toNat) % 256) % 256 = sid.toNat := by
    omega
  rw [nextId, hmod, UInt8.ofNat_toNat]

/-- What a scan can do: it stops at a free id, or it has met none. -/
theorem cycle_cases (start : SubscriberID) (rounds : List Nat) (b : BVBroker) :
    ∃ found b', b.cycle start rounds = (found, b') ∧ SameTables b b' ∧
      b'.inMailBox = b.inMailBox ∧ b'.fresh = b.fresh ∧
      if found then b.getOutMailBoxAtSubId b'.currentSubscriberId = none
      else ∀ i ∈ rounds, b.getOutMailBoxAtSubId (nextId start i) ≠ none := by
  induction rounds generalizing b with
  | nil => exact ⟨false, b, rfl, ⟨fun _ => rfl, rfl⟩, rfl, rfl, by simp⟩
  | cons i rounds ih =>
    have htouch :=
      sameTables_touch { b with currentSubscriberId := nextId start i } (nextId start i)
    by_cases hfree : b.getOutMailBoxAtSubId (nextId start i) = none
    · refine ⟨true, _, ?_, ⟨htouch.slot, htouch.subs⟩, rfl, rfl, hfree⟩
      rw [cycle, if_pos ((htouch.slot _).trans hfree)]
    · obtain ⟨found, b', hcycle, hsame, hin, hfresh, hfound⟩ :=
        ih ({ b with currentSubscriberId := nextId start i }.touch (nextId start i))
      refine ⟨found, b', ?_, SameTables.trans ⟨htouch.slot, htouch.subs⟩ hsame, hin, hfresh, ?_⟩
      · rw [cycle, if_neg (fun h => hfree ((htouch.slot _).symm.trans h)), hcycle]
      · cases found with
        | true => exact (htouch.slot _).symm.trans hfound
        | false =>
          intro j hj
          rcases List.mem_cons.mp hj with rfl | hj
          · exact hfree
          · exact fun h => hfound j hj ((htouch.slot _).trans h)

theorem cycleCurrentSubscriberId_cases (b : BVBroker) :
    ∃ found b', b.cycleCurrentSubscriberId = (found, b') ∧ SameTables b b' ∧
      b'.inMailBox = b.inMailBox ∧ b'.fresh = b.fresh ∧
      if found then b.getOutMailBoxAtSubId b'.currentSubscriberId = none
      else ∀ sid, b.getOutMailBoxAtSubId sid ≠ none := by
  obtain ⟨found, b', hcycle, hsame, hin, hfresh, hfound⟩ :=
    cycle_cases b.currentSubscriberId (List.range 256) b
  refine ⟨found, b', hcycle, hsame, hin, hfresh, ?_⟩
  cases found with
  | true => exact hfound
  | false =>
    intro sid
    obtain ⟨i, hi, rfl⟩ := exists_nextId b.currentSubscriberId sid
    exact hfound i hi

/-! ### Attach -/

/-- The component has entered at a free id, with a new mailbox, and everything else is as before. -/
structure Entered (b : BVBroker) (component : BVComponent) (b' : BVBroker) : Prop where
  free : b.getOutMailBoxAtSubId component.id = none
  outMailBox : component.outMailBox = b.inMailBox
  inMailBox : component.inMailBox = b.fresh
  slot : ∀ sid, b'.getOutMailBoxAtSubId sid =
    if sid = component.id then some component.inMailBox else b.getOutMailBoxAtSubId sid
  subs : b'.subs = b.subs

theorem enter_entered (component : BVComponent)
    (h : b.getOutMailBoxAtSubId b.currentSubscriberId = none) :
    (b.enter component).1 = .ok ∧
      Entered b (b.enter component).2.1 (b.enter component).2.2 := by
  obtain ⟨found, b', hcycle, hsame, -, -, -⟩ := cycleCurrentSubscriberId_cases { b with
    mailbox := Function.update b.mailbox b.currentSubscriberId (some (some b.fresh))
    fresh := b.fresh + 1
    numOfSubscribersRegistered := b.numOfSubscribersRegistered + 1 }
  refine ⟨rfl, h, rfl, rfl, fun sid => ?_, ?_⟩
  · simp only [enter, hcycle]
    exact (hsame.slot sid).trans (getOutMailBoxAtSubId_update b b.currentSubscriberId sid _)
  · simp only [enter, hcycle]
    exact hsame.subs

/-- All `Attach` can do: the component enters at a free id, or no id is free and the call is refused
with everything as it was. -/
theorem attach_cases (component : BVComponent) (b : BVBroker) :
    ((b.attach component).1 = .ok ∧
        Entered b (b.attach component).2.1 (b.attach component).2.2) ∨
      ((b.attach component).1 = .maxComponents ∧ (b.attach component).2.1 = component ∧
        SameTables b (b.attach component).2.2 ∧ ∀ sid, b.getOutMailBoxAtSubId sid ≠ none) := by
  -- the eight-bit counter never reaches 256
  have hcount : ¬ 256 ≤ b.numOfSubscribersRegistered.toNat := by
    have := b.numOfSubscribersRegistered.toNat_lt
    omega
  by_cases hcur : b.getOutMailBoxAtSubId b.currentSubscriberId = none
  · rw [attach, if_neg hcount, if_neg (not_not.mpr hcur)]
    exact .inl (enter_entered component hcur)
  · rw [attach, if_neg hcount, if_pos hcur]
    obtain ⟨found, b', hcycle, hsame, hin, hfresh, hfound⟩ := cycleCurrentSubscriberId_cases b
    rw [hcycle]
    cases found with
    | false => exact .inr ⟨rfl, rfl, hsame, hfound⟩
    | true =>
      obtain ⟨hok, h⟩ := enter_entered component ((hsame.slot _).trans hfound)
      refine .inl ⟨hok, (hsame.slot _).symm.trans h.free, h.outMailBox.trans hin,
        h.inMailBox.trans hfresh, fun sid => ?_, h.subs.trans hsame.subs⟩
      rw [h.slot, hsame.slot]

/-! ### Counting -/

def attachedCount (b : BVBroker) : Nat :=
  (List.range 256).countP fun i => (b.getOutMailBoxAtSubId (UInt8.ofNat i)).isSome

theorem attachedCount_lt_iff (b : BVBroker) :
    b.attachedCount < 256 ↔ ∃ sid, b.getOutMailBoxAtSubId sid = none := by
  have hlen : (List.range 256).length = 256 := List.length_range
  have hle : b.attachedCount ≤ 256 := hlen ▸ List.countP_le_length
  have hall : b.attachedCount = 256 ↔ ∀ sid, b.getOutMailBoxAtSubId sid ≠ none := by
    have hcount := List.countP_eq_length (l := List.range 256)
      (p := fun i => (b.getOutMailBoxAtSubId (UInt8.ofNat i)).isSome)
    rw [hlen] at hcount
    rw [attachedCount, hcount]
    constructor
    · intro h sid
      have hsome := h sid.toNat (List.mem_range.mpr sid.toNat_lt)
      rw [UInt8.ofNat_toNat] at hsome
      exact Option.isSome_iff_ne_none.mp hsome
    · intro h i _
      exact Option.isSome_iff_ne_none.mpr (h _)
  constructor
  · intro hlt
    by_contra hno
    exact absurd (hall.mpr fun sid h => hno ⟨sid, h⟩) (by omega)
  · rintro ⟨sid, hsid⟩
    refine lt_of_le_of_ne hle fun h => ?_
    exact hall.mp h sid hsid

theorem attach_ok_iff (component : BVComponent) (b : BVBroker) :
    (b.attach component).1 = .ok ↔ b.attachedCount < 256 := by
  rw [attachedCount_lt_iff]
  rcases attach_cases component b with ⟨hok, h⟩ | ⟨hmax, -, -, hfull⟩
  · exact iff_of_true hok ⟨_, h.free⟩
  · refine iff_of_false (by rw [hmax]; decide) ?_
    rintro ⟨sid, hsid⟩
    exact hfull sid hsid

/-! ### Detach -/

theorem detach_ok_iff (sid : SubscriberID) (b : BVBroker) :
    (b.detach sid).1 = .ok ↔ b.getOutMailBoxAtSubId sid ≠ none := by
  by_cases h : b.getOutMailBoxAtSubId sid = none
  · simp [detach, h]
  · simp [detach, h]

theorem detach_slot {sid : SubscriberID} (h : b.getOutMailBoxAtSubId sid ≠ none)
    (j : SubscriberID) :
    (b.detach sid).2.getOutMailBoxAtSubId j =
      if j = sid then none else b.getOutMailBoxAtSubId j := by
  rw [detach, if_neg h]
  exact getOutMailBoxAtSubId_update b sid j none

theorem foldl_slot {f : BVBroker → BVEventType → BVBroker}
    (hf : ∀ b e, (f b e).mailbox = b.mailbox) (events : List BVEventType) (b : BVBroker) :
    (events.foldl f b).mailbox = b.mailbox := by
  induction events generalizing b with
  | nil => rfl
  | cons e events ih => exact (ih (f b e)).trans (hf b e)

@[simp] theorem addSubscription_mailbox (sid : SubscriberID) (b : BVBroker) (e : BVEventType) :
    (b.addSubscription sid e).mailbox = b.mailbox := rfl

@[simp] theorem removeSubscription_mailbox (sid : SubscriberID) (b : BVBroker) (e : BVEventType) :
    (b.removeSubscription sid e).mailbox = b.mailbox := by
  rw [removeSubscription]
  split <;> rfl

end BVBroker

/-! ### Histories -/

namespace Registry

def hold (sids : List SubscriberID) : Entry → List SubscriberID
  | .attached sid => sids ++ [sid]
  | .detached sid => sids.erase sid
  | _ => sids

def holders (history : List Entry) : List SubscriberID := history.foldl hold []

theorem holders_concat (history : List Entry) (e : Entry) :
    holders (history ++ [e]) = hold (holders history) e := by
  simp [holders]

theorem holders_append_of_ids {history entries : List Entry} (h : ∀ sids, ∀ e ∈ entries,
    hold sids e = sids) : holders (history ++ entries) = holders history := by
  induction entries generalizing history with
  | nil => rw [List.append_nil]
  | cons e entries ih =>
    have hentries : ∀ sids, ∀ f ∈ entries, hold sids f = sids :=
      fun sids f hf => h sids f (List.mem_cons_of_mem _ hf)
    rw [List.append_cons, ih hentries, holders_concat, h _ e List.mem_cons_self]

/-- The attached ids are those with a mailbox, and no two components have the same. -/
structure Held (r : Registry) : Prop where
  nodup : (holders r.history).Nodup
  mem : ∀ sid, sid ∈ holders r.history ↔ r.broker.getOutMailBoxAtSubId sid ≠ none

theorem Held.of_same {r r' : Registry} (h : r.Held)
    (hslot : ∀ sid, r'.broker.getOutMailBoxAtSubId sid = r.broker.getOutMailBoxAtSubId sid)
    (hholders : holders r'.history = holders r.history) : r'.Held := by
  refine ⟨hholders ▸ h.nodup, fun sid => ?_⟩
  rw [hholders, h.mem, hslot]

theorem holders_record (r : Registry) (result : BVStatus × BVBroker) {entries : List Entry}
    (h : ∀ sids, ∀ e ∈ entries, hold sids e = sids) :
    holders (r.record result entries).history = holders r.history := by
  by_cases hok : result.1 = .ok
  · rw [record_history_of_ok r hok, holders_append_of_ids h]
  · rw [record_history_of_ne r hok]

theorem held_attach {r : Registry} (h : r.Held) (component : BVComponent) :
    (r.step (.attach component)).Held := by
  rcases BVBroker.attach_cases component r.broker with ⟨hok, hent⟩ | ⟨hmax, -, hsame, -⟩
  · have hholders : holders (r.step (.attach component)).history =
        holders r.history ++ [(r.broker.attach component).2.1.id] := by
      rw [step, record_history_of_ok r hok, holders_concat, hold]
    have hnot : (r.broker.attach component).2.1.id ∉ holders r.history := by
      rw [h.mem]
      exact not_not.mpr hent.free
    refine ⟨?_, fun sid => ?_⟩
    · rw [hholders, ← List.concat_eq_append]
      exact h.nodup.concat hnot
    · rw [hholders, List.mem_append, List.mem_singleton, h.mem, step, record_broker, hent.slot]
      by_cases hsid : sid = (r.broker.attach component).2.1.id
      · simp [hsid]
      · simp [hsid]
  · refine h.of_same hsame.slot ?_
    rw [step, record_history_of_ne r (by rw [hmax]; decide)]

theorem held_detach {r : Registry} (h : r.Held) (sid : SubscriberID) :
    (r.step (.detach sid)).Held := by
  by_cases hok : (r.broker.detach sid).1 = .ok
  · have hslot := (BVBroker.detach_ok_iff sid r.broker).mp hok
    have hholders : holders (r.step (.detach sid)).history = (holders r.history).erase sid := by
      rw [step, record_history_of_ok r hok, holders_concat, hold]
    refine ⟨hholders ▸ h.nodup.erase sid, fun j => ?_⟩
    rw [hholders, h.nodup.mem_erase_iff, h.mem, step, record_broker, BVBroker.detach_slot hslot]
    by_cases hj : j = sid
    · simp [hj]
    · simp [hj]
  · refine h.of_same (fun j => ?_) ?_
    · have hnone : r.broker.getOutMailBoxAtSubId sid = none :=
        not_not.mp fun hne => hok ((BVBroker.detach_ok_iff sid r.broker).mpr hne)
      rw [step, record_broker, BVBroker.detach, if_pos hnone]
    · rw [step, record_history_of_ne r hok]

theorem step_held {r : Registry} (h : r.Held) (call : BrokerCall) : (r.step call).Held := by
  cases call with
  | attach component => exact held_attach h component
  | detach sid => exact held_detach h sid
  | subscribe sid event =>
    refine h.of_same (fun j => ?_) (holders_record r _ (by simp [hold]))
    rw [step, record_broker, BVBroker.subscribe]
    split <;> rfl
  | subscribeAll sid events =>
    refine h.of_same (fun j => ?_) (holders_record r _ (by simp [hold]))
    rw [step, record_broker, BVBroker.subscribeAll]
    split
    · rfl
    · rw [BVBroker.getOutMailBoxAtSubId, BVBroker.foldl_slot (by simp),
        BVBroker.getOutMailBoxAtSubId]
  | unsubscribe sid event =>
    refine h.of_same (fun j => ?_) (holders_record r _ (by simp [hold]))
    rw [step, record_broker, BVBroker.unsubscribe, BVBroker.getOutMailBoxAtSubId,
      BVBroker.removeSubscription_mailbox, BVBroker.getOutMailBoxAtSubId]
  | unsubscribeAll sid events =>
    refine h.of_same (fun j => ?_) (holders_record r _ (by simp [hold]))
    rw [step, record_broker, BVBroker.unsubscribeAll, BVBroker.getOutMailBoxAtSubId,
      BVBroker.foldl_slot (by simp), BVBroker.getOutMailBoxAtSubId]

theorem start_held (inMailBox : QueueRef) : (start inMailBox).Held := by
  refine ⟨List.nodup_nil, fun sid => ?_⟩
  have hnone : (start inMailBox).broker.getOutMailBoxAtSubId sid = none := by
    rw [start, BVBroker.construct, BVBroker.getOutMailBoxAtSubId]
    dsimp only
    split <;> rfl
  rw [hnone]
  simp [start, holders]

/-- **Ids.**  After any calls on a fresh broker, the ids given to the attached components are
pairwise different and are those with a mailbox.  `Attach` succeeds exactly when fewer than 256
mailboxes are there, and then takes an id without one; otherwise it is refused and changes nothing.
`Detach` succeeds exactly for attached ids, and after it `Attach` does. -/
theorem ids_allocated (inMailBox : QueueRef) (calls : List BrokerCall) :
    let r := Runs.run step (start inMailBox) calls
    (holders r.history).Nodup ∧
    (∀ sid, sid ∈ holders r.history ↔ r.broker.getOutMailBoxAtSubId sid ≠ none) ∧
    (∀ component, (r.broker.attach component).1 = .ok ↔ r.broker.attachedCount < 256) ∧
    (∀ component, (r.broker.attach component).1 = .ok →
      r.broker.Entered (r.broker.attach component).2.1 (r.broker.attach component).2.2) ∧
    (∀ component, (r.broker.attach component).1 ≠ .ok →
      (r.broker.attach component).1 = .maxComponents ∧
      (r.broker.attach component).2.1 = component ∧
      r.broker.SameTables (r.broker.attach component).2.2) ∧
    (∀ sid, (r.broker.detach sid).1 = .ok ↔ r.broker.getOutMailBoxAtSubId sid ≠ none) ∧
    ∀ sid component, (r.broker.detach sid).1 = .ok →
      ((r.broker.detach sid).2.attach component).1 = .ok := by
  intro r
  have hheld : r.Held :=
    Runs.run_invariant_of_forall (I := Held) (fun _ call h => step_held h call)
      (start_held inMailBox) calls
  refine ⟨hheld.nodup, hheld.mem, fun c => BVBroker.attach_ok_iff c _, fun c hok => ?_,
    fun c hne => ?_, fun sid => BVBroker.detach_ok_iff sid _, fun sid c hok => ?_⟩
  · rcases BVBroker.attach_cases c r.broker with ⟨-, h⟩ | ⟨hmax, -⟩
    · exact h
    · rw [hmax] at hok
      cases hok
  · rcases BVBroker.attach_cases c r.broker with ⟨hok, -⟩ | ⟨hmax, hcomp, hsame, -⟩
    · exact absurd hok hne
    · exact ⟨hmax, hcomp, hsame⟩
  · have hslot := (BVBroker.detach_ok_iff sid r.broker).mp hok
    rw [BVBroker.attach_ok_iff, BVBroker.attachedCount_lt_iff]
    exact ⟨sid, by rw [BVBroker.detach_slot hslot, if_pos rfl]⟩

end Registry

end LocalChat
