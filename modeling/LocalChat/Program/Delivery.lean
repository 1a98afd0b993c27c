import LocalChat.Program.Conversation

/-!
# What is typed is read

Whatever the interleaving, a patient conversation loses no text, doubles none and keeps their order;
and it is never stuck.

* `heard_eq`: the other log has the first texts of the own log, as many as were handled.
* `exists_progress`: while a text is on its way, the network and the other host alone can get the
  next one into the other log.
* `logs_agree`: so every run can be continued until both logs tell the same conversation.
-/

namespace LocalChat

namespace Conversation

variable {p : Chatters} {c : Conversation}

/-! ### What has been heard -/

theorem Inv.heard_eq (h : Inv p c) (s : Side) :
    (c s.other).handled ≤ (own p c s).length ∧
      heard p c s = ((own p c s).take (c s.other).handled).map BVChatMessage.cut := by
  obtain ⟨k, got, hhearing⟩ := (h s).hearing
  have hle := (h s).handled_le
  have hk := hhearing.le
  rw [hhearing.length_chats] at hle
  refine ⟨hle.trans hk, ?_⟩
  show sentBy (p.name s) ((c s.other).logWith (p.name s)) = _
  rw [(h s).handled, hhearing.handed, ← List.map_take, List.take_take, Nat.min_eq_left hle]
  rfl

theorem Inv.heard_le_chats (h : Inv p c) (s : Side) :
    (c s.other).handled ≤ (chatsOf (c s.other).read.log).length := (h s).handled_le

def Delivers : Side × ChatAction → Prop
  | (_, .task _ _) => False
  | _ => True

structure Forward (p : Chatters) (c c' : Conversation) : Prop where
  own : ∀ s, own p c' s = own p c s
  handled : ∀ s, (c s).handled ≤ (c' s).handled

theorem Forward.refl (p : Chatters) (c : Conversation) : Forward p c c :=
  ⟨fun _ => rfl, fun _ => le_rfl⟩

theorem Forward.trans {c' c'' : Conversation} (h : Forward p c c') (h' : Forward p c' c'') :
    Forward p c c'' :=
  ⟨fun s => (h'.own s).trans (h.own s), fun s => (h.handled s).trans (h'.handled s)⟩

theorem forward_update {s : Side} {x : Chatter}
    (hown : sentBy (p.name s) (x.logWith (p.name s.other)) = own p c s)
    (hhandled : (c s).handled ≤ x.handled) : Forward p c (Function.update c s x) := by
  refine ⟨fun u => ?_, fun u => ?_⟩
  · by_cases hu : u = s
    · subst hu
      show sentBy _ ((Function.update c u x u).logWith _) = _
      rw [Function.update_self]
      exact hown
    · show sentBy _ ((Function.update c s x u).logWith _) = _
      rw [Function.update_of_ne hu]
      rfl
  · by_cases hu : u = s
    · subst hu
      rw [Function.update_self]
      exact hhandled
    · rw [Function.update_of_ne hu]

theorem step_forward (h : Inv p c) {a : Side × ChatAction} (hpatient : Patient c a)
    (ha : Delivers a) : Forward p c (step p c a) := by
  obtain ⟨s, a⟩ := a
  cases a with
  | task now t => exact ha.elim
  | complete i => exact forward_update rfl le_rfl
  | tick t => exact forward_update rfl le_rfl
  | take i n =>
    refine (forward_update (x := { c s with write := (c s).write.takeBytes i n }) rfl le_rfl).trans
      (forward_update ?_ ?_)
    · show _ = sentBy _ ((Function.update c s _ s.other).logWith _)
      rw [Function.update_of_ne (Side.other_ne s)]
      rfl
    · rw [Function.update_of_ne (Side.other_ne s)]
  | listen =>
    apply forward_update
    · cases hres : (chatsOf (c s).read.log)[(c s).handled]? with
      | none =>
        unfold Chatter.listen
        rw [hres]
        rfl
      | some res =>
        have hsender := (h.back s).sender_of_chat hres
        unfold Chatter.listen
        rw [hres]
        exact Direction.sentBy_logWith_addMessage _ (hsender.symm ▸ p.name_other s) _
    · unfold Chatter.listen
      split
      · exact le_rfl
      · exact Nat.le_succ _

end Conversation

/-! ### Progress -/

theorem wipesNothing_quiet (env : Env) (s : Session) : s.WipesNothing (.complete env .quiet) := by
  intro _ _ b hb
  simp at hb

/-- Everything is on the wire: the next full read hands one more message over. -/
theorem Direction.next {me peer : Bytes} {x y : Chatter} (h : Direction me peer x y)
    (hunsent : x.write.unsent = [])
    (hlt : (chatsOf y.read.log).length < (sentBy me (x.logWith peer)).length) :
    (chatsOf ((y.read.step (.arrive messageFrameSizeBytes)).step
      (.complete .blank .quiet)).log).length = (chatsOf y.read.log).length + 1 := by
  obtain ⟨k, got, hhearing⟩ := h.hearing
  rw [hhearing.length_chats] at hlt ⊢
  have hgot := hhearing.atFrame.got_le
  -- a whole frame at least has not been handed over
  have hfull : got + (y.read.incoming messageFrameSizeBytes got).length =
      messageFrameSizeBytes := by
    have hlen := congrArg List.length hhearing.bytes
    rw [hunsent, List.append_nil, List.length_append, List.length_take, hhearing.atFrame.readBuf,
      Nat.min_eq_left hgot, List.drop_eq_getElem_cons hlt, List.flatMap_cons, List.length_append,
      BVChatMessage.frame, length_messageFrame] at hlen
    unfold Session.incoming
    rw [List.length_take]
    omega
  have harrived := hhearing.arrive messageFrameSizeBytes
  rw [hfull] at harrived
  obtain ⟨got', hnext⟩ := harrived.complete h.isChat .blank .quiet (wipesNothing_quiet _ _)
  exact hnext.length_chats

namespace Conversation

variable {p : Chatters} {c : Conversation}

theorem listen_handled {x : Chatter} (h : x.handled < (chatsOf x.read.log).length) :
    x.listen.handled = x.handled + 1 := by
  unfold Chatter.listen
  rw [List.getElem?_eq_getElem h]

theorem step_tick (s : Side) (t : Tick) (c : Conversation) :
    step p c (s, .tick t) s = { c s with read := (c s).read.step t } :=
  Function.update_self _ _ _

theorem step_listen (s : Side) (c : Conversation) : step p c (s, .listen) s = (c s).listen :=
  Function.update_self _ _ _

theorem step_take (s : Side) (i n : Nat) (c : Conversation) :
    (step p c (s, .take i n) s).write = (c s).write.takeBytes i n ∧
      (step p c (s, .take i n) s.other).read.log = (c s.other).read.log ∧
      (step p c (s, .take i n) s.other).handled = (c s.other).handled := by
  unfold step
  dsimp only
  rw [Function.update_of_ne (Side.ne_other s), Function.update_self, Function.update_self]
  exact ⟨rfl, rfl, rfl⟩

/-- **One more text** gets into the other log without the users. -/
theorem exists_progress (h : Inv p c) {s : Side}
    (hlt : (c s.other).handled < (own p c s).length) :
    ∃ more : List (Side × ChatAction), (∀ a ∈ more, Delivers a) ∧
      Runs.Meets (step p) Patient c more ∧
      (c s.other).handled < (Runs.run (step p) c more s.other).handled := by
  by_cases hmail : (c s.other).handled < (chatsOf (c s.other).read.log).length
  · -- it is in the mailbox already
    refine ⟨[(s.other, .listen)], by simp [Delivers], ⟨trivial, trivial⟩, ?_⟩
    show _ < (step p c (s.other, .listen) s.other).handled
    rw [step_listen, listen_handled hmail]
    exact Nat.lt_succ_self _
  · let take : Side × ChatAction :=
      (s, .take ((c s).write.pending.length - 1) messageFrameSizeBytes)
    let arrive : Side × ChatAction := (s.other, .tick (.arrive messageFrameSizeBytes))
    let complete : Side × ChatAction := (s.other, .tick (.complete .blank .quiet))
    obtain ⟨hwrite, hlog, hhandled⟩ :=
      step_take (p := p) s ((c s).write.pending.length - 1) messageFrameSizeBytes c
    have hown := (step_forward h (a := take) trivial trivial).own s
    have hunsent : (step p c take s).write.unsent = [] := by
      rw [hwrite]
      exact (h s).sending.drain
    have hchats := ((step_inv h take trivial) s).next hunsent (by
      show (chatsOf (step p c take s.other).read.log).length < (own p (step p c take) s).length
      rw [hlog, hown]
      exact (Nat.le_of_not_lt hmail).trans_lt hlt)
    rw [hlog] at hchats
    refine ⟨[take, arrive, complete, (s.other, .listen)], by simp [take, arrive, complete, Delivers],
      ⟨trivial, trivial, wipesNothing_quiet .blank _, trivial, trivial⟩, ?_⟩
    show _ < (step p (step p (step p (step p c take) arrive) complete) (s.other, .listen)
      s.other).handled
    rw [step_listen, step_tick, step_tick, listen_handled]
    · show _ < (step p c take s.other).handled + 1
      rw [hhandled]
      exact Nat.lt_succ_self _
    · show (step p c take s.other).handled < (chatsOf (((step p c take s.other).read.step
        (.arrive messageFrameSizeBytes)).step (.complete .blank .quiet)).log).length
      rw [hchats, hhandled]
      exact Nat.lt_succ_of_le (h.heard_le_chats s)

/-! ### Runs -/

theorem run_forward (h : Inv p c) {more : List (Side × ChatAction)}
    (hmore : ∀ a ∈ more, Delivers a) (hmeets : Runs.Meets (step p) Patient c more) :
    Forward p c (Runs.run (step p) c more) := by
  induction more generalizing c with
  | nil => exact .refl p c
  | cons a more ih =>
    have hfirst := step_forward h hmeets.1 (hmore a List.mem_cons_self)
    exact hfirst.trans (ih (step_inv h a hmeets.1)
      (fun a' ha' => hmore a' (List.mem_cons_of_mem _ ha')) hmeets.2)

theorem run_inv (h : Inv p c) {as : List (Side × ChatAction)}
    (hmeets : Runs.Meets (step p) Patient c as) : Inv p (Runs.run (step p) c as) :=
  Runs.run_invariant (I := Inv p) (fun _ a h ha => step_inv h a ha) h hmeets

def missing (p : Chatters) (c : Conversation) (s : Side) : Nat :=
  (own p c s).length - (c s.other).handled

theorem exists_delivery (h : Inv p c) :
    ∃ more : List (Side × ChatAction), (∀ a ∈ more, Delivers a) ∧
      Runs.Meets (step p) Patient c more ∧
      ∀ s, missing p (Runs.run (step p) c more) s = 0 := by
  induction hn : missing p c .left + missing p c .right using Nat.strong_induction_on
    generalizing c with
  | _ n ih =>
    by_cases hdone : ∀ s, missing p c s = 0
    · exact ⟨[], by simp, trivial, hdone⟩
    · push Not at hdone
      obtain ⟨s, hs⟩ := hdone
      have hlt : (c s.other).handled < (own p c s).length := by
        unfold missing at hs
        omega
      obtain ⟨more, hmore, hmeets, hprogress⟩ := exists_progress h hlt
      have hforward := run_forward h hmore hmeets
      have hinv := run_inv h hmeets
      -- nothing new is sent, so one text less is missing
      have hle : ∀ u, missing p (Runs.run (step p) c more) u ≤ missing p c u := by
        intro u
        unfold missing
        rw [hforward.own u]
        have hu := hforward.handled u.other
        omega
      have hless : missing p (Runs.run (step p) c more) s < missing p c s := by
        unfold missing
        rw [hforward.own s]
        omega
      have hsum : missing p (Runs.run (step p) c more) .left +
          missing p (Runs.run (step p) c more) .right < n := by
        have hleft := hle .left
        have hright := hle .right
        cases s with
        | left => omega
        | right => omega
      obtain ⟨rest, hrest, hmeets', hnone⟩ := ih _ hsum hinv rfl
      refine ⟨more ++ rest, ?_, Runs.meets_append.mpr ⟨hmeets, hmeets'⟩, ?_⟩
      · intro a ha
        obtain ha | ha := List.mem_append.mp ha
        · exact hmore a ha
        · exact hrest a ha
      · rw [Runs.run_append]
        exact hnone

end Conversation

section Example

open Conversation BVTCPConnectionManager

/-- A host with one session, which its peer has dialled. -/
abbrev dialledBy (peer self : Bytes) : BVTCPConnectionManager :=
  (((construct self).accept).acceptHandler 0).handleSessionIdentification peer 0

theorem found_dialledBy (peer self serviceName : Bytes) :
    ((dialledBy peer self).getSessionIDFromServiceName serviceName).bind
      (dialledBy peer self).sessions.lookup = some 0 ↔ serviceName = peer := by
  show (Function.update (fun _ => none) peer (some 0) serviceName).bind _ = some 0 ↔ _
  by_cases h : serviceName = peer
  · subst h
    rw [Function.update_self]
    exact iff_of_true rfl rfl
  · rw [Function.update_of_ne h]
    exact iff_of_false (by simp) h

def aAndB : Chatters where
  name
    | .left => [97]
    | .right => [98]
  manager
    | .left => dialledBy [98] [97]
    | .right => dialledBy [97] [98]
  session := fun _ => 0
  name_other := by
    rintro (_ | _) <;> decide
  found := by
    intro s serviceName
    cases s with
    | left => exact found_dialledBy [98] [97] serviceName
    | right => exact found_dialledBy [97] [98] serviceName

end Example

end LocalChat
