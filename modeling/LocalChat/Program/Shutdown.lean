import LocalChat.Lib.Measures
import LocalChat.Program.Wiring

/-!
# Shutdown

The quit key sends `BVEVENTTYPE_TERMINATE_ALL` to the broker.  `Run` routes what is before it and
then returns; each component's `ListenToMail` handles what is before it and then returns, and `main`
joins the threads.

* `Stopped.step`: once `Run` has returned, `BVEVENTTYPE_TERMINATE_ALL` is in the mailbox of every
  component that still listens.
* `Closing.step`: each message that a thread takes lowers `work`, which only messages from the
  sessions raise, by one.
* `Closing.ended`: where no thread in its loop has a message, all of them have returned.
-/

namespace LocalChat

open Queues

variable {α : Type*}

namespace Exchange

def IsLast (x : Exchange α) (m : Option MessageRef) : Prop :=
  ∃ r, m = some r ∧ (x.post.message r).eventT = .terminateAll

instance (x : Exchange α) : DecidablePred x.IsLast
  | none => .isFalse fun ⟨_, h, _⟩ => by cases h
  | some r => decidable_of_iff ((x.post.message r).eventT = .terminateAll)
      ⟨fun h => ⟨r, rfl, h⟩, fun ⟨_, hr, h⟩ => Option.some.inj hr ▸ h⟩

/-- How many messages come up to the last one. -/
def awaited (x : Exchange α) : List (Option MessageRef) → Nat
  | [] => 0
  | m :: ms => if x.IsLast m then 1 else x.awaited ms + 1

/-- The thread is in its loop and its mailbox is not empty, so that it takes a message if it
evaluates its predicate. -/
def moves (x : Exchange α) : ProgramAction α → Bool
  | .thread .broker => x.post.isRunning && !(x.post.queue x.post.broker.inMailBox).isEmpty
  | .thread (.listen sid) =>
    x.listening sid && ((x.post.broker.getOutMailBoxAtSubId sid).any fun q =>
      !(x.post.queue q).isEmpty)
  | _ => false

variable {x y : Exchange α} {ms : List (Option MessageRef)} {m : Option MessageRef}

theorem awaited_congr (h : ∀ m ∈ ms, (y.IsLast m ↔ x.IsLast m)) : y.awaited ms = x.awaited ms := by
  induction ms with
  | nil => rfl
  | cons m ms ih =>
    rw [List.forall_mem_cons] at h
    simp only [awaited, h.1, ih h.2]

theorem awaited_append_le (m : Option MessageRef) : x.awaited (ms ++ [m]) ≤ x.awaited ms + 1 := by
  induction ms with
  | nil =>
    simp only [List.nil_append, awaited]
    split <;> omega
  | cons k ms ih =>
    simp only [List.cons_append, awaited]
    split <;> omega

/-- Behind the last message one more makes no difference. -/
theorem awaited_append_of_last (h : ∃ k ∈ ms, x.IsLast k) (m : Option MessageRef) :
    x.awaited (ms ++ [m]) = x.awaited ms := by
  induction ms with
  | nil =>
    obtain ⟨k, hk, -⟩ := h
    cases hk
  | cons k ms ih =>
    simp only [List.cons_append, awaited]
    by_cases hk : x.IsLast k
    · rw [if_pos hk, if_pos hk]
    · rw [if_neg hk, if_neg hk, ih]
      obtain ⟨k', hk', hlast⟩ := h
      rcases List.mem_cons.mp hk' with rfl | hk'
      · exact absurd hlast hk
      · exact ⟨k', hk', hlast⟩

end Exchange

namespace Program

open Exchange

def left (x : Exchange α) (c : BVComponent) : Nat :=
  if x.listening c.id then x.awaited (x.post.queue c.inMailBox) else 0

/-- What the broker has to do, in units of work: a message it routes is handled by two components at
most. -/
def toRoute (p : Program) (x : Exchange α) : Nat :=
  if x.post.isRunning then 3 * x.awaited (x.post.queue p.broker.inMailBox) else 0

def work (p : Program) (x : Exchange α) : Nat := p.toRoute x + left x p.discovery + left x p.app

def adds : ProgramAction α → Nat
  | .put _ _ => 1
  | .thread _ => 0

def IsComponent (p : Program) (c : BVComponent) : Prop := c = p.discovery ∨ c = p.app

/-- Once `Run` has returned, every component that still listens has the last message before it; and
one that does not listen any more has handled it, or its callback has failed. -/
structure Stopped (p : Program) (cs : Callbacks α) (x : Exchange α) : Prop where
  inv : Inv p cs x
  last : x.post.isRunning = false → ∀ c, p.IsComponent c → x.listening c.id = true →
    ∃ m ∈ x.post.queue c.inMailBox, x.IsLast m
  called : ∀ call ∈ x.calls, call.message < x.created
  ended : ∀ c, p.IsComponent c → x.listening c.id = false → ∃ call ∈ x.calls, call.sid = c.id ∧
    ((x.post.message call.message).eventT = .terminateAll ∨
      ∃ callback, cs c.id (x.post.message call.message).eventT = some callback ∧
        callback call.data ≠ .ok)

variable {p : Program} {cs : Callbacks α} {x : Exchange α} {c : BVComponent}

theorem Wired.mailbox_of_isComponent (hp : p.Wired) (hc : p.IsComponent c) :
    p.broker.getOutMailBoxAtSubId c.id = some c.inMailBox := by
  rcases hc with rfl | rfl
  · exact hp.discoveryMailbox
  · exact hp.appMailbox

theorem Wired.terminate_of_isComponent (hp : p.Wired) (hc : p.IsComponent c) :
    c.id ∈ p.broker.getSubscriberIDVectorFromEventType .terminateAll := by
  rcases hc with rfl | rfl
  · exact (hp.subscribers _ _).mpr (.inl ⟨rfl, by decide⟩)
  · exact (hp.subscribers _ _).mpr (.inr ⟨rfl, by decide⟩)

theorem isLast_put {q : QueueRef} {m : BVMessage α} {k : Option MessageRef}
    (hk : ∃ r, k = some r ∧ r < x.created) : (x.put q m).IsLast k ↔ x.IsLast k := by
  obtain ⟨r, rfl, hr⟩ := hk
  have hold : (x.put q m).post.message r = x.post.message r := Function.update_of_ne hr.ne _ _
  unfold IsLast
  simp [hold]

theorem Stopped.put (h : Stopped p cs x) {q : QueueRef} {m : BVMessage α}
    (hinv : Inv p cs (x.put q m)) : Stopped p cs (x.put q m) where
  inv := hinv
  last hrun c hc hlisten := by
    obtain ⟨k, hk, hlast⟩ := h.last hrun c hc hlisten
    refine ⟨k, ?_, (isLast_put (h.inv.made _ k hk)).mpr hlast⟩
    show k ∈ Function.update x.post.queue q (x.post.queue q ++ [some x.created]) c.inMailBox
    by_cases hq : c.inMailBox = q
    · rw [hq, Function.update_self]
      exact List.mem_append_left _ (hq ▸ hk)
    · rwa [Function.update_of_ne hq]
  called call hcall := Nat.lt_succ_of_lt (h.called call hcall)
  ended c hc hlisten := by
    obtain ⟨call, hcall, hsid, hwhy⟩ := h.ended c hc hlisten
    have hold : (x.put q m).post.message call.message = x.post.message call.message :=
      Function.update_of_ne (h.called call hcall).ne _ _
    exact ⟨call, hcall, hsid, by rw [hold]; exact hwhy⟩

theorem Inv.turn_cases (hp : p.Wired) (h : Inv p cs x) :
    (x.moves (.thread .broker) = false ∧ x.post.turn = x.post) ∨
      ∃ r ms, x.moves (.thread .broker) = true ∧ x.post.isRunning = true ∧
        x.post.queue p.broker.inMailBox = some r :: ms ∧ Post.Turned r ms x.post x.post.turn := by
  unfold moves
  by_cases hrun : x.post.isRunning = true
  · cases hin : x.post.queue x.post.broker.inMailBox with
    | nil =>
      refine .inl ⟨by simp, ?_⟩
      rw [Post.turn, if_pos hrun, hin]
    | cons m ms =>
      obtain ⟨r, rfl, -⟩ := h.made _ m (hin ▸ List.mem_cons_self)
      have hturn := Post.turned (hp.orderly h.broker) hrun hin
      exact .inr ⟨r, ms, by simp [hrun], hrun, h.broker ▸ hin, hturn⟩
  · have hstop : x.post.isRunning = false := by simpa using hrun
    exact .inl ⟨by simp [hstop], Post.turn_of_stopped hstop⟩

theorem Inv.listen_cases (hp : p.Wired) (h : Inv p cs x) (sid : SubscriberID) :
    (x.moves (.thread (.listen sid)) = false ∧ x.listen cs sid = x) ∨
      ∃ c r rest, p.IsComponent c ∧ c.id = sid ∧ x.moves (.thread (.listen sid)) = true ∧
        x.listening c.id = true ∧ x.post.queue c.inMailBox = some r :: rest ∧
        Listened cs c.id c.inMailBox (some r) rest x (x.listen cs sid) := by
  unfold moves
  by_cases hwait : ∀ q, x.listening sid = true → x.post.broker.getOutMailBoxAtSubId sid = some q →
      x.post.queue q = []
  · refine .inl ⟨?_, Exchange.listen_of_waiting hwait⟩
    cases hlisten : x.listening sid with
    | false => simp [hlisten]
    | true =>
      cases hq : x.post.broker.getOutMailBoxAtSubId sid with
      | none => simp [hq]
      | some q => simp [hq, hwait q hlisten hq]
  · push Not at hwait
    obtain ⟨q, hlisten, hq, hne⟩ := hwait
    obtain ⟨m, rest, hin⟩ := List.exists_cons_of_ne_nil hne
    obtain ⟨r, rfl, -⟩ := h.made q m (hin ▸ List.mem_cons_self)
    have hslot : p.broker.getOutMailBoxAtSubId sid = some q := h.broker ▸ hq
    obtain ⟨c, hc, rfl⟩ : ∃ c, p.IsComponent c ∧ c.id = sid := by
      rcases hp.mailboxes sid (by simp [hslot]) with rfl | rfl
      · exact ⟨p.discovery, .inl rfl, rfl⟩
      · exact ⟨p.app, .inr rfl, rfl⟩
    obtain rfl : c.inMailBox = q :=
      Option.some.inj ((hp.mailbox_of_isComponent hc).symm.trans hslot)
    exact .inr ⟨c, r, rest, hc, rfl, by simp [hlisten, hq, hin], hlisten, hin,
      Exchange.listened hlisten hq hin⟩

theorem queue_turned (hp : p.Wired) (hb : x.post.broker = p.broker) (hc : p.IsComponent c)
    {r : MessageRef} {ms : List (Option MessageRef)} {post : Post α}
    (ht : Post.Turned r ms x.post post) :
    post.queue c.inMailBox = x.post.queue c.inMailBox ∨
      post.queue c.inMailBox = x.post.queue c.inMailBox ++ [some r] := by
  rw [ht.mailbox c.id _ (hb ▸ hp.mailbox_of_isComponent hc)]
  cases hsub : x.post.subscribedTo c.id r with
  | true => exact .inr (by simp [hsub])
  | false => exact .inl (by simp [hsub])

theorem isLast_turned {r : MessageRef} {ms : List (Option MessageRef)} {post : Post α}
    (ht : Post.Turned r ms x.post post) (m : Option MessageRef) :
    IsLast { x with post := post } m ↔ x.IsLast m := by
  unfold IsLast
  rw [ht.message]

theorem last_mem_turned (hp : p.Wired) (hb : x.post.broker = p.broker) (hc : p.IsComponent c)
    {r : MessageRef} {ms : List (Option MessageRef)} {post : Post α}
    (ht : Post.Turned r ms x.post post) (hr : (x.post.message r).eventT = .terminateAll) :
    some r ∈ post.queue c.inMailBox := by
  have hsub : x.post.subscribedTo c.id r = true := by
    rw [Post.subscribedTo, hr, hb]
    exact decide_eq_true (hp.terminate_of_isComponent hc)
  rw [ht.mailbox c.id _ (hb ▸ hp.mailbox_of_isComponent hc)]
  simp [hsub]

theorem Stopped.turn (hp : p.Wired) (h : Stopped p cs x)
    (hinv : Inv p cs { x with post := x.post.turn }) :
    Stopped p cs { x with post := x.post.turn } := by
  rcases h.inv.turn_cases hp with ⟨-, hwait⟩ | ⟨r, ms, -, hrun, hin, ht⟩
  · rw [hwait]
    exact h
  · refine ⟨hinv, fun hstop c hc hlisten => ?_, h.called, fun c hc hlisten => ?_⟩
    · have hr : (x.post.message r).eventT = .terminateAll := by
        have hdecide := ht.isRunning.symm.trans hstop
        simpa using hdecide
      exact ⟨some r, last_mem_turned hp h.inv.broker hc ht hr,
        (isLast_turned ht _).mpr ⟨r, rfl, hr⟩⟩
    · obtain ⟨call, hcall, hsid, hwhy⟩ := h.ended c hc hlisten
      refine ⟨call, hcall, hsid, ?_⟩
      show (x.post.turn.message call.message).eventT = _ ∨ _
      rw [ht.message]
      exact hwhy

theorem isLast_listened {sid : SubscriberID} {q : QueueRef} {m : Option MessageRef}
    {rest : List (Option MessageRef)} {y : Exchange α} (hl : Listened cs sid q m rest x y)
    (k : Option MessageRef) : y.IsLast k ↔ x.IsLast k := by
  unfold IsLast
  simp only [hl.event]

theorem component_eq (hp : p.Wired) {c c' : BVComponent} (hc : p.IsComponent c)
    (hc' : p.IsComponent c') : (c = c' ∧ c.inMailBox = c'.inMailBox) ∨
      (c.id ≠ c'.id ∧ c.inMailBox ≠ c'.inMailBox) := by
  by_cases hid : c.id = c'.id
  · refine .inl ?_
    rcases hc with rfl | rfl
    · rcases hc' with rfl | rfl
      · exact ⟨rfl, rfl⟩
      · exact absurd hid.symm hp.distinct
    · rcases hc' with rfl | rfl
      · exact absurd hid hp.distinct
      · exact ⟨rfl, rfl⟩
  · refine .inr ⟨hid, fun hq => hid ?_⟩
    have hslot := hp.mailbox_of_isComponent hc
    rw [hq] at hslot
    exact hp.addressed.apart _ _ _ hslot (hp.mailbox_of_isComponent hc')

theorem Stopped.listen (hp : p.Wired) (hcs : ∀ sid, cs sid .testRequestShutdown = none)
    (h : Stopped p cs x) (sid : SubscriberID) (hinv : Inv p cs (x.listen cs sid)) :
    Stopped p cs (x.listen cs sid) := by
  rcases h.inv.listen_cases hp sid with ⟨-, hwait⟩ | ⟨c, r, rest, hc, rfl, -, hlisten, hin, hl⟩
  · rw [hwait]
    exact h
  have hr : r < x.created := by
    obtain ⟨_, ⟨⟩, hr⟩ := h.inv.made _ (some r) (hin ▸ List.mem_cons_self)
    exact hr
  have hheard := h.inv.heard c.id _ r (hp.mailbox_of_isComponent hc) (hin ▸ List.mem_cons_self)
  obtain ⟨callback, hcallback⟩ := Option.isSome_iff_exists.mp hheard
  obtain ⟨hcalls, hstops⟩ := hl.called r callback rfl hcallback
  refine ⟨hinv, fun hrun c' hc' hlisten' => ?_, fun call hcall => ?_, fun c' hc' hlisten' => ?_⟩
  · rw [hl.isRunning] at hrun
    rcases component_eq hp hc' hc with ⟨rfl, -⟩ | ⟨hid, hq⟩
    · -- it goes on, so what it has popped was not the last one
      obtain ⟨k, hk, hlast⟩ := h.last hrun c' hc' hlisten
      rw [hin] at hk
      rcases List.mem_cons.mp hk with rfl | hk
      · obtain ⟨_, ⟨⟩, hterm⟩ := hlast
        rw [hstops.mpr (.inr (.inr (.inl hterm)))] at hlisten'
        cases hlisten'
      · refine ⟨k, ?_, (isLast_listened hl k).mpr hlast⟩
        rw [hl.queue, Function.update_self]
        exact hk
    · rw [hl.others c'.id hid] at hlisten'
      obtain ⟨k, hk, hlast⟩ := h.last hrun c' hc' hlisten'
      refine ⟨k, ?_, (isLast_listened hl k).mpr hlast⟩
      rw [hl.queue, Function.update_of_ne hq]
      exact hk
  · rw [hl.created]
    rw [hcalls] at hcall
    rcases List.mem_append.mp hcall with hcall | hcall
    · exact h.called call hcall
    · rw [List.mem_singleton.mp hcall]
      exact hr
  · simp only [hl.event, hcalls]
    rcases component_eq hp hc' hc with ⟨rfl, -⟩ | ⟨hid, -⟩
    · refine ⟨_, List.mem_append_right _ (List.mem_singleton_self _), rfl, ?_⟩
      rcases hstops.mp hlisten' with hbefore | hbad | hterm | htest
      · rw [hlisten] at hbefore
        cases hbefore
      · exact .inr ⟨callback, hcallback, hbad⟩
      · exact .inl hterm
      · rw [htest, hcs] at hcallback
        cases hcallback
    · rw [hl.others c'.id hid] at hlisten'
      obtain ⟨call, hcall, hsid, hwhy⟩ := h.ended c' hc' hlisten'
      exact ⟨call, List.mem_append_left _ hcall, hsid, hwhy⟩

theorem callbacks_testRequestShutdown (onDiscovery onApp : BVEventType → Option α → BVStatus)
    (sid : SubscriberID) : p.callbacks onDiscovery onApp sid .testRequestShutdown = none := by
  unfold callbacks
  split
  · rfl
  · split <;> rfl

theorem Stopped.step (hp : p.Wired) {onDiscovery onApp : BVEventType → Option α → BVStatus}
    (h : Stopped p (p.callbacks onDiscovery onApp) x) (a : ProgramAction α) :
    Stopped p (p.callbacks onDiscovery onApp) (p.step (p.callbacks onDiscovery onApp) x a) := by
  have hinv := h.inv.step hp a
  cases a with
  | thread a =>
    cases a with
    | send m => exact h.put hinv
    | broker => exact h.turn hp hinv
    | listen sid => exact h.listen hp (callbacks_testRequestShutdown onDiscovery onApp) sid hinv
  | put m hm => exact h.put hinv

theorem stopped_start (cs : Callbacks α) (p : Program) : Stopped p cs (.start p.broker) where
  inv := inv_start cs p
  last hrun := by cases hrun
  called _ hcall := by cases hcall
  ended _ _ hlisten := by cases hlisten

/-! ### The work that is left -/

/-- `BVEVENTTYPE_TERMINATE_ALL` has been sent. -/
structure Closing (p : Program) (cs : Callbacks α) (x : Exchange α) : Prop where
  stopped : Stopped p cs x
  coming : x.post.isRunning = true → ∃ m ∈ x.post.queue p.broker.inMailBox, x.IsLast m

theorem awaited_put {q : QueueRef} {m : BVMessage α} (h : Inv p cs x) {q' : QueueRef} :
    (x.put q m).awaited (x.post.queue q') = x.awaited (x.post.queue q') :=
  awaited_congr fun k hk => isLast_put (h.made q' k hk)

theorem put_queue (q q' : QueueRef) (m : BVMessage α) (x : Exchange α) :
    (x.put q m).post.queue q' =
      if q' = q then x.post.queue q' ++ [some x.created] else x.post.queue q' := by
  show Function.update x.post.queue q (x.post.queue q ++ [some x.created]) q' = _
  by_cases hq : q' = q
  · rw [if_pos hq, hq, Function.update_self]
  · rw [if_neg hq, Function.update_of_ne hq]

theorem Closing.send (hp : p.Wired) (h : Closing p cs x) {m : BVMessage α}
    (hstopped : Stopped p cs (x.send m)) :
    Closing p cs (x.send m) ∧ p.work (x.send m) = p.work x := by
  have hinv := h.stopped.inv
  rw [send_eq, hinv.broker] at *
  refine ⟨⟨hstopped, fun hrun => ?_⟩, ?_⟩
  · obtain ⟨k, hk, hlast⟩ := h.coming hrun
    refine ⟨k, ?_, (isLast_put (hinv.made _ k hk)).mpr hlast⟩
    rw [put_queue, if_pos rfl]
    exact List.mem_append_left _ hk
  · have hleft : ∀ c, p.IsComponent c → left (x.put p.broker.inMailBox m) c = left x c := by
      intro c hc
      have hne : c.inMailBox ≠ p.broker.inMailBox := by
        intro hq
        exact Nat.lt_irrefl _ (hp.addressed.after c.id _ (hq ▸ hp.mailbox_of_isComponent hc))
      unfold left
      rw [put_queue, if_neg hne, awaited_put hinv]
      rfl
    have hroute : p.toRoute (x.put p.broker.inMailBox m) = p.toRoute x := by
      unfold toRoute
      show (if x.post.isRunning then _ else 0) = _
      split
      · next hrun =>
        obtain ⟨k, hk, hlast⟩ := h.coming hrun
        rw [put_queue, if_pos rfl, awaited_append_of_last
          ⟨k, hk, (isLast_put (hinv.made _ k hk)).mpr hlast⟩, awaited_put hinv]
      · rfl
    unfold work
    rw [hroute, hleft p.discovery (.inl rfl), hleft p.app (.inr rfl)]

/-- A message from a session is more work for the app at most. -/
theorem Closing.put (hp : p.Wired) (h : Closing p cs x) {m : BVMessage α}
    (hstopped : Stopped p cs (x.put p.app.inMailBox m)) :
    Closing p cs (x.put p.app.inMailBox m) ∧
      p.work (x.put p.app.inMailBox m) ≤ p.work x + 1 := by
  have hinv := h.stopped.inv
  have hne : p.broker.inMailBox ≠ p.app.inMailBox := by
    intro hq
    exact Nat.lt_irrefl _ (hp.addressed.after p.app.id _ (hq ▸ hp.appMailbox))
  refine ⟨⟨hstopped, fun hrun => ?_⟩, ?_⟩
  · obtain ⟨k, hk, hlast⟩ := h.coming hrun
    refine ⟨k, ?_, (isLast_put (hinv.made _ k hk)).mpr hlast⟩
    rw [put_queue, if_neg hne]
    exact hk
  · have hroute : p.toRoute (x.put p.app.inMailBox m) = p.toRoute x := by
      unfold toRoute
      rw [put_queue, if_neg hne, awaited_put hinv]
      rfl
    have hdiscovery : left (x.put p.app.inMailBox m) p.discovery = left x p.discovery := by
      have hq : p.discovery.inMailBox ≠ p.app.inMailBox := by
        rcases component_eq hp (.inl rfl) (.inr rfl) with ⟨hsame, -⟩ | ⟨-, hq⟩
        · exact absurd (congrArg BVComponent.id hsame).symm hp.distinct
        · exact hq
      unfold left
      rw [put_queue, if_neg hq, awaited_put hinv]
      rfl
    have happ : left (x.put p.app.inMailBox m) p.app ≤ left x p.app + 1 := by
      unfold left
      show (if x.listening p.app.id then _ else 0) ≤ _
      split
      · rw [put_queue, if_pos rfl]
        refine Nat.le_trans (awaited_append_le _) ?_
        rw [awaited_put hinv]
      · exact Nat.zero_le _
    unfold work
    rw [hroute, hdiscovery]
    omega

/-- The broker routes a message: that is three units of work less for it, and one more at most for
each component. -/
theorem Closing.turn (hp : p.Wired) (h : Closing p cs x)
    (hstopped : Stopped p cs { x with post := x.post.turn }) :
    Closing p cs { x with post := x.post.turn } ∧
      p.work { x with post := x.post.turn } + (x.moves (.thread .broker)).toNat ≤ p.work x := by
  have hinv := h.stopped.inv
  rcases hinv.turn_cases hp with ⟨hmoves, hwait⟩ | ⟨r, ms, hmoves, hrun, hin, ht⟩
  · rw [hwait, hmoves]
    exact ⟨h, Nat.le_refl _⟩
  have hrest : x.post.turn.queue p.broker.inMailBox = ms := hinv.broker ▸ ht.rest
  refine ⟨⟨hstopped, fun hrun' => ?_⟩, ?_⟩
  · have hr : (x.post.message r).eventT ≠ .terminateAll := by
      have hdecide := ht.isRunning.symm.trans hrun'
      simpa using hdecide
    obtain ⟨k, hk, hlast⟩ := h.coming hrun
    rw [hin] at hk
    rcases List.mem_cons.mp hk with rfl | hk
    · obtain ⟨_, ⟨⟩, hterm⟩ := hlast
      exact absurd hterm hr
    · exact ⟨k, hrest ▸ hk, (isLast_turned ht k).mpr hlast⟩
  · have hawaited : ∀ l, awaited { x with post := x.post.turn } l = x.awaited l :=
      fun l => awaited_congr fun k _ => isLast_turned ht k
    have hleft : ∀ c, p.IsComponent c → left { x with post := x.post.turn } c ≤ left x c + 1 := by
      intro c hc
      unfold left
      show (if x.listening c.id then _ else 0) ≤ _
      split
      · rw [hawaited]
        show x.awaited (x.post.turn.queue c.inMailBox) ≤ _
        rcases queue_turned hp hinv.broker hc ht with hq | hq
        · rw [hq]
          exact Nat.le_succ _
        · rw [hq]
          exact awaited_append_le _
      · exact Nat.zero_le _
    have hd := hleft p.discovery (.inl rfl)
    have ha := hleft p.app (.inr rfl)
    have hroute : p.toRoute { x with post := x.post.turn } + 3 ≤ p.toRoute x := by
      unfold toRoute
      rw [if_pos hrun]
      show (if x.post.turn.isRunning then 3 * _ else 0) + 3 ≤ _
      rw [hawaited, hin, awaited, ht.isRunning]
      by_cases hr : (x.post.message r).eventT = .terminateAll
      · have hlast : x.IsLast (some r) := ⟨r, rfl, hr⟩
        rw [if_pos hlast, if_neg (by simp [hr])]
      · have hlast : ¬ x.IsLast (some r) := by
          rintro ⟨_, ⟨⟩, hterm⟩
          exact hr hterm
        rw [if_neg hlast, if_pos (by simp [hr])]
        show 3 * x.awaited (x.post.turn.queue p.broker.inMailBox) + 3 ≤ _
        rw [hrest]
        omega
    unfold work
    rw [hmoves, Bool.toNat_true]
    omega

/-- A component handles a message: that is one less, or all it had to do. -/
theorem Closing.listen (hp : p.Wired) (h : Closing p cs x) (sid : SubscriberID)
    (hstopped : Stopped p cs (x.listen cs sid)) :
    Closing p cs (x.listen cs sid) ∧
      p.work (x.listen cs sid) + (x.moves (.thread (.listen sid))).toNat ≤ p.work x := by
  have hinv := h.stopped.inv
  rcases hinv.listen_cases hp sid with ⟨hmoves, hwait⟩ | ⟨c, r, rest, hc, rfl, hmoves, hlisten, hin, hl⟩
  · rw [hwait, hmoves]
    exact ⟨h, Nat.le_refl _⟩
  have hawaited : ∀ l, (x.listen cs c.id).awaited l = x.awaited l :=
    fun l => awaited_congr fun k _ => isLast_listened hl k
  have hne : p.broker.inMailBox ≠ c.inMailBox := by
    intro hq
    exact Nat.lt_irrefl _ (hp.addressed.after c.id _ (hq ▸ hp.mailbox_of_isComponent hc))
  have hqueue : (x.listen cs c.id).post.queue p.broker.inMailBox =
      x.post.queue p.broker.inMailBox := by
    rw [hl.queue, Function.update_of_ne hne]
  refine ⟨⟨hstopped, fun hrun => ?_⟩, ?_⟩
  · rw [hl.isRunning] at hrun
    obtain ⟨k, hk, hlast⟩ := h.coming hrun
    exact ⟨k, hqueue ▸ hk, (isLast_listened hl k).mpr hlast⟩
  · have hroute : p.toRoute (x.listen cs c.id) = p.toRoute x := by
      unfold toRoute
      rw [hl.isRunning, hqueue, hawaited]
    have hother : ∀ c', p.IsComponent c' → c'.id ≠ c.id →
        left (x.listen cs c.id) c' = left x c' := by
      intro c' hc' hid
      have hq : c'.inMailBox ≠ c.inMailBox := by
        rcases component_eq hp hc' hc with ⟨rfl, -⟩ | ⟨-, hq⟩
        · exact absurd rfl hid
        · exact hq
      unfold left
      rw [hl.others c'.id hid, hl.queue, Function.update_of_ne hq, hawaited]
    have hself : left (x.listen cs c.id) c + 1 ≤ left x c := by
      have hheard := hinv.heard c.id _ r (hp.mailbox_of_isComponent hc) (hin ▸ List.mem_cons_self)
      obtain ⟨callback, hcallback⟩ := Option.isSome_iff_exists.mp hheard
      have hstops := (hl.called r callback rfl hcallback).2
      unfold left
      rw [if_pos hlisten, hin, awaited, hl.queue, Function.update_self, hawaited]
      by_cases hlast : x.IsLast (some r)
      · obtain ⟨_, ⟨⟩, hterm⟩ := id hlast
        rw [if_pos hlast, hstops.mpr (.inr (.inr (.inl hterm)))]
        exact Nat.le_refl _
      · rw [if_neg hlast]
        split <;> omega
    unfold work
    rw [hroute, hmoves, Bool.toNat_true]
    rcases hc with rfl | rfl
    · rw [hother p.app (.inr rfl) hp.distinct]
      omega
    · rw [hother p.discovery (.inl rfl) hp.distinct.symm]
      omega

theorem Closing.step (hp : p.Wired) {onDiscovery onApp : BVEventType → Option α → BVStatus}
    (h : Closing p (p.callbacks onDiscovery onApp) x) (a : ProgramAction α) :
    Closing p (p.callbacks onDiscovery onApp) (p.step (p.callbacks onDiscovery onApp) x a) ∧
      p.work (p.step (p.callbacks onDiscovery onApp) x a) + (x.moves a).toNat ≤
        p.work x + adds a := by
  have hstopped := h.stopped.step hp a
  cases a with
  | thread a =>
    cases a with
    | send m =>
      obtain ⟨hclosing, hwork⟩ := h.send hp hstopped
      exact ⟨hclosing, Nat.le_of_eq hwork⟩
    | broker => exact h.turn hp hstopped
    | listen sid => exact h.listen hp sid hstopped
  | put m hm => exact h.put hp hstopped

/-- Where no thread in its loop has a message, they have all returned. -/
theorem Closing.ended (hp : p.Wired) (h : Closing p cs x)
    (hbroker : x.moves (.thread .broker) = false)
    (hcomponent : ∀ c, p.IsComponent c → x.moves (.thread (.listen c.id)) = false) :
    x.post.isRunning = false ∧ ∀ c, p.IsComponent c → x.listening c.id = false := by
  have hrun : x.post.isRunning = false := by
    by_contra hrun
    rw [Bool.not_eq_false] at hrun
    obtain ⟨k, hk, -⟩ := h.coming hrun
    have hmoves := hbroker
    unfold moves at hmoves
    rw [hrun, h.stopped.inv.broker] at hmoves
    cases hin : x.post.queue p.broker.inMailBox with
    | nil =>
      rw [hin] at hk
      cases hk
    | cons m ms => simp [hin] at hmoves
  refine ⟨hrun, fun c hc => ?_⟩
  by_contra hlisten
  rw [Bool.not_eq_false] at hlisten
  obtain ⟨k, hk, -⟩ := h.stopped.last hrun c hc hlisten
  have hmoves := hcomponent c hc
  unfold moves at hmoves
  dsimp only at hmoves
  rw [hlisten, h.stopped.inv.broker, hp.mailbox_of_isComponent hc] at hmoves
  cases hin : x.post.queue c.inMailBox with
  | nil =>
    rw [hin] at hk
    cases hk
  | cons m ms => simp [hin] at hmoves

theorem closing_sent (h : Stopped p cs (x.send ⟨.terminateAll, none⟩)) (hb : x.post.broker = p.broker) :
    Closing p cs (x.send ⟨.terminateAll, none⟩) where
  stopped := h
  coming _ := by
    refine ⟨some x.created, ?_, x.created, rfl, ?_⟩
    · rw [send_eq, hb, put_queue, if_pos rfl]
      exact List.mem_append_right _ (List.mem_singleton_self _)
    · have hnew : (x.send ⟨.terminateAll, none⟩).post.message x.created = ⟨.terminateAll, none⟩ :=
        Function.update_self _ _ _
      rw [hnew]

end Program

end LocalChat
