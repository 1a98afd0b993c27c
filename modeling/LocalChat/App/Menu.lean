import LocalChat.App.Console
import LocalChat.Lib.Ranks
import LocalChat.Manager.Addressing

/-!
# Menu numbers

`PrintSessions` numbers the sessions in the order of their ids, and a digit key in the main menu
opens the chat with the session that has this number when the key comes.  In between, sessions come
and go without a redraw.  A `Menu` is the manager and the console with what `PrintSessions` printed
last.

`number_selects_iff`: a number on the screen stands for the service it was printed next to, in every
state of a run, exactly if no session comes in or goes away in front of a numbered one while the
main menu is up.  The manager does not see to this: ids are handed out when a connection is accepted
or dialled, and `accepted_first_listed_last` is a run where the older id is listed later.
-/

namespace LocalChat

/-! ### What is printed -/

structure SessionLine where
  menuNumber : Nat
  serviceName : Bytes
  sessionID : UInt16
  deriving DecidableEq, Repr

namespace BVTCPConnectionManager

def idsInOrder (m : BVTCPConnectionManager) : List UInt16 :=
  m.sessions.keys.insertionSort (· ≤ ·)

def getSessionServiceNamesInDisplayOrder (m : BVTCPConnectionManager) : List Bytes :=
  m.idsInOrder.filterMap m.peerOf

def printSessions (m : BVTCPConnectionManager) : List SessionLine :=
  (m.idsInOrder.zipIdx 1).filterMap fun (id, menuNumber) =>
    (m.sessions.lookup id).map fun r => ⟨menuNumber, m.nameOf r, (m.data r).sessionID⟩

/-- The number of sessions in front of an id. -/
def place (m : BVTCPConnectionManager) (id : UInt16) : Nat := Ranks.rank m.sessions.keys id

end BVTCPConnectionManager

namespace Console

/-- Whether a key in the main menu calls `PrintAll`: through `Render`, or through `EnterChat`. -/
def mainMenuKeyPrints (key : UInt8) (sessionNames : List Bytes) : Bool :=
  match parseConsoleActionFromKey key with
  | none => false
  | some action =>
    match action.type, action.num with
    | .reprint, _ => true
    | .sendmsg, some selection => 1 ≤ selection && selection ≤ sessionNames.length
    | _, _ => false

/-- Whether a key at the prompt does: `Render` is called for the state that was there before. -/
def fileOfferKeyPrints (key : UInt8) (c : Console) : Bool :=
  c.app.priorUiState ≠ .fileOffer &&
    (c.app.pendingOffer.isNone || key = 121 || key = 89 || key = 110 || key = 78)

def prints (c : Console) : Task → Bool
  -- `RenderFileOffer`
  | .fileOffer _ => false
  -- `RenderChat` or `Render`
  | .messageIncoming _ _ => c.app.uiState ≠ .fileOffer
  | .key key sessionNames =>
    match c.app.uiState with
    | .fileOffer => c.fileOfferKeyPrints key
    -- every line that was entered
    | .chat => key = 10 || key = 13
    | .mainMenu => mainMenuKeyPrints key sessionNames

end Console

/-! ### Steps -/

structure Menu where
  running : Running
  console : Console
  printed : List SessionLine

inductive MenuAction
  | manager (a : ManagerAction)
  /-- `PrintAll` at the end of `HandlePublishedServices` or `HandleServiceDeregistration` -/
  | printAll
  /-- the closure `HandleFileOffer` posts -/
  | fileOffer (res : BVTCPFileData)
  /-- the closure `HandleMessageIncoming` posts -/
  | messageIncoming (sender textData : Bytes)
  | key (c : UInt8)

namespace Menu

def start (thisMachine rootdir : Bytes) (files : Files) : Menu where
  running := .start thisMachine
  console := .start rootdir files
  printed := (Running.start thisMachine).manager.printSessions

def printAll (x : Menu) : Menu := { x with printed := x.running.manager.printSessions }

def execute (t : Task) (x : Menu) : Menu :=
  let next := { x with console := x.console.step t }
  if x.console.isRunning && x.console.prints t then next.printAll else next

def step (x : Menu) : MenuAction → Menu
  | .manager a => { x with running := x.running.step a }
  | .printAll => x.printAll
  | .fileOffer res => x.execute (.fileOffer res)
  | .messageIncoming sender textData => x.execute (.messageIncoming sender textData)
  | .key c => x.execute (.key c x.running.manager.getSessionServiceNamesInDisplayOrder)

def AtMenu (x : Menu) : Prop := x.console.isRunning = true ∧ x.console.app.uiState = .mainMenu

instance (x : Menu) : Decidable x.AtMenu :=
  inferInstanceAs (Decidable (x.console.isRunning = true ∧ x.console.app.uiState = .mainMenu))

/-- In the main menu, the key with a number on the screen opens the chat with the service that
stands next to it, if this service still has a session. -/
def NumberSelects (x : Menu) : Prop :=
  ∀ c, ∀ line ∈ x.printed, x.AtMenu →
    parseConsoleActionFromKey c = some ⟨.sendmsg, some line.menuNumber⟩ →
    x.running.manager.isSessionAlreadyPresent line.serviceName = true →
      (x.step (.key c)).console.app.uiState = .chat ∧
        (x.step (.key c)).console.activeChatService = line.serviceName

/-! ### The contract -/

/-- The lines that a key can select. -/
def keyed (x : Menu) : List SessionLine := x.printed.filter fun line => line.menuNumber ≤ 9

/-- No session behind an id stands on the screen with a number that a key can select. -/
def LastKeyed (x : Menu) (id : UInt16) : Prop :=
  ∀ line ∈ x.keyed, ∀ j ∈ x.running.manager.sessions.keys, id < j →
    x.running.manager.peerOf j ≠ some line.serviceName

/-- A session with a new id comes in behind the keyed ones, and one whose name is on the screen at
its number. -/
def ComesInPlace (x : Menu) (id : UInt16) (serviceName : Bytes) : Prop :=
  (id ∉ x.running.manager.sessions → x.LastKeyed id) ∧
    ∀ line ∈ x.keyed, line.serviceName = serviceName →
      line.menuNumber = x.running.manager.place id + 1

/-- The insertion the io thread is about to make. -/
def InsertsInPlace (x : Menu) : Prop :=
  match x.running.io with
  | .connected r =>
    x.ComesInPlace (x.running.manager.data r).sessionID (x.running.manager.nameOf r)
  | .identified serviceName r =>
    x.ComesInPlace (x.running.manager.data r).sessionID serviceName
  | _ => True

/-- While the main menu is up, sessions come in in place, and only one with no keyed session behind
it is removed. -/
def KeepsNumbers (x : Menu) : MenuAction → Prop
  | .manager .insert => x.AtMenu → x.InsertsInPlace
  | .manager (.removeSession serviceName) =>
    x.AtMenu → ∀ id, x.running.manager.serviceSessionid serviceName = some id →
      id ∈ x.running.manager.sessions → x.LastKeyed id
  | _ => True

end Menu

/-! ### Numbers are ranks -/

namespace BVTCPConnectionManager

variable {m m' : BVTCPConnectionManager} {id : UInt16} {serviceName : Bytes}

theorem mem_keys_of_peerOf (h : m.peerOf id = some serviceName) : id ∈ m.sessions.keys := by
  obtain ⟨r, hlist, -⟩ := peerOf_eq_some_iff.mp h
  exact AList.mem_keys.mp (AList.lookup_isSome.mp (hlist ▸ rfl))

theorem getElem?_idsInOrder_iff {k : Nat} :
    m.idsInOrder[k]? = some id ↔ id ∈ m.sessions.keys ∧ m.place id = k :=
  Ranks.getElem?_insertionSort_iff m.sessions.keys_nodup

theorem getElem?_names_iff {k : Nat} :
    m.getSessionServiceNamesInDisplayOrder[k]? = some serviceName ↔
      ∃ id, m.peerOf id = some serviceName ∧ m.place id = k := by
  have hsome : ∀ id ∈ m.idsInOrder, (m.peerOf id).isSome := by
    intro id hid
    have hmem := AList.mem_keys.mpr ((List.mem_insertionSort _).mp hid)
    rw [peerOf, Option.isSome_map]
    exact AList.lookup_isSome.mpr hmem
  rw [getSessionServiceNamesInDisplayOrder, Ranks.getElem?_filterMap hsome,
    Option.bind_eq_some_iff]
  constructor
  · rintro ⟨id, hid, hpeer⟩
    exact ⟨id, hpeer, (getElem?_idsInOrder_iff.mp hid).2⟩
  · rintro ⟨id, hpeer, hplace⟩
    exact ⟨id, getElem?_idsInOrder_iff.mpr ⟨mem_keys_of_peerOf hpeer, hplace⟩, hpeer⟩

theorem printSessions_spec {line : SessionLine} (h : line ∈ m.printSessions) :
    ∃ id, m.peerOf id = some line.serviceName ∧ line.menuNumber = m.place id + 1 := by
  obtain ⟨⟨id, k⟩, hid, hline⟩ := List.mem_filterMap.mp h
  obtain ⟨hk, hget⟩ := List.mk_mem_zipIdx_iff_le_and_getElem?_sub.mp hid
  obtain ⟨r, hlist, rfl⟩ := Option.map_eq_some_iff.mp hline
  have hplace := (getElem?_idsInOrder_iff.mp hget).2
  exact ⟨id, peerOf_eq_some_iff.mpr ⟨r, hlist, rfl⟩, by simp only; omega⟩

theorem OnePerPeer.peerOf (h : m.OnePerPeer) {i j : UInt16}
    (hi : m.peerOf i = some serviceName) (hj : m.peerOf j = some serviceName) : i = j := by
  obtain ⟨r, hr, hname⟩ := peerOf_eq_some_iff.mp hi
  obtain ⟨q, hq, hname'⟩ := peerOf_eq_some_iff.mp hj
  exact h i j r q hr hq (hname.trans hname'.symm)

/-! What the operations on `sessions_m` do to the numbers. -/

theorem SameSessions.place (hs : m.SameSessions m') (id : UInt16) : m'.place id = m.place id := by
  rw [BVTCPConnectionManager.place, BVTCPConnectionManager.place, hs.sessions]

theorem Enters.place {r : SessionRef} (he : m.Enters r serviceName m') (j : UInt16) :
    m'.place j = m.place j +
      if (m.data r).sessionID ∉ m.sessions ∧ (m.data r).sessionID < j then 1 else 0 := by
  rw [BVTCPConnectionManager.place, he.sessions, AList.keys_insert, Ranks.rank_insert]
  simp only [BVTCPConnectionManager.place, AList.mem_keys]

theorem place_erase (m : BVTCPConnectionManager) (i j : UInt16)
    (service : Bytes → Option UInt16) :
    place { m with serviceSessionid := service, sessions := m.sessions.erase i } j =
      m.place j - if i ∈ m.sessions ∧ i < j then 1 else 0 := by
  rw [place, AList.keys_erase, Ranks.rank_erase]
  simp only [place, AList.mem_keys]

theorem peerOf_erase_iff {m : BVTCPConnectionManager} {i j : UInt16}
    {service : Bytes → Option UInt16} :
    peerOf { m with serviceSessionid := service, sessions := m.sessions.erase i } j =
      some serviceName ↔ j ≠ i ∧ m.peerOf j = some serviceName := by
  rcases eq_or_ne j i with rfl | hne
  · simp [peerOf]
  · simp only [peerOf, AList.lookup_erase_ne hne, ne_eq, hne, not_false_eq_true, true_and]
    rfl

end BVTCPConnectionManager

/-! ### Keys -/

theorem le_nine_of_parse {c : UInt8} {k : Nat}
    (h : parseConsoleActionFromKey c = some ⟨.sendmsg, some k⟩) : k ≤ 9 := by
  simp only [parseConsoleActionFromKey] at h
  repeat' split at h
  all_goals simp only [reduceCtorEq, Option.some.injEq, ParsingResult.mk.injEq, true_and,
    false_and] at h
  next hdigit =>
  have hle : c.toNat ≤ 57 := hdigit.2
  omega

theorem exists_key {k : Nat} (h : k ≤ 9) :
    ∃ c, parseConsoleActionFromKey c = some ⟨.sendmsg, some k⟩ := by
  have hkeys : ∀ k : Fin 10, parseConsoleActionFromKey (UInt8.ofNat (48 + k)) =
      some ⟨.sendmsg, some k⟩ := by decide
  exact ⟨_, hkeys ⟨k, Nat.lt_succ_of_le h⟩⟩

namespace Console

variable {c : Console}

theorem uiState_handleChatKey {key : UInt8} (h : ¬ (key = 10 ∨ key = 13)) :
    (c.handleChatKey key).app.uiState = c.app.uiState := by
  simp only [handleChatKey, if_neg h]
  split
  · rfl
  · split
    · rfl
    · rfl

/-- A key at the prompt is ignored, or `Render` is called for the state that was there before. -/
theorem handleFileOfferKey_cases (key : UInt8) (c : Console) :
    c.handleFileOfferKey key = c ∨
      (c.handleFileOfferKey key).app.uiState = c.app.priorUiState ∧
        (c.app.pendingOffer.isNone || key = 121 || key = 89 || key = 110 || key = 78) = true := by
  cases hoffer : c.app.pendingOffer with
  | none =>
    refine .inr ⟨?_, rfl⟩
    simp [handleFileOfferKey, App.handleFileOfferKey, hoffer]
  | some offer =>
    by_cases hyes : key = 121 ∨ key = 89
    · refine .inr ⟨?_, ?_⟩
      · simp [handleFileOfferKey, App.handleFileOfferKey, hoffer, hyes, emit]
      · rcases hyes with rfl | rfl <;> simp
    · by_cases hno : key = 110 ∨ key = 78
      · refine .inr ⟨?_, ?_⟩
        · simp [handleFileOfferKey, App.handleFileOfferKey, hoffer, hyes, hno, emit]
        · rcases hno with rfl | rfl <;> simp
      · refine .inl ?_
        simp [handleFileOfferKey, App.handleFileOfferKey, hoffer, hyes, hno]

/-- Only a task that prints the sessions leads to the main menu from another screen. -/
theorem prints_of_mainMenu (hrun : c.isRunning = true) (t : Task)
    (hmenu : (c.step t).app.uiState = .mainMenu) :
    c.app.uiState = .mainMenu ∨ c.prints t = true := by
  cases t with
  | fileOffer res => simp [step, hrun, showOffer, App.handleFileOffer] at hmenu
  | messageIncoming sender textData =>
    refine .inl ?_
    rw [← hmenu]
    simp only [step, hrun, if_true, showMessage]
    split
    · rfl
    · rfl
  | key key sessionNames =>
    simp only [step, hrun, if_true, onKey] at hmenu
    cases hui : c.app.uiState with
    | mainMenu => exact .inl rfl
    | chat =>
      refine .inr ?_
      rw [hui] at hmenu
      by_contra hno
      simp only [prints, hui, Bool.or_eq_true, decide_eq_true_eq] at hno
      rw [uiState_handleChatKey hno, hui] at hmenu
      cases hmenu
    | fileOffer =>
      refine .inr ?_
      rw [hui] at hmenu
      obtain hsame | ⟨hprior, hanswer⟩ := handleFileOfferKey_cases key c
      · rw [hsame, hui] at hmenu
        cases hmenu
      · rw [hprior] at hmenu
        simp only [prints, hui, fileOfferKeyPrints, hanswer, Bool.and_true, hmenu]
        decide

theorem step_digit (hrun : c.isRunning = true) (hmenu : c.app.uiState = .mainMenu) {key : UInt8}
    {k : Nat} (hkey : parseConsoleActionFromKey key = some ⟨.sendmsg, some k⟩)
    (sessionNames : List Bytes) :
    c.step (.key key sessionNames) = c.enterChat k sessionNames := by
  simp only [step, hrun, if_true, onKey, hmenu, handleMainMenuKey, hkey]

/-- From the main menu, a number opens the chat with the name at its place and no other. -/
theorem enterChat_iff (hmenu : c.app.uiState = .mainMenu) {k : Nat} {sessionNames : List Bytes}
    {serviceName : Bytes} :
    (c.enterChat k sessionNames).app.uiState = .chat ∧
        (c.enterChat k sessionNames).activeChatService = serviceName ↔
      0 < k ∧ sessionNames[k - 1]? = some serviceName := by
  rw [enterChat]
  rcases Nat.eq_zero_or_pos k with rfl | hpos
  · simp [hmenu]
  · rw [if_neg hpos.ne']
    cases hget : sessionNames[k - 1]? with
    | none => simp [hmenu]
    | some n => simp [hpos]

end Console

/-! ### One step -/

namespace Menu

variable {x : Menu}

/-- Every service that is on the screen with a number a key can select, and has a session, has it at
this number. -/
def Aligned (x : Menu) : Prop :=
  ∀ line ∈ x.keyed, ∀ id, x.running.manager.peerOf id = some line.serviceName →
    line.menuNumber = x.running.manager.place id + 1

def FromOne (x : Menu) : Prop := ∀ line ∈ x.printed, 0 < line.menuNumber

theorem mem_keyed_iff {line : SessionLine} :
    line ∈ x.keyed ↔ line ∈ x.printed ∧ line.menuNumber ≤ 9 := by
  simp [keyed]

@[simp] theorem execute_running (t : Task) (x : Menu) : (x.execute t).running = x.running := by
  rw [execute]
  split
  · rfl
  · rfl

@[simp] theorem execute_console (t : Task) (x : Menu) :
    (x.execute t).console = x.console.step t := by
  rw [execute]
  split
  · rfl
  · rfl

theorem fromOne_printAll (x : Menu) : x.printAll.FromOne := by
  intro line hline
  obtain ⟨id, -, hnumber⟩ := BVTCPConnectionManager.printSessions_spec hline
  omega

/-- What has just been printed is in place. -/
theorem aligned_printAll (h : x.running.manager.OnePerPeer) : x.printAll.Aligned := by
  intro line hline id hpeer
  obtain ⟨id', hpeer', hnumber⟩ :=
    BVTCPConnectionManager.printSessions_spec (mem_keyed_iff.mp hline).1
  rw [hnumber, h.peerOf hpeer hpeer']
  rfl

theorem numberSelects_iff (h : x.running.manager.OnePerPeer) (hone : x.FromOne) :
    x.NumberSelects ↔ (x.AtMenu → x.Aligned) := by
  constructor
  · intro hselects hat line hline id hpeer
    obtain ⟨hprinted, hle⟩ := mem_keyed_iff.mp hline
    obtain ⟨c, hc⟩ := exists_key hle
    have hopen := hselects c line hprinted hat hc
      (BVTCPConnectionManager.present_iff_peerOf.mpr ⟨id, hpeer⟩)
    rw [step, execute_console, Console.step_digit hat.1 hat.2 hc,
      Console.enterChat_iff hat.2, BVTCPConnectionManager.getElem?_names_iff] at hopen
    obtain ⟨hpos, id', hpeer', hplace⟩ := hopen
    rw [h.peerOf hpeer hpeer']
    omega
  · intro haligned c line hline hat hc hpresent
    obtain ⟨id, hpeer⟩ := BVTCPConnectionManager.present_iff_peerOf.mp hpresent
    have hnumber :=
      haligned hat line (mem_keyed_iff.mpr ⟨hline, le_nine_of_parse hc⟩) id hpeer
    rw [step, execute_console, Console.step_digit hat.1 hat.2 hc,
      Console.enterChat_iff hat.2, BVTCPConnectionManager.getElem?_names_iff]
    exact ⟨hone line hline, id, hpeer, by omega⟩

/-! Sessions that come in, and sessions that go. -/

theorem aligned_of_same {x' : Menu} (h : x.running.manager.Listed)
    (hs : x.running.manager.SameSessions x'.running.manager) (hprinted : x'.printed = x.printed)
    (haligned : x.Aligned) : x'.Aligned := by
  intro line hline id hpeer
  rw [hs.peerOf h] at hpeer
  rw [hs.place]
  rw [keyed, hprinted] at hline
  exact haligned line hline id hpeer

theorem aligned_enter_iff {x' : Menu} {r : SessionRef} {serviceName : Bytes}
    (h : x.running.manager.Listed)
    (he : x.running.manager.Enters r serviceName x'.running.manager)
    (hprinted : x'.printed = x.printed) (haligned : x.Aligned) :
    x'.Aligned ↔ x.ComesInPlace (x.running.manager.data r).sessionID serviceName := by
  have hkeyed : x'.keyed = x.keyed := by rw [keyed, keyed, hprinted]
  have hself := he.place (x.running.manager.data r).sessionID
  rw [if_neg fun hlt => UInt16.lt_irrefl _ hlt.2] at hself
  constructor
  · intro haligned'
    refine ⟨fun hnew line hline j _ hlt hpeer => ?_, fun line hline hname => ?_⟩
    · -- the session behind the new one has moved by one
      have hpeer' := (he.peerOf_of_ne h (UInt16.ne_of_lt hlt).symm).trans hpeer
      have hnow := haligned' line (hkeyed ▸ hline) j hpeer'
      rw [he.place, if_pos ⟨hnew, hlt⟩, haligned line hline j hpeer] at hnow
      omega
    · have hnow := haligned' line (hkeyed ▸ hline) _ (hname ▸ he.peerOf_self)
      rwa [hself] at hnow
  · rintro ⟨hlast, hplace⟩ line hline j hpeer
    rw [hkeyed] at hline
    rcases eq_or_ne j (x.running.manager.data r).sessionID with rfl | hne
    · rw [he.peerOf_self, Option.some.injEq] at hpeer
      rw [hself]
      exact hplace line hline hpeer.symm
    · rw [he.peerOf_of_ne h hne] at hpeer
      have hmem := BVTCPConnectionManager.mem_keys_of_peerOf hpeer
      rw [he.place, if_neg fun hlt => hlast hlt.1 line hline j hmem hlt.2 hpeer]
      exact haligned line hline j hpeer

theorem aligned_removeSession_iff {x' : Menu} {serviceName : Bytes}
    (hx' : x'.running.manager = (x.running.manager.removeSession serviceName).2)
    (hprinted : x'.printed = x.printed) (haligned : x.Aligned) :
    x'.Aligned ↔ ∀ id, x.running.manager.serviceSessionid serviceName = some id →
      id ∈ x.running.manager.sessions → x.LastKeyed id := by
  have hkeyed : x'.keyed = x.keyed := by rw [keyed, keyed, hprinted]
  obtain ⟨hnone, hsame⟩ | ⟨i, hi, hsome⟩ :=
    BVTCPConnectionManager.removeSession_cases serviceName x.running.manager
  · refine iff_of_true ?_ fun id hid => by rw [hnone] at hid; cases hid
    rw [Aligned, hkeyed, hx', hsame]
    exact haligned
  · rw [hsome] at hx'
    rw [Aligned, hkeyed, hx']
    constructor
    · rintro haligned' id hid hmem line hline j _ hlt hpeer
      rw [hi, Option.some.injEq] at hid
      subst hid
      have hnow := haligned' line hline j
        (BVTCPConnectionManager.peerOf_erase_iff.mpr ⟨(UInt16.ne_of_lt hlt).symm, hpeer⟩)
      rw [BVTCPConnectionManager.place_erase, if_pos ⟨hmem, hlt⟩, haligned line hline j hpeer]
        at hnow
      -- the removed session was in front
      have hpos : 0 < x.running.manager.place j :=
        List.countP_pos_iff.mpr ⟨i, AList.mem_keys.mp hmem, by simpa using hlt⟩
      omega
    · intro hlast line hline j hpeer
      rw [BVTCPConnectionManager.peerOf_erase_iff] at hpeer
      have hmem := BVTCPConnectionManager.mem_keys_of_peerOf hpeer.2
      rw [BVTCPConnectionManager.place_erase,
        if_neg fun hlt => hlast i hi hlt.1 line hline j hmem hlt.2 hpeer.2]
      exact haligned line hline j hpeer.2

theorem fromOne_step (h : x.FromOne) (a : MenuAction) : (x.step a).FromOne := by
  have hexecute : ∀ t, (x.execute t).FromOne := by
    intro t
    rw [execute]
    split
    · exact fromOne_printAll _
    · exact h
  cases a with
  | manager a => exact h
  | printAll => exact fromOne_printAll x
  | fileOffer res => exact hexecute _
  | messageIncoming sender textData => exact hexecute _
  | key c => exact hexecute _

theorem sound_step (h : x.running.Sound) (a : MenuAction) : (x.step a).running.Sound := by
  cases a with
  | manager a => exact Running.step_sound h a
  | printAll => exact h
  | fileOffer res => rwa [step, execute_running]
  | messageIncoming sender textData => rwa [step, execute_running]
  | key c => rwa [step, execute_running]

/-- A task that does not print leaves the numbers in place, and the main menu is up after it only if
it was before. -/
theorem aligned_execute (h : x.running.Sound) (haligned : x.AtMenu → x.Aligned) (t : Task)
    (hat : (x.execute t).AtMenu) : (x.execute t).Aligned := by
  rw [AtMenu, execute_console] at hat
  have hrun : x.console.isRunning = true := by
    by_contra hstopped
    rw [Console.step.eq_def, if_neg hstopped] at hat
    exact hstopped hat.1
  by_cases hprints : x.console.prints t = true
  · rw [execute, hrun, hprints]
    exact aligned_printAll h.listed.one
  · have hmenu := (Console.prints_of_mainMenu hrun t hat.2).resolve_right hprints
    rw [execute, if_neg (by simp [hprints])]
    exact haligned ⟨hrun, hmenu⟩

theorem aligned_insert_iff (h : x.running.Sound) (haligned : x.Aligned) :
    (x.step (.manager .insert)).Aligned ↔ x.InsertsInPlace := by
  have hpending := h.pending
  rw [Running.PendingAbsent] at hpending
  rw [InsertsInPlace]
  cases hat : x.running.io with
  | connected r =>
    rw [hat] at hpending
    refine aligned_enter_iff h.listed ?_ rfl haligned
    simpa only [step, Running.step, Running.insert, hat] using
      BVTCPConnectionManager.enters_connected r hpending.2
  | identified serviceName r =>
    rw [hat] at hpending
    refine aligned_enter_iff h.listed ?_ rfl haligned
    simpa only [step, Running.step, Running.insert, hat] using
      BVTCPConnectionManager.enters_identified r hpending.2
  | _ =>
    refine iff_of_true ?_ trivial
    simpa only [step, Running.step, Running.insert, hat] using haligned

/-- **One step.**  Where the numbers are right, they are right after a step exactly if it meets its
contract. -/
theorem aligned_step_iff (h : x.running.Sound) (haligned : x.AtMenu → x.Aligned)
    (a : MenuAction) : ((x.step a).AtMenu → (x.step a).Aligned) ↔ x.KeepsNumbers a := by
  cases a with
  | printAll => exact iff_of_true (fun _ => aligned_printAll h.listed.one) trivial
  | fileOffer res => exact iff_of_true (aligned_execute h haligned _) trivial
  | messageIncoming sender textData => exact iff_of_true (aligned_execute h haligned _) trivial
  | key c => exact iff_of_true (aligned_execute h haligned _) trivial
  | manager a =>
    -- the console does not move, so the main menu is up before the step as it is after it
    cases a with
    | insert => exact forall_congr' fun hat => aligned_insert_iff h (haligned hat)
    | removeSession serviceName =>
      exact forall_congr' fun hat => aligned_removeSession_iff rfl rfl (haligned hat)
    | _ =>
      refine iff_of_true (fun hat => ?_) trivial
      refine aligned_of_same h.listed ?_ rfl (haligned hat)
      exact Running.sameSessions_step h.listed (by simp) (by simp)

/-! ### Runs -/

/-- **A number selects what was printed next to it**, in every state of a run, exactly if every step
of the run meets its contract. -/
theorem number_selects_iff (thisMachine rootdir : Bytes) (files : Files)
    (as : List MenuAction) :
    (∀ p, p <+: as → (Runs.run step (start thisMachine rootdir files) p).NumberSelects) ↔
      Runs.Meets step KeepsNumbers (start thisMachine rootdir files) as := by
  have hsound := Running.sound_start thisMachine
  have hone : (start thisMachine rootdir files).FromOne :=
    fromOne_printAll (start thisMachine rootdir files)
  have hselects : (start thisMachine rootdir files).NumberSelects :=
    (numberSelects_iff hsound.listed.one hone).mpr fun _ =>
      aligned_printAll (x := start thisMachine rootdir files) hsound.listed.one
  refine Runs.forall_prefix_iff_meets
    (I := fun x : Menu => (x.running.Sound ∧ x.FromOne) ∧ x.NumberSelects)
    (fun _ h => h.2) ?_ ?_ ⟨⟨hsound, hone⟩, hselects⟩ as
  · rintro x a ⟨⟨hs, hf⟩, hn⟩ hok
    have hs' := sound_step hs a
    have hf' := fromOne_step hf a
    refine ⟨⟨hs', hf'⟩, (numberSelects_iff hs'.listed.one hf').mpr ?_⟩
    exact (aligned_step_iff hs ((numberSelects_iff hs.listed.one hf).mp hn) a).mpr hok
  · rintro x a ⟨⟨hs, hf⟩, hn⟩
    rw [numberSelects_iff (sound_step hs a).listed.one (fromOne_step hf a)]
    exact aligned_step_iff hs ((numberSelects_iff hs.listed.one hf).mp hn) a

/-- On "m", the socket that waits for a peer takes id 0 and the connection to "z" id 1.  The peer
connects, "z" is listed and printed as number 1, and only then the peer says its name "a": the key
'1' opens the chat with "a". -/
def acceptedFirst : List MenuAction :=
  [.manager (.initiateSessionWithNode [122]), .manager .dial, .manager (.acceptHandler 0),
    .manager (.connectHandler 1 false), .manager .insert, .printAll,
    .manager (.handleSessionIdentification [97] 0), .manager .insert]

theorem accepted_first_listed_last :
    ¬ (Runs.run step (start [109] [] fun _ => none) acceptedFirst).NumberSelects ∧
      (Runs.run step (start [109] [] fun _ => none)
        (acceptedFirst ++ [.key 49])).console.activeChatService = [97] := by
  refine ⟨fun h => ?_, by decide⟩
  have hopen := h 49 ⟨1, [122], 1⟩ (by decide) (by decide) (by decide) (by decide)
  exact absurd hopen.2 (by decide)

end Menu

end LocalChat
