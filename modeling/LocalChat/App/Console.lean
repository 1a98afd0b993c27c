import LocalChat.App.Basic
import LocalChat.Broker.Basic

/-!
# The console

The user interface of `BVApp_ConsoleClient`.  Keys and the closures that the mailbox thread posts
run one at a time on the io thread, so a run of the console is a list of `Task`s in the order in
which they are executed.  What they do to the outside is kept in `log`; drawing is left out.

There is one slot for a pending offer and one for the state to return to.  `coherent_along_iff` says
exactly when this is enough: no offer may come up while another one waits for its answer.
-/

namespace LocalChat

/-! ### Keys -/

inductive BVConsoleActionType
  | reprint
  | sendmsg
  | pauseDiscovery
  | resumeDiscovery
  | quit
  | blockhost
  deriving DecidableEq, Repr

structure ParsingResult where
  type : BVConsoleActionType
  num : Option Nat
  deriving DecidableEq, Repr

/-- `std::tolower` in the C locale. -/
def tolower (c : UInt8) : UInt8 := if 65 ≤ c ∧ c ≤ 90 then c + 32 else c

def parseConsoleActionFromKey (key : UInt8) : Option ParsingResult :=
  -- 'd', 'p', 'r', 'q', 'b' and the digits
  if tolower key = 100 then some ⟨.reprint, none⟩
  else if tolower key = 112 then some ⟨.pauseDiscovery, none⟩
  else if tolower key = 114 then some ⟨.resumeDiscovery, none⟩
  else if tolower key = 113 then some ⟨.quit, none⟩
  else if tolower key = 98 then some ⟨.blockhost, none⟩
  else if 48 ≤ key ∧ key ≤ 57 then some ⟨.sendmsg, some (key.toNat - 48)⟩
  else none

/-! ### State -/

inductive ConsoleEffect
  /-- the closure of `HandleFileOffer` puts an offer up -/
  | offer (offer : PendingOffer)
  | respondToFileOffer (serviceName : Bytes) (correlationKey : UInt32) (accept : Bool)
  | sendChatLine (serviceName line : Bytes)
  | sendMessage (event : BVEventType)
  deriving DecidableEq

structure Console where
  app : App
  activeChatService : Bytes
  inputLine : Bytes
  lastNotification : Bytes
  isRunning : Bool
  log : List ConsoleEffect

/-- What the io thread executes for the console. -/
inductive Task
  /-- the closure `HandleFileOffer` posts -/
  | fileOffer (res : BVTCPFileData)
  /-- the closure `HandleMessageIncoming` posts -/
  | messageIncoming (sender textData : Bytes)
  /-- a key, and the names of the sessions in display order at that moment -/
  | key (c : UInt8) (sessionNames : List Bytes)

namespace Console

/-- `Run` starts in the main menu. -/
def start (rootdir : Bytes) (files : Files) : Console where
  app := .start rootdir files
  activeChatService := []
  inputLine := []
  lastNotification := []
  isRunning := true
  log := []

def emit (c : Console) (e : ConsoleEffect) : Console := { c with log := c.log ++ [e] }

/-! ### Handlers -/

def enterChat (selection : Nat) (sessionNames : List Bytes) (c : Console) : Console :=
  -- `selection - 1` is negative for 0
  if selection = 0 then c
  else
    match sessionNames[selection - 1]? with
    | none => c
    | some serviceName =>
      { c with
        activeChatService := serviceName
        app := { c.app with uiState := .chat }
        inputLine := []
        lastNotification := [] }

def handleMainMenuKey (key : UInt8) (sessionNames : List Bytes) (c : Console) : Console :=
  match parseConsoleActionFromKey key with
  | none => c
  | some action =>
    match action.type with
    | .reprint => c
    | .sendmsg =>
      match action.num with
      | none => c
      | some selection => c.enterChat selection sessionNames
    | .pauseDiscovery => c.emit (.sendMessage .discoveryRequestPause)
    | .resumeDiscovery => c.emit (.sendMessage .discoveryRequestResume)
    | .quit => { c.emit (.sendMessage .terminateAll) with isRunning := false }
    | .blockhost => c

def handleChatKey (key : UInt8) (c : Console) : Console :=
  -- '\n' and '\r'
  if key = 10 ∨ key = 13 then
    let line := c.inputLine
    let c := { c with inputLine := [] }
    -- "|q" and "|r"
    if line = [124, 113] then
      { c with app := { c.app with uiState := .mainMenu }, activeChatService := [] }
    else if line = [] ∨ line = [124, 114] then c
    else c.emit (.sendChatLine c.activeChatService line)
  -- delete and backspace
  else if key = 127 ∨ key = 8 then { c with inputLine := c.inputLine.dropLast }
  else if isprint key then { c with inputLine := c.inputLine ++ [key] }
  else c

/-- `HandleFileOfferKey`, with its call of `RespondToFileOffer`. -/
def handleFileOfferKey (key : UInt8) (c : Console) : Console :=
  match c.app.handleFileOfferKey key with
  | (none, app) => { c with app := app }
  | (some (offer, accept), app) =>
    { c with app := app }.emit (.respondToFileOffer offer.sender offer.key accept)

def onKey (key : UInt8) (sessionNames : List Bytes) (c : Console) : Console :=
  match c.app.uiState with
  | .fileOffer => c.handleFileOfferKey key
  | .chat => c.handleChatKey key
  | .mainMenu => c.handleMainMenuKey key sessionNames

def showOffer (res : BVTCPFileData) (c : Console) : Console :=
  let app := (c.app.handleFileOffer res).2
  { c with app := app, log := c.log ++ app.pendingOffer.toList.map .offer }

def showMessage (sender textData : Bytes) (c : Console) : Console :=
  if c.app.uiState = .chat ∧ c.activeChatService = sender then { c with lastNotification := [] }
  else
    { c with lastNotification :=
        -- "New message from " and ": "
        [78, 101, 119, 32, 109, 101, 115, 115, 97, 103, 101, 32, 102, 114, 111, 109, 32] ++
          sender ++ [58, 32] ++ textData }

/-- One task.  After the quit key the io context is stopped and runs none. -/
def step (c : Console) (t : Task) : Console :=
  if c.isRunning then
    match t with
    | .fileOffer res => c.showOffer res
    | .messageIncoming sender textData => c.showMessage sender textData
    | .key key sessionNames => c.onKey key sessionNames
  else c

/-! ### The invariant -/

def shown (log : List ConsoleEffect) : List (Bytes × UInt32) :=
  log.filterMap fun
    | .offer offer => some (offer.sender, offer.key)
    | _ => none

/-- The offers that were answered, one for each call of `RespondToFileOffer`. -/
def answered (log : List ConsoleEffect) : List (Bytes × UInt32) :=
  log.filterMap fun
    | .respondToFileOffer serviceName correlationKey _ => some (serviceName, correlationKey)
    | _ => none

/-- The prompt is shown exactly while an offer is pending, the state to return to is another one,
and every offer that was put up has been answered once or is the pending one.  Then a key that comes
when all are answered goes to the main menu or to the chat. -/
structure Coherent (c : Console) : Prop where
  prompt : c.app.uiState = .fileOffer ↔ c.app.pendingOffer ≠ none
  prior : c.app.priorUiState ≠ .fileOffer
  settled : shown c.log =
    answered c.log ++ c.app.pendingOffer.toList.map fun offer => (offer.sender, offer.key)
  next : c.app.pendingOffer = none → c.app.uiState = .mainMenu ∨ c.app.uiState = .chat

/-- No offer comes up while the prompt is shown. -/
def Undisturbed (c : Console) : Task → Prop
  | .fileOffer _ => c.isRunning → c.app.uiState ≠ .fileOffer
  | _ => True

variable {c : Console}

theorem Coherent.of {c : Console} (hprompt : c.app.uiState = .fileOffer ↔ c.app.pendingOffer ≠ none)
    (hprior : c.app.priorUiState ≠ .fileOffer)
    (hsettled : shown c.log =
      answered c.log ++ c.app.pendingOffer.toList.map fun offer => (offer.sender, offer.key)) :
    c.Coherent := by
  refine ⟨hprompt, hprior, hsettled, fun hnone => ?_⟩
  have hne : c.app.uiState ≠ .fileOffer := fun h => hprompt.mp h hnone
  cases hui : c.app.uiState with
  | mainMenu => exact .inl rfl
  | chat => exact .inr rfl
  | fileOffer => exact absurd hui hne

/-- `c'` is `c` after something that has to do with no offer. -/
structure Quiet (c c' : Console) : Prop where
  pendingOffer : c'.app.pendingOffer = c.app.pendingOffer
  priorUiState : c'.app.priorUiState = c.app.priorUiState
  shown : shown c'.log = shown c.log
  answered : answered c'.log = answered c.log
  uiState : c.app.uiState ≠ .fileOffer → c'.app.uiState ≠ .fileOffer

theorem Quiet.refl (c : Console) : Quiet c c := ⟨rfl, rfl, rfl, rfl, id⟩

theorem Quiet.emit {c' : Console} (h : Quiet c c') {e : ConsoleEffect}
    (hshown : Console.shown [e] = []) (hanswered : Console.answered [e] = []) :
    Quiet c (c'.emit e) := by
  refine ⟨h.pendingOffer, h.priorUiState, ?_, ?_, h.uiState⟩
  · rw [← h.shown, Console.emit, Console.shown, List.filterMap_append]
    exact (congrArg (_ ++ ·) hshown).trans (List.append_nil _)
  · rw [← h.answered, Console.emit, Console.answered, List.filterMap_append]
    exact (congrArg (_ ++ ·) hanswered).trans (List.append_nil _)

theorem quiet_enterChat (selection : Nat) (sessionNames : List Bytes) (c : Console) :
    Quiet c (c.enterChat selection sessionNames) := by
  rw [enterChat]
  split
  · exact .refl c
  · split
    · exact .refl c
    · exact ⟨rfl, rfl, rfl, rfl, fun _ => by simp⟩

theorem quiet_handleMainMenuKey (key : UInt8) (sessionNames : List Bytes) (c : Console) :
    Quiet c (c.handleMainMenuKey key sessionNames) := by
  rw [handleMainMenuKey]
  split
  · exact .refl c
  · next action _ =>
    cases action.type with
    | reprint => exact .refl c
    | sendmsg =>
      cases action.num with
      | none => exact .refl c
      | some selection => exact quiet_enterChat selection sessionNames c
    | pauseDiscovery => exact (Quiet.refl c).emit rfl rfl
    | resumeDiscovery => exact (Quiet.refl c).emit rfl rfl
    | quit =>
      have h := (Quiet.refl c).emit (e := .sendMessage .terminateAll) rfl rfl
      exact ⟨h.pendingOffer, h.priorUiState, h.shown, h.answered, h.uiState⟩
    | blockhost => exact .refl c

theorem quiet_handleChatKey (key : UInt8) (c : Console) : Quiet c (c.handleChatKey key) := by
  have hquiet : Quiet c { c with inputLine := [] } := ⟨rfl, rfl, rfl, rfl, id⟩
  rw [handleChatKey]
  split
  · dsimp only
    split
    · exact ⟨rfl, rfl, rfl, rfl, fun _ => by simp⟩
    · split
      · exact hquiet
      · exact hquiet.emit rfl rfl
  · split
    · exact ⟨rfl, rfl, rfl, rfl, id⟩
    · split
      · exact ⟨rfl, rfl, rfl, rfl, id⟩
      · exact .refl c

/-- Where no prompt is shown, what has to do with no offer keeps the console coherent. -/
theorem Coherent.quiet {c' : Console} (h : c.Coherent) (hq : Quiet c c')
    (hui : c.app.uiState ≠ .fileOffer) : c'.Coherent := by
  have hnone : c.app.pendingOffer = none := not_not.mp fun hne => hui (h.prompt.mpr hne)
  refine .of ?_ (hq.priorUiState ▸ h.prior) ?_
  · rw [hq.pendingOffer, hnone]
    simpa using hq.uiState hui
  · rw [hq.shown, hq.answered, hq.pendingOffer]
    exact h.settled

/-! ### One task -/

/-- A key at the prompt: any but the four that answer is ignored, and an answer leads back to where
the offer has come up. -/
theorem Coherent.handleFileOfferKey (h : c.Coherent) (hui : c.app.uiState = .fileOffer)
    (key : UInt8) : (c.handleFileOfferKey key).Coherent := by
  obtain ⟨offer, hoffer⟩ := Option.ne_none_iff_exists'.mp (h.prompt.mp hui)
  -- both answers settle the pending offer
  have hanswer : ∀ accept, Coherent ({ c with app := { c.app with
      pendingOffer := none, uiState := c.app.priorUiState } }.emit
        (.respondToFileOffer offer.sender offer.key accept)) := by
    intro accept
    refine .of ?_ h.prior ?_
    · simpa [emit] using h.prior
    · have hsettled := h.settled
      rw [hoffer] at hsettled
      simp only [emit, shown, answered, List.filterMap_append, List.filterMap_cons,
        List.filterMap_nil, List.append_nil, Option.toList_some, Option.toList_none,
        List.map_cons, List.map_nil] at hsettled ⊢
      exact hsettled
  simp only [Console.handleFileOfferKey, App.handleFileOfferKey, hoffer]
  by_cases hyes : key = 121 ∨ key = 89
  · simpa only [hyes, if_true] using hanswer true
  · by_cases hno : key = 110 ∨ key = 78
    · simpa only [hyes, hno, if_true, if_false] using hanswer false
    · simpa only [hyes, hno, if_false] using h

theorem Coherent.onKey (h : c.Coherent) (key : UInt8) (sessionNames : List Bytes) :
    (c.onKey key sessionNames).Coherent := by
  rw [Console.onKey]
  cases hui : c.app.uiState with
  | fileOffer => exact h.handleFileOfferKey hui key
  | chat => exact h.quiet (quiet_handleChatKey key c) (by rw [hui]; decide)
  | mainMenu => exact h.quiet (quiet_handleMainMenuKey key sessionNames c) (by rw [hui]; decide)

theorem Coherent.showMessage (h : c.Coherent) (sender textData : Bytes) :
    (c.showMessage sender textData).Coherent := by
  rw [Console.showMessage]
  split <;> exact ⟨h.prompt, h.prior, h.settled, h.next⟩

theorem Coherent.showOffer (h : c.Coherent) (hui : c.app.uiState ≠ .fileOffer)
    (res : BVTCPFileData) : (c.showOffer res).Coherent := by
  have hnone : c.app.pendingOffer = none := not_not.mp fun hne => hui (h.prompt.mpr hne)
  refine .of ?_ hui ?_
  · simp [Console.showOffer, App.handleFileOffer]
  · have hsettled := h.settled
    rw [hnone] at hsettled
    simp only [Console.showOffer, App.handleFileOffer, shown, answered, List.filterMap_append,
      Option.toList_some, List.map_cons, List.map_nil, List.filterMap_cons, List.filterMap_nil,
      List.append_nil, Option.toList_none] at hsettled ⊢
    rw [hsettled]

/-- A second offer makes the prompt the state to return to. -/
theorem not_coherent_showOffer (hui : c.app.uiState = .fileOffer) (res : BVTCPFileData) :
    ¬ (c.showOffer res).Coherent :=
  fun h => h.prior hui

theorem step_coherent_iff (h : c.Coherent) (t : Task) : (c.step t).Coherent ↔ c.Undisturbed t := by
  by_cases hrun : c.isRunning = true
  · cases t with
    | fileOffer res =>
      rw [step, if_pos hrun]
      constructor
      · intro hcoh _ hui
        exact not_coherent_showOffer hui res hcoh
      · intro hok
        exact h.showOffer (hok hrun) res
    | messageIncoming sender textData =>
      rw [step, if_pos hrun]
      exact iff_of_true (h.showMessage sender textData) trivial
    | key key sessionNames =>
      rw [step, if_pos hrun]
      exact iff_of_true (h.onKey key sessionNames) trivial
  · have hstep : c.step t = c := if_neg hrun
    rw [hstep]
    refine iff_of_true h ?_
    cases t with
    | fileOffer res => exact fun hrun' => absurd hrun' hrun
    | messageIncoming sender textData => trivial
    | key key sessionNames => trivial

theorem start_coherent (rootdir : Bytes) (files : Files) : (start rootdir files).Coherent :=
  .of (by simp [start, App.start]) (by simp [start, App.start]) rfl

/-- **The console's states.**  From the main menu on, the console is coherent after every task of a
run exactly when no offer comes up while another one is pending. -/
theorem coherent_along_iff (rootdir : Bytes) (files : Files) (tasks : List Task) :
    (∀ p, p <+: tasks → (Runs.run step (start rootdir files) p).Coherent) ↔
      Runs.Meets step Undisturbed (start rootdir files) tasks :=
  Runs.forall_prefix_iff_meets (I := Coherent) (P := Coherent) (fun _ h => h)
    (fun _ t h hok => (step_coherent_iff h t).mpr hok) (fun _ t h => step_coherent_iff h t)
    (start_coherent rootdir files) tasks

/-- Two offers come up and `y` is pressed: the first offer is never answered, and the prompt stays
with nothing to answer, whatever is pressed. -/
theorem second_offer_incoherent :
    let c := Runs.run step (start [47] fun _ => none)
      [.fileOffer ⟨0, 0, 1, [97, 124, 120]⟩, .fileOffer ⟨7, 0, 1, [98, 124, 121]⟩, .key 121 []]
    ¬ c.Coherent ∧ shown c.log = [([97], 0), ([98], 7)] ∧ answered c.log = [([98], 7)] ∧
      c.app.pendingOffer = none ∧ c.app.uiState = .fileOffer ∧
      ∀ key names, c.onKey key names = c := by
  refine ⟨fun h => ?_, by decide, by decide, by decide, by decide, fun key names => rfl⟩
  exact h.prior (by decide)

end Console

end LocalChat
