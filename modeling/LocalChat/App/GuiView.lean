import LocalChat.App.ChatLog
import LocalChat.App.Gui
import LocalChat.App.GuiSaving
import LocalChat.App.Menu
import LocalChat.Lib.Notices
import LocalChat.Manager.Offers
import Mathlib.Data.List.DropRight

/-!
# What the GUI shows

`BVApp_GuiClient` changes its chat logs and its offers on the mailbox thread and on the io thread,
and calls `Notify` after each change.  The bridge turns a call into a block on the main queue, where
`ChatModel` reads the state again.  Between a change, its notice and the block anything else may
happen, on all three threads.

* `Board.Due` of a change: what the view has not seen yet is always on its way to it.
* `step_seen`: the step lemma of this.
* `view_settles`: the view never shows a message that is not in the log of the selected chat, nor
  an offer twice, and it comes to show all of them without any further event.

A status other than OK that a handler returns ends the mailbox thread with an exception; a run stops
there.  The line with the state of the file transfers is left out.
-/

namespace LocalChat

open Octets PosixPath Notices

inductive BVGuiEvent
  | servicesChanged
  | sessionsChanged
  | messagesChanged
  | fileProgress
  | fileOffered
  deriving DecidableEq, Repr

inductive MainTask
  /-- the bridge passes a notice on -/
  | event (e : BVGuiEvent)
  /-- the list of the peers selects one, after the update that has called it -/
  | select (peer : Bytes)
  deriving DecidableEq, Repr

/-- The threads that call `Notify`. -/
inductive GuiThread
  | mailbox
  | io
  deriving DecidableEq, Repr

structure BVMessageItem where
  text : Bytes
  sender : Bytes
  timestamp : UInt64
  deriving DecidableEq, Repr

/-- The published state of the view.  Its offers are the ones that `TakeFileOffers` has returned. -/
structure ChatModel where
  peers : List Bytes
  selectedPeer : Option Bytes
  messages : List BVMessageItem
  deriving DecidableEq, Repr

inductive PostedSend
  | sendText (serviceName text : Bytes)
  | sendFile (serviceName path : Bytes)
  deriving DecidableEq, Repr

structure GuiProgram where
  /-- the connection manager -/
  desk : FileDesk
  chat : ChatApp
  offers : GuiClient
  receiver : GuiReceiver
  posted : List PostedSend
  board : Board GuiThread MainTask
  model : ChatModel
  /-- what `HandleFileOffer` was called with -/
  arrived : List (SessionRef × BVTCPFileData)
  /-- all offers the user was asked about -/
  prompted : List (SessionRef × BVFileOffer)

inductive GuiMail
  | publishedServices
  | resolvedServices
  | serviceDeregistration
  /-- an event of a session, with what the operating system refuses meanwhile -/
  | session (session : SessionRef) (flt : Faults) (mv : MoveFaults) (e : AppEvent)

inductive GuiStep
  /-- the mailbox thread calls a handler -/
  | handle (mail : GuiMail)
  /-- the io thread runs the oldest closure of `SendText` and `SendFile` -/
  | runPosted (now : UInt64)
  /-- the io thread runs the oldest closure of `RespondToOffer` -/
  | runResponse
  /-- the other handlers of the io thread change the sessions and the transfers -/
  | network (desk : FileDesk)
  /-- a thread makes its next call of `Notify` -/
  | notify (thread : GuiThread)
  /-- the main thread runs the oldest block -/
  | dispatch
  /-- the timer fires -/
  | timer
  | pick (peer : Bytes)
  | send (text : Bytes)
  | sendFile (path : Bytes) (isRegularFile : Bool)
  | answer (i : Nat) (accept : Bool)
  | setSaveDirectory (dir : Bytes)

namespace GuiProgram

/-! ### Threads of the client -/

/-- `"📎 Received file: "`. -/
def receivedFile : Bytes :=
  [240, 159, 147, 142, 32, 82, 101, 99, 101, 105, 118, 101, 100, 32, 102, 105, 108, 101, 58, 32]

/-- `"📎 Sent file: "`. -/
def sentFile : Bytes := [240, 159, 147, 142, 32, 83, 101, 110, 116, 32, 102, 105, 108, 101, 58, 32]

def appendChatEntry (serviceName text sender : Bytes) (a : ChatApp) : ChatApp :=
  a.addMessage serviceName ⟨text, sender, 0⟩

/-- The calls of `Notify` that a thread still has to make. -/
def notifies (thread : GuiThread) (events : List BVGuiEvent) (g : GuiProgram) : GuiProgram :=
  { g with board := g.board.owe thread (events.map .event) }

def handleFileOffer (session : SessionRef) (d : BVTCPFileData) (g : GuiProgram) : GuiProgram :=
  { g with
    offers := g.offers.handleFileOffer session d
    arrived := g.arrived ++ [(session, d)] }

/-- `HandleFileTransferEnd`: a file of a known transfer goes into the chat. -/
def handleFileTransferEnd (flt : Faults) (mv : MoveFaults) (d : BVTCPFileData) (g : GuiProgram) :
    GuiProgram :=
  match g.receiver.handleFileTransferEnd flt mv d with
  | (_, none, receiver) => { g with receiver := receiver }
  | (_, some file, receiver) =>
    { g with
      receiver := receiver
      chat := appendChatEntry file.serviceName (receivedFile ++ file.fileName) file.serviceName
        g.chat }

/-- A handler of the mailbox thread, but for its calls of `Notify`. -/
def change (mail : GuiMail) (g : GuiProgram) : GuiProgram :=
  match mail with
  | .publishedServices => g
  | .resolvedServices => g
  | .serviceDeregistration => g
  | .session session flt mv e =>
    match e with
    | .messageIncoming text now sender =>
      { g with chat := g.chat.handleMessageIncoming ⟨text, sender, now⟩ }
    | .fileOffer d => g.handleFileOffer session d
    | .fileTransferBegin d =>
      { g with receiver := (g.receiver.handle flt mv (.fileTransferBegin d)).2.2 }
    | .fileTransferChunkSent d =>
      { g with receiver := (g.receiver.handle flt mv (.fileTransferChunkSent d)).2.2 }
    | .fileTransferEnd d => g.handleFileTransferEnd flt mv d

def noticesOf : GuiMail → List BVGuiEvent
  | .publishedServices => [.servicesChanged]
  | .resolvedServices => [.sessionsChanged]
  | .serviceDeregistration => [.servicesChanged]
  | .session _ _ _ e =>
    match e with
    | .messageIncoming _ _ _ => [.messagesChanged]
    | .fileOffer _ => [.fileOffered]
    | .fileTransferBegin _ => [.fileProgress]
    | .fileTransferChunkSent _ => [.fileProgress]
    | .fileTransferEnd _ => [.messagesChanged]

/-- The mailbox thread calls a handler when the one before has returned. -/
def handle (mail : GuiMail) (g : GuiProgram) : GuiProgram :=
  if g.board.owes .mailbox = [] then (g.change mail).notifies .mailbox (noticesOf mail) else g

/-- A closure of `SendText` or `SendFile`.  It calls `Notify` if there is a session to write to. -/
def runSend (now : UInt64) (p : PostedSend) (g : GuiProgram) : GuiProgram :=
  match p with
  | .sendText serviceName text =>
    match g.chat.sendText g.desk.manager now serviceName text with
    | (none, _) => g
    | (some _, chat) => { g with chat := chat }.notifies .io [.messagesChanged]
  | .sendFile serviceName path =>
    match g.desk.manager.getSessionIDFromServiceName serviceName with
    | none => g
    | some sid =>
      let desk := g.desk.initiateFileTransferWithSession sid path
      match g.desk.manager.sessions.lookup sid with
      | none => { g with desk := desk }
      | some _ =>
        let name := path.rtakeWhile (· ≠ sep)
        { g with
          desk := desk
          chat := appendChatEntry serviceName (sentFile ++ name) g.chat.hostname g.chat
          }.notifies .io [.messagesChanged, .fileProgress]

/-- The io thread runs a closure when the one before has returned. -/
def runPosted (now : UInt64) (g : GuiProgram) : GuiProgram :=
  if g.board.owes .io = [] then
    match g.posted with
    | [] => g
    | p :: rest => { g with posted := rest }.runSend now p
  else g

/-! ### The main thread -/

def messagesFor (serviceName : Bytes) (a : ChatApp) : List BVChatMessage :=
  (a.chatLogsM serviceName).getD []

variable (ns : Bytes → Bytes)

/-- The items the bridge makes of a log; `ns` is the conversion to `NSString`. -/
def messagesWith (peer : Bytes) (a : ChatApp) : List BVMessageItem :=
  (messagesFor (cstr peer) a).map fun m => ⟨ns m.textData, ns m.sender, m.timestamp⟩

/-- What a view that has just been refreshed shows. -/
def selectedMessages (g : GuiProgram) : List BVMessageItem :=
  match g.model.selectedPeer with
  | none => []
  | some peer => messagesWith ns peer g.chat

def refreshMessages (g : GuiProgram) : GuiProgram :=
  { g with model := { g.model with messages := g.selectedMessages ns } }

def connectedPeers (g : GuiProgram) : List Bytes :=
  g.desk.manager.getSessionServiceNamesInDisplayOrder.map ns

/-- `refreshPeers`: a selection that is no peer any more is dropped. -/
def refreshPeers (g : GuiProgram) : GuiProgram :=
  let peers := g.connectedPeers ns
  match g.model.selectedPeer with
  | none => { g with model := { g.model with peers := peers } }
  | some peer =>
    if peer ∈ peers then { g with model := { g.model with peers := peers } }
    else { g with model := { peers := peers, selectedPeer := none, messages := [] } }

def takeFileOffers (g : GuiProgram) : GuiProgram :=
  { g with
    offers := g.offers.takeFileOffers
    prompted := g.prompted ++ g.offers.pendingOffers }

def runTask (t : MainTask) (g : GuiProgram) : GuiProgram :=
  match t with
  | .event .servicesChanged => g.refreshPeers ns
  | .event .sessionsChanged => g.refreshPeers ns
  | .event .messagesChanged => g.refreshMessages ns
  | .event .fileProgress => g.refreshMessages ns
  | .event .fileOffered => g.takeFileOffers
  | .select peer =>
    { g with model := { g.model with selectedPeer := some peer } }.refreshMessages ns

def dispatch (g : GuiProgram) : GuiProgram :=
  match g.board.queue with
  | [] => g
  | t :: _ => { g with board := g.board.take }.runTask ns t

/-- `send`; `trimmed` is the text without blanks at its ends. -/
def send (trimmed : Bytes) (g : GuiProgram) : GuiProgram :=
  match g.model.selectedPeer with
  | none => g
  | some peer =>
    if trimmed = [] then g
    else
      { g with
        posted := g.posted ++ [PostedSend.sendText (cstr peer) (cstr trimmed)]
        }.refreshMessages ns

def sendFile (path : Bytes) (isRegularFile : Bool) (g : GuiProgram) : GuiProgram :=
  match g.model.selectedPeer with
  | none => g
  | some peer =>
    if isRegularFile then { g with posted := g.posted ++ [.sendFile (cstr peer) (cstr path)] }
    else g

def step (g : GuiProgram) : GuiStep → GuiProgram
  | .handle mail => g.handle mail
  | .runPosted now => g.runPosted now
  | .runResponse => { g with offers := g.offers.runPosted g.desk.manager }
  | .network desk => { g with desk := desk }
  | .notify thread => { g with board := g.board.post thread }
  | .dispatch => g.dispatch ns
  | .timer => g.refreshPeers ns
  | .pick peer => { g with board := g.board.push (.select peer) }
  | .send text => g.send ns text
  | .sendFile path isRegularFile => g.sendFile path isRegularFile
  | .answer i accept => { g with offers := g.offers.answer i accept }
  | .setSaveDirectory dir => { g with receiver := { g.receiver with saveDir := dir } }

def start (desk : FileDesk) (hostname rootdir saveDir : Bytes) (files : Files) : GuiProgram where
  desk := desk
  chat := ⟨hostname, fun _ => none⟩
  offers := .start
  receiver := ⟨.start rootdir files, saveDir⟩
  posted := []
  board := .empty
  model := ⟨[], none, []⟩
  arrived := []
  prompted := []

/-! ### What the view has seen -/

/-- The offer that `HandleFileOffer` makes of the data of a frame. -/
def offerOf (p : SessionRef × BVTCPFileData) : SessionRef × BVFileOffer :=
  (p.1, ⟨p.2.correlationKey, afterBar (cstr p.2.fdata), GuiClient.senderOf p.2,
    p.2.fsize.toUInt64⟩)

/-- The view shows the beginning of the selected chat, and a notice is due if there is more. -/
def MessagesSeen (g : GuiProgram) : Prop :=
  g.model.messages <+: g.selectedMessages ns ∧
    (g.model.messages = g.selectedMessages ns ∨ g.board.Due (.event .messagesChanged))

/-- The user is asked about each offer once, and a notice is due if any are left. -/
def OffersSeen (g : GuiProgram) : Prop :=
  g.arrived.map offerOf = g.prompted ++ g.offers.pendingOffers ∧
    (g.offers.pendingOffers = [] ∨ g.board.Due (.event .fileOffered))

/-- What a step of another thread than the main thread does, as far as the view is concerned. -/
structure Later (g g' : GuiProgram) : Prop where
  model : g'.model = g.model
  prompted : g'.prompted = g.prompted
  due : ∀ e, g.board.Due e → g'.board.Due e
  /-- chats only grow, and with a notice -/
  grown : ∀ serviceName, messagesFor serviceName g.chat <+: messagesFor serviceName g'.chat
  told : g'.chat = g.chat ∨ g'.board.Due (.event .messagesChanged)
  /-- so do the offers -/
  offers : ∃ new, g'.arrived = g.arrived ++ new ∧
    g'.offers.pendingOffers = g.offers.pendingOffers ++ new.map offerOf ∧
      (new = [] ∨ g'.board.Due (.event .fileOffered))

variable {ns : Bytes → Bytes} {g g' : GuiProgram}

theorem Later.of_same (hmodel : g'.model = g.model) (hchat : g'.chat = g.chat)
    (hpending : g'.offers.pendingOffers = g.offers.pendingOffers)
    (harrived : g'.arrived = g.arrived) (hprompted : g'.prompted = g.prompted)
    (hdue : ∀ e, g.board.Due e → g'.board.Due e) : Later g g' where
  model := hmodel
  prompted := hprompted
  due := hdue
  grown := by
    intro serviceName
    exact hchat ▸ List.prefix_rfl
  told := .inl hchat
  offers := ⟨[], by simpa using harrived, by simpa using hpending, .inl rfl⟩

theorem MessagesSeen.later (h : g.MessagesSeen ns) (hlater : Later g g') : g'.MessagesSeen ns := by
  obtain ⟨hinitial, hdue⟩ := h
  have hselected : g.selectedMessages ns <+: g'.selectedMessages ns := by
    unfold selectedMessages
    rw [hlater.model]
    split
    · exact List.prefix_rfl
    · exact (hlater.grown _).map _
  refine ⟨?_, ?_⟩
  · rw [hlater.model]
    exact hinitial.trans hselected
  · obtain hchat | htold := hlater.told
    · obtain heq | hdue := hdue
      · left
        unfold selectedMessages at heq ⊢
        rw [hlater.model, hchat]
        exact heq
      · exact .inr (hlater.due _ hdue)
    · exact .inr htold

theorem OffersSeen.later (h : g.OffersSeen) (hlater : Later g g') : g'.OffersSeen := by
  obtain ⟨hall, hdue⟩ := h
  obtain ⟨new, harrived, hpending, hnew⟩ := hlater.offers
  refine ⟨?_, ?_⟩
  · rw [harrived, List.map_append, hall, hlater.prompted, hpending, List.append_assoc]
  · obtain rfl | hdue' := hnew
    · rw [hpending, List.map_nil, List.append_nil]
      exact hdue.imp_right (hlater.due _)
    · exact .inr hdue'

/-! ### Steps of the other threads -/

theorem messagesFor_addMessage (serviceName serviceName' : Bytes) (msg : BVChatMessage)
    (a : ChatApp) :
    messagesFor serviceName' a <+: messagesFor serviceName' (a.addMessage serviceName msg) := by
  by_cases h : serviceName' = serviceName
  · subst h
    simp [messagesFor, ChatApp.addMessage]
  · simp [messagesFor, ChatApp.addMessage, h]

theorem Later.of_addMessage {thread : GuiThread} {serviceName : Bytes} (msg : BVChatMessage)
    {es : List BVGuiEvent} (hmodel : g'.model = g.model)
    (hchat : g'.chat = g.chat.addMessage serviceName msg)
    (hpending : g'.offers.pendingOffers = g.offers.pendingOffers)
    (harrived : g'.arrived = g.arrived) (hprompted : g'.prompted = g.prompted)
    (hboard : g'.board = g.board.owe thread (es.map .event)) (hes : .messagesChanged ∈ es) :
    Later g g' where
  model := hmodel
  prompted := hprompted
  due := by
    intro e he
    rw [hboard]
    exact Board.due_owe.mpr (.inl he)
  grown := by
    intro name
    rw [hchat]
    exact messagesFor_addMessage _ _ _ _
  told := by
    right
    rw [hboard]
    exact Board.due_owe.mpr (.inr (List.mem_map_of_mem hes))
  offers := ⟨[], by simpa using harrived, by simpa using hpending, .inl rfl⟩

theorem due_notifies {thread : GuiThread} {es : List BVGuiEvent} {e : MainTask}
    (h : g.board.Due e) : (g.notifies thread es).board.Due e :=
  Board.due_owe.mpr (.inl h)

theorem later_fileOffer (session : SessionRef) (d : BVTCPFileData) (g : GuiProgram) :
    Later g ((g.handleFileOffer session d).notifies .mailbox [.fileOffered]) where
  model := rfl
  prompted := rfl
  due := fun _ he => due_notifies he
  grown := fun _ => List.prefix_rfl
  told := .inl rfl
  offers := ⟨[(session, d)], rfl, rfl, .inr (Board.due_owe.mpr (.inr (by simp)))⟩

theorem later_fileTransferEnd (flt : Faults) (mv : MoveFaults) (d : BVTCPFileData)
    (g : GuiProgram) :
    Later g ((g.handleFileTransferEnd flt mv d).notifies .mailbox [.messagesChanged]) := by
  unfold handleFileTransferEnd
  split
  · exact .of_same rfl rfl rfl rfl rfl fun _ he => due_notifies he
  · exact .of_addMessage _ rfl rfl rfl rfl rfl rfl (by simp)

theorem later_handle (mail : GuiMail) (g : GuiProgram) : Later g (g.handle mail) := by
  unfold handle
  split
  · cases mail with
    | publishedServices => exact .of_same rfl rfl rfl rfl rfl fun _ he => due_notifies he
    | resolvedServices => exact .of_same rfl rfl rfl rfl rfl fun _ he => due_notifies he
    | serviceDeregistration => exact .of_same rfl rfl rfl rfl rfl fun _ he => due_notifies he
    | session session flt mv e =>
      cases e with
      | messageIncoming text now sender =>
        exact .of_addMessage ⟨text, sender, now⟩ rfl rfl rfl rfl rfl rfl (List.mem_singleton_self _)
      | fileOffer d => exact later_fileOffer session d g
      | fileTransferBegin d => exact .of_same rfl rfl rfl rfl rfl fun _ he => due_notifies he
      | fileTransferChunkSent d => exact .of_same rfl rfl rfl rfl rfl fun _ he => due_notifies he
      | fileTransferEnd d => exact later_fileTransferEnd flt mv d g
  · exact .of_same rfl rfl rfl rfl rfl fun _ h => h

theorem later_runSend (now : UInt64) (p : PostedSend) (g : GuiProgram) :
    Later g (g.runSend now p) := by
  unfold runSend
  cases p with
  | sendText serviceName text =>
    show Later g (match g.chat.sendText g.desk.manager now serviceName text with
      | (none, _) => g
      | (some _, chat) => { g with chat := chat }.notifies .io [.messagesChanged])
    split
    · exact .of_same rfl rfl rfl rfl rfl fun _ h => h
    · next r chat hsend =>
      have hchat := (@ChatApp.send_spec .gui _ _ _ _ _ _ _ _ hsend).2
      exact .of_addMessage _ rfl hchat rfl rfl rfl rfl (by simp)
  | sendFile serviceName path =>
    dsimp only
    split
    · exact .of_same rfl rfl rfl rfl rfl fun _ h => h
    · split
      · exact .of_same rfl rfl rfl rfl rfl fun _ h => h
      · exact .of_addMessage _ rfl rfl rfl rfl rfl rfl (by simp)

theorem later_runPosted (now : UInt64) (g : GuiProgram) : Later g (g.runPosted now) := by
  unfold runPosted
  split
  · split
    · exact .of_same rfl rfl rfl rfl rfl fun _ h => h
    · next p rest _ =>
      obtain ⟨hmodel, hprompted, hdue, hgrown, htold, hoffers⟩ :=
        later_runSend now p { g with posted := rest }
      exact ⟨hmodel, hprompted, hdue, hgrown, htold, hoffers⟩
  · exact .of_same rfl rfl rfl rfl rfl fun _ h => h

theorem pendingOffers_runPosted (m : BVTCPConnectionManager) (c : GuiClient) :
    (c.runPosted m).pendingOffers = c.pendingOffers := by
  unfold GuiClient.runPosted GuiClient.respondToFileOffer
  split
  · rfl
  · dsimp only
    split <;> rfl

theorem pendingOffers_answer (i : Nat) (accept : Bool) (c : GuiClient) :
    (c.answer i accept).pendingOffers = c.pendingOffers := by
  unfold GuiClient.answer GuiClient.respondToOffer
  split
  · rfl
  · dsimp only
    split <;> rfl

/-! ### Blocks of the main thread -/

theorem MessagesSeen.take (h : g.MessagesSeen ns) {t : MainTask} {rest : List MainTask}
    (hqueue : g.board.queue = t :: rest) (ht : t ≠ .event .messagesChanged) :
    MessagesSeen ns { g with board := g.board.take } := by
  obtain ⟨hinitial, hdue⟩ := h
  refine ⟨hinitial, hdue.imp_right fun hdue => ?_⟩
  exact (Board.due_take hqueue hdue).resolve_left (Ne.symm ht)

theorem OffersSeen.take (h : g.OffersSeen) {t : MainTask} {rest : List MainTask}
    (hqueue : g.board.queue = t :: rest) (ht : t ≠ .event .fileOffered) :
    OffersSeen { g with board := g.board.take } := by
  obtain ⟨hall, hdue⟩ := h
  refine ⟨hall, hdue.imp_right fun hdue => ?_⟩
  exact (Board.due_take hqueue hdue).resolve_left (Ne.symm ht)

theorem messagesSeen_refresh (g : GuiProgram) : MessagesSeen ns (g.refreshMessages ns) :=
  ⟨List.prefix_rfl, .inl rfl⟩

/-- The selection stays if it is a peer, or nothing is selected and shown. -/
theorem refreshPeers_cases (ns : Bytes → Bytes) (g : GuiProgram) :
    (g.refreshPeers ns = { g with model := { g.model with peers := g.connectedPeers ns } } ∧
        ∀ peer, g.model.selectedPeer = some peer → peer ∈ g.connectedPeers ns) ∨
      g.refreshPeers ns = { g with model := ⟨g.connectedPeers ns, none, []⟩ } := by
  unfold refreshPeers
  cases hpeer : g.model.selectedPeer with
  | none => exact .inl ⟨rfl, fun _ h => by cases h⟩
  | some peer =>
    by_cases hmem : peer ∈ g.connectedPeers ns
    · left
      simp only [hmem, if_true]
      refine ⟨trivial, fun p hp => ?_⟩
      cases hp
      exact hmem
    · right
      simp only [hmem, if_false]

theorem MessagesSeen.refreshPeers (h : g.MessagesSeen ns) :
    MessagesSeen ns (g.refreshPeers ns) := by
  obtain ⟨heq, -⟩ | heq := refreshPeers_cases ns g
  · rw [heq]
    exact h
  · rw [heq]
    exact ⟨List.prefix_rfl, .inl rfl⟩

theorem OffersSeen.of_same (h : g.OffersSeen) (harrived : g'.arrived = g.arrived)
    (hprompted : g'.prompted = g.prompted) (hoffers : g'.offers = g.offers)
    (hboard : g'.board = g.board) : g'.OffersSeen := by
  unfold OffersSeen at *
  rw [harrived, hprompted, hoffers, hboard]
  exact h

theorem OffersSeen.refreshPeers (h : g.OffersSeen) : OffersSeen (g.refreshPeers ns) := by
  obtain ⟨heq, -⟩ | heq := refreshPeers_cases ns g
  · rw [heq]
    exact h.of_same rfl rfl rfl rfl
  · rw [heq]
    exact h.of_same rfl rfl rfl rfl

theorem offersSeen_takeFileOffers (h : g.arrived.map offerOf = g.prompted ++ g.offers.pendingOffers) :
    OffersSeen g.takeFileOffers := by
  refine ⟨?_, .inl rfl⟩
  show g.arrived.map offerOf = (g.prompted ++ g.offers.pendingOffers) ++ []
  rw [h, List.append_nil]

/-- **A block** makes up for its notice. -/
theorem seen_dispatch (hmessages : g.MessagesSeen ns) (hoffers : g.OffersSeen) :
    MessagesSeen ns (g.dispatch ns) ∧ OffersSeen (g.dispatch ns) := by
  unfold dispatch
  split
  · exact ⟨hmessages, hoffers⟩
  · next t rest hqueue =>
    cases t with
    | select peer =>
      have ho := hoffers.take hqueue (by simp)
      exact ⟨messagesSeen_refresh _, ho.of_same rfl rfl rfl rfl⟩
    | event e =>
      cases e with
      | servicesChanged =>
        exact ⟨(hmessages.take hqueue (by simp)).refreshPeers,
          (hoffers.take hqueue (by simp)).refreshPeers⟩
      | sessionsChanged =>
        exact ⟨(hmessages.take hqueue (by simp)).refreshPeers,
          (hoffers.take hqueue (by simp)).refreshPeers⟩
      | messagesChanged =>
        have ho := hoffers.take hqueue (by simp)
        exact ⟨messagesSeen_refresh _, ho.of_same rfl rfl rfl rfl⟩
      | fileProgress =>
        have ho := hoffers.take hqueue (by simp)
        exact ⟨messagesSeen_refresh _, ho.of_same rfl rfl rfl rfl⟩
      | fileOffered =>
        have hm := hmessages.take hqueue (by simp)
        exact ⟨hm, offersSeen_takeFileOffers hoffers.1⟩

/-- **One step**, of any thread. -/
theorem step_seen (hmessages : g.MessagesSeen ns) (hoffers : g.OffersSeen) (a : GuiStep) :
    MessagesSeen ns (g.step ns a) ∧ OffersSeen (g.step ns a) := by
  have hlater : ∀ {g'}, Later g g' → MessagesSeen ns g' ∧ OffersSeen g' :=
    fun h => ⟨hmessages.later h, hoffers.later h⟩
  cases a with
  | handle mail => exact hlater (later_handle mail g)
  | runPosted now => exact hlater (later_runPosted now g)
  | runResponse =>
    exact hlater (.of_same rfl rfl (pendingOffers_runPosted _ _) rfl rfl fun _ h => h)
  | network desk => exact hlater (.of_same rfl rfl rfl rfl rfl fun _ h => h)
  | notify thread => exact hlater (.of_same rfl rfl rfl rfl rfl fun _ h => Board.due_post h)
  | dispatch => exact seen_dispatch hmessages hoffers
  | timer => exact ⟨hmessages.refreshPeers, hoffers.refreshPeers⟩
  | pick peer => exact hlater (.of_same rfl rfl rfl rfl rfl fun _ h => Board.due_push h)
  | send text =>
    show MessagesSeen ns (g.send ns text) ∧ OffersSeen (g.send ns text)
    unfold send
    split
    · exact ⟨hmessages, hoffers⟩
    · split
      · exact ⟨hmessages, hoffers⟩
      · exact ⟨messagesSeen_refresh _, hoffers.of_same rfl rfl rfl rfl⟩
  | sendFile path isRegularFile =>
    show MessagesSeen ns (g.sendFile path isRegularFile) ∧ OffersSeen (g.sendFile path isRegularFile)
    unfold sendFile
    split
    · exact ⟨hmessages, hoffers⟩
    · split
      · exact hlater (.of_same rfl rfl rfl rfl rfl fun _ h => h)
      · exact ⟨hmessages, hoffers⟩
  | answer i accept =>
    exact hlater (.of_same rfl rfl (pendingOffers_answer _ _ _) rfl rfl fun _ h => h)
  | setSaveDirectory dir => exact hlater (.of_same rfl rfl rfl rfl rfl fun _ h => h)

/-! ### Coming to rest -/

theorem board_refreshPeers (g : GuiProgram) : (g.refreshPeers ns).board = g.board := by
  obtain ⟨heq, -⟩ | heq := refreshPeers_cases ns g <;> rw [heq]

theorem board_dispatch (g : GuiProgram) : (g.dispatch ns).board = g.board.take := by
  unfold dispatch
  split
  · next hqueue =>
    show g.board = { g.board with queue := g.board.queue.tail }
    rw [hqueue, List.tail_nil, ← hqueue]
  · next t rest hqueue =>
    cases t with
    | select peer => rfl
    | event e =>
      cases e with
      | servicesChanged => exact board_refreshPeers _
      | sessionsChanged => exact board_refreshPeers _
      | messagesChanged => rfl
      | fileProgress => rfl
      | fileOffered => rfl

def showing : Board.Move GuiThread → GuiStep
  | .post thread => .notify thread
  | .take => .dispatch

/-- The threads pass on the notices that are due, and the timer ticks once. -/
def settling (g : GuiProgram) : List GuiStep :=
  (g.board.settling [.mailbox, .io]).map showing ++ [.timer]

/-- The steps that only bring to the view what has happened already. -/
def Shows : GuiStep → Prop
  | .notify _ => True
  | .dispatch => True
  | .timer => True
  | _ => False

structure SameState (g g' : GuiProgram) : Prop where
  chat : g'.chat = g.chat
  arrived : g'.arrived = g.arrived
  desk : g'.desk = g.desk

theorem sameState_refreshPeers (ns : Bytes → Bytes) (g : GuiProgram) : SameState g (g.refreshPeers ns) := by
  obtain ⟨heq, -⟩ | heq := refreshPeers_cases ns g
  · rw [heq]
    exact ⟨rfl, rfl, rfl⟩
  · rw [heq]
    exact ⟨rfl, rfl, rfl⟩

theorem sameState_dispatch (g : GuiProgram) : SameState g (g.dispatch ns) := by
  unfold dispatch
  split
  · exact ⟨rfl, rfl, rfl⟩
  · next t rest hqueue =>
    cases t with
    | select peer => exact ⟨rfl, rfl, rfl⟩
    | event e =>
      cases e with
      | servicesChanged =>
        obtain ⟨hchat, harrived, hdesk⟩ :=
          sameState_refreshPeers ns { g with board := g.board.take }
        exact ⟨hchat, harrived, hdesk⟩
      | sessionsChanged =>
        obtain ⟨hchat, harrived, hdesk⟩ :=
          sameState_refreshPeers ns { g with board := g.board.take }
        exact ⟨hchat, harrived, hdesk⟩
      | messagesChanged => exact ⟨rfl, rfl, rfl⟩
      | fileProgress => exact ⟨rfl, rfl, rfl⟩
      | fileOffered => exact ⟨rfl, rfl, rfl⟩

theorem run_sameState (ns : Bytes → Bytes) {more : List GuiStep} (h : ∀ a ∈ more, Shows a) :
    SameState g (Runs.run (step ns) g more) := by
  induction more generalizing g with
  | nil => exact ⟨rfl, rfl, rfl⟩
  | cons a more ih =>
    have hstep : SameState g (g.step ns a) := by
      have ha := h a List.mem_cons_self
      cases a with
      | notify thread => exact ⟨rfl, rfl, rfl⟩
      | dispatch => exact sameState_dispatch g
      | timer => exact sameState_refreshPeers ns g
      | _ => cases ha
    have hrest := ih (g := g.step ns a) fun b hb => h b (List.mem_cons_of_mem _ hb)
    exact ⟨hrest.chat.trans hstep.chat, hrest.arrived.trans hstep.arrived,
      hrest.desk.trans hstep.desk⟩

theorem refreshPeers_settled (h : g.model.messages = g.selectedMessages ns) :
    let g' := g.refreshPeers ns
    g'.model.messages = g'.selectedMessages ns ∧ g'.prompted = g.prompted ∧
      g'.model.peers = g'.connectedPeers ns ∧
      ∀ peer, g'.model.selectedPeer = some peer → peer ∈ g'.model.peers := by
  obtain ⟨heq, hmem⟩ | heq := refreshPeers_cases ns g
  · rw [heq]
    exact ⟨h, rfl, rfl, hmem⟩
  · rw [heq]
    exact ⟨rfl, rfl, rfl, fun _ hpeer => by cases hpeer⟩

theorem run_seen (hmessages : g.MessagesSeen ns) (hoffers : g.OffersSeen) (as : List GuiStep) :
    MessagesSeen ns (Runs.run (step ns) g as) ∧ OffersSeen (Runs.run (step ns) g as) :=
  Runs.run_invariant_of_forall (I := fun g => MessagesSeen ns g ∧ OffersSeen g)
    (fun _ a h => step_seen h.1 h.2 a) ⟨hmessages, hoffers⟩ as

theorem board_run (ns : Bytes → Bytes) (g : GuiProgram) (moves : List (Board.Move GuiThread)) :
    (Runs.run (step ns) g (moves.map showing)).board = Runs.run Board.move g.board moves := by
  induction moves generalizing g with
  | nil => rfl
  | cons m moves ih =>
    cases m with
    | post thread => exact ih (g.step ns (.notify thread))
    | take =>
      rw [List.map_cons, Runs.run_cons, ih, Runs.run_cons]
      exact congrArg (Runs.run Board.move · moves) (board_dispatch g)

theorem shows_showing {moves : List (Board.Move GuiThread)} : ∀ a ∈ moves.map showing, Shows a := by
  intro a ha
  obtain ⟨m, -, rfl⟩ := List.mem_map.mp ha
  cases m with
  | post thread => trivial
  | take => trivial

theorem shows_settling (g : GuiProgram) : ∀ a ∈ g.settling, Shows a := by
  intro a ha
  obtain ha | ha := List.mem_append.mp ha
  · exact shows_showing a ha
  · rw [List.mem_singleton.mp ha]
    trivial

/-- Once the notices have been passed on, nothing is left to be seen. -/
theorem settled (hmessages : g.MessagesSeen ns) (hoffers : g.OffersSeen) :
    let g' := Runs.run (step ns) g ((g.board.settling [.mailbox, .io]).map showing)
    g'.model.messages = g'.selectedMessages ns ∧ g'.prompted = g.arrived.map offerOf := by
  intro g'
  have hquiet : g'.board.Quiet := by
    rw [board_run]
    exact Board.quiet_settling (by decide) (by intro thread; cases thread <;> decide) g.board
  obtain ⟨⟨-, hshown⟩, hasked, hpending⟩ : g'.MessagesSeen ns ∧ g'.OffersSeen :=
    run_seen hmessages hoffers _
  have hsame : SameState g g' := run_sameState ns shows_showing
  rw [hpending.resolve_right (hquiet.not_due _), List.append_nil, hsame.arrived] at hasked
  exact ⟨hshown.resolve_right (hquiet.not_due _), hasked.symm⟩

/-- **The view settles.**  In every run of the three threads the view shows the beginning of the
selected chat and has asked about the first offers, each once and in order.  Without any further
event, the notices that are due and one more tick of the timer bring it to show the whole chat, to
ask about all offers and to list the peers there are, with a selection among them. -/
theorem view_settles (ns : Bytes → Bytes) (desk : FileDesk) (hostname rootdir saveDir : Bytes)
    (files : Files) (as : List GuiStep) :
    let g := Runs.run (step ns) (start desk hostname rootdir saveDir files) as
    g.model.messages <+: g.selectedMessages ns ∧ g.prompted <+: g.arrived.map offerOf ∧
      (∀ a ∈ g.settling, Shows a) ∧
        let g' := Runs.run (step ns) g g.settling
        g'.chat = g.chat ∧ g'.arrived = g.arrived ∧ g'.desk = g.desk ∧
          g'.model.messages = g'.selectedMessages ns ∧ g'.prompted = g.arrived.map offerOf ∧
          g'.model.peers = g'.connectedPeers ns ∧
          ∀ peer, g'.model.selectedPeer = some peer → peer ∈ g'.model.peers := by
  intro g
  have hstart : MessagesSeen ns (start desk hostname rootdir saveDir files) ∧
      OffersSeen (start desk hostname rootdir saveDir files) :=
    ⟨⟨List.prefix_rfl, .inl rfl⟩, ⟨rfl, .inl rfl⟩⟩
  obtain ⟨hmessages, hoffers⟩ := run_seen hstart.1 hstart.2 as
  refine ⟨hmessages.1, ⟨_, hoffers.1.symm⟩, shows_settling g, ?_⟩
  obtain ⟨hchat, harrived, hdesk⟩ := run_sameState ns (g := g) (shows_settling g)
  obtain ⟨hshown, hasked⟩ := settled hmessages hoffers
  obtain ⟨htimer, hprompted, hpeers⟩ := refreshPeers_settled hshown
  refine ⟨hchat, harrived, hdesk, ?_⟩
  rw [settling, Runs.run_append]
  exact ⟨htimer, hprompted.trans hasked, hpeers⟩

/-- A message of the selected peer is shown when its notice has come to the main thread. -/
example :
    let start := start (.start (.construct [97])) [97] [47] [] fun _ => none
    let before := Runs.run (step id) start [.pick [98], .dispatch,
      .handle (.session 0 .none .none (.messageIncoming [104, 105] 5 [98])), .dispatch]
    before.model.messages = [] ∧
      (Runs.run (step id) before [.notify .mailbox, .dispatch]).model.messages =
        [⟨[104, 105], [98], 5⟩] := by
  decide

end GuiProgram

end LocalChat
