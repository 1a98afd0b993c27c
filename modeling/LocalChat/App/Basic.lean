import LocalChat.Session.Basic
import LocalChat.Lib.PosixPath
import Mathlib.Logic.Function.Basic

/-!
# The receiving app

`BVReceivedFile` keeps an incoming file at `<root>/data/<serviceName>/<fname>`, and the
handlers of `BVApp_ConsoleClient` drive it from the events of the sessions.  Files are
kept by location, the lexical normal form of a path, so that two spellings of one path are
one file.

The operating system may refuse any call; `Faults` says what it refuses during one handler
call, and a refused call leaves the status the source returns.
-/

namespace LocalChat

open Octets PosixPath

/-! ### Files -/

abbrev Files := List Name → Option Bytes

/-- What the operating system refuses during one handler call. -/
structure Faults where
  createDirectories : Bool
  openFile : Bool
  /-- the stream is bad after `write` -/
  write : Bool
  /-- how many of the written bytes reach the file; `none` for all of them -/
  reached : Option Nat
  resizeFile : Bool
  deriving DecidableEq, Repr

abbrev Faults.none : Faults := ⟨false, false, false, .none, false⟩

/-- The part of `data` that a write puts into the file. -/
def Faults.reaching (flt : Faults) (data : Bytes) : Bytes :=
  match flt.reached with
  | .none => data
  | .some n => data.take n

namespace BVReceivedFile

abbrev dataDir : Bytes := [100, 97, 116, 97]

def dirFor (root serviceName : Bytes) : Bytes := join (join root dataDir) serviceName

def pathFor (root serviceName fname : Bytes) : Bytes := join (dirFor root serviceName) fname

def fileAt (root serviceName fname : Bytes) : List Name := resolve (pathFor root serviceName fname)

/-- A file opened in append mode is created if it is missing. -/
def appendTo (loc : List Name) (data : Bytes) (files : Files) : Files :=
  Function.update files loc (some ((files loc).getD [] ++ data))

/-- `Begin`: the directory is made and the file is opened with `trunc`. -/
def begin_ (flt : Faults) (root serviceName fname : Bytes) (files : Files) : BVStatus × Files :=
  if flt.createDirectories then (.fatalError, files)
  else if flt.openFile then (.fatalError, files)
  else (.ok, Function.update files (fileAt root serviceName fname) (some []))

def appendChunk (flt : Faults) (root serviceName fname data : Bytes) (files : Files) :
    BVStatus × Files :=
  if flt.openFile then (.fatalError, files)
  else
    (if flt.write then .nok else .ok,
      appendTo (fileAt root serviceName fname) (flt.reaching data) files)

/-- `Finish`; `resize_file` cuts the file or fills it up with zeros. -/
def finish (flt : Faults) (root serviceName fname finalData : Bytes) (fsize : Nat) (files : Files) :
    BVStatus × Files :=
  let filepath := fileAt root serviceName fname
  if flt.openFile then (.fatalError, files)
  else
    let files := appendTo filepath (flt.reaching finalData) files
    match files filepath with
    | .none => (.nok, files)
    | .some content =>
      if flt.resizeFile then (.nok, files)
      else (.ok, Function.update files filepath (some (padTo fsize content)))

end BVReceivedFile

/-! ### The app -/

inductive UIState
  | mainMenu
  | chat
  | fileOffer
  deriving DecidableEq, Repr

structure PendingOffer where
  key : UInt32
  sender : Bytes
  fname : Bytes
  size : UInt64
  deriving DecidableEq, Repr

structure App where
  /-- `std::filesystem::current_path()` -/
  rootdir : Bytes
  fileTransferData : UInt32 → Option (Bytes × Bytes)
  recvBytes : UInt64
  files : Files
  pendingOffer : Option PendingOffer
  uiState : UIState
  priorUiState : UIState

def App.start (rootdir : Bytes) (files : Files) : App where
  rootdir := rootdir
  fileTransferData := fun _ => none
  recvBytes := 0
  files := files
  pendingOffer := none
  uiState := .mainMenu
  priorUiState := .mainMenu

/-- `s.substr(0, s.find('|'))`; without a `|` this is all of `s`. -/
def beforeBar (s : Bytes) : Bytes := s.takeWhile (· ≠ bar)

/-- `s.substr(s.find("|") + 1)`; without a `|`, `npos + 1` is 0 and this is all of `s`. -/
def afterBar (s : Bytes) : Bytes := if bar ∈ s then (s.dropWhile (· ≠ bar)).drop 1 else s

namespace App

/-- `HandleFileOffer`, with the closure it posts to the io thread.  Here a missing `|` leaves the
file name empty. -/
def handleFileOffer (res : BVTCPFileData) (a : App) : BVStatus × App :=
  let info := cstr res.fdata
  let sender := beforeBar info
  let fname := if bar ∈ info then afterBar info else []
  (.ok, { a with
    pendingOffer := some ⟨res.correlationKey, sender, fname, res.fsize.toUInt64⟩
    priorUiState := a.uiState
    uiState := .fileOffer })

/-- `HandleFileOfferKey`, with the arguments of its `RespondToFileOffer` call. -/
def handleFileOfferKey (c : UInt8) (a : App) : Option (PendingOffer × Bool) × App :=
  match a.pendingOffer with
  | none => (none, { a with uiState := a.priorUiState })
  | some offer =>
    let answered := { a with pendingOffer := none, uiState := a.priorUiState }
    -- 'y', 'Y' and 'n', 'N'
    if c = 121 ∨ c = 89 then (some (offer, true), answered)
    else if c = 110 ∨ c = 78 then (some (offer, false), answered)
    else (none, a)

def handleFileTransferBegin (flt : Faults) (res : BVTCPFileData) (a : App) : BVStatus × App :=
  let serviceName := beforeBar res.fdata
  let fname := afterBar res.fdata
  match BVReceivedFile.begin_ flt a.rootdir serviceName fname a.files with
  | (.ok, files) =>
    (.ok, { a with
      files := files
      fileTransferData :=
        Function.update a.fileTransferData res.correlationKey (some (serviceName, fname))
      recvBytes := 0 })
  | (beginStatus, files) => (beginStatus, { a with files := files })

def handleFileChunkSent (flt : Faults) (res : BVTCPFileData) (a : App) : BVStatus × App :=
  match a.fileTransferData res.correlationKey with
  | none => (.fatalError, a)
  | some (serviceName, fname) =>
    match BVReceivedFile.appendChunk flt a.rootdir serviceName fname res.fdata a.files with
    | (.ok, files) =>
      (.ok, { a with
        files := files
        recvBytes := a.recvBytes + UInt64.ofNat res.fdata.length })
    | (appendStatus, files) => (appendStatus, { a with files := files })

def handleFileTransferEnd (flt : Faults) (res : BVTCPFileData) (a : App) : BVStatus × App :=
  match a.fileTransferData res.correlationKey with
  | none => (.fatalError, a)
  | some (serviceName, fname) =>
    match
      BVReceivedFile.finish flt a.rootdir serviceName fname res.fdata res.fsize.toNat a.files with
    | (.ok, files) =>
      (.ok, { a with
        files := files
        fileTransferData := Function.update a.fileTransferData res.correlationKey none })
    | (finishStatus, files) => (finishStatus, { a with files := files })

/-- The handler of an event.  An incoming chat message goes into the chat log only. -/
def handle (flt : Faults) (e : AppEvent) (a : App) : BVStatus × App :=
  match e with
  | .messageIncoming _ _ _ => (.ok, a)
  | .fileOffer d => a.handleFileOffer d
  | .fileTransferBegin d => a.handleFileTransferBegin flt d
  | .fileTransferChunkSent d => a.handleFileChunkSent flt d
  | .fileTransferEnd d => a.handleFileTransferEnd flt d

/-- `ListenToMail`: every event goes to its handler, and a status that is not OK ends the mailbox
thread with an exception.  The statuses are kept.  No call of the operating system is refused. -/
def listenToMail : List AppEvent → App → List BVStatus × App
  | [], a => ([], a)
  | e :: es, a =>
    match a.handle .none e with
    | (.ok, a) => ((.ok :: (a.listenToMail es).1), (a.listenToMail es).2)
    | (callbackStatus, a) => ([callbackStatus], a)

end App

/-! ### When they return OK -/

namespace BVReceivedFile

variable (flt : Faults) (root serviceName fname data : Bytes) (files : Files)

theorem begin_status_iff :
    (begin_ flt root serviceName fname files).1 = .ok ↔
      flt.createDirectories = false ∧ flt.openFile = false := by
  rw [begin_]
  cases flt.createDirectories <;> cases flt.openFile <;> simp

theorem appendChunk_status_iff :
    (appendChunk flt root serviceName fname data files).1 = .ok ↔
      flt.openFile = false ∧ flt.write = false := by
  rw [appendChunk]
  cases flt.openFile <;> cases flt.write <;> simp

/-- The file is there to be resized: it has just been opened for appending. -/
theorem finish_status_iff (fsize : Nat) :
    (finish flt root serviceName fname data fsize files).1 = .ok ↔
      flt.openFile = false ∧ flt.resizeFile = false := by
  rw [finish]
  cases flt.openFile <;> cases flt.resizeFile <;> simp [appendTo]

end BVReceivedFile

namespace App

variable {flt : Faults} {d : BVTCPFileData} {a : App}

theorem handleFileTransferBegin_ok_iff :
    (a.handleFileTransferBegin flt d).1 = .ok ↔
      flt.createDirectories = false ∧ flt.openFile = false := by
  rw [← BVReceivedFile.begin_status_iff flt a.rootdir (beforeBar d.fdata) (afterBar d.fdata)
    a.files, handleFileTransferBegin]
  split
  · next heq => rw [heq]
  · next heq => rw [heq]

theorem handleFileChunkSent_ok_iff :
    (a.handleFileChunkSent flt d).1 = .ok ↔
      a.fileTransferData d.correlationKey ≠ none ∧ flt.openFile = false ∧ flt.write = false := by
  rw [handleFileChunkSent]
  cases hdata : a.fileTransferData d.correlationKey with
  | none => simp
  | some names =>
    rw [← BVReceivedFile.appendChunk_status_iff flt a.rootdir names.1 names.2 d.fdata a.files,
      and_iff_right (Option.some_ne_none _)]
    dsimp only
    split
    · next heq => rw [heq]
    · next heq => rw [heq]

theorem handleFileTransferEnd_ok_iff :
    (a.handleFileTransferEnd flt d).1 = .ok ↔
      a.fileTransferData d.correlationKey ≠ none ∧ flt.openFile = false ∧
        flt.resizeFile = false := by
  rw [handleFileTransferEnd]
  cases hdata : a.fileTransferData d.correlationKey with
  | none => simp
  | some names =>
    rw [← BVReceivedFile.finish_status_iff flt a.rootdir names.1 names.2 d.fdata a.files
      d.fsize.toNat, and_iff_right (Option.some_ne_none _)]
    dsimp only
    split
    · next heq => rw [heq]
    · next heq => rw [heq]

end App

end LocalChat
