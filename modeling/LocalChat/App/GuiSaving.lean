import LocalChat.App.Saved

/-!
# Files the GUI client saves

`BVApp_GuiClient` lets the console client put a received file under the working directory and then
moves it to the directory the user has chosen, by a rename or, where this is refused, by a copy and
a removal.  The user is told where the file is in the end.

* `moveReceived_spec`: whatever is refused, the file is at the place that is told.
* `step_reliable`: a file that was reported stays what it was until a handler works at its place
  again.
* `reported_files_hold`: so in every run all files that were reported are complete where they were
  reported.
-/

namespace LocalChat

open Octets PosixPath

structure MoveFaults where
  rename : Bool
  /-- `some left` if `copy_file` fails and leaves `left` at the destination -/
  copyFile : Option (Option Bytes)
  remove : Bool
  deriving DecidableEq, Repr

abbrev MoveFaults.none : MoveFaults := ⟨false, .none, false⟩

structure SavedFile where
  serviceName : Bytes
  fileName : Bytes
  finalPath : Bytes
  /-- the location of `finalPath` -/
  finalAt : List Name
  deriving DecidableEq, Repr

structure GuiReceiver where
  app : App
  saveDir : Bytes

namespace GuiReceiver

/-! ### Moving a file -/

/-- `std::filesystem::rename`: whether it succeeds, and the files. -/
def rename (refused : Bool) (src dst : List Name) (files : Files) : Bool × Files :=
  match refused, files src with
  | false, some content =>
    (true, Function.update (Function.update files src none) dst (some content))
  | _, _ => (false, files)

/-- `std::filesystem::copy_file`, which does not copy a file to itself. -/
def copyFile (failed : Option (Option Bytes)) (src dst : List Name) (files : Files) :
    Bool × Files :=
  if src = dst then (false, files)
  else
    match failed, files src with
    | none, some content => (true, Function.update files dst (some content))
    | some left, some _ => (false, Function.update files dst left)
    | _, none => (false, files)

/-- Whether the file is at `dst` in the end, and the files.  A directory that cannot be created
shows in the calls after it. -/
def moveReceived (mv : MoveFaults) (src dst : List Name) (files : Files) : Bool × Files :=
  match rename mv.rename src dst files with
  | (true, files) => (true, files)
  | (false, files) =>
    match copyFile mv.copyFile src dst files with
    | (true, files) => (true, if mv.remove then files else Function.update files src none)
    | (false, files) => (false, files)

variable {src dst : List Name} {files : Files} {content : Bytes}

theorem rename_cases (refused : Bool) (dst : List Name) (h : files src = some content) :
    rename refused src dst files =
        (true, Function.update (Function.update files src none) dst (some content)) ∨
      rename refused src dst files = (false, files) := by
  unfold rename
  rw [h]
  cases refused with
  | false => exact .inl rfl
  | true => exact .inr rfl

theorem copyFile_cases (failed : Option (Option Bytes)) (dst : List Name)
    (h : files src = some content) :
    (src ≠ dst ∧
      copyFile failed src dst files = (true, Function.update files dst (some content))) ∨
      ∃ files', copyFile failed src dst files = (false, files') ∧ files' src = files src ∧
        ∀ loc, loc ≠ dst → files' loc = files loc := by
  unfold copyFile
  by_cases hsame : src = dst
  · rw [if_pos hsame]
    exact .inr ⟨files, rfl, rfl, fun _ _ => rfl⟩
  · rw [if_neg hsame, h]
    cases failed with
    | none => exact .inl ⟨hsame, rfl⟩
    | some left =>
      refine .inr ⟨_, rfl, ?_, fun loc hloc => Function.update_of_ne hloc _ _⟩
      rw [Function.update_of_ne hsame]
      exact h

/-- **The file is where the result says**, whatever is refused, and the other files stay as they
are. -/
theorem moveReceived_spec (mv : MoveFaults) (dst : List Name) (h : files src = some content) :
    ∃ files', (moveReceived mv src dst files = (true, files') ∧ files' dst = some content ∨
        moveReceived mv src dst files = (false, files') ∧ files' src = some content) ∧
      ∀ loc, loc ≠ src → loc ≠ dst → files' loc = files loc := by
  unfold moveReceived
  obtain hrename | hrename := rename_cases mv.rename dst h
  · refine ⟨_, .inl ⟨by rw [hrename], Function.update_self _ _ _⟩, fun loc hsrc hdst => ?_⟩
    rw [Function.update_of_ne hdst, Function.update_of_ne hsrc]
  · obtain ⟨hne, hcopy⟩ | ⟨files', hcopy, hsrc, hframe⟩ :=
      copyFile_cases mv.copyFile dst h
    · refine ⟨_, .inl ⟨by simp only [hrename, hcopy]; rfl, ?_⟩, fun loc hsrc hdst => ?_⟩
      · split
        · exact Function.update_self _ _ _
        · rw [Function.update_of_ne (Ne.symm hne), Function.update_self]
      · split
        · exact Function.update_of_ne hdst _ _
        · rw [Function.update_of_ne hsrc, Function.update_of_ne hdst]
    · refine ⟨files', .inr ⟨by simp only [hrename, hcopy], hsrc.trans h⟩, ?_⟩
      intro loc _ hdst
      exact hframe loc hdst

/-- The move succeeds if one of its two ways is open. -/
theorem moveReceived_moves {mv : MoveFaults} (hmv : mv.rename = false ∨ mv.copyFile = none)
    (hne : src ≠ dst) (h : files src = some content) : (moveReceived mv src dst files).1 = true := by
  cases hrename : mv.rename with
  | false => simp only [moveReceived, rename, hrename, h]
  | true =>
    have hcopy : mv.copyFile = none := by simpa [hrename] using hmv
    simp only [moveReceived, rename, copyFile, hrename, hcopy, h, if_neg hne]

/-! ### The handlers -/

def dstFor (saveDir serviceName fileName : Bytes) : Bytes :=
  join (join saveDir serviceName) fileName

/-- The place a file is moved to; with no directory chosen it stays where it is. -/
def targetOf (g : GuiReceiver) (serviceName fileName : Bytes) : List Name :=
  if g.saveDir = [] then BVReceivedFile.fileAt g.app.rootdir serviceName fileName
  else resolve (join g.app.rootdir (dstFor g.saveDir serviceName fileName))

/-- The end of `HandleFileTransferEnd`, after the console client's handler. -/
def placeReceived (mv : MoveFaults) (serviceName fileName : Bytes) (g : GuiReceiver) :
    SavedFile × GuiReceiver :=
  let src := BVReceivedFile.fileAt g.app.rootdir serviceName fileName
  let srcPath := BVReceivedFile.pathFor g.app.rootdir serviceName fileName
  if g.saveDir = [] then (⟨serviceName, fileName, srcPath, src⟩, g)
  else
    let dst := g.targetOf serviceName fileName
    match moveReceived mv src dst g.app.files with
    | (true, files) =>
      (⟨serviceName, fileName, dstFor g.saveDir serviceName fileName, dst⟩,
        { g with app := { g.app with files := files } })
    | (false, files) =>
      (⟨serviceName, fileName, srcPath, src⟩, { g with app := { g.app with files := files } })

/-- `HandleFileTransferEnd`, with what the user is told. -/
def handleFileTransferEnd (flt : Faults) (mv : MoveFaults) (d : BVTCPFileData) (g : GuiReceiver) :
    BVStatus × Option SavedFile × GuiReceiver :=
  let r := g.app.handleFileTransferEnd flt d
  match g.app.fileTransferData d.correlationKey with
  | none => (r.1, none, { g with app := r.2 })
  | some (serviceName, fileName) =>
    let placed := { g with app := r.2 }.placeReceived mv serviceName fileName
    (r.1, some placed.1, placed.2)

/-- The handler of an event.  Offers go to other fields of the GUI client. -/
def handle (flt : Faults) (mv : MoveFaults) (e : AppEvent) (g : GuiReceiver) :
    BVStatus × Option SavedFile × GuiReceiver :=
  match e with
  | .messageIncoming _ _ _ => (.ok, none, g)
  | .fileOffer _ => (.ok, none, g)
  | .fileTransferBegin d =>
    let r := g.app.handleFileTransferBegin flt d
    (r.1, none, { g with app := r.2 })
  | .fileTransferChunkSent d =>
    let r := g.app.handleFileChunkSent flt d
    (r.1, none, { g with app := r.2 })
  | .fileTransferEnd d => g.handleFileTransferEnd flt mv d

variable {g : GuiReceiver} {flt : Faults} {mv : MoveFaults} {d : BVTCPFileData}

theorem placeReceived_spec (mv : MoveFaults) (serviceName fileName : Bytes)
    (h : g.app.files (BVReceivedFile.fileAt g.app.rootdir serviceName fileName) = some content) :
    ∃ files', (g.placeReceived mv serviceName fileName).2 =
        { g with app := { g.app with files := files' } } ∧
      files' (g.placeReceived mv serviceName fileName).1.finalAt = some content ∧
      ((g.placeReceived mv serviceName fileName).1.finalAt =
          BVReceivedFile.fileAt g.app.rootdir serviceName fileName ∨
        (g.placeReceived mv serviceName fileName).1.finalAt = g.targetOf serviceName fileName) ∧
      ∀ loc, loc ≠ BVReceivedFile.fileAt g.app.rootdir serviceName fileName →
        loc ≠ g.targetOf serviceName fileName → files' loc = g.app.files loc := by
  unfold placeReceived
  by_cases hdir : g.saveDir = []
  · simp only [hdir, if_true]
    refine ⟨g.app.files, ?_, h, .inl trivial, fun _ _ _ => rfl⟩
    rw [← hdir]
  · simp only [hdir, if_false]
    obtain ⟨files', ⟨hmove, hcontent⟩ | ⟨hmove, hcontent⟩, hframe⟩ :=
      moveReceived_spec mv (g.targetOf serviceName fileName) h
    · simp only [hmove]
      exact ⟨files', rfl, hcontent, .inr trivial, hframe⟩
    · simp only [hmove]
      exact ⟨files', rfl, hcontent, .inl trivial, hframe⟩

theorem placeReceived_finalAt (hmv : mv.rename = false ∨ mv.copyFile = none)
    (serviceName fileName : Bytes)
    (h : g.app.files (BVReceivedFile.fileAt g.app.rootdir serviceName fileName) = some content) :
    (g.placeReceived mv serviceName fileName).1.finalAt = g.targetOf serviceName fileName := by
  by_cases hdir : g.saveDir = []
  · simp only [placeReceived, targetOf, hdir, if_true]
  · by_cases hsame : BVReceivedFile.fileAt g.app.rootdir serviceName fileName =
        g.targetOf serviceName fileName
    · obtain ⟨-, -, -, hplace, -⟩ := placeReceived_spec mv serviceName fileName h
      exact hplace.elim (fun heq => heq.trans hsame) id
    · have hmoves := moveReceived_moves hmv hsame h
      unfold placeReceived
      rw [if_neg hdir]
      dsimp only
      split
      · rfl
      · next hmove =>
        rw [hmove] at hmoves
        cases hmoves

theorem targetOf_of_names {serviceName fileName : Bytes} (hs : IsName serviceName)
    (hf : IsName fileName) (hdir : isAbsolute g.saveDir = true) :
    g.targetOf serviceName fileName = resolve g.saveDir ++ [serviceName, fileName] := by
  have hne : g.saveDir ≠ [] := by
    intro hnil
    rw [hnil] at hdir
    cases hdir
  have habs : isAbsolute (dstFor g.saveDir serviceName fileName) = true :=
    isAbsolute_join (isAbsolute_join hdir _) _
  unfold targetOf
  rw [if_neg hne]
  unfold resolve
  rw [descend_join, habs, if_pos rfl]
  unfold dstFor
  rw [descend_join_of_relative (isAbsolute_name hf), descend_join_of_relative (isAbsolute_name hs),
    descend_name hf, descend_name hs, List.append_assoc]
  rfl

theorem targetOf_of_root {r : GuiReceiver} (hroot : r.app.rootdir = g.app.rootdir)
    (hdir : r.saveDir = g.saveDir) (serviceName fileName : Bytes) :
    r.targetOf serviceName fileName = g.targetOf serviceName fileName := by
  unfold targetOf
  rw [hroot, hdir]

theorem handleFileTransferEnd_status :
    (g.handleFileTransferEnd flt mv d).1 = (g.app.handleFileTransferEnd flt d).1 := by
  unfold handleFileTransferEnd
  split <;> rfl

theorem handleFileTransferEnd_of_known {serviceName fileName : Bytes}
    (h : g.app.fileTransferData d.correlationKey = some (serviceName, fileName)) :
    let r := g.app.handleFileTransferEnd flt d
    let placed := { g with app := r.2 }.placeReceived mv serviceName fileName
    g.handleFileTransferEnd flt mv d = (r.1, some placed.1, placed.2) := by
  unfold handleFileTransferEnd
  rw [h]

end GuiReceiver

/-! ### The handlers in turn -/

/-- What the mailbox thread or the user does to the receiving part. -/
inductive SavingCall
  | event (flt : Faults) (mv : MoveFaults) (e : AppEvent)
  | setSaveDirectory (dir : Bytes)

/-- The receiving part, with the payload bytes that have come in for each key since its BEGIN. -/
structure GuiSaving where
  receiver : GuiReceiver
  received : UInt32 → Bytes
  /-- no handler has returned anything but OK; this ends the mailbox thread -/
  running : Bool
  /-- the contents of the files the user was told of, until a handler works at their places again -/
  reported : List Name → Option Bytes

namespace GuiSaving

def start (rootdir : Bytes) (files : Files) (saveDir : Bytes) : GuiSaving where
  receiver := ⟨.start rootdir files, saveDir⟩
  received := fun _ => []
  running := true
  reported := fun _ => none

def placesOf (g : GuiReceiver) : AppEvent → List (List Name)
  | .fileTransferBegin d =>
    [BVReceivedFile.fileAt g.app.rootdir (beforeBar d.fdata) (afterBar d.fdata)]
  | .fileTransferEnd d =>
    match g.app.fileTransferData d.correlationKey with
    | none => []
    | some (serviceName, fileName) =>
      [BVReceivedFile.fileAt g.app.rootdir serviceName fileName, g.targetOf serviceName fileName]
  | _ => []

/-- What is reported with the event `e`, of which the user is told `saved`. -/
def reportedWith (g : GuiSaving) (e : AppEvent) (saved : Option SavedFile) :
    List Name → Option Bytes :=
  let kept := fun loc => if loc ∈ placesOf g.receiver e then none else g.reported loc
  match e, saved with
  | .fileTransferEnd d, some file =>
    Function.update kept file.finalAt
      (some ((g.received d.correlationKey ++ d.fdata).take d.fsize.toNat))
  | _, _ => kept

def step (g : GuiSaving) : SavingCall → GuiSaving
  | .setSaveDirectory dir => { g with receiver := { g.receiver with saveDir := dir } }
  | .event flt mv e =>
    if g.running then
      let r := g.receiver.handle flt mv e
      { receiver := r.2.2, received := receivedWith g.received e, running := decide (r.1 = .ok),
        reported := g.reportedWith e r.2.1 }
    else g

def saving (g : GuiSaving) : Saving := ⟨g.receiver.app, g.received, g.running⟩

/-- The chunks reach their files, an END comes when enough bytes have come in and loses none of
them, and no file is begun or moved where another transfer is writing. -/
def Undisturbed (g : GuiSaving) : SavingCall → Prop
  | .setSaveDirectory _ => True
  | .event flt _ e =>
    g.saving.Undisturbed (flt, e) ∧ g.saving.Complete (flt, e) ∧
      ∀ d names, e = .fileTransferEnd d →
        g.receiver.app.fileTransferData d.correlationKey = some names →
          ∀ key, key ≠ d.correlationKey →
            g.receiver.app.openAt key ≠ some (g.receiver.targetOf names.1 names.2)

/-- The open transfers have files of their own, and the reported files are none of them. -/
structure Reliable (g : GuiSaving) : Prop where
  intact : Intact g.receiver.app.openAt g.receiver.app.files g.received
  holds : ∀ loc content, g.reported loc = some content → g.receiver.app.files loc = some content
  closed : ∀ loc content, g.reported loc = some content →
    ∀ key, g.receiver.app.openAt key ≠ some loc

def ReliableWhileRunning (g : GuiSaving) : Prop := g.running = true → g.Reliable

variable {g : GuiSaving}

theorem start_reliable (rootdir : Bytes) (files : Files) (saveDir : Bytes) :
    (start rootdir files saveDir).ReliableWhileRunning := by
  intro _
  refine ⟨Saving.start_intact rootdir files rfl, ?_, ?_⟩
  · intro loc content h
    cases h
  · intro loc content h
    cases h

theorem intact_of_eq {openAt : UInt32 → Option (List Name)} {files files' : Files}
    {received : UInt32 → Bytes} (h : Intact openAt files received)
    (hsame : ∀ key loc, openAt key = some loc → files' loc = files loc) :
    Intact openAt files' received where
  holds key loc hopen := (hsame key loc hopen).trans (h.holds key loc hopen)
  apart := h.apart

theorem mem_reportedWith {e : AppEvent} (he : ∀ d, e ≠ .fileTransferEnd d)
    {saved : Option SavedFile} {loc : List Name} {content : Bytes}
    (h : g.reportedWith e saved loc = some content) :
    loc ∉ placesOf g.receiver e ∧ g.reported loc = some content := by
  have hkept : (if loc ∈ placesOf g.receiver e then none else g.reported loc) = some content := by
    cases e with
    | fileTransferEnd d => exact absurd rfl (he d)
    | _ => exact h
  split at hkept
  · cases hkept
  · next hmem => exact ⟨hmem, hkept⟩

/-- A file that is reported after an END is the file of this END, or one of another place. -/
theorem reportedWith_fileTransferEnd {d : BVTCPFileData} {file : SavedFile} {loc : List Name}
    {content : Bytes}
    (h : g.reportedWith (.fileTransferEnd d) (some file) loc = some content) :
    (loc = file.finalAt ∧
        content = (g.received d.correlationKey ++ d.fdata).take d.fsize.toNat) ∨
      (loc ∉ placesOf g.receiver (.fileTransferEnd d) ∧ g.reported loc = some content) := by
  simp only [reportedWith] at h
  by_cases hloc : loc = file.finalAt
  · subst hloc
    rw [Function.update_self] at h
    exact .inl ⟨rfl, (Option.some.inj h).symm⟩
  · rw [Function.update_of_ne hloc] at h
    split at h
    · cases h
    · next hmem => exact .inr ⟨hmem, h⟩

theorem step_of_running (hrun : g.running = true) (flt : Faults) (mv : MoveFaults) (e : AppEvent) :
    g.step (.event flt mv e) =
      let r := g.receiver.handle flt mv e
      ⟨r.2.2, receivedWith g.received e, decide (r.1 = .ok), g.reportedWith e r.2.1⟩ :=
  if_pos hrun

/-- **An END.**  The file is saved, moved and reported, and its transfer is over. -/
theorem Reliable.fileTransferEnd (h : g.Reliable) (hrun : g.running = true) {flt : Faults}
    {mv : MoveFaults} {d : BVTCPFileData} (hok : g.Undisturbed (.event flt mv (.fileTransferEnd d)))
    (hstatus : (g.receiver.app.handleFileTransferEnd flt d).1 = .ok) :
    (g.step (.event flt mv (.fileTransferEnd d))).Reliable := by
  obtain ⟨-, hcomplete, hfree⟩ := hok
  obtain ⟨hknown, -, -⟩ := App.handleFileTransferEnd_ok_iff.mp hstatus
  obtain ⟨⟨serviceName, fileName⟩, hentry⟩ := Option.ne_none_iff_exists'.mp hknown
  -- what the console client's handler leaves
  obtain ⟨src, hsrc, hopen, hfiles⟩ := App.handleFileTransferEnd_of_ok hstatus
  obtain ⟨-, loc, hloc, hcontent⟩ := (Saving.savedComplete_iff (g := g.saving)
    (fun _ => h.intact) (flt, .fileTransferEnd d)).mpr hcomplete hrun hstatus
  obtain rfl : src = loc := Option.some.inj (hsrc.symm.trans hloc)
  have hfileAt : BVReceivedFile.fileAt g.receiver.app.rootdir serviceName fileName = src := by
    simpa [App.openAt, hentry] using hsrc
  have hroot : (g.receiver.app.handleFileTransferEnd flt d).2.rootdir = g.receiver.app.rootdir :=
    App.handle_rootdir flt (.fileTransferEnd d) g.receiver.app
  -- what the move leaves
  let r : GuiReceiver :=
    { g.receiver with app := (g.receiver.app.handleFileTransferEnd flt d).2 }
  have htarget : r.targetOf serviceName fileName = g.receiver.targetOf serviceName fileName :=
    GuiReceiver.targetOf_of_root (g := g.receiver) (r := r) hroot rfl _ _
  obtain ⟨files', hplaced, hfinal, hplace, hframe⟩ :=
    GuiReceiver.placeReceived_spec (g := r) mv serviceName fileName
      (by rw [hroot, hfileAt]; exact hcontent)
  rw [hroot, hfileAt, htarget] at hplace hframe
  rw [step_of_running hrun]
  show Reliable ⟨(g.receiver.handleFileTransferEnd flt mv d).2.2, _, _,
    g.reportedWith _ (g.receiver.handleFileTransferEnd flt mv d).2.1⟩
  rw [GuiReceiver.handleFileTransferEnd_of_known hentry]
  have hplaces : placesOf g.receiver (.fileTransferEnd d) =
      [src, g.receiver.targetOf serviceName fileName] := by
    simp only [placesOf, hentry, hfileAt]
  have hclosed := h.intact.close hsrc
    (some (padTo d.fsize.toNat ((g.receiver.app.files src).getD [] ++ flt.reaching d.fdata)))
    (g.received d.correlationKey ++ d.fdata)
  rw [← hfiles, ← hopen] at hclosed
  -- no open transfer writes at either place
  have hsrcfree : ∀ key, r.app.openAt key ≠ some src := by
    intro key hkey
    rw [hopen] at hkey
    by_cases hd : key = d.correlationKey
    · rw [hd, Function.update_self] at hkey
      cases hkey
    · rw [Function.update_of_ne hd] at hkey
      exact hd (h.intact.apart key _ src hkey hsrc)
  have hdstfree : ∀ key,
      r.app.openAt key ≠ some (g.receiver.targetOf serviceName fileName) := by
    intro key hkey
    rw [hopen] at hkey
    by_cases hd : key = d.correlationKey
    · rw [hd, Function.update_self] at hkey
      cases hkey
    · rw [Function.update_of_ne hd] at hkey
      exact hfree d _ rfl hentry key hd hkey
  have hfinalfree : ∀ key,
      r.app.openAt key ≠ some (r.placeReceived mv serviceName fileName).1.finalAt := by
    intro key
    obtain hplace | hplace := hplace
    · rw [hplace]
      exact hsrcfree key
    · rw [hplace]
      exact hdstfree key
  show Reliable ⟨(r.placeReceived mv serviceName fileName).2, _, _,
    g.reportedWith _ (some (r.placeReceived mv serviceName fileName).1)⟩
  rw [hplaced]
  refine ⟨intact_of_eq hclosed ?_, ?_, ?_⟩
  · intro key loc hkey
    apply hframe loc
    · rintro rfl
      exact hsrcfree key hkey
    · rintro rfl
      exact hdstfree key hkey
  · intro loc content hreported
    show files' loc = some content
    obtain ⟨rfl, rfl⟩ | ⟨hmem, hold⟩ := reportedWith_fileTransferEnd hreported
    · exact hfinal
    · rw [hplaces, List.mem_cons, List.mem_singleton, not_or] at hmem
      rw [hframe loc hmem.1 hmem.2, ← h.holds loc content hold]
      exact (congrFun hfiles loc).trans (Function.update_of_ne hmem.1 _ _)
  · intro loc content hreported key
    show r.app.openAt key ≠ some loc
    obtain ⟨rfl, -⟩ | ⟨-, hold⟩ := reportedWith_fileTransferEnd hreported
    · exact hfinalfree key
    · intro hkey
      rw [hopen] at hkey
      by_cases hd : key = d.correlationKey
      · rw [hd, Function.update_self] at hkey
        cases hkey
      · rw [Function.update_of_ne hd] at hkey
        exact h.closed loc content hold key hkey

/-- The other handlers must leave alone what they do not work on and no transfer has open. -/
theorem Reliable.of_kept (h : g.Reliable) {e : AppEvent} (he : ∀ d, e ≠ .fileTransferEnd d)
    {r : GuiReceiver} {received : UInt32 → Bytes} (running : Bool) (saved : Option SavedFile)
    (hintact : Intact r.app.openAt r.app.files received)
    (hkept : ∀ loc, loc ∉ placesOf g.receiver e → (∀ key, g.receiver.app.openAt key ≠ some loc) →
      r.app.files loc = g.receiver.app.files loc ∧ ∀ key, r.app.openAt key ≠ some loc) :
    Reliable ⟨r, received, running, g.reportedWith e saved⟩ := by
  have hold : ∀ loc content, g.reportedWith e saved loc = some content →
      g.reported loc = some content ∧ r.app.files loc = g.receiver.app.files loc ∧
        ∀ key, r.app.openAt key ≠ some loc := by
    intro loc content hreported
    obtain ⟨hplace, hrep⟩ := mem_reportedWith he hreported
    exact ⟨hrep, hkept loc hplace (h.closed loc content hrep)⟩
  refine ⟨hintact, ?_, ?_⟩
  · intro loc content hreported
    obtain ⟨hrep, hfiles, -⟩ := hold loc content hreported
    exact hfiles.trans (h.holds loc content hrep)
  · intro loc content hreported
    exact (hold loc content hreported).2.2

/-- **One step.**  While the mailbox thread runs, open transfers keep their files, and so do the
reports. -/
theorem step_reliable (h : g.ReliableWhileRunning) {call : SavingCall} (hok : g.Undisturbed call) :
    (g.step call).ReliableWhileRunning := by
  cases call with
  | setSaveDirectory dir =>
    intro hrun
    obtain ⟨hintact, hholds, hclosed⟩ := h hrun
    exact ⟨hintact, hholds, hclosed⟩
  | event flt mv e =>
    by_cases hrun : g.running = true
    · have hrel := h hrun
      intro hrun'
      have hstatus : (g.receiver.handle flt mv e).1 = .ok := by
        rw [step_of_running hrun] at hrun'
        exact of_decide_eq_true hrun'
      cases e with
      | messageIncoming text now sender =>
        rw [step_of_running hrun]
        exact hrel.of_kept (by intro d h; cases h) _ _ hrel.intact fun loc _ hclosed => ⟨rfl, hclosed⟩
      | fileOffer d =>
        rw [step_of_running hrun]
        exact hrel.of_kept (by intro d h; cases h) _ _ hrel.intact fun loc _ hclosed => ⟨rfl, hclosed⟩
      | fileTransferBegin d =>
        obtain ⟨hopen, hfiles⟩ := App.handleFileTransferBegin_of_ok hstatus
        rw [step_of_running hrun]
        apply hrel.of_kept (by intro d h; cases h)
        · unfold GuiReceiver.handle receivedWith
          rw [hopen, hfiles]
          exact hrel.intact.update hok.1 []
        · intro loc hplace hclosed
          have hne : loc ≠ BVReceivedFile.fileAt g.receiver.app.rootdir (beforeBar d.fdata)
              (afterBar d.fdata) := fun heq => hplace (List.mem_singleton.mpr heq)
          refine ⟨?_, fun key => ?_⟩
          · exact (congrFun hfiles loc).trans (Function.update_of_ne hne _ _)
          · show (g.receiver.app.handleFileTransferBegin flt d).2.openAt key ≠ some loc
            rw [hopen]
            by_cases hd : key = d.correlationKey
            · rw [hd, Function.update_self]
              exact fun heq => hne (Option.some.inj heq).symm
            · rw [Function.update_of_ne hd]
              exact hclosed key
      | fileTransferChunkSent d =>
        obtain ⟨loc, hloc, hopen, hfiles⟩ := App.handleFileChunkSent_of_ok hstatus
        rw [step_of_running hrun]
        apply hrel.of_kept (by intro d h; cases h)
        · have hreach : flt.reaching d.fdata = d.fdata := hok.1
          unfold GuiReceiver.handle receivedWith
          rw [hopen, hfiles, hreach, BVReceivedFile.appendTo, hrel.intact.holds _ _ hloc]
          exact hrel.intact.write hloc _
        · intro loc' _ hclosed
          have hne : loc' ≠ loc := by
            rintro rfl
            exact hclosed _ hloc
          refine ⟨?_, fun key => ?_⟩
          · exact (congrFun hfiles loc').trans (Function.update_of_ne hne _ _)
          · show (g.receiver.app.handleFileChunkSent flt d).2.openAt key ≠ some loc'
            rw [hopen]
            exact hclosed key
      | fileTransferEnd d =>
        apply hrel.fileTransferEnd hrun hok
        rw [← GuiReceiver.handleFileTransferEnd_status]
        exact hstatus
    · have hstep : g.step (.event flt mv e) = g := if_neg hrun
      rw [hstep]
      exact h

/-- **Reported files hold.**  In every run in which no transfer is begun or ended where another one
writes, every file that was reported is complete where it was reported, until a handler works at its
place again. -/
theorem reported_files_hold (rootdir : Bytes) (files : Files) (saveDir : Bytes)
    (calls : List SavingCall)
    (hok : Runs.Meets step Undisturbed (start rootdir files saveDir) calls) :
    let g := Runs.run step (start rootdir files saveDir) calls
    g.running = true → ∀ loc content, g.reported loc = some content →
      g.receiver.app.files loc = some content := by
  intro g hrun
  have h : g.ReliableWhileRunning := Runs.run_invariant (I := ReliableWhileRunning)
    (fun _ _ h hcall => step_reliable h hcall) (start_reliable rootdir files saveDir) hok
  exact (h hrun).holds

/-- The directory `/d` of the user is on another volume: the file is copied there. -/
def otherVolume : List SavingCall :=
  let mv : MoveFaults := { MoveFaults.none with rename := true }
  Saving.threeBytes.map fun call => .event call.1 mv call.2

theorem reported_files_hold_other_volume :
    let g := Runs.run step (start [47] (fun _ => none) [47, 100]) otherVolume
    g.reported [[100], [97], [120]] = some [1, 2, 3] ∧
      g.receiver.app.files [[100], [97], [120]] = some [1, 2, 3] := by
  have hok : Runs.Meets step Undisturbed (start [47] (fun _ => none) [47, 100]) otherVolume := by
    refine ⟨⟨?_, trivial, nofun⟩, ⟨rfl, trivial, nofun⟩, ⟨trivial, ?_, ?_⟩, trivial⟩
    · intro key _ hopen
      cases hopen
    · intro _ _ _ _
      refine ⟨by decide, ?_⟩
      intro b hb
      cases hb
    · -- no other transfer is open
      rintro d names ⟨⟩ - key hkey hopen
      have hnone : Function.update (fun _ : UInt32 => (none : Option (Bytes × Bytes))) 7
          (some ([97], [120])) key = none := Function.update_of_ne hkey _ _
      exact App.openAt_ne_none_iff.mp (hopen ▸ Option.some_ne_none _) hnone
  have hreported : (Runs.run step (start [47] (fun _ => none) [47, 100]) otherVolume).reported
      [[100], [97], [120]] = some [1, 2, 3] := by decide
  exact ⟨hreported, reported_files_hold _ _ _ _ hok (by decide) _ _ hreported⟩

end GuiSaving

end LocalChat
