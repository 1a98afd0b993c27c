import LocalChat.App.Destination

/-!
# Which files are reported saved

`HandleFileTransferEnd` reports a file saved when `Finish` returns OK.  `Finish` appends the last
payload, does not look at what became of the write, and cuts or fills the file to the size that the
peer has announced.

A `Saving` is the app with what has come in for each key since its BEGIN.

* `Intact`: every open transfer has a file of its own, which holds what has come in for it.
* `step_intact`: the handlers keep this, as long as no BEGIN opens the file of another transfer and
  the chunks reach their files.
* `saved_complete_along_iff`: in such runs the files that are reported saved are complete exactly if
  at each END enough has come in.
-/

namespace LocalChat

open Octets PosixPath

/-! ### What a write loses -/

def Faults.lost (flt : Faults) (data : Bytes) : Bytes := data.drop (flt.reaching data).length

theorem Faults.reaching_append_lost (flt : Faults) (data : Bytes) :
    flt.reaching data ++ flt.lost data = data := by
  unfold Faults.lost Faults.reaching
  split
  · simp
  · exact take_append_drop_length data _

/-- Filling `s` up to `n` bytes does for what should have followed exactly if this is all zeros. -/
theorem padTo_eq_take_append_iff {n : Nat} {s z : Bytes} (h : n ≤ s.length + z.length) :
    padTo n s = (s ++ z).take n ↔ ∀ b ∈ z.take (n - s.length), b = 0 := by
  rw [padTo, List.take_append, List.append_cancel_left_eq, eq_comm, List.eq_replicate_iff]
  constructor
  · rintro ⟨-, hzero⟩
    exact hzero
  · intro hzero
    refine ⟨?_, hzero⟩
    rw [List.length_take]
    omega

/-! ### Files of open transfers -/

def App.openAt (a : App) (key : UInt32) : Option (List Name) :=
  (a.fileTransferData key).map fun names => BVReceivedFile.fileAt a.rootdir names.1 names.2

/-- Each transfer that is open has a file of its own, which holds what has come in for it. -/
structure Intact (openAt : UInt32 → Option (List Name)) (files : Files)
    (received : UInt32 → Bytes) : Prop where
  holds : ∀ key loc, openAt key = some loc → files loc = some (received key)
  apart : ∀ key key' loc, openAt key = some loc → openAt key' = some loc → key = key'

namespace Intact

variable {openAt : UInt32 → Option (List Name)} {files : Files} {received : UInt32 → Bytes}

theorem update (h : Intact openAt files received) {key : UInt32} {loc : List Name}
    (hfree : ∀ key', key' ≠ key → openAt key' ≠ some loc) (content : Bytes) :
    Intact (Function.update openAt key (some loc)) (Function.update files loc (some content))
      (Function.update received key content) where
  holds := by
    intro key' loc' hopen
    by_cases hkey : key' = key
    · subst hkey
      rw [Function.update_self] at hopen ⊢
      cases hopen
      exact Function.update_self _ _ _
    · rw [Function.update_of_ne hkey] at hopen ⊢
      have hloc : loc' ≠ loc := by
        rintro rfl
        exact hfree key' hkey hopen
      rw [Function.update_of_ne hloc]
      exact h.holds key' loc' hopen
  apart := by
    intro key₁ key₂ loc' h₁ h₂
    by_cases hkey₁ : key₁ = key <;> by_cases hkey₂ : key₂ = key
    · exact hkey₁.trans hkey₂.symm
    · subst hkey₁
      rw [Function.update_self] at h₁
      rw [Function.update_of_ne hkey₂] at h₂
      cases h₁
      exact absurd h₂ (hfree key₂ hkey₂)
    · subst hkey₂
      rw [Function.update_self] at h₂
      rw [Function.update_of_ne hkey₁] at h₁
      cases h₂
      exact absurd h₁ (hfree key₁ hkey₁)
    · rw [Function.update_of_ne hkey₁] at h₁
      rw [Function.update_of_ne hkey₂] at h₂
      exact h.apart key₁ key₂ loc' h₁ h₂

theorem write (h : Intact openAt files received) {key : UInt32} {loc : List Name}
    (hopen : openAt key = some loc) (content : Bytes) :
    Intact openAt (Function.update files loc (some content))
      (Function.update received key content) := by
  have hfree : ∀ key', key' ≠ key → openAt key' ≠ some loc := by
    intro key' hne hopen'
    exact hne (h.apart key' key loc hopen' hopen)
  have hsame : Function.update openAt key (some loc) = openAt := by
    rw [← hopen, Function.update_eq_self]
  have hnext := h.update hfree content
  rw [hsame] at hnext
  exact hnext

theorem close (h : Intact openAt files received) {key : UInt32} {loc : List Name}
    (hopen : openAt key = some loc) (content : Option Bytes) (payload : Bytes) :
    Intact (Function.update openAt key none) (Function.update files loc content)
      (Function.update received key payload) where
  holds := by
    intro key' loc' hopen'
    have hkey : key' ≠ key := by
      rintro rfl
      rw [Function.update_self] at hopen'
      cases hopen'
    rw [Function.update_of_ne hkey] at hopen' ⊢
    have hloc : loc' ≠ loc := by
      rintro rfl
      exact hkey (h.apart key' key loc' hopen' hopen)
    rw [Function.update_of_ne hloc]
    exact h.holds key' loc' hopen'
  apart := by
    intro key₁ key₂ loc' h₁ h₂
    have hkey : ∀ key', Function.update openAt key none key' = some loc' → key' ≠ key := by
      rintro key' hopen' rfl
      rw [Function.update_self] at hopen'
      cases hopen'
    rw [Function.update_of_ne (hkey key₁ h₁)] at h₁
    rw [Function.update_of_ne (hkey key₂ h₂)] at h₂
    exact h.apart key₁ key₂ loc' h₁ h₂

end Intact

/-! ### Handlers that return OK -/

namespace App

variable {a : App} {flt : Faults} {d : BVTCPFileData}

theorem openAt_ne_none_iff {key : UInt32} :
    a.openAt key ≠ none ↔ a.fileTransferData key ≠ none := by
  rw [openAt, ne_eq, Option.map_eq_none_iff]

/-- A file that is begun is open for its key, and one that is finished is not. -/
theorem openAt_update (key : UInt32) (names : Option (Bytes × Bytes)) (files : Files)
    (recvBytes : UInt64) :
    openAt { a with
      files := files
      fileTransferData := Function.update a.fileTransferData key names
      recvBytes := recvBytes } =
    Function.update a.openAt key
      (names.map fun names => BVReceivedFile.fileAt a.rootdir names.1 names.2) := by
  funext key'
  by_cases hkey : key' = key
  · subst hkey
    simp [openAt]
  · simp [openAt, hkey]

theorem handleFileTransferBegin_of_ok (h : (a.handleFileTransferBegin flt d).1 = .ok) :
    let loc := BVReceivedFile.fileAt a.rootdir (beforeBar d.fdata) (afterBar d.fdata)
    (a.handleFileTransferBegin flt d).2.openAt =
        Function.update a.openAt d.correlationKey (some loc) ∧
      (a.handleFileTransferBegin flt d).2.files = Function.update a.files loc (some []) := by
  obtain ⟨hdir, hopen⟩ := handleFileTransferBegin_ok_iff.mp h
  simp only [handleFileTransferBegin, BVReceivedFile.begin_, hdir, hopen, Bool.false_eq_true,
    if_false, and_true]
  exact openAt_update _ _ _ _

theorem handleFileChunkSent_of_ok (h : (a.handleFileChunkSent flt d).1 = .ok) :
    ∃ loc, a.openAt d.correlationKey = some loc ∧
      (a.handleFileChunkSent flt d).2.openAt = a.openAt ∧
      (a.handleFileChunkSent flt d).2.files =
        BVReceivedFile.appendTo loc (flt.reaching d.fdata) a.files := by
  obtain ⟨hknown, hopen, hwrite⟩ := handleFileChunkSent_ok_iff.mp h
  obtain ⟨⟨serviceName, fname⟩, hentry⟩ := Option.ne_none_iff_exists'.mp hknown
  refine ⟨BVReceivedFile.fileAt a.rootdir serviceName fname, by simp [openAt, hentry], ?_⟩
  simp only [handleFileChunkSent, hentry, BVReceivedFile.appendChunk, hopen, hwrite,
    Bool.false_eq_true, if_false, and_true]
  rfl

theorem handleFileTransferEnd_of_ok (h : (a.handleFileTransferEnd flt d).1 = .ok) :
    ∃ loc, a.openAt d.correlationKey = some loc ∧
      (a.handleFileTransferEnd flt d).2.openAt =
        Function.update a.openAt d.correlationKey none ∧
      (a.handleFileTransferEnd flt d).2.files = Function.update a.files loc
        (some (padTo d.fsize.toNat ((a.files loc).getD [] ++ flt.reaching d.fdata))) := by
  obtain ⟨hknown, hopen, hresize⟩ := handleFileTransferEnd_ok_iff.mp h
  obtain ⟨⟨serviceName, fname⟩, hentry⟩ := Option.ne_none_iff_exists'.mp hknown
  refine ⟨BVReceivedFile.fileAt a.rootdir serviceName fname, by simp [openAt, hentry], ?_⟩
  simp only [handleFileTransferEnd, hentry, BVReceivedFile.finish, hopen, hresize,
    BVReceivedFile.appendTo, Function.update_self, Function.update_idem, Bool.false_eq_true,
    if_false, and_true]
  exact openAt_update _ _ _ _

end App

/-! ### The handlers in turn -/

/-- The app, with the payload bytes that have come in for each key since its BEGIN. -/
structure Saving where
  app : App
  received : UInt32 → Bytes
  /-- no handler has returned anything but OK; this ends the mailbox thread -/
  running : Bool

def receivedWith (received : UInt32 → Bytes) : AppEvent → UInt32 → Bytes
  | .fileTransferBegin d => Function.update received d.correlationKey []
  | .fileTransferChunkSent d =>
    Function.update received d.correlationKey (received d.correlationKey ++ d.fdata)
  | .fileTransferEnd d =>
    Function.update received d.correlationKey (received d.correlationKey ++ d.fdata)
  | .messageIncoming _ _ _ => received
  | .fileOffer _ => received

namespace Saving

def start (rootdir : Bytes) (files : Files) : Saving where
  app := .start rootdir files
  received := fun _ => []
  running := true

def step (g : Saving) (call : Faults × AppEvent) : Saving :=
  if g.running then
    let r := g.app.handle call.1 call.2
    { app := r.2, received := receivedWith g.received call.2, running := decide (r.1 = .ok) }
  else g

/-- If an END is reported saved, then at least the announced bytes have come in and the file is the
first of them. -/
def SavedComplete (g : Saving) : Faults × AppEvent → Prop
  | (flt, .fileTransferEnd d) =>
    g.running = true → (g.app.handleFileTransferEnd flt d).1 = .ok →
      d.fsize.toNat ≤ (g.received d.correlationKey ++ d.fdata).length ∧
      ∃ loc, g.app.openAt d.correlationKey = some loc ∧
        (g.app.handleFileTransferEnd flt d).2.files loc =
          some ((g.received d.correlationKey ++ d.fdata).take d.fsize.toNat)
  | _ => True

/-- A BEGIN does not open the file of another open transfer, and a chunk reaches its file as a
whole. -/
def Undisturbed (g : Saving) : Faults × AppEvent → Prop
  | (_, .fileTransferBegin d) =>
    ∀ key, key ≠ d.correlationKey → g.app.openAt key ≠
      some (BVReceivedFile.fileAt g.app.rootdir (beforeBar d.fdata) (afterBar d.fdata))
  | (flt, .fileTransferChunkSent d) => flt.reaching d.fdata = d.fdata
  | _ => True

/-- An END that finds its transfer, its file and a size that can be set comes when enough bytes have
come in, and its write loses nothing but zeros of the announced size. -/
def Complete (g : Saving) : Faults × AppEvent → Prop
  | (flt, .fileTransferEnd d) =>
    g.running = true → g.app.openAt d.correlationKey ≠ none → flt.openFile = false →
      flt.resizeFile = false →
        d.fsize.toNat ≤ (g.received d.correlationKey ++ d.fdata).length ∧
        ∀ b ∈ (flt.lost d.fdata).take (d.fsize.toNat -
            (g.received d.correlationKey ++ flt.reaching d.fdata).length), b = 0
  | _ => True

def IntactWhileRunning (g : Saving) : Prop :=
  g.running = true → Intact g.app.openAt g.app.files g.received

variable {g : Saving}

theorem step_of_running (hrun : g.running = true) (call : Faults × AppEvent) :
    g.step call =
      ⟨(g.app.handle call.1 call.2).2, receivedWith g.received call.2,
        decide ((g.app.handle call.1 call.2).1 = .ok)⟩ := if_pos hrun

/-- **One step.**  While the mailbox thread runs, the open transfers keep files of their own with
what has come in for them. -/
theorem step_intact (h : g.IntactWhileRunning) {call : Faults × AppEvent}
    (hok : g.Undisturbed call) : (g.step call).IntactWhileRunning := by
  intro hrun'
  by_cases hrun : g.running = true
  · rw [step_of_running hrun] at hrun' ⊢
    obtain ⟨flt, e⟩ := call
    have hintact := h hrun
    have hstatus : (g.app.handle flt e).1 = .ok := of_decide_eq_true hrun'
    show Intact (g.app.handle flt e).2.openAt (g.app.handle flt e).2.files
      (receivedWith g.received e)
    cases e with
    | messageIncoming text now sender => exact hintact
    | fileOffer d => exact hintact
    | fileTransferBegin d =>
      obtain ⟨hopen, hfiles⟩ := App.handleFileTransferBegin_of_ok hstatus
      unfold App.handle receivedWith
      rw [hopen, hfiles]
      exact hintact.update hok []
    | fileTransferChunkSent d =>
      obtain ⟨loc, hloc, hopen, hfiles⟩ := App.handleFileChunkSent_of_ok hstatus
      have hreach : flt.reaching d.fdata = d.fdata := hok
      unfold App.handle receivedWith
      rw [hopen, hfiles, hreach, BVReceivedFile.appendTo, hintact.holds _ _ hloc]
      exact hintact.write hloc _
    | fileTransferEnd d =>
      obtain ⟨loc, hloc, hopen, hfiles⟩ := App.handleFileTransferEnd_of_ok hstatus
      unfold App.handle receivedWith
      rw [hopen, hfiles]
      exact hintact.close hloc _ _
  · have hstep : g.step call = g := if_neg hrun
    rw [hstep] at hrun' ⊢
    exact absurd hrun' hrun

/-- The file of an END that returns OK is what has come in, cut to the announced size, exactly if
the write has lost nothing but zeros of it. -/
theorem saved_file_iff (h : Intact g.app.openAt g.app.files g.received) {flt : Faults}
    {d : BVTCPFileData} (hstatus : (g.app.handleFileTransferEnd flt d).1 = .ok)
    (hsize : d.fsize.toNat ≤ (g.received d.correlationKey ++ d.fdata).length) :
    (∃ loc, g.app.openAt d.correlationKey = some loc ∧
      (g.app.handleFileTransferEnd flt d).2.files loc =
        some ((g.received d.correlationKey ++ d.fdata).take d.fsize.toNat)) ↔
      ∀ b ∈ (flt.lost d.fdata).take (d.fsize.toNat -
        (g.received d.correlationKey ++ flt.reaching d.fdata).length), b = 0 := by
  obtain ⟨loc, hloc, -, hfiles⟩ := App.handleFileTransferEnd_of_ok hstatus
  have hsplit : g.received d.correlationKey ++ d.fdata =
      (g.received d.correlationKey ++ flt.reaching d.fdata) ++ flt.lost d.fdata := by
    rw [List.append_assoc, Faults.reaching_append_lost]
  rw [hsplit, List.length_append] at hsize
  rw [hfiles, h.holds _ _ hloc, Option.getD_some, hsplit, ← padTo_eq_take_append_iff hsize]
  constructor
  · rintro ⟨loc', hloc', hsaved⟩
    obtain rfl : loc = loc' := Option.some.inj (hloc.symm.trans hloc')
    rw [Function.update_self] at hsaved
    exact Option.some.inj hsaved
  · intro heq
    refine ⟨loc, hloc, ?_⟩
    rw [Function.update_self, heq]

/-- **One event.**  A file it reports saved is complete exactly if enough has come in for it. -/
theorem savedComplete_iff (h : g.IntactWhileRunning) (call : Faults × AppEvent) :
    g.SavedComplete call ↔ g.Complete call := by
  obtain ⟨flt, e⟩ := call
  cases e with
  | messageIncoming text now sender => exact Iff.rfl
  | fileOffer d => exact Iff.rfl
  | fileTransferBegin d => exact Iff.rfl
  | fileTransferChunkSent d => exact Iff.rfl
  | fileTransferEnd d =>
    constructor
    · intro hsaved hrun hsome hopen hresize
      rw [App.openAt_ne_none_iff] at hsome
      have hstatus := App.handleFileTransferEnd_ok_iff.mpr ⟨hsome, hopen, hresize⟩
      obtain ⟨hsize, hfile⟩ := hsaved hrun hstatus
      exact ⟨hsize, (saved_file_iff (h hrun) hstatus hsize).mp hfile⟩
    · intro hcomplete hrun hstatus
      obtain ⟨hsome, hopen, hresize⟩ := App.handleFileTransferEnd_ok_iff.mp hstatus
      rw [← App.openAt_ne_none_iff] at hsome
      obtain ⟨hsize, hzeros⟩ := hcomplete hrun hsome hopen hresize
      exact ⟨hsize, (saved_file_iff (h hrun) hstatus hsize).mpr hzeros⟩

theorem start_intact (rootdir : Bytes) (files : Files) :
    (start rootdir files).IntactWhileRunning := by
  intro _
  constructor
  · intro key loc hopen
    cases hopen
  · intro key key' loc hopen
    cases hopen

/-- **What is reported saved is complete.**  In a run in which every open transfer has a file of its
own and the chunks reach their files, all files that are reported saved are complete exactly if at
each END enough has come in for the announced size. -/
theorem saved_complete_along_iff (rootdir : Bytes) (files : Files)
    (calls : List (Faults × AppEvent))
    (hok : Runs.Meets step Undisturbed (start rootdir files) calls) :
    (∀ p call, p ++ [call] <+: calls →
      (Runs.run step (start rootdir files) p).SavedComplete call) ↔
      Runs.Meets step Complete (start rootdir files) calls :=
  Runs.forall_step_iff_meets (I := IntactWhileRunning)
    (fun _ _ h hcall _ => step_intact h hcall) (fun _ call h _ => savedComplete_iff h call)
    (start_intact rootdir files) hok

/-- A transfer of three bytes in chunks of two. -/
def threeBytes : List (Faults × AppEvent) :=
  [(.none, .fileTransferBegin ⟨7, 2, 3, [97, 124, 120]⟩),
    (.none, .fileTransferChunkSent ⟨7, 2, 3, [1, 2]⟩),
    (.none, .fileTransferEnd ⟨7, 2, 3, [3, 0]⟩)]

theorem saved_complete_three_bytes :
    (∀ p call, p ++ [call] <+: threeBytes →
      (Runs.run step (start [47] fun _ => none) p).SavedComplete call) ↔
      Runs.Meets step Complete (start [47] fun _ => none) threeBytes := by
  refine saved_complete_along_iff [47] (fun _ => none) threeBytes ⟨?_, rfl, trivial, trivial⟩
  intro key _ hopen
  cases hopen

/-- Five bytes are announced and two arrive, with the END: the file is reported saved, and its last
three bytes are zeros that nobody has sent. -/
theorem short_file_reported_saved :
    let calls : List (Faults × AppEvent) :=
      [(.none, .fileTransferBegin ⟨7, 2, 5, [97, 124, 120]⟩),
        (.none, .fileTransferEnd ⟨7, 2, 5, [1, 2]⟩)]
    let g := Runs.run step (start [47] fun _ => none) calls
    g.running = true ∧ g.received 7 = [1, 2] ∧
      g.app.files (BVReceivedFile.fileAt [47] [97] [120]) = some [1, 2, 0, 0, 0] ∧
      ¬ ∀ p call, p ++ [call] <+: calls →
        (Runs.run step (start [47] fun _ => none) p).SavedComplete call := by
  intro calls g
  refine ⟨by decide, by decide, by decide, ?_⟩
  intro hall
  obtain ⟨hsize, -⟩ := hall [(.none, .fileTransferBegin ⟨7, 2, 5, [97, 124, 120]⟩)]
    (.none, .fileTransferEnd ⟨7, 2, 5, [1, 2]⟩) List.prefix_rfl (by decide) (by decide)
  revert hsize
  decide

end Saving

end LocalChat
