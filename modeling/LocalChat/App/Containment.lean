import LocalChat.App.Basic
import LocalChat.Session.Spec

/-!
# Where received files end up

`BVReceivedFile` promises the layout `<root>/data/<serviceName>/<fname>`, and both names come
from the peer, out of the payload of a BEGIN frame.  `Inside` says that the layout is kept after
lexical normalisation.

* `inside_iff_respells`: the exact condition on the two names.  Each is a walk that may climb past
  names of its directory; it stays inside when it spells those names again, and the service name
  then goes down by exactly one more name and the file name by at least one.
* `inside_of_names`: in particular two ordinary names stay inside.
* `handle_files_of_ne`: no handler touches a file other than the one of the names it works with.
* `begin_keepsInside_iff`: the condition for the handlers of a transfer, from its BEGIN frame on.
-/

namespace LocalChat

open Octets PosixPath

def DirectChild (d p : List Name) : Prop := d <+: p ∧ p.length = d.length + 1

def StrictlyBelow (d p : List Name) : Prop := d <+: p ∧ d.length < p.length

theorem directChild_iff (d p : List Name) : DirectChild d p ↔ ∃ n, p = d ++ [n] := by
  constructor
  · rintro ⟨⟨ns, rfl⟩, hlen⟩
    rw [List.length_append, Nat.add_left_cancel_iff] at hlen
    obtain ⟨n, rfl⟩ := List.length_eq_one_iff.mp hlen
    exact ⟨n, rfl⟩
  · rintro ⟨n, rfl⟩
    exact ⟨List.prefix_append _ _, by simp⟩

theorem strictlyBelow_iff (d p : List Name) : StrictlyBelow d p ↔ ∃ n ns, p = d ++ n :: ns := by
  constructor
  · rintro ⟨⟨ns, rfl⟩, hlen⟩
    rw [List.length_append] at hlen
    obtain ⟨n, ns, rfl⟩ := List.exists_cons_of_length_pos (l := ns) (by omega)
    exact ⟨n, ns, rfl⟩
  · rintro ⟨n, ns, rfl⟩
    exact ⟨List.prefix_append _ _, by simp⟩

namespace BVReceivedFile

/-- The directory of the sender is an entry of `<root>/data`, and the file is below it. -/
def Inside (root serviceName fname : Bytes) : Prop :=
  DirectChild (resolve (join root dataDir)) (resolve (dirFor root serviceName)) ∧
    StrictlyBelow (resolve (dirFor root serviceName)) (resolve (pathFor root serviceName fname))

instance (root serviceName fname : Bytes) : Decidable (Inside root serviceName fname) :=
  inferInstanceAs (Decidable ((_ ∧ _) ∧ (_ ∧ _)))

/-- The walk `p` from `base` spells what it climbed past again and goes on along `ns`. -/
def Respells (base : List Name) (p : Bytes) (ns : List Name) : Prop :=
  below p = base.drop (kept base p) ++ ns

/-- **When a received file stays inside**, for any two names. -/
theorem inside_iff_respells (root serviceName fname : Bytes) :
    Inside root serviceName fname ↔
      ∃ n, Respells (resolve (join root dataDir)) serviceName [n] ∧
        ∃ m ms, Respells (resolve (join root dataDir) ++ [n]) fname (m :: ms) := by
  have hdir : ∀ n, resolve (dirFor root serviceName) = resolve (join root dataDir) ++ [n] ↔
      Respells (resolve (join root dataDir)) serviceName [n] := by
    intro n
    exact resolve_join_eq_append_iff _ _ _
  have hfile : ∀ m ms, resolve (pathFor root serviceName fname) =
      resolve (dirFor root serviceName) ++ m :: ms ↔
        Respells (resolve (dirFor root serviceName)) fname (m :: ms) := by
    intro m ms
    exact resolve_join_eq_append_iff _ _ _
  rw [Inside, directChild_iff, strictlyBelow_iff]
  simp only [hdir, hfile]
  constructor
  · rintro ⟨⟨n, hn⟩, m, ms, hm⟩
    rw [(hdir n).mpr hn] at hm
    exact ⟨n, hn, m, ms, hm⟩
  · rintro ⟨n, hn, m, ms, hm⟩
    rw [← (hdir n).mpr hn] at hm
    exact ⟨⟨n, hn⟩, m, ms, hm⟩

theorem respells_of_name {n : Name} (h : IsName n) (base : List Name) : Respells base n [n] := by
  have hwalk : descend base n = base ++ [n] := descend_name h base
  rw [descend_eq_append_iff] at hwalk
  rw [Respells, kept, isAbsolute_name h, if_neg Bool.false_ne_true]
  exact hwalk

/-- Two ordinary names keep the layout. -/
theorem inside_of_names {serviceName fname : Bytes} (hs : IsName serviceName) (hf : IsName fname)
    (root : Bytes) : Inside root serviceName fname :=
  (inside_iff_respells root serviceName fname).mpr
    ⟨serviceName, respells_of_name hs _, fname, [], respells_of_name hf _⟩

theorem fileAt_of_names {serviceName fname : Bytes} (hs : IsName serviceName) (hf : IsName fname)
    (root : Bytes) :
    fileAt root serviceName fname = resolve root ++ [dataDir, serviceName, fname] := by
  have hdata : IsName dataDir := by decide
  rw [fileAt, pathFor, dirFor, resolve, descend_join_of_relative (isAbsolute_name hf),
    descend_join_of_relative (isAbsolute_name hs), descend_join_of_relative (isAbsolute_name hdata),
    descend_name hf, descend_name hs, descend_name hdata, resolve]
  simp

end BVReceivedFile

/-! ### The files a handler works on -/

namespace App

def workingNames (a : App) : AppEvent → Option (Bytes × Bytes)
  | .fileTransferBegin d => some (beforeBar d.fdata, afterBar d.fdata)
  | .fileTransferChunkSent d => a.fileTransferData d.correlationKey
  | .fileTransferEnd d => a.fileTransferData d.correlationKey
  | .messageIncoming _ _ _ => none
  | .fileOffer _ => none

/-- The file a handler works on is inside the directory of its sender. -/
def KeepsInside (a : App) (e : AppEvent) : Prop :=
  ∀ serviceName fname, a.workingNames e = some (serviceName, fname) →
    BVReceivedFile.Inside a.rootdir serviceName fname

theorem appendTo_of_ne {loc loc' : List Name} (h : loc' ≠ loc) (data : Bytes) (files : Files) :
    BVReceivedFile.appendTo loc data files loc' = files loc' :=
  Function.update_of_ne h _ _

/-- **No other file is touched**: whatever the operating system refuses, a handler leaves every file
alone that is not the one of the names it works with. -/
theorem handle_files_of_ne (flt : Faults) (e : AppEvent) (a : App) (loc : List Name)
    (h : ∀ serviceName fname, a.workingNames e = some (serviceName, fname) →
      loc ≠ BVReceivedFile.fileAt a.rootdir serviceName fname) :
    (a.handle flt e).2.files loc = a.files loc := by
  cases e with
  | messageIncoming text now sender => rfl
  | fileOffer d => rfl
  | fileTransferBegin d =>
    have hne := h _ _ rfl
    simp only [handle, handleFileTransferBegin, BVReceivedFile.begin_]
    by_cases hdir : flt.createDirectories
    · simp [hdir]
    · by_cases hopen : flt.openFile
      · simp [hdir, hopen]
      · simpa [hdir, hopen] using Function.update_of_ne hne _ _
  | fileTransferChunkSent d =>
    simp only [handle, handleFileChunkSent]
    cases hentry : a.fileTransferData d.correlationKey with
    | none => rfl
    | some names =>
      have hne := h names.1 names.2 hentry
      simp only [BVReceivedFile.appendChunk]
      by_cases hopen : flt.openFile
      · simp [hopen]
      · by_cases hwrite : flt.write <;>
          simpa [hopen, hwrite] using appendTo_of_ne hne _ _
  | fileTransferEnd d =>
    simp only [handle, handleFileTransferEnd]
    cases hentry : a.fileTransferData d.correlationKey with
    | none => rfl
    | some names =>
      have hne := h names.1 names.2 hentry
      simp only [BVReceivedFile.finish]
      by_cases hopen : flt.openFile
      · simp [hopen]
      · by_cases hresize : flt.resizeFile
        · simpa [hopen, hresize, BVReceivedFile.appendTo] using appendTo_of_ne hne _ _
        · simp [hopen, hresize, BVReceivedFile.appendTo, Function.update_of_ne hne]

/-! ### What the handlers leave alone -/

/-- The handlers of chat messages and transfers change the received files and what is kept about
them. -/
theorem handle_eq_of_ne_offer (flt : Faults) (e : AppEvent) (a : App) (h : ∀ d, e ≠ .fileOffer d) :
    ∃ files names bytes, (a.handle flt e).2 =
      { a with files := files, fileTransferData := names, recvBytes := bytes } := by
  cases e with
  | messageIncoming text now sender => exact ⟨_, _, _, rfl⟩
  | fileOffer d => exact absurd rfl (h d)
  | fileTransferBegin d =>
    simp only [handle, handleFileTransferBegin]
    split <;> exact ⟨_, _, _, rfl⟩
  | fileTransferChunkSent d =>
    simp only [handle, handleFileChunkSent]
    split
    · exact ⟨_, _, _, rfl⟩
    · split <;> exact ⟨_, _, _, rfl⟩
  | fileTransferEnd d =>
    simp only [handle, handleFileTransferEnd]
    split
    · exact ⟨_, _, _, rfl⟩
    · split <;> exact ⟨_, _, _, rfl⟩

theorem handle_rootdir (flt : Faults) (e : AppEvent) (a : App) :
    (a.handle flt e).2.rootdir = a.rootdir := by
  by_cases hoffer : ∃ d, e = .fileOffer d
  · obtain ⟨d, rfl⟩ := hoffer
    rfl
  · obtain ⟨files, names, bytes, heq⟩ :=
      handle_eq_of_ne_offer flt e a fun d hd => hoffer ⟨d, hd⟩
    rw [heq]

theorem handle_pendingOffer (flt : Faults) (e : AppEvent) (a : App)
    (h : ∀ d, e ≠ .fileOffer d) : (a.handle flt e).2.pendingOffer = a.pendingOffer := by
  obtain ⟨files, names, bytes, heq⟩ := handle_eq_of_ne_offer flt e a h
  rw [heq]

/-- A BEGIN event opens its file and notes its names, or does nothing. -/
theorem handle_begin_cases (flt : Faults) (d : BVTCPFileData) (a : App) :
    ((a.handle flt (.fileTransferBegin d)).1 = .ok ∧
      (a.handle flt (.fileTransferBegin d)).2.fileTransferData = Function.update a.fileTransferData
        d.correlationKey (some (beforeBar d.fdata, afterBar d.fdata))) ∨
    ((a.handle flt (.fileTransferBegin d)).1 ≠ .ok ∧
      (a.handle flt (.fileTransferBegin d)).2 = a) := by
  simp only [handle, handleFileTransferBegin, BVReceivedFile.begin_]
  by_cases hdir : flt.createDirectories
  · exact .inr (by simp [hdir])
  · by_cases hopen : flt.openFile
    · exact .inr (by simp [hdir, hopen])
    · exact .inl (by simp [hdir, hopen])

theorem handle_fileTransferData (flt : Faults) (e : AppEvent) (a : App)
    (h : ∀ d, e ≠ .fileTransferBegin d) {key : UInt32} {v : Bytes × Bytes}
    (hv : (a.handle flt e).2.fileTransferData key = some v) : a.fileTransferData key = some v := by
  cases e with
  | messageIncoming text now sender => exact hv
  | fileOffer d => exact hv
  | fileTransferBegin d => exact absurd rfl (h d)
  | fileTransferChunkSent d =>
    simp only [handle, handleFileChunkSent] at hv
    split at hv
    · exact hv
    · split at hv <;> exact hv
  | fileTransferEnd d =>
    simp only [handle, handleFileTransferEnd] at hv
    split at hv
    · exact hv
    · split at hv
      · by_cases hk : key = d.correlationKey
        · subst hk
          simp at hv
        · simpa [hk] using hv
      · exact hv

end App

/-! ### The names of a BEGIN frame -/

/-- The names in the payload of a frame spell again what they climb past. -/
def StaysDown (root frame past : Bytes) : Prop :=
  ∃ n, BVReceivedFile.Respells (resolve (join root BVReceivedFile.dataDir))
      (beforeBar (getFileData frame past)) [n] ∧
    ∃ m ms, BVReceivedFile.Respells (resolve (join root BVReceivedFile.dataDir) ++ [n])
      (afterBar (getFileData frame past)) (m :: ms)

/-- **The file of a BEGIN frame.**  The BEGIN handler, and then the chunk and END handlers for its
key, work inside the directory of the sender exactly when both names in the frame spell again what
they climb past. -/
theorem begin_keepsInside_iff (a : App) (env : Env) (frame : Bytes) :
    (a.KeepsInside (Session.beginEvent env frame) ∧
      ∀ d : BVTCPFileData, d.correlationKey = (getFileHeader frame).correlationKey →
        (a.handle .none (Session.beginEvent env frame)).2.KeepsInside (.fileTransferChunkSent d) ∧
        (a.handle .none (Session.beginEvent env frame)).2.KeepsInside (.fileTransferEnd d)) ↔
      StaysDown a.rootdir frame env.past := by
  have hinside := BVReceivedFile.inside_iff_respells a.rootdir
    (beforeBar (getFileData frame env.past)) (afterBar (getFileData frame env.past))
  have hbegun : ∀ d : BVTCPFileData, d.correlationKey = (getFileHeader frame).correlationKey →
      (a.handle .none (Session.beginEvent env frame)).2.fileTransferData d.correlationKey =
        some (beforeBar (getFileData frame env.past), afterBar (getFileData frame env.past)) := by
    intro d hd
    rw [hd]
    exact Function.update_self _ _ _
  constructor
  · rintro ⟨hbegin, -⟩
    exact hinside.mp (hbegin _ _ rfl)
  · intro hstays
    have h := hinside.mpr hstays
    refine ⟨?_, ?_⟩
    · rintro serviceName fname ⟨⟩
      exact h
    · intro d hd
      refine ⟨?_, ?_⟩
      all_goals
        intro serviceName fname hnames
        have hentry := (hbegun d hd).symm.trans hnames
        obtain ⟨rfl, rfl⟩ : _ = serviceName ∧ _ = fname := by simpa using hentry
        exact h

/-- The BEGIN frame with payload `a|../../x`. -/
def climbingFrame : Bytes :=
  writeFileChunkSync ⟨constructFileHeader 0 BVTCPMessageType.fileTransferBegin 0
    (beginMetadata 64 1), [97, 124, 46, 46, 47, 46, 46, 47, 120, 0]⟩ 117

/-- An app under `/r` that handles `climbingFrame` writes to `/r/x`. -/
theorem climbingFrame_escapes :
    climbingFrame.length = messageFrameSizeBytes ∧
      ((App.start [47, 114] fun _ => none).handle .none
        (Session.beginEvent .blank climbingFrame)).2.files [[114], [120]] = some [] ∧
      ¬ (App.start [47, 114] fun _ => none).KeepsInside
        (Session.beginEvent .blank climbingFrame) := by
  refine ⟨by decide +kernel, by decide +kernel, ?_⟩
  intro h
  have hin := h (beforeBar (getFileData climbingFrame []))
    (afterBar (getFileData climbingFrame [])) rfl
  revert hin
  decide +kernel

end LocalChat
