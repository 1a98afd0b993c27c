import LocalChat.App.GuiSaving
import LocalChat.Transfer.Integrity

/-!
# A file arrives where the user wants it

The way of a file goes from the sender's worker over the session into the mailbox of the GUI client,
which puts it together under the working directory and moves it to the directory of the user.

* `listenToMail_body`: the handlers on the events of one transfer.
* `file_saved_where_told`: all the way.  The file is where the user is told, and this is in the
  chosen directory unless both ways of moving it are refused.
-/

namespace LocalChat

open Octets PosixPath

namespace GuiReceiver

/-- The mailbox thread: the statuses, and what the user is told.  Nothing but moving a file is
refused. -/
def listenToMail (mv : MoveFaults) :
    List AppEvent → GuiReceiver → List BVStatus × List SavedFile × GuiReceiver
  | [], g => ([], [], g)
  | e :: es, g =>
    match g.handle .none mv e with
    | (.ok, saved, g) =>
      let r := g.listenToMail mv es
      (.ok :: r.1, saved.toList ++ r.2.1, r.2.2)
    | (callbackStatus, saved, g) => ([callbackStatus], saved.toList, g)

variable {g : GuiReceiver} {mv : MoveFaults} {t : Transfer}

theorem listenToMail_cons {e : AppEvent} {saved : Option SavedFile} {g' : GuiReceiver}
    (h : g.handle .none mv e = (.ok, saved, g')) (es : List AppEvent) :
    g.listenToMail mv (e :: es) =
      (.ok :: (g'.listenToMail mv es).1, saved.toList ++ (g'.listenToMail mv es).2.1,
        (g'.listenToMail mv es).2.2) := by
  rw [listenToMail, h]

theorem handle_begin (h : bar ∉ t.serviceName) :
    g.handle .none mv t.beginEvent =
      (.ok, none, { g with app := (g.app.handle .none t.beginEvent).2 }) := by
  have hstatus : (g.app.handle .none t.beginEvent).1 = .ok := by
    rw [Transfer.handle_begin h g.app]
  show ((g.app.handle .none t.beginEvent).1, _, _) = _
  rw [hstatus]
  rfl

theorem handle_chunk {done : Bytes} (h : Transfer.Receiving g.app t done) (p : UInt64 × Bytes) :
    g.handle .none mv (t.chunkEvent p) =
      (.ok, none, { g with app := (g.app.handle .none (t.chunkEvent p)).2 }) := by
  have hstatus : (g.app.handle .none (t.chunkEvent p)).1 = .ok := by
    rw [h.handle_chunk p]
  show ((g.app.handle .none (t.chunkEvent p)).1, _, _) = _
  rw [hstatus]
  rfl

theorem handle_end (mv : MoveFaults)
    (h : Transfer.Receiving g.app t (t.pieces.map (·.2)).flatten) :
    ∃ file g', g.handle .none mv t.endEvent = (.ok, some file, g') ∧
      g'.app.files file.finalAt = some t.content ∧
      (mv.rename = false ∨ mv.copyFile = none →
        file.finalAt = g.targetOf t.serviceName t.fname) := by
  let d := t.data (padTo t.csize.toNat t.last.2)
  let r : GuiReceiver := { g with app := (g.app.handleFileTransferEnd .none d).2 }
  have hbase : g.app.handleFileTransferEnd .none d = _ := h.handle_end
  have hstatus : (g.app.handleFileTransferEnd .none d).1 = .ok := by rw [hbase]
  have hroot : r.app.rootdir = g.app.rootdir := App.handle_rootdir .none (.fileTransferEnd d) g.app
  have hfile : r.app.files (BVReceivedFile.fileAt r.app.rootdir t.serviceName t.fname) =
      some t.content := by
    rw [hroot]
    show (g.app.handleFileTransferEnd .none d).2.files _ = _
    rw [hbase]
    exact Function.update_self _ _ _
  obtain ⟨files', hplaced, hcontent, -, -⟩ := placeReceived_spec mv t.serviceName t.fname hfile
  refine ⟨(r.placeReceived mv t.serviceName t.fname).1,
    (r.placeReceived mv t.serviceName t.fname).2, ?_, ?_, fun hmv => ?_⟩
  · show g.handleFileTransferEnd .none mv d = _
    rw [handleFileTransferEnd_of_known h.entry, hstatus]
  · rw [hplaced]
    exact hcontent
  · rw [placeReceived_finalAt hmv _ _ hfile]
    exact targetOf_of_root hroot rfl _ _

theorem listenToMail_body (mv : MoveFaults) : ∀ (ps : List (UInt64 × Bytes)) (g : GuiReceiver) (done : Bytes),
    Transfer.Receiving g.app t done →
    done ++ (ps.map (·.2)).flatten = (t.pieces.map (·.2)).flatten →
      ∃ file, (g.listenToMail mv (ps.map t.chunkEvent ++ [t.endEvent])).1 =
          List.replicate (ps.length + 1) .ok ∧
        (g.listenToMail mv (ps.map t.chunkEvent ++ [t.endEvent])).2.1 = [file] ∧
        (g.listenToMail mv (ps.map t.chunkEvent ++ [t.endEvent])).2.2.app.files file.finalAt =
          some t.content ∧
        (mv.rename = false ∨ mv.copyFile = none →
          file.finalAt = g.targetOf t.serviceName t.fname) := by
  intro ps
  induction ps with
  | nil =>
    intro g done h hdone
    obtain rfl : done = (t.pieces.map (·.2)).flatten := by simpa using hdone
    obtain ⟨file, g', hhandle, hcontent, hplace⟩ := handle_end mv h
    refine ⟨file, ?_⟩
    rw [List.map_nil, List.nil_append, listenToMail_cons hhandle]
    exact ⟨rfl, rfl, hcontent, hplace⟩
  | cons p ps ih =>
    intro g done h hdone
    have hnext : Transfer.Receiving (g.app.handle .none (t.chunkEvent p)).2 t (done ++ p.2) := by
      rw [h.handle_chunk p]
      exact ⟨h.entry, Function.update_self _ _ _⟩
    obtain ⟨file, hok, htold, hcontent, hplace⟩ :=
      ih { g with app := (g.app.handle .none (t.chunkEvent p)).2 } _ hnext (by simpa using hdone)
    refine ⟨file, ?_⟩
    rw [List.map_cons, List.cons_append, listenToMail_cons (handle_chunk h p)]
    refine ⟨?_, htold, hcontent, fun hmv => ?_⟩
    · rw [hok]
      rfl
    · rw [hplace hmv]
      apply targetOf_of_root
      · exact App.handle_rootdir .none (t.chunkEvent p) g.app
      · rfl

/-- **A transfer through the GUI client.** -/
theorem listenToMail_events (h : bar ∉ t.serviceName) (mv : MoveFaults) (g : GuiReceiver) :
    ∃ file, (g.listenToMail mv t.events).1 = List.replicate t.events.length .ok ∧
      (g.listenToMail mv t.events).2.1 = [file] ∧
      (g.listenToMail mv t.events).2.2.app.files file.finalAt = some t.content ∧
      (mv.rename = false ∨ mv.copyFile = none →
        file.finalAt = g.targetOf t.serviceName t.fname) := by
  have hbegun : Transfer.Receiving (g.app.handle .none t.beginEvent).2 t [] := by
    rw [Transfer.handle_begin h g.app]
    exact ⟨Function.update_self _ _ _, Function.update_self _ _ _⟩
  obtain ⟨file, hok, htold, hcontent, hplace⟩ := listenToMail_body mv t.pieces
    { g with app := (g.app.handle .none t.beginEvent).2 } [] hbegun rfl
  refine ⟨file, ?_⟩
  rw [Transfer.events, listenToMail_cons (handle_begin h)]
  refine ⟨?_, htold, hcontent, fun hmv => ?_⟩
  · rw [hok]
    simp [List.replicate_succ]
  · rw [hplace hmv]
    apply targetOf_of_root
    · exact App.handle_rootdir .none t.beginEvent g.app
    · rfl

end GuiReceiver

/-- **All the way.**  If the worker for a non-empty file reaches END, the bytes it has written,
followed by any `r`, bring the file to the GUI client: every handler succeeds, the user is told of
one file and finds it there as it was sent.  It is in the directory of the sender under the chosen
one if the file can be renamed or copied. -/
theorem file_saved_where_told (content serviceName fname r : Bytes) (key : UInt32)
    (clock : List UInt64) (hpos : 1 ≤ content.length) (hlt : content.length < 2 ^ 32)
    (hs : IsName serviceName) (hf : IsName fname) (hs0 : 0 ∉ serviceName) (hf0 : 0 ∉ fname)
    (hbar : bar ∉ serviceName)
    (hfits : serviceName.length + 1 + fname.length + 1 ≤ 117)
    (hclock : ∀ now ∈ clock, now.toNat < 5 * 2 ^ 40)
    (hend : ∃ f ∈ sentFrames content serviceName fname key clock,
      f.chunk.header.msgType = BVTCPMessageType.fileTransferEnd)
    (s : Session) (hmode : s.FrameMode) (hst : s.state = .established)
    (hsock : s.socket =
      (sentFrames content serviceName fname key clock).flatMap FileFrame.bytes ++ r)
    (envs : List Env)
    (henvs : envs.length = (sentFrames content serviceName fname key clock).length)
    (g : GuiReceiver) (hdir : isAbsolute g.saveDir = true) (mv : MoveFaults) :
    (s.feed envs).FrameMode ∧ (s.feed envs).socket = r ∧
      ∃ events file, mailboxOf (s.feed envs).log = mailboxOf s.log ++ events ∧
        (g.listenToMail mv events).1 = List.replicate events.length .ok ∧
        (g.listenToMail mv events).2.1 = [file] ∧
        (g.listenToMail mv events).2.2.app.files file.finalAt = some content ∧
        (mv.rename = false ∨ mv.copyFile = none →
          file.finalAt = resolve g.saveDir ++ [serviceName, fname]) := by
  have hne : content ≠ [] := List.ne_nil_of_length_pos hpos
  obtain ⟨t, hframes, rfl, rfl, rfl, rfl, hbegan⟩ :=
    BVFileTransferContext.exists_transfer hne hlt hend
  have hzero : 0 ∉ t.serviceName ++ [bar] ++ t.fname := by
    simp only [List.mem_append, List.mem_singleton, not_or]
    exact ⟨⟨hs0, by decide⟩, hf0⟩
  have hname : t.WellNamed := ⟨hs, hf, hbar, hzero, hfits⟩
  rw [sentFrames, hframes] at hsock henvs
  obtain ⟨hmode', hrest, hmail⟩ := Transfer.feed_frames hmode hst hname
    (undisguised_of_lt (hclock _ hbegan)) hsock henvs
  obtain ⟨file, hok, htold, hcontent, hplace⟩ := GuiReceiver.listenToMail_events hbar mv g
  refine ⟨hmode', hrest, t.events, file, hmail, hok, htold, hcontent, fun hmv => ?_⟩
  rw [hplace hmv, GuiReceiver.targetOf_of_names hs hf hdir]

/-- The file `hi` of the host `a`, for a user whose directory `/d` is on another volume. -/
theorem file_saved_where_told_hi :
    let g : GuiReceiver := ⟨.start [47] fun _ => none, [47, 100]⟩
    let mv : MoveFaults := { MoveFaults.none with rename := true }
    ∃ events file, mailboxOf ((Session.idle [98] [97]
        ((sentFrames [104, 105] [97] [98] 3 [0, 0]).flatMap FileFrame.bytes ++ [7])).feed
          [.blank, .blank]).log = events ∧
      (g.listenToMail mv events).2.1 = [file] ∧
      (g.listenToMail mv events).2.2.app.files [[100], [97], [98]] = some [104, 105] := by
  intro g mv
  obtain ⟨-, -, events, file, hmail, -, htold, hcontent, hplace⟩ :=
    file_saved_where_told [104, 105] [97] [98] [7] 3 [0, 0]
      (by decide) (by decide) (by decide) (by decide) (by decide) (by decide) (by decide)
      (by decide) (by simp) (by decide) _ (Session.idle_frameMode _ _ _) rfl rfl [.blank, .blank]
      (by decide) g rfl mv
  rw [hplace (.inr rfl)] at hcontent
  exact ⟨events, file, hmail, htold, hcontent⟩

end LocalChat
