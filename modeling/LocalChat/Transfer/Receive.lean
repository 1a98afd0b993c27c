import LocalChat.Transfer.Worker
import LocalChat.App.Containment

/-!
# Receiving a transfer

The way of a transfer through the receiving host: its frames through the session
(`feed_frames`), the events they become (`Transfer.events`), and these through the app
(`listenToMail_events`).

* `readOnce_begin`, `readOnce_chunk`, `readOnce_end`: the session turns each frame into its
  event, and by induction over the pieces the whole transfer into `events`.
* `Receiving a t done`: the app has begun `t` and its file holds `done`.
  `Receiving.handle_chunk` and `Receiving.handle_end` are the two steps, `handle_begin` the first.
-/

namespace LocalChat

open Octets PosixPath

namespace Transfer

variable (t : Transfer)

def data (payload : Bytes) : BVTCPFileData := ⟨t.correlationKey, t.csize, t.fsize, payload⟩

def beginEvent : AppEvent := .fileTransferBegin (t.data (t.serviceName ++ [bar] ++ t.fname))

def chunkEvent (p : UInt64 × Bytes) : AppEvent := .fileTransferChunkSent (t.data p.2)

/-- The last piece arrives filled up with zeros. -/
def endEvent : AppEvent := .fileTransferEnd (t.data (padTo t.csize.toNat t.last.2))

def events : List AppEvent := t.beginEvent :: (t.pieces.map t.chunkEvent ++ [t.endEvent])

/-- The names are ordinary path components and fit the BEGIN frame with their terminator. -/
structure WellNamed : Prop where
  serviceName : IsName t.serviceName
  fname : IsName t.fname
  bar_not_mem : bar ∉ t.serviceName
  zero_not_mem : 0 ∉ t.serviceName ++ [bar] ++ t.fname
  fits : t.serviceName.length + 1 + t.fname.length + 1 ≤ controlPayloadBytes

/-! ### The frames on the wire -/

@[simp] theorem length_beginFrame : t.beginFrame.bytes.length = messageFrameSizeBytes := by
  simp [FileFrame.bytes, beginFrame]

@[simp] theorem length_chunkFrame (ty : UInt8) (p : UInt64 × Bytes) :
    (t.chunkFrame ty p).bytes.length = t.csize.toNat + fileHeaderSizeBytes := by
  simp only [FileFrame.bytes, chunkFrame, length_writeFileChunkSync]
  exact Nat.add_comm _ _

theorem msgType_beginFrame :
    at_ t.beginFrame.bytes 9 = UInt8.ofNat (t.beganAt.toNat / 256 ^ 5) :=
  msgType_writeFileChunkSync _ _

theorem fileType_beginFrame : at_ t.beginFrame.bytes 12 = BVTCPMessageType.fileTransferBegin :=
  fileType_writeFileChunkSync _ _

theorem fileType_chunkFrame (ty : UInt8) (p : UInt64 × Bytes) :
    at_ (t.chunkFrame ty p).bytes 12 = ty := fileType_writeFileChunkSync _ _

theorem announcedCsize_beginFrame : Session.announcedCsize t.beginFrame.bytes = t.csize := by
  rw [Session.announcedCsize, FileFrame.bytes, getFileHeader_writeFileChunkSync]
  exact metadataCsize_beginMetadata _ _

theorem announcedFsize_beginFrame : Session.announcedFsize t.beginFrame.bytes = t.fsize := by
  rw [Session.announcedFsize, FileFrame.bytes, getFileHeader_writeFileChunkSync]
  exact metadataFsize_beginMetadata _ _

variable {t}

/-- A BEGIN frame whose names fit is read back whatever lies behind it in memory. -/
theorem WellNamed.beginEvent_eq (h : t.WellNamed) (env : Env) :
    Session.beginEvent env t.beginFrame.bytes = t.beginEvent := by
  have hkey : (getFileHeader t.beginFrame.bytes).correlationKey = t.correlationKey := by
    rw [FileFrame.bytes, getFileHeader_writeFileChunkSync]
    rfl
  have hdata : getFileData t.beginFrame.bytes env.past = t.serviceName ++ [bar] ++ t.fname := by
    refine getFileData_writeFileChunkSync _ env.past h.zero_not_mem ?_
    have hfits := h.fits
    show (t.serviceName ++ [bar] ++ t.fname).length < controlPayloadBytes
    rw [List.length_append, List.length_append, List.length_singleton]
    omega
  rw [Session.beginEvent, hkey, hdata, announcedCsize_beginFrame, announcedFsize_beginFrame]
  rfl

/-- A chunk frame read back under the sizes its BEGIN frame announced. -/
theorem chunkData_chunkFrame {s : Session} (hc : s.csize = t.csize) (hf : s.fsize = t.fsize)
    (ty : UInt8) (p : UInt64 × Bytes) :
    s.chunkData (t.chunkFrame ty p).bytes = t.data (padTo t.csize.toNat p.2) := by
  have hkey : (getFileHeader (t.chunkFrame ty p).bytes).correlationKey = t.correlationKey := by
    rw [FileFrame.bytes, getFileHeader_writeFileChunkSync]
    rfl
  have hdata : getFileDataSized (t.chunkFrame ty p).bytes t.csize.toNat =
      padTo t.csize.toNat p.2 := by
    rw [FileFrame.bytes, chunkFrame, getFileDataSized_writeFileChunkSync]
    exact padTo_of_length (length_padTo _ _)
  rw [Session.chunkData, hkey, hc, hf, hdata]
  rfl

/-! ### Through the session -/

structure Reading (t : Transfer) (s : Session) : Prop where
  chunkMode : s.ChunkMode
  csize : s.csize = t.csize
  fsize : s.fsize = t.fsize

theorem readOnce_begin {s : Session} {rest : Bytes} (env : Env) (h : s.FrameMode)
    (hst : s.state = .established) (hs : s.socket = t.beginFrame.bytes ++ rest)
    (hts : UInt8.ofNat (t.beganAt.toNat / 256 ^ 5) ≠ BVTCPMessageType.chatMessage) :
    t.Reading (s.readOnce env) ∧ Session.Handled s (s.readOnce env) rest
      [.handed .fileTransferBegin t.beginFrame.bytes,
        .putMessageIntoAppMailbox (Session.beginEvent env t.beginFrame.bytes)] := by
  have hfits :
      (Session.announcedCsize t.beginFrame.bytes).toNat + fileHeaderSizeBytes < 2 ^ 32 := by
    rw [announcedCsize_beginFrame]
    exact t.csize_fits
  obtain ⟨hmode, hcsize, hfsize, hhandled⟩ := Session.readOnce_fileTransferBegin env h hst hs
    t.length_beginFrame (by rw [msgType_beginFrame]; exact hts) t.fileType_beginFrame hfits
  rw [announcedCsize_beginFrame] at hcsize
  rw [announcedFsize_beginFrame] at hfsize
  exact ⟨⟨hmode, hcsize, hfsize⟩, hhandled⟩

theorem readOnce_chunk {s : Session} {p : UInt64 × Bytes} {rest : Bytes} (env : Env)
    (h : t.Reading s) (hp : p ∈ t.pieces)
    (hs : s.socket = (t.chunkFrame BVTCPMessageType.fileTransferChunkSent p).bytes ++ rest) :
    t.Reading (s.readOnce env) ∧ Session.Handled s (s.readOnce env) rest
      [.handed .fileChunkSent (t.chunkFrame BVTCPMessageType.fileTransferChunkSent p).bytes,
        .putMessageIntoAppMailbox (t.chunkEvent p)] := by
  have hlen := t.length_chunkFrame BVTCPMessageType.fileTransferChunkSent p
  rw [← h.csize] at hlen
  obtain ⟨hmode, hcsize, hfsize, hhandled⟩ := Session.readOnce_fileChunkSent env h.chunkMode hs hlen
    (t.fileType_chunkFrame _ p)
  rw [chunkData_chunkFrame h.csize h.fsize, padTo_of_length (t.piece_length p hp)] at hhandled
  exact ⟨⟨hmode, hcsize.trans h.csize, hfsize.trans h.fsize⟩, hhandled⟩

theorem readOnce_end {s : Session} {rest : Bytes} (env : Env) (h : t.Reading s)
    (hs : s.socket = (t.chunkFrame BVTCPMessageType.fileTransferEnd t.last).bytes ++ rest) :
    (s.readOnce env).FrameMode ∧ Session.Handled s (s.readOnce env) rest
      [.handed .fileTransferEnd (t.chunkFrame BVTCPMessageType.fileTransferEnd t.last).bytes,
        .putMessageIntoAppMailbox t.endEvent] := by
  have hlen := t.length_chunkFrame BVTCPMessageType.fileTransferEnd t.last
  rw [← h.csize] at hlen
  obtain ⟨hmode, hhandled⟩ := Session.readOnce_fileTransferEnd env h.chunkMode hs hlen
    (t.fileType_chunkFrame _ t.last)
  rw [chunkData_chunkFrame h.csize h.fsize] at hhandled
  exact ⟨hmode, hhandled⟩

theorem feed_body (r : Bytes) :
    ∀ (ps : List (UInt64 × Bytes)) (s : Session) (envs : List Env), (∀ p ∈ ps, p ∈ t.pieces) →
      t.Reading s → envs.length = ps.length + 1 →
      s.socket = (t.bodyFrom ps).flatMap FileFrame.bytes ++ r →
      (s.feed envs).FrameMode ∧ (s.feed envs).socket = r ∧
        mailboxOf (s.feed envs).log =
          mailboxOf s.log ++ (ps.map t.chunkEvent ++ [t.endEvent]) := by
  intro ps
  induction ps with
  | nil =>
    intro s envs _ hs hlen hsock
    obtain ⟨env, rfl⟩ := List.length_eq_one_iff.mp hlen
    have hsock' : s.socket =
        (t.chunkFrame BVTCPMessageType.fileTransferEnd t.last).bytes ++ r := by
      simpa [bodyFrom] using hsock
    obtain ⟨hmode, hhandled⟩ := readOnce_end env hs hsock'
    refine ⟨hmode, hhandled.socket, ?_⟩
    show mailboxOf (s.readOnce env).log = _
    rw [hhandled.log, mailboxOf_append]
    rfl
  | cons p ps ih =>
    intro s envs hps hs hlen hsock
    obtain ⟨env, envs, rfl⟩ : ∃ e es, envs = e :: es :=
      List.exists_cons_of_length_pos (by rw [hlen]; simp)
    rw [bodyFrom, List.map_cons, List.cons_append, List.flatMap_cons, List.append_assoc] at hsock
    obtain ⟨hreading, hhandled⟩ := readOnce_chunk env hs (hps p List.mem_cons_self) hsock
    obtain ⟨hmode, hrest, hmail⟩ := ih (s.readOnce env) envs
      (fun q hq => hps q (List.mem_cons_of_mem p hq)) hreading (by simpa using hlen) hhandled.socket
    refine ⟨hmode, hrest, ?_⟩
    show mailboxOf ((s.readOnce env).feed envs).log = _
    rw [hmail, hhandled.log, mailboxOf_append, List.append_assoc]
    rfl

/-- **A transfer through the session.**  A session that waits for a frame turns the bytes of a
transfer into the transfer's events and then waits for a frame again, with what follows unread. -/
theorem feed_frames {s : Session} {r : Bytes} {envs : List Env} (h : s.FrameMode)
    (hst : s.state = .established) (hname : t.WellNamed)
    (hts : UInt8.ofNat (t.beganAt.toNat / 256 ^ 5) ≠ BVTCPMessageType.chatMessage)
    (hs : s.socket = t.frames.flatMap FileFrame.bytes ++ r)
    (henvs : envs.length = t.frames.length) :
    (s.feed envs).FrameMode ∧ (s.feed envs).socket = r ∧
      mailboxOf (s.feed envs).log = mailboxOf s.log ++ t.events := by
  have hlen : envs.length = t.pieces.length + 1 + 1 := by
    rw [henvs]
    simp [frames, body, bodyFrom]
  obtain ⟨env, envs, rfl⟩ : ∃ e es, envs = e :: es :=
    List.exists_cons_of_length_pos (by rw [hlen]; simp)
  rw [frames, List.flatMap_cons, List.append_assoc] at hs
  obtain ⟨hreading, hhandled⟩ := readOnce_begin env h hst hs hts
  rw [hname.beginEvent_eq] at hhandled
  obtain ⟨hmode, hrest, hmail⟩ := feed_body r t.pieces (s.readOnce env) envs (fun p hp => hp)
    hreading (by simpa using hlen) hhandled.socket
  refine ⟨hmode, hrest, ?_⟩
  show mailboxOf ((s.readOnce env).feed envs).log = _
  rw [hmail, hhandled.log, mailboxOf_append, List.append_assoc]
  rfl

/-! ### Through the app -/

def location (t : Transfer) (rootdir : Bytes) : List Name :=
  BVReceivedFile.fileAt rootdir t.serviceName t.fname

theorem WellNamed.location_eq (h : t.WellNamed) (rootdir : Bytes) :
    t.location rootdir = resolve rootdir ++ [BVReceivedFile.dataDir, t.serviceName, t.fname] :=
  BVReceivedFile.fileAt_of_names h.serviceName h.fname rootdir

theorem beforeBar_append {s : Bytes} (h : bar ∉ s) (f : Bytes) :
    beforeBar (s ++ [bar] ++ f) = s := by
  have hall : ∀ b ∈ s, decide (b ≠ bar) = true := by
    intro b hb
    exact decide_eq_true fun he => h (he ▸ hb)
  rw [beforeBar, List.append_assoc, List.takeWhile_append_of_pos hall]
  simp

theorem afterBar_append {s : Bytes} (h : bar ∉ s) (f : Bytes) : afterBar (s ++ [bar] ++ f) = f := by
  have hall : ∀ b ∈ s, decide (b ≠ bar) = true := by
    intro b hb
    exact decide_eq_true fun he => h (he ▸ hb)
  rw [afterBar, if_pos (by simp), List.append_assoc, List.dropWhile_append_of_pos hall]
  simp

/-- The app has begun `t`, and the file holds `done` so far. -/
structure Receiving (a : App) (t : Transfer) (done : Bytes) : Prop where
  entry : a.fileTransferData t.correlationKey = some (t.serviceName, t.fname)
  file : a.files (t.location a.rootdir) = some done

theorem handle_begin (h : bar ∉ t.serviceName) (a : App) :
    a.handle .none t.beginEvent = (.ok, { a with
      files := Function.update a.files (t.location a.rootdir) (some [])
      fileTransferData := Function.update a.fileTransferData t.correlationKey
        (some (t.serviceName, t.fname))
      recvBytes := 0 }) := by
  simp only [App.handle, beginEvent, App.handleFileTransferBegin, data, beforeBar_append h,
    afterBar_append h, BVReceivedFile.begin_, Bool.false_eq_true, if_false]
  rfl

theorem Receiving.handle_chunk {a : App} {done : Bytes} (h : Receiving a t done)
    (p : UInt64 × Bytes) :
    a.handle .none (t.chunkEvent p) = (.ok, { a with
      files := Function.update a.files (t.location a.rootdir) (some (done ++ p.2))
      recvBytes := a.recvBytes + UInt64.ofNat p.2.length }) := by
  have hentry : a.fileTransferData (t.data p.2).correlationKey = some (t.serviceName, t.fname) :=
    h.entry
  have hfile : a.files (BVReceivedFile.fileAt a.rootdir t.serviceName t.fname) = some done := h.file
  simp only [App.handle, chunkEvent, App.handleFileChunkSent, hentry, BVReceivedFile.appendChunk,
    Bool.false_eq_true, if_false, BVReceivedFile.appendTo, hfile, Option.getD_some,
    Faults.reaching]
  rfl

theorem padTo_content : padTo t.fsize.toNat
    ((t.pieces.map (·.2)).flatten ++ padTo t.csize.toNat t.last.2) = t.content := by
  rw [t.toNat_fsize, padTo_of_length_le t.last_le, ← List.append_assoc]
  rw [padTo, ← content, List.take_left' rfl]
  simp

theorem Receiving.handle_end {a : App} (h : Receiving a t (t.pieces.map (·.2)).flatten) :
    a.handle .none t.endEvent = (.ok, { a with
      files := Function.update a.files (t.location a.rootdir) (some t.content)
      fileTransferData := Function.update a.fileTransferData t.correlationKey none }) := by
  have hentry : a.fileTransferData (t.data (padTo t.csize.toNat t.last.2)).correlationKey =
      some (t.serviceName, t.fname) := h.entry
  have hfile : a.files (BVReceivedFile.fileAt a.rootdir t.serviceName t.fname) =
      some (t.pieces.map (·.2)).flatten := h.file
  simp only [App.handle, endEvent, App.handleFileTransferEnd, hentry, BVReceivedFile.finish,
    Bool.false_eq_true, if_false, BVReceivedFile.appendTo, hfile, Option.getD_some,
    Faults.reaching, Function.update_self, Function.update_idem]
  rw [show (t.data (padTo t.csize.toNat t.last.2)).fsize = t.fsize from rfl,
    show (t.data (padTo t.csize.toNat t.last.2)).fdata = padTo t.csize.toNat t.last.2 from rfl,
    padTo_content]
  rfl

theorem listenToMail_cons {a a' : App} {e : AppEvent} (h : a.handle .none e = (.ok, a'))
    (es : List AppEvent) :
    a.listenToMail (e :: es) = (.ok :: (a'.listenToMail es).1, (a'.listenToMail es).2) := by
  rw [App.listenToMail, h]

theorem listenToMail_body :
    ∀ (ps : List (UInt64 × Bytes)) (a : App) (done : Bytes), Receiving a t done →
      done ++ (ps.map (·.2)).flatten = (t.pieces.map (·.2)).flatten →
      (∀ st ∈ (a.listenToMail (ps.map t.chunkEvent ++ [t.endEvent])).1, st = .ok) ∧
        (a.listenToMail (ps.map t.chunkEvent ++ [t.endEvent])).1.length = ps.length + 1 ∧
        (a.listenToMail (ps.map t.chunkEvent ++ [t.endEvent])).2.files (t.location a.rootdir) =
          some t.content := by
  intro ps
  induction ps with
  | nil =>
    intro a done h hdone
    obtain rfl : done = (t.pieces.map (·.2)).flatten := by simpa using hdone
    rw [List.map_nil, List.nil_append, listenToMail_cons h.handle_end, App.listenToMail]
    refine ⟨by simp, rfl, Function.update_self _ _ _⟩
  | cons p ps ih =>
    intro a done h hdone
    have hnext : Receiving { a with
        files := Function.update a.files (t.location a.rootdir) (some (done ++ p.2))
        recvBytes := a.recvBytes + UInt64.ofNat p.2.length } t (done ++ p.2) :=
      ⟨h.entry, Function.update_self _ _ _⟩
    obtain ⟨hok, hlen, hfile⟩ := ih _ _ hnext (by simpa using hdone)
    rw [List.map_cons, List.cons_append, listenToMail_cons (h.handle_chunk p)]
    refine ⟨?_, by rw [List.length_cons, hlen, List.length_cons], hfile⟩
    intro st hst
    rcases List.mem_cons.mp hst with rfl | hst
    · rfl
    · exact hok st hst

/-- **A transfer through the app.**  Every handler succeeds, and the file is the one that was
sent, whatever was in its place before. -/
theorem listenToMail_events (h : bar ∉ t.serviceName) (a : App) :
    (∀ st ∈ (a.listenToMail t.events).1, st = .ok) ∧
      (a.listenToMail t.events).1.length = t.events.length ∧
      (a.listenToMail t.events).2.files (t.location a.rootdir) = some t.content := by
  have hbegun : Receiving { a with
      files := Function.update a.files (t.location a.rootdir) (some [])
      fileTransferData := Function.update a.fileTransferData t.correlationKey
        (some (t.serviceName, t.fname))
      recvBytes := 0 } t [] := ⟨Function.update_self _ _ _, Function.update_self _ _ _⟩
  obtain ⟨hok, hlen, hfile⟩ := listenToMail_body t.pieces _ [] hbegun rfl
  rw [events, listenToMail_cons (handle_begin h a)]
  refine ⟨?_, by simp [hlen], hfile⟩
  intro st hst
  rcases List.mem_cons.mp hst with rfl | hst
  · rfl
  · exact hok st hst

end Transfer

end LocalChat
