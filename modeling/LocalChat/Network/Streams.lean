import LocalChat.Network.Basic
import LocalChat.Lib.Runs

/-!
# The streams of a network

What lies in the socket of a session is the frames its peer has written and it has not read yet.
As long as the contract `Ok` is kept, the reader makes of them what the writer meant.

* `Next m x m'`: with `m` as the transfer under way, the frame `x` may follow and leaves `m'`.
* `readOnce_next`: a session that waits for what comes after `m` reads `x`, does what `x` is for
  (`Yields`), and waits for what comes after `m'`.
* `Streams w n`: the frames `w l` are on their way on every session `l`, and both ends agree on
  them.  Every kind of step keeps it: `Streams.host`, `Streams.write_io`, `Streams.write_worker`,
  `Streams.read`.
-/

namespace LocalChat

open Octets

/-! ### One call of a worker -/

namespace BVFileTransferContext

structure Same (c c' : BVFileTransferContext) : Prop where
  ftcid : c'.ftcid = c.ftcid
  csize : c'.csize = c.csize
  fname : c'.fname = c.fname
  thisMachineServiceName : c'.thisMachineServiceName = c.thisMachineServiceName

/-- All a call of `TransferNextChunk` can do. -/
theorem transferNextChunk_cases {c : BVFileTransferContext} (h : c.state ≠ .lastChunk)
    (now : UInt64) : ∃ fs c', c.transferNextChunk now = (fs, c') ∧ Same c c' ∧ c'.state = .ongoing ∧
      ((c.state = .firstChunk ∧ fs = [c.beginFrame now]) ∨
       (c.state = .ongoing ∧
        ((∃ data, fs = [c.chunkFrame now BVTCPMessageType.fileTransferChunkSent data]) ∨
         (∃ data, fs = [c.chunkFrame now BVTCPMessageType.fileTransferEnd data] ∧
            c'.isRunning = false) ∨
         (fs = [] ∧ c'.isRunning = false)))) := by
  cases hstate : c.state with
  | lastChunk => exact absurd hstate h
  | firstChunk =>
    have heq : c.transferNextChunk now = ([c.beginFrame now], { c with state := .ongoing }) := by
      rw [transferNextChunk, if_pos hstate]
    exact ⟨_, _, heq, ⟨rfl, rfl, rfl, rfl⟩, rfl, .inl ⟨rfl, rfl⟩⟩
  | ongoing =>
    simp only [transferNextChunk, hstate, reduceCtorEq, if_false, true_and]
    split
    · split
      · exact ⟨_, _, rfl, ⟨rfl, rfl, rfl, rfl⟩, rfl, .inr (.inr (.inl ⟨_, rfl, rfl⟩))⟩
      · exact ⟨_, _, rfl, ⟨rfl, rfl, rfl, rfl⟩, rfl, .inr (.inl ⟨_, rfl⟩)⟩
    · exact ⟨_, _, rfl, ⟨rfl, rfl, rfl, rfl⟩, rfl, .inr (.inr (.inr ⟨rfl, rfl⟩))⟩

end BVFileTransferContext

namespace Network

/-! ### Frames in turn -/

/-- The transfer under way on a session: its key and its chunk size. -/
abbrev Mode := Option (UInt32 × UInt32)

/-- The frame `x` may be written while `m` is under way, and then `m'` is. -/
inductive Next : Mode → Written UInt32 → Mode → Prop
  | io {f : PeerFrame} : f.Plain →
      (∀ now serviceName key fsize fname, f = .offer now serviceName key fsize fname →
        Fits serviceName fname) → Next none (.io f) none
  | begin_ {c : BVFileTransferContext} {now : UInt64} :
      UInt8.ofNat (now.toNat / 256 ^ 5) ≠ BVTCPMessageType.chatMessage →
      c.csize.toNat + fileHeaderSizeBytes < 2 ^ 32 →
      Fits c.thisMachineServiceName c.fname →
      Next none (.worker c.ftcid (c.beginFrame now)) (some (c.ftcid, c.csize))
  | chunk (c : BVFileTransferContext) (now : UInt64) (data : Bytes) :
      Next (some (c.ftcid, c.csize))
        (.worker c.ftcid (c.chunkFrame now BVTCPMessageType.fileTransferChunkSent data))
        (some (c.ftcid, c.csize))
  | end_ (c : BVFileTransferContext) (now : UInt64) (data : Bytes) :
      Next (some (c.ftcid, c.csize))
        (.worker c.ftcid (c.chunkFrame now BVTCPMessageType.fileTransferEnd data)) none

inductive Stream : Mode → List (Written UInt32) → Mode → Prop
  | nil (m : Mode) : Stream m [] m
  | cons {m m' m'' : Mode} {x : Written UInt32} {w : List (Written UInt32)} :
      Next m x m' → Stream m' w m'' → Stream m (x :: w) m''

theorem Stream.concat {m m' m'' : Mode} {w : List (Written UInt32)} {x : Written UInt32}
    (h : Stream m w m') (hx : Next m' x m'') : Stream m (w ++ [x]) m'' := by
  induction h with
  | nil m => exact .cons hx (.nil m'')
  | cons hy _ ih => exact .cons hy (ih hx)

/-- The session waits for what may come while `m` is under way. -/
def Reads (s : Session) : Mode → Prop
  | none => s.FrameMode
  | some (_, csize) => s.ChunkMode ∧ s.csize = csize

theorem Reads.of_socket {s : Session} {m : Mode} (h : Reads s m) (socket : Bytes) :
    Reads { s with socket := socket } m := by
  cases m with
  | none => exact ⟨h.reads, h.totalBytesRead, h.readBuf⟩
  | some p => exact ⟨⟨h.1.reads, h.1.totalBytesRead, h.1.fileReadBuf, h.1.fits⟩, h.2⟩

/-- What a frame makes its reader do. -/
inductive Yields : Written UInt32 → Effect → Prop
  | chat (f : PeerFrame) (text : Bytes) (now : UInt64) (sender : Bytes) :
      f.handler = .chatMessage →
      Yields (.io f) (.putMessageIntoAppMailbox (.messageIncoming text now sender))
  | offer (now : UInt64) (serviceName : Bytes) (key fsize : UInt32) (fname : Bytes) :
      Yields (.io (.offer now serviceName key fsize fname))
        (.putMessageIntoAppMailbox (.fileOffer ⟨key, 0, fsize, serviceName ++ [bar] ++ fname⟩))
  | verdict (now : UInt64) (key : UInt32) (accept : Bool) :
      Yields (.io (.verdict now key accept)) (.signalFileTransfer key accept)
  | begin_ (c : BVFileTransferContext) (now : UInt64) :
      Yields (.worker c.ftcid (c.beginFrame now)) (.putMessageIntoAppMailbox
        (.fileTransferBegin ⟨c.ftcid, c.csize, c.fsize,
          c.thisMachineServiceName ++ [bar] ++ c.fname⟩))
  | chunk (c : BVFileTransferContext) (now : UInt64) (data : Bytes) (d : BVTCPFileData) :
      Yields (.worker c.ftcid (c.chunkFrame now BVTCPMessageType.fileTransferChunkSent data))
        (.putMessageIntoAppMailbox (.fileTransferChunkSent d))
  | end_ (c : BVFileTransferContext) (now : UInt64) (data : Bytes) (d : BVTCPFileData) :
      Yields (.worker c.ftcid (c.chunkFrame now BVTCPMessageType.fileTransferEnd data))
        (.putMessageIntoAppMailbox (.fileTransferEnd d))

theorem offerEvent_eq {serviceName fname : Bytes} (h : Fits serviceName fname) (env : Env)
    (now : UInt64) (key fsize : UInt32) :
    Session.offerEvent env (sendFileOffer now serviceName key fsize fname) =
      .fileOffer ⟨key, 0, fsize, serviceName ++ [bar] ++ fname⟩ := by
  have hdata : getFileData (sendFileOffer now serviceName key fsize fname) env.past =
      serviceName ++ [bar] ++ fname := getFileData_writeFileChunkSync _ env.past h.1 h.2
  have hheader : getFileHeader (sendFileOffer now serviceName key fsize fname) =
      constructFileHeader now BVTCPMessageType.fileOffer key fsize.toUInt64 :=
    getFileHeader_writeFileChunkSync _ _
  have hsize : (fsize.toUInt64 &&& 0xFFFFFFFF).toUInt32 = fsize := by
    apply UInt32.toNat_inj.mp
    rw [UInt64.toNat_toUInt32, UInt64.toNat_and, UInt32.toNat_toUInt64,
      show (0xFFFFFFFF : UInt64).toNat = 2 ^ 32 - 1 from rfl, Nat.and_two_pow_sub_one_eq_mod]
    have := fsize.toNat_lt
    omega
  rw [Session.offerEvent, hheader, hdata]
  simp only [constructFileHeader, hsize]

theorem getFileHeader_beginFrame (c : BVFileTransferContext) (now : UInt64) :
    getFileHeader (c.beginFrame now).bytes = constructFileHeader now
      BVTCPMessageType.fileTransferBegin c.ftcid (beginMetadata c.csize c.fsize) :=
  getFileHeader_writeFileChunkSync _ _

theorem announcedCsize_beginFrame (c : BVFileTransferContext) (now : UInt64) :
    Session.announcedCsize (c.beginFrame now).bytes = c.csize := by
  rw [Session.announcedCsize, getFileHeader_beginFrame]
  exact metadataCsize_beginMetadata _ _

theorem beginEvent_eq {c : BVFileTransferContext} (h : Fits c.thisMachineServiceName c.fname)
    (env : Env) (now : UInt64) : Session.beginEvent env (c.beginFrame now).bytes =
      .fileTransferBegin ⟨c.ftcid, c.csize, c.fsize,
        c.thisMachineServiceName ++ [bar] ++ c.fname⟩ := by
  have hdata : getFileData (c.beginFrame now).bytes env.past =
      c.thisMachineServiceName ++ [bar] ++ c.fname :=
    getFileData_writeFileChunkSync _ env.past h.1 h.2
  have hfsize : Session.announcedFsize (c.beginFrame now).bytes = c.fsize := by
    rw [Session.announcedFsize, getFileHeader_beginFrame]
    exact metadataFsize_beginMetadata _ _
  rw [Session.beginEvent, hdata, announcedCsize_beginFrame, hfsize, getFileHeader_beginFrame]
  rfl

theorem length_chunkFrame (c : BVFileTransferContext) (now : UInt64) (ty : UInt8) (data : Bytes) :
    (c.chunkFrame now ty data).bytes.length = c.csize.toNat + fileHeaderSizeBytes := by
  rw [FileFrame.bytes, BVFileTransferContext.chunkFrame, length_writeFileChunkSync]
  exact Nat.add_comm _ _

/-- **One frame.** -/
theorem readOnce_next {s : Session} {m m' : Mode} {x : Written UInt32} {rest : Bytes}
    (h : Reads s m) (hst : s.state = .established) (hx : Next m x m')
    (hs : s.socket = x.bytes ++ rest) (env : Env) :
    Reads (s.readOnce env) m' ∧ ∃ e, Yields x e ∧
      Session.Handled s (s.readOnce env) rest [.handed x.handler x.bytes, e] := by
  cases hx with
  | @io f hplain hfits =>
    obtain ⟨hmode, hhandled⟩ := f.readOnce_plain env h hst hplain hs
    refine ⟨hmode, _, ?_, hhandled⟩
    cases f with
    | chat now text => exact .chat _ _ _ _ rfl
    | offer now serviceName key fsize fname =>
      rw [PeerFrame.effect, offerEvent_eq (hfits _ _ _ _ _ rfl)]
      exact .offer _ _ _ _ _
    | verdict now key accept => exact .verdict _ _ _
  | @begin_ c now hts hfits hnamed =>
    have hs' : s.socket = (c.beginFrame now).bytes ++ rest := hs
    have htype : at_ (c.beginFrame now).bytes 9 = UInt8.ofNat (now.toNat / 256 ^ 5) :=
      msgType_writeFileChunkSync _ _
    obtain ⟨hmode, hcsize, -, hhandled⟩ := Session.readOnce_fileTransferBegin env h hst hs'
      (length_writeFileChunkSync _ _) (by rw [htype]; exact hts) (fileType_writeFileChunkSync _ _)
      (by rw [announcedCsize_beginFrame]; exact hfits)
    rw [announcedCsize_beginFrame] at hcsize
    rw [beginEvent_eq hnamed] at hhandled
    exact ⟨⟨hmode, hcsize⟩, _, .begin_ c now, hhandled⟩
  | chunk c now data =>
    obtain ⟨hchunk, hc⟩ := h
    obtain ⟨hmode, hcsize, -, hhandled⟩ := Session.readOnce_fileChunkSent env hchunk hs
      (by rw [hc]; exact length_chunkFrame _ _ _ _) (fileType_writeFileChunkSync _ _)
    exact ⟨⟨hmode, hcsize.trans hc⟩, _, .chunk c now data _, hhandled⟩
  | end_ c now data =>
    obtain ⟨hchunk, hc⟩ := h
    obtain ⟨hmode, hhandled⟩ := Session.readOnce_fileTransferEnd env hchunk hs
      (by rw [hc]; exact length_chunkFrame _ _ _ _) (fileType_writeFileChunkSync _ _)
    exact ⟨hmode, _, .end_ c now data _, hhandled⟩

/-! ### Both ends of a session -/

variable {H : Type}

structure Sound (dir : Directory H) (h : H) (key : UInt32) (c : BVFileTransferContext) : Prop where
  ftcid : c.ftcid = key
  thisMachineServiceName : c.thisMachineServiceName = dir.name h
  names : Fits (dir.name h) c.fname
  csize : c.csize.toNat + fileHeaderSizeBytes < 2 ^ 32
  state : c.state ≠ .lastChunk

theorem Sound.of_same {dir : Directory H} {h : H} {key : UInt32} {c c' : BVFileTransferContext}
    (hc : Sound dir h key c) (hsame : BVFileTransferContext.Same c c')
    (hstate : c'.state = .ongoing) : Sound dir h key c' where
  ftcid := hsame.ftcid.trans hc.ftcid
  thisMachineServiceName := hsame.thisMachineServiceName.trans hc.thisMachineServiceName
  names := by rw [hsame.fname]; exact hc.names
  csize := by rw [hsame.csize]; exact hc.csize
  state := by rw [hstate]; decide

theorem sound_construct {dir : Directory H} {h : H} {fname : Bytes}
    (hfits : Fits (dir.name h) fname)
    (key : UInt32) (content : Bytes) :
    Sound dir h key (.construct content fname (dir.name h) key) where
  ftcid := rfl
  thisMachineServiceName := rfl
  names := hfits
  csize := (BVFileTransferContext.determineChunkSize_bounds _).2
  state := by intro hstate; cases hstate

/-- The writers of the session `l` are in the middle of `m`. -/
structure Writes (n : Network H) (l : H × H) (m : Mode) : Prop where
  underWay : m.map Prod.fst = n.underWay l
  started : ∀ key csize, m = some (key, csize) →
    ∃ c, (n.host l.2).fileTransferContext key = some (l.1, c) ∧ c.state = .ongoing
  running : ∀ key c, (n.host l.2).fileTransferContext key = some (l.1, c) → c.state = .ongoing →
    c.isRunning = true → m = some (key, c.csize)

/-- The frames `w l` are on their way on the session `l`. -/
structure Streams (dir : Directory H) (w : H × H → List (Written UInt32)) (n : Network H) :
    Prop where
  socket : ∀ l, (n.session l).socket = (w l).flatMap Written.bytes
  state : ∀ l, (n.session l).state = .established
  stream : ∀ l, ∃ m m', Reads (n.session l) m ∧ Stream m (w l) m' ∧ Writes n l m'
  sound : ∀ h key g c, (n.host h).fileTransferContext key = some (g, c) → Sound dir h key c

variable {dir : Directory H} {w : H × H → List (Written UInt32)} {n n' : Network H}

theorem start_streams (dir : Directory H) (rootdir : H → Bytes) (files : H → Files) :
    Streams dir (fun _ => []) (start dir rootdir files) where
  socket := fun _ => rfl
  state := fun _ => rfl
  stream := by
    intro l
    refine ⟨none, none, Session.idle_frameMode _ _ _, .nil none, rfl, ?_, ?_⟩
    · intro key csize h
      cases h
    · intro key c h
      cases h
  sound := by
    intro h key g c hc
    cases hc

/-- The writers are where they were if the transfers past their BEGIN are. -/
theorem Writes.congr {l : H × H} {m : Mode} (h : Writes n l m)
    (hunder : n'.underWay l = n.underWay l)
    (hctx : ∀ key c, c.state = .ongoing →
      ((n'.host l.2).fileTransferContext key = some (l.1, c) ↔
        (n.host l.2).fileTransferContext key = some (l.1, c))) : Writes n' l m where
  underWay := h.underWay.trans hunder.symm
  started := by
    intro key csize hm
    obtain ⟨c, hc, hstate⟩ := h.started key csize hm
    exact ⟨c, (hctx key c hstate).mpr hc, hstate⟩
  running := fun key c hc hstate => h.running key c ((hctx key c hstate).mp hc) hstate

/-- A change to the hosts that leaves their transfers alone. -/
theorem Streams.host (h : Streams dir w n) (hsession : n'.session = n.session)
    (hunder : n'.underWay = n.underWay)
    (hctx : ∀ g, (n'.host g).fileTransferContext = (n.host g).fileTransferContext) :
    Streams dir w n' where
  socket := by rw [hsession]; exact h.socket
  state := by rw [hsession]; exact h.state
  stream := by
    intro l
    obtain ⟨m, m', hreads, hstream, hwrites⟩ := h.stream l
    rw [hsession]
    refine ⟨m, m', hreads, hstream, hwrites.congr (by rw [hunder]) ?_⟩
    intro key c _
    rw [hctx]
  sound := by
    intro g key p c hc
    rw [hctx] at hc
    exact h.sound g key p c hc

/-- No transfer is under way where a worker may write its BEGIN. -/
theorem Writes.none_of_firstChunk {h g : H} {key : UInt32} {c : BVFileTransferContext} {m : Mode}
    {f : FileFrame} (hm : Writes n (g, h) m)
    (hc : (n.host h).fileTransferContext key = some (g, c)) (hfirst : c.state = .firstChunk)
    (hallowed : Written.Allowed (n.underWay (g, h)) (.worker key f)) : m = none := by
  cases m with
  | none => rfl
  | some p =>
    obtain ⟨k, csize⟩ := p
    rw [← hm.underWay] at hallowed
    have hk : key = k := hallowed
    subst hk
    obtain ⟨d, hd, hstate⟩ := hm.started key csize rfl
    rw [hc] at hd
    cases hd
    rw [hfirst] at hstate
    cases hstate

variable [DecidableEq H]

theorem write_underWay_of_ne {l l' : H × H} (h : l' ≠ l) (x : Written UInt32) :
    (n.write l x).underWay l' = n.underWay l' := by
  cases x with
  | io f => rfl
  | worker key f => exact Function.update_of_ne h _ _

theorem write_underWay_self (n : Network H) (l : H × H) (key : UInt32) (f : FileFrame) :
    (n.write l (.worker key f)).underWay l = Written.after key f :=
  Function.update_self _ _ _

/-- A change on the session `l` alone; of the other sessions it has to keep the writers. -/
theorem Streams.update (h : Streams dir w n) {l : H × H} {s : Session} {v : List (Written UInt32)}
    {m m' : Mode} (hsession : n'.session = Function.update n.session l s)
    (hsound : ∀ g key p c, (n'.host g).fileTransferContext key = some (p, c) → Sound dir g key c)
    (hsocket : s.socket = v.flatMap Written.bytes) (hstate : s.state = .established)
    (hreads : Reads s m) (hstream : Stream m v m') (hwrites : Writes n' l m')
    (hother : ∀ l' m, l' ≠ l → Writes n l' m → Writes n' l' m) :
    Streams dir (Function.update w l v) n' := by
  refine ⟨?_, ?_, ?_, hsound⟩
  · intro l'
    rw [hsession]
    by_cases hl : l' = l
    · subst hl
      rw [Function.update_self, Function.update_self]
      exact hsocket
    · rw [Function.update_of_ne hl, Function.update_of_ne hl]
      exact h.socket l'
  · intro l'
    rw [hsession]
    by_cases hl : l' = l
    · subst hl
      rw [Function.update_self]
      exact hstate
    · rw [Function.update_of_ne hl]
      exact h.state l'
  · intro l'
    rw [hsession]
    by_cases hl : l' = l
    · subst hl
      rw [Function.update_self, Function.update_self]
      exact ⟨m, m', hreads, hstream, hwrites⟩
    · obtain ⟨k, k', hr, hs, hw⟩ := h.stream l'
      rw [Function.update_of_ne hl, Function.update_of_ne hl]
      exact ⟨k, k', hr, hs, hother l' k' hl hw⟩

theorem Streams.write (h : Streams dir w n) {l : H × H} {x : Written UInt32}
    (hsession : n'.session = n.session)
    (hsound : ∀ g key p c, (n'.host g).fileTransferContext key = some (p, c) → Sound dir g key c)
    (hself : ∀ m, Writes n l m → ∃ m', Next m x m' ∧ Writes (n'.write l x) l m')
    (hother : ∀ l' m, l' ≠ l → Writes n l' m → Writes (n'.write l x) l' m) :
    Streams dir (Function.update w l (w l ++ [x])) (n'.write l x) := by
  obtain ⟨m, m', hreads, hstream, hwrites⟩ := h.stream l
  obtain ⟨m'', hnext, hwrites'⟩ := hself m' hwrites
  have hat : (n'.write l x).session = Function.update n.session l
      { n.session l with socket := (n.session l).socket ++ x.bytes } := by
    rw [← hsession]
    rfl
  refine h.update hat hsound ?_ (h.state l) (hreads.of_socket _) (hstream.concat hnext) hwrites'
    hother
  rw [List.flatMap_append, ← h.socket]
  simp

theorem Streams.write_io (h : Streams dir w n) {l : H × H} {f : PeerFrame}
    (hallowed : Written.Allowed (n.underWay l) (.io f)) (hplain : f.Plain)
    (hfits : ∀ now serviceName key fsize fname, f = .offer now serviceName key fsize fname →
      Fits serviceName fname) :
    Streams dir (Function.update w l (w l ++ [.io f])) (n.write l (.io f)) := by
  refine h.write rfl h.sound ?_ ?_
  · intro m hm
    obtain rfl : m = none := by
      have hunder := hm.underWay
      cases hc : n.underWay l with
      | none =>
        rw [hc] at hunder
        exact Option.map_eq_none_iff.mp hunder
      | some key =>
        rw [hc] at hallowed
        exact hallowed.elim
    exact ⟨none, .io hplain hfits, hm.underWay, hm.started, hm.running⟩
  · intro l' m _ hm
    exact ⟨hm.underWay, hm.started, hm.running⟩

def setContext (n : Network H) (h : H) (key : UInt32) (v : H × BVFileTransferContext) : Network H :=
  { n with host := Function.update n.host h ((n.host h).setContext key v) }

theorem setContext_self (n : Network H) (h : H) (key : UInt32) (v : H × BVFileTransferContext) :
    ((n.setContext h key v).host h).fileTransferContext key = some v := by
  simp [setContext]

theorem setContext_of_ne (n : Network H) {h g : H} {key k : UInt32} (v : H × BVFileTransferContext)
    (hne : ¬ (g = h ∧ k = key)) : ((n.setContext h key v).host g).fileTransferContext k =
      (n.host g).fileTransferContext k := by
  by_cases hg : g = h
  · subst hg
    have hk : k ≠ key := fun hk => hne ⟨rfl, hk⟩
    simp [setContext, Host.setContext_of_ne hk]
  · simp [setContext, hg]

/-- A transfer goes on at the host `h`; what it has to keep of its link is left to show. -/
theorem Streams.sound_setContext (hw : Streams dir w n) {h g : H} {key : UInt32}
    {c : BVFileTransferContext} (hc : Sound dir h key c) :
    ∀ h' key' g' c',
      ((n.setContext h key (g, c)).host h').fileTransferContext key' = some (g', c') →
        Sound dir h' key' c' := by
  intro h' key' g' c' hc'
  by_cases hsame : h' = h ∧ key' = key
  · obtain ⟨rfl, rfl⟩ := hsame
    rw [setContext_self] at hc'
    cases hc'
    exact hc
  · rw [setContext_of_ne n _ hsame] at hc'
    exact hw.sound h' key' g' c' hc'

/-- The writers of the other sessions do not notice. -/
theorem Writes.setContext_of_ne {h g : H} {key : UInt32} {c c' : BVFileTransferContext} {l : H × H}
    {m : Mode} (hc : (n.host h).fileTransferContext key = some (g, c)) (hl : l ≠ (g, h))
    (hm : Writes n l m) : Writes (n.setContext h key (g, c')) l m := by
  refine hm.congr rfl ?_
  intro key' d _
  by_cases hsame : l.2 = h ∧ key' = key
  · -- the transfer goes to `g`, not to the reader of `l`
    obtain ⟨hh, rfl⟩ := hsame
    have hg : l.1 ≠ g := fun hg => hl (Prod.ext hg hh)
    rw [hh, setContext_self, hc]
    constructor <;> intro heq <;> cases heq <;> exact absurd rfl hg
  · rw [Network.setContext_of_ne n _ hsame]

/-- The writers of the transfer's own session: no other transfer is under way on it. -/
theorem Writes.setContext {h g : H} {key : UInt32} {c' : BVFileTransferContext} {m m' : Mode}
    (hm : Writes n (g, h) m) (honly : ∀ k csize, m = some (k, csize) → k = key)
    (hhost : n'.host = (n.setContext h key (g, c')).host)
    (hunder : m'.map Prod.fst = n'.underWay (g, h))
    (honly' : ∀ k csize, m' = some (k, csize) → k = key) (hstate : c'.state = .ongoing)
    (hrun : c'.isRunning = true → m' = some (key, c'.csize)) : Writes n' (g, h) m' := by
  refine ⟨hunder, ?_, ?_⟩
  · intro k csize hk
    obtain rfl := honly' k csize hk
    rw [hhost]
    exact ⟨c', setContext_self _ _ _ _, hstate⟩
  · intro k d hd hdstate hdrun
    rw [hhost] at hd
    by_cases hk : k = key
    · subst hk
      rw [setContext_self] at hd
      cases hd
      exact hrun hdrun
    · rw [Network.setContext_of_ne n _ (fun h => hk h.2)] at hd
      exact absurd (honly k _ (hm.running k d hd hdstate hdrun)) hk

theorem after_eq_some {key k : UInt32} {f : FileFrame} (h : Written.after key f = some k) :
    k = key := by
  rw [Written.after] at h
  split at h
  · cases h
  · exact (Option.some.inj h).symm

theorem Streams.write_worker (hw : Streams dir w n) {h g : H} {key : UInt32}
    {c c' : BVFileTransferContext} (hc : (n.host h).fileTransferContext key = some (g, c))
    (hsound : Sound dir h key c') (hstate : c'.state = .ongoing) {f : FileFrame}
    (hself : ∀ m, Writes n (g, h) m → (∀ k csize, m = some (k, csize) → k = key) ∧
      ∃ m', Next m (.worker key f) m' ∧ m'.map Prod.fst = Written.after key f ∧
        (c'.isRunning = true → m' = some (key, c'.csize))) :
    Streams dir (Function.update w (g, h) (w (g, h) ++ [.worker key f]))
      ((n.setContext h key (g, c')).write (g, h) (.worker key f)) := by
  have hsession : (n.setContext h key (g, c')).session = n.session := rfl
  refine hw.write hsession (hw.sound_setContext hsound) ?_ ?_
  · intro m hm
    obtain ⟨honly, m', hnext, hafter, hrun⟩ := hself m hm
    refine ⟨m', hnext, hm.setContext honly rfl ?_ ?_ hstate hrun⟩
    · rw [hafter, write_underWay_self]
    · intro k csize hk
      rw [hk] at hafter
      exact after_eq_some hafter.symm
  · intro l m hl hm
    have hm' : Writes (n.setContext h key (g, c')) l m := hm.setContext_of_ne hc hl
    have hunder : ((n.setContext h key (g, c')).write (g, h) (.worker key f)).underWay l =
        (n.setContext h key (g, c')).underWay l := write_underWay_of_ne hl _
    exact hm'.congr hunder fun _ _ _ => Iff.rfl

/-- **One turn of a worker.**  Nothing is written, or a BEGIN frame by a worker that has not yet
written one, or another frame by a worker that has. -/
theorem Streams.work (hw : Streams dir w n) {h g : H} {key : UInt32} {c c' : BVFileTransferContext}
    (hc : (n.host h).fileTransferContext key = some (g, c)) (hrun : c.isRunning = true)
    {now : UInt64} {fs : List FileFrame} (hnext : c.transferNextChunk now = (fs, c'))
    (hok : ∀ f, fs = [f] → Written.Allowed (n.underWay (g, h)) (.worker key f) ∧
      Unmistakable (.worker key f)) :
    c'.fname = c.fname ∧ c'.state = .ongoing ∧
      ((fs = [] ∧ c.state = .ongoing ∧ Streams dir w (n.setContext h key (g, c'))) ∨
        ∃ f, fs = [f] ∧ Streams dir (Function.update w (g, h) (w (g, h) ++ [.worker key f]))
          ((n.setContext h key (g, c')).write (g, h) (.worker key f)) ∧
          ((c.state = .firstChunk ∧ f = c.beginFrame now) ∨
            (c.state = .ongoing ∧ f.handler ≠ .fileTransferBegin))) := by
  have hsound := hw.sound h key g c hc
  obtain ⟨fs', c'', heq, hsame, hstate, hcases⟩ :=
    BVFileTransferContext.transferNextChunk_cases hsound.state now
  obtain ⟨rfl, rfl⟩ := Prod.mk.inj (heq.symm.trans hnext)
  have hsound' := hsound.of_same hsame hstate
  refine ⟨hsame.fname, hstate, ?_⟩
  rcases hcases with ⟨hfirst, rfl⟩ | ⟨hongoing, hcases⟩
  · -- BEGIN: no transfer is under way, since this one has not begun
    obtain ⟨hallowed, hts⟩ := hok _ rfl
    refine .inr ⟨_, rfl, hw.write_worker hc hsound' hstate ?_, .inl ⟨hfirst, rfl⟩⟩
    intro m hm
    obtain rfl : m = none := hm.none_of_firstChunk hc hfirst hallowed
    refine ⟨fun k csize hk => (Option.some_ne_none _ hk.symm).elim, some (key, c.csize),
      ?_, rfl, ?_⟩
    · have hnamed : Fits c.thisMachineServiceName c.fname := by
        rw [hsound.thisMachineServiceName]
        exact hsound.names
      have hbegin : Next none (.worker c.ftcid (c.beginFrame now)) (some (c.ftcid, c.csize)) :=
        .begin_ (hts rfl) hsound.csize hnamed
      rwa [hsound.ftcid] at hbegin
    · intro _
      rw [hsame.csize]
  · -- the transfer under way is this one
    have hmode : ∀ m, Writes n (g, h) m → m = some (key, c.csize) := by
      intro m hm
      exact hm.running key c hc hongoing hrun
    have honly : ∀ m, Writes n (g, h) m → ∀ k csize, m = some (k, csize) → k = key := by
      intro m hm k csize hk
      rw [hmode m hm] at hk
      cases hk
      rfl
    rcases hcases with ⟨data, rfl⟩ | ⟨data, rfl, hstop⟩ | ⟨rfl, hstop⟩
    · refine .inr ⟨_, rfl, hw.write_worker hc hsound' hstate ?_, .inr ⟨hongoing, by rintro ⟨⟩⟩⟩
      intro m hm
      refine ⟨honly m hm, some (key, c.csize), ?_, rfl, fun _ => by rw [hsame.csize]⟩
      rw [hmode m hm]
      have hchunk := Next.chunk c now data
      rwa [hsound.ftcid] at hchunk
    · refine .inr ⟨_, rfl, hw.write_worker hc hsound' hstate ?_, .inr ⟨hongoing, by rintro ⟨⟩⟩⟩
      intro m hm
      refine ⟨honly m hm, none, ?_, rfl, ?_⟩
      · rw [hmode m hm]
        have hend := Next.end_ c now data
        rwa [hsound.ftcid] at hend
      · intro hrunning
        rw [hstop] at hrunning
        cases hrunning
    · refine .inl ⟨rfl, hongoing, ?_⟩
      refine ⟨hw.socket, hw.state, ?_, hw.sound_setContext hsound'⟩
      intro l
      obtain ⟨m, m', hreads, hstream, hwrites⟩ := hw.stream l
      refine ⟨m, m', hreads, hstream, ?_⟩
      by_cases hl : l = (g, h)
      · subst hl
        refine hwrites.setContext (honly m' hwrites) rfl hwrites.underWay (honly m' hwrites)
          hstate ?_
        intro hrunning
        rw [hstop] at hrunning
        cases hrunning
      · exact hwrites.setContext_of_ne hc hl

theorem bytes_ne_nil (x : Written UInt32) : x.bytes ≠ [] := by
  refine List.ne_nil_of_length_pos ?_
  cases x with
  | io f =>
    rw [Written.bytes, PeerFrame.length_bytes]
    decide
  | worker key f =>
    rw [Written.bytes, FileFrame.bytes, length_writeFileChunkSync]
    exact Nat.lt_of_lt_of_le (by decide) (Nat.le_add_right fileHeaderSizeBytes _)

/-- **One read.**  The first frame on its way is taken and does what it is for. -/
theorem Streams.read (hw : Streams dir w n) {g p : H} {x : Written UInt32}
    {rest : List (Written UInt32)} (hx : w (g, p) = x :: rest) (env : Env) (file : Option Bytes)
    (hnew : ∀ e, Yields x e →
      (∀ key q c,
        ((n.host g).onEffect (dir.name g) file p e).fileTransferContext key = some (q, c) →
          Sound dir g key c) ∧
      ∀ key q c, c.state = .ongoing →
        (((n.host g).onEffect (dir.name g) file p e).fileTransferContext key = some (q, c) ↔
          (n.host g).fileTransferContext key = some (q, c))) :
    Streams dir (Function.update w (g, p) rest) (n.read dir g p env file) ∧
      ∃ e, Yields x e ∧ (n.read dir g p env file).host =
        Function.update n.host g ((n.host g).onEffect (dir.name g) file p e) := by
  obtain ⟨m, m', hreads, hstream, hwrites⟩ := hw.stream (g, p)
  have hsocket := hw.socket (g, p)
  rw [hx] at hstream
  rw [hx, List.flatMap_cons] at hsocket
  cases hstream with
  | @cons _ m₁ _ _ _ hnext hstream =>
    obtain ⟨hreads', e, hyields, hhandled⟩ :=
      readOnce_next hreads (hw.state _) hnext hsocket env
    have hne : (n.session (g, p)).socket ≠ [] := by
      rw [hsocket]
      intro hnil
      exact bytes_ne_nil x (List.append_eq_nil_iff.mp hnil).1
    have hread : n.read dir g p env file =
        { n with
          session := Function.update n.session (g, p) ((n.session (g, p)).readOnce env)
          host := Function.update n.host g ((n.host g).onEffect (dir.name g) file p e) } := by
      rw [Network.read, if_neg hne, hhandled.log, List.drop_left]
      rfl
    obtain ⟨hsound, hongoing⟩ := hnew e hyields
    rw [hread]
    -- the writers do not notice a read
    have hquiet : ∀ l m, Writes n l m → Writes
        { n with
          session := Function.update n.session (g, p) ((n.session (g, p)).readOnce env)
          host := Function.update n.host g ((n.host g).onEffect (dir.name g) file p e) } l m := by
      intro l m hm
      refine hm.congr rfl ?_
      intro key c hc
      by_cases hl : l.2 = g
      · rw [hl]
        simp only [Function.update_self]
        exact hongoing key l.1 c hc
      · simp only [Function.update_of_ne hl]
    refine ⟨?_, e, hyields, rfl⟩
    refine hw.update rfl ?_ hhandled.socket (hhandled.state.trans (hw.state _)) hreads' hstream
      (hquiet _ _ hwrites) fun l m _ hm => hquiet l m hm
    intro h key q c hc
    by_cases hh : h = g
    · subst hh
      simp only [Function.update_self] at hc
      exact hsound key q c hc
    · simp only [Function.update_of_ne hh] at hc
      exact hw.sound h key q c hc

end Network

end LocalChat
