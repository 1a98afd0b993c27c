import LocalChat.Network.Ledger

/-!
# Consent

The receiving app opens a file for every BEGIN it is told about; it does not look whether its user
has accepted an offer (`begin_unasked`).  Consent is kept by the sender: it begins a transfer only
when a FILE_ACCEPT has come for a pending offer, and the offer is then no longer pending.  So in a
network of hosts that run the program a file is opened only after its user has accepted it, and once
for each acceptance.

* `step_inv`: every step that keeps the contract keeps `Streams` and `Ledger`.
* `Accounted`: every file that is not as it was at the start has been opened by a BEGIN.
* `begun_le_accepted`: what follows for runs.
-/

namespace LocalChat

open Octets PosixPath

namespace Network

variable {H : Type}

/-! ### Files -/

structure Accounted (root : Bytes) (files : Files) (x : Host H) : Prop where
  rootdir : x.app.rootdir = root
  entry : ∀ key serviceName fname, x.app.fileTransferData key = some (serviceName, fname) →
    ∃ r ∈ x.begun, r.serviceName = serviceName ∧ r.fname = fname
  file : ∀ loc, x.app.files loc ≠ files loc →
    ∃ r ∈ x.begun, BVReceivedFile.fileAt root r.serviceName r.fname = loc

variable {root : Bytes} {files : Files} {x : Host H}

theorem Accounted.congr {x' : Host H} (h : Accounted root files x)
    (hroot : x'.app.rootdir = x.app.rootdir)
    (hentry : x'.app.fileTransferData = x.app.fileTransferData)
    (hfiles : x'.app.files = x.app.files) (hbegun : x'.begun = x.begun) :
    Accounted root files x' where
  rootdir := hroot.trans h.rootdir
  entry := by rw [hentry, hbegun]; exact h.entry
  file := by rw [hfiles, hbegun]; exact h.file

/-- The names a handler works with are those of a file that was opened, by this event or before. -/
theorem Accounted.workingNames (h : Accounted root files x) {flt : Faults} {p : H} {e : AppEvent}
    {serviceName fname : Bytes} (hnames : x.app.workingNames e = some (serviceName, fname))
    (hchanged : (x.app.handle flt e).2 ≠ x.app) :
    ∃ r ∈ x.begun ++ Host.opened p e (x.app.handle flt e).1,
      r.serviceName = serviceName ∧ r.fname = fname := by
  cases e with
  | messageIncoming text now sender => cases hnames
  | fileOffer d => cases hnames
  | fileTransferBegin d =>
    rcases App.handle_begin_cases flt d x.app with ⟨hok, -⟩ | ⟨-, hsame⟩
    · cases hnames
      rw [hok]
      exact ⟨_, List.mem_append_right _ (List.mem_singleton.mpr rfl), rfl, rfl⟩
    · exact absurd hsame hchanged
  | fileTransferChunkSent d =>
    obtain ⟨r, hr, heq⟩ := h.entry _ _ _ hnames
    exact ⟨r, List.mem_append_left _ hr, heq⟩
  | fileTransferEnd d =>
    obtain ⟨r, hr, heq⟩ := h.entry _ _ _ hnames
    exact ⟨r, List.mem_append_left _ hr, heq⟩

theorem Accounted.listen (h : Accounted root files x) (flt : Faults) :
    Accounted root files (x.listen flt) := by
  rw [Host.listen]
  split
  · rename_i p e rest hlistening hbox
    have hbefore : ∀ {P : Consent H → Prop}, (∃ r ∈ x.begun, P r) →
        ∃ r ∈ x.begun ++ Host.opened p e (x.app.handle flt e).1, P r := by
      rintro P ⟨r, hr, hP⟩
      exact ⟨r, List.mem_append_left _ hr, hP⟩
    refine ⟨(App.handle_rootdir flt e x.app).trans h.rootdir, ?_, ?_⟩
    · intro key serviceName fname hentry
      by_cases hbegin : ∃ d, e = .fileTransferBegin d
      · obtain ⟨d, rfl⟩ := hbegin
        rcases App.handle_begin_cases flt d x.app with ⟨hok, hdata⟩ | ⟨-, hsame⟩
        · rw [hdata] at hentry
          by_cases hkey : key = d.correlationKey
          · subst hkey
            rw [Function.update_self] at hentry
            cases hentry
            rw [hok]
            exact ⟨_, List.mem_append_right _ (List.mem_singleton.mpr rfl), rfl, rfl⟩
          · rw [Function.update_of_ne hkey] at hentry
            exact hbefore (h.entry _ _ _ hentry)
        · rw [hsame] at hentry
          exact hbefore (h.entry _ _ _ hentry)
      · have hne : ∀ d, e ≠ .fileTransferBegin d := fun d hd => hbegin ⟨d, hd⟩
        exact hbefore (h.entry _ _ _ (App.handle_fileTransferData flt e x.app hne hentry))
    · intro loc hloc
      by_cases hsame : (x.app.handle flt e).2.files loc = x.app.files loc
      · rw [hsame] at hloc
        exact hbefore (h.file loc hloc)
      · -- the file the handler works on
        have hworks : ∃ serviceName fname, x.app.workingNames e = some (serviceName, fname) ∧
            loc = BVReceivedFile.fileAt x.app.rootdir serviceName fname := by
          by_contra hnone
          refine hsame (App.handle_files_of_ne flt e x.app loc ?_)
          intro serviceName fname hnames heq
          exact hnone ⟨serviceName, fname, hnames, heq⟩
        obtain ⟨serviceName, fname, hnames, rfl⟩ := hworks
        have hchanged : (x.app.handle flt e).2 ≠ x.app := fun heq => hsame (by rw [heq])
        obtain ⟨r, hr, rfl, rfl⟩ := h.workingNames (p := p) hnames hchanged
        exact ⟨r, hr, by rw [h.rootdir]⟩
  · exact h

theorem Accounted.onKey (h : Accounted root files x) (c : UInt8) :
    Accounted root files (x.onKey c).2 := by
  obtain ⟨answer, shown, uiState, noted, heq, -⟩ := x.onKey_cases c
  rw [heq]
  exact h.congr rfl rfl rfl rfl

theorem Accounted.work (h : Accounted root files x) (key : UInt32) (now : UInt64) :
    Accounted root files (x.work key now).2 := by
  rw [Host.work]
  split
  · exact h
  · split
    · exact h.congr rfl rfl rfl rfl
    · exact h

theorem Accounted.onEffect (h : Accounted root files x) (name : Bytes) (file : Option Bytes) (p : H)
    (e : Effect) : Accounted root files (x.onEffect name file p e) := by
  cases e with
  | handed handler unit => exact h
  | putMessageIntoAppMailbox e => exact h.congr rfl rfl rfl rfl
  | writeMessageFrame m => exact h
  | eraseWriteBuf => exact h
  | registerSession name => exact h
  | signalFileTransfer key accept =>
    rw [Host.onEffect]
    rcases x.signalFileTransfer_cases name file key accept with heq | heq | ⟨_, _, _, -, -, heq⟩
    · rw [heq]
      exact h
    · rw [heq]
      exact h.congr rfl rfl rfl rfl
    · rw [heq]
      exact h.congr rfl rfl rfl rfl

theorem Accounted.onEffects (h : Accounted root files x) (name : Bytes)
    (file : Option Bytes) (p : H)
    (es : List Effect) : Accounted root files (es.foldl (Host.onEffect name file p) x) := by
  induction es generalizing x with
  | nil => exact h
  | cons e es ih => exact ih (h.onEffect name file p e)

variable [DecidableEq H] {dir : Directory H} {n : Network H}

/-! ### Steps -/

/-- Both ends of every session agree, and the ledger is kept. -/
def Inv (dir : Directory H) (n : Network H) : Prop :=
  ∃ o w, Streams dir w n ∧ Ledger dir o w n.host

theorem start_inv (dir : Directory H) (rootdir : H → Bytes) (files : H → Files) :
    Inv dir (start dir rootdir files) := by
  refine ⟨fun _ _ => none, fun _ => [], start_streams dir rootdir files, ?_⟩
  refine ⟨⟨fun _ _ _ => rfl, ?_, ?_⟩, ?_, ?_, ⟨?_, ?_⟩⟩
  · intro h key g fname hpending
    cases hpending
  · intro h key g c hc
    cases hc
  · intro g
    refine ⟨?_, ?_, ?_⟩
    · intro p e he
      cases he
    · intro offer hoffer
      cases hoffer
    · intro r hr
      cases hr
  · intro g p x hx
    cases hx
  · intro g p key hpos
    exact absurd hpos (Nat.lt_irrefl 0)
  · intro g p key
    exact Nat.zero_le 1

variable {o : Offers H} {w : H × H → List (Written UInt32)}

theorem Streams.setHost (hw : Streams dir w n) {g : H} {x : Host H}
    (hctx : x.fileTransferContext = (n.host g).fileTransferContext) :
    Streams dir w { n with host := Function.update n.host g x } :=
  hw.host rfl rfl (update_congr Host.fileTransferContext hctx)

theorem offer_inv (hw : Streams dir w n) (hl : Ledger dir o w n.host) {h g : H} {fname : Bytes}
    {fsize : UInt32} {now : UInt64}
    (hok : Ok dir n (.initiateFileTransferWithSession h g fname fsize now)) :
    Inv dir (n.step dir (.initiateFileTransferWithSession h g fname fsize now)) := by
  obtain ⟨hallowed, hplain⟩ := hok.writes
  obtain ⟨hfits, hlt⟩ := hok.offers
  refine ⟨_, _, (hw.setHost (x := (n.host h).offer g fname) rfl).write_io hallowed hplain ?_,
    (hl.offer hfits hlt).write (fun _ => rfl) ⟨rfl, hfits, record_self _ _ _ _⟩⟩
  rintro _ _ _ _ _ ⟨⟩
  exact hfits

theorem chat_inv (hw : Streams dir w n) (hl : Ledger dir o w n.host) {h g : H} {text : Bytes}
    {now : UInt64} (hok : Ok dir n (.sendChat h g text now)) :
    Inv dir (n.step dir (.sendChat h g text now)) := by
  obtain ⟨hallowed, hplain⟩ := hok.writes
  refine ⟨o, _, hw.write_io hallowed hplain ?_, hl.write (fun _ => rfl) trivial⟩
  rintro _ _ _ _ _ ⟨⟩

theorem listen_inv (hw : Streams dir w n) (hl : Ledger dir o w n.host) (g : H) (flt : Faults) :
    Inv dir (n.step dir (.listenToMail g flt)) := by
  have hctx : ((n.host g).listen flt).fileTransferContext = (n.host g).fileTransferContext := by
    rw [Host.listen]
    split <;> rfl
  exact ⟨o, w, hw.setHost hctx, hl.listen g flt⟩

theorem onKey_inv (hw : Streams dir w n) (hl : Ledger dir o w n.host) {g : H} {c : UInt8}
    {now : UInt64} (hok : Ok dir n (.onKey g c now)) : Inv dir (n.step dir (.onKey g c now)) := by
  have hctx : ((n.host g).onKey c).2.fileTransferContext = (n.host g).fileTransferContext := by
    obtain ⟨answer, shown, uiState, noted, heq, -⟩ := (n.host g).onKey_cases c
    rw [heq]
  have hw' := hw.setHost hctx
  have hl' := hl.onKey g c
  cases hanswer : ((n.host g).onKey c).1 with
  | none =>
    have hstep : n.step dir (.onKey g c now) =
        { n with host := Function.update n.host g ((n.host g).onKey c).2 } := by
      simp only [step, act, hanswer, Option.bind_none]
    rw [hstep]
    exact ⟨o, w, hw', hl'⟩
  | some answer =>
    obtain ⟨offer, accept⟩ := answer
    obtain ⟨p, hsession, hbacked⟩ := hl.answer hanswer
    have hact : n.act dir (.onKey g c now) =
        ({ n with host := Function.update n.host g ((n.host g).onKey c).2 },
          some ((p, g), .io (.verdict now offer.key accept))) := by
      simp only [act, hanswer, Option.bind_some, hsession, Option.map_some]
    have hwrites := hok.writes
    rw [hact] at hwrites
    obtain ⟨hallowed, hplain⟩ := hwrites
    rw [step, hact]
    refine ⟨o, _, hw'.write_io hallowed hplain ?_, hl'.write (fun _ => rfl) (hbacked now)⟩
    rintro _ _ _ _ _ ⟨⟩

/-- The BEGIN frame of a sound transfer says what the ledger does. -/
theorem backed_begin (hw : Streams dir w n) (hl : Ledger dir o w n.host) {h g : H} {key : UInt32}
    {c : BVFileTransferContext} (hc : (n.host h).fileTransferContext key = some (g, c))
    (now : UInt64) :
    Backed dir o n.host g h (.worker key (c.beginFrame now)) := by
  have hsound := hw.sound h key g c hc
  have hpayload : (c.beginFrame now).chunk.payload = dir.name h ++ [bar] ++ c.fname ++ [0] := by
    rw [← hsound.thisMachineServiceName]
    rfl
  exact fun _ => ⟨_, hpayload, c.fname, rfl, hl.offering.context h key g c hc⟩

theorem work_inv (hw : Streams dir w n) (hl : Ledger dir o w n.host) {h : H} {key : UInt32}
    {now : UInt64} (hok : Ok dir n (.transferNextChunk h key now)) :
    Inv dir (n.step dir (.transferNextChunk h key now)) := by
  have hidle : (n.host h).work key now = (none, n.host h) →
      Inv dir (n.step dir (.transferNextChunk h key now)) := by
    intro hnone
    have hstep : n.step dir (.transferNextChunk h key now) = n := by
      simp only [step, act, hnone, Option.map_none, Function.update_eq_self]
    rw [hstep]
    exact ⟨o, w, hw, hl⟩
  cases hc : (n.host h).fileTransferContext key with
  | none => exact hidle (by rw [Host.work, hc])
  | some v =>
    obtain ⟨g, c⟩ := v
    by_cases hrun : c.isRunning ∧ c.good
    · obtain ⟨fs, c', hnext⟩ : ∃ fs c', c.transferNextChunk now = (fs, c') := ⟨_, _, rfl⟩
      have hact : n.act dir (.transferNextChunk h key now) = (n.setContext h key (g, c'),
          fs.head?.map fun f => ((g, h), .worker key f)) := by
        simp only [act, Host.work, hc, hrun, and_self, if_true, hnext, Option.map_map]
        rfl
      have hwrites : ∀ f, fs = [f] → Written.Allowed (n.underWay (g, h)) (.worker key f) ∧
          Unmistakable (.worker key f) := by
        rintro f rfl
        have hmay := hok.writes
        rw [hact] at hmay
        exact hmay
      obtain ⟨hfname, hstate, hcases⟩ := hw.work hc hrun.1 hnext hwrites
      rw [step, hact]
      rcases hcases with ⟨rfl, -, hw'⟩ | ⟨f, rfl, hw', ⟨hfirst, rfl⟩ | ⟨-, hnot⟩⟩
      · exact ⟨o, w, hw', hl.work hc hfname hstate⟩
      · exact ⟨o, _, hw', hl.begin_ hc hfirst hfname hstate (backed_begin hw hl hc now)⟩
      · refine ⟨o, _, hw', (hl.work hc hfname hstate).write ?_ fun hbegin => absurd hbegin hnot⟩
        intro k
        simp [isBegin, hnot]
    · exact hidle (by rw [Host.work, hc]; exact if_neg hrun)

/-- Whatever a session does, the transfers of its host stay sound, and no transfer is past its BEGIN
that was not before. -/
theorem onEffect_contexts (hw : Streams dir w n) (hl : Ledger dir o w n.host) (g p : H)
    (file : Option Bytes) (e : Effect) :
    (∀ key q c, ((n.host g).onEffect (dir.name g) file p e).fileTransferContext key = some (q, c) →
      Sound dir g key c) ∧
    ∀ key q c, c.state = .ongoing →
      (((n.host g).onEffect (dir.name g) file p e).fileTransferContext key = some (q, c) ↔
        (n.host g).fileTransferContext key = some (q, c)) := by
  have hsame : ∀ x : Host H, x.fileTransferContext = (n.host g).fileTransferContext →
      (∀ key q c, x.fileTransferContext key = some (q, c) → Sound dir g key c) ∧
      ∀ key q c, c.state = .ongoing → (x.fileTransferContext key = some (q, c) ↔
        (n.host g).fileTransferContext key = some (q, c)) := by
    intro x hx
    rw [hx]
    exact ⟨fun key q c hc => hw.sound g key q c hc, fun _ _ _ _ => Iff.rfl⟩
  cases e with
  | handed h unit => exact hsame _ rfl
  | putMessageIntoAppMailbox e => exact hsame _ rfl
  | writeMessageFrame m => exact hsame _ rfl
  | eraseWriteBuf => exact hsame _ rfl
  | registerSession name => exact hsame _ rfl
  | signalFileTransfer k accept =>
    rw [Host.onEffect]
    rcases (n.host g).signalFileTransfer_cases (dir.name g) file k accept with heq | heq |
      ⟨sid, fname, content, hpending, -, heq⟩
    · exact hsame _ (by rw [heq])
    · exact hsame _ (by rw [heq]; rfl)
    · -- the new transfer has not begun
      obtain ⟨-, hnone, hfits⟩ := hl.offering.pending g k sid fname hpending
      rw [heq]
      refine ⟨?_, ?_⟩
      · intro key q c hc
        by_cases hk : key = k
        · subst hk
          rw [Host.setContext_self] at hc
          cases hc
          exact sound_construct hfits key content
        · rw [Host.setContext_of_ne hk] at hc
          exact hw.sound g key q c hc
      · intro key q c hstate
        by_cases hk : key = k
        · subst hk
          rw [Host.setContext_self, hnone]
          refine iff_of_false ?_ (Option.some_ne_none _).symm
          intro heq
          cases heq
          cases hstate
        · rw [Host.setContext_of_ne hk]
          rfl

/-- The ledger after a frame has done what it is for. -/
theorem Ledger.yields {hosts : H → Host H} (hl : Ledger dir o w hosts) {g p : H}
    {x : Written UInt32} {rest : List (Written UInt32)} (hx : w (g, p) = x :: rest) {e : Effect}
    (he : Yields x e) (file : Option Bytes) : Ledger dir o (Function.update w (g, p) rest)
      (Function.update hosts g ((hosts g).onEffect (dir.name g) file p e)) := by
  have hbacked := hl.backed g p x (by rw [hx]; exact List.mem_cons_self)
  cases he with
  | chat f text now sender hf => exact hl.mail hx trivial (by rintro q key ⟨⟩)
  | offer now serviceName key fsize fname =>
    obtain ⟨rfl, hfits, hledger⟩ := hbacked
    exact hl.mail hx ⟨hfits.1, fname, rfl, hledger⟩ (by rintro q key ⟨⟩)
  | verdict now key accept => exact (hl.take hx).signal hbacked file
  | begin_ c now =>
    obtain ⟨info, hpayload, hnames⟩ := hbacked rfl
    obtain rfl : c.thisMachineServiceName ++ [bar] ++ c.fname = info :=
      List.append_cancel_right hpayload
    refine hl.mail hx hnames ?_
    intro q key hbegin
    obtain ⟨hq, hkey⟩ := of_decide_eq_true hbegin
    exact ⟨hq.symm, decide_eq_true ⟨hkey, rfl⟩⟩
  | chunk c now data d => exact hl.mail hx trivial (by rintro q key ⟨⟩)
  | end_ c now data d => exact hl.mail hx trivial (by rintro q key ⟨⟩)

theorem read_inv (hw : Streams dir w n) (hl : Ledger dir o w n.host) (g p : H) (env : Env)
    (file : Option Bytes) : Inv dir (n.step dir (.readFrame g p env file)) := by
  show Inv dir (n.read dir g p env file)
  cases hx : w (g, p) with
  | nil =>
    have hsocket : (n.session (g, p)).socket = [] := by
      rw [hw.socket, hx]
      rfl
    rw [Network.read, if_pos hsocket]
    exact ⟨o, w, hw, hl⟩
  | cons x rest =>
    obtain ⟨hw', e, he, hhost⟩ :=
      hw.read hx env file fun e _ => onEffect_contexts hw hl g p file e
    refine ⟨o, _, hw', ?_⟩
    rw [hhost]
    exact hl.yields hx he file

/-- **Every step keeps the ledger.** -/
theorem step_inv {n : Network H} {a : Action H} (h : Inv dir n) (hok : Ok dir n a) :
    Inv dir (n.step dir a) := by
  obtain ⟨o, w, hw, hl⟩ := h
  cases a with
  | initiateFileTransferWithSession h g fname fsize now => exact offer_inv hw hl hok
  | sendChat h g text now => exact chat_inv hw hl hok
  | transferNextChunk h key now => exact work_inv hw hl hok
  | readFrame g h env file => exact read_inv hw hl g h env file
  | listenToMail g flt => exact listen_inv hw hl g flt
  | onKey g c now => exact onKey_inv hw hl hok

/-- An opened file was accepted, and an acceptance opens no second file. -/
theorem Inv.begun_le (h : Inv dir n) (g : H) (r : Consent H) :
    (n.host g).begun.count r ≤ (n.host g).accepted.count r := by
  obtain ⟨o, w, -, hl⟩ := h
  by_cases hr : r ∈ (n.host g).begun
  · obtain ⟨hservice, hledger⟩ := (hl.told g).begun r hr
    have hle : (n.host g).begun.count r ≤ transfers w n.host g r.peer r.key := by
      refine Nat.le_trans (List.countP_mono_left ?_) (Nat.le_add_left _ _)
      intro r' _ heq
      rw [eq_of_beq heq]
      exact decide_eq_true ⟨rfl, rfl⟩
    have hpos : 0 < (n.host g).begun.count r := List.count_pos_iff.mpr hr
    obtain ⟨-, fname, hledger', hmem⟩ := hl.settled.spent g r.peer r.key (hpos.trans_le hle)
    have hfname : fname = r.fname := by
      rw [hledger] at hledger'
      exact (Prod.mk.inj (Option.some.inj hledger')).2.symm
    have haccepted : r ∈ (n.host g).accepted := by
      rw [hfname, ← hservice] at hmem
      exact hmem
    calc (n.host g).begun.count r ≤ 1 := hle.trans (hl.settled.once g r.peer r.key)
      _ ≤ (n.host g).accepted.count r := List.count_pos_iff.mpr haccepted
  · rw [List.count_eq_zero_of_not_mem hr]
    exact Nat.zero_le _

/-! ### Runs -/

theorem accounted_update {hosts : H → Host H} {root : H → Bytes} {files : H → Files}
    (h : ∀ g, Accounted (root g) (files g) (hosts g)) {g : H} {x : Host H}
    (hx : Accounted (root g) (files g) x) :
    ∀ g', Accounted (root g') (files g') (Function.update hosts g x g') :=
  (Function.forall_update_iff hosts fun g x => Accounted (root g) (files g) x).mpr
    ⟨hx, fun g' _ => h g'⟩

theorem step_host (dir : Directory H) (n : Network H) (a : Action H) :
    (n.step dir a).host = (n.act dir a).1.host := by
  rw [step]
  split <;> simp [*, write]

theorem step_accounted {root : H → Bytes} {files : H → Files}
    (h : ∀ g, Accounted (root g) (files g) (n.host g)) (a : Action H) :
    ∀ g, Accounted (root g) (files g) ((n.step dir a).host g) := by
  rw [step_host]
  cases a with
  | initiateFileTransferWithSession a g fname fsize now =>
    exact accounted_update h ((h a).congr rfl rfl rfl rfl)
  | sendChat a g text now => exact h
  | transferNextChunk a key now => exact accounted_update h ((h a).work key now)
  | readFrame g p env file =>
    show ∀ g', Accounted (root g') (files g') ((n.read dir g p env file).host g')
    rw [Network.read]
    split
    · exact h
    · exact accounted_update h ((h g).onEffects (dir.name g) file p _)
  | listenToMail g flt => exact accounted_update h ((h g).listen flt)
  | onKey g c now => exact accounted_update h ((h g).onKey c)

/-- **Consent.**  In every run of a network of hosts whose steps all keep the contract, and so at
every point of such a run, each host has opened a file of a peer at most as often as its user has
accepted an offer that came on the same session with the same key, service and file name; and every
file of the host that is not as it was at the start is one it has so opened. -/
theorem begun_le_accepted (dir : Directory H) (rootdir : H → Bytes) (files : H → Files)
    (as : List (Action H)) (hok : Runs.Meets (step dir) (Ok dir) (start dir rootdir files) as)
    (g : H) :
    (∀ r, ((Runs.run (step dir) (start dir rootdir files) as).host g).begun.count r ≤
      ((Runs.run (step dir) (start dir rootdir files) as).host g).accepted.count r) ∧
    ∀ loc, ((Runs.run (step dir) (start dir rootdir files) as).host g).app.files loc ≠ files g loc →
      ∃ r ∈ ((Runs.run (step dir) (start dir rootdir files) as).host g).begun,
        BVReceivedFile.fileAt (rootdir g) r.serviceName r.fname = loc := by
  have hstart : ∀ h, Accounted (rootdir h) (files h) ((start dir rootdir files).host h) := by
    intro h
    refine ⟨rfl, ?_, ?_⟩
    · intro key serviceName fname hentry
      cases hentry
    · intro loc hloc
      exact absurd rfl hloc
  have hrun := Runs.run_invariant
    (I := fun n => Inv dir n ∧ ∀ h, Accounted (rootdir h) (files h) (n.host h))
    (fun n a h hok => ⟨step_inv h.1 hok, step_accounted h.2 a⟩)
    ⟨start_inv dir rootdir files, hstart⟩ hok
  exact ⟨hrun.1.begun_le g, (hrun.2 g).file⟩

/-! ### Two hosts -/

def twoHosts : Directory Bool where
  name
    | false => [97]
    | true => [98]
  session name := if name = [97] then some false else if name = [98] then some true else none
  session_name h := by cases h <;> rfl
  bar_not_mem h := by cases h <;> decide

/-- Host `a` offers a file `x`, the user of `b` accepts it, and the transfer begins. -/
def offered : List (Action Bool) :=
  [.initiateFileTransferWithSession false true [120] 1 0, .readFrame true false .blank none,
    .listenToMail true .none, .onKey true 121 0, .readFrame false true .blank (some [1]),
    .transferNextChunk false 0 0, .readFrame true false .blank none, .listenToMail true .none]

theorem begun_le_accepted_offered :
    ((Runs.run (step twoHosts) (start twoHosts (fun _ => [47]) fun _ _ => none) offered).host
        true).begun = [⟨false, 0, [97], [120]⟩] ∧
      ∀ r, ((Runs.run (step twoHosts) (start twoHosts (fun _ => [47]) fun _ _ => none) offered).host
          true).begun.count r ≤
        ((Runs.run (step twoHosts) (start twoHosts (fun _ => [47]) fun _ _ => none) offered).host
          true).accepted.count r :=
  ⟨by decide +kernel, (begun_le_accepted twoHosts _ _ offered (by decide +kernel) true).1⟩

/-- Host `b` gets a BEGIN frame for a file that was never offered to it.  It opens the file, and its
user has accepted nothing. -/
theorem begin_unasked :
    let n := Runs.run (step twoHosts)
      ((start twoHosts (fun _ => [47]) fun _ _ => none).write (true, false)
        (.worker 0 (oneByte 0 [97] 1).beginFrame))
      [.readFrame true false .blank none, .listenToMail true .none]
    (n.host true).app.files [BVReceivedFile.dataDir, [97], [120]] = some [] ∧
      (n.host true).begun = [⟨false, 0, [97], [120]⟩] ∧ (n.host true).accepted = [] ∧
      ¬ ∀ r, (n.host true).begun.count r ≤ (n.host true).accepted.count r := by
  refine ⟨by decide +kernel, by decide +kernel, by decide +kernel, ?_⟩
  intro h
  have hone := h ⟨false, 0, [97], [120]⟩
  revert hone
  decide +kernel

end Network

end LocalChat
