import LocalChat.App.Saved
import LocalChat.Network.Ledger

/-!
# From BEGIN to END

What a peer has sent and the mailbox thread has not yet handled lies first in the mailbox and then
in the socket.  The BEGIN and END marks of these events and frames take turns, and so a file that a
handler has opened is closed by an END that is already on its way, or by the transfer that is still
under way.

* `marks`: the marks on their way from one host to another, the oldest first.
* `Alternates m l m'`: with `m` as the open transfer, the marks `l` take turns and leave `m'`.
* `Piped`: so do the marks on every session, and every open file belongs to one of the sessions.
  Every step keeps it: `Piped.write`, `Piped.take`, `Piped.mail`, `Piped.listen`.
-/

namespace LocalChat

open Octets

/-! ### Marks -/

inductive Mark
  | begin_ (key : UInt32)
  | end_ (key : UInt32)
  deriving DecidableEq

def AppEvent.mark : AppEvent → Option Mark
  | .fileTransferBegin d => some (.begin_ d.correlationKey)
  | .fileTransferEnd d => some (.end_ d.correlationKey)
  | _ => none

def Written.mark : Written UInt32 → Option Mark
  | .io _ => none
  | .worker key f =>
    match f.handler with
    | .fileTransferBegin => some (.begin_ key)
    | .fileTransferEnd => some (.end_ key)
    | _ => none

/-- With `m` as the open transfer, the marks take turns and leave the last argument. -/
inductive Alternates : Option UInt32 → List Mark → Option UInt32 → Prop
  | nil (m : Option UInt32) : Alternates m [] m
  | begin_ {key : UInt32} {l : List Mark} {m : Option UInt32} :
      Alternates (some key) l m → Alternates none (.begin_ key :: l) m
  | end_ {key : UInt32} {l : List Mark} {m : Option UInt32} :
      Alternates none l m → Alternates (some key) (.end_ key :: l) m

theorem Alternates.append {m m' m'' : Option UInt32} {l l' : List Mark} (h : Alternates m l m')
    (h' : Alternates m' l' m'') : Alternates m (l ++ l') m'' := by
  induction h with
  | nil m => exact h'
  | begin_ _ ih => exact .begin_ (ih h')
  | end_ _ ih => exact .end_ (ih h')

theorem Alternates.split {m m'' : Option UInt32} {l l' : List Mark}
    (h : Alternates m (l ++ l') m'') : ∃ m', Alternates m l m' ∧ Alternates m' l' m'' := by
  induction l generalizing m with
  | nil => exact ⟨m, .nil m, h⟩
  | cons x l ih =>
    cases h with
    | begin_ h =>
      obtain ⟨m', hl, hl'⟩ := ih h
      exact ⟨m', .begin_ hl, hl'⟩
    | end_ h =>
      obtain ⟨m', hl, hl'⟩ := ih h
      exact ⟨m', .end_ hl, hl'⟩

theorem Alternates.eq_of_begin {m m' : Option UInt32} {key : UInt32}
    (h : Alternates m [.begin_ key] m') : m' = some key := by
  cases h with
  | begin_ h =>
    cases h
    rfl

/-- A handler that returns OK has opened the file, or the file was open and this is not its END. -/
theorem App.openAt_of_handle {a : App} {flt : Faults} {e : AppEvent}
    (hok : (a.handle flt e).1 = .ok) {key : UInt32} (h : (a.handle flt e).2.openAt key ≠ none) :
    e.mark = some (.begin_ key) ∨ a.openAt key ≠ none ∧ e.mark ≠ some (.end_ key) := by
  cases e with
  | messageIncoming text now sender => exact .inr ⟨h, nofun⟩
  | fileOffer d => exact .inr ⟨h, nofun⟩
  | fileTransferBegin d =>
    have hopen : (a.handle flt (.fileTransferBegin d)).2.openAt = _ :=
      (handleFileTransferBegin_of_ok hok).1
    rw [hopen] at h
    by_cases hkey : key = d.correlationKey
    · rw [hkey]
      exact .inl rfl
    · rw [Function.update_of_ne hkey] at h
      exact .inr ⟨h, nofun⟩
  | fileTransferChunkSent d =>
    obtain ⟨_, -, hopen, -⟩ := handleFileChunkSent_of_ok hok
    have hopen' : (a.handle flt (.fileTransferChunkSent d)).2.openAt = a.openAt := hopen
    rw [hopen'] at h
    exact .inr ⟨h, nofun⟩
  | fileTransferEnd d =>
    obtain ⟨_, -, hopen, -⟩ := handleFileTransferEnd_of_ok hok
    have hopen' : (a.handle flt (.fileTransferEnd d)).2.openAt = _ := hopen
    rw [hopen'] at h
    by_cases hkey : key = d.correlationKey
    · rw [hkey, Function.update_self] at h
      exact absurd rfl h
    · rw [Function.update_of_ne hkey] at h
      refine .inr ⟨h, ?_⟩
      rintro ⟨⟩
      exact hkey rfl

namespace Network

variable {H : Type} [DecidableEq H]

/-! ### The marks on their way -/

def markFrom (p : H) (m : H × AppEvent) : Option Mark := if m.1 = p then m.2.mark else none

/-- What is on its way on the session `l`, the oldest first. -/
def marks (w : H × H → List (Written UInt32)) (hosts : H → Host H) (l : H × H) : List Mark :=
  (hosts l.1).mailbox.filterMap (markFrom l.2) ++ (w l).filterMap Written.mark

/-- The marks on every session take turns, and every open file is of the transfer whose BEGIN has
been handled on one of them and whose END has not. -/
def Piped (w : H × H → List (Written UInt32)) (n : Network H) : Prop :=
  ∃ m : H × H → Option UInt32, (∀ l, Alternates (m l) (marks w n.host l) (n.underWay l)) ∧
    ∀ g, (n.host g).listening = true → ∀ key, (n.host g).app.openAt key ≠ none →
      ∃ p, m (g, p) = some key

variable {w : H × H → List (Written UInt32)} {n n' : Network H} {g p : H}

theorem start_piped (dir : Directory H) (rootdir : H → Bytes) (files : H → Files) :
    Piped (fun _ => []) (start dir rootdir files) := by
  refine ⟨fun _ => none, fun _ => .nil none, ?_⟩
  intro g _ key h
  exact absurd rfl h

theorem Piped.congr (h : Piped w n) (hhost : n'.host = n.host) (hunder : n'.underWay = n.underWay) :
    Piped w n' := by
  rw [Piped, hhost, hunder]
  exact h

theorem Piped.update (h : Piped w n) {g : H} {x : Host H}
    (hmail : x.mailbox = (n.host g).mailbox) (hlistening : x.listening = (n.host g).listening)
    (hopen : x.app.openAt = (n.host g).app.openAt) :
    Piped w { n with host := Function.update n.host g x } := by
  obtain ⟨m, halt, hfiles⟩ := h
  refine ⟨m, ?_, ?_⟩
  · intro l
    show Alternates (m l) (marks w (Function.update n.host g x) l) (n.underWay l)
    rw [marks, update_congr Host.mailbox hmail]
    exact halt l
  · intro q hl key hk
    have hsame : (Function.update n.host g x q).app.openAt = (n.host q).app.openAt :=
      update_congr (fun x => x.app.openAt) hopen q
    have hlive : (Function.update n.host g x q).listening = (n.host q).listening :=
      update_congr Host.listening hlistening q
    exact hfiles q (hlive.symm.trans hl) key fun hnone => hk ((congrFun hsame key).trans hnone)

theorem marks_write (w : H × H → List (Written UInt32)) (hosts : H → Host H) (l l' : H × H)
    (x : Written UInt32) : marks (Function.update w l (w l ++ [x])) hosts l' =
      marks w hosts l' ++ if l' = l then x.mark.toList else [] := by
  by_cases hl : l' = l
  · subst hl
    rw [marks, marks, Function.update_self, List.filterMap_append, List.append_assoc, if_pos rfl]
    cases hx : x.mark <;> simp [hx]
  · rw [marks, marks, Function.update_of_ne hl, if_neg hl, List.append_nil]

/-- A frame is written; its mark is in turn. -/
theorem Piped.write (h : Piped w n) {l : H × H} {x : Written UInt32}
    (hx : Alternates (n.underWay l) x.mark.toList ((n.write l x).underWay l)) :
    Piped (Function.update w l (w l ++ [x])) (n.write l x) := by
  obtain ⟨m, halt, hfiles⟩ := h
  refine ⟨m, ?_, hfiles⟩
  intro l'
  show Alternates (m l') (marks _ n.host l') _
  rw [marks_write]
  by_cases hl : l' = l
  · subst hl
    rw [if_pos rfl]
    exact (halt l').append hx
  · rw [if_neg hl, List.append_nil, write_underWay_of_ne hl]
    exact halt l'

theorem Piped.write_io (h : Piped w n) (l : H × H) (f : PeerFrame) :
    Piped (Function.update w l (w l ++ [.io f])) (n.write l (.io f)) := h.write (.nil _)

theorem Piped.take (h : Piped w n) {x : Written UInt32} {rest : List (Written UInt32)}
    (hx : w (g, p) = x :: rest) (hmark : x.mark = none) :
    Piped (Function.update w (g, p) rest) n := by
  obtain ⟨m, halt, hfiles⟩ := h
  refine ⟨m, ?_, hfiles⟩
  intro l
  by_cases hl : l = (g, p)
  · subst hl
    have hbefore := halt (g, p)
    rw [marks, hx, List.filterMap_cons_none hmark] at hbefore
    rw [marks, Function.update_self]
    exact hbefore
  · rw [marks, Function.update_of_ne hl]
    exact halt l

/-- **A frame becomes an event** with the same mark. -/
theorem Piped.mail (h : Piped w n) {x : Written UInt32} {rest : List (Written UInt32)}
    (hx : w (g, p) = x :: rest) {e : AppEvent} (hmark : e.mark = x.mark)
    (hhost : n'.host = Function.update n.host g
      { n.host g with mailbox := (n.host g).mailbox ++ [(p, e)] })
    (hunder : n'.underWay = n.underWay) : Piped (Function.update w (g, p) rest) n' := by
  obtain ⟨m, halt, hfiles⟩ := h
  refine ⟨m, ?_, ?_⟩
  · intro l
    have hbefore := halt l
    rw [hunder, hhost]
    suffices hsame : marks (Function.update w (g, p) rest) (Function.update n.host g
        { n.host g with mailbox := (n.host g).mailbox ++ [(p, e)] }) l = marks w n.host l by
      rw [hsame]
      exact hbefore
    obtain ⟨q, r⟩ := l
    rw [marks, marks]
    by_cases hq : q = g
    · subst hq
      rw [Function.update_self (β := fun _ => Host H)]
      dsimp only
      rw [List.filterMap_append]
      by_cases hr : r = p
      · subst hr
        rw [Function.update_self, hx]
        cases hm : x.mark <;> simp [markFrom, hmark, hm]
      · have hne : (q, r) ≠ (q, p) := fun h => hr (Prod.mk.inj h).2
        rw [Function.update_of_ne hne]
        simp [markFrom, Ne.symm hr]
    · have hne : (q, r) ≠ (g, p) := fun h => hq (Prod.mk.inj h).1
      rw [Function.update_of_ne hne, Function.update_of_ne hq]
  · intro q hl key hk
    rw [hhost] at hl hk
    have hlive : (Function.update n.host g
        { n.host g with mailbox := (n.host g).mailbox ++ [(p, e)] } q).listening =
        (n.host q).listening := update_congr Host.listening (by rfl) q
    have hsame : (Function.update n.host g
        { n.host g with mailbox := (n.host g).mailbox ++ [(p, e)] } q).app =
        (n.host q).app := update_congr Host.app (by rfl) q
    rw [hsame] at hk
    exact hfiles q (hlive.symm.trans hl) key hk

/-- **An event is handled.** -/
theorem Piped.listen (h : Piped w n) (g : H) (flt : Faults) :
    Piped w { n with host := Function.update n.host g ((n.host g).listen flt) } := by
  rw [Host.listen]
  split
  · rename_i p e rest hlive hbox
    obtain ⟨m, halt, hfiles⟩ := h
    have hhere := halt (g, p)
    have hsplit : marks w n.host (g, p) = e.mark.toList ++
        (rest.filterMap (markFrom p) ++ (w (g, p)).filterMap Written.mark) := by
      rw [marks, hbox]
      cases hm : e.mark <;> simp [markFrom, hm]
    rw [hsplit] at hhere
    obtain ⟨k, hmark, hrest⟩ := hhere.split
    refine ⟨Function.update m (g, p) k, ?_, ?_⟩
    · intro l
      obtain ⟨q, r⟩ := l
      show Alternates _ (marks w (Function.update n.host g _) (q, r)) (n.underWay (q, r))
      rw [marks]
      by_cases hq : q = g
      · subst hq
        rw [Function.update_self (β := fun _ => Host H)]
        dsimp only
        by_cases hr : r = p
        · subst hr
          rw [Function.update_self]
          exact hrest
        · have hne : (q, r) ≠ (q, p) := fun h => hr (Prod.mk.inj h).2
          rw [Function.update_of_ne hne]
          have hother := halt (q, r)
          rw [marks, hbox] at hother
          simpa [markFrom, Ne.symm hr] using hother
      · have hne : (q, r) ≠ (g, p) := fun h => hq (Prod.mk.inj h).1
        rw [Function.update_of_ne hne, Function.update_of_ne hq]
        exact halt (q, r)
    · intro q hl key hk
      by_cases hq : q = g
      · subst hq
        simp only [Function.update_self] at hl hk
        rcases App.openAt_of_handle (of_decide_eq_true hl) hk with hbegin | ⟨hopen, hend⟩
        · -- the file has been opened now
          rw [hbegin] at hmark
          refine ⟨p, ?_⟩
          rw [Function.update_self]
          exact hmark.eq_of_begin
        · obtain ⟨r, hr⟩ := hfiles q hlive key hopen
          by_cases hrp : r = p
          · -- the event is about the same transfer and does not end it
            subst hrp
            refine ⟨r, ?_⟩
            rw [Function.update_self]
            rw [hr] at hmark
            cases he : e.mark with
            | none =>
              rw [he] at hmark
              cases hmark
              rfl
            | some x =>
              rw [he] at hmark hend
              cases hmark with
              | end_ _ => exact absurd rfl hend
          · refine ⟨r, ?_⟩
            rw [Function.update_of_ne fun h => hrp (Prod.mk.inj h).2]
            exact hr
      · simp only [Function.update_of_ne hq] at hl hk
        obtain ⟨r, hr⟩ := hfiles q hl key hk
        refine ⟨r, ?_⟩
        rw [Function.update_of_ne fun h => hq (Prod.mk.inj h).1]
        exact hr
  · rw [Function.update_eq_self]
    exact h

/-! ### The key of an END event -/

/-- The END event that comes of a frame has the key of its transfer. -/
theorem readOnce_end {s : Session} {m m' : Mode} {x : Written UInt32} {rest : Bytes}
    (h : Reads s m) (hx : Next m x m') (hs : s.socket = x.bytes ++ rest) {key : UInt32}
    (hmark : x.mark = some (.end_ key)) (env : Env) :
    ∃ f, ∃ d : BVTCPFileData, d.correlationKey = key ∧
      Session.Handled s (s.readOnce env) rest
        [.handed .fileTransferEnd f, .putMessageIntoAppMailbox (.fileTransferEnd d)] := by
  cases hx with
  | io _ _ => cases hmark
  | begin_ _ _ _ => cases hmark
  | chunk c now data => cases hmark
  | end_ c now data =>
    obtain ⟨hchunk, hc⟩ := h
    cases hmark
    obtain ⟨-, hhandled⟩ := Session.readOnce_fileTransferEnd env hchunk hs
      (by rw [hc]; exact length_chunkFrame _ _ _ _) (fileType_writeFileChunkSync _ _)
    refine ⟨_, _, ?_, hhandled⟩
    rw [Session.chunkData, Written.bytes, FileFrame.bytes, getFileHeader_writeFileChunkSync]
    rfl

theorem Streams.read_end {dir : Directory H} (hw : Streams dir w n) {x : Written UInt32}
    {rest : List (Written UInt32)} (hx : w (g, p) = x :: rest) {key : UInt32}
    (hmark : x.mark = some (.end_ key)) (env : Env) (file : Option Bytes) :
    ∃ d : BVTCPFileData, d.correlationKey = key ∧
      (n.read dir g p env file).host = Function.update n.host g
        { n.host g with mailbox := (n.host g).mailbox ++ [(p, .fileTransferEnd d)] } := by
  obtain ⟨m, m', hreads, hstream, -⟩ := hw.stream (g, p)
  have hsocket := hw.socket (g, p)
  rw [hx] at hstream
  rw [hx, List.flatMap_cons] at hsocket
  cases hstream with
  | cons hnext _ =>
    obtain ⟨f, d, hkey, hhandled⟩ := readOnce_end hreads hnext hsocket hmark env
    refine ⟨d, hkey, ?_⟩
    have hne : (n.session (g, p)).socket ≠ [] := by
      rw [hsocket]
      intro hnil
      exact bytes_ne_nil x (List.append_eq_nil_iff.mp hnil).1
    rw [Network.read, if_neg hne, hhandled.log, List.drop_left]
    rfl

end Network

end LocalChat
