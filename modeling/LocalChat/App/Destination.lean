import LocalChat.App.Containment
import LocalChat.Lib.Runs

/-!
# Repeated receives into one destination

A `Receive` is what happens to one destination from a `Begin` on: chunks are appended, and the
transfer is left there or completed by `Finish`.  A completed transfer passes its content in pieces
of `k` bytes, the last one filled up with zeros.

* `receive_eq`: what a receive leaves in the file depends on the receive alone.  `Begin` truncates,
  the appended pieces are the content and zeros, and `Finish` cuts the zeros off.
* `receives_exact`: after any sequence of receives into a destination, each completed one has left
  its content, and all files of other names are as they were.
-/

namespace LocalChat

open Octets PosixPath

/-! ### Pieces -/

def fullPieces (k : Nat) (c : Bytes) : Nat := (c.length - 1) / k

def piecesBefore (k : Nat) (c : Bytes) : List Bytes :=
  (List.range (fullPieces k c)).map fun i => (c.drop (i * k)).take k

/-- The last piece, of at most `k` bytes. -/
def lastPiece (k : Nat) (c : Bytes) : Bytes := c.drop (fullPieces k c * k)

theorem flatten_pieces (k m : Nat) (c : Bytes) :
    ((List.range m).map fun i => (c.drop (i * k)).take k).flatten = c.take (m * k) := by
  induction m with
  | zero => simp
  | succ m ih =>
    rw [List.range_succ, List.map_append, List.flatten_append, ih, List.map_singleton,
      List.flatten_singleton, Nat.succ_mul, List.take_add]

theorem flatten_piecesBefore_append (k : Nat) (c : Bytes) :
    (piecesBefore k c).flatten ++ lastPiece k c = c := by
  rw [piecesBefore, flatten_pieces, lastPiece, List.take_append_drop]

theorem length_lastPiece {k : Nat} (hk : 0 < k) {c : Bytes} (hc : c ≠ []) :
    0 < (lastPiece k c).length ∧ (lastPiece k c).length ≤ k := by
  have hpos := List.length_pos_iff.mpr hc
  have hle : fullPieces k c * k ≤ c.length - 1 := Nat.div_mul_le_self _ _
  have hlt : c.length - 1 < fullPieces k c * k + k := Nat.lt_div_mul_add hk
  rw [lastPiece, List.length_drop]
  omega

/-! ### Receives -/

/-- What happens to a destination from a `Begin` on. -/
inductive Receive
  /-- some chunks arrive, and the transfer is left -/
  | aborted (chunks : List Bytes)
  /-- the content arrives in pieces of `k` bytes -/
  | completed (content : Bytes) (k : Nat)
  deriving DecidableEq, Repr

namespace Receive

def chunks : Receive → List Bytes
  | aborted chunks => chunks
  | completed content k => piecesBefore k content

/-- A completed receive has a content and a chunk size. -/
def Valid : Receive → Prop
  | aborted _ => True
  | completed content k => content ≠ [] ∧ 1 ≤ k

def outcome : Receive → Bytes
  | aborted chunks => chunks.flatten
  | completed content _ => content

end Receive

namespace BVReceivedFile

variable (root serviceName fname : Bytes)

def appendChunks (chunks : List Bytes) (files : Files) : Files :=
  chunks.foldl (fun files data => (appendChunk .none root serviceName fname data files).2) files

def receive (files : Files) (r : Receive) : Files :=
  let files := appendChunks root serviceName fname r.chunks
    (begin_ .none root serviceName fname files).2
  match r with
  | .aborted _ => files
  | .completed content k =>
    (finish .none root serviceName fname (padTo k (lastPiece k content)) content.length files).2

theorem begin_none (files : Files) :
    begin_ .none root serviceName fname files =
      (.ok, Function.update files (fileAt root serviceName fname) (some [])) := by
  simp only [begin_, Bool.false_eq_true, if_false]

theorem appendChunk_none (data : Bytes) (files : Files) :
    appendChunk .none root serviceName fname data files =
      (.ok, appendTo (fileAt root serviceName fname) data files) := by
  simp only [appendChunk, Faults.reaching, Bool.false_eq_true, if_false]

/-- `Finish` appends the last piece, and cuts or fills the file to its size. -/
theorem finish_none (data : Bytes) (n : Nat) (files : Files) :
    finish .none root serviceName fname data n files =
      (.ok, Function.update files (fileAt root serviceName fname)
        (some (padTo n ((files (fileAt root serviceName fname)).getD [] ++ data)))) := by
  simp only [finish, Faults.reaching, appendTo, Function.update_self, Bool.false_eq_true, if_false,
    Function.update_idem]

theorem appendChunks_eq (chunks : List Bytes) : ∀ (files : Files) (done : Bytes),
    files (fileAt root serviceName fname) = some done →
      appendChunks root serviceName fname chunks files =
        Function.update files (fileAt root serviceName fname) (some (done ++ chunks.flatten)) := by
  induction chunks with
  | nil =>
    intro files done hdone
    rw [List.flatten_nil, List.append_nil, ← hdone, Function.update_eq_self]
    rfl
  | cons data chunks ih =>
    intro files done hdone
    have hnext :
        appendTo (fileAt root serviceName fname) data files (fileAt root serviceName fname) =
          some (done ++ data) := by
      rw [appendTo, hdone, Function.update_self]
      rfl
    have hrest := ih _ _ hnext
    rw [appendChunks] at hrest ⊢
    rw [List.foldl_cons, appendChunk_none, hrest, appendTo, Function.update_idem,
      List.flatten_cons, List.append_assoc]

/-- **One receive.**  It leaves its outcome in the file, whatever was there. -/
theorem receive_eq (files : Files) {r : Receive} (hr : r.Valid) :
    receive root serviceName fname files r =
      Function.update files (fileAt root serviceName fname) (some r.outcome) := by
  have hbegin : (begin_ .none root serviceName fname files).2 (fileAt root serviceName fname) =
      some [] := by
    rw [begin_none]
    exact Function.update_self _ _ _
  have hchunks := appendChunks_eq root serviceName fname r.chunks _ _ hbegin
  rw [begin_none, List.nil_append, Function.update_idem] at hchunks
  cases r with
  | aborted chunks =>
    simp only [receive]
    rw [begin_none, hchunks]
    rfl
  | completed content k =>
    obtain ⟨hne, hk⟩ := hr
    have hsplit := flatten_piecesBefore_append k content
    obtain ⟨-, hle⟩ := length_lastPiece hk hne
    have hwhole : (piecesBefore k content).flatten ++ padTo k (lastPiece k content) =
        content ++ List.replicate (k - (lastPiece k content).length) 0 := by
      rw [padTo_of_length_le hle, ← List.append_assoc, hsplit]
    have hcut : padTo content.length
        (content ++ List.replicate (k - (lastPiece k content).length) 0) = content := by
      rw [padTo, List.take_left, Nat.sub_eq_zero_of_le, List.replicate_zero, List.append_nil]
      rw [List.length_append]
      omega
    simp only [receive]
    rw [begin_none, hchunks, finish_none, Function.update_self, Function.update_idem,
      Option.getD_some]
    rw [Receive.chunks, hwhole, hcut]
    rfl

/-! ### Sequences of receives -/

theorem run_receive_of_ne (rs : List Receive) : ∀ (files : Files) (loc : List Name),
    (∀ r ∈ rs, r.Valid) → loc ≠ fileAt root serviceName fname →
      Runs.run (receive root serviceName fname) files rs loc = files loc := by
  induction rs with
  | nil =>
    intro files loc _ _
    rfl
  | cons r rs ih =>
    intro files loc hvalid hne
    rw [Runs.run_cons, ih _ loc (fun r' hr' => hvalid r' (List.mem_cons_of_mem _ hr')) hne,
      receive_eq root serviceName fname files (hvalid r List.mem_cons_self),
      Function.update_of_ne hne]

theorem fileAt_ne_of_names {serviceName fname serviceName' fname' : Bytes} (hs : IsName serviceName)
    (hf : IsName fname) (hs' : IsName serviceName') (hf' : IsName fname')
    (hne : (serviceName', fname') ≠ (serviceName, fname)) :
    fileAt root serviceName' fname' ≠ fileAt root serviceName fname := by
  rw [fileAt_of_names hs hf, fileAt_of_names hs' hf']
  intro heq
  have hnames := List.append_cancel_left heq
  simp only [List.cons.injEq, and_true, true_and] at hnames
  exact hne (by rw [hnames.1, hnames.2])

/-- **Repeated receives.**  After each completed transfer of a sequence into one destination the
file has the content of this transfer, and the files of all other names are as they were before the
sequence. -/
theorem receives_exact (files : Files) (rs : List Receive) (hs : IsName serviceName)
    (hf : IsName fname) (hvalid : ∀ r ∈ rs, r.Valid) :
    (∀ p content k, p ++ [Receive.completed content k] <+: rs →
      Runs.run (receive root serviceName fname) files (p ++ [.completed content k])
        (fileAt root serviceName fname) = some content) ∧
    ∀ p serviceName' fname', p <+: rs → IsName serviceName' → IsName fname' →
      (serviceName', fname') ≠ (serviceName, fname) →
        Runs.run (receive root serviceName fname) files p (fileAt root serviceName' fname') =
          files (fileAt root serviceName' fname') := by
  constructor
  · intro p content k hp
    have hr : (Receive.completed content k).Valid :=
      hvalid _ (hp.subset (List.mem_append_right _ List.mem_cons_self))
    rw [Runs.run_append, Runs.run_cons, Runs.run_nil, receive_eq root serviceName fname _ hr,
      Function.update_self]
    rfl
  · intro p serviceName' fname' hp hs' hf' hne
    exact run_receive_of_ne root serviceName fname p files _ (fun r hr => hvalid r (hp.subset hr))
      (fileAt_ne_of_names root hs hf hs' hf' hne)

/-- A transfer that is left after one chunk and a completed one of five bytes in pieces of two, over
an old file. -/
theorem receives_exact_leftover :
    let files : Files := Function.update (fun _ => none) (fileAt [47] [97] [120]) (some [9, 9, 9])
    Runs.run (receive [47] [97] [120]) files
        [.aborted [[7, 7, 7, 7, 7, 7]], .completed [1, 2, 3, 4, 5] 2] (fileAt [47] [97] [120]) =
      some [1, 2, 3, 4, 5] := by
  intro files
  exact (receives_exact [47] [97] [120] files
    [.aborted [[7, 7, 7, 7, 7, 7]], .completed [1, 2, 3, 4, 5] 2] (by decide) (by decide)
    (by
      intro r hr
      rcases List.mem_cons.mp hr with rfl | hr
      · trivial
      · rw [List.mem_singleton.mp hr]
        exact ⟨by decide, by decide⟩)).1 [.aborted [[7, 7, 7, 7, 7, 7]]] [1, 2, 3, 4, 5] 2
    List.prefix_rfl

end BVReceivedFile

end LocalChat
