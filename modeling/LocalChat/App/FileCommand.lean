import LocalChat.App.Typing
import LocalChat.Manager.Offers
import Mathlib.Data.List.DropRight
import Mathlib.Data.List.TakeWhile

/-!
# The command that sends a file

A line `|f <path>` of the console offers a file.  Terminals differ in how they write a path that is
dropped on them: as it is, between quotes, or with a backslash before every space.  What they write
comes in as keys, of which `HandleChatKey` keeps the printable ones.  `SendChatLine` trims the
argument of the line, takes one pair of quotes off and drops every backslash before a space.

* `normalised_iff`: none of the three steps may lose a character other than the backslashes.
* `Printed.step`: whatever comes in, only printable paths are offered.
* `dropped_path_offered_iff`: so the file that was dropped is the file that is offered exactly if
  the path is printable, ends in no blank, does not look quoted itself, and holds no backslash
  before a space that its spelling does not guard.
-/

namespace LocalChat

namespace FileCommand

/-! ### The code -/

/-- The lambda `isSpace`: a space or a tab. -/
def isSpace (c : UInt8) : Bool := c == 32 || c == 9

/-- The two loops that erase at the front and pop at the back. -/
def trimmed (argStr : Bytes) : Bytes := (argStr.dropWhile isSpace).rdropWhile isSpace

/-- Both ends are the same quote, `'` or `"`. -/
def Quoted (argStr : Bytes) : Prop :=
  2 ≤ argStr.length ∧
    (argStr.head? = some 39 ∧ argStr.getLast? = some 39 ∨
      argStr.head? = some 34 ∧ argStr.getLast? = some 34)

instance (argStr : Bytes) : Decidable (Quoted argStr) :=
  inferInstanceAs (Decidable (_ ∧ _))

def unquoted (argStr : Bytes) : Bytes :=
  if Quoted argStr then (argStr.drop 1).take (argStr.length - 2) else argStr

/-- The loop that drops the backslash, 92, of every escaped space. -/
def unescaped : Bytes → Bytes
  | [] => []
  | [c] => [c]
  | c :: d :: argStr =>
    if c = 92 ∧ d = 32 then unescaped (d :: argStr) else c :: unescaped (d :: argStr)

def filePath (line : Bytes) : Bytes := unescaped (unquoted (trimmed (line.drop 3)))

/-- `SendChatLine` on a line that starts with `|f `. -/
def sendFile (isRegularFile : Bytes → Bool) (serviceName line : Bytes) (d : FileDesk) : FileDesk :=
  match d.manager.getSessionIDFromServiceName serviceName with
  | none => d
  | some sid =>
    if isRegularFile (filePath line) then d.initiateFileTransferWithSession sid (filePath line)
    else d

/-- What the console's effects do to the offers.  Other lines are chat. -/
def perform (isRegularFile : Bytes → Bool) (d : FileDesk) : ConsoleEffect → FileDesk
  | .sendChatLine serviceName line =>
    -- "|f "
    if [124, 102, 32] <+: line then sendFile isRegularFile serviceName line d else d
  | _ => d

structure FileConsole where
  console : Console
  desk : FileDesk

def step (isRegularFile : Bytes → Bool) (x : FileConsole) (t : Task) : FileConsole where
  console := x.console.step t
  desk := (x.console.effects t).foldl (perform isRegularFile) x.desk

/-! ### How a path is dropped -/

/-- How a terminal writes a path. -/
inductive Spelling
  | typed
  /-- between two quotes `'` -/
  | quoted
  /-- between two quotes `"` -/
  | doublyQuoted
  | escaped
  deriving DecidableEq, Repr

def escape : Bytes → Bytes
  | [] => []
  | c :: path => if c = 32 then 92 :: c :: escape path else c :: escape path

def Spelling.write : Spelling → Bytes → Bytes
  | .typed, path => path
  | .quoted, path => 39 :: path ++ [39]
  | .doublyQuoted, path => 34 :: path ++ [34]
  | .escaped, path => escape path

/-- The line, with the blanks around the path that the user or the terminal adds. -/
def command (before after : Bytes) (s : Spelling) (path : Bytes) : Bytes :=
  [124, 102, 32] ++ (before ++ s.write path ++ after)

/-- The keys that the line and the return key come in as. -/
def keys (line : Bytes) (sessionNames : List Bytes) : List Task :=
  (line ++ [10]).map (.key · sessionNames)

def Trim (path : Bytes) : Prop := path.head?.any isSpace = false ∧ path.getLast?.any isSpace = false

/-- The paths that survive their spelling. -/
def Spelling.Carries : Spelling → Bytes → Prop
  | .typed, path => Trim path ∧ ¬ Quoted path ∧ ¬ [92, 32] <:+: path
  | .quoted, path => ¬ [92, 32] <:+: path
  | .doublyQuoted, path => ¬ [92, 32] <:+: path
  | .escaped, path => path.head? ≠ some 9 ∧ path.getLast?.any isSpace = false ∧ ¬ Quoted path

/-! ### Trimming -/

theorem isSpace_ne {c : UInt8} (h : isSpace c = true) : c ≠ 92 := by
  rintro rfl
  cases h

theorem trimmed_append {before after : Bytes} (hb : ∀ c ∈ before, isSpace c = true)
    (ha : ∀ c ∈ after, isSpace c = true) (argStr : Bytes) :
    trimmed (before ++ argStr ++ after) = trimmed argStr := by
  have hafter : ∀ l : Bytes, (l ++ after).rdropWhile isSpace = l.rdropWhile isSpace := by
    intro l
    unfold List.rdropWhile
    rw [List.reverse_append, List.dropWhile_append_of_pos]
    intro c hc
    exact ha c (List.mem_reverse.mp hc)
  unfold trimmed
  rw [List.append_assoc, List.dropWhile_append_of_pos hb, List.dropWhile_append]
  split
  · -- nothing but blanks is left
    next hnil =>
    rw [List.isEmpty_iff.mp hnil, List.dropWhile_eq_nil_iff.mpr ha]
  · exact hafter _

theorem exists_trimmed (argStr : Bytes) :
    ∃ before after : Bytes, (∀ c ∈ before, isSpace c = true) ∧ (∀ c ∈ after, isSpace c = true) ∧
      argStr = before ++ trimmed argStr ++ after := by
  refine ⟨argStr.takeWhile isSpace, (argStr.dropWhile isSpace).rtakeWhile isSpace,
    fun c => List.mem_takeWhile_imp, fun c => List.mem_rtakeWhile_imp, ?_⟩
  unfold trimmed
  rw [List.append_assoc, List.rdropWhile_append_rtakeWhile, List.takeWhile_append_dropWhile]

theorem dropWhile_eq_self_iff (l : Bytes) :
    l.dropWhile isSpace = l ↔ l.head?.any isSpace = false := by
  cases l with
  | nil => simp
  | cons c l => simp [List.dropWhile_eq_self_iff]

theorem rdropWhile_eq_self_iff (l : Bytes) :
    l.rdropWhile isSpace = l ↔ l.getLast?.any isSpace = false := by
  unfold List.rdropWhile
  rw [← List.head?_reverse, ← dropWhile_eq_self_iff, List.reverse_eq_iff]

theorem trimmed_eq_self_iff (argStr : Bytes) : trimmed argStr = argStr ↔ Trim argStr := by
  unfold trimmed Trim
  rw [← dropWhile_eq_self_iff, ← rdropWhile_eq_self_iff]
  apply Iff.intro
  · intro h
    -- a loop that erases something leaves a shorter string, and the other one does not repair that
    have hfront : argStr.dropWhile isSpace = argStr := by
      apply (List.dropWhile_suffix isSpace).eq_of_length_le
      have hback := (List.rdropWhile_prefix isSpace (l := argStr.dropWhile isSpace)).length_le
      rwa [h] at hback
    rw [hfront] at h
    exact ⟨hfront, h⟩
  · intro h
    rw [h.1, h.2]

/-! ### Counting what is no backslash -/

def plain (argStr : Bytes) : Nat := argStr.countP (· != 92)

theorem plain_append (l l' : Bytes) : plain (l ++ l') = plain l + plain l' :=
  List.countP_append

theorem plain_blanks {l : Bytes} (h : ∀ c ∈ l, isSpace c = true) : plain l = l.length := by
  apply List.countP_eq_length.mpr
  intro c hc
  exact bne_iff_ne.mpr (isSpace_ne (h c hc))

theorem plain_unescaped (argStr : Bytes) : plain (unescaped argStr) = plain argStr := by
  unfold plain
  induction argStr using unescaped.induct with
  | case1 => rfl
  | case2 c => rfl
  | case3 c d argStr h ih =>
    obtain ⟨rfl, rfl⟩ := h
    rw [unescaped, if_pos ⟨rfl, rfl⟩, ih]
    exact (List.countP_cons_of_neg (by decide)).symm
  | case4 c d argStr h ih => rw [unescaped, if_neg h, List.countP_cons, List.countP_cons, ih]

theorem plain_escape (path : Bytes) : plain (escape path) = plain path := by
  unfold plain
  induction path with
  | nil => rfl
  | cons c path ih =>
    rw [escape]
    split
    · rw [List.countP_cons_of_neg (by decide), List.countP_cons, List.countP_cons, ih]
    · rw [List.countP_cons, List.countP_cons, ih]

theorem trimmed_of_plain {argStr : Bytes} (h : plain argStr ≤ plain (trimmed argStr)) :
    trimmed argStr = argStr := by
  obtain ⟨before, after, hb, ha, heq⟩ := exists_trimmed argStr
  have hplain := congrArg plain heq
  rw [plain_append, plain_append, plain_blanks hb, plain_blanks ha] at hplain
  have hbefore : before = [] := List.length_eq_zero_iff.mp (by omega)
  have hafter : after = [] := List.length_eq_zero_iff.mp (by omega)
  rw [hbefore, hafter, List.nil_append, List.append_nil] at heq
  exact heq.symm

/-! ### Quotes -/

theorem Quoted.exists_body {argStr : Bytes} (h : Quoted argStr) :
    ∃ q body, q ≠ 92 ∧ argStr = q :: body ++ [q] := by
  obtain ⟨hlen, hends⟩ := h
  have hbody : ∀ q, argStr.head? = some q → argStr.getLast? = some q →
      ∃ body, argStr = q :: body ++ [q] := by
    intro q hhead hlast
    cases argStr with
    | nil => cases hhead
    | cons c rest =>
      cases hhead
      cases rest using List.reverseRecOn with
      | nil => simp at hlen
      | append_singleton body d =>
        rw [← List.cons_append, List.getLast?_concat] at hlast
        cases hlast
        exact ⟨body, rfl⟩
  obtain ⟨hhead, hlast⟩ | ⟨hhead, hlast⟩ := hends
  · exact ⟨39, (hbody 39 hhead hlast).choose, by decide, (hbody 39 hhead hlast).choose_spec⟩
  · exact ⟨34, (hbody 34 hhead hlast).choose, by decide, (hbody 34 hhead hlast).choose_spec⟩

theorem unquoted_quoted {q : UInt8} (hq : q = 39 ∨ q = 34) (body : Bytes) :
    unquoted (q :: body ++ [q]) = body := by
  have h : Quoted (q :: body ++ [q]) := by
    refine ⟨by simp, ?_⟩
    rw [List.getLast?_concat]
    obtain rfl | rfl := hq
    · exact .inl ⟨rfl, rfl⟩
    · exact .inr ⟨rfl, rfl⟩
  rw [unquoted, if_pos h]
  simp

theorem plain_unquoted_le (argStr : Bytes) : plain (unquoted argStr) ≤ plain argStr := by
  unfold unquoted
  split
  · exact ((List.take_sublist _ _).trans (List.drop_sublist _ _)).countP_le
  · exact Nat.le_refl _

theorem not_quoted_of_plain {argStr : Bytes} (h : plain argStr ≤ plain (unquoted argStr)) :
    ¬ Quoted argStr := by
  intro hquoted
  obtain ⟨q, body, hq, rfl⟩ := hquoted.exists_body
  have hbody : unquoted (q :: body ++ [q]) = body := by
    rw [unquoted, if_pos hquoted]
    simp
  rw [hbody, plain_append] at h
  have hone : plain [q] = 1 := List.countP_eq_length.mpr (by simpa using hq)
  have hcons : plain (q :: body) = plain body + 1 :=
    List.countP_cons_of_pos (bne_iff_ne.mpr hq)
  omega

/-! ### Backslashes -/

theorem length_unescaped_le (argStr : Bytes) : (unescaped argStr).length ≤ argStr.length := by
  induction argStr using unescaped.induct with
  | case1 => exact Nat.le_refl _
  | case2 c => exact Nat.le_refl _
  | case3 c d argStr h ih =>
    rw [unescaped, if_pos h]
    exact Nat.le_succ_of_le ih
  | case4 c d argStr h ih =>
    rw [unescaped, if_neg h]
    exact Nat.succ_le_succ ih

theorem unescaped_eq_self_iff (argStr : Bytes) :
    unescaped argStr = argStr ↔ ¬ [92, 32] <:+: argStr := by
  induction argStr using unescaped.induct with
  | case1 => simp [unescaped]
  | case2 c => simp [unescaped, List.infix_cons_iff]
  | case3 c d argStr h ih =>
    rw [unescaped, if_pos h]
    apply iff_of_false
    · intro heq
      have hle := length_unescaped_le (d :: argStr)
      rw [heq] at hle
      exact absurd hle (Nat.not_succ_le_self _)
    · obtain ⟨rfl, rfl⟩ := h
      exact not_not_intro (List.infix_cons_iff.mpr (.inl ⟨argStr, rfl⟩))
  | case4 c d argStr h ih =>
    have hesc : ¬ [92, 32] <+: c :: d :: argStr := by
      rintro ⟨rest, heq⟩
      cases heq
      exact h ⟨rfl, rfl⟩
    rw [unescaped, if_neg h, List.cons_inj_right, ih, List.infix_cons_iff (a := c)]
    simp only [hesc, false_or]

theorem unescaped_cons {c : UInt8} {l : Bytes} (h : l.head? ≠ some 32) :
    unescaped (c :: l) = c :: unescaped l := by
  cases l with
  | nil => rfl
  | cons d l =>
    rw [unescaped, if_neg]
    rintro ⟨-, rfl⟩
    exact h rfl

theorem head?_escape (path : Bytes) :
    (escape path).head? = path.head?.map fun c => if c = 32 then 92 else c := by
  cases path with
  | nil => rfl
  | cons c path =>
    rw [escape]
    split
    · next h => simp [h]
    · next h => simp [h]

theorem head?_escape_ne (path : Bytes) : (escape path).head? ≠ some 32 := by
  rw [head?_escape]
  cases path.head? with
  | none => simp
  | some c =>
    by_cases h : c = 32
    · simp [h]
    · simp [h]

theorem getLast?_escape (path : Bytes) : (escape path).getLast? = path.getLast? := by
  induction path with
  | nil => rfl
  | cons c path ih =>
    have hlast : (c :: escape path).getLast? = (c :: path).getLast? := by
      rw [List.getLast?_cons, List.getLast?_cons, ih]
    rw [escape]
    split
    · rw [List.getLast?_cons_cons, hlast]
    · exact hlast

theorem unescaped_escape (path : Bytes) : unescaped (escape path) = path := by
  induction path with
  | nil => rfl
  | cons c path ih =>
    have hcons : unescaped (c :: escape path) = c :: path := by
      rw [unescaped_cons (head?_escape_ne path), ih]
    rw [escape]
    split
    · next h =>
      subst h
      rw [unescaped, if_pos ⟨rfl, rfl⟩, hcons]
    · exact hcons

theorem trim_escape_iff (path : Bytes) :
    Trim (escape path) ↔ path.head? ≠ some 9 ∧ path.getLast?.any isSpace = false := by
  unfold Trim
  rw [head?_escape, getLast?_escape]
  apply and_congr_left'
  cases path.head? with
  | none => simp
  | some c =>
    by_cases h : c = 32
    · subst h
      decide
    · simp [isSpace, h]

theorem two_le_length_escape {path : Bytes} (h : path.head? ≠ some 32) :
    2 ≤ (escape path).length ↔ 2 ≤ path.length := by
  cases path with
  | nil => rfl
  | cons c path =>
    have hc : c ≠ 32 := fun hc => h (congrArg some hc)
    rw [escape, if_neg hc]
    cases path with
    | nil => rfl
    | cons d path =>
      rw [escape]
      split <;> simp

theorem quoted_escape_iff (path : Bytes) : Quoted (escape path) ↔ Quoted path := by
  have hends : ∀ q : UInt8, q ≠ 32 → q ≠ 92 →
      ((escape path).head? = some q ↔ path.head? = some q) := by
    intro q hspace hslash
    rw [head?_escape]
    cases path.head? with
    | none => simp
    | some c =>
      by_cases h : c = 32
      · simp [h, hspace.symm, hslash.symm]
      · simp [h]
  unfold Quoted
  rw [hends 39 (by decide) (by decide), hends 34 (by decide) (by decide), getLast?_escape]
  apply and_congr_left
  intro h
  apply two_le_length_escape
  obtain ⟨h, -⟩ | ⟨h, -⟩ := h <;> rw [h] <;> decide

/-! ### The dropped path -/

/-- **Every step must leave the argument alone** but for its backslashes: a character that is lost
does not come back. -/
theorem normalised_iff {argStr path : Bytes} (h : plain argStr = plain path) :
    unescaped (unquoted (trimmed argStr)) = path ↔
      Trim argStr ∧ ¬ Quoted argStr ∧ unescaped argStr = path := by
  apply Iff.intro
  · intro heq
    have hplain : plain (unquoted (trimmed argStr)) = plain argStr := by
      rw [h, ← heq, plain_unescaped]
    have htrimmed : trimmed argStr = argStr := by
      apply trimmed_of_plain
      have hle := plain_unquoted_le (trimmed argStr)
      omega
    rw [htrimmed] at heq hplain
    have hquoted := not_quoted_of_plain (Nat.le_of_eq hplain.symm)
    rw [unquoted, if_neg hquoted] at heq
    exact ⟨(trimmed_eq_self_iff argStr).mp htrimmed, hquoted, heq⟩
  · rintro ⟨htrim, hquoted, heq⟩
    rw [(trimmed_eq_self_iff argStr).mpr htrim, unquoted, if_neg hquoted, heq]

theorem trim_quoted {q : UInt8} (hq : q = 39 ∨ q = 34) (path : Bytes) :
    Trim (q :: path ++ [q]) := by
  unfold Trim
  rw [List.getLast?_concat]
  obtain rfl | rfl := hq <;> exact ⟨rfl, rfl⟩

theorem filePath_command {before after : Bytes} (hb : ∀ c ∈ before, isSpace c = true)
    (ha : ∀ c ∈ after, isSpace c = true) (s : Spelling) (path : Bytes) :
    filePath (command before after s path) = path ↔ s.Carries path := by
  have hdrop : (command before after s path).drop 3 = before ++ s.write path ++ after := rfl
  have hquotes : ∀ q : UInt8, q = 39 ∨ q = 34 →
      (unescaped (unquoted (trimmed (q :: path ++ [q]))) = path ↔ ¬ [92, 32] <:+: path) := by
    intro q hq
    rw [(trimmed_eq_self_iff _).mpr (trim_quoted hq path), unquoted_quoted hq,
      unescaped_eq_self_iff]
  unfold filePath
  rw [hdrop, trimmed_append hb ha]
  cases s with
  | typed =>
    show unescaped (unquoted (trimmed path)) = path ↔ _
    rw [normalised_iff rfl, unescaped_eq_self_iff]
    exact Iff.rfl
  | quoted => exact hquotes 39 (.inl rfl)
  | doublyQuoted => exact hquotes 34 (.inr rfl)
  | escaped =>
    show unescaped (unquoted (trimmed (escape path))) = path ↔ _
    rw [normalised_iff (plain_escape path), trim_escape_iff, quoted_escape_iff, unescaped_escape]
    simp only [and_true, and_assoc]
    exact Iff.rfl

/-! ### What is offered -/

theorem mem_trimmed {argStr : Bytes} {b : UInt8} (h : b ∈ trimmed argStr) : b ∈ argStr := by
  unfold trimmed at h
  exact (List.dropWhile_sublist _).subset ((List.rdropWhile_prefix isSpace _).subset h)

theorem mem_unquoted {argStr : Bytes} {b : UInt8} (h : b ∈ unquoted argStr) : b ∈ argStr := by
  unfold unquoted at h
  split at h
  · exact List.mem_of_mem_drop (List.mem_of_mem_take h)
  · exact h

theorem mem_unescaped {argStr : Bytes} {b : UInt8} (h : b ∈ unescaped argStr) : b ∈ argStr := by
  induction argStr using unescaped.induct with
  | case1 => exact h
  | case2 c => exact h
  | case3 c d argStr hesc ih =>
    rw [unescaped, if_pos hesc] at h
    exact List.mem_cons_of_mem _ (ih h)
  | case4 c d argStr hesc ih =>
    rw [unescaped, if_neg hesc] at h
    obtain rfl | h := List.mem_cons.mp h
    · exact List.mem_cons_self
    · exact List.mem_cons_of_mem _ (ih h)

theorem mem_filePath {line : Bytes} {b : UInt8} (h : b ∈ filePath line) : b ∈ line :=
  List.mem_of_mem_drop (mem_trimmed (mem_unquoted (mem_unescaped h)))

theorem log_sendFile (isRegularFile : Bytes → Bool) (serviceName line : Bytes) (d : FileDesk) :
    ∃ more, (sendFile isRegularFile serviceName line d).log = d.log ++ more ∧
      ∀ r key f, OfferEvent.offered r key f ∈ more → f = filePath line := by
  have hnone : ∃ more, d.log = d.log ++ more ∧
      ∀ r key f, OfferEvent.offered r key f ∈ more → f = filePath line := by
    refine ⟨[], (List.append_nil _).symm, ?_⟩
    intro r key f h
    cases h
  unfold sendFile
  split
  · exact hnone
  · next sid _ =>
    split
    · unfold FileDesk.initiateFileTransferWithSession
      cases d.manager.sessions.lookup sid with
      | none =>
        refine ⟨[.threw], rfl, ?_⟩
        intro r key f h
        cases List.mem_singleton.mp h
      | some r =>
        refine ⟨[.offered r d.ftcid (filePath line)], rfl, ?_⟩
        intro r' key f h
        cases List.mem_singleton.mp h
        rfl
    · exact hnone

/-- What is in the line is printable, and so is every path that was offered after `log`. -/
structure Printed (log : List OfferEvent) (x : FileConsole) : Prop where
  inputLine : ∀ b ∈ x.console.inputLine, isprint b = true
  offered : ∃ more, x.desk.log = log ++ more ∧
    ∀ r key f, OfferEvent.offered r key f ∈ more → ∀ b ∈ f, isprint b = true

variable {log : List OfferEvent} {x : FileConsole} {isRegularFile : Bytes → Bool}

theorem Printed.perform {line : Bytes} (h : Printed log x)
    (hline : ∀ b ∈ line, isprint b = true) (serviceName : Bytes) :
    ∃ more, (perform isRegularFile x.desk (.sendChatLine serviceName line)).log = log ++ more ∧
      ∀ r key f, OfferEvent.offered r key f ∈ more → ∀ b ∈ f, isprint b = true := by
  show ∃ more, (if [124, 102, 32] <+: line then sendFile isRegularFile serviceName line x.desk
    else x.desk).log = log ++ more ∧ _
  obtain ⟨more, hlog, hmore⟩ := h.offered
  split
  · obtain ⟨last, hlast, hpath⟩ := log_sendFile isRegularFile serviceName line x.desk
    refine ⟨more ++ last, by rw [hlast, hlog, List.append_assoc], ?_⟩
    intro r key f hmem b hb
    obtain hmem | hmem := List.mem_append.mp hmem
    · exact hmore r key f hmem b hb
    · rw [hpath r key f hmem] at hb
      exact hline b (mem_filePath hb)
  · exact ⟨more, hlog, hmore⟩

theorem Printed.step (h : Printed log x) (t : Task) : Printed log (step isRegularFile x t) := by
  unfold FileCommand.step Console.effects
  cases Console.edits x.console t with
  | other e hlog hsilent hline =>
    rw [hlog, List.drop_left]
    refine ⟨?_, ?_⟩
    · obtain hkept | hdropped := hline
      · rw [hkept]
        exact h.inputLine
      · simp [hdropped]
    · cases e with
      | none => exact h.offered
      | some e =>
        cases e with
        | sendChatLine name line => exact absurd rfl (hsilent name line)
        | offer _ => exact h.offered
        | respondToFileOffer _ _ _ => exact h.offered
        | sendMessage _ => exact h.offered
  | echo key hkey hlog hline =>
    rw [hlog, List.drop_length]
    refine ⟨?_, h.offered⟩
    rw [hline]
    intro b hb
    obtain hb | hb := List.mem_append.mp hb
    · exact h.inputLine b hb
    · rw [List.mem_singleton.mp hb]
      exact hkey
  | erase hlog hline =>
    rw [hlog, List.drop_length]
    refine ⟨?_, h.offered⟩
    rw [hline]
    exact fun b hb => h.inputLine b (List.dropLast_subset _ hb)
  | submit hlog hne hline =>
    rw [hlog, List.drop_left]
    exact ⟨by simp [hline], h.perform h.inputLine _⟩

/-! ### Typing the line -/

variable {c : Console}

/-- A character comes in.  A tab is dropped. -/
theorem step_key (hrun : c.isRunning = true) (hchat : c.app.uiState = .chat) {key : UInt8}
    (hkey : isprint key = true ∨ key = 9) (names : List Bytes) (d : FileDesk) :
    step isRegularFile ⟨c, d⟩ (.key key names) =
      ⟨{ c with inputLine := c.inputLine ++ [key].filter isprint }, d⟩ := by
  have hstep : c.step (.key key names) =
      { c with inputLine := c.inputLine ++ [key].filter isprint } := by
    rw [Console.step, if_pos hrun]
    show c.onKey key names = _
    unfold Console.onKey
    rw [hchat]
    show c.handleChatKey key = _
    obtain hkey | rfl := hkey
    · have hne : ¬ (key = 10 ∨ key = 13) ∧ ¬ (key = 127 ∨ key = 8) := by
        refine ⟨?_, ?_⟩
        · rintro (rfl | rfl) <;> cases hkey
        · rintro (rfl | rfl) <;> cases hkey
      rw [Console.handleChatKey, if_neg hne.1, if_neg hne.2, if_pos hkey,
        List.filter_cons_of_pos hkey, List.filter_nil]
    · show c = { c with inputLine := c.inputLine ++ [] }
      rw [List.append_nil]
  unfold FileCommand.step Console.effects
  rw [hstep, List.drop_length]
  rfl

theorem run_keys (hrun : c.isRunning = true) (hchat : c.app.uiState = .chat) {line : Bytes}
    (hline : ∀ b ∈ line, isprint b = true ∨ b = 9) (names : List Bytes) (d : FileDesk) :
    Runs.run (step isRegularFile) ⟨c, d⟩ (line.map (.key · names)) =
      ⟨{ c with inputLine := c.inputLine ++ line.filter isprint }, d⟩ := by
  induction line generalizing c with
  | nil =>
    show FileConsole.mk c d = ⟨{ c with inputLine := c.inputLine ++ [] }, d⟩
    rw [List.append_nil]
  | cons key line ih =>
    rw [List.forall_mem_cons] at hline
    rw [List.map_cons, Runs.run_cons, step_key hrun hchat hline.1]
    refine (ih (c := { c with inputLine := c.inputLine ++ [key].filter isprint }) hrun hchat
      hline.2).trans ?_
    simp only [List.append_assoc, ← List.filter_append, List.singleton_append]

theorem step_return (hrun : c.isRunning = true) (hchat : c.app.uiState = .chat)
    (hline : [124, 102, 32] <+: c.inputLine) (names : List Bytes) (d : FileDesk) :
    (step isRegularFile ⟨c, d⟩ (.key 10 names)).desk =
      sendFile isRegularFile c.activeChatService c.inputLine d := by
  obtain ⟨argStr, heq⟩ := hline
  have hlog : (c.step (.key 10 names)).log =
      c.log ++ [.sendChatLine c.activeChatService c.inputLine] := by
    rw [Console.step, if_pos hrun]
    show (c.onKey 10 names).log = _
    unfold Console.onKey
    rw [hchat, ← heq]
    show (c.handleChatKey 10).log = _
    unfold Console.handleChatKey
    rw [← heq]
    rfl
  unfold FileCommand.step Console.effects
  rw [hlog, List.drop_left]
  exact if_pos ⟨argStr, heq⟩

theorem mem_escape {path : Bytes} {b : UInt8} (h : b ∈ escape path) : b = 92 ∨ b ∈ path := by
  induction path with
  | nil => exact .inr h
  | cons c path ih =>
    rw [escape] at h
    split at h
    · simp only [List.mem_cons] at h ⊢
      rcases h with h | h | h
      · exact .inl h
      · exact .inr (.inl h)
      · exact (ih h).imp_right .inr
    · rcases List.mem_cons.mp h with h | h
      · exact .inr (List.mem_cons.mpr (.inl h))
      · exact (ih h).imp_right (List.mem_cons_of_mem _)

theorem isprint_write {path : Bytes} (h : ∀ b ∈ path, isprint b = true) (s : Spelling) :
    ∀ b ∈ s.write path, isprint b = true := by
  have hquotes : ∀ q, isprint q = true → ∀ b ∈ q :: path ++ [q], isprint b = true := by
    intro q hq b hb
    rcases List.mem_append.mp hb with hb | hb
    · rcases List.mem_cons.mp hb with rfl | hb
      · exact hq
      · exact h b hb
    · rw [List.mem_singleton.mp hb]
      exact hq
  cases s with
  | typed => exact h
  | quoted => exact hquotes 39 (by decide)
  | doublyQuoted => exact hquotes 34 (by decide)
  | escaped =>
    intro b hb
    obtain rfl | hb := mem_escape hb
    · decide
    · exact h b hb

theorem filter_command (before after : Bytes) (s : Spelling) {path : Bytes}
    (h : ∀ b ∈ path, isprint b = true) :
    (command before after s path).filter isprint =
      command (before.filter isprint) (after.filter isprint) s path := by
  unfold command
  rw [List.filter_append, List.filter_append, List.filter_append,
    List.filter_eq_self.mpr (isprint_write h s)]
  rfl

/-- The line of a printable path goes to `SendChatLine` without its tabs. -/
theorem run_command (hrun : c.isRunning = true) (hchat : c.app.uiState = .chat)
    (hempty : c.inputLine = []) {before after : Bytes} (hb : ∀ b ∈ before, isSpace b = true)
    (ha : ∀ b ∈ after, isSpace b = true) (s : Spelling) {path : Bytes}
    (hpath : ∀ b ∈ path, isprint b = true) (names : List Bytes) (d : FileDesk) :
    (Runs.run (step isRegularFile) ⟨c, d⟩ (keys (command before after s path) names)).desk =
      sendFile isRegularFile c.activeChatService
        (command (before.filter isprint) (after.filter isprint) s path) d := by
  have hspace : ∀ b, isSpace b = true → isprint b = true ∨ b = 9 := by
    intro b hb
    simp only [isSpace, Bool.or_eq_true, beq_iff_eq] at hb
    obtain rfl | rfl := hb
    · exact .inl rfl
    · exact .inr rfl
  have hline : ∀ b ∈ command before after s path, isprint b = true ∨ b = 9 := by
    intro b hmem
    rcases List.mem_append.mp hmem with hmem | hmem
    · simp only [List.mem_cons, List.not_mem_nil, or_false] at hmem
      rcases hmem with rfl | rfl | rfl <;> exact .inl rfl
    · rcases List.mem_append.mp hmem with hmem | hmem
      · rcases List.mem_append.mp hmem with hmem | hmem
        · exact hspace b (hb b hmem)
        · exact .inl (isprint_write hpath s b hmem)
      · exact hspace b (ha b hmem)
  rw [keys, List.map_append, Runs.run_append, run_keys hrun hchat hline, hempty, List.nil_append,
    filter_command before after s hpath]
  exact step_return (c := { c with
    inputLine := command (before.filter isprint) (after.filter isprint) s path }) hrun hchat
      (List.prefix_append _ _) names d

/-! ### The dropped file -/

/-- The path is offered, in every file system, exactly if it is what `SendChatLine` makes of the
line. -/
theorem sendFile_offers_iff {d : FileDesk} {serviceName : Bytes} {sid : UInt16} {r : SessionRef}
    (hsid : d.manager.getSessionIDFromServiceName serviceName = some sid)
    (hr : d.manager.sessions.lookup sid = some r) (line path : Bytes) :
    (∀ isRegularFile : Bytes → Bool, isRegularFile path = true →
      (sendFile isRegularFile serviceName line d).log = d.log ++ [.offered r d.ftcid path]) ↔
      filePath line = path := by
  have hlog : ∀ f, (d.initiateFileTransferWithSession sid f).log =
      d.log ++ [.offered r d.ftcid f] := by
    intro f
    unfold FileDesk.initiateFileTransferWithSession
    rw [hr]
    rfl
  unfold sendFile
  rw [hsid]
  apply Iff.intro
  · intro h
    -- the file system that holds this one file
    have hone := h (fun f => decide (f = path)) (decide_eq_true rfl)
    by_contra hne
    simp [hne] at hone
  · intro heq isRegularFile hpath
    rw [heq]
    simp only [hpath, if_true]
    exact hlog path

/-- **The dropped file is the offered file** in every file system exactly if its path is printable
and the spelling carries it. -/
theorem dropped_path_offered_iff {c : Console} (hrun : c.isRunning = true)
    (hchat : c.app.uiState = .chat) (hempty : c.inputLine = []) {d : FileDesk} {sid : UInt16}
    {r : SessionRef}
    (hsid : d.manager.getSessionIDFromServiceName c.activeChatService = some sid)
    (hr : d.manager.sessions.lookup sid = some r) {before after : Bytes}
    (hb : ∀ b ∈ before, isSpace b = true) (ha : ∀ b ∈ after, isSpace b = true) (s : Spelling)
    (path : Bytes) (names : List Bytes) :
    (∀ isRegularFile : Bytes → Bool, isRegularFile path = true →
      (Runs.run (step isRegularFile) ⟨c, d⟩ (keys (command before after s path) names)).desk.log =
        d.log ++ [.offered r d.ftcid path]) ↔
      (∀ b ∈ path, isprint b = true) ∧ s.Carries path := by
  by_cases hpath : ∀ b ∈ path, isprint b = true
  · have hb' : ∀ b ∈ before.filter isprint, isSpace b = true :=
      fun b hmem => hb b (List.mem_of_mem_filter hmem)
    have ha' : ∀ b ∈ after.filter isprint, isSpace b = true :=
      fun b hmem => ha b (List.mem_of_mem_filter hmem)
    simp only [run_command hrun hchat hempty hb ha s hpath names d]
    rw [sendFile_offers_iff hsid hr, filePath_command hb' ha' s path]
    exact (and_iff_right hpath).symm
  · apply iff_of_false
    · intro h
      -- a line that is submitted on the way has only printable bytes
      have hprinted : Printed d.log (Runs.run (step fun _ => true) ⟨c, d⟩
          (keys (command before after s path) names)) := by
        refine Runs.run_invariant_of_forall (I := Printed d.log) (fun x t hx => hx.step t) ?_ _
        refine ⟨?_, [], (List.append_nil _).symm, ?_⟩
        · intro b hmem
          rw [hempty] at hmem
          cases hmem
        · intro r key f hmem
          cases hmem
      obtain ⟨more, hlog, hmore⟩ := hprinted.offered
      rw [h (fun _ => true) rfl] at hlog
      obtain rfl := List.append_cancel_left hlog
      exact hpath (hmore r d.ftcid path List.mem_cons_self)
    · exact fun h => hpath h.1

/-- `a\ b ` comes from a terminal that escapes spaces and leaves one behind: the file `a b` is
offered to `b`, whose chat is open. -/
theorem dropped_path_offered_a_b :
    let c := Runs.run Console.step (.start [47] fun _ => none) [.key 49 [[98]]]
    let d := FileDesk.start (((BVTCPConnectionManager.construct [97]).accept.acceptHandler
      0).handleSessionIdentification [98] 0)
    command [] [32] .escaped [97, 32, 98] = [124, 102, 32, 97, 92, 32, 98, 32] ∧
      ∀ isRegularFile : Bytes → Bool, isRegularFile [97, 32, 98] = true →
        (Runs.run (step isRegularFile) ⟨c, d⟩
          (keys (command [] [32] .escaped [97, 32, 98]) [[98]])).desk.log =
            d.log ++ [.offered 0 d.ftcid [97, 32, 98]] := by
  intro c d
  have hsid : d.manager.getSessionIDFromServiceName c.activeChatService = some 0 := by decide
  have hr : d.manager.sessions.lookup 0 = some 0 := by decide
  have hb : ∀ b ∈ ([] : Bytes), isSpace b = true := by
    intro b hb
    cases hb
  have ha : ∀ b ∈ [32], isSpace b = true := by
    intro b hb
    rw [List.mem_singleton.mp hb]
    rfl
  have hpath : ∀ b ∈ [97, 32, 98], isprint b = true := by
    intro b hb
    simp only [List.mem_cons, List.not_mem_nil, or_false] at hb
    rcases hb with rfl | rfl | rfl <;> rfl
  refine ⟨by decide, ?_⟩
  apply (dropped_path_offered_iff rfl rfl rfl hsid hr hb ha .escaped [97, 32, 98] [[98]]).mpr
  exact ⟨hpath, by decide, by decide, by decide⟩

end FileCommand

end LocalChat
