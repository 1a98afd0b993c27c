import LocalChat.App.Console

/-!
# Typed lines

What the user types reaches the rest of the program one line at a time.  The keys of a line go
through `inputLine`, which `HandleChatKey` fills and empties.

* `edits`: all that a task can do to the line and to the log.
* `exists_effect`: so a task has at most one effect.
* `Typed.step`: so the console only ever submits lines that are not empty and have only printable
  characters, whatever keys and closures come in between.
-/

namespace LocalChat

namespace Console

variable {c c' : Console}

/-! ### What a task does -/

/-- What a task does to the line and to the log. -/
inductive Edits (c c' : Console) : Prop
  /-- an effect that submits no line, or none; the line is kept or dropped -/
  | other (e : Option ConsoleEffect) (log : c'.log = c.log ++ e.toList)
      (silent : ∀ name line, e ≠ some (.sendChatLine name line))
      (inputLine : c'.inputLine = c.inputLine ∨ c'.inputLine = [])
  | echo (key : UInt8) (printable : isprint key = true) (log : c'.log = c.log)
      (inputLine : c'.inputLine = c.inputLine ++ [key])
  | erase (log : c'.log = c.log) (inputLine : c'.inputLine = c.inputLine.dropLast)
  | submit (log : c'.log = c.log ++ [.sendChatLine c.activeChatService c.inputLine])
      (nonempty : c.inputLine ≠ []) (inputLine : c'.inputLine = [])

theorem Edits.quiet (hlog : c'.log = c.log)
    (hline : c'.inputLine = c.inputLine ∨ c'.inputLine = []) : Edits c c' :=
  .other none (by rw [hlog]; exact (List.append_nil _).symm) (by simp) hline

theorem edits_handleMainMenuKey (key : UInt8) (sessionNames : List Bytes) (c : Console) :
    Edits c (c.handleMainMenuKey key sessionNames) := by
  unfold handleMainMenuKey
  split
  · exact .quiet rfl (.inl rfl)
  · next action _ =>
    cases action.type with
    | reprint => exact .quiet rfl (.inl rfl)
    | blockhost => exact .quiet rfl (.inl rfl)
    | pauseDiscovery =>
      exact .other (some (.sendMessage .discoveryRequestPause)) rfl (by simp) (.inl rfl)
    | resumeDiscovery =>
      exact .other (some (.sendMessage .discoveryRequestResume)) rfl (by simp) (.inl rfl)
    | quit => exact .other (some (.sendMessage .terminateAll)) rfl (by simp) (.inl rfl)
    | sendmsg =>
      cases action.num with
      | none => exact .quiet rfl (.inl rfl)
      | some selection =>
        show Edits c (c.enterChat selection sessionNames)
        unfold enterChat
        split
        · exact .quiet rfl (.inl rfl)
        · split
          · exact .quiet rfl (.inl rfl)
          · exact .quiet rfl (.inr rfl)

theorem edits_handleChatKey (key : UInt8) (c : Console) : Edits c (c.handleChatKey key) := by
  unfold handleChatKey
  split
  · dsimp only
    split
    · exact .quiet rfl (.inr rfl)
    · split
      · exact .quiet rfl (.inr rfl)
      · next hline => exact .submit rfl (fun h => hline (.inl h)) rfl
  · split
    · exact .erase rfl rfl
    · split
      · next hkey => exact .echo key hkey rfl rfl
      · exact .quiet rfl (.inl rfl)

theorem edits_handleFileOfferKey (key : UInt8) (c : Console) :
    Edits c (c.handleFileOfferKey key) := by
  unfold handleFileOfferKey
  split
  · exact .quiet rfl (.inl rfl)
  · exact .other (some _) rfl (by simp) (.inl rfl)

theorem edits_showOffer (res : BVTCPFileData) (c : Console) : Edits c (c.showOffer res) := by
  refine .other ((c.app.handleFileOffer res).2.pendingOffer.map .offer) ?_ (by simp) (.inl rfl)
  rw [Option.toList_map]
  rfl

theorem edits (c : Console) (t : Task) : Edits c (c.step t) := by
  unfold step
  split
  · cases t with
    | fileOffer res => exact edits_showOffer res c
    | messageIncoming sender textData =>
      apply Edits.quiet
      · show (c.showMessage sender textData).log = c.log
        unfold showMessage
        split <;> rfl
      · left
        show (c.showMessage sender textData).inputLine = c.inputLine
        unfold showMessage
        split <;> rfl
    | key key sessionNames =>
      show Edits c (c.onKey key sessionNames)
      unfold onKey
      cases c.app.uiState with
      | fileOffer => exact edits_handleFileOfferKey key c
      | chat => exact edits_handleChatKey key c
      | mainMenu => exact edits_handleMainMenuKey key sessionNames c
  · exact .quiet rfl (.inl rfl)

/-! ### Effects and lines -/

def effects (c : Console) (t : Task) : List ConsoleEffect := (c.step t).log.drop c.log.length

theorem exists_effect (c : Console) (t : Task) :
    ∃ e : Option ConsoleEffect, c.effects t = e.toList ∧ (c.step t).log = c.log ++ e.toList := by
  have hdrop : ∀ e : Option ConsoleEffect, (c.step t).log = c.log ++ e.toList →
      ∃ e : Option ConsoleEffect, c.effects t = e.toList ∧ (c.step t).log = c.log ++ e.toList :=
    fun e he => ⟨e, by rw [effects, he, List.drop_left], he⟩
  cases edits c t with
  | other e hlog _ _ => exact hdrop e hlog
  | echo _ _ hlog _ => exact hdrop none (hlog.trans (List.append_nil _).symm)
  | erase hlog _ => exact hdrop none (hlog.trans (List.append_nil _).symm)
  | submit hlog _ _ => exact hdrop (some _) hlog

def IsLine (line : Bytes) : Prop := line ≠ [] ∧ ∀ b ∈ line, isprint b = true

structure Typed (c : Console) : Prop where
  inputLine : ∀ b ∈ c.inputLine, isprint b = true
  lines : ∀ name line, .sendChatLine name line ∈ c.log → IsLine line

theorem start_typed (rootdir : Bytes) (files : Files) : (start rootdir files).Typed :=
  ⟨by simp [start], by simp [start]⟩

theorem Typed.step (h : c.Typed) (t : Task) : (c.step t).Typed := by
  cases edits c t with
  | other e hlog hsilent hline =>
    refine ⟨?_, ?_⟩
    · obtain hkept | hdropped := hline
      · rw [hkept]
        exact h.inputLine
      · simp [hdropped]
    · intro name line hmem
      rw [hlog] at hmem
      obtain hmem | hmem := List.mem_append.mp hmem
      · exact h.lines name line hmem
      · exact absurd (Option.mem_toList.mp hmem) (hsilent name line)
  | echo key hkey hlog hline =>
    refine ⟨?_, by rw [hlog]; exact h.lines⟩
    rw [hline]
    intro b hb
    obtain hb | hb := List.mem_append.mp hb
    · exact h.inputLine b hb
    · rw [List.mem_singleton.mp hb]
      exact hkey
  | erase hlog hline =>
    refine ⟨?_, by rw [hlog]; exact h.lines⟩
    rw [hline]
    exact fun b hb => h.inputLine b (List.dropLast_subset _ hb)
  | submit hlog hne hline =>
    refine ⟨by simp [hline], ?_⟩
    intro name line hmem
    rw [hlog] at hmem
    obtain hmem | hmem := List.mem_append.mp hmem
    · exact h.lines name line hmem
    · cases List.mem_singleton.mp hmem
      exact ⟨hne, h.inputLine⟩

theorem Typed.isLine (h : c.Typed) {t : Task} {name line : Bytes}
    (hmem : .sendChatLine name line ∈ c.effects t) : IsLine line :=
  (h.step t).lines name line (List.mem_of_mem_drop hmem)

end Console

end LocalChat
