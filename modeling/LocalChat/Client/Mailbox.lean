import LocalChat.Client.Basic
import LocalChat.Session.Spec
import LocalChat.Session.Send
import Mathlib.Data.Fintype.Fin

/-!
# The mailbox thread

`ListenToMail` throws on every status other than OK, and with that the mailbox thread ends.  So each
error return of a handler is a way for the outside to stop the client.

`listenToMail_eq_iff`: these are the only ways.  The thread handles every event up to a
TERMINATE_ALL exactly when each of them is harmless when its turn comes.
-/

namespace LocalChat

open Octets

def MailEvent.isTerminateAll : MailEvent → Bool
  | .terminateAll => true
  | _ => false

namespace Client

def beforeTerminate (es : List MailEvent) : List MailEvent :=
  es.takeWhile fun e => !e.isTerminateAll

/-- The file can be opened, its transfer is known, and the current directory is there.  A node can
be resolved, and it is not called `ERROR`. -/
def Harmless (c : Client) : MailEvent → Prop
  | .serviceResolved serviceName attempts => (∃ i, attempts i = true) ∧ serviceName ≠ errorName
  | .fromSession (.fileTransferBegin _) lost flt =>
    lost = false ∧ flt.createDirectories = false ∧ flt.openFile = false
  | .fromSession (.fileTransferChunkSent d) lost flt =>
    c.app.fileTransferData d.correlationKey ≠ none ∧ lost = false ∧ flt.openFile = false ∧
      flt.write = false
  | .fromSession (.fileTransferEnd d) lost flt =>
    c.app.fileTransferData d.correlationKey ≠ none ∧ lost = false ∧ flt.openFile = false ∧
      flt.resizeFile = false
  | _ => True

/-! ### One event -/

theorem resolveServiceToEndpoint_ne_iff (serviceName : Bytes) (attempts : Fin 5 → Bool) :
    resolveServiceToEndpoint serviceName attempts ≠ errorName ↔
      (∃ i, attempts i = true) ∧ serviceName ≠ errorName := by
  rw [resolveServiceToEndpoint]
  by_cases h : ∃ i, attempts i = true
  · rw [if_pos h, and_iff_right h]
  · rw [if_neg h]
    simp [h]

theorem handleResolvedServices_status_iff (serviceName : Bytes) (attempts : Fin 5 → Bool)
    (c : Client) :
    (c.handleResolvedServices serviceName attempts).1 = .ok ↔
      (∃ i, attempts i = true) ∧ serviceName ≠ errorName := by
  rw [← resolveServiceToEndpoint_ne_iff, handleResolvedServices]
  split
  · next herr => simp [herr]
  · next herr =>
    split <;> simp [herr]

/-- A handler that asks for the path returns OK only if it gets one. -/
theorem fromSession_status_iff (c : Client) (e : AppEvent) (lost : Bool) (flt : Faults) :
    (c.handle (.fromSession e lost flt)).1 = some .ok ↔
      (lost && asksForPath c.app e) = false ∧ (c.app.handle flt e).1 = .ok := by
  rw [handle]
  cases hp : lost && asksForPath c.app e <;> simp

/-- A file handler asks for the path if it knows the transfer, and returns OK only then. -/
theorem known_and_lost_iff {α : Type*} {o : Option α} {lost : Bool} {p : Prop} :
    (lost && o.isSome) = false ∧ o ≠ none ∧ p ↔ o ≠ none ∧ lost = false ∧ p := by
  cases o <;> simp

/-- **Statuses.**  A handler returns OK exactly when its event is harmless. -/
theorem handle_status_iff (c : Client) (e : MailEvent) :
    (c.handle e).1 = some .ok ↔ c.Harmless e := by
  cases e with
  | publishedService services => simp [handle, handlePublishedServices, Harmless]
  | deregisteredService services => simp [handle, handleServiceDeregistration, Harmless]
  | terminateAll => simp [handle, Harmless]
  | serviceResolved serviceName attempts =>
    rw [Harmless, ← handleResolvedServices_status_iff serviceName attempts c]
    simp [handle]
  | fromSession e lost flt =>
    cases e with
    | messageIncoming text timestamp sender =>
      rw [fromSession_status_iff]
      simp [asksForPath, App.handle, Harmless]
    | fileOffer d =>
      rw [fromSession_status_iff]
      simp [asksForPath, App.handle, App.handleFileOffer, Harmless]
    | fileTransferBegin d =>
      rw [fromSession_status_iff, App.handle, App.handleFileTransferBegin_ok_iff, asksForPath,
        Bool.and_true, Harmless]
    | fileTransferChunkSent d =>
      rw [fromSession_status_iff, App.handle, App.handleFileChunkSent_ok_iff, asksForPath,
        known_and_lost_iff, Harmless]
    | fileTransferEnd d =>
      rw [fromSession_status_iff, App.handle, App.handleFileTransferEnd_ok_iff, asksForPath,
        known_and_lost_iff, Harmless]

/-! ### The loop -/

def afterAll (es : List MailEvent) : MailboxThread :=
  if es.any MailEvent.isTerminateAll then .returned else .waiting

theorem listenToMail_of_status {e : MailEvent} {c : Client} (h : (c.handle e).1 = some .ok)
    (he : e.isTerminateAll = false) (es : List MailEvent) :
    c.listenToMail (e :: es) = (c.step e).listenToMail es := by
  have hpair : c.handle e = (some .ok, c.step e) := Prod.ext h rfl
  rw [listenToMail, hpair]
  cases e with
  | terminateAll => cases he
  | publishedService _ => rfl
  | serviceResolved _ _ => rfl
  | deregisteredService _ => rfl
  | fromSession _ _ _ => rfl

theorem listenToMail_of_not_status {e : MailEvent} {c : Client} (h : (c.handle e).1 ≠ some .ok)
    (es : List MailEvent) : c.listenToMail (e :: es) = (.threw, c.step e) := by
  rw [listenToMail]
  split
  · next heq => exact absurd (congrArg Prod.fst heq) h
  · next heq => rw [step, heq]

/-- **The mailbox thread.**  It handles every event up to the first TERMINATE_ALL, and then waits or
returns, exactly when every one of these events is harmless when its turn comes; else it ends with
an exception. -/
theorem listenToMail_eq_iff (c : Client) (es : List MailEvent) :
    c.listenToMail es = (afterAll es, Runs.run step c (beforeTerminate es)) ↔
      Runs.Meets step Harmless c (beforeTerminate es) := by
  induction es generalizing c with
  | nil => exact ⟨fun _ => trivial, fun _ => rfl⟩
  | cons e es ih =>
    cases he : e.isTerminateAll with
    | true =>
      cases e with
      | terminateAll =>
        refine ⟨fun _ => ?_, fun _ => rfl⟩
        rw [beforeTerminate, List.takeWhile_cons_of_neg (by simp [he])]
        trivial
      | publishedService _ => cases he
      | serviceResolved _ _ => cases he
      | deregisteredService _ => cases he
      | fromSession _ _ _ => cases he
    | false =>
      have hbefore : beforeTerminate (e :: es) = e :: beforeTerminate es :=
        List.takeWhile_cons_of_pos (by simp [he])
      have hafter : afterAll (e :: es) = afterAll es := by simp [afterAll, he]
      rw [hbefore, hafter, Runs.run_cons, Runs.Meets, ← handle_status_iff]
      by_cases hstatus : (c.handle e).1 = some .ok
      · rw [listenToMail_of_status hstatus he, ih, and_iff_right hstatus]
      · rw [listenToMail_of_not_status hstatus]
        refine ⟨fun heq => ?_, fun hmeets => absurd hmeets.1 hstatus⟩
        have hthrew := congrArg Prod.fst heq
        rw [afterAll] at hthrew
        split at hthrew
        · cases hthrew
        · cases hthrew

/-- The frames of a peer that begins a transfer with the key 1 and chunks of one byte, and then
sends a chunk with the key 2. -/
def strayChunk : Bytes :=
  writeFileChunkSync ⟨constructFileHeader 0 BVTCPMessageType.fileTransferBegin 1
      ((1 : UInt64) <<< 32 ||| 2), [98, bar, 120]⟩ controlPayloadBytes ++
    writeFileChunkSync ⟨constructFileHeader 0 BVTCPMessageType.fileTransferChunkSent 2 0, [65]⟩ 1

/-- A peer stops the mailbox thread of `a` with two frames, and a service that cannot be resolved
stops it too. -/
theorem stray_chunk_ends_thread :
    let s := Session.feed [.blank, .blank] (.idle [97] [98] strayChunk)
    let mail := (mailboxOf s.log).map fun e => MailEvent.fromSession e false .none
    (s.socket = [] ∧ mail.length = 2 ∧ mail.any MailEvent.isTerminateAll = false) ∧
      ((start [97] [47] fun _ => none).listenToMail mail).1 = .threw ∧
      ((start [97] [47] fun _ => none).listenToMail
        [.serviceResolved [98] fun _ => false]).1 = .threw := by
  decide +kernel

end Client

end LocalChat
