import LocalChat.App.Basic
import LocalChat.Lib.Runs
import LocalChat.Manager.Basic
import Mathlib.Data.List.Nodup
import Mathlib.Data.List.Perm.Basic

/-!
# File offers in the GUI client

`BVApp_GuiClient` keeps offers in a vector until the GUI takes them with `TakeFileOffers` and asks
the user about each.  The answer goes out through `offerSenders`, which knows the sender of an offer
by its correlation key, and through the connection manager, which knows a session by the name of its
peer.  Both the key and the name are chosen by the peer.

`verdicts_routed`: the answers go where the offers came from as long as, when an offer arrives, no
other offer with its key waits for an answer and the name in it leads to the session it came on.

The session an offer came on is not kept by the program; it stands beside the offer here, and
`decided` lists the answers with it.
-/

namespace LocalChat

open Octets

structure BVFileOffer where
  correlationKey : UInt32
  fileName : Bytes
  sender : Bytes
  size : UInt64
  deriving DecidableEq, Repr

/-- A FILE_ACCEPT or FILE_REJECT frame: its session, its key and which of the two it is. -/
structure Verdict where
  session : SessionRef
  correlationKey : UInt32
  accept : Bool
  deriving DecidableEq, Repr

/-- The closure `RespondToOffer` posts to the io thread. -/
structure Response where
  sender : Bytes
  key : UInt32
  accept : Bool
  deriving DecidableEq, Repr

structure GuiClient where
  pendingOffers : List (SessionRef × BVFileOffer)
  offerSenders : UInt32 → Option Bytes
  /-- the offers `TakeFileOffers` has returned and the user has not answered -/
  taken : List (SessionRef × BVFileOffer)
  posted : List Response
  /-- the frames that were sent -/
  sent : List Verdict
  decided : List Verdict

inductive GuiAction
  /-- the mailbox thread handles an offer that arrived on a session -/
  | handleFileOffer (session : SessionRef) (fd : BVTCPFileData)
  | takeFileOffers
  /-- the user answers one of the offers the GUI has taken -/
  | answer (i : Nat) (accept : Bool)
  /-- the io thread runs the oldest closure -/
  | runPosted

namespace GuiClient

def start : GuiClient where
  pendingOffers := []
  offerSenders := fun _ => none
  taken := []
  posted := []
  sent := []
  decided := []

/-! ### Operations -/

/-- The sender `HandleFileOffer` reads from the payload; here a missing `|` leaves it empty. -/
def senderOf (fd : BVTCPFileData) : Bytes :=
  if bar ∈ cstr fd.fdata then beforeBar (cstr fd.fdata) else []

def handleFileOffer (session : SessionRef) (fd : BVTCPFileData) (g : GuiClient) : GuiClient :=
  let offer : BVFileOffer :=
    ⟨fd.correlationKey, afterBar (cstr fd.fdata), senderOf fd, fd.fsize.toUInt64⟩
  { g with
    pendingOffers := g.pendingOffers ++ [(session, offer)]
    offerSenders := Function.update g.offerSenders fd.correlationKey (some offer.sender) }

def takeFileOffers (g : GuiClient) : GuiClient :=
  { g with taken := g.taken ++ g.pendingOffers, pendingOffers := [] }

def respondToOffer (key : UInt32) (accept : Bool) (g : GuiClient) : GuiClient :=
  let sender := (g.offerSenders key).getD []
  let g := { g with offerSenders := Function.update g.offerSenders key none }
  if sender = [] then g else { g with posted := g.posted ++ [⟨sender, key, accept⟩] }

/-- `AcceptFile` or `RejectFile` for one of the offers the GUI has taken. -/
def answer (i : Nat) (accept : Bool) (g : GuiClient) : GuiClient :=
  match g.taken[i]? with
  | none => g
  | some (session, offer) =>
    let decision : Verdict := ⟨session, offer.correlationKey, accept⟩
    { g with
      taken := g.taken.eraseIdx i
      decided := g.decided ++ [decision] }.respondToOffer offer.correlationKey accept

/-- The closure runs `RespondToFileOffer` of the manager. -/
def respondToFileOffer (m : BVTCPConnectionManager) (r : Response) (g : GuiClient) :
    GuiClient :=
  match m.respondToFileOffer r.sender with
  | none => g
  | some session => { g with sent := g.sent ++ [⟨session, r.key, r.accept⟩] }

def runPosted (m : BVTCPConnectionManager) (g : GuiClient) : GuiClient :=
  match g.posted with
  | [] => g
  | r :: rest => { g with posted := rest }.respondToFileOffer m r

def step (m : BVTCPConnectionManager) (g : GuiClient) : GuiAction → GuiClient
  | .handleFileOffer session fd => g.handleFileOffer session fd
  | .takeFileOffers => g.takeFileOffers
  | .answer i accept => g.answer i accept
  | .runPosted => g.runPosted m

/-! ### The contract and the invariant -/

def undecided (g : GuiClient) : List (SessionRef × BVFileOffer) := g.taken ++ g.pendingOffers

/-- When an offer arrives, no other one with its key waits for an answer, and the name in it leads
to the session it arrived on. -/
def Addressed (m : BVTCPConnectionManager) (g : GuiClient) : GuiAction → Prop
  | .handleFileOffer session fd =>
    (∀ p ∈ g.undecided, p.2.correlationKey ≠ fd.correlationKey) ∧
      senderOf fd ≠ [] ∧ m.respondToFileOffer (senderOf fd) = some session
  | _ => True

instance (m : BVTCPConnectionManager) (g : GuiClient) : DecidablePred (Addressed m g)
  | .handleFileOffer session fd => inferInstanceAs (Decidable
      ((∀ p ∈ g.undecided, p.2.correlationKey ≠ fd.correlationKey) ∧
        senderOf fd ≠ [] ∧ m.respondToFileOffer (senderOf fd) = some session))
  | .takeFileOffers => .isTrue trivial
  | .answer _ _ => .isTrue trivial
  | .runPosted => .isTrue trivial

def Response.Sends (m : BVTCPConnectionManager) (r : Response) (v : Verdict) : Prop :=
  m.respondToFileOffer r.sender = some v.session ∧ r.key = v.correlationKey ∧ r.accept = v.accept

/-- The senders of the waiting offers are on file under their keys, and every answer has been sent
or is on its way. -/
structure Routed (m : BVTCPConnectionManager) (g : GuiClient) : Prop where
  nodup : (g.undecided.map fun p => p.2.correlationKey).Nodup
  filed : ∀ p ∈ g.undecided, g.offerSenders p.2.correlationKey = some p.2.sender ∧
    p.2.sender ≠ [] ∧ m.respondToFileOffer p.2.sender = some p.1
  inOrder : ∃ rest, g.decided = g.sent ++ rest ∧
    List.Forall₂ (Response.Sends m) g.posted rest

variable {m : BVTCPConnectionManager} {g : GuiClient}

theorem routed_start : Routed m (start : GuiClient) where
  nodup := List.nodup_nil
  filed := by
    intro p hp
    cases hp
  inOrder := ⟨[], rfl, .nil⟩

theorem Routed.handleFileOffer (h : Routed m g) {session : SessionRef} {fd : BVTCPFileData}
    (hok : Addressed m g (.handleFileOffer session fd)) :
    Routed m (g.handleFileOffer session fd) := by
  obtain ⟨hnew, hne, hsession⟩ := hok
  have hund : (g.handleFileOffer session fd).undecided = g.undecided ++ [(session,
      ⟨fd.correlationKey, afterBar (cstr fd.fdata), senderOf fd, fd.fsize.toUInt64⟩)] := by
    simp [undecided, GuiClient.handleFileOffer]
  refine ⟨?_, ?_, h.inOrder⟩
  · rw [hund, List.map_append, List.map_singleton, ← List.concat_eq_append]
    refine h.nodup.concat fun hmem => ?_
    obtain ⟨p, hp, hkey⟩ := List.mem_map.mp hmem
    exact hnew p hp hkey
  · intro p hp
    rw [hund, List.mem_append, List.mem_singleton] at hp
    rcases hp with hp | rfl
    · obtain ⟨hfiled, hrest⟩ := h.filed p hp
      refine ⟨?_, hrest⟩
      simpa [GuiClient.handleFileOffer, Function.update_of_ne (hnew p hp)] using hfiled
    · exact ⟨by simp [GuiClient.handleFileOffer], hne, hsession⟩

theorem Routed.takeFileOffers (h : Routed m g) : Routed m g.takeFileOffers := by
  have hund : g.takeFileOffers.undecided = g.undecided := by
    simp [undecided, GuiClient.takeFileOffers]
  exact ⟨hund ▸ h.nodup, hund ▸ h.filed, h.inOrder⟩

/-- An answer to a waiting offer finds the sender and takes it off the file; the other waiting
offers have other keys. -/
theorem Routed.answer (h : Routed m g) (i : Nat) (accept : Bool) :
    Routed m (g.answer i accept) := by
  rw [GuiClient.answer]
  split
  · exact h
  · next session offer hget =>
    obtain ⟨hi, hoffer⟩ := List.getElem?_eq_some_iff.mp hget
    have hperm :
        ((session, offer) :: (g.taken.eraseIdx i ++ g.pendingOffers)).Perm g.undecided := by
      have htaken := List.getElem_cons_eraseIdx_perm hi
      rw [hoffer] at htaken
      exact htaken.append_right g.pendingOffers
    obtain ⟨hfiled, hne, hsession⟩ := h.filed _ (hperm.subset List.mem_cons_self)
    have hnodup := (hperm.map fun p => p.2.correlationKey).nodup_iff.mpr h.nodup
    obtain ⟨hnot, hrest⟩ := List.nodup_cons.mp hnodup
    simp only [respondToOffer, hfiled, Option.getD_some, hne, if_false]
    refine ⟨hrest, fun p hp => ?_, ?_⟩
    · obtain ⟨hpfiled, hprest⟩ := h.filed p (hperm.subset (List.mem_cons_of_mem _ hp))
      have hkey : p.2.correlationKey ≠ offer.correlationKey :=
        fun heq => hnot (List.mem_map.mpr ⟨p, hp, heq⟩)
      exact ⟨by simpa [Function.update_of_ne hkey] using hpfiled, hprest⟩
    · obtain ⟨rest, hdecided, hsends⟩ := h.inOrder
      refine ⟨rest ++ [⟨session, offer.correlationKey, accept⟩], ?_, ?_⟩
      · rw [hdecided, List.append_assoc]
      · exact List.rel_append hsends (.cons ⟨hsession, rfl, rfl⟩ .nil)

theorem Routed.runPosted (h : Routed m g) : Routed m (g.runPosted m) := by
  obtain ⟨rest, hdecided, hsends⟩ := h.inOrder
  rw [GuiClient.runPosted]
  split
  · exact h
  · next r posted hposted =>
    rw [hposted] at hsends
    cases hsends with
    | cons hsend hsends =>
      next v rest =>
      obtain ⟨hsession, hkey, haccept⟩ := hsend
      rw [respondToFileOffer, hsession]
      refine ⟨h.nodup, h.filed, rest, ?_, hsends⟩
      rw [hdecided, hkey, haccept, List.append_assoc, List.singleton_append]

theorem step_routed (h : Routed m g) {a : GuiAction} (hok : Addressed m g a) :
    Routed m (g.step m a) := by
  cases a with
  | handleFileOffer session fd => exact h.handleFileOffer hok
  | takeFileOffers => exact h.takeFileOffers
  | answer i accept => exact h.answer i accept
  | runPosted => exact h.runPosted

/-- **Answers.**  In every run whose offers meet the contract, the FILE_ACCEPT and FILE_REJECT
frames that were sent are the user's answers in their order, each with the key of its offer and on
the session the offer came on; and all of them are sent once the io thread has run what was posted
to it. -/
theorem verdicts_routed (m : BVTCPConnectionManager) (as : List GuiAction)
    (hok : Runs.Meets (step m) (Addressed m) start as) :
    let g := Runs.run (step m) start as
    g.sent <+: g.decided ∧ (g.posted = [] → g.sent = g.decided) := by
  intro g
  have h : Routed m g := Runs.run_invariant (I := Routed m)
    (fun _ _ h hok => step_routed h hok) routed_start hok
  obtain ⟨rest, hdecided, hsends⟩ := h.inOrder
  refine ⟨⟨rest, hdecided.symm⟩, fun hposted => ?_⟩
  rw [hposted] at hsends
  cases hsends
  rw [hdecided, List.append_nil]

def twoPeers : BVTCPConnectionManager :=
  (((BVTCPConnectionManager.construct [122]).accept.acceptHandler 0).handleSessionIdentification
    [97] 0 |>.acceptHandler 1).handleSessionIdentification [98] 1

/-- Both peers offer a file, with the keys 0 and 7, and both answers reach them. -/
theorem verdicts_routed_two : let as : List GuiAction :=
      [.handleFileOffer 0 ⟨0, 0, 1, [97, 124, 120]⟩, .handleFileOffer 1 ⟨7, 0, 1, [98, 124, 121]⟩,
        .takeFileOffers, .answer 1 true, .answer 0 false, .runPosted, .runPosted]
    (Runs.run (step twoPeers) start as).sent = [⟨1, 7, true⟩, ⟨0, 0, false⟩] ∧
      (Runs.run (step twoPeers) start as).sent = (Runs.run (step twoPeers) start as).decided :=
  ⟨by decide, (verdicts_routed twoPeers _ (by decide)).2 (by decide)⟩

/-- Both peers offer a file with the key 0.  The answer to `a` goes to `b`, and the answer to `b` is
not sent. -/
theorem verdicts_misrouted : let as : List GuiAction :=
      [.handleFileOffer 0 ⟨0, 0, 1, [97, 124, 120]⟩, .handleFileOffer 1 ⟨0, 0, 1, [98, 124, 121]⟩,
        .takeFileOffers, .answer 0 true, .answer 0 false, .runPosted, .runPosted]
    let g := Runs.run (step twoPeers) start as
    g.posted = [] ∧ g.decided = [⟨0, 0, true⟩, ⟨1, 0, false⟩] ∧ g.sent = [⟨1, 0, true⟩] ∧
      ¬ g.sent <+: g.decided := by
  decide

end GuiClient

end LocalChat
