import LocalChat.Discovery.Resolution

/-!
# A resolve request next to browsing

The Bonjour backend keeps the reference it browses with in `dnsRef`, and makes another one for each
service it resolves.  `ResolveService` creates it and waits for its descriptor; the handler of the
wait processes the answer and releases it.  The handler runs later, when other handlers may have
changed the object.

Where the descriptor cannot be assigned, `ResolveService` releases `dnsRef`, as `Browse` does, and
where the answer cannot be processed, the handler stops the browsing, as the one of the browse wait
does; neither releases the reference of the request.

`undisturbed_iff`: browsing goes on as before, and the reference is released as it should be,
exactly if neither of these happens and the wait is not aborted.
-/

namespace LocalChat

namespace Discovery

/-- The address of a `DNSServiceRef`; a null reference is `none`. -/
abbrev DNSServiceRef : Type := Nat

structure BVDiscoveryBonjour where
  dnsRef : Option DNSServiceRef
  isBrowsingActive : Bool
  status : BVStatus
  /-- the references that have been released -/
  released : List DNSServiceRef

structure BonjourResolveContext where
  callbackCtx : ResolveCallbackContext
  sdRef : Option DNSServiceRef

/-- The error code a wait ends with. -/
inductive WaitResult
  | ready
  /-- `operation_aborted` -/
  | aborted
  | failed
  deriving DecidableEq

namespace BVDiscoveryBonjour

def deallocate (ref : Option DNSServiceRef) (d : BVDiscoveryBonjour) : BVDiscoveryBonjour :=
  { d with released := d.released ++ ref.toList }

/-- `CreateResolveContext`; `resolve` is what `DNSServiceResolve` brings. -/
def createResolveContext (bI : BVServiceBrowseInstance) (behind : Behind)
    (ctx : ResolveCallbackContext) (resolve : Except Int DNSServiceRef) (d : BVDiscoveryBonjour) :
    Option BonjourResolveContext × BVDiscoveryBonjour :=
  match resolve with
  | .error _ => (none, { d with status := .fatalError })
  | .ok ref => (some ⟨callbackContext bI behind ctx, some ref⟩, d)

/-- `ResolveService`; with a context the wait has been started. -/
def resolveService (bI : BVServiceBrowseInstance) (behind : Behind) (ctx : ResolveCallbackContext)
    (resolve : Except Int DNSServiceRef) (fd assignError : Int) (d : BVDiscoveryBonjour) :
    BVStatus × Option BonjourResolveContext × BVDiscoveryBonjour :=
  match d.createResolveContext bI behind ctx resolve with
  | (none, d) => (.fatalError, none, d)
  | (some ctx, d) =>
    if fd < 0 then (.fatalError, none, d.deallocate ctx.sdRef)
    else if assignError ≠ 0 then (.fatalError, none, { d.deallocate d.dnsRef with dnsRef := none })
    else (.ok, some ctx, d)

/-- The handler of the wait; `error` is what `DNSServiceProcessResult` returns, if it is called. -/
def onResolveReady (ctx : BonjourResolveContext) (wait : WaitResult) (error : Int)
    (d : BVDiscoveryBonjour) : BVDiscoveryBonjour :=
  if wait = .aborted then d
  else if error ≠ 0 then { d with isBrowsingActive := false }
  else d.deallocate ctx.sdRef

def releasedTo (d d' : BVDiscoveryBonjour) : List DNSServiceRef :=
  d'.released.drop d.released.length

/-- Browsing is the same in `d'`, and its reference is still valid. -/
structure KeepsBrowsing (d d' : BVDiscoveryBonjour) : Prop where
  dnsRef : d'.dnsRef = d.dnsRef
  active : d'.isBrowsingActive = d.isBrowsingActive
  valid : ∀ ref, d.dnsRef = some ref → ref ∉ d.releasedTo d'

@[simp] theorem releasedTo_self (d : BVDiscoveryBonjour) : d.releasedTo d = [] :=
  List.drop_length

@[simp] theorem releasedTo_deallocate (ref : Option DNSServiceRef) (d : BVDiscoveryBonjour) :
    d.releasedTo (d.deallocate ref) = ref.toList :=
  List.drop_left

theorem keepsBrowsing_self (d : BVDiscoveryBonjour) : d.KeepsBrowsing d where
  dnsRef := rfl
  active := rfl
  valid := by simp

theorem keepsBrowsing_deallocate {d : BVDiscoveryBonjour} {ref : DNSServiceRef}
    (h : d.dnsRef ≠ some ref) : d.KeepsBrowsing (d.deallocate (some ref)) where
  dnsRef := rfl
  active := rfl
  valid := by
    intro ref' hdns hmem
    rw [releasedTo_deallocate] at hmem
    obtain rfl : ref' = ref := by simpa using hmem
    exact h hdns

end BVDiscoveryBonjour

/-- A request, with what the calls of the daemon and of the descriptor bring. -/
structure ResolveRequest where
  bI : BVServiceBrowseInstance
  behind : Behind
  ctx : ResolveCallbackContext
  /-- the object when `ResolveService` is called -/
  d : BVDiscoveryBonjour
  /-- the object when the handler runs -/
  later : BVDiscoveryBonjour
  resolve : Except Int DNSServiceRef
  fd : Int
  assignError : Int
  /-- what the handler meets, if it has run -/
  waited : Option (WaitResult × Int)
  /-- `DNSServiceResolve` makes a new reference -/
  fresh : ∀ ref, resolve = .ok ref → d.dnsRef ≠ some ref ∧ later.dnsRef ≠ some ref

namespace ResolveRequest

open BVDiscoveryBonjour

variable (q : ResolveRequest)

def called : BVStatus × Option BonjourResolveContext × BVDiscoveryBonjour :=
  q.d.resolveService q.bI q.behind q.ctx q.resolve q.fd q.assignError

def handled : BVDiscoveryBonjour :=
  match q.called.2.1, q.waited with
  | some ctx, some (wait, error) => q.later.onResolveReady ctx wait error
  | _, _ => q.later

/-- How often a reference is released in the course of the request. -/
def releases (ref : DNSServiceRef) : Nat :=
  (q.d.releasedTo q.called.2.2).count ref + (q.later.releasedTo q.handled).count ref

def Fails : Prop := q.called.2.1 = none ∨ ∃ o ∈ q.waited, o.1 ≠ .ready ∨ o.2 ≠ 0

structure Undisturbed : Prop where
  request : q.d.KeepsBrowsing q.called.2.2
  handler : q.later.KeepsBrowsing q.handled
  once : ∀ ref, q.resolve = .ok ref → q.releases ref ≤ 1
  failed : ∀ ref, q.resolve = .ok ref → q.Fails → q.releases ref = 1

/-- If the wait is started, it is not aborted, and its answer can be processed. -/
def Harmless : Prop :=
  ∀ ref, q.resolve = .ok ref → 0 ≤ q.fd →
    q.assignError = 0 ∧ ∀ o ∈ q.waited, o.1 ≠ .aborted ∧ o.2 = 0

/-! ### The ways through a request -/

variable {q} {ref : DNSServiceRef}

theorem called_of_error {e : Int} (h : q.resolve = .error e) :
    q.called = (.fatalError, none, { q.d with status := .fatalError }) := by
  rw [called, resolveService, h]
  rfl

theorem called_of_no_fd (h : q.resolve = .ok ref) (hfd : q.fd < 0) :
    q.called = (.fatalError, none, q.d.deallocate (some ref)) := by
  rw [called, resolveService, h]
  exact if_pos hfd

theorem called_of_unassigned (h : q.resolve = .ok ref) (hfd : 0 ≤ q.fd) (ha : q.assignError ≠ 0) :
    q.called = (.fatalError, none, { q.d.deallocate q.d.dnsRef with dnsRef := none }) := by
  rw [called, resolveService, h]
  exact (if_neg (by omega)).trans (if_pos ha)

theorem called_of_assigned (h : q.resolve = .ok ref) (hfd : 0 ≤ q.fd) (ha : q.assignError = 0) :
    q.called = (.ok, some ⟨callbackContext q.bI q.behind q.ctx, some ref⟩, q.d) := by
  rw [called, resolveService, h]
  exact (if_neg (by omega)).trans (if_neg (not_not_intro ha))

theorem handled_of_none (h : q.called.2.1 = none) : q.handled = q.later := by
  rw [handled, h]

theorem handled_of_not_run (h : q.waited = none) : q.handled = q.later := by
  rw [handled, h]
  cases q.called.2.1 <;> rfl

theorem handled_of_run {ctx : BonjourResolveContext} {o : WaitResult × Int}
    (h : q.called.2.1 = some ctx) (ho : q.waited = some o) :
    q.handled = q.later.onResolveReady ctx o.1 o.2 := by
  rw [handled, h, ho]

/-! ### Where browsing is disturbed -/

/-- Where the descriptor is not assigned, the reference of the request is not released. -/
theorem releases_of_unassigned (h : q.resolve = .ok ref) (hfd : 0 ≤ q.fd) (ha : q.assignError ≠ 0) :
    q.releases ref = 0 := by
  have hcalled := called_of_unassigned h hfd ha
  have hnotMem : ref ∉ q.d.dnsRef.toList := by
    rw [Option.mem_toList]
    exact (q.fresh ref h).1
  have hreleased : q.d.releasedTo q.called.2.2 = q.d.dnsRef.toList := by
    rw [hcalled]
    exact releasedTo_deallocate q.d.dnsRef q.d
  rw [releases, hreleased, handled_of_none (by rw [hcalled]), releasedTo_self,
    List.count_eq_zero_of_not_mem hnotMem, List.count_nil]

theorem releases_of_kept (h : q.resolve = .ok ref) (hfd : 0 ≤ q.fd) (ha : q.assignError = 0)
    (hkept : q.later.releasedTo q.handled = []) : q.releases ref = 0 := by
  rw [releases, hkept, called_of_assigned h hfd ha, releasedTo_self, List.count_nil]

theorem Undisturbed.harmless (h : q.Undisturbed) : q.Harmless := by
  intro ref hr hfd
  have ha : q.assignError = 0 := by
    by_contra ha
    have hfails : q.Fails := Or.inl (by rw [called_of_unassigned hr hfd ha])
    have hone := h.failed ref hr hfails
    rw [releases_of_unassigned hr hfd ha] at hone
    exact absurd hone (by decide)
  refine ⟨ha, fun o ho => ?_⟩
  have hrun := handled_of_run (by rw [called_of_assigned hr hfd ha]) ho
  have hkeeps : o.1 ≠ .ready ∨ o.2 ≠ 0 → q.later.releasedTo q.handled ≠ [] := by
    intro hfail hkept
    have hone := h.failed ref hr (Or.inr ⟨o, ho, hfail⟩)
    rw [releases_of_kept hr hfd ha hkept] at hone
    exact absurd hone (by decide)
  have hwait : o.1 ≠ .aborted := by
    intro hw
    apply hkeeps (Or.inl (by rw [hw]; decide))
    rw [hrun, onResolveReady, if_pos hw, releasedTo_self]
  refine ⟨hwait, ?_⟩
  by_contra herror
  apply hkeeps (Or.inr herror)
  rw [hrun, onResolveReady, if_neg hwait, if_pos herror]
  exact releasedTo_self q.later

/-! ### Where it is not -/

theorem undisturbed_of_error {e : Int} (h : q.resolve = .error e) : q.Undisturbed := by
  have hcalled := called_of_error h
  have hnone : ∀ ref, q.resolve ≠ .ok ref := by
    intro ref hok
    rw [h] at hok
    cases hok
  refine ⟨?_, ?_, fun ref hr => absurd hr (hnone ref), fun ref hr => absurd hr (hnone ref)⟩
  · rw [hcalled]
    exact ⟨rfl, rfl, (keepsBrowsing_self q.d).valid⟩
  · rw [handled_of_none (by rw [hcalled])]
    exact keepsBrowsing_self q.later

theorem undisturbed_of_releases (h : q.resolve = .ok ref)
    (hrequest : q.d.KeepsBrowsing q.called.2.2) (hhandler : q.later.KeepsBrowsing q.handled)
    (honce : q.releases ref ≤ 1) (hfailed : q.Fails → q.releases ref = 1) : q.Undisturbed := by
  have hsame : ∀ ref', q.resolve = .ok ref' → ref' = ref := by
    intro ref' h'
    rw [h] at h'
    injection h' with heq
    exact heq.symm
  refine ⟨hrequest, hhandler, fun ref' h' => ?_, fun ref' h' hf => ?_⟩
  · rw [hsame ref' h']
    exact honce
  · rw [hsame ref' h']
    exact hfailed hf

theorem undisturbed_of_no_fd (h : q.resolve = .ok ref) (hfd : q.fd < 0) : q.Undisturbed := by
  have hcalled := called_of_no_fd h hfd
  have hhandled : q.handled = q.later := handled_of_none (by rw [hcalled])
  have hone : q.releases ref = 1 := by
    rw [releases, hhandled, hcalled, releasedTo_self, releasedTo_deallocate]
    simp
  apply undisturbed_of_releases h
  · rw [hcalled]
    exact keepsBrowsing_deallocate (q.fresh ref h).1
  · rw [hhandled]
    exact keepsBrowsing_self q.later
  · exact hone.le
  · exact fun _ => hone

/-- A wait that goes on has released nothing, and nothing has failed. -/
theorem undisturbed_of_not_run (h : q.resolve = .ok ref) (hfd : 0 ≤ q.fd) (ha : q.assignError = 0)
    (hw : q.waited = none) : q.Undisturbed := by
  have hcalled := called_of_assigned h hfd ha
  have hhandled := handled_of_not_run hw
  have hzero : q.releases ref = 0 :=
    releases_of_kept h hfd ha (by rw [hhandled, releasedTo_self])
  apply undisturbed_of_releases h
  · rw [hcalled]
    exact keepsBrowsing_self q.d
  · rw [hhandled]
    exact keepsBrowsing_self q.later
  · rw [hzero]
    decide
  · rintro (hnone | ⟨o, ho, _⟩)
    · rw [hcalled] at hnone
      cases hnone
    · rw [hw] at ho
      cases ho

theorem undisturbed_of_run (h : q.resolve = .ok ref) (hfd : 0 ≤ q.fd) (ha : q.assignError = 0)
    {o : WaitResult × Int} (ho : q.waited = some o) (hwait : o.1 ≠ .aborted) (herror : o.2 = 0) :
    q.Undisturbed := by
  have hcalled := called_of_assigned h hfd ha
  have hhandled : q.handled = q.later.deallocate (some ref) := by
    rw [handled_of_run (by rw [hcalled]) ho, onResolveReady, if_neg hwait,
      if_neg (not_not_intro herror)]
  have hone : q.releases ref = 1 := by
    rw [releases, hhandled, hcalled, releasedTo_self, releasedTo_deallocate]
    simp
  apply undisturbed_of_releases h
  · rw [hcalled]
    exact keepsBrowsing_self q.d
  · rw [hhandled]
    exact keepsBrowsing_deallocate (q.fresh ref h).2
  · exact hone.le
  · exact fun _ => hone

variable (q)

/-- A resolve request leaves browsing alone and releases its own reference exactly if the
descriptor, where there is one, can be assigned, and the wait is not aborted and brings an answer
that can be processed. -/
theorem undisturbed_iff : q.Undisturbed ↔ q.Harmless := by
  constructor
  · exact Undisturbed.harmless
  · intro h
    cases hr : q.resolve with
    | error e => exact undisturbed_of_error hr
    | ok ref =>
      rcases Int.lt_or_le q.fd 0 with hneg | hfd
      · exact undisturbed_of_no_fd hr hneg
      · obtain ⟨ha, hall⟩ := h ref hr hfd
        cases hw : q.waited with
        | none => exact undisturbed_of_not_run hr hfd ha hw
        | some o =>
          obtain ⟨hwait, herror⟩ := hall o hw
          exact undisturbed_of_run hr hfd ha hw hwait herror

/-- The descriptor of the request cannot be assigned: `dnsRef` is released and given up, and the
reference of the request is not released.  The answer cannot be processed: browsing stops, and the
reference is not released either. -/
theorem unassigned_descriptor_ends_browsing :
    let bI : BVServiceBrowseInstance := ⟨[97], [116], [46]⟩
    let behind : Behind := ⟨fun _ => 0, fun _ => 0, fun _ => 0⟩
    let d : BVDiscoveryBonjour := ⟨some 1, true, .ok, []⟩
    let q (assignError error : Int) : ResolveRequest :=
      { bI, behind, ctx := .zeros _ [], d, later := d, resolve := .ok 2, fd := 5, assignError,
        waited := some (.ready, error), fresh := by intro ref h; cases h; decide }
    (q 17 0).called.2.2.dnsRef = none ∧ (q 17 0).called.2.2.released = [1] ∧
      (q 17 0).releases 2 = 0 ∧ (q 0 (-65563)).handled.isBrowsingActive = false ∧
      (q 0 (-65563)).releases 2 = 0 ∧ ¬ ∀ q : ResolveRequest, q.Undisturbed := by
  intro bI behind d q
  refine ⟨rfl, rfl, rfl, rfl, rfl, fun hall => ?_⟩
  have h := (hall (q 17 0)).request.dnsRef
  exact absurd h (by decide)

end ResolveRequest

end Discovery

end LocalChat
