import LocalChat.Discovery.Batches

/-!
# Browse records, there and back

A service that a browse callback reports is packed into a record, put into the C list, and taken
out again by `ReturnListFromBrowseResults`.  The packing drops a string that does not fit its field,
and the reading drops every space.

* `decodes_iff`: one service comes back as it was exactly if each of its strings is shorter than
  its field and has no space.
* `browse_round_trip_iff`: a list of services comes back in order, and no two of them as one,
  exactly if each of them comes back.
-/

namespace LocalChat

open Octets

namespace Discovery

/-- `browse_callback` on `AVAHI_BROWSER_NEW` and `AVAHI_BROWSER_REMOVE`, up to the message. -/
def browseCallback (l : LinkedListStr) (s : DaemonService) : LinkedListStr :=
  l.addElement (elementOf (record s))

namespace DaemonService

def toInstance (s : DaemonService) : BVServiceBrowseInstance where
  serviceName := s.serviceName
  regType := s.regtype
  replyDomain := s.replyDomain

theorem toInstance_injective : Function.Injective toInstance := by
  rintro ⟨⟩ ⟨⟩ h
  simp only [toInstance, BVServiceBrowseInstance.mk.injEq] at h
  obtain ⟨rfl, rfl, rfl⟩ := h
  rfl

/-- Every string of the service is shorter than its field and has no space. -/
structure Fits (s : DaemonService) : Prop where
  name : s.serviceName.length < servnameMax ∧ space ∉ s.serviceName
  type : s.regtype.length < regtypeMax ∧ space ∉ s.regtype
  domain : s.replyDomain.length < repldomnMax ∧ space ∉ s.replyDomain

end DaemonService

/-! ### One service -/

theorem decodes_iff (s : DaemonService) : browsed s = s.toInstance ↔ s.Fits := by
  rw [browsed_eq, DaemonService.toInstance, BVServiceBrowseInstance.mk.injEq,
    carried_eq_iff (by decide), carried_eq_iff (by decide), carried_eq_iff (by decide)]
  constructor
  · rintro ⟨hname, htype, hdomain⟩
    exact ⟨hname, htype, hdomain⟩
  · intro h
    exact ⟨h.name, h.type, h.domain⟩

/-- Two services come back as one exactly if they differ at most in spaces and in strings that are
too long for their field. -/
theorem browsed_eq_browsed_iff (s t : DaemonService) : browsed s = browsed t ↔
    carried servnameMax s.serviceName = carried servnameMax t.serviceName ∧
    carried regtypeMax s.regtype = carried regtypeMax t.regtype ∧
    carried repldomnMax s.replyDomain = carried repldomnMax t.replyDomain := by
  rw [browsed_eq, browsed_eq, BVServiceBrowseInstance.mk.injEq]

/-! ### Lists of services -/

theorem foldl_browseCallback (ss : List DaemonService) (l : LinkedListStr) :
    returnListFromBrowseResults (ss.foldl browseCallback l) =
      returnListFromBrowseResults l ++ ss.map browsed := by
  induction ss generalizing l with
  | nil => simp
  | cons s ss ih =>
    rw [List.foldl_cons, ih]
    simp [browseCallback, LinkedListStr.addElement, returnListFromBrowseResults, browsed]

/-- The services come back as they were, in their order, from the callbacks of both backends, and
different ones come back as different ones. -/
structure RoundTrips (ss : List DaemonService) : Prop where
  bonjour : ∀ batch : List BrowseReply, batch.filterMap BrowseReply.service? = ss →
    returnListFromBrowseResults (batch.foldl serviceBrowseReply .clear) =
      ss.map DaemonService.toInstance
  avahi : returnListFromBrowseResults (ss.foldl browseCallback .clear) =
    ss.map DaemonService.toInstance
  distinct : ∀ s ∈ ss, ∀ t ∈ ss, browsed s = browsed t → s = t

/-- **The browse record round trip.**  The services of a list come back as they were exactly if
every string of every one of them is shorter than its field and has no space. -/
theorem browse_round_trip_iff (ss : List DaemonService) :
    RoundTrips ss ↔ ∀ s ∈ ss, s.Fits := by
  have havahi : returnListFromBrowseResults (ss.foldl browseCallback .clear) = ss.map browsed :=
    foldl_browseCallback ss .clear
  constructor
  · intro h s hs
    have hmap := havahi.symm.trans h.avahi
    exact (decodes_iff s).mp (List.map_inj_left.mp hmap s hs)
  · intro h
    have hmap : ss.map browsed = ss.map DaemonService.toInstance :=
      List.map_inj_left.mpr fun s hs => (decodes_iff s).mpr (h s hs)
    refine ⟨?_, havahi.trans hmap, ?_⟩
    · rintro batch rfl
      rw [(foldl_serviceBrowseReply batch .clear).1, ← hmap]
      rfl
    · intro s hs t ht heq
      rw [(decodes_iff s).mpr (h s hs), (decodes_iff t).mpr (h t ht)] at heq
      exact DaemonService.toInstance_injective heq

/-- The services `a b` and `ab` come back as one, and of a name of 24 bytes nothing is left. -/
theorem spaced_name_is_lost :
    let spaced : DaemonService := ⟨[97, 32, 98], [116], [46], by decide, by decide, by decide⟩
    let plain : DaemonService := ⟨[97, 98], [116], [46], by decide, by decide, by decide⟩
    let long : DaemonService :=
      ⟨List.replicate 24 97, [116], [46], by decide, by decide, by decide⟩
    spaced ≠ plain ∧ browsed spaced = browsed plain ∧ (browsed long).serviceName = [] ∧
      ¬ ∀ ss, RoundTrips ss := by
  refine ⟨by decide, by decide, by decide, fun hall => ?_⟩
  have h := (hall [⟨[97, 32, 98], [116], [46], by decide, by decide, by decide⟩]).avahi
  exact absurd h (by decide)

end Discovery

end LocalChat
