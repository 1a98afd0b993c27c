import LocalChat.Client.Basic

/-!
# Browse records

The callbacks of both backends, `C_ServiceBrowseReply` and `browse_callback`, hand a service over to
the C++ side as one string of 64 bytes: three fields of fixed width, filled up with spaces.
`ReturnListFromBrowseResults` cuts the fields out again and removes every space and every NUL.

`browsed_eq`: a string shorter than its field loses its spaces on the way, and of a longer one
nothing is left.
-/

namespace LocalChat

open Octets

namespace Discovery

/-! ### The codec -/

/-- The strings the daemon reports a service with; those of C have no NUL inside. -/
structure DaemonService where
  serviceName : Bytes
  regtype : Bytes
  replyDomain : Bytes
  name_noNul : 0 ∉ serviceName
  type_noNul : 0 ∉ regtype
  domain_noNul : 0 ∉ replyDomain
  deriving DecidableEq

abbrev servnameMax : Nat := 24

abbrev regtypeMax : Nat := 24

abbrev repldomnMax : Nat := 16

abbrev serviceStrTotal : Nat := servnameMax + regtypeMax + repldomnMax

abbrev maxDataSize : Nat := 256

abbrev space : UInt8 := 32

/-- A string is copied only if it is shorter than its field. -/
def copyField (off width : Nat) (s buff : Bytes) : Bytes :=
  if s.length < width then overwrite off s buff else buff

/-- The buffer of the callbacks. -/
def record (s : DaemonService) : Bytes :=
  let buff := List.replicate serviceStrTotal space
  let buff := copyField 0 servnameMax s.serviceName buff
  let buff := copyField servnameMax regtypeMax s.regtype buff
  let buff := copyField (servnameMax + regtypeMax) repldomnMax s.replyDomain buff
  overwrite (serviceStrTotal - 1) [0] buff

/-- `LinkedListElement_str_Constructor`: `strncpy` into the element. -/
def elementOf (buff : Bytes) : Bytes := padTo maxDataSize (cstr buff)

/-- The two calls of `std::remove` on a field. -/
def readField (off width : Nat) (data : Bytes) : Bytes :=
  (((data.drop off).take width).filter (· ≠ space)).filter (· ≠ 0)

/-- One turn of the loop of `ReturnListFromBrowseResults`. -/
def readElement (data : Bytes) : BVServiceBrowseInstance where
  regType := readField servnameMax regtypeMax data
  replyDomain := readField (servnameMax + regtypeMax) repldomnMax data
  serviceName := readField 0 servnameMax data

structure LinkedListStr where
  elements : List Bytes
  didRegister : Bool

namespace LinkedListStr

/-- `LinkedList_str_ClearList`; also what the constructor makes. -/
def clear : LinkedListStr := ⟨[], false⟩

def addElement (data : Bytes) (l : LinkedListStr) : LinkedListStr :=
  { l with elements := l.elements ++ [data] }

end LinkedListStr

def returnListFromBrowseResults (l : LinkedListStr) : List BVServiceBrowseInstance :=
  l.elements.map readElement

/-- What a service of the daemon has become when it reaches the app. -/
def browsed (s : DaemonService) : BVServiceBrowseInstance := readElement (elementOf (record s))

/-! ### The name -/

def unspaced (s : Bytes) : Bytes := s.filter (· ≠ space)

/-- A field: the string, if it is shorter, and spaces. -/
def field (width : Nat) (s : Bytes) : Bytes :=
  if s.length < width then s ++ List.replicate (width - s.length) space
  else List.replicate width space

@[simp] theorem length_field (width : Nat) (s : Bytes) : (field width s).length = width := by
  rw [field]
  split
  · simp only [List.length_append, List.length_replicate]
    omega
  · rw [List.length_replicate]

theorem copyField_spaces {off : Nat} (width : Nat) {a : Bytes} (h : a.length = off) (s : Bytes)
    (n : Nat) :
    copyField off width s (a ++ List.replicate (width + n) space) =
      a ++ field width s ++ List.replicate n space := by
  rw [copyField, field]
  split
  case isTrue hlt =>
    have hn : width + n - s.length = width - s.length + n := by omega
    rw [overwrite, List.take_append_of_le_length (by omega), List.take_of_length_le (by omega),
      List.drop_append, List.drop_eq_nil_of_le (by omega), List.nil_append, h,
      Nat.add_sub_cancel_left, List.drop_replicate, hn, List.replicate_add]
    simp only [List.append_assoc]
  case isFalse => rw [List.replicate_add, List.append_assoc]

/-- The three fields, one after the other; the last byte is the terminator. -/
theorem record_eq (s : DaemonService) :
    record s = field servnameMax s.serviceName ++ field regtypeMax s.regtype ++
      (field repldomnMax s.replyDomain).take (repldomnMax - 1) ++ [0] := by
  have hname : copyField 0 servnameMax s.serviceName (List.replicate serviceStrTotal space) =
      field servnameMax s.serviceName ++ List.replicate (regtypeMax + repldomnMax) space :=
    copyField_spaces servnameMax List.length_nil s.serviceName (regtypeMax + repldomnMax)
  have htype := copyField_spaces regtypeMax (length_field servnameMax s.serviceName)
    s.regtype repldomnMax
  have hlen : (field servnameMax s.serviceName ++ field regtypeMax s.regtype).length =
      servnameMax + regtypeMax := by simp
  have hdomain := copyField_spaces repldomnMax hlen s.replyDomain 0
  rw [List.replicate_zero, List.append_nil] at hdomain
  have hrecord : record s = overwrite (serviceStrTotal - 1) [0]
      (field servnameMax s.serviceName ++ field regtypeMax s.regtype ++
        field repldomnMax s.replyDomain) := by
    simp only [record]
    rw [hname, htype, ← hdomain]
  have hlast : serviceStrTotal - 1 - (servnameMax + regtypeMax) = repldomnMax - 1 := by decide
  rw [hrecord, overwrite_append_right (by rw [hlen]; decide), hlen, hlast, overwrite,
    List.drop_eq_nil_of_le (by simp), List.append_nil]
  simp only [List.append_assoc]

/-! ### What is read back -/

/-- A string that is shorter than its field, without its spaces. -/
def carried (width : Nat) (s : Bytes) : Bytes := if s.length < width then unspaced s else []

theorem zero_notMem_field {s : Bytes} (h : 0 ∉ s) (width : Nat) : 0 ∉ field width s := by
  have hspaces : ∀ n, (0 : UInt8) ∉ List.replicate n space := fun n hmem =>
    absurd (List.eq_of_mem_replicate hmem) (by decide)
  rw [field]
  split
  · exact fun hmem => (List.mem_append.mp hmem).elim h (hspaces _)
  · exact hspaces width

theorem unspaced_field (width : Nat) (s : Bytes) : unspaced (field width s) = carried width s := by
  rw [field, carried]
  split <;> simp [unspaced]

/-- The last byte of a field is a space, so the terminator does not overwrite anything. -/
theorem unspaced_take_field {width : Nat} (hpos : 0 < width) (s : Bytes) :
    unspaced ((field width s).take (width - 1)) = carried width s := by
  rw [field, carried]
  split
  case isTrue hlt =>
    rw [List.take_append, List.take_of_length_le (by omega), List.take_replicate]
    simp [unspaced]
  case isFalse =>
    rw [List.take_replicate]
    simp [unspaced]

theorem filter_zero {s : Bytes} (h : 0 ∉ s) : s.filter (· ≠ 0) = s := by
  refine List.filter_eq_self.mpr fun b hb => ?_
  exact decide_eq_true fun he => h (he ▸ hb)

theorem elementOf_record (s : DaemonService) :
    elementOf (record s) = field servnameMax s.serviceName ++ (field regtypeMax s.regtype ++
      ((field repldomnMax s.replyDomain).take (repldomnMax - 1) ++
        List.replicate (maxDataSize - (serviceStrTotal - 1)) 0)) := by
  have hnul : (0 : UInt8) ∉ field servnameMax s.serviceName ++ field regtypeMax s.regtype ++
      (field repldomnMax s.replyDomain).take (repldomnMax - 1) := by
    simp only [List.mem_append, not_or]
    exact ⟨⟨zero_notMem_field s.name_noNul _, zero_notMem_field s.type_noNul _⟩,
      fun hmem => zero_notMem_field s.domain_noNul _ (List.mem_of_mem_take hmem)⟩
  have hlen : (field servnameMax s.serviceName ++ field regtypeMax s.regtype ++
      (field repldomnMax s.replyDomain).take (repldomnMax - 1)).length = serviceStrTotal - 1 := by
    rw [List.length_append, List.length_append, List.length_take, length_field, length_field,
      length_field]
    decide
  rw [elementOf, record_eq, cstr_append_zero hnul, padTo_of_length_le (by rw [hlen]; decide), hlen]
  simp only [List.append_assoc]

theorem readField_append {off width n : Nat} {a l r : Bytes} (ha : a.length = off)
    (hl : l.length + n = width) (hnul : 0 ∉ l) (hr : r.take n = List.replicate n 0) :
    readField off width (a ++ (l ++ r)) = unspaced l := by
  have hn : width - l.length = n := by omega
  rw [readField, List.drop_append, List.drop_eq_nil_of_le (by omega), ha, Nat.sub_self,
    List.drop_zero, List.nil_append, List.take_append, List.take_of_length_le (by omega), hn, hr,
    List.filter_append, List.filter_append]
  rw [filter_zero fun hmem => hnul (List.mem_of_mem_filter hmem)]
  simp [unspaced]

/-- **What is left of a service.**  Each string comes back without its spaces, if it is shorter than
its field, and empty otherwise. -/
theorem browsed_eq (s : DaemonService) : browsed s =
    { serviceName := carried servnameMax s.serviceName
      regType := carried regtypeMax s.regtype
      replyDomain := carried repldomnMax s.replyDomain } := by
  have hname : readField 0 servnameMax (elementOf (record s)) =
      carried servnameMax s.serviceName := by
    rw [elementOf_record, ← List.nil_append (field servnameMax s.serviceName ++ _),
      readField_append (n := 0) List.length_nil (length_field _ _)
        (zero_notMem_field s.name_noNul _) rfl,
      unspaced_field]
  have htype : readField servnameMax regtypeMax (elementOf (record s)) =
      carried regtypeMax s.regtype := by
    rw [elementOf_record, readField_append (n := 0) (length_field _ _) (length_field _ _)
      (zero_notMem_field s.type_noNul _) rfl, unspaced_field]
  have hdomain : readField (servnameMax + regtypeMax) repldomnMax (elementOf (record s)) =
      carried repldomnMax s.replyDomain := by
    have hlen : ((field repldomnMax s.replyDomain).take (repldomnMax - 1)).length + 1 =
        repldomnMax := by
      rw [List.length_take, length_field]
      decide
    have hnul : (0 : UInt8) ∉ (field repldomnMax s.replyDomain).take (repldomnMax - 1) :=
      fun hmem => zero_notMem_field s.domain_noNul _ (List.mem_of_mem_take hmem)
    rw [elementOf_record, ← List.append_assoc, readField_append (n := 1) (by simp) hlen hnul rfl,
      unspaced_take_field (by decide)]
  rw [browsed, readElement, hname, htype, hdomain]

/-- A string comes back exactly if it is shorter than its field and has no space. -/
theorem carried_eq_iff {width : Nat} (hpos : 0 < width) (s : Bytes) :
    carried width s = s ↔ s.length < width ∧ space ∉ s := by
  rw [carried]
  split
  case isTrue hlt =>
    rw [unspaced, List.filter_eq_self]
    constructor
    · exact fun hall => ⟨hlt, fun hmem => absurd rfl (of_decide_eq_true (hall space hmem))⟩
    · exact fun hs b hb => decide_eq_true fun he => hs.2 (he ▸ hb)
  case isFalse hge =>
    -- nothing is left of a string that is too long, and the string itself is not empty
    refine ⟨fun hnil => absurd ?_ hge, fun hs => absurd hs.1 hge⟩
    rw [← hnil]
    exact hpos

def Survives (name : Bytes) : Prop := name.length < servnameMax ∧ space ∉ name

instance : DecidablePred Survives := fun name =>
  inferInstanceAs (Decidable (name.length < servnameMax ∧ space ∉ name))

theorem survives_carried (name : Bytes) : Survives (carried servnameMax name) := by
  rw [carried]
  split
  case isTrue hlt =>
    refine ⟨(List.length_filter_le _ name).trans_lt hlt, fun hmem => ?_⟩
    exact absurd rfl (of_decide_eq_true (List.mem_filter.mp hmem).2)
  case isFalse => exact ⟨by decide, List.not_mem_nil⟩

theorem browsed_of_survives {s : DaemonService} (h : Survives s.serviceName) :
    (browsed s).serviceName = s.serviceName := by
  rw [browsed_eq]
  exact (carried_eq_iff (by decide) s.serviceName).mpr h

end Discovery

end LocalChat
