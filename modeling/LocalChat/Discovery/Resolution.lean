import LocalChat.Lib.Blocks
import LocalChat.Session.Payload
import LocalChat.Discovery.RoundTrip

/-!
# Resolution results

A resolved service is handed to the app as a `DNSResolutionResult`, a C structure on the heap.
`C_ResolveReply` starts from a zeroed block, cuts every string off at its field and terminates it.
`resolve_callback` starts from what `malloc` returns: it copies 24, 24 and 16 bytes from the name,
the type and the domain, however long they are, and the other strings without their NUL.

* `overBonjour_eq`: over Bonjour the app reads the host, the port and the first 23 bytes of the
  name.
* `hosttarget_fillResult`: over Avahi it reads the host and whatever string the memory holds behind
  it.
* `carries_iff`: both hand over what was reported exactly if that memory starts with a NUL, the
  name is shorter than its field, and the TXT record does not reach the name, or agrees with it.
-/

namespace LocalChat

open Octets

namespace Discovery

/-! ### The result -/

abbrev maxDnsResolutionFieldSize : Nat := 256

/-- The offsets of the fields of `DNSResolutionResult`. -/
abbrev fullnameAt : Nat := 0
abbrev hosttargetAt : Nat := 256
abbrev portAt : Nat := 512
abbrev txtLenAt : Nat := 514
abbrev txtRecordAt : Nat := 516
abbrev serviceNameAt : Nat := 772
abbrev regTypeAt : Nat := 796
abbrev replyDomainAt : Nat := 820

abbrev DNSResolutionResult : Type := Block 836

structure Resolved where
  hosttarget : Bytes
  serviceName : Bytes
  port : Nat
  deriving DecidableEq

def received (res : DNSResolutionResult) : Resolved where
  hosttarget := res.string hosttargetAt
  serviceName := res.string serviceNameAt
  port := (res.uint16 portAt).toNat

structure Report extends DaemonService where
  fullname : Bytes
  hostName : Bytes
  /-- the address, as `avahi_address_snprint` writes it -/
  address : Bytes
  /-- the TXT record, as `avahi_string_list_to_string` writes it -/
  txt : Bytes
  txtRecord : Bytes
  port : UInt16
  fullname_noNul : 0 ∉ fullname
  host_noNul : 0 ∉ hostName
  txt_noNul : 0 ∉ txt
  host_lt : hostName.length < maxDnsResolutionFieldSize
  /-- `AVAHI_ADDRESS_STR_MAX` -/
  address_lt : address.length < 40
  txtRecord_lt : txtRecord.length < 2 ^ 16

/-- The memory behind the strings of a service. -/
structure Behind where
  serviceName : Nat → UInt8
  regtype : Nat → UInt8
  replyDomain : Nat → UInt8

/-- `memcpy` of `n` bytes from a string, which may end before. -/
def copyFrom (off n : Nat) (s : Bytes) (behind : Nat → UInt8) {k : Nat} (b : Block k) : Block k :=
  b.memcpy off (stringAt (s ++ [0]) behind n)

/-! ### Avahi -/

inductive AvahiResolverEvent
  | failure
  | found
  deriving DecidableEq

/-- The block of `resolve_callback`, in the order of its copies. -/
def fillResult (r : Report) (behind : Behind) (res : DNSResolutionResult) : DNSResolutionResult :=
  let res := copyFrom serviceNameAt servnameMax r.serviceName behind.serviceName res
  let res := copyFrom regTypeAt regtypeMax r.regtype behind.regtype res
  let res := copyFrom replyDomainAt repldomnMax r.replyDomain behind.replyDomain res
  let res := res.memcpy hosttargetAt r.hostName
  let res := res.memcpy fullnameAt r.address
  let res := res.memcpy txtRecordAt r.txt
  let res := res.memcpy portAt (toLE 2 r.port.toNat)
  res.memcpy txtLenAt (toLE 2 r.txt.length)

/-- `resolve_callback`; `malloc` is the block it is given. -/
def resolveCallback (event : AvahiResolverEvent) (r : Report) (behind : Behind)
    (malloc : DNSResolutionResult) : Option DNSResolutionResult :=
  match event with
  | .failure => none
  | .found => some (fillResult r behind malloc)

/-! ### Bonjour -/

/-- `ResolveCallbackContext` from `serviceName` on. -/
abbrev ResolveCallbackContext : Type := Block serviceStrTotal

/-- The strings `CreateResolveContext` puts into a context. -/
def callbackContext (bI : BVServiceBrowseInstance) (behind : Behind)
    (ctx : ResolveCallbackContext) : ResolveCallbackContext :=
  let ctx := copyFrom 0 servnameMax bI.serviceName behind.serviceName ctx
  let ctx := copyFrom servnameMax regtypeMax bI.regType behind.regtype ctx
  copyFrom (servnameMax + regtypeMax) repldomnMax bI.replyDomain behind.replyDomain ctx

/-- The bytes of a 16-bit integer in the other order. -/
def ntohs (n : UInt16) : UInt16 := UInt16.ofNat (ofLE (toLE 2 n.toNat).reverse)

def copyOptional (off : Nat) (s : Option Bytes) (res : DNSResolutionResult) : DNSResolutionResult :=
  s.elim res fun s => res.copyBounded off maxDnsResolutionFieldSize s

def copyTxt (txtLen : UInt16) (txtRecord : Option Bytes) (res : DNSResolutionResult) :
    DNSResolutionResult :=
  txtRecord.elim res fun txt =>
    if 0 < txtLen then
      res.memcpy txtRecordAt (txt.take (min txtLen.toNat maxDnsResolutionFieldSize))
    else res

/-- The block of `C_ResolveReply`, in the order of its copies. -/
def fillReply (fullname hosttarget : Option Bytes) (port txtLen : UInt16)
    (txtRecord : Option Bytes) (ctx : ResolveCallbackContext) (res : DNSResolutionResult) :
    DNSResolutionResult :=
  let res := copyOptional fullnameAt fullname res
  let res := copyOptional hosttargetAt hosttarget res
  let res := res.copyBounded serviceNameAt servnameMax (ctx.string 0)
  let res := res.copyBounded regTypeAt regtypeMax (ctx.string servnameMax)
  let res := res.copyBounded replyDomainAt repldomnMax (ctx.string (servnameMax + regtypeMax))
  let res := res.memcpy portAt (toLE 2 (ntohs port).toNat)
  let res := res.memcpy txtLenAt (toLE 2 txtLen.toNat)
  copyTxt txtLen txtRecord res

/-- `C_ResolveReply`; it sets `replyError` if it has no result.  `calloc` is the block it is given,
if it is given one. -/
def cResolveReply (errorCode : Int) (fullname hosttarget : Option Bytes) (port txtLen : UInt16)
    (txtRecord : Option Bytes) (context : Option ResolveCallbackContext)
    (calloc : Option DNSResolutionResult) : Option DNSResolutionResult :=
  if errorCode ≠ 0 then none
  else
    context.bind fun ctx =>
      calloc.map fun res => fillReply fullname hosttarget port txtLen txtRecord ctx res

/-! ### The two paths -/

structure Surroundings where
  malloc : DNSResolutionResult
  /-- behind the strings of Avahi -/
  avahi : Behind
  /-- behind the strings of the browse instance -/
  bonjour : Behind
  /-- behind the context -/
  context : Bytes
  /-- behind the zeroed block -/
  calloc : Bytes

variable (r : Report) (m : Surroundings)

def overAvahi : Option Resolved :=
  (resolveCallback .found r m.avahi m.malloc).map received

/-- What reaches the app through `C_ResolveReply`.  The browse instance has the strings of the
report, and the port comes in network order. -/
def overBonjour : Option Resolved :=
  (cResolveReply 0 (some r.fullname) (some r.hostName) (ntohs r.port)
    (UInt16.ofNat r.txtRecord.length) (some r.txtRecord)
    (some (callbackContext r.toInstance m.bonjour (.zeros _ m.context)))
    (some (.zeros _ m.calloc))).map received

/-! ### Copies of strings -/

theorem byte_copyFrom_inside {k off n i : Nat} {s : Bytes} (h : off ≤ k) (hi : i < n)
    (his : i ≤ s.length) (behind : Nat → UInt8) (b : Block k) :
    (copyFrom off n s behind b).byte (off + i) = at_ s i := by
  have hobj : i < (s ++ [0]).length := by
    rw [List.length_append, List.length_singleton]
    omega
  have hlen : i < (stringAt (s ++ [0]) behind n).length := by rwa [length_stringAt]
  rw [copyFrom, Block.byte_memcpy_inside h hlen, at_stringAt behind hi hobj, at_append_zero]

theorem byte_copyFrom_outside {k off n i : Nat} (h : off ≤ k) (hi : i < off ∨ off + n ≤ i)
    (s : Bytes) (behind : Nat → UInt8) (b : Block k) :
    (copyFrom off n s behind b).byte i = b.byte i :=
  Block.byte_memcpy_outside h (by rwa [length_stringAt]) b

theorem layout : maxDnsResolutionFieldSize = 256 ∧ fullnameAt = 0 ∧ hosttargetAt = 256 ∧
    portAt = 512 ∧ txtLenAt = 514 ∧ txtRecordAt = 516 ∧ serviceNameAt = 772 ∧ regTypeAt = 796 ∧
    replyDomainAt = 820 ∧ servnameMax = 24 ∧ regtypeMax = 24 ∧ repldomnMax = 16 := by
  decide

/-! ### What the Avahi callback leaves -/

section Avahi

variable {r m}

theorem byte_hosttarget {i : Nat} (hi : i < maxDnsResolutionFieldSize) (behind : Behind)
    (res : DNSResolutionResult) :
    (fillResult r behind res).byte (hosttargetAt + i) =
      if i < r.hostName.length then at_ r.hostName i else res.byte (hosttargetAt + i) := by
  have hlayout := layout
  have haddress := r.address_lt
  simp only [fillResult]
  rw [Block.byte_memcpy_outside (by decide) (by rw [length_toLE]; omega),
    Block.byte_memcpy_outside (by decide) (by rw [length_toLE]; omega),
    Block.byte_memcpy_outside (by decide) (by omega),
    Block.byte_memcpy_outside (by decide) (by omega)]
  split
  case isTrue hlt => rw [Block.byte_memcpy_inside (by decide) hlt]
  case isFalse hge =>
    rw [Block.byte_memcpy_outside (by decide) (by omega),
      byte_copyFrom_outside (by decide) (by omega), byte_copyFrom_outside (by decide) (by omega),
      byte_copyFrom_outside (by decide) (by omega)]

/-- A TXT record of more than 256 bytes runs into the name. -/
theorem byte_serviceName {i : Nat} (hi : i < servnameMax) (his : i ≤ r.serviceName.length)
    (behind : Behind) (res : DNSResolutionResult) :
    (fillResult r behind res).byte (serviceNameAt + i) =
      if i < (r.txt.drop maxDnsResolutionFieldSize).length then
        at_ (r.txt.drop maxDnsResolutionFieldSize) i
      else at_ r.serviceName i := by
  have hlayout := layout
  have haddress := r.address_lt
  have hhost := r.host_lt
  have hoff : serviceNameAt + i = txtRecordAt + (maxDnsResolutionFieldSize + i) := by omega
  simp only [fillResult, at_drop, List.length_drop]
  rw [Block.byte_memcpy_outside (by decide) (by rw [length_toLE]; omega),
    Block.byte_memcpy_outside (by decide) (by rw [length_toLE]; omega)]
  split
  case isTrue hlt => rw [hoff, Block.byte_memcpy_inside (by decide) (by omega)]
  case isFalse hge =>
    rw [Block.byte_memcpy_outside (by decide) (by omega),
      Block.byte_memcpy_outside (by decide) (by omega),
      Block.byte_memcpy_outside (by decide) (by omega),
      byte_copyFrom_outside (by decide) (by omega), byte_copyFrom_outside (by decide) (by omega),
      byte_copyFrom_inside (by decide) hi his]

theorem port_fillResult (behind : Behind) (res : DNSResolutionResult) :
    (fillResult r behind res).uint16 portAt = r.port := by
  have hlayout := layout
  simp only [fillResult]
  rw [Block.uint16_congr (Block.byte_memcpy_outside (by decide) (by omega) _)
    (Block.byte_memcpy_outside (by decide) (by omega) _), Block.uint16_memcpy (by decide)]

/-- The host name runs on into what the memory holds behind it. -/
theorem hosttarget_fillResult (behind : Behind) (res : DNSResolutionResult) :
    (fillResult r behind res).string hosttargetAt =
      r.hostName ++ (fillResult r behind res).string (hosttargetAt + r.hostName.length) := by
  have hlayout := layout
  have hhost := r.host_lt
  apply Block.string_append r.host_noNul
  intro i hi
  rw [byte_hosttarget (by omega), if_pos hi]

theorem hosttarget_eq_iff (behind : Behind) (res : DNSResolutionResult) :
    (fillResult r behind res).string hosttargetAt = r.hostName ↔
      res.byte (hosttargetAt + r.hostName.length) = 0 := by
  rw [hosttarget_fillResult, List.append_right_eq_self, Block.string_eq_nil_iff,
    byte_hosttarget r.host_lt, if_neg (Nat.lt_irrefl _)]

theorem serviceName_eq_iff (h : r.serviceName.length < servnameMax) (behind : Behind)
    (res : DNSResolutionResult) :
    (fillResult r behind res).string serviceNameAt = r.serviceName ↔
      r.txt.drop maxDnsResolutionFieldSize <+: r.serviceName := by
  have htxt : 0 ∉ r.txt.drop maxDnsResolutionFieldSize :=
    fun hmem => r.txt_noNul (List.mem_of_mem_drop hmem)
  rw [Block.string_eq_iff r.name_noNul, prefix_iff_at htxt]
  apply forall₂_congr
  intro i hi
  rw [byte_serviceName (hi.trans_lt h) hi]
  split
  case isTrue hlt => simp only [hlt, forall_const]
  case isFalse hge => simp only [hge, false_imp_iff]

theorem overAvahi_eq : overAvahi r m = some (received (fillResult r m.avahi m.malloc)) := rfl

end Avahi

/-! ### What the Bonjour callback leaves -/

section Bonjour

variable {r m}

theorem ntohs_ntohs (n : UInt16) : ntohs (ntohs n) = n := by
  have hn := n.toNat_lt
  have hswap : ∀ v : UInt16, (ntohs v).toNat = v.toNat / 256 + 256 * (v.toNat % 256) := by
    intro v
    have hv := v.toNat_lt
    have hhigh : v.toNat / 256 % 2 ^ 8 = v.toNat / 256 := Nat.mod_eq_of_lt (by omega)
    simp only [ntohs, toLE, List.reverse_cons, List.reverse_nil, List.nil_append, List.cons_append,
      ofLE, UInt16.toNat_ofNat', UInt8.toNat_ofNat', hhigh]
    rw [Nat.mod_eq_of_lt (by omega)]
    omega
  rw [← UInt16.toNat_inj, hswap, hswap]
  omega

/-- The first 23 bytes of the name get through the context. -/
theorem take_callbackContext (behind : Behind) (ctx : ResolveCallbackContext) :
    ((callbackContext r.toInstance behind ctx).string 0).take (servnameMax - 1) =
      r.serviceName.take (servnameMax - 1) := by
  have hlayout := layout
  apply Block.take_string r.name_noNul
  intro i his hi
  rw [callbackContext, byte_copyFrom_outside (by decide) (by omega),
    byte_copyFrom_outside (by decide) (by omega)]
  exact byte_copyFrom_inside (Nat.zero_le _) (by omega) his _ _

variable {fullname : Option Bytes} {port txtLen : UInt16} {txtRecord : Option Bytes}
  {ctx : ResolveCallbackContext} {res : DNSResolutionResult}

theorem byte_copyTxt_outside {i : Nat} (hi : i < txtRecordAt ∨ serviceNameAt ≤ i) :
    (copyTxt txtLen txtRecord res).byte i = res.byte i := by
  have hlayout := layout
  cases txtRecord with
  | none => rfl
  | some txt =>
    rw [copyTxt, Option.elim_some]
    split
    case isTrue => exact Block.byte_memcpy_outside (by decide) (by rw [List.length_take]; omega) res
    case isFalse => rfl

theorem hosttarget_fillReply {s : Bytes} (hs : 0 ∉ s) (hlt : s.length < maxDnsResolutionFieldSize) :
    (fillReply fullname (some s) port txtLen txtRecord ctx res).string hosttargetAt = s := by
  have hlayout := layout
  have hstring : ((copyOptional fullnameAt fullname res).copyBounded hosttargetAt
      maxDnsResolutionFieldSize s).string hosttargetAt = s := by
    rw [Block.string_copyBounded (by decide) (by decide) hs, List.take_of_length_le (by omega)]
  apply Block.string_congr hs hstring
  intro i hi
  simp only [fillReply]
  rw [byte_copyTxt_outside (by omega),
    Block.byte_memcpy_outside (by decide) (by omega),
    Block.byte_memcpy_outside (by decide) (by omega),
    Block.byte_copyBounded_outside (by decide) (by decide) (by omega),
    Block.byte_copyBounded_outside (by decide) (by decide) (by omega),
    Block.byte_copyBounded_outside (by decide) (by decide) (by omega)]
  rfl

theorem serviceName_fillReply {hosttarget : Option Bytes} :
    (fillReply fullname hosttarget port txtLen txtRecord ctx res).string serviceNameAt =
      (ctx.string 0).take (servnameMax - 1) := by
  have hlayout := layout
  have hctx : 0 ∉ ctx.string 0 := ctx.zero_not_mem_string 0
  have hnul : 0 ∉ (ctx.string 0).take (servnameMax - 1) :=
    fun hmem => hctx (List.mem_of_mem_take hmem)
  have hle : ((ctx.string 0).take (servnameMax - 1)).length ≤ servnameMax - 1 :=
    List.length_take_le _ _
  apply Block.string_congr hnul (Block.string_copyBounded (by decide) (by decide) hctx
    (copyOptional hosttargetAt hosttarget (copyOptional fullnameAt fullname res)))
  intro i hi
  simp only [fillReply]
  rw [byte_copyTxt_outside (by omega),
    Block.byte_memcpy_outside (by decide) (by rw [length_toLE]; omega),
    Block.byte_memcpy_outside (by decide) (by rw [length_toLE]; omega),
    Block.byte_copyBounded_outside (by decide) (by decide) (by omega),
    Block.byte_copyBounded_outside (by decide) (by decide) (by omega)]

theorem port_fillReply {hosttarget : Option Bytes} :
    (fillReply fullname hosttarget port txtLen txtRecord ctx res).uint16 portAt = ntohs port := by
  have hlayout := layout
  simp only [fillReply]
  rw [Block.uint16_congr (byte_copyTxt_outside (by omega)) (byte_copyTxt_outside (by omega)),
    Block.uint16_congr (Block.byte_memcpy_outside (by decide) (by omega) _)
      (Block.byte_memcpy_outside (by decide) (by omega) _), Block.uint16_memcpy (by decide)]

/-- Over Bonjour the app gets the host, the port, and what fits the field of the name. -/
theorem overBonjour_eq : overBonjour r m =
    some ⟨r.hostName, r.serviceName.take (servnameMax - 1), r.port.toNat⟩ := by
  simp only [overBonjour, cResolveReply, ne_eq, not_true_eq_false, if_false, Option.bind_some,
    Option.map_some, received]
  rw [hosttarget_fillReply r.host_noNul r.host_lt, serviceName_fillReply, port_fillReply,
    ntohs_ntohs, take_callbackContext]

end Bonjour

/-- The app gets the host and the name of the report, and the same from both backends. -/
structure Carries : Prop where
  hosttarget : (overAvahi r m).map Resolved.hosttarget = some r.hostName
  serviceName : (overAvahi r m).map Resolved.serviceName = some r.serviceName
  same : overAvahi r m = overBonjour r m

/-- A result carries the report exactly if `malloc` left a NUL behind the host name, the name is
shorter than its field, and what the TXT record has beyond its own field starts the name. -/
theorem carries_iff : Carries r m ↔
    m.malloc.byte (hosttargetAt + r.hostName.length) = 0 ∧ r.serviceName.length < servnameMax ∧
      r.txt.drop maxDnsResolutionFieldSize <+: r.serviceName := by
  have hlayout := layout
  rw [← hosttarget_eq_iff m.avahi]
  constructor
  · rintro ⟨hhost, hname, hsame⟩
    rw [overAvahi_eq, Option.map_some, Option.some_inj] at hhost hname
    rw [overAvahi_eq, overBonjour_eq, Option.some_inj] at hsame
    have hcut : r.serviceName = r.serviceName.take (servnameMax - 1) :=
      hname.symm.trans (congrArg Resolved.serviceName hsame)
    have hlt : r.serviceName.length < servnameMax := by
      have hle := List.length_take_le (servnameMax - 1) r.serviceName
      rw [← hcut] at hle
      omega
    exact ⟨hhost, hlt, (serviceName_eq_iff hlt m.avahi m.malloc).mp hname⟩
  · rintro ⟨hhost, hlt, htxt⟩
    have hname := (serviceName_eq_iff hlt m.avahi m.malloc).mpr htxt
    have hread : received (fillResult r m.avahi m.malloc) =
        ⟨r.hostName, r.serviceName, r.port.toNat⟩ := by
      rw [received, hhost, hname, port_fillResult]
    have hfits : r.serviceName.take (servnameMax - 1) = r.serviceName :=
      List.take_of_length_le (by omega)
    rw [← Option.some_inj, ← overAvahi_eq] at hread
    exact ⟨by rw [hread]; rfl, by rw [hread]; rfl, by rw [hread, overBonjour_eq, hfits]⟩

/-- The host `ProBoopens.local` in a block that held `alchathost._tcp` behind it before. -/
theorem host_name_runs_on :
    let host : Bytes := [80, 114, 111, 66, 111, 111, 112, 101, 110, 115, 46, 108, 111, 99, 97, 108]
    let left : Bytes := [97, 108, 99, 104, 97, 116, 104, 111, 115, 116, 46, 95, 116, 99, 112]
    let s : DaemonService := ⟨host, [116], [46], by decide, by decide, by decide⟩
    let r : Report := ⟨s, host, host, [], [], [], 50001, by decide, by decide, by decide, by decide,
      by decide, by decide⟩
    let behind : Behind := ⟨fun _ => 0, fun _ => 0, fun _ => 0⟩
    let m : Surroundings := ⟨(Block.zeros _ []).memcpy 272 left, behind, behind, [], []⟩
    (overAvahi r m).map Resolved.hosttarget = some (host ++ left) ∧ ¬ Carries r m := by
  intro host left s r behind m
  have hread : (overAvahi r m).map Resolved.hosttarget = some (host ++ left) := by
    decide +kernel
  refine ⟨hread, fun h => ?_⟩
  have hhost := hread.symm.trans h.hosttarget
  exact absurd hhost (by decide)

end Discovery

end LocalChat
