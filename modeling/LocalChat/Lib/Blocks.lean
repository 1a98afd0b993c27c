import LocalChat.Lib.Octets

/-!
# Blocks of memory

A C structure as the bytes of its block.  `memcpy` takes any number of bytes, and a string is read
up to the next NUL, so both may leave the field, and the block too: a `Block` has the memory behind
it as well.

* `byte_memcpy`: a copy changes the bytes it covers and no others.
* `string_eq_iff`: which bytes make the string that is read from a field.
* `string_copyBounded`: a copy that is cut off and terminated leaves a string that ends in its
  field.
-/

namespace Octets

/-- A block of `n` bytes, and what lies behind it. -/
structure Block (n : Nat) where
  bytes : List UInt8
  size : n ≤ bytes.length

namespace Block

variable {n : Nat}

/-- The block `calloc` returns. -/
def zeros (n : Nat) (behind : List UInt8) : Block n where
  bytes := List.replicate n 0 ++ behind
  size := by simp

def memcpy (off : Nat) (d : List UInt8) (b : Block n) : Block n where
  bytes := overwrite off d b.bytes
  size := le_length_overwrite b.size off d

def byte (b : Block n) (i : Nat) : UInt8 := at_ b.bytes i

def string (b : Block n) (off : Nat) : List UInt8 := cstr (b.bytes.drop off)

/-- The little-endian integer of two bytes at `off`. -/
def uint16 (b : Block n) (off : Nat) : UInt16 := UInt16.ofNat (ofLE [b.byte off, b.byte (off + 1)])

/-- A string is copied to a field of `size` bytes, cut off if it is too long, and terminated. -/
def copyBounded (off size : Nat) (s : List UInt8) (b : Block n) : Block n :=
  let len := if size ≤ s.length then size - 1 else s.length
  (b.memcpy off (s.take len)).memcpy (off + len) [0]

/-! ### Bytes -/

theorem byte_memcpy {off : Nat} (h : off ≤ n) (d : List UInt8) (b : Block n) (i : Nat) :
    (b.memcpy off d).byte i = if off ≤ i ∧ i < off + d.length then at_ d (i - off) else b.byte i :=
  at_overwrite (h.trans b.size) d i

theorem byte_memcpy_inside {off i : Nat} {d : List UInt8} (h : off ≤ n) (hi : i < d.length)
    (b : Block n) : (b.memcpy off d).byte (off + i) = at_ d i := by
  rw [byte_memcpy h, if_pos (by omega), Nat.add_sub_cancel_left]

theorem byte_memcpy_outside {off i : Nat} {d : List UInt8} (h : off ≤ n)
    (hi : i < off ∨ off + d.length ≤ i) (b : Block n) : (b.memcpy off d).byte i = b.byte i := by
  rw [byte_memcpy h, if_neg (by omega)]

theorem byte_copyBounded_outside {off size i : Nat} (hpos : 0 < size) (h : off + size ≤ n)
    (hi : i < off ∨ off + size ≤ i) (s : List UInt8) (b : Block n) :
    (b.copyBounded off size s).byte i = b.byte i := by
  simp only [copyBounded]
  split
  · rw [byte_memcpy_outside (by omega) (by simp; omega), byte_memcpy_outside (by omega)
      (by simp; omega)]
  · rw [byte_memcpy_outside (by omega) (by simp; omega), byte_memcpy_outside (by omega)
      (by simp; omega)]

/-! ### Strings -/

theorem zero_not_mem_string (b : Block n) (off : Nat) : 0 ∉ b.string off := zero_not_mem_cstr _

theorem string_eq_iff {s : List UInt8} (hs : 0 ∉ s) (b : Block n) (off : Nat) :
    b.string off = s ↔ ∀ i ≤ s.length, b.byte (off + i) = at_ s i := by
  simp only [string, cstr_eq_iff hs, at_drop, byte]

theorem string_eq_nil_iff (b : Block n) (off : Nat) : b.string off = [] ↔ b.byte off = 0 := by
  rw [string_eq_iff List.not_mem_nil]
  constructor
  · exact fun hall => hall 0 (Nat.zero_le _)
  · intro hzero i hi
    obtain rfl : i = 0 := Nat.le_zero.mp hi
    exact hzero

theorem string_of_byte_ne {b : Block n} {off : Nat} (h : b.byte off ≠ 0) :
    b.string off = b.byte off :: b.string (off + 1) := by
  have hlt : off < b.bytes.length := by
    by_contra hge
    exact h (at_of_length_le (by omega))
  rw [byte, at_eq_getElem hlt] at h ⊢
  rw [string, List.drop_eq_getElem_cons hlt]
  simp only [cstr, List.takeWhile_cons, h, decide_true, if_true, ne_eq, not_false_eq_true]
  rfl

theorem string_append {s : List UInt8} (hs : 0 ∉ s) {b : Block n} {off : Nat}
    (h : ∀ i < s.length, b.byte (off + i) = at_ s i) :
    b.string off = s ++ b.string (off + s.length) := by
  induction s generalizing off with
  | nil => rfl
  | cons c s ih =>
    have hc : c ≠ 0 := fun e => hs (by simp [e])
    have hs' : 0 ∉ s := fun e => hs (List.mem_cons_of_mem c e)
    have hfirst : b.byte off = c := h 0 (Nat.succ_pos _)
    have hrest : b.string (off + 1) = s ++ b.string (off + 1 + s.length) := by
      apply ih hs'
      intro i hi
      rw [Nat.add_assoc, Nat.add_comm 1 i]
      exact h (i + 1) (Nat.succ_lt_succ hi)
    rw [string_of_byte_ne (by rwa [hfirst]), hfirst, hrest, List.length_cons, Nat.add_assoc,
      Nat.add_comm 1, List.cons_append]

theorem take_string {s : List UInt8} (hs : 0 ∉ s) {off k : Nat} {b : Block n}
    (h : ∀ i ≤ s.length, i < k → b.byte (off + i) = at_ s i) :
    (b.string off).take k = s.take k := by
  refine take_cstr hs fun i hi hk => ?_
  rw [at_drop]
  exact h i hi hk

/-- A string stays as long as its bytes and its NUL stay. -/
theorem string_congr {s : List UInt8} {off : Nat} {b b' : Block n} (hs : 0 ∉ s)
    (h : b.string off = s) (heq : ∀ i ≤ s.length, b'.byte (off + i) = b.byte (off + i)) :
    b'.string off = s := by
  rw [string_eq_iff hs] at h ⊢
  intro i hi
  rw [heq i hi, h i hi]

theorem string_copyBounded {off size : Nat} {s : List UInt8} (hpos : 0 < size) (h : off + size ≤ n)
    (hs : 0 ∉ s) (b : Block n) : (b.copyBounded off size s).string off = s.take (size - 1) := by
  have hlen : (if size ≤ s.length then size - 1 else s.length) = (s.take (size - 1)).length := by
    rw [List.length_take]
    split <;> omega
  have htake : s.take (s.take (size - 1)).length = s.take (size - 1) := by
    rw [List.length_take, ← List.take_take, List.take_length]
  have hle : (s.take (size - 1)).length ≤ size - 1 := List.length_take_le _ _
  have hnul : 0 ∉ s.take (size - 1) := fun hmem => hs (List.mem_of_mem_take hmem)
  simp only [copyBounded, hlen, htake]
  rw [string_eq_iff hnul]
  intro i hi
  rcases Nat.lt_or_eq_of_le hi with hlt | rfl
  · rw [byte_memcpy_outside (by omega) (by omega), byte_memcpy_inside (by omega) hlt]
  · rw [at_of_length_le le_rfl, byte_memcpy (by omega), if_pos (by simp), Nat.sub_self,
      at_cons_zero]

/-! ### Integers -/

theorem uint16_memcpy {off : Nat} (h : off ≤ n) (v : UInt16) (b : Block n) :
    (b.memcpy off (toLE 2 v.toNat)).uint16 off = v := by
  have hfirst : (b.memcpy off (toLE 2 v.toNat)).byte (off + 0) = at_ (toLE 2 v.toNat) 0 :=
    byte_memcpy_inside h (by simp) b
  have hsecond : (b.memcpy off (toLE 2 v.toNat)).byte (off + 1) = at_ (toLE 2 v.toNat) 1 :=
    byte_memcpy_inside h (by simp) b
  rw [Nat.add_zero] at hfirst
  rw [uint16, hfirst, hsecond]
  show UInt16.ofNat (ofLE (toLE 2 v.toNat)) = v
  rw [ofLE_toLE_of_lt v.toNat_lt, UInt16.ofNat_toNat]

theorem uint16_congr {off : Nat} {b b' : Block n} (h : b'.byte off = b.byte off)
    (h' : b'.byte (off + 1) = b.byte (off + 1)) : b'.uint16 off = b.uint16 off := by
  rw [uint16, uint16, h, h']

end Block

end Octets
