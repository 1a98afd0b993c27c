import Mathlib.Data.List.TakeDrop
import Mathlib.Data.List.TakeWhile
import Mathlib.Tactic.Ring

/-!
# Octet strings

Byte strings as `List UInt8`, with the operations a C program performs on raw
memory:

* `toLE w n`, `ofLE`: an integer copied to and from `w` little-endian bytes.
  `ofLE_toLE`: the round trip keeps `n` modulo `256 ^ w`.
* `at_ l i`: the byte at an index, `0` past the end.
* `overwrite off d l`: `memcpy` of `d` into `l` at offset `off`.
* `padTo n l`: the first `n` bytes of `l`, zero-filled up to length `n`.
* `cstr l`: the bytes before the first NUL.
-/

namespace Octets

/-! ### Little-endian integers -/

def toLE : Nat → Nat → List UInt8
  | 0, _ => []
  | w + 1, n => UInt8.ofNat n :: toLE w (n / 256)

/-- The number whose little-endian bytes are given. -/
def ofLE : List UInt8 → Nat
  | [] => 0
  | b :: bs => b.toNat + 256 * ofLE bs

@[simp] theorem length_toLE (w n : Nat) : (toLE w n).length = w := by
  induction w generalizing n with
  | zero => rfl
  | succ w ih => simp [toLE, ih]

theorem ofLE_toLE (w n : Nat) : ofLE (toLE w n) = n % 256 ^ w := by
  induction w generalizing n with
  | zero => simp [toLE, ofLE, Nat.mod_one]
  | succ w ih =>
    have hpow : 256 ^ (w + 1) = 256 * 256 ^ w := pow_succ' 256 w
    rw [toLE, ofLE, ih, UInt8.toNat_ofNat', hpow, Nat.mod_mul (x := n)]

theorem ofLE_toLE_of_lt {w n : Nat} (h : n < 256 ^ w) : ofLE (toLE w n) = n := by
  rw [ofLE_toLE, Nat.mod_eq_of_lt h]

/-! ### Indexing -/

/-- The byte at index `i`, `0` past the end. -/
def at_ (l : List UInt8) (i : Nat) : UInt8 := l.getD i 0

theorem at_append_left {l r : List UInt8} {i : Nat} (h : i < l.length) :
    at_ (l ++ r) i = at_ l i := by
  simp [at_, List.getElem?_append_left h]

theorem at_append_right {l r : List UInt8} {i : Nat} (h : l.length ≤ i) :
    at_ (l ++ r) i = at_ r (i - l.length) := by
  simp [at_, List.getElem?_append_right h]

@[simp] theorem at_cons_zero (b : UInt8) (l : List UInt8) : at_ (b :: l) 0 = b := rfl

@[simp] theorem at_cons_succ (b : UInt8) (l : List UInt8) (i : Nat) :
    at_ (b :: l) (i + 1) = at_ l i := rfl

theorem at_of_length_le {l : List UInt8} {i : Nat} (h : l.length ≤ i) : at_ l i = 0 := by
  simp [at_, List.getElem?_eq_none h]

theorem at_mem {l : List UInt8} {i : Nat} (h : i < l.length) : at_ l i ∈ l := by
  simp only [at_, List.getD_eq_getElem?_getD, List.getElem?_eq_getElem h, Option.getD_some]
  exact List.getElem_mem h

theorem at_eq_getElem {l : List UInt8} {i : Nat} (h : i < l.length) : at_ l i = l[i] := by
  simp [at_, h]

theorem at_append_zero (l : List UInt8) (i : Nat) : at_ (l ++ [0]) i = at_ l i := by
  rcases Nat.lt_or_ge i l.length with hlt | hge
  · rw [at_append_left hlt]
  · rw [at_append_right hge, at_of_length_le hge]
    rcases Nat.eq_zero_or_pos (i - l.length) with hzero | hpos
    · rw [hzero, at_cons_zero]
    · rw [at_of_length_le hpos]

theorem at_drop (l : List UInt8) (k i : Nat) : at_ (l.drop k) i = at_ l (k + i) := by
  simp [at_, List.getElem?_drop]

theorem at_take {l : List UInt8} {k i : Nat} (h : i < k) : at_ (l.take k) i = at_ l i := by
  simp [at_, h]

/-- Byte `i` of a little-endian integer is its `i`-th base-256 digit. -/
theorem at_toLE {w i : Nat} (h : i < w) (n : Nat) :
    at_ (toLE w n) i = UInt8.ofNat (n / 256 ^ i) := by
  induction w generalizing i n with
  | zero => omega
  | succ w ih =>
    cases i with
    | zero => simp [toLE]
    | succ i =>
      rw [toLE, at_cons_succ, ih (by omega), Nat.div_div_eq_div_mul, pow_succ, mul_comm]

/-! ### Memory copies -/

/-- `memcpy` of `d` into `l` at offset `off`. -/
def overwrite (off : Nat) (d l : List UInt8) : List UInt8 :=
  l.take off ++ d ++ l.drop (off + d.length)

theorem length_overwrite {off : Nat} {d l : List UInt8} (h : off + d.length ≤ l.length) :
    (overwrite off d l).length = l.length := by
  simp only [overwrite, List.length_append, List.length_take, List.length_drop]
  omega

theorem le_length_overwrite {n : Nat} {l : List UInt8} (h : n ≤ l.length) (off : Nat)
    (d : List UInt8) : n ≤ (overwrite off d l).length := by
  simp only [overwrite, List.length_append, List.length_take, List.length_drop]
  omega

/-- A copy changes the bytes it covers and no others. -/
theorem at_overwrite {off : Nat} {l : List UInt8} (h : off ≤ l.length) (d : List UInt8) (i : Nat) :
    at_ (overwrite off d l) i =
      if off ≤ i ∧ i < off + d.length then at_ d (i - off) else at_ l i := by
  have htake : (l.take off).length = off := by simp [h]
  rw [overwrite, List.append_assoc]
  by_cases hlt : i < off
  · rw [at_append_left (by omega), at_take hlt, if_neg (by omega)]
  · rw [at_append_right (by omega), htake]
    by_cases hin : i < off + d.length
    · rw [at_append_left (by omega), if_pos (by omega)]
    · rw [at_append_right (by omega), at_drop, if_neg (by omega)]
      congr 1
      omega

@[simp] theorem overwrite_nil (off : Nat) (l : List UInt8) : overwrite off [] l = l := by
  simp [overwrite]

theorem overwrite_overwrite {off : Nat} {d e l : List UInt8} (h : off ≤ l.length) :
    overwrite (off + d.length) e (overwrite off d l) = overwrite off (d ++ e) l := by
  have htake : (l.take off ++ d).length = off + d.length := by simp; omega
  simp only [overwrite]
  rw [List.take_append_of_le_length (by omega), List.take_of_length_le (by omega),
    List.drop_append, List.drop_eq_nil_of_le (by omega), List.nil_append, List.drop_drop, htake,
    List.length_append]
  simp only [List.append_assoc]
  congr 4
  omega

theorem overwrite_of_length {d l : List UInt8} (h : d.length = l.length) : overwrite 0 d l = d := by
  simp [overwrite, h]

theorem overwrite_append_right {off : Nat} {a l : List UInt8} (h : a.length ≤ off)
    (d : List UInt8) : overwrite off d (a ++ l) = a ++ overwrite (off - a.length) d l := by
  have hdrop : off + d.length - a.length = off - a.length + d.length := by omega
  rw [overwrite, overwrite, List.take_append, List.take_of_length_le h, List.drop_append,
    List.drop_eq_nil_of_le (by omega), List.nil_append, hdrop]
  simp only [List.append_assoc]

/-- Copying zeros changes a byte only to `0`. -/
theorem at_overwrite_zeros {d l : List UInt8} (h : ∀ b ∈ d, b = 0) (i : Nat) :
    at_ (overwrite 0 d l) i = 0 ∨ at_ (overwrite 0 d l) i = at_ l i := by
  rw [at_overwrite (Nat.zero_le _)]
  split
  case isTrue hi => exact Or.inl (h _ (at_mem (by omega)))
  case isFalse => exact Or.inr rfl

theorem take_overwrite {off : Nat} {d l : List UInt8} (h : off ≤ l.length) :
    (overwrite off d l).take (off + d.length) = l.take off ++ d := by
  have hlen : (l.take off ++ d).length = off + d.length := by simp; omega
  rw [overwrite, List.take_append_of_le_length (by omega), List.take_of_length_le (by omega)]

/-- The first `n` bytes of `l`, zero-filled up to length `n`. -/
def padTo (n : Nat) (l : List UInt8) : List UInt8 := l.take n ++ List.replicate (n - l.length) 0

@[simp] theorem length_padTo (n : Nat) (l : List UInt8) : (padTo n l).length = n := by
  simp [padTo]; omega

theorem padTo_of_length {n : Nat} {l : List UInt8} (h : l.length = n) : padTo n l = l := by
  subst h; simp [padTo]

theorem padTo_of_length_le {n : Nat} {l : List UInt8} (h : l.length ≤ n) :
    padTo n l = l ++ List.replicate (n - l.length) 0 := by
  rw [padTo, List.take_of_length_le h]

theorem at_padTo {n i : Nat} {l : List UInt8} (h : i < n) : at_ (padTo n l) i = at_ l i := by
  by_cases hi : i < l.length
  · have hlt : i < (l.take n).length := by simp; omega
    rw [padTo, at_append_left hlt]
    simp [at_, h]
  · rw [padTo, at_append_right (by simp; omega), at_of_length_le (l := l) (by omega)]
    simp [at_, List.getElem?_replicate]
    split <;> rfl

theorem take_append_drop_length (l : List UInt8) (n : Nat) :
    l.take n ++ l.drop (l.take n).length = l := by
  rw [List.length_take]
  rcases Nat.le_total n l.length with hle | hle
  · rw [Nat.min_eq_left hle, List.take_append_drop]
  · rw [Nat.min_eq_right hle, List.take_of_length_le hle, List.drop_length, List.append_nil]

/-- Taking `n` and then `m` bytes, at most `k` in all, is taking `n + m` bytes, at most `k`. -/
theorem take_min_add (l : List UInt8) (n m k : Nat) :
    l.take (min (n + m) k) = l.take (min n k) ++
      (l.drop (l.take (min n k)).length).take (min m (k - (l.take (min n k)).length)) := by
  by_cases hl : l.length ≤ min n k
  · rw [List.take_of_length_le (i := min n k) hl, List.take_of_length_le (by omega)]
    simp
  · have hlen : (l.take (min n k)).length = min n k := by simp; omega
    have hsum : min (n + m) k = min n k + min m (k - min n k) := by omega
    rw [hlen, hsum, List.take_add]

/-! ### NUL-terminated strings -/

def cstr (l : List UInt8) : List UInt8 := l.takeWhile (fun b => b ≠ 0)

theorem cstr_append_zero {l r : List UInt8} (h : 0 ∉ l) : cstr (l ++ 0 :: r) = l := by
  induction l with
  | nil => simp [cstr]
  | cons b l ih =>
    have hb : b ≠ 0 := fun e => h (by simp [e])
    have hl : 0 ∉ l := fun e => h (List.mem_cons_of_mem b e)
    simpa [cstr, hb] using ih hl

theorem cstr_of_zero_not_mem {l : List UInt8} (h : 0 ∉ l) : cstr l = l := by
  refine List.takeWhile_eq_self_iff.mpr ?_
  intro b hb
  exact decide_eq_true fun he => h (he ▸ hb)

theorem zero_not_mem_cstr (l : List UInt8) : 0 ∉ cstr l := by
  intro hmem
  rw [cstr] at hmem
  exact absurd (List.mem_takeWhile_imp hmem) (by decide)

/-- One string is the start of another, read byte by byte up to the end of the longer one. -/
theorem prefix_iff_at {t : List UInt8} (ht : 0 ∉ t) (s : List UInt8) :
    t <+: s ↔ ∀ i ≤ s.length, i < t.length → at_ t i = at_ s i := by
  constructor
  · rintro ⟨r, rfl⟩ i _ hi
    rw [at_append_left hi]
  · intro hall
    have hle : t.length ≤ s.length := by
      by_contra hgt
      have hlast := hall s.length le_rfl (by omega)
      rw [at_of_length_le (l := s) le_rfl] at hlast
      exact ht (hlast ▸ at_mem (by omega))
    rw [List.prefix_iff_getElem]
    refine ⟨hle, fun i hi => ?_⟩
    rw [← at_eq_getElem hi, ← at_eq_getElem (hi.trans_le hle), hall i (by omega) hi]

/-- A string is read exactly if its bytes are there and a NUL behind them. -/
theorem cstr_eq_iff {s : List UInt8} (h : 0 ∉ s) (l : List UInt8) :
    cstr l = s ↔ ∀ i ≤ s.length, at_ l i = at_ s i := by
  induction s generalizing l with
  | nil =>
    cases l with
    | nil => simp [cstr]
    | cons c l => simp [cstr, at_of_length_le]
  | cons b s ih =>
    have hb : b ≠ 0 := fun e => h (by simp [e])
    have hs : 0 ∉ s := fun e => h (List.mem_cons_of_mem b e)
    cases l with
    | nil =>
      have hfirst : ¬ ∀ i ≤ (b :: s).length, at_ [] i = at_ (b :: s) i :=
        fun hall => hb (hall 0 (Nat.zero_le _)).symm
      exact iff_of_false (by simp [cstr]) hfirst
    | cons c l =>
      have hcons : cstr (c :: l) = b :: s ↔ c = b ∧ cstr l = s := by
        by_cases hc : c = 0
        · simp [cstr, hc, hb.symm]
        · simp [cstr, hc]
      rw [hcons, ih hs l]
      constructor
      · rintro ⟨rfl, hall⟩ i hi
        cases i with
        | zero => rfl
        | succ i => exact hall i (Nat.le_of_succ_le_succ hi)
      · exact fun hall => ⟨hall 0 (Nat.zero_le _), fun i hi => hall (i + 1) (Nat.succ_le_succ hi)⟩

/-- The first `k` bytes of a string depend on `k` bytes of memory only. -/
theorem take_cstr {s : List UInt8} (hs : 0 ∉ s) {l : List UInt8} {k : Nat}
    (h : ∀ i ≤ s.length, i < k → at_ l i = at_ s i) : (cstr l).take k = s.take k := by
  induction s generalizing l k with
  | nil =>
    cases k with
    | zero => rfl
    | succ k =>
      have hnil : cstr l = [] := by
        rw [cstr_eq_iff hs]
        intro i hi
        exact h i hi (by simp at hi; omega)
      rw [hnil]
  | cons b s ih =>
    have hb : b ≠ 0 := fun e => hs (by simp [e])
    have hs' : 0 ∉ s := fun e => hs (List.mem_cons_of_mem b e)
    cases k with
    | zero => rfl
    | succ k =>
      have hfirst := h 0 (Nat.zero_le _) (Nat.succ_pos k)
      rw [at_cons_zero] at hfirst
      cases l with
      | nil => exact absurd hfirst.symm hb
      | cons c l =>
        obtain rfl : c = b := hfirst
        have hrest : (cstr l).take k = s.take k :=
          ih hs' fun i hi hk => h (i + 1) (Nat.succ_le_succ hi) (Nat.succ_lt_succ hk)
        simpa [cstr, hb] using hrest

end Octets
