import Mathlib.Algebra.Ring.Nat
import Mathlib.Data.List.TakeDrop

/-!
# Base64

The standard alphabet with padding: four characters of six bits for three bytes, and a padded
group for the one or two bytes that are left.
-/
namespace ControlPlane.Lib.Base64

/-- The character for a value of six bits. -/
def letter (n : Nat) : UInt8 :=
  UInt8.ofNat <|
    if n < 26 then 65 + n
    else if n < 52 then 71 + n
    else if n < 62 then n - 4
    else if n = 62 then 43
    else 47

def padding : UInt8 := 61

/-- The four values of three bytes. -/
def sextets (a b c : UInt8) : List Nat :=
  [a.toNat / 4, a.toNat % 4 * 16 + b.toNat / 16, b.toNat % 16 * 4 + c.toNat / 64, c.toNat % 64]

/-- The bytes of a text, group by group. -/
def encode : List UInt8 → List UInt8
  | a :: b :: c :: rest => (sextets a b c).map letter ++ encode rest
  | [a, b] => ((sextets a b 0).take 3).map letter ++ [padding]
  | [a] => ((sextets a 0 0).take 2).map letter ++ [padding, padding]
  | [] => []

/-- The bytes that stand in groups of three. -/
def whole (bytes : List UInt8) : List UInt8 := bytes.take (3 * (bytes.length / 3))

/-! ## Groups -/

theorem sextets_lt (a b c : UInt8) : ∀ n ∈ sextets a b c, n < 64 := by
  have ha := a.toNat_lt
  have hb := b.toNat_lt
  have hc := c.toNat_lt
  simp only [sextets, List.mem_cons, List.not_mem_nil, or_false]
  rintro n (rfl | rfl | rfl | rfl) <;> omega

/-- A letter is not the padding. -/
theorem letter_ne_padding {n : Nat} (h : n < 64) : letter n ≠ padding := by
  revert n
  decide

/-- The bits of two values side by side. -/
theorem bits_or {high low k : Nat} (h : low < 2 ^ k) :
    high * 2 ^ k ||| low = high * 2 ^ k + low := by
  rw [Nat.mul_comm, Nat.two_pow_add_eq_or_of_lt h]

theorem length_encode (bytes : List UInt8) :
    (encode bytes).length = 4 * ((bytes.length + 2) / 3) := by
  induction bytes using encode.induct with
  | case1 a b c bytes ih =>
      simp only [encode, sextets, List.map_cons, List.map_nil, List.length_append,
        List.length_cons, List.length_nil, ih]
      omega
  | case2 a b => simp [encode, sextets]
  | case3 a => simp [encode, sextets]
  | case4 => rfl

/-! ## Whole groups -/

theorem length_whole (bytes : List UInt8) : (whole bytes).length = 3 * (bytes.length / 3) := by
  rw [whole, List.length_take]
  omega

theorem whole_cons (a b c : UInt8) (rest : List UInt8) :
    whole (a :: b :: c :: rest) = a :: b :: c :: whole rest := by
  have hlen : (a :: b :: c :: rest).length / 3 = rest.length / 3 + 1 := by
    simp only [List.length_cons]
    omega
  rw [whole, hlen, Nat.mul_add]
  rfl

theorem whole_short {bytes : List UInt8} (h : bytes.length < 3) : whole bytes = [] := by
  rw [whole, Nat.div_eq_of_lt h]
  rfl

/-- All of the bytes stand in groups if their number is a multiple of three. -/
theorem whole_eq_self_iff {bytes : List UInt8} : whole bytes = bytes ↔ bytes.length % 3 = 0 := by
  rw [whole, List.take_eq_self_iff]
  omega

end ControlPlane.Lib.Base64
