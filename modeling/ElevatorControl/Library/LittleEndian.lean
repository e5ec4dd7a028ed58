import Mathlib.Algebra.Group.Nat.Defs
import Mathlib.Tactic.Common

/-
  Numbers as little-endian byte strings of a fixed length.

  Unsigned numbers are written modulo the size of the
  string. Signed numbers are written in two's complement.

  Main declarations:
    * `LittleEndian.encode` and `LittleEndian.decode`
    * `LittleEndian.decode_encode`
    * `LittleEndian.encodeInt` and `LittleEndian.decodeInt`
    * `LittleEndian.fits_decodeInt`
    * `LittleEndian.decodeInt_encodeInt`
-/

------------------------------------------------------------
-- Unsigned Numbers
------------------------------------------------------------

namespace LittleEndian

/- The low `n` bytes of a number, the lowest first. -/
def encode : Nat → Nat → List UInt8
  | 0, _ => []
  | n + 1, v => UInt8.ofNat (v % 256) :: encode n (v / 256)

/- The number the bytes stand for. -/
def decode : List UInt8 → Nat
  | [] => 0
  | b :: bytes => b.toNat + 256 * decode bytes

@[simp] theorem length_encode
    (n v : Nat) :
    (encode n v).length = n := by
  induction n generalizing v with
  | zero => rfl
  | succ n ih => simp [encode, ih]

theorem decode_encode
    {n v : Nat}
    (hLt : v < 256 ^ n) :
    decode (encode n v) = v := by
  induction n generalizing v with
  | zero =>
      have hZero : v = 0 := by omega
      simp [encode, decode, hZero]
  | succ n ih =>
      have hRest : v / 256 < 256 ^ n := by
        rw [Nat.pow_succ] at hLt
        omega
      have hByte :
          (UInt8.ofNat (v % 256)).toNat = v % 256 := by
        rw [UInt8.toNat_ofNat_of_lt']
        exact Nat.mod_lt v (by decide)
      rw [encode, decode, ih hRest, hByte]
      omega

/- A string is too short for larger numbers. -/
theorem decode_lt
    (bytes : List UInt8) :
    decode bytes < 256 ^ bytes.length := by
  induction bytes with
  | nil => exact Nat.one_pos
  | cons b bytes ih =>
      have hByte : b.toNat < 256 := b.toNat_lt
      rw [decode, List.length_cons, Nat.pow_succ]
      omega

------------------------------------------------------------
-- Signed Numbers
------------------------------------------------------------

/- The number fits in `n` bytes in two's complement. -/
def Fits
    (n : Nat)
    (v : Int) : Prop :=
  -((256 ^ n : Nat) : Int) ≤ 2 * v ∧
    2 * v < ((256 ^ n : Nat) : Int)

instance
    (n : Nat)
    (v : Int) : Decidable (Fits n v) := by
  unfold Fits
  infer_instance

/- The number the low `n` bytes stand for. -/
def narrow
    (n : Nat)
    (v : Int) : Int :=
  v.bmod (256 ^ n)

/- The low `n` bytes of a signed number. -/
def encodeInt
    (n : Nat)
    (v : Int) : List UInt8 :=
  encode n (v % (256 ^ n : Nat)).toNat

/- The signed number that `n` bytes stand for. -/
def decodeInt
    (n : Nat)
    (bytes : List UInt8) : Int :=
  narrow n (decode bytes)

@[simp] theorem length_encodeInt
    (n : Nat)
    (v : Int) :
    (encodeInt n v).length = n :=
  length_encode n _

/- Numbers that fit are not changed by narrowing. -/
theorem narrow_eq
    {n : Nat}
    {v : Int}
    (hFits : Fits n v) :
    narrow n v = v := by
  rcases hFits with ⟨hLow, hHigh⟩
  unfold narrow
  apply Int.bmod_eq_of_le_mul_two
  · omega
  · omega

/- Narrowing yields a number that fits. -/
theorem fits_narrow
    {n : Nat}
    (hPos : 0 < n)
    (v : Int) :
    Fits n (narrow n v) := by
  have hEven : ∃ k : Nat, 256 ^ n = 2 * k := by
    rcases Nat.exists_eq_succ_of_ne_zero
      (Nat.ne_of_gt hPos) with ⟨m, rfl⟩
    exact ⟨128 * 256 ^ m, by rw [Nat.pow_succ]; omega⟩
  have hModulus : 0 < 256 ^ n := Nat.pow_pos (by decide)
  have hLow := Int.le_bmod (x := v) hModulus
  have hHigh := Int.bmod_lt (x := v) hModulus
  rcases hEven with ⟨k, hk⟩
  unfold Fits narrow
  rw [hk] at hLow hHigh ⊢
  omega

/- Whatever is decoded fits the length of the string. -/
theorem fits_decodeInt
    (bytes : List UInt8) :
    Fits bytes.length (decodeInt bytes.length bytes) := by
  cases bytes with
  | nil => decide
  | cons b bytes => exact fits_narrow (Nat.succ_pos _) _

theorem decodeInt_encodeInt
    {n : Nat}
    {v : Int}
    (hFits : Fits n v) :
    decodeInt n (encodeInt n v) = v := by
  have hModulus : 0 < (256 ^ n : Nat) :=
    Nat.pow_pos (by decide)
  have hNonneg : 0 ≤ v % (256 ^ n : Nat) :=
    Int.emod_nonneg v (by omega)
  have hLt : v % (256 ^ n : Nat) < (256 ^ n : Nat) :=
    Int.emod_lt_of_pos v (by omega)
  unfold decodeInt encodeInt
  rw [decode_encode (by omega), Int.toNat_of_nonneg hNonneg,
    narrow, Int.emod_bmod]
  exact narrow_eq hFits

end LittleEndian
