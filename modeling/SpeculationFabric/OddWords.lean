import Mathlib.Data.Nat.ModEq
import Mathlib.Data.Nat.Prime.Basic
import Mathlib.Data.UInt

/-! Identities made by multiplying words with odd constants. An odd constant has nothing
in common with a power of two, so it can be cancelled in arithmetic that wraps around,
and so can whatever the product is xored with. -/
namespace OddWords

theorem oddCoprime {c : Nat} (odd : c % 2 = 1) (w : Nat) : Nat.gcd (2^w) c = 1 :=
  Nat.Coprime.pow_left w (Nat.coprime_two_left.mpr (Nat.odd_iff.mpr odd))

theorem bitsMul {w : Nat} {c : BitVec w} (odd : c.toNat % 2 = 1) {a b : BitVec w} : a * c = b * c ↔ a = b := by
  constructor
  · intro same
    have values := congrArg BitVec.toNat same
    rw [BitVec.toNat_mul,BitVec.toNat_mul] at values
    have reduced : a.toNat ≡ b.toNat [MOD 2^w] := Nat.ModEq.cancel_right_of_coprime (oddCoprime odd w) values
    exact BitVec.eq_of_toNat_eq (reduced.eq_of_lt_of_lt a.isLt b.isLt)
  · rintro rfl
    rfl

section words
variable {c : UInt64} (odd : c.toNat % 2 = 1) {a b : UInt64}
include odd

theorem wordMul : a * c = b * c ↔ a = b := by
  rw [← UInt64.toBitVec_inj,UInt64.toBitVec_mul,UInt64.toBitVec_mul,bitsMul odd,UInt64.toBitVec_inj]

theorem wordMulZero : a * c = 0 ↔ a = 0 := by
  have none : (0 : UInt64) * c = 0 := UInt64.zero_mul
  rw [← none,wordMul odd,none]

theorem mixedLeft (other : UInt64) : (a * c) ^^^ other = (b * c) ^^^ other ↔ a = b :=
  (UInt64.xor_left_inj other).trans (wordMul odd)

theorem mixedRight (other : UInt64) : other ^^^ (a * c) = other ^^^ (b * c) ↔ a = b :=
  (UInt64.xor_right_inj other).trans (wordMul odd)

end words

end OddWords
