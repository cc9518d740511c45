import SpeculationFabric.ByteFields

/-! Reflected shift registers of any width and feedback word. A round is linear, and it
loses nothing when the feedback word has its top bit, so a register tells apart any two
byte strings of the same length that differ in one burst no wider than itself. A string
closed by the complement of its own register always ends in the same residue. -/
namespace Crc

open ByteFields

section register
variable {w : Nat} (feedback : BitVec w)

def round (r : BitVec w) : BitVec w := (r >>> 1) ^^^ (if r.getLsbD 0 then feedback else 0#w)

def feed (r : BitVec w) (b : UInt8) : BitVec w := (round feedback)^[8] (r ^^^ BitVec.ofNat w b.toNat)

def register (r : BitVec w) (bs : List UInt8) : BitVec w := bs.foldl (feed feedback) r

theorem roundXor (x y : BitVec w) : round feedback (x ^^^ y) = round feedback x ^^^ round feedback y := by
  have masks : (if (x ^^^ y).getLsbD 0 then feedback else 0#w) =
      (if x.getLsbD 0 then feedback else 0#w) ^^^ (if y.getLsbD 0 then feedback else 0#w) := by
    rw [BitVec.getLsbD_xor]
    cases x.getLsbD 0 <;> cases y.getLsbD 0 <;> simp
  rw [round,round,round,masks,BitVec.ushiftRight_xor_distrib]
  ac_rfl

theorem roundsXor (n : Nat) (x y : BitVec w) :
    (round feedback)^[n] (x ^^^ y) = (round feedback)^[n] x ^^^ (round feedback)^[n] y := by
  induction n generalizing x y with
  | zero => rfl
  | succ n ih => rw [Function.iterate_succ_apply,roundXor,ih,Function.iterate_succ_apply,Function.iterate_succ_apply]

variable {feedback}

/- The feedback word is the only thing that can set the top bit. -/
theorem roundZero (top : feedback.msb = true) {r : BitVec w} (zero : round feedback r = 0#w) : r = 0#w := by
  have high : (r >>> 1).msb = false := by
    rw [BitVec.msb_ushiftRight]
    simp
  cases low : r.getLsbD 0 with
  | true =>
      rw [round,low,if_pos rfl] at zero
      have bit := congrArg BitVec.msb zero
      rw [BitVec.msb_xor,high,top] at bit
      simp at bit
  | false =>
      rw [round,low,if_neg Bool.false_ne_true] at zero
      apply BitVec.eq_of_getLsbD_eq
      intro i _
      cases i with
      | zero => simpa using low
      | succ i =>
          have bit := congrArg (fun x => x.getLsbD i) zero
          simp only [BitVec.xor_zero,BitVec.getLsbD_ushiftRight] at bit
          rw [Nat.add_comm 1 i] at bit
          simpa using bit

theorem roundInjective (top : feedback.msb = true) : Function.Injective (round feedback) := by
  intro x y same
  have zero : round feedback (x ^^^ y) = 0#w := by
    rw [roundXor,same]
    exact BitVec.xor_self
  exact BitVec.xor_eq_zero_iff.mp (roundZero top zero)

theorem feedInjective (top : feedback.msb = true) (b : UInt8) :
    Function.Injective fun r => feed feedback r b := by
  intro x y same
  exact (BitVec.xor_left_inj _).mp ((roundInjective top).iterate 8 same)

theorem registerInjective (top : feedback.msb = true) (bs : List UInt8) :
    Function.Injective fun r => register feedback r bs := by
  induction bs with
  | nil => exact fun _ _ same => same
  | cons b rest ih => exact fun _ _ same => feedInjective top b (ih same)

theorem roundEven {k : Nat} (fits : 2 * k < 2 ^ w) :
    round feedback (BitVec.ofNat w (2 * k)) = BitVec.ofNat w k := by
  have low : (BitVec.ofNat w (2 * k)).getLsbD 0 = false := by
    rw [BitVec.getLsbD_ofNat,Nat.testBit_zero,Nat.mul_mod_right]
    simp
  rw [round,low,if_neg Bool.false_ne_true,BitVec.xor_zero]
  apply BitVec.eq_of_toNat_eq
  rw [BitVec.toNat_ushiftRight,BitVec.toNat_ofNat,BitVec.toNat_ofNat,Nat.mod_eq_of_lt fits,
    Nat.mod_eq_of_lt (by omega),Nat.shiftRight_eq_div_pow]
  omega

theorem roundsEven (n : Nat) {k : Nat} (fits : 2 ^ n * k < 2 ^ w) :
    (round feedback)^[n] (BitVec.ofNat w (2 ^ n * k)) = BitVec.ofNat w k := by
  induction n with
  | zero => rw [Nat.pow_zero,Nat.one_mul]; rfl
  | succ n ih =>
      have double : 2 ^ (n + 1) * k = 2 * (2 ^ n * k) := by ring
      rw [double] at fits ⊢
      rw [Function.iterate_succ_apply,roundEven fits,ih (by omega)]

theorem xorByte (b : UInt8) (v : Nat) : b.toNat ^^^ (256 * v) = b.toNat + 256 * v := by
  have small : b.toNat < 256 := b.toNat_lt
  have high : (b.toNat ^^^ (256 * v)) / 2 ^ 8 = v := by
    rw [Nat.xor_div_two_pow,Nat.div_eq_of_lt small,Nat.mul_div_cancel_left v (by decide),Nat.zero_xor]
  have low : (b.toNat ^^^ (256 * v)) % 2 ^ 8 = b.toNat := by
    rw [Nat.xor_mod_two_pow,Nat.mod_eq_of_lt small,Nat.mul_mod_right,Nat.xor_zero]
  have whole := Nat.div_add_mod (b.toNat ^^^ (256 * v)) (2 ^ 8)
  rw [high,low] at whole
  omega

theorem registerWord (bs : List UInt8) (r : BitVec w) (fits : 8 * bs.length ≤ w) :
    register feedback r bs = (round feedback)^[8 * bs.length] (r ^^^ BitVec.ofNat w (value bs)) := by
  induction bs generalizing r with
  | nil => simp [register,value]
  | cons b rest ih =>
      rw [List.length_cons] at fits
      have room : 256 * value rest < 2 ^ w := by
        have below : 256 * value rest < 256 * 256 ^ rest.length :=
          Nat.mul_lt_mul_of_pos_left (valueLt rest) (by decide)
        have power : 256 * 256 ^ rest.length = 2 ^ (8 * (rest.length + 1)) := by
          rw [Nat.pow_mul,Nat.pow_succ']
        exact below.trans_le (power.trans_le (Nat.pow_le_pow_right (by decide) fits))
      have later : BitVec.ofNat w (value rest) = (round feedback)^[8] (BitVec.ofNat w (256 * value rest)) :=
        (roundsEven 8 room).symm
      calc register feedback r (b :: rest)
          = register feedback (feed feedback r b) rest := rfl
        _ = (round feedback)^[8 * rest.length] (feed feedback r b ^^^ BitVec.ofNat w (value rest)) :=
            ih _ (by omega)
        _ = (round feedback)^[8 * rest.length] ((round feedback)^[8]
              (r ^^^ BitVec.ofNat w b.toNat ^^^ BitVec.ofNat w (256 * value rest))) := by
            rw [later,feed,← roundsXor]
        _ = (round feedback)^[8 * rest.length + 8] (r ^^^ BitVec.ofNat w (value (b :: rest))) := by
            rw [← Function.iterate_add_apply,BitVec.xor_assoc,← BitVec.ofNat_xor,xorByte,value]

theorem burstUnique (top : feedback.msb = true) {front back xs ys : List UInt8} (r : BitVec w)
    (lengths : xs.length = ys.length) (fits : 8 * xs.length ≤ w)
    (same : register feedback r (front ++ (xs ++ back)) = register feedback r (front ++ (ys ++ back))) : xs = ys := by
  simp only [register,List.foldl_append] at same
  have bursts := registerInjective top back same
  have words : register feedback (register feedback r front) xs = register feedback (register feedback r front) ys :=
    bursts
  rw [registerWord xs _ fits,registerWord ys _ (lengths ▸ fits),← lengths] at words
  have values := (BitVec.xor_right_inj _).mp ((roundInjective top).iterate _ words)
  have bound (bs : List UInt8) (short : 8 * bs.length ≤ w) : value bs < 2 ^ w := by
    have power : 256 ^ bs.length = 2 ^ (8 * bs.length) := by rw [Nat.pow_mul]
    exact (valueLt bs).trans_le (power.trans_le (Nat.pow_le_pow_right (by decide) short))
  have numbers : value xs = value ys := by
    have shown := congrArg BitVec.toNat values
    rwa [BitVec.toNat_ofNat,BitVec.toNat_ofNat,Nat.mod_eq_of_lt (bound xs fits),
      Nat.mod_eq_of_lt (bound ys (lengths ▸ fits))] at shown
  rw [← bytesValue xs,← bytesValue ys,numbers,lengths]

theorem residue (payload trailer : List UInt8) (r : BitVec w) (full : 8 * trailer.length = w)
    (closes : BitVec.ofNat w (value trailer) = ~~~(register feedback r payload)) :
    register feedback r (payload ++ trailer) = (round feedback)^[w] (BitVec.allOnes w) := by
  rw [register,List.foldl_append]
  have words : register feedback (register feedback r payload) trailer = (round feedback)^[8 * trailer.length]
      (register feedback r payload ^^^ BitVec.ofNat w (value trailer)) := registerWord trailer _ (Nat.le_of_eq full)
  rw [closes,full] at words
  refine words.trans (congrArg _ ?_)
  rw [BitVec.not_def,BitVec.xor_comm (BitVec.allOnes w),← BitVec.xor_assoc,BitVec.xor_self,BitVec.zero_xor]

end register

end Crc
