import SpeculationFabric.Crc
import SpeculationFabric.Archives

/-! Burst errors in an archive. The checksum of the source is a reflected register of 32
bits, and the trailer closes the payload by the register's complement in the register's
own byte order. So one register over the whole blob, the trailer included, separates a
blob from every other that differs from it in four consecutive bytes. -/
namespace SpeculationFabric.Persistence

open ByteFields
open Wire

def crcFeedback : BitVec 32 := 0xEDB88320#32

theorem crcRoundRegister (crc : UInt32) : (crcRound crc).toBitVec = Crc.round crcFeedback crc.toBitVec := by
  have mask : (0xEDB88320 &&& -(crc &&& 1) : UInt32).toBitVec =
      if crc.toBitVec.getLsbD 0 then crcFeedback else 0#32 := by
    show crcFeedback &&& -(crc.toBitVec &&& 1#32) = _
    rw [BitVec.and_one_eq_setWidth_ofBool_getLsbD]
    cases crc.toBitVec.getLsbD 0 <;> rfl
  rw [Crc.round,crcRound,UInt32.toBitVec_xor,mask]
  rfl

theorem crcRoundsRegister (n : Nat) (crc : UInt32) :
    (crcRound^[n] crc).toBitVec = (Crc.round crcFeedback)^[n] crc.toBitVec := by
  induction n generalizing crc with
  | zero => rfl
  | succ n ih => rw [Function.iterate_succ_apply,ih,crcRoundRegister,Function.iterate_succ_apply]

theorem crcRegister (data : List UInt8) (crc : UInt32) :
    (data.foldl (fun crc byte => Nat.iterate crcRound 8 (crc ^^^ byte.toUInt32)) crc).toBitVec =
      Crc.register crcFeedback crc.toBitVec data := by
  induction data generalizing crc with
  | nil => rfl
  | cons byte rest ih =>
      have word : byte.toUInt32.toBitVec = BitVec.ofNat 32 byte.toNat := by
        apply BitVec.eq_of_toNat_eq
        have small : byte.toNat < 256 := byte.toNat_lt
        rw [BitVec.toNat_ofNat,Nat.mod_eq_of_lt (by omega)]
        exact UInt8.toNat_toUInt32 byte
      rw [List.foldl_cons,ih,crcRoundsRegister,UInt32.toBitVec_xor,word]
      rfl

def crcStart : BitVec 32 := BitVec.allOnes 32

theorem crc32Register (data : List UInt8) :
    (crc32 data).toBitVec = ~~~(Crc.register crcFeedback crcStart data) := by
  rw [crc32,UInt32.toBitVec_not,crcRegister]
  rfl

theorem checkedResidue {blob : List UInt8} (checked : Checked blob) :
    Crc.register crcFeedback crcStart blob = (Crc.round crcFeedback)^[32] (BitVec.allOnes 32) := by
  obtain ⟨_,payload,rfl⟩ := checked
  refine Crc.residue payload _ _ (by rw [putU32Length]) ?_
  rw [← crc32Register,putU32Bytes,valueBytes]
  apply BitVec.eq_of_toNat_eq
  rw [BitVec.toNat_ofNat]
  exact (Nat.mod_mod _ _).trans (Nat.mod_eq_of_lt (crc32 payload).toNat_lt)

theorem aroundWindow {blob out : List UInt8} {start : Nat} (lengths : blob.length = out.length) (long : 4 ≤ out.length)
    (agree : ∀ i, i < start ∨ start + 4 ≤ i → blob[i]? = out[i]?) :
    ∃ front back xs ys : List UInt8, blob = front ++ (xs ++ back) ∧ out = front ++ (ys ++ back) ∧
      xs.length = 4 ∧ ys.length = 4 := by
  -- a window that runs past the end is moved back to lie inside
  let first := min start (out.length - 4)
  have fronts : blob.take first = out.take first := by
    apply List.ext_getElem?
    intro i
    rw [List.getElem?_take,List.getElem?_take]
    split
    · exact agree i (.inl (by omega))
    · rfl
  have backs : blob.drop (first + 4) = out.drop (first + 4) := by
    apply List.ext_getElem?
    intro i
    rw [List.getElem?_drop,List.getElem?_drop]
    by_cases later : start + 4 ≤ first + 4 + i
    · exact agree _ (.inr later)
    · rw [List.getElem?_eq_none (by omega),List.getElem?_eq_none (by omega)]
  have parts (bs : List UInt8) : bs = bs.take first ++ ((bs.drop first).take 4 ++ bs.drop (first + 4)) := by
    rw [← List.drop_drop,List.take_append_drop,List.take_append_drop]
  refine ⟨out.take first,out.drop (first + 4),(blob.drop first).take 4,(out.drop first).take 4,?_,parts out,?_,?_⟩
  · rw [← fronts,← backs]
    exact parts blob
  · rw [List.length_take,List.length_drop]
    omega
  · rw [List.length_take,List.length_drop]
    omega

theorem uncheckedCorrupt {blob : List UInt8} (long : 24 ≤ blob.length) (unchecked : ¬Checked blob) :
    deserializeArchive blob = Result.err .corrupt "archive checksum mismatch" := by
  have enough : ¬blob.length < 24 := Nat.not_lt.mpr long
  rw [deserializeArchive,dif_neg enough,if_neg (by omega),if_pos]
  intro same
  exact unchecked ((checkedExact enough).mp same)

theorem burstsDetected (archive : StateArchive) (out blob : List UInt8) (start : Nat)
    (written : serializeArchive archive = .ok out) (lengths : blob.length = out.length)
    (window : ∀ i, i < start ∨ start + 4 ≤ i → blob[i]? = out[i]?) (differs : blob ≠ out) :
    deserializeArchive blob = Result.err .corrupt "archive checksum mismatch" := by
  cases Except.ok.inj written
  have closed := serializedChecked archive
  have long := closed.1
  refine uncheckedCorrupt (lengths ▸ long) ?_
  intro checked
  have registers := (checkedResidue checked).trans (checkedResidue closed).symm
  obtain ⟨front,back,xs,ys,left,right,sizes,size⟩ := aroundWindow lengths (by omega) window
  rw [left,right] at registers
  have same := Crc.burstUnique (by decide) crcStart (sizes.trans size.symm) (by omega) registers
  exact differs (by rw [left,right,same])

/- A burst over the last payload bytes and the first of the trailer. -/
theorem straddlingBurst : ∃ out blob, serializeArchive {} = .ok out ∧ blob.length = out.length ∧ blob ≠ out ∧
    (blob.drop 18).take 4 = [0,1,0x80,7] ∧
    deserializeArchive blob = Result.err .corrupt "archive checksum mismatch" := by
  have outside (bs : List UInt8) (i : Nat) (away : i < 18 ∨ 18 + 4 ≤ i) :
      ((((bs.set 18 0).set 19 1).set 20 0x80).set 21 7)[i]? = bs[i]? := by
    simp only [List.getElem?_set]
    rw [if_neg (by omega),if_neg (by omega),if_neg (by omega),if_neg (by omega)]
  refine ⟨_,_,rfl,?_,?_,?_,burstsDetected {} _ _ 18 rfl ?_ (outside _) ?_⟩
  all_goals decide +kernel

end SpeculationFabric.Persistence
