import Mathlib.Data.UInt
import SpeculationFabric.ByteFields
import SpeculationFabric.Identity

/-! The binary message of the control plane: a header, three counts and three
sections. Field codes hold any 32-bit value, as the enumeration's underlying type
does; a body is its bytes. Reads are by position and stay inside the payload. -/
namespace SpeculationFabric.Wire

open ByteFields

def maxFrameSize : UInt32 := 16 * 1024 * 1024

def protocolVersion : UInt32 := 1

def frameLenWidth : Nat := 4

structure Msg where
  code : UInt32
  deriving DecidableEq, Repr

namespace Msg

def null : Msg := ⟨0⟩
def hello : Msg := ⟨1⟩
def submitRequest : Msg := ⟨2⟩
def proposalDispatch : Msg := ⟨3⟩
def proposalResult : Msg := ⟨4⟩
def verificationDispatch : Msg := ⟨5⟩
def verificationResult : Msg := ⟨6⟩
def commit : Msg := ⟨7⟩
def reject : Msg := ⟨8⟩
def cancel : Msg := ⟨9⟩
def info : Msg := ⟨10⟩
def shutdown : Msg := ⟨11⟩

def declared : List Msg :=
  [null,hello,submitRequest,proposalDispatch,proposalResult,verificationDispatch,verificationResult,
    commit,reject,cancel,info,shutdown]

end Msg

structure Message where
  protocolVersion : UInt32 := Wire.protocolVersion
  type : Msg := Msg.null
  u64Fields : List UInt64 := []
  u32Fields : List UInt32 := []
  body : List UInt8 := []
  deriving DecidableEq, Repr

def Message.valid (msg : Message) : Bool :=
  decide (msg.protocolVersion = Wire.protocolVersion) && decide (msg.type ≠ Msg.null)

def putU32 (v : UInt32) : List UInt8 :=
  (List.range 4).map fun i => ((v >>> UInt32.ofNat (8 * i)) &&& 0xFF).toUInt8

def putU64 (v : UInt64) : List UInt8 :=
  (List.range 8).map fun i => ((v >>> UInt64.ofNat (8 * i)) &&& 0xFF).toUInt8

def layout (msg : Message) : List UInt8 :=
  putU32 msg.protocolVersion ++ putU32 msg.type.code ++ putU32 (UInt32.ofNat msg.u64Fields.length) ++
    putU32 (UInt32.ofNat msg.u32Fields.length) ++ putU32 (UInt32.ofNat msg.body.length) ++
    msg.u64Fields.flatMap putU64 ++ msg.u32Fields.flatMap putU32 ++ msg.body

def encode (msg : Message) : Result (List UInt8) :=
  if !msg.valid then Result.err .invalidMessage "cannot encode invalid message"
  else if msg.u64Fields.length > 64 ∨ msg.u32Fields.length > 64 ∨ msg.body.length > 1024 * 1024 then
    Result.err .oversizedFrame "message fields exceed protocol limits"
  else .ok (layout msg)

def joinU32 (b0 b1 b2 b3 : UInt8) : UInt32 :=
  b0.toUInt32 ||| (b1.toUInt32 <<< 8) ||| (b2.toUInt32 <<< 16) ||| (b3.toUInt32 <<< 24)

def readU32 (payload : List UInt8) (pos : Nat) : Option (UInt32 × Nat) :=
  if h : pos + 4 > payload.length then none
  else some (joinU32 payload[pos] payload[pos + 1] payload[pos + 2] payload[pos + 3],pos + 4)

/- The three counts are one test of the decoder: the first that is missing ends it. -/
def readCounts (payload : List UInt8) (pos : Nat) : Option (UInt32 × UInt32 × UInt32 × Nat) :=
  match readU32 payload pos with
  | none => none
  | some (n64,pos) =>
      match readU32 payload pos with
      | none => none
      | some (n32,pos) =>
          match readU32 payload pos with
          | none => none
          | some (blen,pos) => some (n64,n32,blen,pos)

def joinU64 (bs : List UInt8) : UInt64 :=
  bs.zipIdx.foldl (fun v at_ => v ||| (at_.1.toUInt64 <<< UInt64.ofNat (8 * at_.2))) 0

def readU64 (payload : List UInt8) (pos : Nat) : Option (UInt64 × Nat) :=
  if h : pos + 8 > payload.length then none
  else some (joinU64 (List.ofFn fun i : Fin 8 => payload[pos + i]),pos + 8)

theorem putU32Bytes (v : UInt32) : putU32 v = bytes 4 v.toNat := by
  rw [bytesRange,putU32]
  apply List.map_congr_left
  intro i inside
  have small : i < 4 := List.mem_range.mp inside
  have shift : (UInt32.ofNat (8 * i)).toNat % 32 = 8 * i := by
    rw [UInt32.toNat_ofNat']
    omega
  have mask : (0xFF : UInt32).toNat = 255 := rfl
  apply UInt8.toNat_inj.mp
  rw [UInt32.toNat_toUInt8,UInt32.toNat_and,UInt32.toNat_shiftRight,shift,mask,maskedByte,UInt8.toNat_ofNat']
  exact Nat.mod_mod _ 256

theorem putU64Bytes (v : UInt64) : putU64 v = bytes 8 v.toNat := by
  rw [bytesRange,putU64]
  apply List.map_congr_left
  intro i inside
  have small : i < 8 := List.mem_range.mp inside
  have shift : (UInt64.ofNat (8 * i)).toNat % 64 = 8 * i := by
    rw [UInt64.toNat_ofNat']
    omega
  have mask : (0xFF : UInt64).toNat = 255 := rfl
  apply UInt8.toNat_inj.mp
  rw [UInt64.toNat_toUInt8,UInt64.toNat_and,UInt64.toNat_shiftRight,shift,mask,maskedByte,UInt8.toNat_ofNat']
  exact Nat.mod_mod _ 256

theorem joinU32Value (b0 b1 b2 b3 : UInt8) : (joinU32 b0 b1 b2 b3).toNat = value [b0,b1,b2,b3] := by
  have second : (b1.toNat <<< 8) % 4294967296 = b1.toNat <<< 8 :=
    Nat.mod_eq_of_lt (shiftedByteLt b1 (k := 1) (w := 4) (by decide))
  have third : (b2.toNat <<< 16) % 4294967296 = b2.toNat <<< 16 :=
    Nat.mod_eq_of_lt (shiftedByteLt b2 (k := 2) (w := 4) (by decide))
  have fourth : (b3.toNat <<< 24) % 4294967296 = b3.toNat <<< 24 :=
    Nat.mod_eq_of_lt (shiftedByteLt b3 (k := 3) (w := 4) (by decide))
  have two : value [b0] ||| b1.toNat <<< 8 = value [b0,b1] := orAppendsByte [b0] b1
  have three : value [b0,b1] ||| b2.toNat <<< 16 = value [b0,b1,b2] := orAppendsByte [b0,b1] b2
  have four : value [b0,b1,b2] ||| b3.toNat <<< 24 = value [b0,b1,b2,b3] := orAppendsByte [b0,b1,b2] b3
  rw [← four,← three,← two]
  simp [joinU32,second,third,fourth,value]

theorem joinU64Value (bs : List UInt8) (short : bs.length ≤ 8) : (joinU64 bs).toNat = value bs := by
  induction bs using List.reverseRecOn with
  | nil => rfl
  | append_singleton bs b ih =>
      have inside : bs.length < 8 := by
        rw [List.length_append] at short
        exact short
      have shift : (UInt64.ofNat (8 * bs.length)).toNat % 64 = 8 * bs.length := by
        rw [UInt64.toNat_ofNat']
        omega
      have digit : (b.toNat <<< (8 * bs.length)) % 2 ^ 64 = b.toNat <<< (8 * bs.length) :=
        Nat.mod_eq_of_lt (shiftedByteLt b (w := 8) inside)
      have step : joinU64 (bs ++ [b]) = joinU64 bs ||| (b.toUInt64 <<< UInt64.ofNat (8 * bs.length)) := by
        simp [joinU64,List.zipIdx_append]
      rw [step,UInt64.toNat_or,UInt64.toNat_shiftLeft,UInt8.toNat_toUInt64,shift,digit,ih (by omega),orAppendsByte]

theorem putU32Length (v : UInt32) : (putU32 v).length = 4 := by rw [putU32Bytes,bytesLength]

theorem putU64Length (v : UInt64) : (putU64 v).length = 8 := by rw [putU64Bytes,bytesLength]

theorem readU32Exact (payload : List UInt8) (pos : Nat) (v : UInt32) (next : Nat) :
    readU32 payload pos = some (v,next) ↔
      payload.drop pos = putU32 v ++ payload.drop next ∧ next = pos + (putU32 v).length := by
  rw [putU32Bytes]
  apply wordRead (fun _ _ => UInt32.toNat_inj.mp) (by decide) _ _ v.toNat_lt
  · intro short
    rw [readU32,dif_pos short]
  · intro inside
    rw [readU32,dif_neg (Nat.not_lt.mpr inside)]
    exact ⟨_,rfl,by rw [joinU32Value,← window inside]; rfl⟩

theorem readU64Exact (payload : List UInt8) (pos : Nat) (v : UInt64) (next : Nat) :
    readU64 payload pos = some (v,next) ↔
      payload.drop pos = putU64 v ++ payload.drop next ∧ next = pos + (putU64 v).length := by
  rw [putU64Bytes]
  apply wordRead (fun _ _ => UInt64.toNat_inj.mp) (by decide) _ _ v.toNat_lt
  · intro short
    rw [readU64,dif_pos short]
  · intro inside
    rw [readU64,dif_neg (Nat.not_lt.mpr inside)]
    exact ⟨_,rfl,by rw [joinU64Value _ (by simp),window inside]⟩

def u32Field : ByteField UInt32 := ⟨putU32,readU32,readU32Exact⟩

def u64Field : ByteField UInt64 := ⟨putU64,readU64,readU64Exact⟩

def decode (payload : List UInt8) : Result Message :=
  if payload.length < 20 then Result.err .truncatedFrame "payload too short"
  else match readU32 payload 0 with
  | none => Result.err .truncatedFrame "missing protocol version"
  | some (version,pos) =>
  if version ≠ protocolVersion then Result.err .unknownProtocolVersion "unknown protocol version"
  else match readU32 payload pos with
  | none => Result.err .truncatedFrame "missing message type"
  | some (t,pos) =>
  if (⟨t⟩ : Msg) = Msg.null ∨ t > Msg.shutdown.code then
    Result.err .unknownMessageType ("unknown message type " ++ toString t)
  else match readCounts payload pos with
  | none => Result.err .truncatedFrame "missing field counts"
  | some (n64,n32,blen,pos) =>
  if n64 > 64 ∨ n32 > 64 ∨ blen > 1024 * 1024 then Result.err .oversizedFrame "field counts exceed limits"
  else match u64Field.readMany n64.toNat payload pos with
  | none => Result.err .truncatedFrame "truncated u64 field"
  | some (u64Fields,pos) =>
  match u32Field.readMany n32.toNat payload pos with
  | none => Result.err .truncatedFrame "truncated u32 field"
  | some (u32Fields,pos) =>
  -- `pos` is at most the size here, so the unsigned difference does not wrap
  if blen.toNat > payload.length - pos then Result.err .truncatedFrame "truncated body"
  else if pos + blen.toNat ≠ payload.length then Result.err .malformed "trailing bytes in payload"
  else .ok ⟨version,⟨t⟩,u64Fields,u32Fields,(payload.drop pos).take blen.toNat⟩

/- The messages both sides agree on: the current version, a declared type other than
Null, and the three limits. -/
structure Conforming (msg : Message) : Prop where
  version : msg.protocolVersion = protocolVersion
  declared : msg.type ∈ Msg.declared
  notNull : msg.type ≠ Msg.null
  u64Limit : msg.u64Fields.length ≤ 64
  u32Limit : msg.u32Fields.length ≤ 64
  bodyLimit : msg.body.length ≤ 1024 * 1024

theorem declaredRange : Msg.declared = (List.range 12).map fun n => ⟨UInt32.ofNat n⟩ := rfl

theorem declaredCodes (t : Msg) : t ∈ Msg.declared ↔ t.code ≤ Msg.shutdown.code := by
  rw [declaredRange,List.mem_map]
  constructor
  · rintro ⟨n,small,rfl⟩
    have low : n < 12 := List.mem_range.mp small
    have shown : (UInt32.ofNat n).toNat = n := by
      rw [UInt32.toNat_ofNat']
      omega
    exact UInt32.le_iff_toNat_le.mpr (by rw [shown]; exact Nat.le_of_lt_succ low)
  · intro low
    exact ⟨t.code.toNat,List.mem_range.mpr (Nat.lt_succ_of_le low),by rw [UInt32.ofNat_toNat]⟩

theorem layoutLength (msg : Message) :
    (layout msg).length = 20 + 8 * msg.u64Fields.length + 4 * msg.u32Fields.length + msg.body.length := by
  simp [layout,putU32Length,putU64Length,List.length_flatMap]
  omega

theorem encodeExact (msg : Message) (payload : List UInt8) :
    encode msg = .ok payload ↔
      msg.valid = true ∧ msg.u64Fields.length ≤ 64 ∧ msg.u32Fields.length ≤ 64 ∧
        msg.body.length ≤ 1024 * 1024 ∧ layout msg = payload := by
  rw [encode]
  split
  · rename_i invalid
    constructor
    · intro written
      cases written
    · intro sound
      rw [sound.1] at invalid
      cases invalid
  · rename_i valid
    split
    · rename_i large
      constructor
      · intro written
        cases written
      · rintro ⟨_,u64s,u32s,body,_⟩
        omega
    · rename_i small
      rw [Except.ok.injEq]
      constructor
      · intro written
        exact ⟨by simpa using valid,by omega,by omega,by omega,written⟩
      · intro sound
        exact sound.2.2.2.2

theorem readsU32 {payload : List UInt8} {pos : Nat} {v : UInt32} {rest : List UInt8}
    (here : payload.drop pos = putU32 v ++ rest) :
    readU32 payload pos = some (v,pos + 4) ∧ payload.drop (pos + 4) = rest := by
  have reads := u32Field.readsNext here
  rw [show (u32Field.put v).length = 4 from putU32Length v] at reads
  exact reads

theorem countsCases {payload : List UInt8} {pos : Nat} {n64 n32 blen : UInt32} {next : Nat}
    (reads : readCounts payload pos = some (n64,n32,blen,next)) :
    ∃ p1 p2, readU32 payload pos = some (n64,p1) ∧ readU32 payload p1 = some (n32,p2) ∧
      readU32 payload p2 = some (blen,next) := by
  rw [readCounts] at reads
  cases first : readU32 payload pos with
  | none =>
      simp only [first] at reads
      contradiction
  | some one =>
      simp only [first] at reads
      cases second : readU32 payload one.2 with
      | none =>
          simp only [second] at reads
          contradiction
      | some two =>
          simp only [second] at reads
          cases third : readU32 payload two.2 with
          | none =>
              simp only [third] at reads
              contradiction
          | some three =>
              simp only [third] at reads
              cases Option.some.inj reads
              exact ⟨one.2,two.2,rfl,second,third⟩

theorem countsRead {payload : List UInt8} {pos : Nat} {n64 n32 blen : UInt32} {next : Nat}
    (reads : readCounts payload pos = some (n64,n32,blen,next)) :
    payload.drop pos = putU32 n64 ++ (putU32 n32 ++ (putU32 blen ++ payload.drop next)) := by
  obtain ⟨p1,p2,first,second,third⟩ := countsCases reads
  rw [((readU32Exact _ _ _ _).mp first).1,((readU32Exact _ _ _ _).mp second).1,((readU32Exact _ _ _ _).mp third).1]

theorem readsCounts {payload : List UInt8} {pos : Nat} {n64 n32 blen : UInt32} {rest : List UInt8}
    (here : payload.drop pos = putU32 n64 ++ (putU32 n32 ++ (putU32 blen ++ rest))) :
    readCounts payload pos = some (n64,n32,blen,pos + 12) ∧ payload.drop (pos + 12) = rest := by
  obtain ⟨first,there⟩ := readsU32 here
  obtain ⟨second,later⟩ := readsU32 there
  obtain ⟨third,after⟩ := readsU32 later
  exact ⟨by simp only [readCounts,first,second,third],after⟩

theorem decodeCases {payload : List UInt8} {msg : Message} (reads : decode payload = .ok msg) :
    ∃ p1 p2 p3 p4 p5 n64 n32 blen,
      readU32 payload 0 = some (protocolVersion,p1) ∧ msg.protocolVersion = protocolVersion ∧
      readU32 payload p1 = some (msg.type.code,p2) ∧ msg.type ≠ Msg.null ∧ msg.type.code ≤ Msg.shutdown.code ∧
      readCounts payload p2 = some (n64,n32,blen,p3) ∧ n64 ≤ 64 ∧ n32 ≤ 64 ∧ blen ≤ 1024 * 1024 ∧
      u64Field.readMany n64.toNat payload p3 = some (msg.u64Fields,p4) ∧
      u32Field.readMany n32.toNat payload p4 = some (msg.u32Fields,p5) ∧
      blen.toNat ≤ payload.length - p5 ∧ p5 + blen.toNat = payload.length ∧
      msg.body = (payload.drop p5).take blen.toNat := by
  rw [decode] at reads
  split at reads
  · cases reads
  split at reads
  · cases reads
  rename_i version p1 readsVersion
  split at reads
  · cases reads
  rename_i sameVersion
  split at reads
  · cases reads
  rename_i t p2 readsType
  split at reads
  · cases reads
  rename_i known
  split at reads
  · cases reads
  rename_i n64 n32 blen p3 readsCounts
  split at reads
  · cases reads
  rename_i limits
  split at reads
  · cases reads
  rename_i u64s p4 reads64
  split at reads
  · cases reads
  rename_i u32s p5 reads32
  split at reads
  · cases reads
  rename_i fits
  split at reads
  · cases reads
  rename_i ends
  cases reads
  cases Decidable.not_not.mp sameVersion
  push Not at known limits
  exact ⟨p1,p2,p3,p4,p5,n64,n32,blen,readsVersion,rfl,readsType,known.1,by simpa using known.2,readsCounts,
    by simpa using limits.1,by simpa using limits.2.1,by simpa using limits.2.2,reads64,reads32,by omega,
    Decidable.not_not.mp ends,rfl⟩

theorem decodedConforms {payload : List UInt8} {msg : Message} (reads : decode payload = .ok msg) :
    Conforming msg := by
  obtain ⟨p1,p2,p3,p4,p5,n64,n32,blen,_,version,_,notNull,low,_,limit64,limit32,limitBody,reads64,reads32,fits,_,body⟩ :=
    decodeCases reads
  obtain ⟨count64,_⟩ := u64Field.manyReads reads64
  obtain ⟨count32,_⟩ := u32Field.manyReads reads32
  have bodyLength : msg.body.length ≤ blen.toNat := by
    rw [body]
    exact List.length_take_le _ _
  exact ⟨version,(declaredCodes _).mpr low,notNull,count64 ▸ limit64,count32 ▸ limit32,
    Nat.le_trans bodyLength limitBody⟩

theorem decodedLayout {payload : List UInt8} {msg : Message} (reads : decode payload = .ok msg) :
    layout msg = payload := by
  obtain ⟨p1,p2,p3,p4,p5,n64,n32,blen,readsVersion,version,readsType,_,_,readsCounts,_,_,_,reads64,reads32,_,ends,body⟩ :=
    decodeCases reads
  obtain ⟨atStart,_⟩ := (readU32Exact _ _ _ _).mp readsVersion
  obtain ⟨atType,_⟩ := (readU32Exact _ _ _ _).mp readsType
  have atCounts := countsRead readsCounts
  obtain ⟨count64,at64⟩ := u64Field.manyReads reads64
  obtain ⟨count32,at32⟩ := u32Field.manyReads reads32
  have bodyIs : payload.drop p5 = msg.body := by
    rw [body,List.take_of_length_le]
    rw [List.length_drop]
    omega
  have bodyCount : msg.body.length = blen.toNat := by
    rw [← bodyIs,List.length_drop]
    omega
  calc layout msg
      = putU32 protocolVersion ++ (putU32 msg.type.code ++ (putU32 n64 ++ (putU32 n32 ++ (putU32 blen ++
          (msg.u64Fields.flatMap putU64 ++ (msg.u32Fields.flatMap putU32 ++ payload.drop p5)))))) := by
        rw [layout,version,count64,count32,bodyCount,bodyIs]
        simp only [UInt32.ofNat_toNat,List.append_assoc]
    _ = putU32 protocolVersion ++ (putU32 msg.type.code ++ (putU32 n64 ++ (putU32 n32 ++ (putU32 blen ++
          payload.drop p3)))) := by
        rw [at64,at32]
        rfl
    _ = payload := by rw [← atCounts,← atType,← atStart,List.drop_zero]

theorem Conforming.counts {msg : Message} (sound : Conforming msg) :
    (UInt32.ofNat msg.u64Fields.length).toNat = msg.u64Fields.length ∧
    (UInt32.ofNat msg.u32Fields.length).toNat = msg.u32Fields.length ∧
    (UInt32.ofNat msg.body.length).toNat = msg.body.length := by
  have u64s := sound.u64Limit
  have u32s := sound.u32Limit
  have body := sound.bodyLimit
  exact ⟨UInt32.toNat_ofNat_of_lt' (by simp only [UInt32.size]; omega),
    UInt32.toNat_ofNat_of_lt' (by simp only [UInt32.size]; omega),
    UInt32.toNat_ofNat_of_lt' (by simp only [UInt32.size]; omega)⟩

theorem Conforming.known {msg : Message} (sound : Conforming msg) :
    ¬(msg.type = Msg.null ∨ msg.type.code > Msg.shutdown.code) := by
  rw [not_or,gt_iff_lt,UInt32.not_lt]
  exact ⟨sound.notNull,(declaredCodes _).mp sound.declared⟩

theorem Conforming.limits {msg : Message} (sound : Conforming msg) :
    ¬(UInt32.ofNat msg.u64Fields.length > 64 ∨ UInt32.ofNat msg.u32Fields.length > 64 ∨
      UInt32.ofNat msg.body.length > 1024 * 1024) := by
  obtain ⟨n64,n32,blen⟩ := sound.counts
  rw [not_or,not_or,gt_iff_lt,gt_iff_lt,gt_iff_lt,UInt32.not_lt,UInt32.not_lt,UInt32.not_lt]
  exact ⟨n64.trans_le sound.u64Limit,n32.trans_le sound.u32Limit,blen.trans_le sound.bodyLimit⟩

theorem layoutDecodes {msg : Message} (sound : Conforming msg) : decode (layout msg) = .ok msg := by
  have long : 20 ≤ (layout msg).length := by
    rw [layoutLength]
    omega
  obtain ⟨n64,n32,blen⟩ := sound.counts
  generalize written : layout msg = payload at long ⊢
  have atStart : payload.drop 0 = putU32 msg.protocolVersion ++ (putU32 msg.type.code ++
      (putU32 (UInt32.ofNat msg.u64Fields.length) ++ (putU32 (UInt32.ofNat msg.u32Fields.length) ++
        (putU32 (UInt32.ofNat msg.body.length) ++
          (msg.u64Fields.flatMap putU64 ++ (msg.u32Fields.flatMap putU32 ++ msg.body)))))) := by
    rw [← written,layout,List.drop_zero]
    simp only [List.append_assoc]
  obtain ⟨readsVersion,atType⟩ := readsU32 atStart
  obtain ⟨readsType,atCounts⟩ := readsU32 atType
  obtain ⟨readsThree,at64⟩ := readsCounts atCounts
  obtain ⟨reads64,at32⟩ := u64Field.readsMany at64
  obtain ⟨reads32,atBody⟩ := u32Field.readsMany at32
  generalize place : 0 + 4 + 4 + 12 + (msg.u64Fields.flatMap u64Field.put).length +
    (msg.u32Fields.flatMap u32Field.put).length = last at reads32 atBody
  have ends : last + msg.body.length = payload.length := by
    have total := congrArg List.length atStart
    simp only [List.drop_zero,List.length_append,putU32Length] at total
    simp only [u64Field,u32Field] at place
    omega
  rw [decode,if_neg (Nat.not_lt.mpr long)]
  simp only [readsVersion]
  rw [if_neg (not_not.mpr sound.version)]
  simp only [readsType]
  rw [if_neg sound.known]
  simp only [readsThree]
  rw [if_neg sound.limits]
  simp only [n64,n32,blen,reads64,reads32]
  rw [if_neg (by omega),if_neg (not_not.mpr ends),atBody,List.take_length]

theorem decodeExact (payload : List UInt8) (msg : Message) :
    decode payload = .ok msg ↔ Conforming msg ∧ encode msg = .ok payload := by
  constructor
  · intro reads
    have sound := decodedConforms reads
    exact ⟨sound,(encodeExact _ _).mpr ⟨by simp [Message.valid,sound.version,sound.notNull],sound.u64Limit,
      sound.u32Limit,sound.bodyLimit,decodedLayout reads⟩⟩
  · rintro ⟨sound,written⟩
    obtain ⟨_,_,_,_,rfl⟩ := (encodeExact _ _).mp written
    exact layoutDecodes sound

theorem conformingEncodes {msg : Message} (sound : Conforming msg) : encode msg = .ok (layout msg) :=
  ((decodeExact _ _).mp (layoutDecodes sound)).2

theorem payloadsCorrespond :
    (∀ msg, Conforming msg → ∃ payload, encode msg = .ok payload ∧ decode payload = .ok msg) ∧
    (∀ payload msg, decode payload = .ok msg → encode msg = .ok payload) ∧
    (∀ payload, (∃ msg, decode payload = .ok msg) ↔ ∃ msg, Conforming msg ∧ encode msg = .ok payload) ∧
    (∀ first second msg, decode first = .ok msg → decode second = .ok msg → first = second) := by
  refine ⟨?_,?_,?_,?_⟩
  · intro msg sound
    exact ⟨layout msg,conformingEncodes sound,layoutDecodes sound⟩
  · intro payload msg reads
    exact ((decodeExact _ _).mp reads).2
  · intro payload
    exact exists_congr (decodeExact payload)
  · intro first second msg readsFirst readsSecond
    rw [← decodedLayout readsFirst,decodedLayout readsSecond]

def identityMessage : Message :=
  { type := Msg.proposalResult
    u64Fields := [1,2,0xFFFFFFFFFFFFFFFF,0x123456789ABCDEF0]
    u32Fields := [5,4096]
    body := [0x6F,0x6B] }

theorem identityConforms : Conforming identityMessage :=
  ⟨rfl,by decide,by decide,by decide,by decide,by decide⟩

theorem identityRoundTrip :
    Conforming identityMessage ∧
      ∃ payload, encode identityMessage = .ok payload ∧ decode payload = .ok identityMessage :=
  ⟨identityConforms,payloadsCorrespond.1 identityMessage identityConforms⟩

end SpeculationFabric.Wire
