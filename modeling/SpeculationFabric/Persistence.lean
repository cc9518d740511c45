import SpeculationFabric.Records
import SpeculationFabric.Wire

/-! The binary archive of authoritative state: a header, the recoverable part of each
request and a CRC-32 over everything before it. The reader runs over the whole blob,
the checksum included, as the source's does; the file behind a store is not modelled. -/
namespace SpeculationFabric.Persistence

open ByteFields
open Wire

def maxRequests : UInt32 := 1000000

def maxTokensPerRequest : UInt32 := 1000000

structure PersistedRequest where
  id : RequestId := ⟨0⟩
  sequence : SequenceId := ⟨0⟩
  attempt : AttemptId := ⟨0⟩
  epoch : CoordinatorEpoch := ⟨0⟩
  authGen : AuthGeneration := ⟨0⟩
  authState : StateRef := {}
  committed : List UInt32 := []
  deriving DecidableEq, Repr

structure StateArchive where
  formatVersion : UInt32 := 1
  epoch : CoordinatorEpoch := ⟨0⟩
  requests : List PersistedRequest := []
  deriving DecidableEq, Repr

def crcRound (crc : UInt32) : UInt32 :=
  let mask := -(crc &&& 1)
  (crc >>> 1) ^^^ (0xEDB88320 &&& mask)

def crc32 (data : List UInt8) : UInt32 :=
  ~~~(data.foldl (fun crc byte => Nat.iterate crcRound 8 (crc ^^^ byte.toUInt32)) 0xFFFFFFFF)

def magic : List UInt8 := [0x53,0x46,0x41,0x52]

def writeRequest (r : PersistedRequest) : List UInt8 :=
  putU64 r.id.value ++ putU64 r.sequence.value ++ putU64 r.attempt.value ++ putU64 r.epoch.value ++
    putU64 r.authGen.value ++ putU64 r.authState.id.value ++ putU64 r.authState.generation.value ++
    putU32 (UInt32.ofNat r.committed.length) ++ r.committed.flatMap putU32

def writeArchive (archive : StateArchive) : List UInt8 :=
  magic ++ putU32 archive.formatVersion ++ putU64 archive.epoch.value ++
    putU32 (UInt32.ofNat archive.requests.length) ++ archive.requests.flatMap writeRequest

def serializeArchive (archive : StateArchive) : Result (List UInt8) :=
  let payload := writeArchive archive
  .ok (payload ++ putU32 (crc32 payload))

def readU8 (blob : List UInt8) (pos : Nat) : Option (UInt8 × Nat) :=
  if h : pos + 1 > blob.length then none else some (blob[pos],pos + 1)

def readMagic (blob : List UInt8) : Option Nat := do
  let (m0,pos) ← readU8 blob 0
  let (m1,pos) ← readU8 blob pos
  let (m2,pos) ← readU8 blob pos
  let (m3,pos) ← readU8 blob pos
  if m0 ≠ 0x53 ∨ m1 ≠ 0x46 ∨ m2 ≠ 0x41 ∨ m3 ≠ 0x52 then none else some pos

def field {A : Type} (read : Option (A × Nat)) (text : String) : Result (A × Nat) :=
  match read with
  | none => Result.err .truncatedFrame text
  | some found => .ok found

def readRequest (blob : List UInt8) (pos : Nat) : Result (PersistedRequest × Nat) := do
  let (id,pos) ← field (readU64 blob pos) "request id"
  let (sequence,pos) ← field (readU64 blob pos) "sequence"
  let (attempt,pos) ← field (readU64 blob pos) "attempt"
  let (epoch,pos) ← field (readU64 blob pos) "epoch"
  let (authGen,pos) ← field (readU64 blob pos) "auth_gen"
  let (stateId,pos) ← field (readU64 blob pos) "state id"
  let (stateGen,pos) ← field (readU64 blob pos) "state gen"
  let (tcount,pos) ← field (readU32 blob pos) "token count"
  if tcount > maxTokensPerRequest then Result.err .outOfRange "token count too large"
  else do
    let (committed,pos) ← field (u32Field.readMany tcount.toNat blob pos) "token"
    .ok (⟨⟨id⟩,⟨sequence⟩,⟨attempt⟩,⟨epoch⟩,⟨authGen⟩,⟨⟨stateId⟩,⟨stateGen⟩⟩,committed⟩,pos)

def readRequests : Nat → List UInt8 → Nat → Result (List PersistedRequest × Nat)
  | 0, _, pos => .ok ([],pos)
  | n + 1, blob, pos => do
      let (r,pos) ← readRequest blob pos
      let (rest,pos) ← readRequests n blob pos
      .ok (r :: rest,pos)

def readArchive (blob : List UInt8) : Result (StateArchive × Nat) :=
  match readMagic blob with
  | none => Result.err .malformed "bad magic"
  | some pos => do
      let (version,pos) ← field (readU32 blob pos) "missing version"
      if version ≠ 1 then
        Result.err .unknownProtocolVersion ("unsupported archive version " ++ toString version)
      else do
        let (epoch,pos) ← field (readU64 blob pos) "missing epoch"
        let (count,pos) ← field (readU32 blob pos) "missing count"
        if count > maxRequests then Result.err .outOfRange "request count too large"
        else do
          let (requests,pos) ← readRequests count.toNat blob pos
          .ok (⟨version,⟨epoch⟩,requests⟩,pos)

def storedCrc (blob : List UInt8) (long : ¬blob.length < 24) : UInt32 :=
  joinU32 (blob.get ⟨blob.length - 4,by omega⟩) (blob.get ⟨blob.length - 4 + 1,by omega⟩)
    (blob.get ⟨blob.length - 4 + 2,by omega⟩) (blob.get ⟨blob.length - 4 + 3,by omega⟩)

def deserializeArchive (blob : List UInt8) : Result StateArchive :=
  if long : blob.length < 24 then Result.err .truncatedFrame "archive is truncated"
  else if blob.length < 4 then Result.err .corrupt "archive has no checksum"
  else if storedCrc blob long ≠ crc32 (blob.take (blob.length - 4)) then
    Result.err .corrupt "archive checksum mismatch"
  else do
    -- the bytes that remain after the last request are not looked at
    let (archive,_) ← readArchive blob
    .ok archive

theorem bindOk {A B : Type} {x : Result A} {f : A → Result B} {b : B} :
    (x >>= f) = .ok b ↔ ∃ a, x = .ok a ∧ f a = .ok b := by
  cases x with
  | error e => simp [bind,Except.bind]
  | ok a => simp [bind,Except.bind]

theorem fieldOk {A : Type} {read : Option (A × Nat)} {text : String} {v : A} {next : Nat} :
    field read text = .ok (v,next) ↔ read = some (v,next) := by
  cases read with
  | none => simp [field,Result.err]
  | some found => simp [field]

theorem limitOk {B : Type} {big : Prop} [Decidable big] {code : ErrorCode} {text : String} {rest : Result B} {b : B} :
    (if big then Result.err code text else rest) = .ok b ↔ ¬big ∧ rest = .ok b := by
  split
  · rename_i large
    simp [Result.err,large]
  · rename_i under
    simp [under]

theorem writeRequestLength (r : PersistedRequest) : (writeRequest r).length = 60 + 4 * r.committed.length := by
  simp [writeRequest,putU32Length,putU64Length,List.length_flatMap]
  omega

theorem writeArchiveLength (archive : StateArchive) :
    (writeArchive archive).length = 20 + (archive.requests.flatMap writeRequest).length := by
  simp only [writeArchive,magic,List.length_append,putU32Length,putU64Length,List.length_cons,List.length_nil]

theorem countKept {n : Nat} (small : n ≤ 1000000) : (UInt32.ofNat n).toNat = n :=
  UInt32.toNat_ofNat_of_lt' (by simp only [UInt32.size]; omega)

theorem readU8Exact (blob : List UInt8) (pos : Nat) (v : UInt8) (next : Nat) :
    readU8 blob pos = some (v,next) ↔ blob.drop pos = [v] ++ blob.drop next ∧ next = pos + [v].length := by
  constructor
  · intro reads
    rw [readU8] at reads
    split at reads
    · cases reads
    · cases reads
      exact ⟨List.drop_eq_getElem_cons _,rfl⟩
  · rintro ⟨here,rfl⟩
    have inside : pos < blob.length := by
      have size := congrArg List.length here
      simp only [List.length_drop,List.length_append,List.length_cons] at size
      omega
    rw [List.drop_eq_getElem_cons inside,List.singleton_append,List.cons.injEq] at here
    rw [readU8,dif_neg (by omega),here.1]
    rfl

def u8Field : ByteField UInt8 := ⟨fun v => [v],readU8,readU8Exact⟩

theorem readMagicExact (blob : List UInt8) (pos : Nat) :
    readMagic blob = some pos ↔ blob = magic ++ blob.drop pos ∧ pos = 4 := by
  constructor
  · intro reads
    simp only [readMagic,bind,Option.bind_eq_some_iff,Prod.exists] at reads
    obtain ⟨m0,p0,read0,m1,p1,read1,m2,p2,read2,m3,p3,read3,last⟩ := reads
    split at last
    · cases last
    rename_i same
    push Not at same
    obtain ⟨rfl,rfl,rfl,rfl⟩ := same
    cases Option.some.inj last
    obtain ⟨at0,rfl⟩ := (readU8Exact _ _ _ _).mp read0
    obtain ⟨at1,rfl⟩ := (readU8Exact _ _ _ _).mp read1
    obtain ⟨at2,rfl⟩ := (readU8Exact _ _ _ _).mp read2
    obtain ⟨at3,rfl⟩ := (readU8Exact _ _ _ _).mp read3
    rw [at1,at2,at3,List.drop_zero] at at0
    exact ⟨at0,rfl⟩
  · rintro ⟨here,rfl⟩
    have at0 : blob.drop 0 = magic ++ blob.drop 4 := here
    obtain ⟨read0,at1⟩ := u8Field.readsNext at0
    obtain ⟨read1,at2⟩ := u8Field.readsNext at1
    obtain ⟨read2,at3⟩ := u8Field.readsNext at2
    obtain ⟨read3,_⟩ := u8Field.readsNext at3
    change readU8 blob 0 = some (0x53,1) at read0
    change readU8 blob 1 = some (0x46,2) at read1
    change readU8 blob 2 = some (0x41,3) at read2
    change readU8 blob 3 = some (0x52,4) at read3
    simp [readMagic,read0,read1,read2,read3]

theorem readRequestExact (blob : List UInt8) (pos : Nat) (r : PersistedRequest) (next : Nat) :
    readRequest blob pos = .ok (r,next) ↔
      r.committed.length ≤ 1000000 ∧ blob.drop pos = writeRequest r ++ blob.drop next ∧
        next = pos + (writeRequest r).length := by
  constructor
  · intro reads
    simp only [readRequest,bindOk,fieldOk,limitOk,Prod.exists,Except.ok.injEq,Prod.mk.injEq] at reads
    obtain ⟨id,p1,atId,sequence,p2,atSequence,attempt,p3,atAttempt,epoch,p4,atEpoch,authGen,p5,atAuthGen,stateId,p6,
      atStateId,stateGen,p7,atStateGen,tcount,p8,atCount,limit,committed,p9,atTokens,rfl,rfl⟩ := reads
    obtain ⟨at1,rfl⟩ := (readU64Exact _ _ _ _).mp atId
    obtain ⟨at2,rfl⟩ := (readU64Exact _ _ _ _).mp atSequence
    obtain ⟨at3,rfl⟩ := (readU64Exact _ _ _ _).mp atAttempt
    obtain ⟨at4,rfl⟩ := (readU64Exact _ _ _ _).mp atEpoch
    obtain ⟨at5,rfl⟩ := (readU64Exact _ _ _ _).mp atAuthGen
    obtain ⟨at6,rfl⟩ := (readU64Exact _ _ _ _).mp atStateId
    obtain ⟨at7,rfl⟩ := (readU64Exact _ _ _ _).mp atStateGen
    obtain ⟨at8,rfl⟩ := (readU32Exact _ _ _ _).mp atCount
    obtain ⟨many,at9,rfl⟩ := (u32Field.readManyExact _ _ _ _ _).mp atTokens
    have small : committed.length ≤ 1000000 := many ▸ UInt32.not_lt.mp limit
    have count : UInt32.ofNat committed.length = tcount := by rw [many,UInt32.ofNat_toNat]
    rw [at2,at3,at4,at5,at6,at7,at8,at9] at at1
    simp only [writeRequest,List.append_assoc,List.length_append,count,← Nat.add_assoc]
    exact ⟨small,at1,rfl⟩
  · rintro ⟨small,here,rfl⟩
    simp only [writeRequest,List.append_assoc] at here
    obtain ⟨atId,at2⟩ := u64Field.readsNext here
    obtain ⟨atSequence,at3⟩ := u64Field.readsNext at2
    obtain ⟨atAttempt,at4⟩ := u64Field.readsNext at3
    obtain ⟨atEpoch,at5⟩ := u64Field.readsNext at4
    obtain ⟨atAuthGen,at6⟩ := u64Field.readsNext at5
    obtain ⟨atStateId,at7⟩ := u64Field.readsNext at6
    obtain ⟨atStateGen,at8⟩ := u64Field.readsNext at7
    obtain ⟨atCount,at9⟩ := u32Field.readsNext at8
    obtain ⟨atTokens,_⟩ := u32Field.readsMany at9
    have limit : ¬UInt32.ofNat r.committed.length > maxTokensPerRequest := by
      rw [gt_iff_lt,UInt32.not_lt]
      exact (countKept small).trans_le small
    simp only [readRequest,bindOk,fieldOk,limitOk,Prod.exists,Except.ok.injEq,Prod.mk.injEq]
    refine ⟨_,_,atId,_,_,atSequence,_,_,atAttempt,_,_,atEpoch,_,_,atAuthGen,_,_,atStateId,_,_,atStateGen,_,_,atCount,
      limit,_,_,(countKept small).symm ▸ atTokens,rfl,?_⟩
    simp only [writeRequest,List.length_append,← Nat.add_assoc]
    rfl

theorem readRequestsExact (n : Nat) (blob : List UInt8) (pos : Nat) (rs : List PersistedRequest) (next : Nat) :
    readRequests n blob pos = .ok (rs,next) ↔
      rs.length = n ∧ (∀ r ∈ rs, r.committed.length ≤ 1000000) ∧
        blob.drop pos = rs.flatMap writeRequest ++ blob.drop next ∧
        next = pos + (rs.flatMap writeRequest).length := by
  induction n generalizing pos rs next with
  | zero =>
      rw [readRequests,List.length_eq_zero_iff,Except.ok.injEq,Prod.mk.injEq]
      constructor
      · rintro ⟨rfl,rfl⟩
        exact ⟨rfl,by simp,rfl,rfl⟩
      · rintro ⟨rfl,_,_,rfl⟩
        exact ⟨rfl,rfl⟩
  | succ n ih =>
      simp only [readRequests,bindOk,Prod.exists,Except.ok.injEq,Prod.mk.injEq,readRequestExact,ih]
      constructor
      · rintro ⟨r,_,⟨small,here,rfl⟩,rest,_,⟨rfl,limits,there,rfl⟩,rfl,rfl⟩
        rw [List.flatMap_cons,List.append_assoc,← there,← here,List.length_append,Nat.add_assoc]
        exact ⟨rfl,List.forall_mem_cons.mpr ⟨small,limits⟩,rfl,rfl⟩
      · rintro ⟨count,limits,here,rfl⟩
        obtain ⟨r,rest,rfl⟩ := List.exists_cons_of_length_eq_add_one count
        obtain ⟨small,limits⟩ := List.forall_mem_cons.mp limits
        rw [List.flatMap_cons,List.append_assoc] at here
        have there : blob.drop (pos + (writeRequest r).length) =
            rest.flatMap writeRequest ++ blob.drop (pos + ((r :: rest).flatMap writeRequest).length) := by
          rw [← List.drop_drop,here,List.drop_left,List.flatMap_cons]
        refine ⟨r,_,⟨small,there ▸ here,rfl⟩,rest,_,⟨Nat.succ.inj count,limits,there,?_⟩,rfl,rfl⟩
        rw [List.flatMap_cons,List.length_append,Nat.add_assoc]

structure InLimits (archive : StateArchive) : Prop where
  version : archive.formatVersion = 1
  requests : archive.requests.length ≤ 1000000
  tokens : ∀ r ∈ archive.requests, r.committed.length ≤ 1000000

theorem readArchiveExact (blob : List UInt8) (archive : StateArchive) (next : Nat) :
    readArchive blob = .ok (archive,next) ↔
      InLimits archive ∧ blob = writeArchive archive ++ blob.drop next ∧ next = (writeArchive archive).length := by
  constructor
  · intro reads
    rw [readArchive] at reads
    split at reads
    · cases reads
    rename_i p0 atMagic
    simp only [bindOk,fieldOk,limitOk,Prod.exists,Except.ok.injEq,Prod.mk.injEq,not_not] at reads
    obtain ⟨version,p1,atVersion,rfl,epoch,p2,atEpoch,count,p3,atCount,limit,requests,p4,atRequests,rfl,rfl⟩ := reads
    obtain ⟨at0,rfl⟩ := (readMagicExact _ _).mp atMagic
    obtain ⟨at1,rfl⟩ := (readU32Exact _ _ _ _).mp atVersion
    obtain ⟨at2,rfl⟩ := (readU64Exact _ _ _ _).mp atEpoch
    obtain ⟨at3,rfl⟩ := (readU32Exact _ _ _ _).mp atCount
    obtain ⟨many,tokens,at4,rfl⟩ := (readRequestsExact _ _ _ _ _).mp atRequests
    have few : requests.length ≤ 1000000 := many ▸ UInt32.not_lt.mp limit
    have written : UInt32.ofNat requests.length = count := by rw [many,UInt32.ofNat_toNat]
    rw [at1,at2,at3,at4] at at0
    simp only [writeArchive,List.append_assoc,List.length_append,written,← Nat.add_assoc]
    exact ⟨⟨rfl,few,tokens⟩,at0,rfl⟩
  · rintro ⟨limits,here,rfl⟩
    have few := limits.requests
    have stop : (writeArchive archive).length = 4 + (putU32 archive.formatVersion).length +
        (putU64 archive.epoch.value).length + (putU32 (UInt32.ofNat archive.requests.length)).length +
        (archive.requests.flatMap writeRequest).length := by
      simp only [writeArchive,List.length_append]
      rfl
    have limit : ¬UInt32.ofNat archive.requests.length > maxRequests := by
      rw [gt_iff_lt,UInt32.not_lt]
      exact (countKept few).trans_le few
    generalize after : blob.drop (writeArchive archive).length = rest at here
    simp only [writeArchive,List.append_assoc] at here
    have at1 : blob.drop 4 = putU32 archive.formatVersion ++ (putU64 archive.epoch.value ++
        (putU32 (UInt32.ofNat archive.requests.length) ++ (archive.requests.flatMap writeRequest ++ rest))) := by
      rw [here]
      rfl
    have atMagic : readMagic blob = some 4 := (readMagicExact _ _).mpr ⟨at1 ▸ here,rfl⟩
    obtain ⟨atVersion,at2⟩ := u32Field.readsNext at1
    obtain ⟨atEpoch,at3⟩ := u64Field.readsNext at2
    obtain ⟨atCount,at4⟩ := u32Field.readsNext at3
    have atRequests := (readRequestsExact archive.requests.length blob _ archive.requests _).mpr
      ⟨rfl,limits.tokens,by rw [at4,← after,stop]; rfl,rfl⟩
    simp only [readArchive,atMagic,bindOk,fieldOk,limitOk,Prod.exists,Except.ok.injEq,Prod.mk.injEq,not_not]
    exact ⟨_,_,atVersion,limits.version,_,_,atEpoch,_,_,atCount,limit,_,_,(countKept few).symm ▸ atRequests,rfl,
      stop.symm⟩

def Checked (blob : List UInt8) : Prop :=
  24 ≤ blob.length ∧ ∃ payload, blob = payload ++ putU32 (crc32 payload)

theorem storedCrcExact {blob : List UInt8} (long : ¬blob.length < 24) (crc : UInt32) :
    storedCrc blob long = crc ↔ blob = blob.take (blob.length - 4) ++ putU32 crc := by
  have four : blob.length - 4 + 4 = blob.length := by omega
  have reads : readU32 blob (blob.length - 4) = some (storedCrc blob long,blob.length - 4 + 4) := by
    rw [readU32,dif_neg (by omega)]
    rfl
  have ends : blob.drop (blob.length - 4) = putU32 (storedCrc blob long) := by
    have here := ((readU32Exact _ _ _ _).mp reads).1
    rwa [four,List.drop_length,List.append_nil] at here
  have split := List.take_append_drop (blob.length - 4) blob
  rw [ends] at split
  constructor
  · rintro rfl
    exact split.symm
  · intro whole
    have same : putU32 (storedCrc blob long) ++ [] = putU32 crc ++ [] := by
      rw [List.append_nil,List.append_nil]
      exact List.append_cancel_left (split.trans whole)
    exact (u32Field.putUnique same).1

theorem checkedExact {blob : List UInt8} (long : ¬blob.length < 24) :
    storedCrc blob long = crc32 (blob.take (blob.length - 4)) ↔ Checked blob := by
  rw [storedCrcExact]
  constructor
  · intro whole
    exact ⟨Nat.not_lt.mp long,_,whole⟩
  · rintro ⟨_,payload,whole⟩
    have front : blob.take (blob.length - 4) = payload := by
      rw [whole,List.length_append,putU32Length,Nat.add_sub_cancel,List.take_left]
    rw [front]
    exact whole

theorem deserializeExact (blob : List UInt8) (archive : StateArchive) :
    deserializeArchive blob = .ok archive ↔
      Checked blob ∧ InLimits archive ∧ writeArchive archive <+: blob := by
  rw [deserializeArchive]
  split
  · rename_i short
    constructor
    · intro reads
      cases reads
    · rintro ⟨⟨long,_⟩,_⟩
      omega
  · rename_i long
    rw [if_neg (by omega)]
    simp only [limitOk,bindOk,Prod.exists,Except.ok.injEq,not_not,checkedExact,readArchiveExact]
    apply and_congr_right
    intro _
    constructor
    · rintro ⟨_,_,⟨limits,here,rfl⟩,rfl⟩
      exact ⟨limits,_,here.symm⟩
    · rintro ⟨limits,rest,rfl⟩
      exact ⟨archive,_,⟨limits,by rw [List.drop_left],rfl⟩,rfl⟩

end SpeculationFabric.Persistence
