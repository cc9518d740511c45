import SpeculationFabric.Persistence

/-! Which blobs the archive decoder accepts, told from their bytes alone. The counts in
a blob say where its fields end; the blob is canonical when that is where the checksum
starts. Fields may also end before it or inside it, and both are accepted. -/
namespace SpeculationFabric.Persistence

open ByteFields
open Wire

theorem serializedChecked (archive : StateArchive) :
    Checked (writeArchive archive ++ putU32 (crc32 (writeArchive archive))) := by
  refine ⟨?_,_,rfl⟩
  rw [List.length_append,writeArchiveLength,putU32Length]
  omega

theorem archiveRoundTrip (archive : StateArchive) (version : archive.formatVersion = 1)
    (few : archive.requests.length ≤ 1000000)
    (short : ∀ r ∈ archive.requests, r.committed.length ≤ 1000000) :
    ∃ blob, serializeArchive archive = .ok blob ∧ deserializeArchive blob = .ok archive :=
  ⟨_,rfl,(deserializeExact _ _).mpr ⟨serializedChecked archive,⟨version,few,short⟩,List.prefix_append _ _⟩⟩

def smallArchive : StateArchive :=
  { epoch := ⟨7⟩
    requests := [⟨⟨0xFFFFFFFFFFFFFFFF⟩,⟨1000⟩,⟨2⟩,⟨7⟩,⟨2⟩,⟨⟨0xFFFFFFFFFFFFFFFF⟩,⟨2⟩⟩,[4095,0xFFFFFFFF]⟩,{}] }

theorem smallRoundTrip :
    smallArchive.formatVersion = 1 ∧ smallArchive.requests.length ≤ 1000000 ∧
      (∀ r ∈ smallArchive.requests, r.committed.length ≤ 1000000) ∧
      ∃ blob, serializeArchive smallArchive = .ok blob ∧ deserializeArchive blob = .ok smallArchive :=
  ⟨rfl,by decide,by decide,archiveRoundTrip smallArchive rfl (by decide) (by decide)⟩

theorem requestUnique {r s : PersistedRequest} {x y : List UInt8}
    (left : (UInt32.ofNat r.committed.length).toNat = r.committed.length)
    (right : (UInt32.ofNat s.committed.length).toNat = s.committed.length)
    (same : writeRequest r ++ x = writeRequest s ++ y) : r = s ∧ x = y := by
  simp only [writeRequest,List.append_assoc] at same
  obtain ⟨id,same⟩ := u64Field.putUnique same
  obtain ⟨sequence,same⟩ := u64Field.putUnique same
  obtain ⟨attempt,same⟩ := u64Field.putUnique same
  obtain ⟨epoch,same⟩ := u64Field.putUnique same
  obtain ⟨authGen,same⟩ := u64Field.putUnique same
  obtain ⟨stateId,same⟩ := u64Field.putUnique same
  obtain ⟨stateGen,same⟩ := u64Field.putUnique same
  obtain ⟨count,same⟩ := u32Field.putUnique same
  have lengths : r.committed.length = s.committed.length := by rw [← left,count,right]
  obtain ⟨committed,rest⟩ := u32Field.manyUnique lengths same
  obtain ⟨⟨_⟩,⟨_⟩,⟨_⟩,⟨_⟩,⟨_⟩,⟨⟨_⟩,⟨_⟩⟩,_⟩ := r
  obtain ⟨⟨_⟩,⟨_⟩,⟨_⟩,⟨_⟩,⟨_⟩,⟨⟨_⟩,⟨_⟩⟩,_⟩ := s
  simp only at id sequence attempt epoch authGen stateId stateGen committed
  subst id sequence attempt epoch authGen stateId stateGen committed
  exact ⟨rfl,rest⟩

theorem requestsUnique {rs ss : List PersistedRequest} {x y : List UInt8} (count : rs.length = ss.length)
    (left : ∀ r ∈ rs, (UInt32.ofNat r.committed.length).toNat = r.committed.length)
    (right : ∀ s ∈ ss, (UInt32.ofNat s.committed.length).toNat = s.committed.length)
    (same : rs.flatMap writeRequest ++ x = ss.flatMap writeRequest ++ y) : rs = ss := by
  induction rs generalizing ss with
  | nil => exact (List.length_eq_zero_iff.mp count.symm).symm
  | cons r rs ih =>
      obtain ⟨s,ss,rfl⟩ := List.exists_cons_of_length_eq_add_one count.symm
      obtain ⟨here,lefts⟩ := List.forall_mem_cons.mp left
      obtain ⟨there,rights⟩ := List.forall_mem_cons.mp right
      simp only [List.flatMap_cons,List.append_assoc] at same
      obtain ⟨rfl,rest⟩ := requestUnique here there same
      rw [ih (Nat.succ.inj count) lefts rights rest]

def Recoverable (archive : StateArchive) : Prop :=
  ∀ blob, serializeArchive archive = .ok blob →
    (∃ restored, deserializeArchive blob = .ok restored) ∧
    (UInt32.ofNat archive.requests.length).toNat = archive.requests.length ∧
    ∀ r ∈ archive.requests, (UInt32.ofNat r.committed.length).toNat = r.committed.length

theorem recoverableLimits {archive : StateArchive} (saved : Recoverable archive) : InLimits archive := by
  obtain ⟨⟨restored,reads⟩,requests,tokens⟩ := saved _ rfl
  obtain ⟨_,limits,rest,written⟩ := (deserializeExact _ _).mp reads
  simp only [writeArchive,List.append_assoc] at written
  obtain ⟨version,written⟩ := u32Field.putUnique (List.append_cancel_left written)
  obtain ⟨epoch,written⟩ := u64Field.putUnique written
  obtain ⟨count,written⟩ := u32Field.putUnique written
  have lengths : restored.requests.length = archive.requests.length := by
    rw [← countKept limits.requests,count,requests]
  have same := requestsUnique lengths (fun r inside => countKept (limits.tokens r inside)) tokens written
  exact ⟨version ▸ limits.version,same ▸ limits.requests,same ▸ limits.tokens⟩

theorem savedRecoverableExactly (archive : StateArchive) (version : archive.formatVersion = 1) :
    Recoverable archive ↔
      archive.requests.length ≤ 1000000 ∧ ∀ r ∈ archive.requests, r.committed.length ≤ 1000000 := by
  constructor
  · intro saved
    have limits := recoverableLimits saved
    exact ⟨limits.requests,limits.tokens⟩
  · rintro ⟨few,short⟩ _ ⟨⟩
    exact ⟨⟨archive,(deserializeExact _ _).mpr ⟨serializedChecked archive,⟨version,few,short⟩,List.prefix_append _ _⟩⟩,
      countKept few,fun r inside => countKept (short r inside)⟩

theorem smallRecoverable : smallArchive.formatVersion = 1 ∧ Recoverable smallArchive :=
  ⟨rfl,(savedRecoverableExactly smallArchive rfl).mpr ⟨by decide,by decide⟩⟩

def longArchive : StateArchive :=
  { requests := [{ committed := List.replicate 1000001 0 }] }

theorem longArchiveLost :
    longArchive.formatVersion = 1 ∧ ∃ blob, serializeArchive longArchive = .ok blob ∧
      ¬∃ restored, deserializeArchive blob = .ok restored := by
  refine ⟨rfl,_,rfl,?_⟩
  intro accepted
  have kept : (UInt32.ofNat (List.replicate 1000001 (0 : UInt32)).length).toNat =
      (List.replicate 1000001 (0 : UInt32)).length := by
    rw [List.length_replicate]
    rfl
  have saved : Recoverable longArchive := by
    rintro _ ⟨⟩
    exact ⟨accepted,rfl,List.forall_mem_cons.mpr ⟨kept,List.forall_mem_nil _⟩⟩
  have short := (recoverableLimits saved).tokens _ (List.mem_singleton_self _)
  rw [List.length_replicate] at short
  omega

def skipRequests : Nat → List UInt8 → Nat → Option Nat
  | 0, _, pos => some pos
  | n + 1, blob, pos =>
      match readU32 blob (pos + 56) with
      | none => none
      | some (tcount,_) =>
          if tcount > maxTokensPerRequest then none else skipRequests n blob (pos + 60 + 4 * tcount.toNat)

/- Where the fields a blob declares end. No byte is asked to be there beyond the counts
that decide it. -/
def declaredEnd (blob : List UInt8) : Option Nat :=
  if blob.take 8 ≠ magic ++ putU32 1 then none
  else match readU32 blob 16 with
  | none => none
  | some (count,_) => if count > maxRequests then none else skipRequests count.toNat blob 20

theorem requestCount {blob : List UInt8} {pos : Nat} {r : PersistedRequest} {rest : List UInt8}
    (here : blob.drop pos = writeRequest r ++ rest) :
    readU32 blob (pos + 56) = some (UInt32.ofNat r.committed.length,pos + 56 + 4) := by
  obtain ⟨head,written,size⟩ : ∃ head, writeRequest r =
      head ++ (putU32 (UInt32.ofNat r.committed.length) ++ r.committed.flatMap putU32) ∧ head.length = 56 := by
    refine ⟨_,List.append_assoc _ _ _,?_⟩
    simp only [List.length_append,putU64Length]
  rw [written,List.append_assoc,List.append_assoc] at here
  have there : blob.drop (pos + 56) =
      putU32 (UInt32.ofNat r.committed.length) ++ (r.committed.flatMap putU32 ++ rest) := by
    rw [← List.drop_drop,here,List.drop_left' size]
  exact (readsU32 there).1

theorem skipReads {n : Nat} {blob : List UInt8} {pos last : Nat} {rs : List PersistedRequest}
    (reads : readRequests n blob pos = .ok (rs,last)) : skipRequests n blob pos = some last := by
  induction n generalizing pos rs with
  | zero =>
      cases reads
      rfl
  | succ n ih =>
      simp only [readRequests,bindOk,Prod.exists,Except.ok.injEq,Prod.mk.injEq] at reads
      obtain ⟨r,next,first,rest,_,later,rfl,rfl⟩ := reads
      obtain ⟨small,here,rfl⟩ := (readRequestExact _ _ _ _).mp first
      have limit : ¬UInt32.ofNat r.committed.length > maxTokensPerRequest := by
        rw [gt_iff_lt,UInt32.not_lt]
        exact (countKept small).trans_le small
      rw [writeRequestLength,← Nat.add_assoc] at later
      simp only [skipRequests,requestCount here]
      rw [if_neg limit,countKept small,ih later]

theorem skipGrows {n : Nat} {blob : List UInt8} {pos last : Nat}
    (skips : skipRequests n blob pos = some last) : pos ≤ last := by
  induction n generalizing pos with
  | zero =>
      cases skips
      exact Nat.le_refl _
  | succ n ih =>
      rw [skipRequests] at skips
      split at skips
      · cases skips
      · split at skips
        · cases skips
        · have := ih skips
          omega

theorem u64There (blob : List UInt8) (pos : Nat) (inside : pos + 8 ≤ blob.length) :
    ∃ v, readU64 blob pos = some (v,pos + 8) :=
  ⟨_,dif_neg (Nat.not_lt.mpr inside)⟩

theorem u32There (blob : List UInt8) (pos : Nat) (inside : pos + 4 ≤ blob.length) :
    ∃ v, readU32 blob pos = some (v,pos + 4) :=
  ⟨_,dif_neg (Nat.not_lt.mpr inside)⟩

theorem tokensThere (n : Nat) (blob : List UInt8) (pos : Nat) (inside : pos + 4 * n ≤ blob.length) :
    ∃ tokens, u32Field.readMany n blob pos = some (tokens,pos + 4 * n) := by
  induction n generalizing pos with
  | zero => exact ⟨[],rfl⟩
  | succ n ih =>
      obtain ⟨rest,later⟩ := ih (pos + 4) (by omega)
      obtain ⟨v,first⟩ := u32There blob pos (by omega)
      change u32Field.read blob pos = some (v,pos + 4) at first
      have there : pos + 4 + 4 * n = pos + 4 * (n + 1) := by omega
      rw [there] at later
      exact ⟨v :: rest,by simp only [ByteField.readMany,first,later]⟩

theorem requestThere {blob : List UInt8} {pos next : Nat} {tcount : UInt32}
    (count : readU32 blob (pos + 56) = some (tcount,next)) (limit : ¬tcount > maxTokensPerRequest)
    (inside : pos + 60 + 4 * tcount.toNat ≤ blob.length) :
    ∃ r, readRequest blob pos = .ok (r,pos + 60 + 4 * tcount.toNat) := by
  obtain ⟨id,atId⟩ := u64There blob pos (by omega)
  obtain ⟨sequence,atSequence⟩ := u64There blob (pos + 8) (by omega)
  obtain ⟨attempt,atAttempt⟩ := u64There blob (pos + 16) (by omega)
  obtain ⟨epoch,atEpoch⟩ := u64There blob (pos + 24) (by omega)
  obtain ⟨authGen,atAuthGen⟩ := u64There blob (pos + 32) (by omega)
  obtain ⟨stateId,atStateId⟩ := u64There blob (pos + 40) (by omega)
  obtain ⟨stateGen,atStateGen⟩ := u64There blob (pos + 48) (by omega)
  obtain ⟨tokens,atTokens⟩ := tokensThere _ _ _ inside
  obtain ⟨_,rfl⟩ := (readU32Exact _ _ _ _).mp count
  rw [putU32Length] at count
  simp only [readRequest,bindOk,fieldOk,limitOk,Prod.exists,Except.ok.injEq,Prod.mk.injEq]
  exact ⟨_,_,_,atId,_,_,atSequence,_,_,atAttempt,_,_,atEpoch,_,_,atAuthGen,_,_,atStateId,_,_,atStateGen,_,_,count,limit,
    _,_,atTokens,rfl,rfl⟩

theorem skipFits {n : Nat} {blob : List UInt8} {pos last : Nat}
    (skips : skipRequests n blob pos = some last) (fits : last ≤ blob.length) :
    ∃ rs, readRequests n blob pos = .ok (rs,last) := by
  induction n generalizing pos with
  | zero =>
      cases skips
      exact ⟨[],rfl⟩
  | succ n ih =>
      rw [skipRequests] at skips
      split at skips
      · cases skips
      rename_i tcount next count
      split at skips
      · cases skips
      rename_i limit
      have grows := skipGrows skips
      obtain ⟨r,first⟩ := requestThere count limit (by omega)
      obtain ⟨rest,later⟩ := ih skips
      simp only [readRequests,bindOk,Prod.exists,Except.ok.injEq,Prod.mk.injEq]
      exact ⟨_,_,_,first,_,_,later,rfl,rfl⟩

theorem writtenDeclares {archive : StateArchive} {blob : List UInt8} (limits : InLimits archive)
    (written : writeArchive archive <+: blob) : declaredEnd blob = some (writeArchive archive).length := by
  obtain ⟨rest,rfl⟩ := written
  generalize whole : writeArchive archive ++ rest = blob
  have marked : (magic ++ putU32 archive.formatVersion).length = 8 := by
    rw [List.length_append,putU32Length]
    rfl
  have start : blob = (magic ++ putU32 archive.formatVersion) ++ (putU64 archive.epoch.value ++
      (putU32 (UInt32.ofNat archive.requests.length) ++ (archive.requests.flatMap writeRequest ++ rest))) := by
    rw [← whole,writeArchive]
    simp only [List.append_assoc]
  have atEpoch : blob.drop 8 = putU64 archive.epoch.value ++
      (putU32 (UInt32.ofNat archive.requests.length) ++ (archive.requests.flatMap writeRequest ++ rest)) := by
    rw [start,List.drop_left' marked]
  have atCount := (u64Field.readsNext atEpoch).2
  rw [show (u64Field.put archive.epoch.value).length = 8 from putU64Length _] at atCount
  obtain ⟨count,atRequests⟩ := readsU32 atCount
  have after : blob.drop (writeArchive archive).length = rest := by rw [← whole,List.drop_left]
  have reads := (readRequestsExact archive.requests.length blob 20 archive.requests _).mpr
    ⟨rfl,limits.tokens,by rw [← writeArchiveLength,after]; exact atRequests,rfl⟩
  have limit : ¬UInt32.ofNat archive.requests.length > maxRequests := by
    rw [gt_iff_lt,UInt32.not_lt]
    exact (countKept limits.requests).trans_le limits.requests
  have front : blob.take 8 = magic ++ putU32 1 := by rw [start,List.take_left' marked,limits.version]
  rw [declaredEnd,if_neg (not_not.mpr front)]
  simp only [count]
  rw [if_neg limit,countKept limits.requests,skipReads reads,writeArchiveLength]

theorem declaredReads {blob : List UInt8} {last : Nat} (declared : declaredEnd blob = some last)
    (fits : last ≤ blob.length) :
    ∃ archive, InLimits archive ∧ writeArchive archive <+: blob ∧ (writeArchive archive).length = last := by
  rw [declaredEnd] at declared
  split at declared
  · cases declared
  rename_i front
  split at declared
  · cases declared
  rename_i count next atCount
  split at declared
  · cases declared
  rename_i limit
  obtain ⟨rs,reads⟩ := skipFits declared fits
  obtain ⟨many,tokens,atRequests,rfl⟩ := (readRequestsExact _ _ _ _ _).mp reads
  obtain ⟨epoch,readsEpoch⟩ := u64There blob 8 (by omega)
  obtain ⟨atEpoch,_⟩ := (readU64Exact _ _ _ _).mp readsEpoch
  obtain ⟨here,rfl⟩ := (readU32Exact _ _ _ _).mp atCount
  rw [putU32Length] at here
  have few : rs.length ≤ 1000000 := many ▸ UInt32.not_lt.mp limit
  have written : UInt32.ofNat rs.length = count := by rw [many,UInt32.ofNat_toNat]
  refine ⟨⟨1,⟨epoch⟩,rs⟩,⟨rfl,few,tokens⟩,⟨blob.drop (20 + (rs.flatMap writeRequest).length),?_⟩,
    writeArchiveLength _⟩
  calc writeArchive ⟨1,⟨epoch⟩,rs⟩ ++ blob.drop (20 + (rs.flatMap writeRequest).length)
      = magic ++ putU32 1 ++ (putU64 epoch ++ (putU32 count ++ (rs.flatMap writeRequest ++
          blob.drop (20 + (rs.flatMap writeRequest).length)))) := by
        simp only [writeArchive,written,List.append_assoc]
    _ = blob.take 8 ++ blob.drop 8 := by rw [← atRequests,← here,← atEpoch,not_not.mp front]
    _ = blob := List.take_append_drop 8 blob

theorem acceptedExactly (blob : List UInt8) (last : Nat) :
    (∃ archive, deserializeArchive blob = .ok archive ∧ (writeArchive archive).length = last) ↔
      Checked blob ∧ declaredEnd blob = some last ∧ last ≤ blob.length := by
  constructor
  · rintro ⟨archive,reads,rfl⟩
    obtain ⟨checked,limits,written⟩ := (deserializeExact _ _).mp reads
    exact ⟨checked,writtenDeclares limits written,written.length_le⟩
  · rintro ⟨checked,declared,fits⟩
    obtain ⟨archive,limits,written,size⟩ := declaredReads declared fits
    exact ⟨archive,(deserializeExact _ _).mpr ⟨checked,limits,written⟩,size⟩

def FieldsInPayload (blob : List UInt8) (archive : StateArchive) : Prop :=
  writeArchive archive <+: blob.take (blob.length - 4)

theorem fieldsInPayloadSize {blob : List UInt8} {archive : StateArchive}
    (reads : deserializeArchive blob = .ok archive) :
    FieldsInPayload blob archive ↔ (writeArchive archive).length + 4 ≤ blob.length := by
  obtain ⟨checked,_,written⟩ := (deserializeExact _ _).mp reads
  have long := checked.1
  rw [FieldsInPayload,List.prefix_take_iff]
  constructor
  · rintro ⟨_,size⟩
    omega
  · intro size
    exact ⟨written,by omega⟩

theorem declaredInPart {blob : List UInt8} {k last : Nat} (inside : k ≤ blob.length) (fits : last ≤ k) :
    declaredEnd (blob.take k) = some last ↔ declaredEnd blob = some last := by
  have size : (blob.take k).length = k := List.length_take_of_le inside
  constructor
  · intro declared
    obtain ⟨archive,limits,written,rfl⟩ := declaredReads declared (size.symm ▸ fits)
    exact writtenDeclares limits (written.trans (List.take_prefix _ _))
  · intro declared
    obtain ⟨archive,limits,written,rfl⟩ := declaredReads declared (fits.trans inside)
    exact writtenDeclares limits (List.prefix_take_iff.mpr ⟨written,fits⟩)

theorem checkedTail {blob : List UInt8} (checked : Checked blob) :
    blob.drop (blob.length - 4) = putU32 (crc32 (blob.take (blob.length - 4))) := by
  obtain ⟨_,payload,rfl⟩ := checked
  rw [List.length_append,putU32Length,Nat.add_sub_cancel,List.take_left,List.drop_left]

theorem trailerUnreadExactly (blob : List UInt8) :
    ((∀ archive, deserializeArchive blob = .ok archive → FieldsInPayload blob archive) ↔
      ¬(Checked blob ∧ ∃ last, declaredEnd blob = some last ∧ last ≤ blob.length ∧ blob.length < last + 4)) ∧
    ∀ archive k, serializeArchive archive = .ok blob → k < blob.length →
      ((∀ other, deserializeArchive (blob.take k) ≠ .ok other) ↔
        ¬(Checked (blob.take k) ∧ ∃ last, declaredEnd blob = some last ∧ last ≤ k)) := by
  constructor
  · constructor
    · rintro inside ⟨checked,last,declared,fits,cut⟩
      obtain ⟨archive,reads,rfl⟩ := (acceptedExactly blob last).mpr ⟨checked,declared,fits⟩
      have := (fieldsInPayloadSize reads).mp (inside archive reads)
      omega
    · intro clear archive reads
      obtain ⟨checked,declared,fits⟩ := (acceptedExactly blob _).mp ⟨archive,reads,rfl⟩
      rw [fieldsInPayloadSize reads]
      by_contra cut
      exact clear ⟨checked,_,declared,fits,by omega⟩
  · intro archive k _ cut
    have size : (blob.take k).length = k := List.length_take_of_le cut.le
    rw [← not_exists_not,not_iff_not]
    simp only [not_not]
    constructor
    · rintro ⟨other,reads⟩
      obtain ⟨checked,declared,fits⟩ := (acceptedExactly _ _).mp ⟨other,reads,rfl⟩
      rw [size] at fits
      exact ⟨checked,_,(declaredInPart cut.le fits).mp declared,fits⟩
    · rintro ⟨checked,last,declared,fits⟩
      obtain ⟨other,reads,_⟩ := (acceptedExactly (blob.take k) last).mpr
        ⟨checked,(declaredInPart cut.le fits).mpr declared,size.symm ▸ fits⟩
      exact ⟨other,reads⟩

/- All but the last byte of the checksum: every declared field is there. -/
theorem checksumPartRejected :
    ∃ blob, serializeArchive smallArchive = .ok blob ∧ blob.length = 152 ∧
      declaredEnd (blob.take 151) = some 148 ∧ ∀ other, deserializeArchive (blob.take 151) ≠ .ok other := by
  have size : (writeArchive smallArchive ++ putU32 (crc32 (writeArchive smallArchive))).length = 152 := by
    rw [List.length_append,putU32Length]
    rfl
  have fields : declaredEnd (writeArchive smallArchive ++ putU32 (crc32 (writeArchive smallArchive))) = some 148 :=
    writtenDeclares ⟨rfl,by decide,by decide⟩ (List.prefix_append _ _)
  refine ⟨_,rfl,size,(declaredInPart (by omega) (by omega)).mpr fields,
    ((trailerUnreadExactly _).2 smallArchive 151 rfl (by omega)).mpr ?_⟩
  rintro ⟨checked,-⟩
  exact absurd (checkedTail checked) (by decide +kernel)

def tokenlessPayload : List UInt8 :=
  magic ++ putU32 1 ++ putU64 0 ++ putU32 1 ++ putU64 0 ++ putU64 0 ++ putU64 0 ++ putU64 0 ++ putU64 0 ++
    putU64 0 ++ putU64 0 ++ putU32 1

def trailerArchive : StateArchive :=
  { requests := [{ committed := [crc32 tokenlessPayload] }] }

theorem trailerArchiveWritten :
    writeArchive trailerArchive = tokenlessPayload ++ putU32 (crc32 tokenlessPayload) := by
  simp [writeArchive,trailerArchive,writeRequest,tokenlessPayload]

theorem trailerRead :
    deserializeArchive (tokenlessPayload ++ putU32 (crc32 tokenlessPayload)) = .ok trailerArchive ∧
    ¬FieldsInPayload (tokenlessPayload ++ putU32 (crc32 tokenlessPayload)) trailerArchive ∧
    ∃ blob, serializeArchive trailerArchive = .ok blob ∧
      tokenlessPayload ++ putU32 (crc32 tokenlessPayload) = blob.take (blob.length - 4) := by
  have size : (writeArchive trailerArchive).length = 84 := rfl
  rw [← trailerArchiveWritten]
  have reads : deserializeArchive (writeArchive trailerArchive) = .ok trailerArchive :=
    (deserializeExact _ _).mpr ⟨⟨by omega,_,trailerArchiveWritten⟩,⟨rfl,by decide,by decide⟩,List.prefix_rfl⟩
  refine ⟨reads,?_,_,rfl,?_⟩
  · rw [fieldsInPayloadSize reads]
    omega
  · rw [List.length_append,putU32Length,Nat.add_sub_cancel,List.take_left]

theorem canonicalExactly (blob : List UInt8) :
    (∀ archive, deserializeArchive blob = .ok archive → FieldsInPayload blob archive →
      serializeArchive archive = .ok blob) ↔
    ¬(Checked blob ∧ ∃ last, declaredEnd blob = some last ∧ last + 4 < blob.length) := by
  constructor
  · rintro canonical ⟨checked,last,declared,extra⟩
    obtain ⟨archive,reads,rfl⟩ := (acceptedExactly blob last).mpr ⟨checked,declared,by omega⟩
    have written := canonical archive reads ((fieldsInPayloadSize reads).mpr extra.le)
    have size := congrArg List.length (Except.ok.inj written)
    rw [List.length_append,putU32Length] at size
    omega
  · intro noExtra archive reads inside
    obtain ⟨checked,declared,_⟩ := (acceptedExactly blob _).mp ⟨archive,reads,rfl⟩
    have fits := (fieldsInPayloadSize reads).mp inside
    have size : (writeArchive archive).length + 4 = blob.length := by
      by_contra different
      exact noExtra ⟨checked,_,declared,by omega⟩
    obtain ⟨_,payload,rfl⟩ := checked
    rw [List.length_append,putU32Length] at size
    rw [FieldsInPayload,List.length_append,putU32Length,Nat.add_sub_cancel,List.take_left] at inside
    have same : writeArchive archive = payload := inside.eq_of_length (by omega)
    rw [serializeArchive,same]

def paddedPayload : List UInt8 := writeArchive {} ++ [0]

theorem paddedAccepted :
    deserializeArchive (paddedPayload ++ putU32 (crc32 paddedPayload)) = .ok {} ∧
    FieldsInPayload (paddedPayload ++ putU32 (crc32 paddedPayload)) {} ∧
    serializeArchive {} ≠ .ok (paddedPayload ++ putU32 (crc32 paddedPayload)) := by
  have size : (writeArchive {}).length = 20 := rfl
  have reads : deserializeArchive (paddedPayload ++ putU32 (crc32 paddedPayload)) = .ok {} :=
    (deserializeExact _ _).mpr ⟨⟨by decide,_,rfl⟩,⟨rfl,by decide,by decide⟩,
      (List.prefix_append _ _).trans (List.prefix_append _ _)⟩
  refine ⟨reads,(fieldsInPayloadSize reads).mpr (by decide),?_⟩
  intro same
  have lengths := congrArg List.length (Except.ok.inj same)
  rw [List.length_append,List.length_append,putU32Length,putU32Length] at lengths
  exact absurd lengths (by decide)

end SpeculationFabric.Persistence
