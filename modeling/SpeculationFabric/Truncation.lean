import SpeculationFabric.Guarded
import SpeculationFabric.Wire

/-! Cut and padded payloads. A reader that finds its field in a payload finds the same
field in every longer one, so the decoder runs on a cut payload as on the whole until a
read or the body fails, and on a padded one up to its last check. The decoder is also
written once more with its unguarded element reads, to say that none leaves the payload. -/
namespace SpeculationFabric.Wire

open ByteFields
open Guarding

theorem countsExtend {payload : List UInt8} {pos : Nat} {n64 n32 blen : UInt32} {next : Nat}
    (reads : readCounts payload pos = some (n64,n32,blen,next)) (more : List UInt8) :
    readCounts (payload ++ more) pos = some (n64,n32,blen,next) := by
  obtain ⟨p1,p2,first,second,third⟩ := countsCases reads
  have first' : readU32 (payload ++ more) pos = some (n64,p1) := u32Field.readExtends first more
  have second' : readU32 (payload ++ more) p1 = some (n32,p2) := u32Field.readExtends second more
  have third' : readU32 (payload ++ more) p2 = some (blen,next) := u32Field.readExtends third more
  simp only [readCounts,first',second',third']

theorem countsInside {payload : List UInt8} {pos : Nat} {n64 n32 blen : UInt32} {next : Nat}
    (reads : readCounts payload pos = some (n64,n32,blen,next)) (start : pos ≤ payload.length) :
    next ≤ payload.length := by
  obtain ⟨p1,p2,first,second,third⟩ := countsCases reads
  have one := u32Field.readInside first start
  have two := u32Field.readInside second one
  exact u32Field.readInside third two

theorem headerInside {payload : List UInt8} {version t n64 n32 blen : UInt32} {p1 p2 p3 p4 p5 : Nat}
    {u64s : List UInt64} {u32s : List UInt32} (readsVersion : readU32 payload 0 = some (version,p1))
    (readsType : readU32 payload p1 = some (t,p2)) (counts : readCounts payload p2 = some (n64,n32,blen,p3))
    (reads64 : u64Field.readMany n64.toNat payload p3 = some (u64s,p4))
    (reads32 : u32Field.readMany n32.toNat payload p4 = some (u32s,p5)) : p5 ≤ payload.length := by
  have one := u32Field.readInside readsVersion (Nat.zero_le _)
  have two := u32Field.readInside readsType one
  have three := countsInside counts two
  have four := u64Field.manyInside reads64 three
  exact u32Field.manyInside reads32 four

theorem readOfPart {A : Type} {part whole : Option A} {a : A} (extending : ∀ v, part = some v → whole = some v)
    (reads : whole = some a) : part = none ∨ part = some a := by
  cases found : part with
  | none => exact .inl rfl
  | some v => exact .inr ((extending v found).symm.trans reads)

section cut
variable {front cut : List UInt8} {pos : Nat}

theorem u32OfPart {read : UInt32 × Nat} (reads : readU32 (front ++ cut) pos = some read) :
    readU32 front pos = none ∨ readU32 front pos = some read :=
  readOfPart (fun _ found => u32Field.readExtends found cut) reads

theorem countsOfPart {read : UInt32 × UInt32 × UInt32 × Nat} (reads : readCounts (front ++ cut) pos = some read) :
    readCounts front pos = none ∨ readCounts front pos = some read :=
  readOfPart (fun _ found => countsExtend found cut) reads

theorem manyOfPart {A : Type} (f : ByteField A) {n : Nat} {read : List A × Nat}
    (reads : f.readMany n (front ++ cut) pos = some read) :
    f.readMany n front pos = none ∨ f.readMany n front pos = some read :=
  readOfPart (fun _ found => f.readManyExtends found cut) reads

theorem cutTruncated {msg : Message} (reads : decode (front ++ cut) = .ok msg) (missing : cut ≠ []) :
    ∃ text, decode front = Result.err .truncatedFrame text := by
  obtain ⟨p1,p2,p3,p4,p5,n64,n32,blen,readsVersion,_,readsType,notNull,low,readsCounts,limit64,limit32,limitBody,
    reads64,reads32,_,ends,_⟩ := decodeCases reads
  rw [decode]
  by_cases short : front.length < 20
  · exact ⟨_,if_pos short⟩
  rw [if_neg short]
  rcases u32OfPart readsVersion with gone | version
  · simp only [gone]
    exact ⟨_,rfl⟩
  simp only [version]
  rw [if_neg (not_not.mpr rfl)]
  rcases u32OfPart readsType with gone | type
  · simp only [gone]
    exact ⟨_,rfl⟩
  simp only [type]
  rw [if_neg (not_or.mpr ⟨notNull,UInt32.not_lt.mpr low⟩)]
  rcases countsOfPart readsCounts with gone | counts
  · simp only [gone]
    exact ⟨_,rfl⟩
  simp only [counts]
  rw [if_neg (by simp only [gt_iff_lt,UInt32.not_lt,not_or]; exact ⟨limit64,limit32,limitBody⟩)]
  rcases manyOfPart u64Field reads64 with gone | many64
  · simp only [gone]
    exact ⟨_,rfl⟩
  simp only [many64]
  rcases manyOfPart u32Field reads32 with gone | many32
  · simp only [gone]
    exact ⟨_,rfl⟩
  simp only [many32]
  have inside := headerInside version type counts many64 many32
  have some_ : 0 < cut.length := List.length_pos_iff.mpr missing
  rw [List.length_append] at ends
  exact ⟨_,if_pos (by omega)⟩

end cut

theorem paddingMalformed {payload padding : List UInt8} {msg : Message} (reads : decode payload = .ok msg)
    (extra : padding ≠ []) : ∃ text, decode (payload ++ padding) = Result.err .malformed text := by
  obtain ⟨p1,p2,p3,p4,p5,n64,n32,blen,readsVersion,_,readsType,notNull,low,readsCounts,limit64,limit32,limitBody,
    reads64,reads32,fits,ends,_⟩ := decodeCases reads
  have long : ¬(payload ++ padding).length < 20 := by
    have size := congrArg List.length (decodedLayout reads)
    rw [layoutLength] at size
    rw [List.length_append]
    omega
  have version : readU32 (payload ++ padding) 0 = _ := u32Field.readExtends readsVersion padding
  have type : readU32 (payload ++ padding) p1 = _ := u32Field.readExtends readsType padding
  have some_ : 0 < padding.length := List.length_pos_iff.mpr extra
  rw [decode,if_neg long]
  simp only [version]
  rw [if_neg (not_not.mpr rfl)]
  simp only [type]
  rw [if_neg (not_or.mpr ⟨notNull,UInt32.not_lt.mpr low⟩)]
  simp only [countsExtend readsCounts padding]
  rw [if_neg (by simp only [gt_iff_lt,UInt32.not_lt,not_or]; exact ⟨limit64,limit32,limitBody⟩)]
  simp only [u64Field.readManyExtends reads64 padding,u32Field.readManyExtends reads32 padding]
  rw [List.length_append,if_neg (by omega),if_pos (by omega)]
  exact ⟨_,rfl⟩

/- The readers and the decoder as the source writes them: after its own test each reads
the elements it wants without a further check, and the room for the body is a difference
of unsigned sizes. -/
namespace Unguarded

def readU32 (payload : List UInt8) (pos : Nat) : Guarded (Option (UInt32 × Nat)) :=
  if pos + 4 > payload.length then pure none
  else do
    let b0 ← Guarded.element payload pos
    let b1 ← Guarded.element payload (pos + 1)
    let b2 ← Guarded.element payload (pos + 2)
    let b3 ← Guarded.element payload (pos + 3)
    pure (some (joinU32 b0 b1 b2 b3,pos + 4))

def readU64 (payload : List UInt8) (pos : Nat) : Guarded (Option (UInt64 × Nat)) :=
  if pos + 8 > payload.length then pure none
  else do
    let bs ← Guarded.elements payload pos 8
    pure (some (joinU64 bs,pos + 8))

def readMany {A : Type} (read : List UInt8 → Nat → Guarded (Option (A × Nat))) :
    Nat → List UInt8 → Nat → Guarded (Option (List A × Nat))
  | 0,_,pos => pure (some ([],pos))
  | n + 1,payload,pos => do
      match ← read payload pos with
      | none => pure none
      | some (v,next) =>
          match ← readMany read n payload next with
          | none => pure none
          | some (rest,last) => pure (some (v :: rest,last))

def readCounts (payload : List UInt8) (pos : Nat) : Guarded (Option (UInt32 × UInt32 × UInt32 × Nat)) := do
  match ← readU32 payload pos with
  | none => pure none
  | some (n64,pos) =>
      match ← readU32 payload pos with
      | none => pure none
      | some (n32,pos) =>
          match ← readU32 payload pos with
          | none => pure none
          | some (blen,pos) => pure (some (n64,n32,blen,pos))

def decode (payload : List UInt8) : Guarded (Result Message) :=
  if payload.length < 20 then pure (Result.err .truncatedFrame "payload too short")
  else do
  match ← readU32 payload 0 with
  | none => pure (Result.err .truncatedFrame "missing protocol version")
  | some (version,pos) =>
  if version ≠ protocolVersion then pure (Result.err .unknownProtocolVersion "unknown protocol version")
  else match ← readU32 payload pos with
  | none => pure (Result.err .truncatedFrame "missing message type")
  | some (t,pos) =>
  if (⟨t⟩ : Msg) = Msg.null ∨ t > Msg.shutdown.code then
    pure (Result.err .unknownMessageType ("unknown message type " ++ toString t))
  else match ← readCounts payload pos with
  | none => pure (Result.err .truncatedFrame "missing field counts")
  | some (n64,n32,blen,pos) =>
  if n64 > 64 ∨ n32 > 64 ∨ blen > 1024 * 1024 then
    pure (Result.err .oversizedFrame "field counts exceed limits")
  else match ← readMany readU64 n64.toNat payload pos with
  | none => pure (Result.err .truncatedFrame "truncated u64 field")
  | some (u64Fields,pos) =>
  match ← readMany readU32 n32.toNat payload pos with
  | none => pure (Result.err .truncatedFrame "truncated u32 field")
  | some (u32Fields,pos) =>
  let room ← Guarded.difference payload.length pos
  if blen.toNat > room then pure (Result.err .truncatedFrame "truncated body")
  else
  let body ← Guarded.elements payload pos blen.toNat
  if pos + blen.toNat ≠ payload.length then pure (Result.err .malformed "trailing bytes in payload")
  else pure (.ok ⟨version,⟨t⟩,u64Fields,u32Fields,body⟩)

section values
variable (payload : List UInt8) (pos : Nat)

theorem valueU32 : (readU32 payload pos).value = some (Wire.readU32 payload pos) := by
  rw [readU32,Wire.readU32]
  by_cases short : pos + 4 > payload.length
  · rw [if_pos short,dif_pos short]
    rfl
  · rw [if_neg short,dif_neg short]
    simp only [Guarded.valueBind,Guarded.valueElement,Guarded.valuePure]
    rw [List.getElem?_eq_getElem (by omega),List.getElem?_eq_getElem (by omega),List.getElem?_eq_getElem (by omega),
      List.getElem?_eq_getElem (by omega)]
    rfl

theorem valueU64 : (readU64 payload pos).value = some (Wire.readU64 payload pos) := by
  rw [readU64,Wire.readU64]
  by_cases short : pos + 8 > payload.length
  · rw [if_pos short,dif_pos short]
    rfl
  · rw [if_neg short,dif_neg short,window (by omega),Guarded.valueBind,Guarded.valueElements,if_pos (by omega)]
    rfl

theorem valueMany {A : Type} (f : ByteField A) {read : List UInt8 → Nat → Guarded (Option (A × Nat))}
    (agrees : ∀ bs at_, (read bs at_).value = some (f.read bs at_)) (n : Nat) :
    (readMany read n payload pos).value = some (f.readMany n payload pos) := by
  induction n generalizing pos with
  | zero => rfl
  | succ n ih =>
      rw [readMany,Guarded.valueAfter (agrees _ _),ByteField.readMany]
      cases f.read payload pos with
      | none => rfl
      | some found =>
          simp only
          rw [Guarded.valueAfter (ih found.2)]
          cases f.readMany n payload found.2 with
          | none => rfl
          | some rest => rfl

theorem valueCounts : (readCounts payload pos).value = some (Wire.readCounts payload pos) := by
  rw [readCounts,Guarded.valueAfter (valueU32 _ _),Wire.readCounts]
  cases Wire.readU32 payload pos with
  | none => rfl
  | some one =>
      simp only
      rw [Guarded.valueAfter (valueU32 _ _)]
      cases Wire.readU32 payload one.2 with
      | none => rfl
      | some two =>
          simp only
          rw [Guarded.valueAfter (valueU32 _ _)]
          cases Wire.readU32 payload two.2 with
          | none => rfl
          | some three => rfl

theorem valueDecode : (decode payload).value = some (Wire.decode payload) := by
  rw [decode,Wire.decode]
  by_cases short : payload.length < 20
  · rw [if_pos short,if_pos short]
    rfl
  rw [if_neg short,if_neg short,Guarded.valueAfter (valueU32 _ _)]
  cases readsVersion : Wire.readU32 payload 0 with
  | none => rfl
  | some version =>
  simp only
  split
  · rfl
  rw [Guarded.valueAfter (valueU32 _ _)]
  cases readsType : Wire.readU32 payload version.2 with
  | none => rfl
  | some t =>
  simp only
  split
  · rfl
  rw [Guarded.valueAfter (valueCounts _ _)]
  cases counts : Wire.readCounts payload t.2 with
  | none => rfl
  | some found =>
  obtain ⟨n64,n32,blen,p3⟩ := found
  simp only
  split
  · rfl
  rw [Guarded.valueAfter (valueMany payload p3 u64Field valueU64 n64.toNat)]
  cases reads64 : u64Field.readMany n64.toNat payload p3 with
  | none => rfl
  | some u64s =>
  simp only
  rw [Guarded.valueAfter (valueMany payload u64s.2 u32Field valueU32 n32.toNat)]
  cases reads32 : u32Field.readMany n32.toNat payload u64s.2 with
  | none => rfl
  | some u32s =>
  simp only
  have inside : u32s.2 ≤ payload.length := headerInside readsVersion readsType counts reads64 reads32
  rw [Guarded.valueAfter (Guarded.valueDifference inside)]
  split
  · rfl
  rename_i fits
  rw [Guarded.valueBind,Guarded.valueElements,if_pos (by omega),Option.bind_some]
  split
  · rfl
  · rfl

end values

end Unguarded

theorem cutsAndPaddingCaught :
    (∀ payload msg, decode payload = .ok msg → ∀ front, front <+: payload → front ≠ payload →
      ∃ text, decode front = Result.err .truncatedFrame text) ∧
    (∀ payload msg, decode payload = .ok msg → ∀ padding, padding ≠ [] →
      ∃ text, decode (payload ++ padding) = Result.err .malformed text) ∧
    ∀ payload, (Unguarded.decode payload).Safe ∧ (Unguarded.decode payload).value = some (decode payload) := by
  refine ⟨?_,?_,?_⟩
  · rintro _ msg reads front ⟨cut,rfl⟩ proper
    refine cutTruncated reads ?_
    rintro rfl
    exact proper (List.append_nil _).symm
  · intro payload msg reads padding extra
    exact paddingMalformed reads extra
  · intro payload
    have reached := Unguarded.valueDecode payload
    exact ⟨Guarded.safeOf reached,reached⟩

theorem identityCutAndPadded : ∃ payload, decode payload = .ok identityMessage ∧
    (∃ text, decode (payload.take 30) = Result.err .truncatedFrame text) ∧
    ∃ text, decode (payload ++ [0]) = Result.err .malformed text := by
  have reads := layoutDecodes identityConforms
  have size : (layout identityMessage).length = 62 := by rw [layoutLength]; rfl
  have proper : (layout identityMessage).take 30 ≠ layout identityMessage := by
    intro same
    have lengths := congrArg List.length same
    rw [List.length_take,size] at lengths
    contradiction
  exact ⟨_,reads,cutsAndPaddingCaught.1 _ _ reads _ (List.take_prefix _ _) proper,
    cutsAndPaddingCaught.2.1 _ _ reads _ (List.cons_ne_nil _ _)⟩

end SpeculationFabric.Wire
