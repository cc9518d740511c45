import Mathlib.Data.List.Basic
import Mathlib.Data.Nat.Bitwise
import Mathlib.Tactic.Ring

/-! Little-endian words and fields read from a byte list at a position. A field
carries the law that its reader returns exactly what its writer put there, so a
decoder that chains fields inverts the encoder that concatenates them. -/
namespace ByteFields

def bytes : Nat → Nat → List UInt8
  | 0, _ => []
  | w + 1, n => UInt8.ofNat n :: bytes w (n / 256)

def value : List UInt8 → Nat
  | [] => 0
  | b :: rest => b.toNat + 256 * value rest

@[simp] theorem bytesLength (w n : Nat) : (bytes w n).length = w := by
  induction w generalizing n with
  | zero => rfl
  | succ w ih => simp [bytes,ih]

theorem bytesRange (w n : Nat) :
    bytes w n = (List.range w).map fun i => UInt8.ofNat (n / 256 ^ i) := by
  induction w generalizing n with
  | zero => rfl
  | succ w ih =>
      rw [bytes,ih,List.range_succ_eq_map,List.map_cons,List.map_map,Nat.pow_zero,Nat.div_one]
      congr 1
      apply List.map_congr_left
      intro i _
      simp only [Function.comp,Nat.pow_succ',Nat.div_div_eq_div_mul]

theorem valueBytes (w n : Nat) : value (bytes w n) = n % 256 ^ w := by
  induction w generalizing n with
  | zero => simp [bytes,value,Nat.mod_one]
  | succ w ih =>
      have low : (UInt8.ofNat n).toNat = n % 256 := UInt8.toNat_ofNat'
      rw [bytes,value,ih,low,Nat.pow_succ',Nat.mod_mul]

theorem valueLt (bs : List UInt8) : value bs < 256 ^ bs.length := by
  induction bs with
  | nil => exact Nat.one_pos
  | cons b rest ih =>
      have small : b.toNat < 256 := b.toNat_lt
      rw [value,List.length_cons,Nat.pow_succ]
      omega

theorem bytesValue (bs : List UInt8) : bytes bs.length (value bs) = bs := by
  induction bs with
  | nil => rfl
  | cons b rest ih =>
      have small : b.toNat < 256 := b.toNat_lt
      have high : (b.toNat + 256 * value rest) / 256 = value rest := by omega
      have low : UInt8.ofNat (b.toNat + 256 * value rest) = b := by
        apply UInt8.toNat_inj.mp
        rw [UInt8.toNat_ofNat']
        omega
      rw [List.length_cons,bytes,value,high,low,ih]

theorem valueSnoc (bs : List UInt8) (b : UInt8) :
    value (bs ++ [b]) = value bs + 256 ^ bs.length * b.toNat := by
  induction bs with
  | nil => simp [value]
  | cons c rest ih =>
      rw [List.cons_append,value,ih,value,List.length_cons,Nat.pow_succ']
      ring

theorem orAppendsByte (bs : List UInt8) (b : UInt8) :
    value bs ||| b.toNat <<< (8 * bs.length) = value (bs ++ [b]) := by
  have power : 256 ^ bs.length = 2 ^ (8 * bs.length) := by rw [Nat.pow_mul]
  have low : value bs < 2 ^ (8 * bs.length) := power ▸ valueLt bs
  rw [Nat.or_comm,← Nat.shiftLeft_add_eq_or_of_lt low,valueSnoc,power,Nat.shiftLeft_eq]
  ring

theorem maskedByte (n i : Nat) : (n >>> (8 * i)) &&& 255 = n / 256 ^ i % 256 := by
  rw [Nat.shiftRight_eq_div_pow,Nat.pow_mul]
  exact Nat.and_two_pow_sub_one_eq_mod _ 8

theorem shiftedByteLt {k w : Nat} (b : UInt8) (inside : k < w) : b.toNat <<< (8 * k) < 2 ^ (8 * w) := by
  have small : b.toNat < 2 ^ 8 := b.toNat_lt
  rw [Nat.shiftLeft_eq]
  calc b.toNat * 2 ^ (8 * k) < 2 ^ 8 * 2 ^ (8 * k) := Nat.mul_lt_mul_of_pos_right small (Nat.two_pow_pos _)
    _ = 2 ^ (8 * (k + 1)) := by rw [← Nat.pow_add]; congr 1; omega
    _ ≤ 2 ^ (8 * w) := Nat.pow_le_pow_right Nat.two_pos (by omega)

theorem wordExact {bs : List UInt8} {pos w n next : Nat} (wide : 0 < w) (fits : n < 256 ^ w) :
    (pos + w ≤ bs.length ∧ value ((bs.drop pos).take w) = n ∧ next = pos + w) ↔
      bs.drop pos = bytes w n ++ bs.drop next ∧ next = pos + (bytes w n).length := by
  rw [bytesLength]
  constructor
  · rintro ⟨inside,reads,rfl⟩
    have here : ((bs.drop pos).take w).length = w := by
      rw [List.length_take,List.length_drop]
      omega
    have written := bytesValue ((bs.drop pos).take w)
    rw [here,reads] at written
    exact ⟨by rw [written,← List.drop_drop,List.take_append_drop],rfl⟩
  · rintro ⟨here,rfl⟩
    have size := congrArg List.length here
    rw [List.length_append,List.length_drop,List.length_drop,bytesLength] at size
    have taken : (bs.drop pos).take w = bytes w n := by
      rw [here,List.take_left' (bytesLength w n)]
    exact ⟨by omega,by rw [taken,valueBytes,Nat.mod_eq_of_lt fits],rfl⟩

theorem window {bs : List UInt8} {pos w : Nat} (inside : pos + w ≤ bs.length) :
    List.ofFn (fun i : Fin w => bs[pos + i]) = (bs.drop pos).take w := by
  apply List.ext_getElem
  · simp
    omega
  · intro i _ _
    simp

theorem wordRead {A : Type} {toNat : A → Nat} (injective : ∀ a b, toNat a = toNat b → a = b)
    {bs : List UInt8} {pos w : Nat} {read : Option (A × Nat)} (wide : 0 < w)
    (short : bs.length < pos + w → read = none)
    (long : pos + w ≤ bs.length → ∃ a, read = some (a,pos + w) ∧ toNat a = value ((bs.drop pos).take w))
    {v : A} (fits : toNat v < 256 ^ w) (next : Nat) :
    read = some (v,next) ↔
      bs.drop pos = bytes w (toNat v) ++ bs.drop next ∧ next = pos + (bytes w (toNat v)).length := by
  rw [← wordExact wide fits]
  constructor
  · intro reads
    have inside : pos + w ≤ bs.length := by
      by_contra outside
      rw [short (by omega)] at reads
      cases reads
    obtain ⟨a,found,word⟩ := long inside
    rw [found] at reads
    cases reads
    exact ⟨inside,word.symm,rfl⟩
  · rintro ⟨inside,word,rfl⟩
    obtain ⟨a,found,same⟩ := long inside
    rw [found,injective a v (by rw [same,word])]

structure ByteField (A : Type) where
  put : A → List UInt8
  read : List UInt8 → Nat → Option (A × Nat)
  exact : ∀ bs pos v next, read bs pos = some (v,next) ↔
    bs.drop pos = put v ++ bs.drop next ∧ next = pos + (put v).length

namespace ByteField

variable {A : Type} (f : ByteField A)

theorem readsNext {bs : List UInt8} {pos : Nat} {v : A} {rest : List UInt8}
    (here : bs.drop pos = f.put v ++ rest) :
    f.read bs pos = some (v,pos + (f.put v).length) ∧ bs.drop (pos + (f.put v).length) = rest := by
  have after : bs.drop (pos + (f.put v).length) = rest := by
    rw [← List.drop_drop,here,List.drop_left]
  exact ⟨(f.exact _ _ _ _).mpr ⟨by rw [after,here],rfl⟩,after⟩

theorem putUnique {v w : A} {x y : List UInt8} (same : f.put v ++ x = f.put w ++ y) : v = w ∧ x = y := by
  have here : (f.put v ++ x).drop 0 = f.put v ++ x := rfl
  obtain ⟨readsLeft,left⟩ := f.readsNext here
  obtain ⟨readsRight,right⟩ := f.readsNext (here.trans same)
  rw [readsLeft,Option.some.injEq,Prod.mk.injEq] at readsRight
  exact ⟨readsRight.1,by rw [← left,← right,readsRight.2]⟩

def readMany : Nat → List UInt8 → Nat → Option (List A × Nat)
  | 0, _, pos => some ([],pos)
  | n + 1, bs, pos =>
      match f.read bs pos with
      | none => none
      | some (v,next) =>
          match readMany n bs next with
          | none => none
          | some (rest,last) => some (v :: rest,last)

theorem readManyCases {n : Nat} {bs : List UInt8} {pos last : Nat} {vs : List A}
    (reads : f.readMany (n + 1) bs pos = some (vs,last)) :
    ∃ v next rest, f.read bs pos = some (v,next) ∧ f.readMany n bs next = some (rest,last) ∧ vs = v :: rest := by
  rw [readMany] at reads
  split at reads
  · cases reads
  · rename_i v next first
    split at reads
    · cases reads
    · rename_i rest next' later
      cases reads
      exact ⟨v,next,rest,first,later,rfl⟩

theorem manyReads {n : Nat} {bs : List UInt8} {pos : Nat} {vs : List A} {last : Nat}
    (reads : f.readMany n bs pos = some (vs,last)) :
    vs.length = n ∧ bs.drop pos = vs.flatMap f.put ++ bs.drop last := by
  induction n generalizing pos vs with
  | zero =>
      cases reads
      exact ⟨rfl,rfl⟩
  | succ n ih =>
      obtain ⟨v,next,rest,first,later,rfl⟩ := f.readManyCases reads
      obtain ⟨here,_⟩ := (f.exact _ _ _ _).mp first
      obtain ⟨count,there⟩ := ih later
      exact ⟨congrArg Nat.succ count,by rw [here,there,List.flatMap_cons,List.append_assoc]⟩

theorem readsMany {bs : List UInt8} {pos : Nat} {vs : List A} {rest : List UInt8}
    (here : bs.drop pos = vs.flatMap f.put ++ rest) :
    f.readMany vs.length bs pos = some (vs,pos + (vs.flatMap f.put).length) ∧
      bs.drop (pos + (vs.flatMap f.put).length) = rest := by
  induction vs generalizing pos with
  | nil => exact ⟨rfl,here⟩
  | cons v vs ih =>
      rw [List.flatMap_cons,List.append_assoc] at here
      obtain ⟨first,there⟩ := f.readsNext here
      obtain ⟨later,after⟩ := ih there
      rw [List.flatMap_cons,List.length_append,← Nat.add_assoc]
      exact ⟨by simp only [List.length_cons,readMany,first,later],after⟩

theorem manyUnique {vs ws : List A} {x y : List UInt8} (count : vs.length = ws.length)
    (same : vs.flatMap f.put ++ x = ws.flatMap f.put ++ y) : vs = ws ∧ x = y := by
  have here : (vs.flatMap f.put ++ x).drop 0 = vs.flatMap f.put ++ x := rfl
  obtain ⟨readsLeft,left⟩ := f.readsMany here
  obtain ⟨readsRight,right⟩ := f.readsMany (here.trans same)
  rw [← count,readsLeft,Option.some.injEq,Prod.mk.injEq] at readsRight
  exact ⟨readsRight.1,by rw [← left,← right,readsRight.2]⟩

theorem manyEnds {n : Nat} {bs : List UInt8} {pos : Nat} {vs : List A} {last : Nat}
    (reads : f.readMany n bs pos = some (vs,last)) : last = pos + (vs.flatMap f.put).length := by
  induction n generalizing pos vs with
  | zero =>
      cases reads
      rfl
  | succ n ih =>
      obtain ⟨v,next,rest,first,later,rfl⟩ := f.readManyCases reads
      obtain ⟨_,after⟩ := (f.exact _ _ _ _).mp first
      rw [ih later,after,List.flatMap_cons,List.length_append,Nat.add_assoc]

theorem readManyExact (n : Nat) (bs : List UInt8) (pos : Nat) (vs : List A) (last : Nat) :
    f.readMany n bs pos = some (vs,last) ↔
      vs.length = n ∧ bs.drop pos = vs.flatMap f.put ++ bs.drop last ∧ last = pos + (vs.flatMap f.put).length := by
  constructor
  · intro reads
    obtain ⟨count,here⟩ := f.manyReads reads
    exact ⟨count,here,f.manyEnds reads⟩
  · rintro ⟨rfl,here,rfl⟩
    exact (f.readsMany here).1

theorem readExtends {bs : List UInt8} {pos : Nat} {v : A} {next : Nat} (reads : f.read bs pos = some (v,next))
    (more : List UInt8) : f.read (bs ++ more) pos = some (v,next) := by
  obtain ⟨here,rfl⟩ := (f.exact _ _ _ _).mp reads
  by_cases inside : pos ≤ bs.length
  · have there : (bs ++ more).drop pos = f.put v ++ (bs.drop (pos + (f.put v).length) ++ more) := by
      rw [List.drop_append_of_le_length inside,← List.append_assoc,← here]
    exact (f.readsNext there).1
  · have empty : f.put v = [] := by
      rw [List.drop_of_length_le (by omega)] at here
      exact (List.append_eq_nil_iff.mp here.symm).1
    exact (f.exact _ _ _ _).mpr ⟨by rw [empty]; rfl,rfl⟩

theorem readManyExtends {n : Nat} {bs : List UInt8} {pos : Nat} {vs : List A} {last : Nat}
    (reads : f.readMany n bs pos = some (vs,last)) (more : List UInt8) :
    f.readMany n (bs ++ more) pos = some (vs,last) := by
  induction n generalizing pos vs with
  | zero => exact reads
  | succ n ih =>
      obtain ⟨v,next,rest,first,later,rfl⟩ := f.readManyCases reads
      simp only [readMany,f.readExtends first more,ih later]

theorem readInside {bs : List UInt8} {pos : Nat} {v : A} {next : Nat} (reads : f.read bs pos = some (v,next))
    (start : pos ≤ bs.length) : next ≤ bs.length := by
  obtain ⟨here,rfl⟩ := (f.exact _ _ _ _).mp reads
  have size := congrArg List.length here
  simp only [List.length_append,List.length_drop] at size
  omega

theorem manyInside {n : Nat} {bs : List UInt8} {pos : Nat} {vs : List A} {last : Nat}
    (reads : f.readMany n bs pos = some (vs,last)) (start : pos ≤ bs.length) : last ≤ bs.length := by
  induction n generalizing pos vs with
  | zero =>
      cases reads
      exact start
  | succ n ih =>
      obtain ⟨v,next,rest,first,later,rfl⟩ := f.readManyCases reads
      exact ih later (f.readInside first start)

end ByteField

end ByteFields
