import SpeculationFabric.Pairs

/-! What the canonical text of a pair says about the decision. It writes names and leaves
out the numbers and hashes the decision compares, and its separators may occur in a name.
So the text decides only where it cannot be read as that of two models with one tokenizer
name and one adapter name, or where it gives no protocol version. -/
namespace SpeculationFabric

structure Written where
  name : String
  revision : Revision
  tokenizer : String
  adapter : Option String
  executor : String
  device : String
  deriving DecidableEq, Repr

def ModelIdentity.written (m : ModelIdentity) : Written :=
  ⟨m.name,m.revision,m.tokenizer.name,m.adapter.map AdapterIdentity.name,m.executor.name,m.device.canonical⟩

def Written.text (w : Written) : String :=
  let s := "model=" ++ w.name ++ ";rev=" ++ w.revision.str ++ ";tok=" ++ w.tokenizer ++ ";"
  let s := match w.adapter with
    | some adapter => s ++ ("adapter=" ++ adapter ++ ";")
    | none => s
  s ++ ("exec=" ++ w.executor ++ ";dev=" ++ w.device)

theorem canonicalWritten (m : ModelIdentity) : m.canonical = m.written.text := by
  unfold ModelIdentity.canonical Written.text ModelIdentity.written
  cases m.adapter with
  | none => rfl
  | some adapter => rfl

def pairText (p v : Written) (version : UInt32) : String := p.text ++ "|" ++ v.text ++ "|proto=" ++ toString version

theorem keyWritten (key : ModelPairCompatibilityKey) :
    key.canonical = pairText key.proposer.written key.verifier.written key.protocolVersion := by
  rw [ModelPairCompatibilityKey.canonical,canonicalWritten,canonicalWritten,pairText]

def Written.model (w : Written) (tokenizer : TokenizerId) : ModelIdentity :=
  { revision := w.revision
    tokenizer := { id := tokenizer, name := w.tokenizer }
    adapter := w.adapter.map fun name => { name := name }
    executor := { name := w.executor }
    device := { canonical := w.device }
    name := w.name }

theorem writtenModel (w : Written) (tokenizer : TokenizerId) : (w.model tokenizer).written = w := by
  cases w with
  | mk name revision tok adapter executor device =>
      cases adapter with
      | none => rfl
      | some a => rfl

theorem lastPart {α : Type} {separator : α} {xs ys front back : List α} (left : separator ∉ xs) (right : separator ∉ ys)
    (same : front ++ separator :: xs = back ++ separator :: ys) : xs = ys := by
  rcases List.append_eq_append_iff.mp same with ⟨between,rfl,rest⟩ | ⟨between,rfl,rest⟩
  · cases between with
    | nil => exact (List.cons.inj rest).2
    | cons c between =>
        obtain ⟨_,later⟩ := List.cons.inj rest
        rw [later] at left
        exact absurd (List.mem_append_right _ List.mem_cons_self) left
  · cases between with
    | nil => exact (List.cons.inj rest).2.symm
    | cons c between =>
        obtain ⟨_,later⟩ := List.cons.inj rest
        rw [later] at right
        exact absurd (List.mem_append_right _ List.mem_cons_self) right

theorem versionText (v : UInt32) : (toString v).toList = Nat.toDigits 10 v.toNat := Nat.toList_repr

theorem versionDigits (v : UInt32) : '=' ∉ (toString v).toList := by
  rw [versionText]
  intro member
  have digit := Nat.isDigit_of_mem_toDigits (by decide) (by decide) member
  contradiction

theorem canonicalVersion {k l : ModelPairCompatibilityKey} (same : k.canonical = l.canonical) :
    k.protocolVersion = l.protocolVersion := by
  have split (key : ModelPairCompatibilityKey) : ∃ front, key.canonical.toList =
      front ++ '=' :: (toString key.protocolVersion).toList := by
    refine ⟨(key.proposer.canonical ++ "|" ++ key.verifier.canonical ++ "|proto").toList,?_⟩
    simp [ModelPairCompatibilityKey.canonical]
  obtain ⟨front,left⟩ := split k
  obtain ⟨back,right⟩ := split l
  rw [same,right] at left
  have digits := lastPart (versionDigits l.protocolVersion) (versionDigits k.protocolVersion) left
  rw [versionText,versionText] at digits
  rw [← UInt32.toNat_inj,← Nat.ofDigitChars_ten_toDigits (n := k.protocolVersion.toNat),← digits,
    Nat.ofDigitChars_ten_toDigits]

def ReadsAlike (key : ModelPairCompatibilityKey) : Prop :=
  ∃ p v : Written, p.tokenizer = v.tokenizer ∧ p.adapter = v.adapter ∧
    key.canonical = pairText p v key.protocolVersion

theorem compatibleReadsAlike {key : ModelPairCompatibilityKey}
    (compatible : (evaluateCompatibility key).compatible = true) : ReadsAlike key := by
  obtain ⟨pair,_⟩ := (compatibleIff key).mp compatible
  refine ⟨_,_,pair.tokenizer.2.1,?_,keyWritten key⟩
  show key.proposer.adapter.map _ = key.verifier.adapter.map _
  rcases pair.adapter with ⟨left,right⟩ | ⟨a,left,right⟩
  · rw [left,right]
  · rw [left,right]

/- A reading turned back into keys: the tokenizer ids, which no text shows, decide. -/
def readKey (p v : Written) (version : UInt32) (proposer verifier : TokenizerId) : ModelPairCompatibilityKey :=
  ⟨p.model proposer,v.model verifier,version⟩

theorem readKeyText (p v : Written) (version : UInt32) (proposer verifier : TokenizerId) :
    (readKey p v version proposer verifier).canonical = pairText p v version := by
  rw [keyWritten]
  show pairText (p.model proposer).written (v.model verifier).written version = _
  rw [writtenModel,writtenModel]

theorem readKeyCompatible {p v : Written} {version : UInt32} (tokenizer : p.tokenizer = v.tokenizer)
    (adapter : p.adapter = v.adapter) (present : version ≠ 0) :
    (evaluateCompatibility (readKey p v version ⟨1⟩ ⟨1⟩)).compatible = true := by
  refine (compatibleIff _).mpr ⟨⟨⟨rfl,tokenizer,rfl,rfl⟩,rfl,?_,.inl rfl,.inl rfl⟩,?_⟩
  · show p.adapter.map _ = none ∧ v.adapter.map _ = none ∨ ∃ a, p.adapter.map _ = some a ∧ v.adapter.map _ = some a
    rw [adapter]
    cases v.adapter with
    | none => exact .inl ⟨rfl,rfl⟩
    | some name => exact .inr ⟨_,rfl,rfl⟩
  · refine Nat.pos_of_ne_zero ?_
    intro zero
    exact present (UInt32.toNat_inj.mp zero)

theorem readKeyIncompatible (p v : Written) (version : UInt32) :
    (evaluateCompatibility (readKey p v version ⟨1⟩ ⟨2⟩)).compatible = false := by
  rw [← Bool.not_eq_true,compatibleIff]
  rintro ⟨pair,_⟩
  exact absurd pair.tokenizer.1 (by show ¬(⟨1⟩ : TokenizerId) = ⟨2⟩; decide)

theorem versionlessIncompatible {key : ModelPairCompatibilityKey} (none : key.protocolVersion = 0) :
    (evaluateCompatibility key).compatible = false := by
  rw [← Bool.not_eq_true,compatibleIff,none]
  rintro ⟨_,positive⟩
  contradiction

theorem canonicalDecidesExactly (key : ModelPairCompatibilityKey) :
    (∀ other : ModelPairCompatibilityKey, other.canonical = key.canonical →
      (evaluateCompatibility other).compatible = (evaluateCompatibility key).compatible) ↔
      key.protocolVersion = 0 ∨ ¬ReadsAlike key := by
  constructor
  · intro decides
    by_contra otherwise
    rw [not_or,not_not] at otherwise
    obtain ⟨present,p,v,tokenizer,adapter,text⟩ := otherwise
    have yes := decides (readKey p v key.protocolVersion ⟨1⟩ ⟨1⟩) ((readKeyText _ _ _ _ _).trans text.symm)
    have no := decides (readKey p v key.protocolVersion ⟨1⟩ ⟨2⟩) ((readKeyText _ _ _ _ _).trans text.symm)
    rw [readKeyCompatible tokenizer adapter present] at yes
    rw [readKeyIncompatible,← yes] at no
    contradiction
  · rintro (none | unlike) other same
    · rw [versionlessIncompatible none,versionlessIncompatible ((canonicalVersion same).trans none)]
    · have incompatible {k : ModelPairCompatibilityKey} (text : k.canonical = key.canonical) :
          (evaluateCompatibility k).compatible = false := by
        rw [← Bool.not_eq_true]
        intro compatible
        obtain ⟨p,v,tokenizer,adapter,reading⟩ := compatibleReadsAlike compatible
        refine unlike ⟨p,v,tokenizer,adapter,?_⟩
        rw [← text,reading,canonicalVersion text]
      rw [incompatible same,incompatible rfl]

def sharedNames (verifier : TokenizerId) : ModelPairCompatibilityKey :=
  { proposer := makeModel ⟨9⟩, verifier := makeModel verifier, protocolVersion := 1 }

theorem oneKeyTwoDecisions : (sharedNames ⟨9⟩).canonical = (sharedNames ⟨10⟩).canonical ∧
    (evaluateCompatibility (sharedNames ⟨9⟩)).compatible = true ∧
    (evaluateCompatibility (sharedNames ⟨10⟩)).compatible = false := by
  refine ⟨rfl,?_,?_⟩
  · decide +kernel
  · decide +kernel

end SpeculationFabric
