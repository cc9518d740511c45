import Mathlib.Data.List.Basic

/-! Computations that index sequences without a bounds check. Each carries the list
of what it relied on, and has a value exactly when all of it holds: an index below the
size of what it is read from, a subtrahend not above the minuend. The first of these
that fails ends the computation. -/
namespace Guarding

inductive Check where
  | element (index size : Nat)
  | difference (whole part : Nat)
  deriving DecidableEq, Repr

def Check.Holds : Check → Prop
  | .element index size => index < size
  | .difference whole part => part ≤ whole

structure Guarded (A : Type) where
  checks : List Check
  value : Option A
  exact : value.isSome ↔ ∀ c ∈ checks, c.Holds

namespace Guarded

variable {A B : Type}

def Safe (x : Guarded A) : Prop := ∀ c ∈ x.checks, c.Holds

def done (a : A) : Guarded A := ⟨[],some a,by simp⟩

def andThen (x : Guarded A) (f : A → Guarded B) : Guarded B where
  checks := x.checks ++ x.value.elim [] fun a => (f a).checks
  value := x.value.bind fun a => (f a).value
  exact := by
    have first := x.exact
    cases reached : x.value with
    | none =>
        rw [reached] at first
        simpa using first
    | some a =>
        rw [reached] at first
        have held : ∀ c ∈ x.checks, c.Holds := first.mp rfl
        rw [Option.bind_some,Option.elim_some,(f a).exact]
        constructor
        · intro later c member
          exact (List.mem_append.mp member).elim (held c) (later c)
        · intro all c member
          exact all c (List.mem_append_right _ member)

instance : Monad Guarded where
  pure := done
  bind := andThen

def element (xs : List A) (i : Nat) : Guarded A where
  checks := [.element i xs.length]
  value := xs[i]?
  exact := by simp [Check.Holds]

def difference (whole part : Nat) : Guarded Nat where
  checks := [.difference whole part]
  value := if part ≤ whole then some (whole - part) else none
  exact := by
    rw [List.forall_mem_singleton,Check.Holds]
    split <;> simp_all

def elements (xs : List A) : Nat → Nat → Guarded (List A)
  | _,0 => pure []
  | start,count + 1 => do
      let a ← element xs start
      let rest ← elements xs (start + 1) count
      pure (a :: rest)

theorem safeValue (x : Guarded A) : x.Safe ↔ x.value.isSome := x.exact.symm

theorem safeOf {x : Guarded A} {a : A} (reached : x.value = some a) : x.Safe :=
  x.safeValue.mpr (by rw [reached]; rfl)

@[simp] theorem valuePure (a : A) : (pure a : Guarded A).value = some a := rfl

@[simp] theorem valueBind (x : Guarded A) (f : A → Guarded B) :
    (x >>= f).value = x.value.bind fun a => (f a).value := rfl

@[simp] theorem valueElement (xs : List A) (i : Nat) : (element xs i).value = xs[i]? := rfl

theorem valueAfter {x : Guarded A} {a : A} (reached : x.value = some a) (f : A → Guarded B) :
    (x >>= f).value = (f a).value := by
  rw [valueBind,reached,Option.bind_some]

theorem valueDifference {whole part : Nat} (inside : part ≤ whole) :
    (difference whole part).value = some (whole - part) := if_pos inside

@[simp] theorem safePure (a : A) : (pure a : Guarded A).Safe := safeOf rfl

@[simp] theorem safeElement (xs : List A) (i : Nat) : (element xs i).Safe ↔ i < xs.length := by
  rw [safeValue,valueElement]
  simp

theorem safeBind (x : Guarded A) (f : A → Guarded B) :
    (x >>= f).Safe ↔ x.Safe ∧ ∀ a, x.value = some a → (f a).Safe := by
  rw [safeValue,safeValue,valueBind]
  cases reached : x.value with
  | none => simp
  | some a => simp [safeValue]

theorem safeThen (x : Guarded A) {f : A → Guarded B} {P : Prop} (later : ∀ a, (f a).Safe ↔ P) :
    (x >>= f).Safe ↔ x.Safe ∧ P := by
  rw [safeBind]
  constructor
  · rintro ⟨first,rest⟩
    obtain ⟨a,reached⟩ := Option.isSome_iff_exists.mp (x.safeValue.mp first)
    exact ⟨first,(later a).mp (rest a reached)⟩
  · rintro ⟨first,holds⟩
    exact ⟨first,fun a _ => (later a).mpr holds⟩

theorem safeReads (xs : List A) (i : Nat) (f : A → Guarded B) :
    (element xs i >>= f).Safe ↔ ∃ a, xs[i]? = some a ∧ (f a).Safe := by
  rw [safeBind,safeElement]
  constructor
  · rintro ⟨inside,later⟩
    have found := List.getElem?_eq_getElem inside
    exact ⟨xs[i],found,later _ found⟩
  · rintro ⟨a,found,later⟩
    refine ⟨(List.getElem?_eq_some_iff.mp found).1,?_⟩
    intro b same
    cases found.symm.trans same
    exact later

theorem existsElement (xs : List A) (i : Nat) : (∃ a, xs[i]? = some a) ↔ i < xs.length := by
  rw [← safeElement,safeValue,valueElement,Option.isSome_iff_exists]

theorem valueElements (xs : List A) (start count : Nat) :
    (elements xs start count).value =
      if count = 0 ∨ start + count ≤ xs.length then some ((xs.drop start).take count) else none := by
  induction count generalizing start with
  | zero => simp [elements]
  | succ count ih =>
      rw [elements,valueBind,valueElement]
      by_cases inside : start < xs.length
      · rw [List.getElem?_eq_getElem inside,Option.bind_some,valueBind,ih,List.drop_eq_getElem_cons inside,
          List.take_succ_cons]
        by_cases fits : start + (count + 1) ≤ xs.length
        · rw [if_pos (Or.inr (by omega)),if_pos (Or.inr fits)]
          rfl
        · rw [if_neg (by omega)]
          cases count with
          | zero => omega
          | succ count =>
              rw [if_neg (by omega)]
              rfl
      · rw [List.getElem?_eq_none (by omega),if_neg (by omega)]
        rfl

theorem safeElements (xs : List A) (start count : Nat) :
    (elements xs start count).Safe ↔ count = 0 ∨ start + count ≤ xs.length := by
  rw [safeValue,valueElements]
  split <;> simp_all

end Guarded

end Guarding
