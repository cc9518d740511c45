import SpeculationFabric.Barrier
import SpeculationFabric.CpuProposer
import Mathlib.Data.List.FinRange
import Mathlib.Data.List.GetD

/-! The proposer and verifier kernels. One block of sixteen threads, one thread for
each word of the state; the phases are the stretches between barriers. Device memory
starts with arbitrary contents; launching and copying are the host's. -/
namespace SpeculationFabric.Cuda

abbrev kNW : Nat := 16

def kVocab : UInt32 := 4096

def kTargetSeed : UInt32 := 0x5A17B0C

def kMA : UInt32 := 0x9E3779B9

def kMB : UInt32 := 0x85EBCA6B

def splitmix (x : UInt64) : UInt32 × UInt64 :=
  let x := x + 0x9E3779B97F4A7C15
  let z := (x ^^^ (x >>> 30)) * 0xBF58476D1CE4E5B9
  let z := (z ^^^ (z >>> 27)) * 0x94D049BB133111EB
  let z := z ^^^ (z >>> 31)
  (z.toUInt32,x)

def buildRow : Nat → UInt64 → List UInt32 × UInt64
  | 0,x => ([],x)
  | n + 1,x =>
      let (word,x) := splitmix x
      let (rest,x) := buildRow n x
      ((word &&& 0xFFFF) :: rest,x)

/- Row `i` fills `w[i * kNW ..]`, so the rows stand behind one another. -/
def buildRows : Nat → UInt64 → List UInt32 × List UInt32
  | 0,_ => ([],[])
  | n + 1,x =>
      let (row,x) := buildRow kNW x
      let (word,x) := splitmix x
      let (w,b) := buildRows n x
      (row ++ w,(word &&& 0xFFFF) :: b)

def buildTarget : List UInt32 × List UInt32 := buildRows kNW (kTargetSeed.toUInt64 ||| ((1 : UInt64) <<< 32))

abbrev Thread := Fin kNW

structure BlockMemory (ω : Type) where
  state : Thread → UInt32
  next : Thread → UInt32
  sprev : UInt32
  out : ω

section kernels
variable {ω : Type}

def seedWords (seed : UInt64) (state : Thread → UInt32) : Thread → UInt32 :=
  ((List.finRange kNW).foldl (fun (acc : UInt64 × (Thread → UInt32)) i =>
    ((splitmix acc.1).2,Function.update acc.2 i (splitmix acc.1).1)) (seed,state)).2

def seedPart (seed : UInt64) (reset : ω → ω) : Thread → BlockMemory ω → BlockMemory ω :=
  Barrier.led 0 (fun m => { m with state := seedWords seed m.state, sprev := 0, out := reset m.out })

def raw (m : BlockMemory ω) (i : UInt32) : UInt32 :=
  m.state 0 ^^^ m.state 7 ^^^ m.state 13 ^^^ (kMA * (i + 1)) ^^^ kMB ^^^ m.sprev

def mixed (w b : List UInt32) (t : Thread) (m : BlockMemory ω) : UInt32 :=
  (List.finRange kNW).foldl (fun acc j => (acc * kMB) ^^^ (m.state j * w.getD (t.val * kNW + j.val) 0))
    (b.getD t.val 0 ^^^ (kMA * m.sprev))

def mixPart (w b : List UInt32) (t : Thread) (m : BlockMemory ω) : BlockMemory ω :=
  { m with next := Function.update m.next t (mixed w b t m) }

def copyPart (t : Thread) (m : BlockMemory ω) : BlockMemory ω :=
  { m with state := Function.update m.state t (m.next t) }

/- One round of the loop: what thread 0 does at position `i`, then all threads, twice. -/
def roundParts (w b : List UInt32) (act : UInt32 → BlockMemory ω → BlockMemory ω) (i : UInt32) :
    List (Thread → BlockMemory ω → BlockMemory ω) :=
  [Barrier.led 0 (act i),mixPart w b,copyPart]

def positions : Nat → UInt32 → List UInt32
  | 0,_ => []
  | count + 1,i => i :: positions count (i + 1)

def kernel (w b : List UInt32) (seed : UInt64) (reset : ω → ω) (act : UInt32 → BlockMemory ω → BlockMemory ω)
    (count : UInt32) : List (Thread → BlockMemory ω → BlockMemory ω) :=
  seedPart seed reset :: (positions count.toNat 0).flatMap (roundParts w b act)

end kernels

def proposeAt (vocab aligned branch i : UInt32) (m : BlockMemory (Nat → UInt32)) : BlockMemory (Nat → UInt32) :=
  let expected := raw m i % vocab
  let tok := if i < aligned then expected else (expected + 1 + branch) % vocab
  { m with out := Function.update m.out i.toNat tok, sprev := tok }

def proposeKernel (w b : List UInt32) (seed : UInt64) (depth vocab aligned branch : UInt32) :
    List (Thread → BlockMemory (Nat → UInt32) → BlockMemory (Nat → UInt32)) :=
  kernel w b seed id (proposeAt vocab aligned branch) depth

structure Verdict where
  perpos : Nat → UInt32
  accepted : UInt32
  firstrej : UInt32

def verifyAt (cand : List UInt32) (len vocab i : UInt32) (m : BlockMemory Verdict) : BlockMemory Verdict :=
  let expected := raw m i % vocab
  let acc := expected == cand.getD i.toNat 0
  { m with
    out := {
      perpos := Function.update m.out.perpos i.toNat (if acc then 1 else 0)
      accepted := if acc then m.out.accepted + 1 else m.out.accepted
      firstrej := if !acc && m.out.firstrej == len then i else m.out.firstrej }
    sprev := expected }

def verifyKernel (w b cand : List UInt32) (seed : UInt64) (len vocab : UInt32) :
    List (Thread → BlockMemory Verdict → BlockMemory Verdict) :=
  kernel w b seed (fun out => { out with accepted := 0, firstrej := len }) (verifyAt cand len vocab) len

abbrev block : List Thread := List.finRange kNW

section rounds
variable {ω : Type}

def nextCells : Barrier.Cells (BlockMemory ω) Thread UInt32 where
  get := BlockMemory.next
  set array m := { m with next := array }
  getSet _ _ := rfl
  setSet _ _ _ := rfl
  setGet _ := rfl

def stateCells : Barrier.Cells (BlockMemory ω) Thread UInt32 where
  get := BlockMemory.state
  set array m := { m with state := array }
  getSet _ _ := rfl
  setSet _ _ _ := rfl
  setGet _ := rfl

def afterRound (w b : List UInt32) (act : UInt32 → BlockMemory ω → BlockMemory ω) (i : UInt32) (m : BlockMemory ω) :
    BlockMemory ω :=
  { act i m with next := fun t => mixed w b t (act i m), state := fun t => mixed w b t (act i m) }

theorem everyThread {order : List Thread} (all : order.Perm block) (t : Thread) : t ∈ order :=
  all.mem_iff.mpr (List.mem_finRange t)

theorem ledPhase {order : List Thread} (all : order.Perm block) (act : BlockMemory ω → BlockMemory ω)
    (m : BlockMemory ω) : Barrier.phase (Barrier.led 0 act) order m = act m :=
  Barrier.ledOnce (all.nodup_iff.mpr (List.nodup_finRange kNW)) (everyThread all 0) m

theorem mixPhase {order : List Thread} (all : order.Perm block) (w b : List UInt32) (m : BlockMemory ω) :
    Barrier.phase (mixPart w b) order m = { m with next := fun t => mixed w b t m } :=
  Barrier.gathered nextCells (mixed w b) (fun _ _ _ => rfl) order (everyThread all) m

theorem copyPhase {order : List Thread} (all : order.Perm block) (m : BlockMemory ω) :
    Barrier.phase copyPart order m = { m with state := m.next } :=
  Barrier.gathered stateCells (fun t m => m.next t) (fun _ _ _ => rfl) order (everyThread all) m

theorem roundSettles (w b : List UInt32) (act : UInt32 → BlockMemory ω → BlockMemory ω) (i : UInt32)
    (m m' : BlockMemory ω) (run : Barrier.Executes block (roundParts w b act i) m m') :
    m' = afterRound w b act i m := by
  cases run with
  | next first all₁ run =>
      cases run with
      | next second all₂ run =>
          cases run with
          | next third all₃ run =>
              cases run
              rw [ledPhase all₁,mixPhase all₂,copyPhase all₃]
              rfl

def seeded (seed : UInt64) (reset : ω → ω) (m : BlockMemory ω) : BlockMemory ω :=
  { m with state := seedWords seed m.state, sprev := 0, out := reset m.out }

def rounds (w b : List UInt32) (act : UInt32 → BlockMemory ω → BlockMemory ω) (count : Nat) (i : UInt32)
    (m : BlockMemory ω) : BlockMemory ω :=
  (positions count i).foldl (fun m i => afterRound w b act i m) m

theorem roundsNext (w b : List UInt32) (act : UInt32 → BlockMemory ω → BlockMemory ω) (count : Nat) (i : UInt32)
    (m : BlockMemory ω) :
    rounds w b act (count + 1) i m = rounds w b act count (i + 1) (afterRound w b act i m) := by
  unfold rounds
  rw [positions,List.foldl_cons]

theorem kernelSettles {w b : List UInt32} {seed : UInt64} {reset : ω → ω}
    {act : UInt32 → BlockMemory ω → BlockMemory ω} {count : UInt32} {m m' : BlockMemory ω}
    (run : Barrier.Executes block (kernel w b seed reset act count) m m') :
    m' = rounds w b act count.toNat 0 (seeded seed reset m) := by
  cases run with
  | next order all after =>
      have start : Barrier.phase (seedPart seed reset) order m = seeded seed reset m := ledPhase all _ m
      rw [start] at after
      unfold rounds
      exact Barrier.loop (roundSettles w b act) _ after

end rounds

theorem wordsSame : kStateWords = kNW := rfl

theorem seedSame : kTargetModelSeed = kTargetSeed := rfl

theorem vocabularySame : kSyntheticVocab = kVocab := rfl

theorem splitmixSame : splitmix = splitmix64Update := rfl

theorem buildRowDrawn (n : Nat) (x : UInt64) :
    buildRow n x = ((drawWords n x).1.map (· &&& 0xFFFF),(drawWords n x).2) := by
  induction n generalizing x with
  | zero => rfl
  | succ n ih =>
      -- the draw is a black box here, unfolding it is expensive
      rw [buildRow,drawWords,splitmixSame]
      generalize splitmix64Update x = drawn
      obtain ⟨word,y⟩ := drawn
      simp only [ih,List.map_cons]

theorem buildRowsDrawn (n : Nat) (x : UInt64) :
    buildRows n x = (((drawRows n x).map Prod.fst).flatten,(drawRows n x).map Prod.snd) := by
  induction n generalizing x with
  | zero => rfl
  | succ n ih =>
      rw [buildRows,drawRows,buildRowDrawn,splitmixSame,wordsSame]
      generalize drawWords kNW x = drawn
      obtain ⟨row,y⟩ := drawn
      dsimp only
      generalize splitmix64Update y = next
      obtain ⟨word,z⟩ := next
      simp only [ih,List.map_cons,List.flatten_cons]

theorem drawnLength (n : Nat) (x : UInt64) : (drawWords n x).1.length = n := by
  induction n generalizing x with
  | zero => rfl
  | succ n ih => simp only [drawWords,List.length_cons,ih]

theorem rowsLength (n : Nat) (x : UInt64) : (drawRows n x).length = n := by
  induction n generalizing x with
  | zero => rfl
  | succ n ih => simp only [drawRows,List.length_cons,ih]

theorem rowLength (n : Nat) (x : UInt64) : ∀ row ∈ (drawRows n x).map Prod.fst, row.length = kNW := by
  induction n generalizing x with
  | zero => simp [drawRows]
  | succ n ih =>
      have length := drawnLength kNW x
      rw [drawRows,wordsSame]
      generalize drawWords kNW x = drawn at length ⊢
      obtain ⟨words,y⟩ := drawn
      dsimp only
      generalize splitmix64Update y = next
      obtain ⟨bias,z⟩ := next
      intro row member
      rw [List.map_cons] at member
      rcases List.mem_cons.mp member with rfl | later
      · exact (List.length_map _).trans length
      · exact ih z row later

theorem flatCell {k : Nat} {rows : List (List UInt32)} (full : ∀ row ∈ rows, row.length = k) (t : Nat) {j : Nat}
    (inside : j < k) : rows.flatten.getD (t * k + j) 0 = (rows.getD t []).getD j 0 := by
  induction rows generalizing t with
  | nil => simp
  | cons row rest ih =>
      have length := full row List.mem_cons_self
      cases t with
      | zero =>
          rw [List.flatten_cons,Nat.zero_mul,Nat.zero_add,List.getD_append _ _ _ _ (by omega),List.getD_cons_zero]
      | succ t =>
          have past : (t + 1) * k + j = row.length + (t * k + j) := by
            rw [Nat.succ_mul,length]
            omega
          rw [List.flatten_cons,past,List.getD_append_right _ _ _ _ (Nat.le_add_right _ _),Nat.add_sub_cancel_left,
            List.getD_cons_succ]
          exact ih (fun other member => full other (List.mem_cons_of_mem row member)) t

theorem listedCells {α : Type} (xs : List α) (d : α) (length : xs.length = kNW) :
    xs = block.map (fun t => xs.getD t.val d) := by
  apply List.ext_getElem
  · rw [List.length_map,List.length_finRange,length]
  · intro i inside _
    rw [List.getElem_map,List.getElem_finRange,List.getD_eq_getElem _ _ (by simpa using inside)]
    rfl

structure Loaded (tgt : SyntheticModel) (w b : List UInt32) : Prop where
  weights : tgt.weights = block.map (fun t => block.map (fun j => w.getD (t.val * kNW + j.val) 0))
  bias : tgt.bias = block.map (fun t => b.getD t.val 0)
  mixA : tgt.mixA = kMA
  mixB : tgt.mixB = kMB

theorem targetLoaded : Loaded makeTargetModel buildTarget.1 buildTarget.2 := by
  unfold makeTargetModel buildTarget
  rw [wordsSame,seedSame,buildRowsDrawn]
  have full := rowLength kNW (kTargetSeed.toUInt64 ||| ((1 : UInt64) <<< 32))
  have count := rowsLength kNW (kTargetSeed.toUInt64 ||| ((1 : UInt64) <<< 32))
  generalize drawRows kNW (kTargetSeed.toUInt64 ||| ((1 : UInt64) <<< 32)) = drawn at full count ⊢
  have rows : (drawn.map Prod.fst).length = kNW := by rw [List.length_map,count]
  refine ⟨?_,listedCells _ 0 (by rw [List.length_map,count]),rfl,rfl⟩
  refine (listedCells (drawn.map Prod.fst) [] rows).trans (List.map_congr_left ?_)
  intro t _
  have inside : t.val < (drawn.map Prod.fst).length := by omega
  have row : (drawn.map Prod.fst).getD t.val [] ∈ drawn.map Prod.fst := by
    rw [List.getD_eq_getElem _ _ inside]
    exact List.getElem_mem inside
  refine (listedCells _ 0 (full _ row)).trans (List.map_congr_left ?_)
  intro j _
  exact (flatCell full t j.isLt).symm

def BlockMemory.words {ω : Type} (m : BlockMemory ω) : List UInt32 := block.map m.state

section correspondence
variable {ω : Type} {tgt : SyntheticModel} {w b : List UInt32} (loaded : Loaded tgt w b)
include loaded

theorem stepWords (m : BlockMemory ω) : tgt.step m.words m.sprev = block.map (fun t => mixed w b t m) := by
  unfold SyntheticModel.step BlockMemory.words
  rw [loaded.weights,loaded.bias,loaded.mixA,loaded.mixB,List.zip_map',List.map_map]
  apply List.map_congr_left
  intro t _
  simp only [Function.comp,List.zip_map',List.foldl_map]
  rfl

theorem rawToken (m : BlockMemory ω) (i : UInt32) :
    tgt.token m.words i m.sprev kSyntheticVocab = raw m i % kVocab := by
  have cells : m.words.getD 0 0 = m.state 0 ∧ m.words.getD 7 0 = m.state 7 ∧ m.words.getD 13 0 = m.state 13 :=
    ⟨rfl,rfl,rfl⟩
  have vocabulary : kVocab ≠ 0 := by decide
  unfold SyntheticModel.token raw
  rw [cells.1,cells.2.1,cells.2.2,loaded.mixA,loaded.mixB,vocabularySame,if_neg vocabulary]

end correspondence

theorem seedLoopOther {i : Thread} {is : List Thread} (absent : i ∉ is) (acc : UInt64 × (Thread → UInt32)) :
    (is.foldl (fun (acc : UInt64 × (Thread → UInt32)) i =>
      ((splitmix acc.1).2,Function.update acc.2 i (splitmix acc.1).1)) acc).2 i = acc.2 i := by
  induction is generalizing acc with
  | nil => rfl
  | cons k rest ih =>
      rw [List.mem_cons,not_or] at absent
      rw [List.foldl_cons,ih absent.2]
      exact Function.update_of_ne absent.1 _ _

theorem seedLoop {is : List Thread} (once : is.Nodup) (acc : UInt64 × (Thread → UInt32)) :
    is.map (is.foldl (fun (acc : UInt64 × (Thread → UInt32)) i =>
      ((splitmix acc.1).2,Function.update acc.2 i (splitmix acc.1).1)) acc).2 = (drawWords is.length acc.1).1 := by
  induction is generalizing acc with
  | nil => rfl
  | cons k rest ih =>
      obtain ⟨fresh,others⟩ := List.nodup_cons.mp once
      rw [List.map_cons,List.foldl_cons,ih others,seedLoopOther fresh,List.length_cons,drawWords,splitmixSame]
      dsimp only
      rw [Function.update_self]

theorem seededWords {ω : Type} (seed : UInt64) (reset : ω → ω) (m : BlockMemory ω) :
    (seeded seed reset m).words = SyntheticModel.seedState seed := by
  have drawn := seedLoop (List.nodup_finRange kNW) (seed,m.state)
  rw [List.length_finRange] at drawn
  exact drawn

section loops
variable {tgt : SyntheticModel} {w b : List UInt32} (loaded : Loaded tgt w b)
include loaded

theorem roundWords {ω : Type} {act : UInt32 → BlockMemory ω → BlockMemory ω} (i : UInt32) (m : BlockMemory ω)
    (keeps : (act i m).state = m.state) :
    (afterRound w b act i m).words = tgt.step m.words (act i m).sprev := by
  have same : m.words = (act i m).words := congrArg block.map keeps.symm
  rw [same,stepWords loaded]
  rfl

theorem proposedToken (aligned branch i : UInt32) (m : BlockMemory (Nat → UInt32)) :
    (proposeAt kVocab aligned branch i m).sprev =
      if i < aligned then tgt.token m.words i m.sprev kSyntheticVocab
      else (tgt.token m.words i m.sprev kSyntheticVocab + 1 + branch) % kSyntheticVocab := by
  rw [rawToken loaded,vocabularySame,proposeAt]

omit loaded in
theorem proposedOut (aligned branch i : UInt32) (m : BlockMemory (Nat → UInt32)) :
    (afterRound w b (proposeAt kVocab aligned branch) i m).out =
      Function.update m.out i.toNat (proposeAt kVocab aligned branch i m).sprev := rfl

theorem draftCons (aligned branch i : UInt32) (count : Nat) (m : BlockMemory (Nat → UInt32)) :
    CpuProposer.draftFrom tgt aligned branch (count + 1) i m.words m.sprev =
      { id := (proposeAt kVocab aligned branch i m).sprev } ::
        CpuProposer.draftFrom tgt aligned branch count (i + 1)
          (afterRound w b (proposeAt kVocab aligned branch) i m).words (proposeAt kVocab aligned branch i m).sprev := by
  rw [roundWords loaded i m rfl,proposedToken loaded,CpuProposer.draftFrom]

theorem proposeLoop (aligned branch : UInt32) (count : Nat) (i : UInt32) (m : BlockMemory (Nat → UInt32))
    (bound : i.toNat + count < 2^32) :
    (List.range' i.toNat count).map (rounds w b (proposeAt kVocab aligned branch) count i m).out =
      (CpuProposer.draftFrom tgt aligned branch count i m.words m.sprev).map Token.id ∧
    ∀ k < i.toNat, (rounds w b (proposeAt kVocab aligned branch) count i m).out k = m.out k := by
  induction count generalizing i m with
  | zero => exact ⟨rfl,fun _ _ => rfl⟩
  | succ count ih =>
      have next : (i + 1).toNat = i.toNat + 1 := nextPosition (by omega)
      obtain ⟨later,kept⟩ := ih (i + 1) (afterRound w b (proposeAt kVocab aligned branch) i m) (by omega)
      rw [next] at later kept
      have written := kept i.toNat (Nat.lt_succ_self _)
      rw [proposedOut,Function.update_self] at written
      rw [roundsNext]
      refine ⟨?_,?_⟩
      · rw [List.range'_succ,List.map_cons,written,later,draftCons loaded,List.map_cons]
        rfl
      · intro k before
        rw [kept k (by omega),proposedOut]
        exact Function.update_of_ne (by omega) _ _

structure Matches (m : BlockMemory Verdict) (a : Acceptance) : Prop where
  words : m.words = a.state
  sprev : m.sprev = a.prev
  accepted : m.out.accepted = a.acceptedPrefix
  firstrej : m.out.firstrej = a.firstRejectionIndex
  perpos : (List.range a.perPosition.length).map m.out.perpos = a.perPosition.map UInt8.toUInt32

theorem verdictMatches {m : BlockMemory Verdict} {a : Acceptance} (before : Matches m a) {cand : List UInt32}
    {len i : UInt32} {token : Token} (here : i.toNat = a.perPosition.length) (read : cand.getD i.toNat 0 = token.id) :
    Matches (afterRound w b (verifyAt cand len kVocab) i m) (acceptPosition tgt len i token a) := by
  have expected : raw m i % kVocab = tgt.token a.state i a.prev kSyntheticVocab := by
    rw [← rawToken loaded,before.words,before.sprev]
  have agrees : (raw m i % kVocab == cand.getD i.toNat 0) =
      (tgt.token a.state i a.prev kSyntheticVocab == token.id) := by
    rw [expected,read]
  have out : (afterRound w b (verifyAt cand len kVocab) i m).out = (verifyAt cand len kVocab i m).out := rfl
  have advanced : (afterRound w b (verifyAt cand len kVocab) i m).words =
      tgt.step m.words (verifyAt cand len kVocab i m).sprev := roundWords loaded i m rfl
  constructor
  · rw [advanced,before.words,verifyAt,expected,acceptPosition]
  · rw [acceptPosition,← expected]
    rfl
  · rw [out,verifyAt,acceptPosition,agrees,before.accepted]
  · rw [out,verifyAt,acceptPosition,agrees,before.firstrej]
  · have flags : (acceptPosition tgt len i token a).perPosition = a.perPosition ++
        [if tgt.token a.state i a.prev kSyntheticVocab == token.id then 1 else 0] := rfl
    have written : (verifyAt cand len kVocab i m).out.perpos = Function.update m.out.perpos i.toNat
        (if raw m i % kVocab == cand.getD i.toNat 0 then 1 else 0) := rfl
    rw [out,flags,written,agrees,List.length_append,List.length_singleton,List.range_succ,List.map_append,
      List.map_append,List.map_singleton,List.map_singleton,← here,Function.update_self]
    congr 1
    · rw [← before.perpos,← here]
      apply List.map_congr_left
      intro k inside
      exact Function.update_of_ne (Nat.ne_of_lt (List.mem_range.mp inside)) _ _
    · split <;> rfl

theorem verifyLoop {cand : List UInt32} (len : UInt32) (tokens : List Token) {i : UInt32} {m : BlockMemory Verdict}
    {a : Acceptance} (before : Matches m a) (here : i.toNat = a.perPosition.length)
    (bound : i.toNat + tokens.length < 2^32) (rest : cand.drop i.toNat = tokens.map Token.id) :
    Matches (rounds w b (verifyAt cand len kVocab) tokens.length i m) (acceptFrom tgt len i tokens a) := by
  induction tokens generalizing i m a with
  | nil => exact before
  | cons token tail ih =>
      rw [List.length_cons] at bound
      have next : (i + 1).toNat = i.toNat + 1 := nextPosition (by omega)
      have read : cand.getD i.toNat 0 = token.id := by
        rw [List.getD_eq_getElem?_getD,← Nat.add_zero i.toNat,← List.getElem?_drop,rest]
        rfl
      have later : cand.drop (i + 1).toNat = tail.map Token.id := by
        rw [next,← List.tail_drop,rest]
        rfl
      rw [List.length_cons,roundsNext,acceptFrom]
      refine ih (verdictMatches loaded before here read) ?_ ?_ later
      · rw [next,here]
        simp [acceptPosition]
      · rw [next]
        omega

end loops

theorem makeModelTarget : CpuProposer.makeModel kTargetModelSeed = makeTargetModel := rfl

theorem acceptLength (tgt : SyntheticModel) (len i : UInt32) (tokens : List Token) (state : List UInt32) :
    (acceptFrom tgt len i tokens { state := state, firstRejectionIndex := len }).perPosition.length =
      tokens.length := by
  rw [acceptPositions,List.nil_append,List.length_map,verdictsFrom,List.length_zipWith,targetLength,List.length_map,
    Nat.min_self]

theorem takenLength (tokens : List Token) :
    (tokens.take (UInt32.ofNat tokens.length).toNat).length = (UInt32.ofNat tokens.length).toNat := by
  have below : (UInt32.ofNat tokens.length).toNat ≤ tokens.length := by
    rw [UInt32.toNat_ofNat']
    exact Nat.mod_le _ _
  rw [List.length_take,Nat.min_eq_left below]

theorem startMatches (seed : UInt64) (len : UInt32) (m : BlockMemory Verdict) :
    Matches (seeded seed (fun out => { out with accepted := 0, firstrej := len }) m)
      { state := SyntheticModel.seedState seed, firstRejectionIndex := len } :=
  ⟨seededWords seed _ m,rfl,rfl,rfl,rfl⟩

theorem proposeKernelDrafts {seed : UInt64} {depth aligned branch : UInt32} {m m' : BlockMemory (Nat → UInt32)}
    (run : Barrier.Executes block (proposeKernel buildTarget.1 buildTarget.2 seed depth kVocab aligned branch) m m') :
    (List.range depth.toNat).map m'.out =
      (CpuProposer.draftFrom (CpuProposer.makeModel kTargetModelSeed) aligned branch depth.toNat 0
        (SyntheticModel.seedState seed) 0).map Token.id := by
  have written := (proposeLoop targetLoaded aligned branch depth.toNat 0 (seeded seed id m)
    (by simpa using depth.toNat_lt)).1
  rw [seededWords] at written
  rw [kernelSettles run,makeModelTarget,List.range_eq_range']
  exact written

theorem verifyKernelAccepts {seed : UInt64} {tokens : List Token} {m m' : BlockMemory Verdict}
    (run : Barrier.Executes block (verifyKernel buildTarget.1 buildTarget.2
      ((tokens.take (UInt32.ofNat tokens.length).toNat).map Token.id) seed (UInt32.ofNat tokens.length) kVocab) m m')
    {a : Acceptance} (accepts : a = acceptFrom makeTargetModel (UInt32.ofNat tokens.length) 0
      (tokens.take (UInt32.ofNat tokens.length).toNat)
      { state := SyntheticModel.seedState seed, firstRejectionIndex := UInt32.ofNat tokens.length }) :
    (List.range (UInt32.ofNat tokens.length).toNat).map m'.out.perpos = a.perPosition.map UInt8.toUInt32 ∧
    m'.out.accepted = a.acceptedPrefix ∧ m'.out.firstrej = a.firstRejectionIndex := by
  have count := takenLength tokens
  have matched := verifyLoop targetLoaded (i := 0) (UInt32.ofNat tokens.length)
    (tokens.take (UInt32.ofNat tokens.length).toNat)
    (startMatches seed (UInt32.ofNat tokens.length) m) rfl
    (by rw [count]; simpa using (UInt32.ofNat tokens.length).toNat_lt) rfl
  rw [count] at matched
  have flags := matched.perpos
  rw [acceptLength,count] at flags
  rw [kernelSettles run,accepts]
  exact ⟨flags,matched.accepted,matched.firstrej⟩

theorem kernelsComputeRecurrence (seed : UInt64) :
    (∀ depth aligned branch m,
      (∃ m', Barrier.Executes block (proposeKernel buildTarget.1 buildTarget.2 seed depth kVocab aligned branch) m m') ∧
      ∀ m', Barrier.Executes block (proposeKernel buildTarget.1 buildTarget.2 seed depth kVocab aligned branch) m m' →
        (List.range depth.toNat).map m'.out =
          (CpuProposer.draftFrom (CpuProposer.makeModel kTargetModelSeed) aligned branch depth.toNat 0
            (SyntheticModel.seedState seed) 0).map Token.id) ∧
    ∀ (tokens : List Token) len cand m, len = UInt32.ofNat tokens.length →
      cand = (tokens.take len.toNat).map Token.id →
      (∃ m', Barrier.Executes block (verifyKernel buildTarget.1 buildTarget.2 cand seed len kVocab) m m') ∧
      ∀ m' a, Barrier.Executes block (verifyKernel buildTarget.1 buildTarget.2 cand seed len kVocab) m m' →
        a = acceptFrom makeTargetModel len 0 (tokens.take len.toNat)
          { state := SyntheticModel.seedState seed, firstRejectionIndex := len } →
        (List.range len.toNat).map m'.out.perpos = a.perPosition.map UInt8.toUInt32 ∧
        m'.out.accepted = a.acceptedPrefix ∧ m'.out.firstrej = a.firstRejectionIndex := by
  refine ⟨?_,?_⟩
  · intro depth aligned branch m
    exact ⟨Barrier.completes block _ m,fun m' run => proposeKernelDrafts run⟩
  · rintro tokens len cand m rfl rfl
    exact ⟨Barrier.completes block _ m,fun m' a run accepts => verifyKernelAccepts run accepts⟩

end SpeculationFabric.Cuda
