import SpeculationFabric.WorkedCycle

/-! The winner loops of `run_cycle` and `drive_cycle` side by side. With ids that count
the branches a tie never moves either of them, so both stop at the first branch that
reaches the maximum, and what is committed is a longest accepted prefix. -/
namespace SpeculationFabric

open SpeculationFabric.Dist

def Numbered (ids : List UInt64) : Prop := ids.map UInt64.toNat = List.range' 1 ids.length

theorem numberedAt {ids : List UInt64} (numbered : Numbered ids) {i : Nat} {id : UInt64} (at_ : ids[i]? = some id) :
    id.toNat = i + 1 := by
  have inside := (List.getElem?_eq_some_iff.mp at_).1
  have mapped := congrArg (fun ns : List Nat => ns[i]?) numbered
  rw [List.getElem?_map,at_,List.getElem?_range' inside] at mapped
  have value := Option.some.inj mapped
  omega

theorem numberedRising {ids : List UInt64} (numbered : Numbered ids) {w i : Nat} {one other : UInt64} (later : w < i)
    (at_ : ids[w]? = some one) (above : ids[i]? = some other) : one < other := by
  rw [UInt64.lt_iff_toNat_lt,numberedAt numbered at_,numberedAt numbered above]
  omega

/- The results of one cycle as the two drivers hold them: the same counts under the same ids. -/
structure SameResults (accepted : List AcceptanceResult) (proposed : List BranchResult) (brs : List Br) : Prop where
  filled : accepted ≠ []
  paired : proposed.length = accepted.length
  numbered : Numbered (proposed.map fun br => br.branch.value)
  branches : brs.map Br.branch = proposed.map fun br => br.branch.value
  counts : brs.map Br.accepted = accepted.map AcceptanceResult.acceptedPrefix

section results
variable {accepted : List AcceptanceResult} {proposed : List BranchResult} {brs : List Br}
  (same : SameResults accepted proposed brs)
include same

theorem SameResults.length : brs.length = accepted.length := by
  have lengths := congrArg List.length same.counts
  rwa [List.length_map,List.length_map] at lengths

theorem SameResults.firstBest : FirstBest (accepted.map fun accept => accept.acceptedPrefix.toNat)
    (selectWinner accepted proposed) := by
  apply selectWinnerFirstBest (List.length_pos_of_ne_nil same.filled)
  intro w i later inside
  rw [← same.paired] at inside
  have above := List.getElem?_eq_getElem inside
  have below := List.getElem?_eq_getElem (Nat.lt_trans later inside)
  rw [List.getD_eq_getElem?_getD,List.getD_eq_getElem?_getD,above,below]
  apply numberedRising same.numbered later
  · rw [List.getElem?_map,below]
    rfl
  · rw [List.getElem?_map,above]
    rfl

theorem SameResults.drivenBest : FirstBest (accepted.map fun accept => accept.acceptedPrefix.toNat)
    (winningBr brs) := by
  have counts : brs.map (fun br => br.accepted.toNat) = accepted.map fun accept => accept.acceptedPrefix.toNat := by
    have naturals := congrArg (List.map UInt32.toNat) same.counts
    rwa [List.map_map,List.map_map] at naturals
  rw [← counts]
  apply winningFirstBest (same.length ▸ List.length_pos_of_ne_nil same.filled)
  intro w i best br later at_ above
  apply numberedRising same.numbered later
  · rw [← same.branches,List.getElem?_map,at_]
    rfl
  · rw [← same.branches,List.getElem?_map,above]
    rfl

theorem SameResults.sameIndex : winningBr brs = selectWinner accepted proposed :=
  same.drivenBest.unique same.firstBest

theorem SameResults.aligned {j : Nat} {accept : AcceptanceResult} (at_ : accepted[j]? = some accept) :
    ∃ result br, proposed[j]? = some result ∧ brs[j]? = some br ∧ br.accepted = accept.acceptedPrefix ∧
      br.branch = result.branch.value := by
  have inside := (List.getElem?_eq_some_iff.mp at_).1
  have result := List.getElem?_eq_getElem (same.paired.symm ▸ inside : j < proposed.length)
  have br := List.getElem?_eq_getElem (same.length.symm ▸ inside : j < brs.length)
  have count := congrArg (fun counts : List UInt32 => counts[j]?) same.counts
  have id := congrArg (fun ids : List UInt64 => ids[j]?) same.branches
  rw [List.getElem?_map,List.getElem?_map,br,at_] at count
  rw [List.getElem?_map,List.getElem?_map,br,result] at id
  exact ⟨_,_,result,br,Option.some.inj count,Option.some.inj id⟩

end results

theorem FirstBest.reaches {accepted : List AcceptanceResult} {w : Nat} {accept : AcceptanceResult}
    (best : FirstBest (accepted.map fun accept => accept.acceptedPrefix.toNat) w) (won : accepted[w]? = some accept) :
    (∀ (j : Nat) (other : AcceptanceResult), accepted[j]? = some other → other.acceptedPrefix ≤ accept.acceptedPrefix) ∧
    ∀ (j : Nat) (other : AcceptanceResult), accepted[j]? = some other → other.acceptedPrefix = accept.acceptedPrefix →
      w ≤ j := by
  have count {j : Nat} {other : AcceptanceResult} (at_ : accepted[j]? = some other) :
      (accepted.map fun accept => accept.acceptedPrefix.toNat).getD j 0 = other.acceptedPrefix.toNat := by
    rw [List.getD_eq_getElem?_getD,List.getElem?_map,at_]
    rfl
  refine ⟨?_,?_⟩
  · intro j other at_
    have most := best.most j (by rw [List.length_map]; exact (List.getElem?_eq_some_iff.mp at_).1)
    rw [count at_,count won] at most
    exact UInt32.le_iff_toNat_le.mpr most
  · intro j other at_ equal
    by_contra before
    have first := best.first j (by omega)
    rw [count at_,count won,equal] at first
    omega

def SettlesTo (accepted : List AcceptanceResult) (proposed : List BranchResult) (branch : BranchId)
    (count : UInt32) : Prop :=
  ∀ f now c o f', c.accepted = accepted → c.proposed = proposed → Fabric.settle f now c = some (.ok o,f') →
    o.outcome ≠ .staleAuthorityRejected →
    o.branch = branch ∧ ∃ rs rs' tokens, f.find c.request = some rs ∧ f'.find c.request = some rs' ∧
      rs'.committed = rs.committed ++ tokens ∧ tokens.length = count.toNat

def ConcludesTo (brs : List Br) (branch : UInt64) (count : UInt32) : Prop :=
  ∀ c d, d.brs = brs → Coordinator.conclude c d ≠ c.undefine →
    (∃ firstrej, Output.submitted d.reqid (.ok count branch firstrej) ∈ (c.conclude d).log) ∧
    ∃ tokens, ((c.conclude d).request d.reqid).committed = (c.request d.reqid).committed ++ tokens ∧
      tokens.length = count.toNat

theorem settlesToWinner {accepted : List AcceptanceResult} {proposed : List BranchResult} {accept : AcceptanceResult}
    {won : BranchResult} (counted : accepted[selectWinner accepted proposed]? = some accept)
    (result : proposed[selectWinner accepted proposed]? = some won) :
    SettlesTo accepted proposed won.branch accept.acceptedPrefix := by
  rintro f now c o f' rfl rfl settles kind
  cases settlement settles with
  | stale _ _ stale => exact absurd stale kind
  | settled found facts _ branch stored =>
      cases facts.winner.symm.trans result
      cases facts.acceptance.symm.trans counted
      refine ⟨branch,_,_,_,found,stored,facts.advanced.committed,?_⟩
      rw [List.length_map,List.length_take]
      exact Nat.min_eq_left facts.advanced.inside

theorem concludesToWinner {brs : List Br} {br : Br} (result : brs[winningBr brs]? = some br) :
    ConcludesTo brs br.branch br.accepted := by
  rintro c d rfl defined
  rw [Coordinator.conclude,result] at defined ⊢
  dsimp only at defined ⊢
  by_cases fits : br.accepted.toNat ≤ br.toks.length
  · rw [if_pos fits,finishOk]
    refine ⟨⟨br.firstrej,?_⟩,br.toks.take br.accepted.toNat,?_,?_⟩
    · simp
    · exact congrArg CReq.committed (requestStoreSelf c d.reqid ((c.request d.reqid).commit br.toks br.accepted))
    · rw [List.length_take]
      exact Nat.min_eq_left fits
  · rw [if_neg fits] at defined
    exact absurd rfl defined

theorem winnersLeftmostMaximum {accepted : List AcceptanceResult} {proposed : List BranchResult} {brs : List Br}
    (same : SameResults accepted proposed brs) :
    ∃ w accept won br, selectWinner accepted proposed = w ∧ winningBr brs = w ∧
      accepted[w]? = some accept ∧ proposed[w]? = some won ∧ brs[w]? = some br ∧
      br.accepted = accept.acceptedPrefix ∧ br.branch = won.branch.value ∧
      (∀ (j : Nat) (other : AcceptanceResult), accepted[j]? = some other → other.acceptedPrefix ≤ accept.acceptedPrefix) ∧
      (∀ (j : Nat) (other : AcceptanceResult) (result : BranchResult), accepted[j]? = some other → proposed[j]? = some result →
        other.acceptedPrefix = accept.acceptedPrefix → won.branch.value ≤ result.branch.value) ∧
      SettlesTo accepted proposed won.branch accept.acceptedPrefix ∧
      ConcludesTo brs won.branch.value accept.acceptedPrefix := by
  have best := same.firstBest
  have inside : selectWinner accepted proposed < accepted.length := by
    have bound := best.inside
    rwa [List.length_map] at bound
  have counted := List.getElem?_eq_getElem inside
  obtain ⟨won,br,result,driven,count,id⟩ := same.aligned counted
  obtain ⟨most,first⟩ := best.reaches counted
  have driven' := driven
  rw [← same.sameIndex] at driven'
  refine ⟨_,_,won,br,rfl,same.sameIndex,counted,result,driven,count,id,most,?_,settlesToWinner counted result,?_⟩
  · intro j other another at_ there equal
    have order := first j other at_ equal
    have mine : won.branch.value.toNat = selectWinner accepted proposed + 1 := by
      apply numberedAt same.numbered
      rw [List.getElem?_map,result]
      rfl
    have theirs : another.branch.value.toNat = j + 1 := by
      apply numberedAt same.numbered
      rw [List.getElem?_map,there]
      rfl
    rw [UInt64.le_iff_toNat_le,mine,theirs]
    omega
  · rw [← count,← id]
    exact concludesToWinner driven'

theorem tiedWinners : SameResults [{ acceptedPrefix := 1 },{ acceptedPrefix := 2 },{ acceptedPrefix := 2 }]
      [{ branch := ⟨1⟩ },{ branch := ⟨2⟩ },{ branch := ⟨3⟩ }] [⟨1,[],4,1,1,0⟩,⟨2,[],4,2,2,0⟩,⟨3,[],4,2,2,0⟩] ∧
    ∃ w, selectWinner [{ acceptedPrefix := 1 },{ acceptedPrefix := 2 },{ acceptedPrefix := 2 }]
      [{ branch := ⟨1⟩ },{ branch := ⟨2⟩ },{ branch := ⟨3⟩ }] = w ∧
      winningBr [⟨1,[],4,1,1,0⟩,⟨2,[],4,2,2,0⟩,⟨3,[],4,2,2,0⟩] = w := by
  have same : SameResults [{ acceptedPrefix := 1 },{ acceptedPrefix := 2 },{ acceptedPrefix := 2 }]
      [{ branch := ⟨1⟩ },{ branch := ⟨2⟩ },{ branch := ⟨3⟩ }] [⟨1,[],4,1,1,0⟩,⟨2,[],4,2,2,0⟩,⟨3,[],4,2,2,0⟩] :=
    ⟨by decide,rfl,rfl,rfl,rfl⟩
  obtain ⟨w,_,_,_,run,drive,_⟩ := winnersLeftmostMaximum same
  exact ⟨same,w,run,drive⟩

end SpeculationFabric
