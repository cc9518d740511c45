import SpeculationFabric.Runs

/-! Sequential objects. An object is asked one thing at a time and replies at once. A
system refines it when each of its steps is some questions, perhaps none, and hears what
the object replies; a whole run then hears what the object replies to all of them. -/
namespace Objects

variable {β ω ρ σ α : Type}

structure Object (β ω ρ : Type) where
  ask : β → ω → β × List ρ

def Object.askAll (o : Object β ω ρ) : β → List ω → β × List ρ
  | b,[] => (b,[])
  | b,q :: rest =>
      let first := o.ask b q
      let later := o.askAll first.1 rest
      (later.1,first.2 ++ later.2)

theorem Object.askOne (o : Object β ω ρ) (b : β) (q : ω) : o.askAll b [q] = o.ask b q := by
  simp only [Object.askAll,List.append_nil]

theorem Object.askAppend (o : Object β ω ρ) (b : β) (qs ws : List ω) :
    o.askAll b (qs ++ ws) =
      ((o.askAll (o.askAll b qs).1 ws).1,(o.askAll b qs).2 ++ (o.askAll (o.askAll b qs).1 ws).2) := by
  induction qs generalizing b with
  | nil => rfl
  | cons q qs ih =>
      rw [List.cons_append,Object.askAll,ih]
      simp only [Object.askAll,List.append_assoc]

structure Refines (o : Object β ω ρ) (step : σ → α → Option σ) (ok : σ → α → Prop) (holds : σ → Prop) (means : σ → β)
    (asks : σ → α → List ω) (hears : σ → α → List ρ) : Prop where
  kept : ∀ s a t, holds s → ok s a → step s a = some t → holds t
  replies : ∀ s a t, holds s → ok s a → step s a = some t → o.askAll (means s) (asks s a) = (means t,hears s a)

theorem Refines.run {o : Object β ω ρ} {step : σ → α → Option σ} {ok : σ → α → Prop} {holds : σ → Prop} {means : σ → β}
    {asks : σ → α → List ω} {hears : σ → α → List ρ} (refines : Refines o step ok holds means asks hears)
    {s t : σ} {as : List α} (trace : Runs.Trace step ok s as t) (start : holds s) :
    holds t ∧ o.askAll (means s) (Runs.logged step asks s as) = (means t,Runs.logged step hears s as) := by
  induction trace with
  | nil => exact ⟨start,rfl⟩
  | @snoc as v a u before allowed taken ih =>
      obtain ⟨held,told⟩ := ih
      have asked : Runs.logged step asks v [a] = asks v a := by
        simp only [Runs.logged,taken,List.append_nil]
      have heard : Runs.logged step hears v [a] = hears v a := by
        simp only [Runs.logged,taken,List.append_nil]
      refine ⟨refines.kept v a u held allowed taken,?_⟩
      rw [Runs.loggedAppend before,Runs.loggedAppend before,asked,heard,Object.askAppend,told]
      simp only [refines.replies v a u held allowed taken]

end Objects
