import Mathlib.Data.List.Perm.Basic
import Mathlib.Logic.Function.Basic

/-! Blocks of threads that meet at barriers. Between two barriers every thread runs
its part once, in an order nobody chooses. A part that only its leader takes, and
parts that each write their own cell and read none of the cells being written, come
out the same in every order. -/
namespace Barrier

variable {τ σ V ι : Type}

def phase (part : τ → σ → σ) (order : List τ) (s : σ) : σ := order.foldl (fun s t => part t s) s

inductive Executes (block : List τ) : List (τ → σ → σ) → σ → σ → Prop where
  | done (s) : Executes block [] s s
  | next {part rest s t} (order : List τ) (all : order.Perm block) (after : Executes block rest (phase part order s) t) :
      Executes block (part :: rest) s t

variable {block : List τ}

theorem completes (block : List τ) (parts : List (τ → σ → σ)) (s : σ) : ∃ t, Executes block parts s t := by
  induction parts generalizing s with
  | nil => exact ⟨s,.done s⟩
  | cons part rest ih =>
      obtain ⟨t,after⟩ := ih (phase part block s)
      exact ⟨t,.next block (.refl block) after⟩

theorem split {first second : List (τ → σ → σ)} {s u : σ} (run : Executes block (first ++ second) s u) :
    ∃ t, Executes block first s t ∧ Executes block second t u := by
  induction first generalizing s with
  | nil => exact ⟨s,.done s,run⟩
  | cons part rest ih =>
      cases run with
      | next order all after =>
          obtain ⟨t,left,right⟩ := ih after
          exact ⟨t,.next order all left,right⟩

theorem loop {rounds : ι → List (τ → σ → σ)} {outcome : ι → σ → σ}
    (settles : ∀ i s t, Executes block (rounds i) s t → t = outcome i s) (is : List ι) {s t : σ}
    (run : Executes block (is.flatMap rounds) s t) : t = is.foldl (fun s i => outcome i s) s := by
  induction is generalizing s with
  | nil =>
      cases run
      rfl
  | cons i rest ih =>
      rw [List.flatMap_cons] at run
      obtain ⟨mid,first,second⟩ := split run
      rw [List.foldl_cons,← settles i s mid first]
      exact ih second

section leader
variable [DecidableEq τ]

def led (leader : τ) (act : σ → σ) (t : τ) (s : σ) : σ := if t = leader then act s else s

theorem ledIdle {leader : τ} {act : σ → σ} {order : List τ} (absent : leader ∉ order) (s : σ) :
    phase (led leader act) order s = s := by
  induction order with
  | nil => rfl
  | cons t rest ih =>
      rw [List.mem_cons,not_or] at absent
      obtain ⟨other,later⟩ := absent
      simp only [phase,List.foldl_cons,led,if_neg (Ne.symm other)]
      exact ih later

theorem ledOnce {leader : τ} {act : σ → σ} {order : List τ} (once : order.Nodup) (present : leader ∈ order) (s : σ) :
    phase (led leader act) order s = act s := by
  induction order generalizing s with
  | nil => contradiction
  | cons t rest ih =>
      obtain ⟨fresh,others⟩ := List.nodup_cons.mp once
      by_cases here : t = leader
      · subst here
        have acts : phase (led t act) (t :: rest) s = phase (led t act) rest (act s) := by
          simp only [phase,List.foldl_cons,led,if_true]
        rw [acts]
        exact ledIdle fresh (act s)
      · have skips : phase (led leader act) (t :: rest) s = phase (led leader act) rest s := by
          simp only [phase,List.foldl_cons,led,if_neg here]
        rw [skips]
        exact ih others ((List.mem_cons.mp present).resolve_left (Ne.symm here)) s

end leader

structure Cells (σ τ V : Type) where
  get : σ → τ → V
  set : (τ → V) → σ → σ
  getSet : ∀ array s, get (set array s) = array
  setSet : ∀ array old s, set array (set old s) = set array s
  setGet : ∀ s, set (get s) s = s

section own
variable [DecidableEq τ] (cells : Cells σ τ V) (value : τ → σ → V)

def Cells.own (t : τ) (s : σ) : σ := cells.set (Function.update (cells.get s) t (value t s)) s

variable (frozen : ∀ t array s, value t (cells.set array s) = value t s)
include frozen

theorem scattered (order : List τ) (s : σ) :
    phase (cells.own value) order s = cells.set (fun t => if t ∈ order then value t s else cells.get s t) s := by
  induction order generalizing s with
  | nil => simp [phase,cells.setGet]
  | cons t rest ih =>
      have step : phase (cells.own value) (t :: rest) s =
          phase (cells.own value) rest (cells.set (Function.update (cells.get s) t (value t s)) s) := rfl
      rw [step,ih,cells.setSet]
      congr 1
      funext u
      simp only [frozen,cells.getSet,List.mem_cons]
      by_cases later : u ∈ rest
      · simp only [later,or_true,if_true]
      · by_cases here : u = t
        · subst here
          simp only [later,or_false,if_true,if_false,Function.update_self]
        · simp only [later,here,or_self,if_false,Function.update_of_ne here]

theorem gathered (order : List τ) (all : ∀ t, t ∈ order) (s : σ) :
    phase (cells.own value) order s = cells.set (fun t => value t s) s := by
  rw [scattered cells value frozen]
  simp only [all,if_true]

end own

end Barrier
