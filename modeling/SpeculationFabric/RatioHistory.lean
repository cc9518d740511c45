import SpeculationFabric.Scheduler
import SpeculationFabric.Runs
import SpeculationFabric.Windows

/-! The acceptance history over whole call sequences. A record drops one ratio at most
and nothing that was dropped comes back, so the history is the most recent part of what
was recorded, as long as the window is never set below what is held. A clear starts
anew, whatever was done to the window before it. The history is short of its window
after the window was enlarged. -/
namespace SpeculationFabric

def AdaptiveDepth.setWindow (a : AdaptiveDepth) (w : UInt32) : AdaptiveDepth := { a with window := w }

def AdaptiveDepth.clear (a : AdaptiveDepth) : AdaptiveDepth := { a with history := [] }

inductive HistoryCall where
  | record (ratio : Float)
  | setWindow (w : UInt32)
  | clear

def AdaptiveDepth.call (a : AdaptiveDepth) : HistoryCall → AdaptiveDepth
  | .record ratio => a.record ratio
  | .setWindow w => a.setWindow w
  | .clear => a.clear

structure RatioRecord where
  window : UInt32 := 32
  met : List (Float × UInt32) := []

def RatioRecord.call (r : RatioRecord) : HistoryCall → RatioRecord
  | .record ratio => { r with met := r.met ++ [(ratio,r.window)] }
  | .setWindow w => { r with window := w }
  | .clear => { r with met := [] }

def recordedBy (calls : List HistoryCall) : RatioRecord := calls.foldl RatioRecord.call {}

def RatioRecord.ratios (r : RatioRecord) : List Float := r.met.map Prod.fst

def RatioRecord.windows (r : RatioRecord) : List Nat := r.met.map fun m => m.2.toNat

def roomy (a : AdaptiveDepth) : HistoryCall → Prop
  | .setWindow w => a.history.length ≤ w.toNat
  | _ => True

def Cleared (before : List HistoryCall) : Prop := before = [] ∨ ∃ earlier, before = earlier ++ [.clear]

def heldAfter (before : List HistoryCall) : AdaptiveDepth := before.foldl AdaptiveDepth.call {}

/- Only the calls after `before` have to be roomy. -/
abbrev RoomyRun (before calls : List HistoryCall) (a : AdaptiveDepth) : Prop :=
  Runs.Trace (fun a c => some (a.call c)) roomy (heldAfter before) calls a

theorem recordPushes (a : AdaptiveDepth) (ratio : Float) :
    (a.record ratio).history = Windows.push a.window.toNat a.history ratio := rfl

structure Recent (r : RatioRecord) (a : AdaptiveDepth) : Prop where
  window : a.window = r.window
  history : a.history = r.ratios.rtake (Windows.keeps r.windows)
  fits : a.history.length ≤ a.window.toNat

theorem keepsRecorded (r : RatioRecord) : Windows.keeps r.windows ≤ r.ratios.length := by
  have least := Windows.keepsBelow r.windows
  simp only [RatioRecord.windows,RatioRecord.ratios,List.length_map] at least ⊢
  exact least

theorem recentHeld {r : RatioRecord} {a : AdaptiveDepth} (recent : Recent r a) :
    a.history.length = Windows.keeps r.windows := by
  have least := keepsRecorded r
  rw [recent.history,List.rtake,List.length_drop]
  omega

theorem recordRecent {r : RatioRecord} {a : AdaptiveDepth} (recent : Recent r a) (ratio : Float) :
    Recent (r.call (.record ratio)) (a.record ratio) := by
  have fits := recent.fits
  rw [recentHeld recent] at fits
  have next : (a.record ratio).history = (r.call (.record ratio)).ratios.rtake
      (Windows.keeps (r.call (.record ratio)).windows) := by
    have pushed := Windows.pushRecent ratio (keepsRecorded r) fits
    rw [recordPushes,recent.history,pushed]
    simp only [RatioRecord.call,RatioRecord.ratios,RatioRecord.windows,List.map_append,List.map_cons,List.map_nil,
      Windows.keepsNext,recent.window]
  refine ⟨recent.window,next,?_⟩
  have kept : Windows.keeps (r.call (.record ratio)).windows = min a.window.toNat (Windows.keeps r.windows + 1) := by
    simp only [RatioRecord.call,RatioRecord.windows,List.map_append,List.map_cons,List.map_nil,Windows.keepsNext,
      recent.window]
  have least := keepsRecorded (r.call (.record ratio))
  show (a.record ratio).history.length ≤ a.window.toNat
  rw [next,List.rtake,List.length_drop]
  omega

theorem recordedNext (past : List HistoryCall) (call : HistoryCall) :
    recordedBy (past ++ [call]) = (recordedBy past).call call := by
  rw [recordedBy,List.foldl_append]
  rfl

theorem heldNext (past : List HistoryCall) (call : HistoryCall) :
    heldAfter (past ++ [call]) = (heldAfter past).call call := by
  rw [heldAfter,List.foldl_append]
  rfl

theorem windowRecorded (past : List HistoryCall) : (heldAfter past).window = (recordedBy past).window := by
  induction past using List.reverseRecOn with
  | nil => rfl
  | append_singleton past call ih =>
      rw [recordedNext,heldNext]
      cases call with
      | record ratio => exact ih
      | setWindow w => rfl
      | clear => exact ih

theorem clearedRecent {before : List HistoryCall} (cleared : Cleared before) :
    Recent (recordedBy before) (heldAfter before) := by
  rcases cleared with rfl | ⟨earlier,rfl⟩
  · exact ⟨rfl,rfl,Nat.zero_le _⟩
  · rw [recordedNext,heldNext]
    exact ⟨windowRecorded earlier,rfl,Nat.zero_le _⟩

theorem roomyRecent {before calls : List HistoryCall} {a : AdaptiveDepth} (cleared : Cleared before)
    (run : RoomyRun before calls a) : Recent (recordedBy (before ++ calls)) a := by
  refine Runs.recorded (P := fun past b => Recent (recordedBy (before ++ past)) b) run ?_ ?_
  · rw [List.append_nil]
    exact clearedRecent cleared
  intro past b call c recent room taken
  cases Option.some.inj taken
  rw [← List.append_assoc,recordedNext]
  cases call with
  | record ratio => exact recordRecent recent ratio
  | setWindow w => exact ⟨rfl,recent.history,room⟩
  | clear => exact ⟨recent.window,rfl,Nat.zero_le _⟩

theorem historySlides {before calls : List HistoryCall} {a : AdaptiveDepth} (cleared : Cleared before)
    (run : RoomyRun before calls a) (ratio : Float) :
    (a.record ratio).history = ((recordedBy (before ++ calls)).ratios ++ [ratio]).rtake
      (Windows.keeps ((recordedBy (before ++ calls)).windows ++ [a.window.toNat])) ∧
    (a.record ratio).history.length ≤ a.window.toNat ∧
    ((∀ w ∈ (recordedBy (before ++ calls)).windows, a.window.toNat ≤ w) →
      (a.record ratio).history = ((recordedBy (before ++ calls)).ratios ++ [ratio]).rtake
        (min a.window.toNat ((recordedBy (before ++ calls)).ratios.length + 1))) := by
  have recent := roomyRecent cleared run
  have next := recordRecent recent ratio
  have held : (a.record ratio).history = ((recordedBy (before ++ calls)).ratios ++ [ratio]).rtake
      (Windows.keeps ((recordedBy (before ++ calls)).windows ++ [a.window.toNat])) := by
    rw [next.history,recent.window]
    simp only [RatioRecord.call,RatioRecord.ratios,RatioRecord.windows,List.map_append,List.map_cons,List.map_nil]
  refine ⟨held,next.fits,?_⟩
  intro smaller
  rw [held,Windows.keepsWhole smaller,RatioRecord.windows,RatioRecord.ratios,List.length_map,List.length_map]

def enlargedCalls : List HistoryCall := [.setWindow 1,.record 0.25,.record 0.5,.setWindow 3]

def reducedCalls : List HistoryCall := [.record 0.125,.record 0.125,.setWindow 1,.clear]

theorem enlargedRoomy {before : List HistoryCall} (cleared : Cleared before) :
    RoomyRun before enlargedCalls (heldAfter (before ++ enlargedCalls)) := by
  have empty : (heldAfter before).history = [] := by
    rcases cleared with rfl | ⟨earlier,rfl⟩
    · rfl
    · rw [heldNext]
      rfl
  have ends : heldAfter (before ++ enlargedCalls) = enlargedCalls.foldl AdaptiveDepth.call (heldAfter before) := by
    rw [heldAfter,List.foldl_append]
    rfl
  rw [ends]
  refine Runs.cons ?_ rfl (Runs.cons trivial rfl (Runs.cons trivial rfl (Runs.cons ?_ rfl .nil)))
  · simp only [roomy,empty]
    exact Nat.zero_le _
  · simp only [roomy,AdaptiveDepth.call,AdaptiveDepth.setWindow,recordPushes,empty]
    decide

theorem enlargedWindowShort : RoomyRun [] enlargedCalls (heldAfter enlargedCalls) ∧ (heldAfter enlargedCalls).window = 3 ∧
    (recordedBy enlargedCalls).ratios = [0.25,0.5] ∧ ((heldAfter enlargedCalls).record 0.75).history = [0.5,0.75] ∧
    ¬((heldAfter enlargedCalls).record 0.75).history = ((recordedBy enlargedCalls).ratios ++ [0.75]).rtake
      (min (heldAfter enlargedCalls).window.toNat ((recordedBy enlargedCalls).ratios.length + 1)) := by
  refine ⟨enlargedRoomy (.inl rfl),rfl,rfl,rfl,?_⟩
  intro whole
  exact absurd (congrArg List.length whole) (by decide)

theorem enlargedHistorySlides :
    ¬RoomyRun [] reducedCalls (heldAfter reducedCalls) ∧
    Windows.keeps ((recordedBy (reducedCalls ++ enlargedCalls)).windows ++
      [(heldAfter (reducedCalls ++ enlargedCalls)).window.toNat]) = 2 ∧
    ((heldAfter (reducedCalls ++ enlargedCalls)).record 0.75).history =
      ((recordedBy (reducedCalls ++ enlargedCalls)).ratios ++ [0.75]).rtake 2 ∧
    ((heldAfter (reducedCalls ++ enlargedCalls)).record 0.75).history.length ≤ 3 := by
  have cleared : Cleared reducedCalls := .inr ⟨[.record 0.125,.record 0.125,.setWindow 1],rfl⟩
  have slides := historySlides cleared (enlargedRoomy cleared) 0.75
  refine ⟨?_,by decide,slides.1,slides.2.1⟩
  intro run
  obtain ⟨t,-,one,rest⟩ := Runs.firstTaken run
  obtain ⟨u,-,two,rest⟩ := Runs.firstTaken rest
  obtain ⟨v,room,-,-⟩ := Runs.firstTaken rest
  cases one
  cases two
  have two : [0.125,0.125].length ≤ (1 : UInt32).toNat := room
  contradiction

end SpeculationFabric
