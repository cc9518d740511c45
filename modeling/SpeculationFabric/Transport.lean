import SpeculationFabric.Frames

/-! The sending half of the connections. A send hands over as many bytes as its schedule
allows and none on a connection that has failed, which then stays failed. What the
reader at the other end makes of the bytes is the frames whose sends have reported
success, and never a part of one. -/
namespace SpeculationFabric.Wire

open ByteFields

structure Outlet where
  written : List UInt8 := []
  schedule : Nat → Nat
  calls : Nat := 0

def Outlet.send (o : Outlet) (data : List UInt8) : Nat × Outlet :=
  let k := min data.length (o.schedule o.calls)
  (k,{ o with written := o.written ++ data.take k, calls := o.calls + 1 })

def sendAll (o : Outlet) (data : List UInt8) : Bool × Outlet :=
  if data.length = 0 then (true,o)
  else
    let put := o.send data
    if put.1 = 0 then (false,put.2) else sendAll put.2 (data.drop put.1)
termination_by data.length
decreasing_by
  rename_i left moved
  rw [List.length_drop]
  exact Nat.sub_lt (Nat.pos_of_ne_zero left) (Nat.pos_of_ne_zero moved)

def sendFrame (o : Outlet) (payload : List UInt8) : Bool × Outlet :=
  match addFramePrefix payload with
  | .error _ => (false,o)
  | .ok frame => sendAll o frame

def sendFrames : Outlet → List (List UInt8) → List Bool × Outlet
  | o,[] => ([],o)
  | o,payload :: rest =>
      let first := sendFrame o payload
      let later := sendFrames first.2 rest
      (first.1 :: later.1,later.2)

def received : Nat → Socket → List (List UInt8)
  | 0,_ => []
  | fuel + 1,s =>
      match recvFrame s with
      | (none,_) => []
      | (some payload,s) => payload :: received fuel s

def reportedSent (payloads : List (List UInt8)) (reports : List Bool) : List (List UInt8) :=
  ((payloads.zip reports).filter Prod.snd).map Prod.fst

/- A connection that has failed once takes nothing any more. -/
def Outlet.Lasting (o : Outlet) : Prop := ∀ k j, o.schedule k = 0 → k ≤ j → o.schedule j = 0

def Outlet.Dead (o : Outlet) : Prop := ∃ k, k ≤ o.calls ∧ o.schedule k = 0

theorem sendAllNone {o : Outlet} {data : List UInt8} (left : data ≠ []) (closed : (o.send data).1 = 0) :
    sendAll o data = (false,(o.send data).2) := by
  rw [sendAll,if_neg (by simpa using left)]
  exact if_pos closed

theorem sendAllStep {o : Outlet} {data : List UInt8} (left : data ≠ []) (moved : (o.send data).1 ≠ 0) :
    sendAll o data = sendAll (o.send data).2 (data.drop (o.send data).1) := by
  rw [sendAll,if_neg (by simpa using left)]
  exact if_neg moved

theorem sendAllCases (o : Outlet) (data : List UInt8) :
    ∃ t, t.schedule = o.schedule ∧ o.calls ≤ t.calls ∧
      ((sendAll o data = (true,t) ∧ t.written = o.written ++ data) ∨
        sendAll o data = (false,t) ∧ t.Dead ∧ ∃ k < data.length, t.written = o.written ++ data.take k) := by
  generalize size : data.length = n
  induction n using Nat.strong_induction_on generalizing o data with
  | _ n ih =>
      by_cases empty : data = []
      · subst empty
        refine ⟨o,rfl,Nat.le_refl _,.inl ⟨?_,(List.append_nil _).symm⟩⟩
        rw [sendAll]
        exact if_pos rfl
      have positive : 0 < data.length := List.length_pos_iff.mpr empty
      by_cases moved : (o.send data).1 = 0
      · refine ⟨(o.send data).2,rfl,Nat.le_succ _,.inr ⟨sendAllNone empty moved,⟨o.calls,Nat.le_succ _,?_⟩,0,by omega,?_⟩⟩
        · have zero : min data.length (o.schedule o.calls) = 0 := moved
          show o.schedule o.calls = 0
          omega
        · show o.written ++ data.take (o.send data).1 = _
          rw [moved]
      · have within : (o.send data).1 ≤ data.length := Nat.min_le_left _ _
        have grown : (o.send data).2.written = o.written ++ data.take (o.send data).1 := rfl
        have shorter : (data.drop (o.send data).1).length = data.length - (o.send data).1 := List.length_drop
        obtain ⟨t,schedule,later,result⟩ := ih (data.drop (o.send data).1).length (by omega) (o.send data).2
          (data.drop (o.send data).1) rfl
        refine ⟨t,schedule,Nat.le_trans (Nat.le_succ _) later,?_⟩
        rw [sendAllStep empty moved]
        rcases result with ⟨done,written⟩ | ⟨failed,dead,k,inside,written⟩
        · refine .inl ⟨done,?_⟩
          rw [written,grown,List.append_assoc,List.take_append_drop]
        · refine .inr ⟨failed,dead,(o.send data).1 + k,by omega,?_⟩
          rw [written,grown,List.append_assoc,← List.take_add]

theorem sendAllDead {o : Outlet} {data : List UInt8} (lasting : o.Lasting) (dead : o.Dead) (left : data ≠ []) :
    ∃ t, sendAll o data = (false,t) ∧ t.written = o.written ∧ t.schedule = o.schedule ∧ t.Dead := by
  obtain ⟨k,before,zero⟩ := dead
  have nothing : (o.send data).1 = 0 := by
    show min data.length (o.schedule o.calls) = 0
    rw [lasting k o.calls zero before,Nat.min_zero]
  refine ⟨_,sendAllNone left nothing,?_,rfl,k,Nat.le_succ_of_le before,zero⟩
  show o.written ++ data.take (o.send data).1 = o.written
  rw [nothing,List.take_zero,List.append_nil]

theorem framedNonempty (payload : List UInt8) : framed payload ≠ [] := by
  intro empty
  have size := framedLength payload
  rw [empty,List.length_nil,frameLenWidth] at size
  omega

theorem sendFrameCases (o : Outlet) {payload : List UInt8} (nonempty : payload ≠ []) :
    ∃ t, t.schedule = o.schedule ∧ o.calls ≤ t.calls ∧
      ((sendFrame o payload = (true,t) ∧ Frameable payload ∧ t.written = o.written ++ framed payload) ∨
        (sendFrame o payload = (false,t) ∧ t.written = o.written ∧ maxFrameSize.toNat < payload.length) ∨
        sendFrame o payload = (false,t) ∧ t.Dead ∧ Frameable payload ∧
          ∃ k < (framed payload).length, t.written = o.written ++ (framed payload).take k) := by
  by_cases large : maxFrameSize.toNat < payload.length
  · refine ⟨o,rfl,Nat.le_refl _,.inr (.inl ⟨?_,rfl,large⟩)⟩
    rw [sendFrame,addFramePrefix,if_pos large]
    rfl
  · have fits : Frameable payload := ⟨nonempty,Nat.not_lt.mp large⟩
    have same : sendFrame o payload = sendAll o (framed payload) := by
      rw [sendFrame,addsPrefix fits]
    obtain ⟨t,schedule,later,⟨done,written⟩ | ⟨failed,dead,cut⟩⟩ := sendAllCases o (framed payload)
    · exact ⟨t,schedule,later,.inl ⟨same.trans done,fits,written⟩⟩
    · exact ⟨t,schedule,later,.inr (.inr ⟨same.trans failed,dead,fits,cut⟩)⟩

theorem sendFrameDead {o : Outlet} {payload : List UInt8} (lasting : o.Lasting) (dead : o.Dead) (nonempty : payload ≠ []) :
    ∃ t, sendFrame o payload = (false,t) ∧ t.written = o.written ∧ t.schedule = o.schedule ∧ t.Dead := by
  by_cases large : maxFrameSize.toNat < payload.length
  · refine ⟨o,?_,rfl,rfl,dead⟩
    rw [sendFrame,addFramePrefix,if_pos large]
    rfl
  · rw [sendFrame,addsPrefix ⟨nonempty,Nat.not_lt.mp large⟩]
    exact sendAllDead lasting dead (framedNonempty payload)

def Torn (sent : List (List UInt8)) (bytes : List UInt8) : Prop :=
  (∀ payload ∈ sent, Frameable payload) ∧
    ∃ payload k, Frameable payload ∧ k < (framed payload).length ∧ bytes = sent.flatMap framed ++ (framed payload).take k

theorem deadSends {o : Outlet} {payloads : List (List UInt8)} (lasting : o.Lasting) (dead : o.Dead)
    (nonempty : ∀ payload ∈ payloads, payload ≠ []) :
    (sendFrames o payloads).2.written = o.written ∧ reportedSent payloads (sendFrames o payloads).1 = [] := by
  induction payloads generalizing o with
  | nil => exact ⟨rfl,rfl⟩
  | cons payload rest ih =>
      obtain ⟨t,failed,written,schedule,still⟩ := sendFrameDead lasting dead (nonempty payload List.mem_cons_self)
      have lastingNext : t.Lasting := by
        rw [Outlet.Lasting,schedule]
        exact lasting
      obtain ⟨same,none⟩ := ih lastingNext still fun p member => nonempty p (List.mem_cons_of_mem _ member)
      rw [sendFrames,failed]
      refine ⟨same.trans written,?_⟩
      simpa [reportedSent] using none

theorem aliveSends {o : Outlet} {payloads : List (List UInt8)} (lasting : o.Lasting)
    (nonempty : ∀ payload ∈ payloads, payload ≠ []) :
    ∃ bytes, (sendFrames o payloads).2.written = o.written ++ bytes ∧
      Torn (reportedSent payloads (sendFrames o payloads).1) bytes := by
  induction payloads generalizing o with
  | nil =>
      refine ⟨[],(List.append_nil _).symm,List.forall_mem_nil _,[0],0,⟨by decide,by decide⟩,?_,rfl⟩
      rw [framedLength,frameLenWidth]
      omega
  | cons payload rest ih =>
      have later := fun p member => nonempty p (List.mem_cons_of_mem payload member)
      obtain ⟨t,schedule,calls,result⟩ := sendFrameCases o (nonempty payload List.mem_cons_self)
      have lastingNext : t.Lasting := by
        rw [Outlet.Lasting,schedule]
        exact lasting
      rw [sendFrames]
      rcases result with ⟨done,fits,written⟩ | ⟨refused,written,_⟩ | ⟨failed,dead,fits,k,inside,written⟩
      · obtain ⟨bytes,grown,whole,last,k,fitsLast,inside,same⟩ := ih lastingNext later
        rw [done]
        refine ⟨framed payload ++ bytes,?_,?_,last,k,fitsLast,inside,?_⟩
        · rw [grown,written,List.append_assoc]
        · intro p member
          rcases List.mem_cons.mp member with rfl | further
          · exact fits
          · exact whole p further
        · rw [same]
          simp [reportedSent]
      · obtain ⟨bytes,grown,torn⟩ := ih lastingNext later
        rw [refused]
        exact ⟨bytes,by rw [grown,written],by simpa [reportedSent] using torn⟩
      · obtain ⟨same,none⟩ := deadSends lastingNext dead later
        rw [failed]
        refine ⟨(framed payload).take k,same.trans written,?_⟩
        have nothing : reportedSent (payload :: rest) (false :: (sendFrames t rest).1) = [] := by
          simpa [reportedSent] using none
        rw [nothing]
        exact ⟨List.forall_mem_nil _,payload,k,fits,inside,rfl⟩

theorem tornCut {sent : List (List UInt8)} {bytes : List UInt8} (torn : Torn sent bytes) (n : Nat) :
    ∃ m ≤ sent.length, (bytes.length ≤ n → m = sent.length) ∧ Torn (sent.take m) (bytes.take n) := by
  obtain ⟨whole,last,k,fits,inside,rfl⟩ := torn
  induction sent generalizing n with
  | nil =>
      refine ⟨0,Nat.le_refl 0,fun _ => rfl,List.forall_mem_nil _,last,min n k,fits,by omega,?_⟩
      simp [List.take_take]
  | cons payload rest ih =>
      rw [List.flatMap_cons,List.append_assoc]
      by_cases short : n < (framed payload).length
      · refine ⟨0,Nat.zero_le _,?_,List.forall_mem_nil _,payload,n,whole payload List.mem_cons_self,short,?_⟩
        · intro covers
          rw [List.length_append] at covers
          omega
        · rw [List.take_append_of_le_length (by omega)]
          rfl
      · obtain ⟨m,within,all,cut⟩ := ih (n - (framed payload).length)
          (fun p member => whole p (List.mem_cons_of_mem _ member))
        refine ⟨m + 1,Nat.succ_le_succ within,?_,?_⟩
        · intro covers
          rw [List.length_append] at covers
          rw [all (by omega),List.length_cons]
        · obtain ⟨frames,p,j,fitsLast,insideLast,same⟩ := cut
          refine ⟨?_,p,j,fitsLast,insideLast,?_⟩
          · intro q member
            rcases List.mem_cons.mp member with rfl | further
            · exact whole q List.mem_cons_self
            · exact frames q further
          · rw [List.take_append,List.take_of_length_le (by omega),same,List.take_succ_cons,List.flatMap_cons,
              List.append_assoc]

theorem receivedTorn {sent : List (List UInt8)} {s : Socket} (torn : Torn sent s.pending) (steady : s.Steady) {fuel : Nat}
    (enough : sent.length < fuel) : received fuel s = sent := by
  induction sent generalizing s fuel with
  | nil =>
      obtain ⟨_,last,k,fits,inside,same⟩ := torn
      obtain ⟨message,refused⟩ := extractsCut fits inside
      have agrees := recvFrameAgrees steady
      rw [same,List.flatMap_nil,List.nil_append,refused] at agrees
      cases fuel with
      | zero => rfl
      | succ fuel =>
          rw [received]
          split
          · rfl
          · rename_i payload t reads
            rw [reads] at agrees
            cases agrees
  | cons payload rest ih =>
      obtain ⟨whole,last,k,fits,inside,same⟩ := torn
      have here := whole payload List.mem_cons_self
      have agrees := recvFrameAgrees steady
      rw [same,List.flatMap_cons,List.append_assoc,extractsFramed here] at agrees
      obtain ⟨t,reads,steadyNext,left⟩ := agrees
      rw [← framedLength,List.drop_left] at left
      cases fuel with
      | zero => cases enough
      | succ fuel =>
          rw [received,reads]
          refine congrArg (payload :: ·) (ih ⟨fun p member => whole p (List.mem_cons_of_mem _ member),last,k,fits,inside,left⟩
            steadyNext ?_)
          rw [List.length_cons] at enough
          omega

theorem openSends {o : Outlet} {payloads : List (List UInt8)} (alive : ∀ k, 0 < o.schedule k)
    (nonempty : ∀ payload ∈ payloads, payload ≠ []) :
    reportedSent payloads (sendFrames o payloads).1 = payloads.filter fun p => p.length ≤ maxFrameSize.toNat := by
  induction payloads generalizing o with
  | nil => rfl
  | cons payload rest ih =>
      obtain ⟨t,schedule,_,result⟩ := sendFrameCases o (nonempty payload List.mem_cons_self)
      have later := ih (o := t) (by rw [schedule]; exact alive) fun p member => nonempty p (List.mem_cons_of_mem _ member)
      rw [sendFrames]
      rcases result with ⟨done,fits,_⟩ | ⟨refused,_,large⟩ | ⟨_,⟨k,_,zero⟩,_⟩
      · rw [done,List.filter_cons_of_pos (by simpa using fits.small),← later]
        simp [reportedSent]
      · rw [refused,List.filter_cons_of_neg (by simpa using large),← later]
        simp [reportedSent]
      · rw [schedule] at zero
        exact absurd zero (Nat.pos_iff_ne_zero.mp (alive k))

theorem sentIsReceived {payloads : List (List UInt8)} {o : Outlet} (nonempty : ∀ payload ∈ payloads, payload ≠ [])
    (fresh : o.written = []) (lasting : o.Lasting) :
    (∀ n, ∃ m ≤ (reportedSent payloads (sendFrames o payloads).1).length,
      ((sendFrames o payloads).2.written.length ≤ n → m = (reportedSent payloads (sendFrames o payloads).1).length) ∧
      ∀ s : Socket, s.Steady → s.pending = (sendFrames o payloads).2.written.take n →
        ∀ fuel, (reportedSent payloads (sendFrames o payloads).1).length < fuel →
          received fuel s = (reportedSent payloads (sendFrames o payloads).1).take m) ∧
    ((∀ k, 0 < o.schedule k) → reportedSent payloads (sendFrames o payloads).1 =
      payloads.filter fun p => p.length ≤ maxFrameSize.toNat) := by
  refine ⟨?_,fun alive => openSends alive nonempty⟩
  obtain ⟨bytes,written,torn⟩ := aliveSends lasting nonempty
  rw [fresh,List.nil_append] at written
  rw [written]
  intro n
  obtain ⟨m,within,all,cut⟩ := tornCut torn n
  refine ⟨m,within,all,?_⟩
  intro s steady pending fuel enough
  rw [← pending] at cut
  exact receivedTorn cut steady (Nat.lt_of_le_of_lt (List.length_take_le' _ _) enough)

def failingOutlet : Outlet := { schedule := fun k => if k < 5 then 2 else 0 }

theorem secondFrameTorn :
    (sendFrames failingOutlet [[1,2],[3,4],[5]]).1 = [true,false,false] ∧
    ∀ s : Socket, s.Steady → s.pending = (sendFrames failingOutlet [[1,2],[3,4],[5]]).2.written →
      received 2 s = [[1,2]] := by
  have reports : (sendFrames failingOutlet [[1,2],[3,4],[5]]).1 = [true,false,false] := by decide +kernel
  have lasting : failingOutlet.Lasting := by
    intro k j failed later
    simp only [failingOutlet] at failed ⊢
    split at failed
    · cases failed
    · rw [if_neg (by omega)]
  refine ⟨reports,?_⟩
  intro s steady pending
  have nonempty : ∀ payload ∈ [[1,2],[3,4],[5]], payload ≠ ([] : List UInt8) := by decide
  obtain ⟨m,_,all,every⟩ := (sentIsReceived (o := failingOutlet) nonempty rfl lasting).1
    (sendFrames failingOutlet [[1,2],[3,4],[5]]).2.written.length
  rw [reports] at all every
  have whole := all (Nat.le_refl _)
  subst whole
  exact every s steady (by rw [List.take_length]; exact pending) 2 (by decide)

end SpeculationFabric.Wire
