import Mathlib.Data.List.Forall2
import SpeculationFabric.Wire

/-! Length-prefixed frames over a byte stream, read from a buffer and from a socket.
A socket hands over the stream in pieces its schedule decides; a piece of no bytes
is a closed or failed connection. Blocking and timeouts are not modelled. -/
namespace SpeculationFabric.Wire

open ByteFields

def addFramePrefix (payload : List UInt8) : Result (List UInt8) :=
  if payload.length > maxFrameSize.toNat then Result.err .oversizedFrame "payload exceeds max frame"
  else .ok (putU32 (UInt32.ofNat payload.length) ++ payload)

def frameLen (front : List UInt8) : UInt32 :=
  joinU32 (front.getD 0 0) (front.getD 1 0) (front.getD 2 0) (front.getD 3 0)

def extractFrame (stream : List UInt8) : Result (List UInt8) :=
  if stream.length < frameLenWidth then Result.err .truncatedFrame "stream too short for frame length"
  else if frameLen stream = 0 then Result.err .zeroLengthMessage "zero-length frame"
  else if frameLen stream > maxFrameSize then Result.err .oversizedFrame "frame exceeds max size"
  else if stream.length < frameLenWidth + (frameLen stream).toNat then
    Result.err .truncatedFrame "stream shorter than frame"
  else .ok ((stream.drop frameLenWidth).take (frameLen stream).toNat)

structure Socket where
  pending : List UInt8
  schedule : Nat → Nat
  calls : Nat := 0

def Socket.recv (s : Socket) (n : Nat) : List UInt8 × Socket :=
  let k := min n (s.schedule s.calls)
  (s.pending.take k,{ s with pending := s.pending.drop k, calls := s.calls + 1 })

def recvExact (s : Socket) (n : Nat) : Option (List UInt8) × Socket :=
  if n = 0 then (some [],s)
  else
    let got := s.recv n
    if got.1.length = 0 then (none,got.2)
    else
      let rest := recvExact got.2 (n - got.1.length)
      (rest.1.map (got.1 ++ ·),rest.2)
termination_by n
decreasing_by
  rename_i wanted piece
  exact Nat.sub_lt (Nat.pos_of_ne_zero wanted) (Nat.pos_of_ne_zero piece)

def recvFrame (s : Socket) : Option (List UInt8) × Socket :=
  match recvExact s 4 with
  | (none,s) => (none,s)
  | (some lenb,s) =>
      if frameLen lenb = 0 ∨ frameLen lenb > maxFrameSize then (none,s)
      else recvExact s (frameLen lenb).toNat

def extractFrames : Nat → List UInt8 → Result (List (List UInt8) × List UInt8)
  | 0, stream => .ok ([],stream)
  | n + 1, stream =>
      match extractFrame stream with
      | .error e => .error e
      | .ok payload =>
          match extractFrames n (stream.drop (frameLenWidth + payload.length)) with
          | .error e => .error e
          | .ok (payloads,rest) => .ok (payload :: payloads,rest)

def readMessages : Nat → List UInt8 → Result (List Message × List UInt8)
  | 0, stream => .ok ([],stream)
  | n + 1, stream =>
      match extractFrame stream with
      | .error e => .error e
      | .ok payload =>
          match decode payload with
          | .error e => .error e
          | .ok msg =>
              match readMessages n (stream.drop (frameLenWidth + payload.length)) with
              | .error e => .error e
              | .ok (msgs,rest) => .ok (msg :: msgs,rest)

def recvFrames : Nat → Socket → Option (List (List UInt8)) × Socket
  | 0, s => (some [],s)
  | n + 1, s =>
      match recvFrame s with
      | (none,s) => (none,s)
      | (some payload,s) => ((recvFrames n s).1.map (payload :: ·),(recvFrames n s).2)

def Socket.Steady (s : Socket) : Prop := ∀ k, 0 < s.schedule k

structure Socket.Advanced (s : Socket) (taken : List UInt8) (t : Socket) : Prop where
  schedule : t.schedule = s.schedule
  pending : s.pending = taken ++ t.pending

theorem Socket.Advanced.steady {s t : Socket} {taken : List UInt8} (moved : s.Advanced taken t) (steady : s.Steady) :
    t.Steady := by
  intro k
  rw [moved.schedule]
  exact steady k

theorem Socket.Advanced.left {s t : Socket} {taken : List UInt8} (moved : s.Advanced taken t) :
    t.pending = s.pending.drop taken.length := by
  rw [moved.pending,List.drop_left]

theorem recvAdvances (s : Socket) (n : Nat) : s.Advanced (s.recv n).1 (s.recv n).2 :=
  ⟨rfl,(List.take_append_drop _ _).symm⟩

theorem recvLength {s : Socket} {n : Nat} : (s.recv n).1.length ≤ n := by
  simp [Socket.recv]

theorem recvSome {s : Socket} {n : Nat} (steady : s.Steady) (wanted : 0 < n) (left : 0 < s.pending.length) :
    0 < (s.recv n).1.length := by
  have piece := steady s.calls
  simp [Socket.recv]
  omega

theorem recvExactZero (s : Socket) : recvExact s 0 = (some [],s) := by
  rw [recvExact,if_pos rfl]

theorem recvExactClosed {n : Nat} {s : Socket} (wanted : 0 < n) (closed : (s.recv n).1.length = 0) :
    recvExact s n = (none,(s.recv n).2) := by
  rw [recvExact,if_neg (by omega)]
  exact if_pos closed

theorem recvExactStep {n : Nat} {s : Socket} (wanted : 0 < n) (progress : 0 < (s.recv n).1.length) :
    recvExact s n = ((recvExact (s.recv n).2 (n - (s.recv n).1.length)).1.map ((s.recv n).1 ++ ·),
      (recvExact (s.recv n).2 (n - (s.recv n).1.length)).2) := by
  rw [recvExact,if_neg (by omega)]
  exact if_neg (by omega)

theorem recvExactAdvances {n : Nat} {s : Socket} (steady : s.Steady) (enough : n ≤ s.pending.length) :
    ∃ t, recvExact s n = (some (s.pending.take n),t) ∧ s.Advanced (s.pending.take n) t := by
  induction n using Nat.strong_induction_on generalizing s with
  | _ n ih =>
      rcases Nat.eq_zero_or_pos n with rfl | wanted
      · exact ⟨s,recvExactZero s,rfl,rfl⟩
      · have progress := recvSome steady wanted (by omega)
        have moved := recvAdvances s n
        have halves := congrArg List.length moved.pending
        rw [List.length_append] at halves
        obtain ⟨t,reads,later⟩ :=
          ih (n - (s.recv n).1.length) (by omega) (moved.steady steady) (by omega)
        have joined : (s.recv n).1 ++ (s.recv n).2.pending.take (n - (s.recv n).1.length) = s.pending.take n := by
          rw [moved.pending,List.take_append,List.take_of_length_le recvLength]
        refine ⟨t,?_,later.schedule.trans moved.schedule,?_⟩
        · rw [recvExactStep wanted progress,reads,Option.map_some,joined]
        · rw [← joined,List.append_assoc,← later.pending,← moved.pending]

theorem recvExactShort {n : Nat} {s : Socket} (short : s.pending.length < n) : (recvExact s n).1 = none := by
  induction n using Nat.strong_induction_on generalizing s with
  | _ n ih =>
      have moved := recvAdvances s n
      have halves := congrArg List.length moved.pending
      rw [List.length_append] at halves
      rcases Nat.eq_zero_or_pos (s.recv n).1.length with closed | progress
      · rw [recvExactClosed (by omega) closed]
      · have later := ih (n - (s.recv n).1.length) (by omega) (s := (s.recv n).2) (by omega)
        rw [recvExactStep (by omega) progress,later]
        rfl

theorem frameLenFront (stream : List UInt8) : frameLen (stream.take 4) = frameLen stream := by
  simp [frameLen]

theorem frameLenReads {stream : List UInt8} (long : 4 ≤ stream.length) :
    readU32 stream 0 = some (frameLen stream,4) := by
  rw [readU32,dif_neg (Nat.not_lt.mpr (by omega))]
  simp [frameLen,List.getElem?_eq_getElem (show 0 < stream.length by omega),
    List.getElem?_eq_getElem (show 1 < stream.length by omega),
    List.getElem?_eq_getElem (show 2 < stream.length by omega),
    List.getElem?_eq_getElem (show 3 < stream.length by omega)]

theorem frameLenPut (v : UInt32) (rest : List UInt8) : frameLen (putU32 v ++ rest) = v := by
  have long : 4 ≤ (putU32 v ++ rest).length := by
    rw [List.length_append,putU32Length]
    omega
  have reads := frameLenReads long
  rw [(readsU32 (show (putU32 v ++ rest).drop 0 = putU32 v ++ rest from rfl)).1] at reads
  exact (congrArg Prod.fst (Option.some.inj reads)).symm

theorem recvFrameClosed {s : Socket} (closed : (recvExact s 4).1 = none) : (recvFrame s).1 = none := by
  rw [recvFrame]
  split
  · rfl
  · rename_i lenb t reads
    rw [reads] at closed
    cases closed

theorem recvFrameOpen {s t : Socket} (reads : recvExact s 4 = (some (s.pending.take 4),t)) :
    recvFrame s = if frameLen s.pending = 0 ∨ frameLen s.pending > maxFrameSize then (none,t)
      else recvExact t (frameLen s.pending).toNat := by
  rw [recvFrame,reads]
  simp only [frameLenFront]

/- The socket reader follows the buffer reader on the bytes still to come, whatever the
pieces: the same payload and the same bytes left, or no payload where the buffer has an
error. -/
theorem recvFrameAgrees {s : Socket} (steady : s.Steady) :
    match extractFrame s.pending with
    | .ok payload => ∃ t, recvFrame s = (some payload,t) ∧ t.Steady ∧
        t.pending = s.pending.drop (frameLenWidth + payload.length)
    | .error _ => (recvFrame s).1 = none := by
  by_cases short : s.pending.length < frameLenWidth
  · rw [extractFrame,if_pos short]
    exact recvFrameClosed (recvExactShort short)
  have long : 4 ≤ s.pending.length := Nat.not_lt.mp short
  obtain ⟨t,reads,moved⟩ := recvExactAdvances steady long
  have left : t.pending = s.pending.drop frameLenWidth := by
    rw [moved.left,List.length_take_of_le long,frameLenWidth]
  rw [extractFrame,if_neg short,recvFrameOpen reads]
  generalize frameLen s.pending = len
  by_cases zero : len = 0
  · rw [if_pos zero,if_pos (Or.inl zero)]
    rfl
  by_cases large : len > maxFrameSize
  · rw [if_neg zero,if_pos large,if_pos (Or.inr large)]
    rfl
  rw [if_neg zero,if_neg large,if_neg (not_or.mpr ⟨zero,large⟩)]
  have leftLength : t.pending.length = s.pending.length - frameLenWidth := by rw [left,List.length_drop]
  by_cases cut : s.pending.length < frameLenWidth + len.toNat
  · rw [if_pos cut]
    exact recvExactShort (by omega)
  · obtain ⟨u,rest,last⟩ := recvExactAdvances (n := len.toNat) (moved.steady steady) (by omega)
    rw [if_neg cut,← left]
    have taken : (t.pending.take len.toNat).length = len.toNat := List.length_take_of_le (by omega)
    exact ⟨u,rest,last.steady (moved.steady steady),by rw [last.left,taken,← List.drop_drop,← left]⟩

theorem recvFramesClosed {n : Nat} {s : Socket} (closed : (recvFrame s).1 = none) : (recvFrames (n + 1) s).1 = none := by
  rw [recvFrames]
  split
  · rfl
  · rename_i payload t reads
    rw [reads] at closed
    cases closed

theorem recvFramesAgree (n : Nat) {s : Socket} (steady : s.Steady) :
    match extractFrames n s.pending with
    | .ok (payloads,rest) => ∃ t, recvFrames n s = (some payloads,t) ∧ t.pending = rest
    | .error _ => (recvFrames n s).1 = none := by
  induction n generalizing s with
  | zero => exact ⟨s,rfl,rfl⟩
  | succ n ih =>
      have first := recvFrameAgrees steady
      rw [extractFrames]
      cases extracted : extractFrame s.pending with
      | error e =>
          rw [extracted] at first
          exact recvFramesClosed first
      | ok payload =>
          rw [extracted] at first
          obtain ⟨t,reads,steadyNext,left⟩ := first
          have later := ih steadyNext
          rw [left] at later
          simp only [recvFrames,reads]
          cases rest : extractFrames n (s.pending.drop (frameLenWidth + payload.length)) with
          | error e =>
              rw [rest] at later
              simp only [later,Option.map_none]
          | ok found =>
              rw [rest] at later
              obtain ⟨u,follows,ends⟩ := later
              exact ⟨u,by simp only [follows,Option.map_some],ends⟩

def framed (payload : List UInt8) : List UInt8 := putU32 (UInt32.ofNat payload.length) ++ payload

structure Frameable (payload : List UInt8) : Prop where
  nonempty : payload ≠ []
  small : payload.length ≤ maxFrameSize.toNat

instance (payload : List UInt8) : Decidable (Frameable payload) :=
  decidable_of_iff (payload ≠ [] ∧ payload.length ≤ maxFrameSize.toNat)
    ⟨fun both => ⟨both.1,both.2⟩,fun fits => ⟨fits.nonempty,fits.small⟩⟩

theorem addsPrefix {payload : List UInt8} (fits : Frameable payload) : addFramePrefix payload = .ok (framed payload) := by
  rw [addFramePrefix,if_neg (Nat.not_lt.mpr fits.small),framed]

theorem framedLength (payload : List UInt8) : (framed payload).length = frameLenWidth + payload.length := by
  rw [framed,List.length_append,putU32Length,frameLenWidth]

theorem framedCount {payload : List UInt8} (fits : Frameable payload) :
    (UInt32.ofNat payload.length).toNat = payload.length := by
  have small : payload.length ≤ 16777216 := fits.small
  exact UInt32.toNat_ofNat_of_lt' (by simp only [UInt32.size]; omega)

theorem framedLen {payload : List UInt8} (fits : Frameable payload) :
    UInt32.ofNat payload.length ≠ 0 ∧ ¬UInt32.ofNat payload.length > maxFrameSize := by
  have count := framedCount fits
  constructor
  · intro zero
    rw [zero] at count
    exact fits.nonempty (List.length_eq_zero_iff.mp count.symm)
  · rw [gt_iff_lt,UInt32.not_lt]
    exact UInt32.le_iff_toNat_le.mpr (count.trans_le fits.small)

theorem extractsFramed {payload : List UInt8} (fits : Frameable payload) (tail : List UInt8) :
    extractFrame (framed payload ++ tail) = .ok payload := by
  have count := framedCount fits
  have size : (framed payload ++ tail).length = frameLenWidth + payload.length + tail.length := by
    rw [List.length_append,framedLength]
  have len : frameLen (framed payload ++ tail) = UInt32.ofNat payload.length := by
    rw [framed,List.append_assoc,frameLenPut]
  have body : (framed payload ++ tail).drop frameLenWidth = payload ++ tail := by
    rw [framed,List.append_assoc,frameLenWidth,List.drop_left' (putU32Length _)]
  rw [extractFrame,if_neg (by omega),len,if_neg (framedLen fits).1,if_neg (framedLen fits).2,count,
    if_neg (by omega),body,List.take_left]

theorem extractsCut {payload : List UInt8} (fits : Frameable payload) {k : Nat} (cut : k < (framed payload).length) :
    ∃ message, extractFrame ((framed payload).take k) = Result.err .truncatedFrame message := by
  have count := framedCount fits
  have size : ((framed payload).take k).length = k := List.length_take_of_le (by omega)
  rw [extractFrame]
  by_cases short : k < frameLenWidth
  · exact ⟨_,if_pos (size.symm ▸ short)⟩
  have long : 4 ≤ k := Nat.not_lt.mp short
  have len : frameLen ((framed payload).take k) = UInt32.ofNat payload.length := by
    rw [← frameLenFront,List.take_take,Nat.min_eq_left long,frameLenFront,framed,frameLenPut]
  rw [if_neg (by omega),len,if_neg (framedLen fits).1,if_neg (framedLen fits).2,count]
  exact ⟨_,if_pos (by rw [size,← framedLength]; exact cut)⟩

theorem encodedFrameable {msg : Message} {payload : List UInt8} (encoded : encode msg = .ok payload) :
    Frameable payload := by
  obtain ⟨_,limit64,limit32,limitBody,rfl⟩ := (encodeExact msg payload).mp encoded
  have size := layoutLength msg
  have most : maxFrameSize.toNat = 16777216 := rfl
  refine ⟨?_,by omega⟩
  intro empty
  rw [empty,List.length_nil] at size
  omega

theorem layoutFrameable {msg : Message} (sound : Conforming msg) : Frameable (layout msg) :=
  encodedFrameable (conformingEncodes sound)

theorem extractsStream {payloads : List (List UInt8)} (fits : ∀ payload ∈ payloads, Frameable payload)
    (tail : List UInt8) :
    extractFrames payloads.length (payloads.flatMap framed ++ tail) = .ok (payloads,tail) := by
  induction payloads with
  | nil => rfl
  | cons payload payloads ih =>
      have head := fits payload List.mem_cons_self
      have later := ih fun p inside => fits p (List.mem_cons_of_mem _ inside)
      rw [List.flatMap_cons,List.append_assoc,List.length_cons,extractFrames,extractsFramed head]
      simp only [← framedLength,List.drop_left,later]

theorem readsStream {msgs : List Message} (sound : ∀ msg ∈ msgs, Conforming msg) (tail : List UInt8) :
    readMessages msgs.length ((msgs.map layout).flatMap framed ++ tail) = .ok (msgs,tail) := by
  induction msgs with
  | nil => rfl
  | cons msg msgs ih =>
      have head := sound msg List.mem_cons_self
      have later := ih fun m inside => sound m (List.mem_cons_of_mem _ inside)
      rw [List.map_cons,List.flatMap_cons,List.append_assoc,List.length_cons,readMessages,
        extractsFramed (layoutFrameable head)]
      simp only [layoutDecodes head,← framedLength,List.drop_left,later]

theorem framedStreamsSplit (msgs : List Message) (sound : ∀ msg ∈ msgs, Conforming msg) :
    ∃ payloads frames : List (List UInt8),
      List.Forall₂ (fun msg payload => encode msg = .ok payload) msgs payloads ∧
      List.Forall₂ (fun payload frame => addFramePrefix payload = .ok frame) payloads frames ∧
      (∀ payload ∈ payloads, payload ≠ [] ∧ payload.length ≤ maxFrameSize.toNat) ∧
      (∀ tail, readMessages msgs.length (frames.flatten ++ tail) = .ok (msgs,tail) ∧
        extractFrames msgs.length (frames.flatten ++ tail) = .ok (payloads,tail) ∧
        ∀ s : Socket, s.Steady → s.pending = frames.flatten ++ tail →
          ∃ t, recvFrames msgs.length s = (some payloads,t) ∧ t.pending = tail) ∧
      (∀ frame ∈ frames, ∀ k < frame.length,
        ∃ message, extractFrame (frame.take k) = Result.err .truncatedFrame message) := by
  have fits : ∀ payload ∈ msgs.map layout, Frameable payload := by
    intro payload inside
    obtain ⟨msg,listed,rfl⟩ := List.mem_map.mp inside
    exact layoutFrameable (sound msg listed)
  refine ⟨msgs.map layout,(msgs.map layout).map framed,?_,?_,?_,?_,?_⟩
  · rw [List.forall₂_map_right_iff,List.forall₂_same]
    intro msg listed
    exact conformingEncodes (sound msg listed)
  · rw [List.forall₂_map_right_iff,List.forall₂_same]
    intro payload inside
    exact addsPrefix (fits payload inside)
  · intro payload inside
    exact ⟨(fits payload inside).nonempty,(fits payload inside).small⟩
  · intro tail
    have extracts := extractsStream fits tail
    rw [List.length_map] at extracts
    rw [← List.flatMap_def]
    refine ⟨readsStream sound tail,extracts,?_⟩
    intro s steady pending
    have agrees := recvFramesAgree msgs.length steady
    rw [pending,extracts] at agrees
    exact agrees
  · intro frame inside k cut
    obtain ⟨payload,listed,rfl⟩ := List.mem_map.mp inside
    exact extractsCut (fits payload listed) cut

theorem twoFramesReadBack :
    (∀ msg ∈ [identityMessage,{ type := Msg.shutdown }], Conforming msg) ∧
      ∃ payloads frames : List (List UInt8),
        List.Forall₂ (fun msg payload => encode msg = .ok payload)
          [identityMessage,{ type := Msg.shutdown }] payloads ∧
        List.Forall₂ (fun payload frame => addFramePrefix payload = .ok frame) payloads frames ∧
        ∃ t, recvFrames 2 ⟨frames.flatten,fun _ => 3,0⟩ = (some payloads,t) ∧ t.pending = [] := by
  have sound : ∀ msg ∈ [identityMessage,{ type := Msg.shutdown }], Conforming msg := by
    intro msg listed
    rcases List.mem_pair.mp listed with rfl | rfl
    · exact identityConforms
    · exact ⟨rfl,by decide,by decide,by decide,by decide,by decide⟩
  obtain ⟨payloads,frames,encodes,adds,_,reads,_⟩ := framedStreamsSplit _ sound
  exact ⟨sound,payloads,frames,encodes,adds,
    (reads []).2.2 ⟨frames.flatten,fun _ => 3,0⟩ (fun _ => Nat.succ_pos 2) (List.append_nil _).symm⟩

end SpeculationFabric.Wire
