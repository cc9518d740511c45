import SpeculationFabric.Archives

/-! A file store that is cut short. Saving truncates the file before it writes, and the
stream or the process may end after any number of bytes. What is recovered is then the
archive whose save was the last to open the file, or nothing: never an earlier one and
never a part of one taken for another. -/
namespace SpeculationFabric.Persistence

open Wire

structure FileStore where
  path : String
  file : Option (List UInt8) := none
  deriving DecidableEq, Repr

inductive Writing where
  | unopened
  | arrived (count : Nat)
  deriving DecidableEq, Repr

def FileStore.save (store : FileStore) (blob : List UInt8) : Writing → Result Unit × FileStore
  | .unopened => (Result.err .internal ("could not open " ++ store.path ++ " for write"),store)
  | .arrived count =>
      (if count < blob.length then Result.err .internal ("short write to " ++ store.path) else .ok (),
        { store with file := some (blob.take count) })

/- `gcount` is how many bytes the stream gave. -/
def FileStore.load (store : FileStore) (gcount : Nat) : Result (List UInt8) :=
  match store.file with
  | none => Result.err .notFound ("could not open " ++ store.path ++ " for read")
  | some data =>
      if gcount ≠ data.length then Result.err .internal ("short read from " ++ store.path) else .ok data

def FileStore.checkpoint (store : FileStore) (archive : StateArchive) (writing : Writing) : Result Unit × FileStore :=
  match serializeArchive archive with
  | .ok blob => store.save blob writing
  | .error e => (.error e,store)

def FileStore.recover (store : FileStore) (gcount : Nat) : Result StateArchive := do
  let data ← store.load gcount
  deserializeArchive data

def FileStore.checkpoints (store : FileStore) (saves : List (StateArchive × Writing)) : FileStore :=
  saves.foldl (fun store save => (store.checkpoint save.1 save.2).2) store

def archived (archive : StateArchive) : List UInt8 := writeArchive archive ++ putU32 (crc32 (writeArchive archive))

def lastOpened (saves : List (StateArchive × Writing)) : Option (StateArchive × Nat) :=
  saves.foldl (fun last save =>
    match save.2 with
    | .unopened => last
    | .arrived count => some (save.1,count)) none

theorem archivedReads {archive : StateArchive} (limits : InLimits archive) :
    deserializeArchive (archived archive) = .ok archive :=
  (deserializeExact _ _).mpr ⟨serializedChecked archive,limits,List.prefix_append _ _⟩

theorem partReads {archive : StateArchive} (limits : InLimits archive) (count : Nat) (other : StateArchive) :
    deserializeArchive ((archived archive).take count) = .ok other ↔
      other = archive ∧ (writeArchive archive).length ≤ count ∧ Checked ((archived archive).take count) := by
  rw [deserializeExact]
  constructor
  · rintro ⟨checked,limited,written⟩
    have whole : deserializeArchive (archived archive) = .ok other :=
      (deserializeExact _ _).mpr ⟨serializedChecked archive,limited,written.trans (List.take_prefix _ _)⟩
    cases whole.symm.trans (archivedReads limits)
    refine ⟨rfl,written.length_le.trans ?_,checked⟩
    rw [List.length_take]
    exact Nat.min_le_left _ _
  · rintro ⟨rfl,long,checked⟩
    exact ⟨checked,limits,List.prefix_take_iff.mpr ⟨List.prefix_append _ _,long⟩⟩

theorem checkpointsFile (path : String) (saves : List (StateArchive × Writing)) :
    (FileStore.checkpoints { path := path } saves).file =
      (lastOpened saves).map fun last => (archived last.1).take last.2 := by
  induction saves using List.reverseRecOn with
  | nil => rfl
  | append_singleton saves save ih =>
      obtain ⟨archive,writing⟩ := save
      rw [FileStore.checkpoints,lastOpened,List.foldl_append,List.foldl_append]
      cases writing with
      | unopened => exact ih
      | arrived count => rfl

theorem wholeSaves (store : FileStore) {archive : StateArchive} {count : Nat} (whole : (archived archive).length ≤ count) :
    (store.checkpoint archive (.arrived count)).1 = .ok () :=
  if_neg (Nat.not_lt.mpr whole)

theorem savedRecovers {store : FileStore} {archive : StateArchive} (limits : InLimits archive) (writing : Writing) :
    (store.checkpoint archive writing).1 = .ok () →
      (store.checkpoint archive writing).2.recover (archived archive).length = .ok archive := by
  cases writing with
  | unopened =>
      intro saved
      cases saved
  | arrived count =>
      intro saved
      have whole : (archived archive).length ≤ count := by
        by_contra short
        have failed : (store.checkpoint archive (.arrived count)).1 =
            Result.err .internal ("short write to " ++ store.path) := if_pos (Nat.lt_of_not_le short)
        cases saved.symm.trans failed
      have file : (store.checkpoint archive (.arrived count)).2.file = some (archived archive) :=
        congrArg some (List.take_of_length_le whole)
      simp only [FileStore.recover,FileStore.load,file,ne_eq,not_true_eq_false,if_false]
      exact archivedReads limits

theorem lastOpenedSaved (saves : List (StateArchive × Writing)) {last : StateArchive × Nat} (opened : lastOpened saves = some last) :
    (last.1,Writing.arrived last.2) ∈ saves := by
  induction saves using List.reverseRecOn with
  | nil => cases opened
  | append_singleton saves save ih =>
      obtain ⟨archive,writing⟩ := save
      rw [lastOpened,List.foldl_append] at opened
      cases writing with
      | unopened => exact List.mem_append_left _ (ih opened)
      | arrived count =>
          cases Option.some.inj opened
          exact List.mem_append_right _ (List.mem_singleton_self _)

theorem recoversLastOpened {path : String} {saves : List (StateArchive × Writing)} (limits : ∀ save ∈ saves, InLimits save.1) :
    (∀ gcount other, (FileStore.checkpoints { path := path } saves).recover gcount = .ok other ↔
      ∃ count, lastOpened saves = some (other,count) ∧ gcount = ((archived other).take count).length ∧
        (writeArchive other).length ≤ count ∧ Checked ((archived other).take count)) ∧
    ∀ archive writing, InLimits archive →
      ((FileStore.checkpoints { path := path } saves).checkpoint archive writing).1 = .ok () →
      ((FileStore.checkpoints { path := path } saves).checkpoint archive writing).2.recover (archived archive).length =
        .ok archive := by
  refine ⟨?_,fun archive writing limited => savedRecovers limited writing⟩
  intro gcount other
  have file := checkpointsFile path saves
  generalize FileStore.checkpoints { path := path } saves = store at file ⊢
  cases opened : lastOpened saves with
  | none =>
      rw [opened,Option.map_none] at file
      simp [FileStore.recover,FileStore.load,file,bind,Except.bind,Result.err]
  | some last =>
      obtain ⟨archive,count⟩ := last
      have limited := limits _ (lastOpenedSaved saves opened)
      rw [opened,Option.map_some] at file
      have recovers : store.recover gcount = .ok other ↔
          gcount = ((archived archive).take count).length ∧ deserializeArchive ((archived archive).take count) = .ok other := by
        simp only [FileStore.recover,FileStore.load,file]
        by_cases short : gcount = ((archived archive).take count).length
        · rw [if_neg (not_not_intro short)]
          exact ⟨fun reads => ⟨short,reads⟩,fun reads => reads.2⟩
        · rw [if_pos short]
          refine ⟨?_,fun reads => absurd reads.1 short⟩
          intro reads
          cases reads
      rw [recovers,partReads limited]
      constructor
      · rintro ⟨whole,rfl,long,checked⟩
        exact ⟨count,rfl,whole,long,checked⟩
      · rintro ⟨n,same,whole,long,checked⟩
        cases Option.some.inj same
        exact ⟨whole,rfl,long,checked⟩

theorem emptyLimits : InLimits {} := ⟨rfl,Nat.zero_le _,List.forall_mem_nil _⟩

theorem smallLimits : InLimits smallArchive := ⟨rfl,by decide,by decide⟩

theorem cutShort : (∀ gcount other, (FileStore.checkpoints { path := "state" }
      [(smallArchive,.arrived 500),({},.arrived 20)]).recover gcount ≠ .ok other) ∧
    (FileStore.checkpoints { path := "state" } [({},.arrived 20),(smallArchive,.arrived 500)]).recover
      (archived smallArchive).length = .ok smallArchive := by
  have small : (archived smallArchive).length ≤ 500 := by
    rw [archived,List.length_append,writeArchiveLength,putU32Length]
    simp [smallArchive,writeRequestLength]
  constructor
  · intro gcount other reads
    have limits : ∀ save ∈ [(smallArchive,Writing.arrived 500),(({} : StateArchive),Writing.arrived 20)], InLimits save.1 :=
      List.forall_mem_cons.mpr ⟨smallLimits,List.forall_mem_cons.mpr ⟨emptyLimits,List.forall_mem_nil _⟩⟩
    obtain ⟨count,last,_,_,long,_⟩ := ((recoversLastOpened limits).1 gcount other).mp reads
    cases Option.some.inj last
    rw [List.length_take] at long
    omega
  · have limits : ∀ save ∈ [(({} : StateArchive),Writing.arrived 20)], InLimits save.1 :=
      List.forall_mem_cons.mpr ⟨emptyLimits,List.forall_mem_nil _⟩
    exact (recoversLastOpened limits).2 smallArchive (.arrived 500) smallLimits (wholeSaves _ small)

end SpeculationFabric.Persistence
