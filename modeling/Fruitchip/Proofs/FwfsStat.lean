import Fruitchip.Proofs.FwfsAttributes

/-! The size that `fwfs_getstat` reports. Where a file with the index is open it
takes the size of that file, which in attribute mode is not the length of the
data. -/

namespace Fruitchip.Fwfs
open Embedded Client

variable {φ : Type} {driver : Driver φ} {session : Session φ} {entries : U8 → Entry} {slot : Slot}
variable {name : List U8} {answers : Answers}

def Entry.size (entry : Entry) : U32 := BitVec.ofNat 32 entry.data.length

theorem readSizeAttr_idx (answers : Answers) (idx : U8) (fd : File) : (readSizeAttr answers idx fd).2.idx = fd.idx := by
  refine @withRetry_preserves File (fun other => other.idx = fd.idx) _ ?_ _ _ _ rfl
  intro attemp state same
  dsimp only
  cases (((answers (.appsRead modchipAppsSizeOffset 8 idx true) attemp).read 8 true).2) with
  | none => exact same
  | some bytes => exact same

structure SameFile (fd next : File) : Prop where
  entry : next.idx = fd.idx
  size : next.size = fd.size

theorem SameFile.refl (fd : File) : SameFile fd fd := ⟨rfl, rfl⟩

theorem SameFile.set {place : Slot} {fd : File} (same : SameFile (driver.fdHandle place) fd) :
    SameFile (driver.fdHandle slot) ((driver.set place fd).fdHandle slot) := by
  by_cases here : slot = place
  · subst here
    rw [set_self]
    exact same
  · rw [set_other fd here]
    exact .refl _

theorem fwfsRead_sameFile (file : φ) (size : U32) (answers : Answers) :
    SameFile (driver.fdHandle slot) ((fwfsRead driver file size answers).1.fdHandle slot) := by
  simp only [fwfsRead]
  repeat' split
  all_goals first | exact .refl _ | exact .set ⟨rfl, rfl⟩

theorem fwfsLseek_sameFile (file : φ) (offset whence : U32) :
    SameFile (driver.fdHandle slot) ((fwfsLseek driver file offset whence).1.fdHandle slot) := by
  simp only [fwfsLseek]
  repeat' split
  all_goals first | exact .refl _ | exact .set ⟨rfl, rfl⟩

theorem fwfsClose_sameFile {file : φ} (used : ((fwfsClose driver file).1.fdHandle slot).size ≠ 0) :
    SameFile (driver.fdHandle slot) ((fwfsClose driver file).1.fdHandle slot) := by
  rcases fwfsClose_cases driver file with ⟨_, same⟩ | ⟨place, fd, _, closed, free⟩
  · rw [same]
    exact .refl _
  · rw [closed] at used ⊢
    by_cases here : slot = place
    · subst here
      rw [set_self] at used
      exact absurd free used
    · rw [set_other fd here]
      exact .refl _

theorem readSizeAttr_length (serves : Serves answers entries) {idx : U8}
    (done : (readSizeAttr answers idx .zero).1 = true) : (readSizeAttr answers idx .zero).2.size = (entries idx).size := by
  obtain ⟨size, _⟩ := readSizeAttr_serves serves .zero done
  have fits := (entries idx).fits
  apply BitVec.eq_of_toNat_eq
  rw [size, Entry.size, toNat_ofNat_of_lt (by omega)]

theorem getstat_unopened (serves : Serves answers entries)
    (done : (readSizeAttr answers (getIdxFromName name) .zero).1 = true)
    (unopened : getFileHandleByIdx driver.fdHandle (getIdxFromName name) = none) :
    fwfsGetstat driver name answers = .ok (entries (getIdxFromName name)).size := by
  rw [fwfsGetstat, unopened]
  dsimp only
  rw [if_neg (not_not_intro done), readSizeAttr_length serves done]

theorem getstat_opened (found : getFileHandleByIdx driver.fdHandle (getIdxFromName name) = some slot) :
    fwfsGetstat driver name answers = .ok (driver.fdHandle slot).size := by
  rw [fwfsGetstat, found]

theorem handle_facts {fdHandle : Slot → File} {idx : U8} (found : getFileHandleByIdx fdHandle idx = some slot) :
    (fdHandle slot).size ≠ 0 ∧ (fdHandle slot).idx = idx := by
  have facts := List.find?_some found
  simpa using facts

variable [DecidableEq φ]

/-- What one `fwfs_getstat` should do. -/
structure GetstatExact (session : Session φ) (entries : U8 → Entry) (name : List U8) (answers : Answers) : Prop where
  /-- It does not depend on the open files. -/
  unopened : fwfsGetstat session.driver name answers = fwfsGetstat (Driver.initial : Driver φ) name answers
  length : fwfsGetstat session.driver name answers = .ok (entries (getIdxFromName name)).size
  unchanged : session.step (.getstat name answers) = session

/-- The name and the answers of a call that tries to open a file in the slot. -/
def Session.tries (session : Session φ) (slot : Slot) : FsCall φ → Option (List U8 × Answers)
  | .openFile _ name answers =>
    if findFreeFileHandle session.driver.fdHandle = some slot then some (name, answers) else none
  | _ => none

/-- The last call of a run that has tried to. -/
def Session.lastOpen (session : Session φ) (slot : Slot) : List (FsCall φ) → Option (List U8 × Answers)
  | [] => none
  | call :: rest => ((session.step call).lastOpen slot rest).or (session.tries slot call)

/-- What an `open` leaves in the slot that it has tried, unless it leaves it free. -/
structure Fills (name : List U8) (answers : Answers) (fd : File) : Prop where
  entry : fd.idx = getIdxFromName name
  size : fd.size = if getModeFromName name = fwfsModeDataChar then
    (readSizeAttr answers (getIdxFromName name) .zero).2.size else modchipAppsAttrSize

/-- The size that it leaves is the length of the data. -/
def LeavesLength (entries : U8 → Entry) (name : List U8) (answers : Answers) : Prop :=
  if getModeFromName name = fwfsModeDataChar then
    (readSizeAttr answers (getIdxFromName name) .zero).1 = true ∨
      (readSizeAttr answers (getIdxFromName name) .zero).2.size = (entries (getIdxFromName name)).size
  else (entries (getIdxFromName name)).data.length = 4

theorem fwfsOpen_fills {file : φ} (found : findFreeFileHandle driver.fdHandle = some slot)
    (used : ((fwfsOpen driver file name answers).1.fdHandle slot).size ≠ 0) :
    Fills name answers ((fwfsOpen driver file name answers).1.fdHandle slot) := by
  have free := free_size found
  have size := (@readSizeAttr_free answers (getIdxFromName name)
    { driver.fdHandle slot with idx := getIdxFromName name, mode := getModeFromName name } free).2
  simp only [fwfsOpen, found] at used ⊢
  split at used
  next data =>
    have filled (fd : File) (entry : fd.idx = getIdxFromName name)
        (length : fd.size = (readSizeAttr answers (getIdxFromName name) .zero).2.size) : Fills name answers fd :=
      ⟨entry, by rw [if_pos data]; exact length⟩
    rw [if_pos data]
    split
    · rw [set_self]
      exact filled _ (readSizeAttr_idx _ _ _) size
    · simp only [set_self]
      exact filled _ (readSizeAttr_idx _ _ _) size
  next other =>
    rw [if_neg other]
    split at used
    next attributes =>
      rw [if_pos attributes]
      split at used
      next failed =>
        rw [set_self, readAttr_size] at used
        exact absurd free used
      next done =>
        rw [if_neg done]
        simp only [set_self]
        exact ⟨readAttr_idx _ _ _, by rw [if_neg other]⟩
    next neither =>
      rw [set_self] at used
      exact absurd free used

theorem fwfsOpen_others {file : φ} (different : findFreeFileHandle driver.fdHandle ≠ some slot) :
    (fwfsOpen driver file name answers).1.fdHandle slot = driver.fdHandle slot := by
  rcases fwfsOpen_cases driver file name answers with
    ⟨full, result⟩ | ⟨tried, fd, found, free, ⟨fails, _⟩ | ⟨succeeds, _⟩⟩
  · rw [result]
  · have apart : slot ≠ tried := fun same => different (same ▸ found)
    rw [fails.driver, set_other fd apart]
  · have apart : slot ≠ tried := fun same => different (same ▸ found)
    rw [succeeds.fdHandle, set_other fd apart]

/-- A slot in use holds what the last `open` has left there. -/
def Holding (before : File) (opened : Option (List U8 × Answers)) (now : File) : Prop :=
  match opened with
  | some (name, answers) => Fills name answers now
  | none => SameFile before now

theorem Session.step_holding (call : FsCall φ) (used : ((session.step call).driver.fdHandle slot).size ≠ 0) :
    Holding (session.driver.fdHandle slot) (session.tries slot call) ((session.step call).driver.fdHandle slot) := by
  cases call with
  | openFile file name answers =>
    by_cases found : findFreeFileHandle session.driver.fdHandle = some slot
    · rw [Session.tries, if_pos found]
      exact fwfsOpen_fills found used
    · rw [Session.tries, if_neg found]
      have same : (session.step (.openFile file name answers)).driver.fdHandle slot = session.driver.fdHandle slot :=
        fwfsOpen_others found
      rw [same]
      exact .refl _
  | close file => exact fwfsClose_sameFile used
  | read file size answers => exact fwfsRead_sameFile file size answers
  | lseek file offset whence => exact fwfsLseek_sameFile file offset whence
  | getstat name answers => exact .refl _

theorem Session.run_holding (calls : List (FsCall φ)) (used : ((session.run calls).driver.fdHandle slot).size ≠ 0) :
    Holding (session.driver.fdHandle slot) (session.lastOpen slot calls) ((session.run calls).driver.fdHandle slot) := by
  induction calls generalizing session with
  | nil => exact .refl _
  | cons call rest ih =>
    have later := @ih (session.step call) used
    rw [Session.lastOpen]
    cases opened : (session.step call).lastOpen slot rest with
    | some tried =>
      rw [opened] at later
      exact later
    | none =>
      rw [opened] at later
      have kept : SameFile ((session.step call).driver.fdHandle slot) ((session.run (call :: rest)).driver.fdHandle slot) :=
        later
      have here := session.step_holding call (kept.size ▸ used)
      cases now : session.tries slot call with
      | some tried =>
        rw [now] at here
        have filled : Fills tried.1 tried.2 ((session.step call).driver.fdHandle slot) := here
        exact Fills.mk (kept.entry.trans filled.entry) (kept.size.trans filled.size)
      | none =>
        rw [now] at here
        have same : SameFile (session.driver.fdHandle slot) ((session.step call).driver.fdHandle slot) := here
        exact SameFile.mk (kept.entry.trans same.entry) (kept.size.trans same.size)

/-- Filled by an `open` that was served, the slot has the length of the data as
its size in the cases that the name and the answers tell. -/
theorem Fills.length_iff {fd : File} (fills : Fills name answers fd) (serves : Serves answers entries) :
    fd.size = (entries (getIdxFromName name)).size ↔ LeavesLength entries name answers := by
  rw [fills.size]
  unfold LeavesLength
  split
  next data =>
    constructor
    · exact fun same => .inr same
    · intro left
      cases left with
      | inl done => exact readSizeAttr_length serves done
      | inr same => exact same
  next other =>
    have fits := (entries (getIdxFromName name)).fits
    have value : modchipAppsAttrSize.toNat = 4 := rfl
    have length : (entries (getIdxFromName name)).size.toNat = (entries (getIdxFromName name)).data.length :=
      toNat_ofNat_of_lt (by omega)
    constructor
    · intro same
      rw [← length, ← same, value]
    · intro four
      apply BitVec.eq_of_toNat_eq
      rw [value, length, four]

theorem lastOpen_mem {calls : List (FsCall φ)} {opened : List U8 × Answers}
    (last : session.lastOpen slot calls = some opened) : ∃ file, FsCall.openFile file opened.1 opened.2 ∈ calls := by
  induction calls generalizing session with
  | nil => cases last
  | cons call rest ih =>
    rw [Session.lastOpen, Option.or_eq_some_iff] at last
    cases last with
    | inl later =>
      obtain ⟨file, member⟩ := ih later
      exact ⟨file, List.mem_cons_of_mem _ member⟩
    | inr here =>
      cases call with
      | openFile file name answers =>
        simp only [Session.tries, Option.ite_none_right_eq_some, Option.some.injEq] at here
        obtain ⟨_, _, rfl⟩ := here
        exact ⟨file, List.mem_cons_self⟩
      | close file => cases here.2
      | read file size answers => cases here.2
      | lseek file offset whence => cases here.2
      | getstat name answers => cases here.2

/-- In every state of every run, `fwfs_getstat` reports the length of the data
exactly where the `open` behind the first file with that index has stored it. -/
theorem getstat_exact_iff {calls : List (FsCall φ)}
    (served : ∀ file name answers, FsCall.openFile file name answers ∈ calls → Serves answers entries)
    (serves : Serves answers entries) (done : (readSizeAttr answers (getIdxFromName name) .zero).1 = true) :
    GetstatExact (Session.initial.run calls) entries name answers ↔
      ∀ slot opened, getFileHandleByIdx (Session.initial.run calls).driver.fdHandle (getIdxFromName name) = some slot →
        Session.initial.lastOpen slot calls = some opened → LeavesLength entries opened.1 opened.2 := by
  have initially : fwfsGetstat (Driver.initial : Driver φ) name answers = .ok (entries (getIdxFromName name)).size := by
    apply getstat_unopened serves done
    rfl
  have exact_iff : GetstatExact (Session.initial.run calls) entries name answers ↔
      fwfsGetstat (Session.initial.run calls).driver name answers = .ok (entries (getIdxFromName name)).size :=
    ⟨fun exact => exact.length, fun length => ⟨length.trans initially.symm, length, rfl⟩⟩
  rw [exact_iff]
  cases found : getFileHandleByIdx (Session.initial.run calls).driver.fdHandle (getIdxFromName name) with
  | none =>
    apply iff_of_true
    · exact getstat_unopened serves done found
    · intro slot opened impossible
      cases impossible
  | some slot =>
    obtain ⟨used, entry⟩ := handle_facts found
    have holding := Session.run_holding calls used
    cases last : Session.initial.lastOpen slot calls with
    | none =>
      -- a slot that no `open` has tried is free
      rw [last] at holding
      have untouched : SameFile .zero ((Session.initial.run calls).driver.fdHandle slot) := holding
      exact absurd untouched.size used
    | some opened =>
      rw [last] at holding
      have fills : Fills opened.1 opened.2 ((Session.initial.run calls).driver.fdHandle slot) := holding
      obtain ⟨file, member⟩ := lastOpen_mem last
      have length := fills.length_iff (served file _ _ member)
      rw [← fills.entry, entry] at length
      rw [getstat_opened found]
      constructor
      · intro reported place other same tried
        cases same
        rw [last] at tried
        cases tried
        exact length.mp (Except.ok.inj reported)
      · intro leaves
        exact congrArg Except.ok (length.mpr (leaves slot opened rfl last))

def attributesOpened : List (FsCall Nat) := [.openFile 0 [fwfsModeAttrChar, 7] (servedBy fun _ => fiveEntry)]

theorem getstat_exact_attributes :
    GetstatExact (Session.initial.run attributesOpened) (fun _ => fiveEntry) [fwfsModeDataChar, 7]
        (servedBy fun _ => fiveEntry) ↔
      ∀ slot opened, getFileHandleByIdx (Session.initial.run attributesOpened).driver.fdHandle 7 = some slot →
        Session.initial.lastOpen slot attributesOpened = some opened →
        LeavesLength (fun _ => fiveEntry) opened.1 opened.2 := by
  apply getstat_exact_iff
  · intro file name answers member
    cases List.mem_singleton.mp member
    exact servedBy_serves _
  · exact servedBy_serves _
  · decide +kernel

/-- Then the size of its data is reported as four. -/
theorem attributes_hide_length :
    ¬ ∀ (calls : List (FsCall Nat)) (entries : U8 → Entry) (name : List U8) (answers : Answers),
      (∀ file name answers, FsCall.openFile file name answers ∈ calls → Serves answers entries) →
      Serves answers entries → (readSizeAttr answers (getIdxFromName name) .zero).1 = true →
      GetstatExact (Session.initial.run calls) entries name answers := by
  intro exact
  have reported : fwfsGetstat (Session.initial.run attributesOpened).driver [fwfsModeDataChar, 7]
      (servedBy fun _ => fiveEntry) = .ok 4 := by decide +kernel
  have served (file : Nat) (name : List U8) (answers : Answers)
      (member : FsCall.openFile file name answers ∈ attributesOpened) : Serves answers fun _ => fiveEntry := by
    cases List.mem_singleton.mp member
    exact servedBy_serves _
  have length := (exact attributesOpened (fun _ => fiveEntry) [fwfsModeDataChar, 7] (servedBy fun _ => fiveEntry) served
    (servedBy_serves _) (by decide +kernel)).length
  rw [reported] at length
  exact absurd (Except.ok.inj length) (by decide)

end Fruitchip.Fwfs
