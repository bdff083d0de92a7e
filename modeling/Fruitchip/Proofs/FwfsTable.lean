import Fruitchip.Fwfs
import Mathlib.Data.List.Induction

/-! The table of open files. A slot counts as free while its size is zero, and
opening a file in data mode stores whatever the modchip sends there. -/

namespace Fruitchip.Fwfs
open Embedded Client

variable {φ : Type} {driver : Driver φ} {session : Session φ}

@[simp] theorem set_self (slot : Slot) (fd : File) : (driver.set slot fd).fdHandle slot = fd := if_pos rfl

theorem set_other {slot other : Slot} (fd : File) (different : other ≠ slot) :
    (driver.set slot fd).fdHandle other = driver.fdHandle other := if_neg different

@[simp] theorem set_privdata (slot : Slot) (fd : File) : (driver.set slot fd).privdata = driver.privdata := rfl

/-- What a data-mode `open` leaves as the size of a free slot depends on the
answers only. -/
theorem readSizeAttr_free (answers : Answers) (idx : U8) {fd : File} (free : fd.size = 0) :
    (readSizeAttr answers idx fd).1 = (readSizeAttr answers idx .zero).1 ∧
      (readSizeAttr answers idx fd).2.size = (readSizeAttr answers idx .zero).2.size := by
  refine @withRetry_related File File (fun fd other => fd.size = other.size) _ _ ?_ _ _ _ _ free
  intro attemp s t same
  refine ⟨rfl, ?_⟩
  dsimp only
  cases (((answers (.appsRead modchipAppsSizeOffset 8 idx true) attemp).read 8 true).2) with
  | none => exact same
  | some bytes => rfl

/-- An attribute-mode `open` stores nothing but the attributes. -/
theorem readAttr_keeps {α : Type} (field : File → α) (untouched : ∀ state bytes, field (File.storeAttr state bytes) = field state)
    (answers : Answers) (idx : U8) (fd : File) : field (readAttr answers idx fd).2 = field fd := by
  refine @withRetry_preserves File (fun other => field other = field fd) _ ?_ _ _ _ rfl
  intro attemp state same
  dsimp only
  cases (((answers (.appsRead modchipAppsAttrSize 4 idx true) attemp).read 4 true).2) with
  | none => exact same
  | some bytes => exact (untouched state bytes).trans same

theorem readAttr_size (answers : Answers) (idx : U8) (fd : File) : (readAttr answers idx fd).2.size = fd.size :=
  readAttr_keeps File.size (fun _ _ => rfl) answers idx fd

theorem readAttr_idx (answers : Answers) (idx : U8) (fd : File) : (readAttr answers idx fd).2.idx = fd.idx :=
  readAttr_keeps File.idx (fun _ _ => rfl) answers idx fd

theorem free_size {fdHandle : Slot → File} {slot : Slot} (found : findFreeFileHandle fdHandle = some slot) :
    (fdHandle slot).size = 0 := by
  have free := List.find?_some found
  simpa using free

theorem free_none {fdHandle : Slot → File} (full : findFreeFileHandle fdHandle = none) (slot : Slot) :
    (fdHandle slot).size ≠ 0 := by
  have used := List.find?_eq_none.mp full slot (List.mem_finRange slot)
  simpa using used

/-- The size that a data-mode `open` leaves behind is not zero exactly if the
read succeeds. -/
def Fitting (answers : Answers) (idx : U8) : Prop :=
  (readSizeAttr answers idx .zero).1 = true ↔ (readSizeAttr answers idx .zero).2.size ≠ 0

/-- An `open` that fails, by the slot it has tried. -/
structure OpenFails (driver : Driver φ) (slot : Slot) (fd : File) (result : Driver φ × Except Errno Unit) : Prop where
  driver : result.1 = driver.set slot fd
  error : ∃ error, result.2 = .error error ∧ error ≠ .emfile

structure OpenSucceeds [DecidableEq φ] (driver : Driver φ) (file : φ) (slot : Slot) (fd : File)
    (result : Driver φ × Except Errno Unit) : Prop where
  fdHandle : result.1.fdHandle = (driver.set slot fd).fdHandle
  privdata : result.1.privdata = fun other => if other = file then some slot else driver.privdata other
  ok : result.2 = .ok ()

theorem fwfsClose_cases (driver : Driver φ) (file : φ) :
    (driver.privdata file = none ∧ (fwfsClose driver file).1 = driver) ∨
      ∃ slot fd, driver.privdata file = some slot ∧ (fwfsClose driver file).1 = driver.set slot fd ∧ fd.size = 0 := by
  simp only [fwfsClose]
  split
  next closed => exact .inl ⟨closed, rfl⟩
  next slot held => exact .inr ⟨slot, _, held, rfl, rfl⟩

structure SameTable (driver next : Driver φ) : Prop where
  size : ∀ slot, (next.fdHandle slot).size = (driver.fdHandle slot).size
  privdata : next.privdata = driver.privdata

theorem SameTable.refl (driver : Driver φ) : SameTable driver driver := ⟨fun _ => rfl, rfl⟩

theorem SameTable.set {slot : Slot} {fd : File} (same : fd.size = (driver.fdHandle slot).size) :
    SameTable driver (driver.set slot fd) where
  size other := by
    by_cases here : other = slot
    · rw [here, set_self, same]
    · rw [set_other fd here]
  privdata := rfl

theorem fwfsRead_same (driver : Driver φ) (file : φ) (size : U32) (answers : Answers) :
    SameTable driver (fwfsRead driver file size answers).1 := by
  simp only [fwfsRead]
  repeat' split
  all_goals first | exact .refl driver | exact .set rfl

theorem fwfsLseek_same (driver : Driver φ) (file : φ) (offset whence : U32) :
    SameTable driver (fwfsLseek driver file offset whence).1 := by
  simp only [fwfsLseek]
  repeat' split
  all_goals first | exact .refl driver | exact .set rfl

/-- An open file object holds a slot. -/
def Session.Holds (session : Session φ) (file : φ) (slot : Slot) : Prop :=
  session.opened file = true ∧ session.driver.privdata file = some slot

/-- A slot is in use exactly if an open file object holds it, and never two. -/
structure Session.Tidy (session : Session φ) : Prop where
  used_iff : ∀ slot, (session.driver.fdHandle slot).size ≠ 0 ↔ ∃ file, session.Holds file slot
  distinct : ∀ file other slot, session.Holds file slot → session.Holds other slot → file = other

theorem initial_tidy : (Session.initial : Session φ).Tidy where
  used_iff slot := by
    refine ⟨fun used => absurd rfl used, ?_⟩
    rintro ⟨file, opened, _⟩
    cases opened
  distinct := by
    rintro file other slot ⟨opened, _⟩
    cases opened

theorem Session.Tidy.congr {next : Session φ} (tidy : session.Tidy)
    (size : ∀ slot, (next.driver.fdHandle slot).size = (session.driver.fdHandle slot).size)
    (holds : ∀ file slot, next.Holds file slot ↔ session.Holds file slot) : next.Tidy := by
  constructor
  · intro slot
    simp only [size, holds]
    exact tidy.used_iff slot
  · intro file other slot
    simp only [holds]
    exact tidy.distinct file other slot

theorem Session.Tidy.same {next : Session φ} (tidy : session.Tidy) (same : SameTable session.driver next.driver)
    (opened : next.opened = session.opened) : next.Tidy :=
  tidy.congr same.size fun file slot => by rw [Session.Holds, Session.Holds, same.privdata, opened]

theorem Session.Tidy.unheld (tidy : session.Tidy) {slot : Slot} (free : (session.driver.fdHandle slot).size = 0)
    (file : φ) : ¬ session.Holds file slot :=
  fun held => (tidy.used_iff slot).mpr ⟨file, held⟩ free

theorem Session.Tidy.full (tidy : session.Tidy) (full : findFreeFileHandle session.driver.fdHandle = none) :
    ∃ files : Slot → φ, Function.Injective files ∧ ∀ slot, session.opened (files slot) = true := by
  have holder (slot : Slot) : ∃ file, session.Holds file slot := (tidy.used_iff slot).mp (free_none full slot)
  refine ⟨fun slot => (holder slot).choose, ?_, fun slot => (holder slot).choose_spec.1⟩
  intro slot other same
  have first := (holder slot).choose_spec.2
  have last := (holder other).choose_spec.2
  dsimp only at same
  rw [← same, first] at last
  exact Option.some.inj last

variable [DecidableEq φ]

theorem fwfsOpen_cases (driver : Driver φ) (file : φ) (name : List U8) (answers : Answers) :
    (findFreeFileHandle driver.fdHandle = none ∧ fwfsOpen driver file name answers = (driver, .error .emfile)) ∨
      ∃ slot fd, findFreeFileHandle driver.fdHandle = some slot ∧ (driver.fdHandle slot).size = 0 ∧
        (OpenFails driver slot fd (fwfsOpen driver file name answers) ∧
            (if getModeFromName name = fwfsModeDataChar then
              (readSizeAttr answers (getIdxFromName name) .zero).1 = false ∧
                fd.size = (readSizeAttr answers (getIdxFromName name) .zero).2.size
            else fd.size = 0) ∨
          OpenSucceeds driver file slot fd (fwfsOpen driver file name answers) ∧
            (if getModeFromName name = fwfsModeDataChar then
              (readSizeAttr answers (getIdxFromName name) .zero).1 = true ∧
                fd.size = (readSizeAttr answers (getIdxFromName name) .zero).2.size
            else fd.size ≠ 0)) := by
  simp only [fwfsOpen]
  split
  next full => exact .inl ⟨full, rfl⟩
  next slot found =>
    have free := free_size found
    refine .inr ⟨slot, ?_⟩
    obtain ⟨done, size⟩ := @readSizeAttr_free answers (getIdxFromName name)
      { driver.fdHandle slot with idx := getIdxFromName name, mode := getModeFromName name } free
    split
    next data =>
      rw [← done, ← size]
      split
      next failed => exact ⟨_, found, free, .inl ⟨⟨rfl, _, rfl, by decide⟩, by simpa using failed, rfl⟩⟩
      next succeeded => exact ⟨_, found, free, .inr ⟨⟨rfl, rfl, rfl⟩, by simpa using succeeded, rfl⟩⟩
    next other =>
      split
      · split
        · exact ⟨_, found, free, .inl ⟨⟨rfl, _, rfl, by decide⟩, (readAttr_size _ _ _).trans free⟩⟩
        · exact ⟨_, found, free, .inr ⟨⟨rfl, rfl, rfl⟩, show modchipAppsAttrSize ≠ 0 by decide⟩⟩
      · exact ⟨_, found, free, .inl ⟨⟨rfl, _, rfl, by decide⟩, free⟩⟩

theorem Session.Tidy.take {next : Session φ} {file : φ} {slot : Slot} {fd : File} (tidy : session.Tidy)
    (free : (session.driver.fdHandle slot).size = 0)
    (fdHandle : next.driver.fdHandle = (session.driver.set slot fd).fdHandle)
    (privdata : next.driver.privdata = fun other => if other = file then some slot else session.driver.privdata other)
    (opened : next.opened = fun other => if other = file then true else session.opened other)
    (closed : session.opened file = false) (used : fd.size ≠ 0) : next.Tidy := by
  have here : next.Holds file slot := by simp [Session.Holds, privdata, opened]
  have elsewhere {other : φ} (different : other ≠ file) (place : Slot) :
      next.Holds other place ↔ session.Holds other place := by
    simp [Session.Holds, privdata, opened, different]
  have only {place : Slot} (held : next.Holds file place) : place = slot := by
    have found := held.2
    simp only [privdata, ite_true] at found
    exact (Option.some.inj found).symm
  constructor
  · intro place
    rw [fdHandle]
    by_cases same : place = slot
    · subst same
      rw [set_self]
      exact ⟨fun _ => ⟨file, here⟩, fun _ => used⟩
    · rw [set_other fd same, tidy.used_iff]
      constructor
      · rintro ⟨other, held⟩
        have different : other ≠ file := by
          rintro rfl
          exact absurd held.1 (by rw [closed]; decide)
        exact ⟨other, (elsewhere different place).mpr held⟩
      · rintro ⟨other, held⟩
        have different : other ≠ file := by
          rintro rfl
          exact same (only held)
        exact ⟨other, (elsewhere different place).mp held⟩
  · intro first second place one two
    by_cases firstFile : first = file
    · by_cases secondFile : second = file
      · rw [firstFile, secondFile]
      · subst firstFile
        rw [only one] at two
        exact False.elim (tidy.unheld free second ((elsewhere secondFile slot).mp two))
    · by_cases secondFile : second = file
      · subst secondFile
        rw [only two] at one
        exact False.elim (tidy.unheld free first ((elsewhere firstFile slot).mp one))
      · exact tidy.distinct first second place ((elsewhere firstFile place).mp one) ((elsewhere secondFile place).mp two)

theorem Session.Tidy.giveBack {next : Session φ} {file : φ} {slot : Slot} {fd : File} (tidy : session.Tidy)
    (held : session.Holds file slot) (driver : next.driver = session.driver.set slot fd)
    (opened : next.opened = fun other => if other = file then false else session.opened other)
    (free : fd.size = 0) : next.Tidy := by
  have holds (other : φ) (place : Slot) : next.Holds other place ↔ other ≠ file ∧ session.Holds other place := by
    by_cases same : other = file
    · simp [Session.Holds, driver, opened, same]
    · simp [Session.Holds, driver, opened, same]
  constructor
  · intro place
    simp only [holds, driver]
    by_cases same : place = slot
    · subst same
      rw [set_self]
      refine ⟨fun used => absurd free used, ?_⟩
      rintro ⟨other, different, otherHeld⟩
      exact False.elim (different (tidy.distinct other file place otherHeld held))
    · rw [set_other fd same, tidy.used_iff]
      constructor
      · rintro ⟨other, otherHeld⟩
        refine ⟨other, ?_, otherHeld⟩
        rintro rfl
        exact same (Option.some.inj (otherHeld.2.symm.trans held.2))
      · rintro ⟨other, _, otherHeld⟩
        exact ⟨other, otherHeld⟩
  · intro first second place one two
    exact tidy.distinct first second place ((holds first place).mp one).2 ((holds second place).mp two).2

/-- An `open` in data mode that finds a free slot leaves a size other than zero
exactly if it succeeds. -/
def Session.FitsCall (session : Session φ) : FsCall φ → Prop
  | .openFile _ name answers => findFreeFileHandle session.driver.fdHandle ≠ none →
      getModeFromName name = fwfsModeDataChar → Fitting answers (getIdxFromName name)
  | _ => True

theorem open_step (tidy : session.Tidy) {file : φ} {name : List U8} {answers : Answers}
    (closed : session.opened file = false) (fits : session.FitsCall (.openFile file name answers)) :
    (session.step (.openFile file name answers)).Tidy ∧
      ∀ error, (fwfsOpen session.driver file name answers).2 = .error error →
        SameTable session.driver (fwfsOpen session.driver file name answers).1 := by
  have unchanged {error : Errno} (failed : (fwfsOpen session.driver file name answers).2 = .error error) :
      (session.step (.openFile file name answers)).opened = session.opened := by
    funext other
    simp only [Session.step, failed, Except.isOk, Except.toBool, Bool.or_false]
    split
    next same => rw [same]
    · rfl
  rcases fwfsOpen_cases session.driver file name answers with
    ⟨full, result⟩ | ⟨slot, fd, found, free, ⟨fails, size⟩ | ⟨succeeds, size⟩⟩
  · have failed : (fwfsOpen session.driver file name answers).2 = .error .emfile := by rw [result]
    have same : SameTable session.driver (fwfsOpen session.driver file name answers).1 := by
      rw [result]
      exact .refl _
    exact ⟨tidy.same same (unchanged failed), fun _ _ => same⟩
  · obtain ⟨error, failed, _⟩ := fails.error
    have zero : fd.size = 0 := by
      split at size
      next data =>
        have fitting := fits (by rw [found]; nofun) data
        rw [size.2]
        by_contra nonzero
        rw [fitting.mpr nonzero] at size
        cases size.1
      · exact size
    have same : SameTable session.driver (fwfsOpen session.driver file name answers).1 := by
      rw [fails.driver]
      exact .set (zero.trans free.symm)
    exact ⟨tidy.same same (unchanged failed), fun _ _ => same⟩
  · have used : fd.size ≠ 0 := by
      split at size
      next data =>
        have fitting := fits (by rw [found]; nofun) data
        rw [size.2]
        exact fitting.mp size.1
      · exact size
    refine ⟨tidy.take free succeeds.fdHandle succeeds.privdata ?_ closed used, ?_⟩
    · funext other
      simp only [Session.step, succeeds.ok, Except.isOk, Except.toBool, Bool.or_true]
    · intro error failed
      rw [succeeds.ok] at failed
      cases failed

theorem Session.Tidy.step (tidy : session.Tidy) {call : FsCall φ} (allowed : session.Allows call)
    (fits : session.FitsCall call) : (session.step call).Tidy := by
  cases call with
  | openFile file name answers => exact (open_step tidy allowed fits).1
  | close file =>
    rcases fwfsClose_cases session.driver file with ⟨unheld, same⟩ | ⟨slot, fd, held, result, free⟩
    · have driver : (session.step (.close file)).driver = session.driver := same
      refine tidy.congr (fun slot => by rw [driver]) fun other slot => ?_
      simp only [Session.Holds, driver]
      by_cases here : other = file
      · simp [here, unheld]
      · simp [Session.step, here]
    · exact tidy.giveBack ⟨allowed, held⟩ result rfl free
  | read file size answers => exact tidy.same (fwfsRead_same _ _ _ _) rfl
  | lseek file offset whence => exact tidy.same (fwfsLseek_same _ _ _ _) rfl
  | getstat name answers => exact tidy

theorem misfit_untidy (tidy : session.Tidy) {call : FsCall φ} (allowed : session.Allows call)
    (misfit : ¬ session.FitsCall call) : ¬ (session.step call).Tidy := by
  cases call with
  | close file => exact False.elim (misfit trivial)
  | read file size answers => exact False.elim (misfit trivial)
  | lseek file offset whence => exact False.elim (misfit trivial)
  | getstat name answers => exact False.elim (misfit trivial)
  | openFile file name answers =>
    intro after
    obtain ⟨found, data, unfit⟩ : findFreeFileHandle session.driver.fdHandle ≠ none ∧
        getModeFromName name = fwfsModeDataChar ∧ ¬ Fitting answers (getIdxFromName name) := by
      simpa only [Session.FitsCall, Classical.not_imp] using misfit
    rcases fwfsOpen_cases session.driver file name answers with
      ⟨full, _⟩ | ⟨slot, fd, _, free, ⟨fails, size⟩ | ⟨succeeds, size⟩⟩
    · exact found full
    · -- the length of an entry whose open failed stays in a slot that nobody holds
      rw [if_pos data] at size
      obtain ⟨error, failed, _⟩ := fails.error
      have used : fd.size ≠ 0 := by
        rw [size.2]
        intro zero
        refine unfit ⟨fun done => ?_, fun nonzero => absurd zero nonzero⟩
        rw [size.1] at done
        cases done
      have driver : (session.step (.openFile file name answers)).driver = session.driver.set slot fd := fails.driver
      obtain ⟨holder, opened, held⟩ := (after.used_iff slot).mp (by rw [driver, set_self]; exact used)
      rw [driver] at held
      refine tidy.unheld free holder ⟨?_, held⟩
      simp only [Session.step, failed, Except.isOk, Except.toBool, Bool.or_false] at opened
      split at opened
      next same =>
        rw [same]
        exact opened
      · exact opened
    · -- the open file holds a slot that counts as free
      rw [if_pos data] at size
      have zero : fd.size = 0 := by
        by_contra nonzero
        exact unfit ⟨fun _ => size.2 ▸ nonzero, fun _ => size.1⟩
      refine (after.used_iff slot).mpr ⟨file, ?_, ?_⟩ ?_
      · simp [Session.step, succeeds.ok, Except.isOk, Except.toBool]
      · have privdata : (session.step (.openFile file name answers)).driver.privdata = _ := succeeds.privdata
        rw [privdata]
        exact if_pos rfl
      · have fdHandle : (session.step (.openFile file name answers)).driver.fdHandle = _ := succeeds.fdHandle
        rw [fdHandle, set_self, zero]

/-- What the table promises in every state of a run. -/
structure Session.TableHolds (session : Session φ) (calls : List (FsCall φ)) : Prop where
  tidy : ∀ before rest, calls = before ++ rest → (session.run before).Tidy
  /-- A failed `open` leaves the free slots as they are. -/
  failed : ∀ before file name answers rest error, calls = before ++ .openFile file name answers :: rest →
    (fwfsOpen (session.run before).driver file name answers).2 = .error error →
    ∀ slot, ((fwfsOpen (session.run before).driver file name answers).1.fdHandle slot).size = 0 ↔
      ((session.run before).driver.fdHandle slot).size = 0
  /-- Only eight open files leave no slot free. -/
  room : ∀ before rest, calls = before ++ rest → findFreeFileHandle (session.run before).driver.fdHandle = none →
    ∃ files : Slot → φ, Function.Injective files ∧ ∀ slot, (session.run before).opened (files slot) = true

theorem run_concat (calls : List (FsCall φ)) (call : FsCall φ) :
    session.run (calls ++ [call]) = (session.run calls).step call := by
  rw [Session.run, List.foldl_append]
  rfl

theorem Session.Legal.allows {calls : List (FsCall φ)} (legal : session.Legal calls) {before rest : List (FsCall φ)}
    {call : FsCall φ} (split : calls = before ++ call :: rest) : (session.run before).Allows call := by
  subst split
  induction before generalizing session with
  | nil => exact legal.1
  | cons first before ih => exact ih legal.2

theorem tidy_run (tidy : session.Tidy) {calls : List (FsCall φ)} (legal : session.Legal calls)
    (fits : ∀ before call rest, calls = before ++ call :: rest → (session.run before).FitsCall call)
    {before rest : List (FsCall φ)} (split : calls = before ++ rest) : (session.run before).Tidy := by
  induction before using List.reverseRecOn generalizing rest with
  | nil => exact tidy
  | append_singleton before call ih =>
    have here : calls = before ++ call :: rest := by rw [split, List.append_assoc]; rfl
    rw [run_concat]
    exact (ih here).step (legal.allows here) (fits before call rest here)

/-- The table keeps its promise exactly in the runs whose `open` calls fit. -/
theorem table_holds_iff {calls : List (FsCall φ)} (legal : Session.initial.Legal calls) :
    Session.initial.TableHolds calls ↔
      ∀ before call rest, calls = before ++ call :: rest → (Session.initial.run before).FitsCall call := by
  constructor
  · intro holds before call rest split
    by_contra misfit
    apply misfit_untidy (holds.tidy before _ split) (legal.allows split) misfit
    rw [← run_concat]
    exact holds.tidy _ rest (by rw [split, List.append_assoc]; rfl)
  · intro fits
    have tidy {before rest : List (FsCall φ)} (split : calls = before ++ rest) := tidy_run initial_tidy legal fits split
    refine ⟨fun before rest split => tidy split, ?_, fun before rest split full => (tidy split).full full⟩
    intro before file name answers rest error split failed slot
    obtain ⟨_, same⟩ := open_step (tidy split) (legal.allows split) (fits _ _ _ split)
    rw [(same error failed).size]

def firstData : List U8 := [fwfsModeDataChar, 1]

/-- Every attempt delivers the length 5, without attributes, and some checksum. -/
def fiveBytes (crcExpected : U32) : Answers := fun _ _ =>
  ⟨modchipCmdResultOk, fun index => if index = 0 then 5 else 0, crcExpected⟩

theorem table_holds_iff_open_close :
    Session.initial.TableHolds [.openFile 0 firstData (fiveBytes (crc32 [5, 0, 0, 0, 0, 0, 0, 0])), .close 0] ↔
      ∀ before call rest,
        [.openFile 0 firstData (fiveBytes (crc32 [5, 0, 0, 0, 0, 0, 0, 0])), .close 0] = before ++ call :: rest →
        (Session.initial.run before).FitsCall call :=
  table_holds_iff ⟨rfl, by decide, trivial⟩

/-- The checksum never matches: the file is not open, and its slot is lost. -/
theorem failed_open_leaks :
    ¬ ∀ calls : List (FsCall Nat), Session.initial.Legal calls → Session.initial.TableHolds calls := by
  intro holds
  have leaked := holds [.openFile 0 firstData (fiveBytes 0)] ⟨rfl, trivial⟩
  obtain ⟨file, opened, _⟩ := ((leaked.tidy [_] [] rfl).used_iff ⟨0, by decide⟩).mp (by decide)
  have closed : ((Session.initial.run [FsCall.openFile 0 firstData (fiveBytes 0)]).opened file) = false := by
    simp only [Session.run, List.foldl, Session.step, Session.initial, Bool.false_or]
    split
    · decide
    · rfl
  rw [closed] at opened
  cases opened

end Fruitchip.Fwfs
