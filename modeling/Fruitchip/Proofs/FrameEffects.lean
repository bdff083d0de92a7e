import Fruitchip.Proofs.FrameRefinement

/-! What a frame can do besides answering. Each command has one kind of effect,
and most have none. -/

namespace Fruitchip.Firmware
open Embedded

/-- Anything but the answer itself and the checksum that precedes it. -/
def Event.isEffect : Event → Bool
  | .flash _ | .settingsSet _ | .setFlashWriteLock _ | .setScratch0 _ | .watchdogReboot => true
  | _ => false

def isEffectful : Cmd → Bool
  | .kvSet | .writeLock | .eraseFlashSector | .writeFlashSector | .reboot | .disableNextOsdsysHook => true
  | _ => false

variable {config : Config} {world : World}

@[simp] theorem answer_world (statusCode : U32) : (answer world statusCode).1 = world := rfl

@[simp] theorem answerData_world (readAddr : DataRef) (transferCount : U32) (crc : Bool) :
    (answerData world readAddr transferCount crc).1 = world := rfl

theorem answer_quiet (statusCode : U32) :
    ∀ event ∈ (answer world statusCode).2, event.isEffect = false := by
  intro event member
  cases List.mem_singleton.mp member
  rfl

theorem answerData_quiet (readAddr : DataRef) (transferCount : U32) (crc : Bool) :
    ∀ event ∈ (answerData world readAddr transferCount crc).2, event.isEffect = false := by
  intro event member
  cases List.mem_singleton.mp member
  rfl

theorem execute_quiet {cmd : Cmd} (quiet : isEffectful cmd = false) (args : List U8) :
    (execute config (cmd, args) world).1 = world ∧
      ∀ event ∈ (execute config (cmd, args) world).2, event.isEffect = false := by
  cases cmd
  case kvSet | writeLock | eraseFlashSector | writeFlashSector | reboot | disableNextOsdsysHook =>
    cases quiet
  case pinConfig =>
    simp only [execute, pinConfigBody]
    split
    · split
      · exact ⟨rfl, answerData_quiet _ _ _⟩
      · exact ⟨rfl, answer_quiet _⟩
    · exact ⟨rfl, answer_quiet _⟩
  case getPartitionSize =>
    simp only [execute, getPartitionSizeBody]
    split
    · exact ⟨rfl, answerData_quiet _ _ _⟩
    · exact ⟨rfl, answer_quiet _⟩
  case kvGet =>
    simp only [execute, kvGetBody]
    split
    · exact ⟨rfl, answerData_quiet _ _ _⟩
    · exact ⟨rfl, answer_quiet _⟩
  case readEeStage3 =>
    simp only [execute, readEeStage3Body]
    split
    · exact ⟨rfl, answerData_quiet _ _ _⟩
    · exact ⟨rfl, answer_quiet _⟩
  case readApp =>
    simp only [execute, readAppsPartitionBody]
    split
    · exact ⟨rfl, answerData_quiet _ _ _⟩
    · exact ⟨rfl, answer_quiet _⟩
  case testDataOutNoStatusWithDataWithCrc | testDataOutNoStatusWithDataNoCrc | testDataOutBusy =>
    refine ⟨rfl, ?_⟩
    intro event member
    simp only [execute, List.mem_cons, List.not_mem_nil, or_false] at member
    rcases member with rfl | rfl <;> rfl
  case testDataOutWithStatusNoDataNoCrc => exact ⟨rfl, answer_quiet _⟩
  all_goals exact ⟨rfl, answerData_quiet _ _ _⟩

theorem execute_flashWriteLock (cmd : Cmd) (args : List U8) :
    (execute config (cmd, args) world).1.flashWriteLock =
      if cmd = .writeLock ∧ args.getD 0 0 ^^^ args.getD 1 0 = 0xFF then decide (args.getD 0 0 ≠ 0)
      else world.flashWriteLock := by
  by_cases quiet : isEffectful cmd = false
  · have other : cmd ≠ .writeLock := by
      rintro rfl
      cases quiet
    rw [(execute_quiet quiet args).1, if_neg (fun both => other both.1)]
  · cases cmd
    case writeLock =>
      simp only [execute, writeLockBody, true_and]
      split <;> rfl
    case kvSet =>
      simp only [execute, kvSetBody, reduceCtorEq, false_and, ite_false]
      split <;> rfl
    case eraseFlashSector =>
      simp only [execute, eraseFlashSectorBody, reduceCtorEq, false_and, ite_false]
      split <;> rfl
    case writeFlashSector =>
      simp only [execute, writeFlashSectorBody, reduceCtorEq, false_and, ite_false]
      split <;> rfl
    case reboot =>
      simp only [execute, rebootBody, reduceCtorEq, false_and, ite_false]
      split <;> rfl
    case disableNextOsdsysHook => rfl
    all_goals exact False.elim (quiet rfl)

/-- Flash is touched by the settings, and by the sector commands while it is
unlocked. -/
theorem flash_source {cmd : Cmd} {args : List U8} {op : FlashOp}
    (issued : .flash op ∈ (execute config (cmd, args) world).2) :
    cmd = .kvSet ∨
      (cmd = .writeFlashSector ∨ cmd = .eraseFlashSector) ∧ world.flashWriteLock = false := by
  by_cases quiet : isEffectful cmd = false
  · cases (execute_quiet quiet args).2 _ issued
  · cases cmd
    case kvSet => exact .inl rfl
    case eraseFlashSector =>
      simp only [execute, eraseFlashSectorBody] at issued
      split at issued
      next accepted => exact .inr ⟨.inr rfl, accepted.1⟩
      · simp at issued
    case writeFlashSector =>
      simp only [execute, writeFlashSectorBody] at issued
      split at issued
      next accepted => exact .inr ⟨.inl rfl, accepted.1⟩
      · split at issued <;> simp at issued
    case writeLock =>
      simp only [execute, writeLockBody] at issued
      split at issued <;> simp [answer] at issued
    case reboot =>
      simp only [execute, rebootBody] at issued
      split at issued
      · split at issued <;> simp at issued
      · simp [answer] at issued
    case disableNextOsdsysHook => simp [execute, answer] at issued
    all_goals exact False.elim (quiet rfl)

end Fruitchip.Firmware
