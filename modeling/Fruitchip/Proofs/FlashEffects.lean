import Fruitchip.PowerCuts
import Fruitchip.Proofs.FrameEffects
import Fruitchip.Proofs.SectorBounds

/-! What a frame does to flash: the operations among its events, in their order,
also when power is lost between two of them. -/

namespace Fruitchip.Firmware
open Embedded

def Event.flashOp : Event → Option FlashOp
  | .flash op => some op
  | _ => none

def flashOps (events : List Event) : List FlashOp := events.filterMap Event.flashOp

variable {config : Config} {world : World} {cmd : Cmd} {args : List U8} {events rest : List Event} {op : FlashOp}

theorem mem_flashOps : op ∈ flashOps events ↔ .flash op ∈ events := by
  rw [flashOps, List.mem_filterMap]
  constructor
  · rintro ⟨event, member, found⟩
    cases event with
    | flash other =>
      cases found
      exact member
    | _ => cases found
  · exact fun member => ⟨_, member, rfl⟩

theorem flashOps_append : flashOps (events ++ rest) = flashOps events ++ flashOps rest := List.filterMap_append

theorem flashOps_map (ops : List FlashOp) : flashOps (ops.map .flash) = ops := by
  rw [flashOps, List.filterMap_map]
  exact List.filterMap_some

theorem flashOps_quiet (quiet : ∀ event ∈ events, event.isEffect = false) : flashOps events = [] := by
  apply List.eq_nil_iff_forall_not_mem.mpr
  intro op member
  cases quiet _ (mem_flashOps.mp member)

theorem kvSetBody_ops (s : KvSetStatics) (world : World) :
    flashOps (kvSetBody s world).2 = [] ∧ (kvSetBody s world).1 = world ∨
      s.idx < modchipSettingsKeysTotal ∧
        flashOps (kvSetBody s world).2 = ((kvSetter s.idx s.value).run world.settings).2 ∧
        (kvSetBody s world).1 = { world with
          settings := ((kvSetter s.idx s.value).run world.settings).1
          flash := applyAll ((kvSetter s.idx s.value).run world.settings).2 world.flash } := by
  simp only [kvSetBody]
  split
  next valid =>
    refine .inr ⟨valid.1.2, ?_, rfl⟩
    show flashOps (_ ++ _) = _
    rw [flashOps_append, ← List.append_nil ((kvSetter s.idx s.value).run world.settings).2]
    exact congrArg (· ++ []) (flashOps_map _)
  · exact .inl ⟨rfl, rfl⟩

theorem writeFlashSectorBody_flash (s : FlashStatics) (world : World) :
    (writeFlashSectorBody config s world).1.flash = applyAll (flashOps (writeFlashSectorBody config s world).2) world.flash := by
  simp only [writeFlashSectorBody]
  split
  next accepted =>
    rw [if_pos accepted.2.2.1]
    split <;> rfl
  · split <;> rfl

theorem eraseFlashSectorBody_flash (s : FlashStatics) (world : World) :
    (eraseFlashSectorBody config s world).1.flash = applyAll (flashOps (eraseFlashSectorBody config s world).2) world.flash := by
  simp only [eraseFlashSectorBody]
  split
  · split <;> rfl
  · rfl

/-- Flash changes by the operations and by nothing else. -/
theorem execute_flash (cmd : Cmd) (args : List U8) (world : World) :
    (execute config (cmd, args) world).1.flash =
      applyAll (flashOps (execute config (cmd, args) world).2) world.flash := by
  by_cases quiet : isEffectful cmd = false
  · obtain ⟨same, events⟩ := @execute_quiet config world cmd quiet args
    rw [same, flashOps_quiet events]
    rfl
  · cases cmd
    case kvSet =>
      rcases kvSetBody_ops (kvSetArgs (args.getD · 0)) world with ⟨ops, same⟩ | ⟨_, ops, stored⟩
      · simp only [execute, ops, same, applyAll_nil]
      · simp only [execute, ops, stored]
    case writeFlashSector => exact writeFlashSectorBody_flash _ _
    case eraseFlashSector => exact eraseFlashSectorBody_flash _ _
    case writeLock =>
      simp only [execute, writeLockBody]
      split <;> rfl
    case reboot =>
      simp only [execute, rebootBody]
      split
      · split <;> rfl
      · rfl
    case disableNextOsdsysHook => rfl
    all_goals exact False.elim (quiet rfl)

theorem execute_settings (other : cmd ≠ .kvSet) (args : List U8) (world : World) :
    (execute config (cmd, args) world).1.settings = world.settings := by
  by_cases quiet : isEffectful cmd = false
  · rw [(execute_quiet quiet args).1]
  · cases cmd
    case kvSet => exact absurd rfl other
    case writeFlashSector =>
      simp only [execute, writeFlashSectorBody]
      split <;> rfl
    case eraseFlashSector =>
      simp only [execute, eraseFlashSectorBody]
      split <;> rfl
    case writeLock =>
      simp only [execute, writeLockBody]
      split <;> rfl
    case reboot =>
      simp only [execute, rebootBody]
      split <;> rfl
    case disableNextOsdsysHook => rfl
    all_goals exact False.elim (quiet rfl)

theorem execute_rebooting (other : cmd ≠ .reboot) (args : List U8) (world : World) :
    (execute config (cmd, args) world).1.scratch0 = world.scratch0 ∧
      (execute config (cmd, args) world).1.rebooting = world.rebooting := by
  by_cases quiet : isEffectful cmd = false
  · rw [(execute_quiet quiet args).1]
    exact ⟨rfl, rfl⟩
  · cases cmd
    case reboot => exact absurd rfl other
    case kvSet =>
      rcases kvSetBody_ops (kvSetArgs (args.getD · 0)) world with ⟨_, same⟩ | ⟨_, _, stored⟩
      · rw [execute, same]
        exact ⟨rfl, rfl⟩
      · rw [execute, stored]
        exact ⟨rfl, rfl⟩
    case writeFlashSector =>
      simp only [execute, writeFlashSectorBody]
      split <;> exact ⟨rfl, rfl⟩
    case eraseFlashSector =>
      simp only [execute, eraseFlashSectorBody]
      split <;> exact ⟨rfl, rfl⟩
    case writeLock =>
      simp only [execute, writeLockBody]
      split <;> exact ⟨rfl, rfl⟩
    case disableNextOsdsysHook => exact ⟨rfl, rfl⟩
    all_goals exact False.elim (quiet rfl)

/-- A frame that keeps inside its partition leaves the rest of flash alone. -/
theorem execute_apart (other : cmd ≠ .kvSet) (inside : FrameInside config world cmd args) {region : Nat → Prop}
    (apart : ∀ address, region address → ¬ InPartition config (args.getD 0 0) address) :
    ∀ op ∈ flashOps (execute config (cmd, args) world).2, ∀ address, region address → ¬ op.covers address := by
  intro op member address held covered
  have issued := mem_flashOps.mp member
  rcases flash_source issued with set | ⟨sector, _⟩
  · exact other set
  · exact apart address held ((frame_inside_iff sector).mpr inside op issued address covered)

end Fruitchip.Firmware
