import Fruitchip.Proofs.DamagedFrames

/-! One byte of a call is lost on the bus. The parser takes the first byte of the
next call for the last byte of the damaged one. -/

namespace Fruitchip.Firmware
open Embedded Client

/-- The command on whose behalf a handler runs. -/
def handlerCmd : Handler → Option Cmd
  | .command cmd => some cmd
  | .readEeStage3 => some .readEeStage3
  | .readAppsPartition => some .readApp
  | .eraseFlashSector => some .eraseFlashSector
  | .writeFlashSector => some .writeFlashSector
  | .idle | .cmd | .cmdGroup0 | .cmdGroup1 => none

/-- A call without one of its bytes, followed by other calls. -/
def lossy (call : Call) (lost : Nat) (further : List Call) : List U8 :=
  call.poked.eraseIdx lost ++ further.flatMap Call.poked

/-- Whatever the command of a damaged frame does is what the call asked for. The
parser is through with the frame after as many bytes as the call has sent. An
answer that it starts before only hides bytes of the frame. -/
def Harmless (config : Config) (start : FirmwareState) (call : Call) (lost : Nat) : Prop :=
  ∀ further before w after, (lossy call lost further).take call.poked.length = before ++ w :: after →
    let firmware := ((machine config).run start before).1
    handlerCmd firmware.writeHandler = some (callCmd call) →
      Faithful (effects (handle config firmware w).2) (effects (runCall config call firmware.world).2)

variable {config : Config} {world : World}

theorem poked_length (call : Call) : call.poked.length = 4 + argLength (callCmd call) := by
  rw [poked_eq, List.length_append, callArgs_length]
  rfl

theorem poked_start (call : Call) : ∃ rest, call.poked = frameStart :: rest := by
  rw [poked_eq, opcode_eq]
  exact ⟨_, rfl⟩

theorem lossy_take {call : Call} {lost : Nat} (inside : lost < call.poked.length) {further : List Call}
    (whole : call.poked.length ≤ (lossy call lost further).length) :
    (lossy call lost further).take call.poked.length = call.poked.eraseIdx lost ++ [frameStart] := by
  have shorter : (call.poked.eraseIdx lost).length + 1 = call.poked.length := by
    rw [List.length_eraseIdx_of_lt inside]
    omega
  cases further with
  | nil =>
    simp only [lossy, List.flatMap_nil, List.append_nil] at whole
    omega
  | cons next further =>
    obtain ⟨rest, start⟩ := poked_start next
    simp only [lossy, List.flatMap_cons, start]
    rw [← shorter, List.take_length_add_append]
    rfl

/-- The arguments a frame is left with when it loses a byte behind its command word. -/
theorem poked_lost (call : Call) (lost : Nat) :
    call.poked.eraseIdx (4 + lost) ++ [frameStart] = (callCmd call).opcode ++ lostArgs call lost := by
  rw [poked_eq, List.eraseIdx_append_of_length_le (Nat.le_add_right 4 lost), List.append_assoc]
  exact congrArg (fun rest => (callCmd call).opcode ++ ((callArgs call).eraseIdx rest ++ [frameStart]))
    (Nat.add_sub_cancel_left 4 lost)

theorem sectorAddr_partition {partitionIdx : U8} {sectorIdx : U32}
    (valid : (sectorAddr config partitionIdx sectorIdx).2 = true) :
    partitionIdx = modchipPartitionIdxFwUpdate ∨ partitionIdx = modchipPartitionIdxApps := by
  simp only [sectorAddr] at valid
  split at valid
  next update => exact .inl update
  · split at valid
    next apps => exact .inr apps
    · cases valid

/-- The command word takes the first argument byte for its own last byte. No
call with that argument slips. -/
theorem first_lost_kept {call : Call} {rest : List U8}
    (args : callArgs call = (callCmd call).getByte 3 :: rest) : ¬ Slips config world 0 call := by
  have invalid {partitionIdx : U8} {sectorIdx : U32} (first : partitionIdx = 0x28 ∨ partitionIdx = 0x34)
      (valid : (sectorAddr config (~~~partitionIdx) sectorIdx).2 = true) : False := by
    rcases first with rfl | rfl <;> rcases sectorAddr_partition valid with known | known <;> cases known
  cases call
  case eraseFlashSector partitionIdx sectorIdx sectorCount =>
    rintro ⟨otherPartition, otherIdx, otherCount, misread, acts, _⟩
    have first : partitionIdx = 0x28 := (List.cons.inj args).1.trans (by decide : Cmd.eraseFlashSector.getByte 3 = 0x28)
    generalize place : 0 = lost at misread
    cases misread with
    | partitionIdx => exact invalid (.inl first) acts.2.1
    | partitionIdxXor | sectorIdx | word => omega
  case writeFlashSector partitionIdx sectorIdx sector =>
    rintro ⟨otherPartition, otherIdx, otherCrc, otherSector, misread, acts, _⟩
    have first : partitionIdx = 0x34 := (List.cons.inj args).1.trans (by decide : Cmd.writeFlashSector.getByte 3 = 0x34)
    generalize place : 0 = lost at misread
    cases misread with
    | sector => omega
    | head misread =>
      cases misread with
      | partitionIdx => exact invalid (.inr first) acts.2.1
      | partitionIdxXor | sectorIdx | word => omega
  case settingsSet key value => exact fun slips => absurd slips.2.1 (by decide)
  all_goals exact id

theorem opcode_lost {call : Call} (stateful : IsStateful call) {lost : Nat} (inside : lost < 4) {args : List U8}
    (bytes : call.poked.eraseIdx lost ++ [frameStart] = (callCmd call).opcode ++ args) :
    args = lostArgs call 0 ∧ ¬ Slips config world 0 call := by
  obtain ⟨first, rest, split⟩ : ∃ first rest, callArgs call = first :: rest := by
    cases call <;> first | exact ⟨_, _, rfl⟩ | cases stateful
  rw [poked_eq, split, opcode_eq] at bytes
  have tails : first :: (rest ++ [frameStart]) = (callCmd call).getByte 3 :: args := by
    have tails := congrArg (List.drop 3) bytes
    match lost, inside with
    | 0, _ | 1, _ | 2, _ | 3, _ => exact tails
  obtain ⟨last, moved⟩ := List.cons.inj tails
  refine ⟨?_, first_lost_kept (split.trans (congrArg (· :: rest) last))⟩
  rw [← moved, lostArgs, split]
  rfl

theorem Tracks.runs {firmware : FirmwareState} {pending : List U8} (tracks : Tracks config firmware pending) {w : U8}
    {cmd : Cmd} {args : List U8} (bytes : pending ++ [w] = cmd.opcode ++ args) (length : args.length = argLength cmd)
    (nonempty : args ≠ []) : handlerCmd firmware.writeHandler = some cmd := by
  by_cases single : (switchOf config cmd).next = .idle
  · rw [tracks.single_handler w bytes length single nonempty]
    rfl
  · obtain ⟨init, rfl, rfl⟩ := split_last w bytes nonempty
    rcases tracks.opcode_inv with ⟨handler, _⟩ | ⟨handler, _, _⟩
    · rw [handler]
      rfl
    · rw [handler]
      cases cmd
      case readEeStage3 | readApp | eraseFlashSector | writeFlashSector => rfl
      all_goals exact absurd rfl single

private theorem execute_bare {cmd : Cmd} (bare : argLength cmd = 0) (args : List U8) :
    effects (execute config (cmd, args) world).2 = [] := by
  apply List.filter_eq_nil_iff.mpr
  intro event member
  apply Bool.not_eq_true _ |>.mpr
  by_cases quiet : isEffectful cmd = false
  · exact (execute_quiet quiet args).2 event member
  · cases cmd
    case disableNextOsdsysHook => exact answer_quiet _ event member
    case kvSet | writeLock | eraseFlashSector | writeFlashSector | reboot => cases bare
    all_goals exact absurd rfl quiet

theorem effect_source {start : FirmwareState} (idle : start.writeHandler = .idle) {before : List U8} {w : U8} {cmd : Cmd}
    (handler : handlerCmd ((machine config).run start before).1.writeHandler = some cmd)
    (acts : effects (handle config ((machine config).run start before).1 w).2 ≠ []) :
    ∃ earlier pending args, before = earlier ++ pending ∧ pending ++ [w] = cmd.opcode ++ args ∧
      args.length = argLength cmd ∧
      ((machine config).run start earlier).1.world = ((machine config).run start before).1.world ∧
      (handle config ((machine config).run start before).1 w).2 =
        (execute config (cmd, args) ((machine config).run start before).1.world).2 := by
  obtain ⟨event, member⟩ := List.exists_mem_of_ne_nil _ acts
  obtain ⟨earlier, other, args, pending, split, bytes, length, tracks, _, world, events⟩ :=
    event_source w idle (List.mem_filter.mp member |>.1)
  have nonempty : args ≠ [] := by
    rintro rfl
    rw [events, execute_bare length.symm] at acts
    exact acts rfl
  obtain rfl := Option.some.inj (handler.symm.trans (tracks.runs bytes length nonempty))
  exact ⟨earlier, pending, args, split, bytes, length, world, events⟩

theorem damaged_frame {call : Call} (stateful : IsStateful call) {lost : Nat} (inside : lost < call.poked.length)
    {args : List U8} (bytes : call.poked.eraseIdx lost ++ [frameStart] = (callCmd call).opcode ++ args)
    (kept : ¬ (4 ≤ lost ∧ Slips config world (lost - 4) call)) :
    Faithful (effects (execute config (callCmd call, args) world).2) (effects (runCall config call world).2) := by
  rcases Nat.lt_or_ge lost 4 with early | late
  · obtain ⟨rfl, safe⟩ := opcode_lost stateful early bytes
    apply (lost_faithful stateful ?_).mpr safe
    cases call <;> first | exact Nat.zero_lt_succ _ | cases stateful
  · obtain ⟨rest, rfl⟩ := Nat.exists_eq_add_of_le late
    rw [poked_lost] at bytes
    rw [← List.append_cancel_left bytes]
    rw [Nat.add_sub_cancel_left] at kept
    rw [poked_length] at inside
    exact (lost_faithful stateful (Nat.lt_of_add_lt_add_left inside)).mpr fun slips => kept ⟨late, slips⟩

theorem slip_harms {start : FirmwareState} (idle : start.writeHandler = .idle) {call : Call} (stateful : IsStateful call)
    {lost : Nat} (inside : lost < argLength (callCmd call)) (slips : Slips config start.world lost call) :
    ¬ Harmless config start call (4 + lost) := by
  intro harmless
  have shorter : ((callArgs call).eraseIdx lost).length + 1 = argLength (callCmd call) := by
    rw [List.length_eraseIdx_of_lt (callArgs_length call ▸ inside), callArgs_length]
    omega
  obtain ⟨world, tracks, events⟩ := @last_byte config frameStart start idle _ _ shorter
  have received : (lossy call (4 + lost) [call]).take call.poked.length =
      ((callCmd call).opcode ++ (callArgs call).eraseIdx lost) ++ frameStart :: [] := by
    have position : 4 + lost < call.poked.length := by
      rw [poked_length]
      exact Nat.add_lt_add_left inside 4
    rw [lossy_take position, poked_lost, lostArgs, List.append_assoc]
    simp only [lossy, List.flatMap_cons, List.flatMap_nil, List.length_append]
    omega
  have nonempty : (callArgs call).eraseIdx lost ++ [frameStart] ≠ [] := List.concat_ne_nil _ _
  have runs := tracks.runs (List.append_assoc _ _ _) (by simp [shorter]) nonempty
  have faithful := harmless [call] _ frameStart [] received runs
  rw [events, world] at faithful
  exact (lost_faithful stateful inside).mp faithful slips

/-- Losing one byte of a call that changes something is harmless exactly when it
is not one of the argument bytes whose loss goes unnoticed. -/
theorem lost_byte_harmless_iff (config : Config) {start : FirmwareState} (idle : start.writeHandler = .idle)
    {call : Call} (stateful : IsStateful call) {lost : Nat} (inside : lost < call.poked.length) :
    Harmless config start call lost ↔ ¬ (4 ≤ lost ∧ Slips config start.world (lost - 4) call) := by
  constructor
  · rintro harmless ⟨late, slips⟩
    obtain ⟨rest, rfl⟩ := Nat.exists_eq_add_of_le late
    rw [Nat.add_sub_cancel_left] at slips
    rw [poked_length] at inside
    exact slip_harms idle stateful (Nat.lt_of_add_lt_add_left inside) slips harmless
  · intro kept further before w after received firmware handler
    by_cases acts : effects (handle config firmware w).2 = []
    · exact .inl acts
    · obtain ⟨earlier, pending, args, rfl, bytes, length, world, events⟩ := effect_source idle handler acts
      -- The frame is as long as the damaged call, so it began with it.
      have frame : pending.length + 1 = call.poked.length := by
        have same := congrArg List.length bytes
        simp only [List.length_append, length] at same
        exact same.trans (poked_length call).symm
      have taken : earlier.length + pending.length + (after.length + 1) ≤ call.poked.length := by
        have same := congrArg List.length received
        rw [List.length_take] at same
        simp only [List.length_append, List.length_cons] at same
        omega
      obtain rfl : earlier = [] := List.length_eq_zero_iff.mp (by omega)
      obtain rfl : after = [] := List.length_eq_zero_iff.mp (by omega)
      have whole : call.poked.length ≤ (lossy call lost further).length := by
        have same := congrArg List.length received
        rw [List.length_take] at same
        simp only [List.length_append, List.length_cons, List.length_nil] at same
        omega
      rw [lossy_take inside whole] at received
      rw [events]
      rw [show start.world = firmware.world from world] at kept
      exact damaged_frame stateful inside (received.trans bytes) kept

/-- A delay of 207 seconds, whose low byte is the first byte of a command word. -/
def delayCall : Call := .settingsSet modchipSettingsMenuAutobootDelay 0xCF

def delayStart : FirmwareState := .powerUp (fun _ => 0xFF) ⟨.defaults, WearLeveling.clearCache⟩

theorem lost_byte_harmless_delay : Harmless default delayStart delayCall 8 ↔
    ¬ (4 ≤ 8 ∧ Slips default delayStart.world (8 - 4) delayCall) :=
  @lost_byte_harmless_iff default delayStart rfl delayCall trivial 8 (by decide)

/-- Without the low byte of its value the call sets the delay to 0. -/
theorem lost_delay_byte : ¬ Harmless default delayStart delayCall 8 ∧
    ∃ before w, (lossy delayCall 8 [delayCall]).take 16 = before ++ [w] ∧
      .settingsSet (.menuAutobootDelaySec 0) ∈ (handle default ((machine default).run delayStart before).1 w).2 := by
  have slips : Slips default delayStart.world 4 delayCall := 
    ⟨by decide, Nat.le_refl 4, (by decide : frameStart = byteAt (0xCF : U32) 0), by decide⟩
  have stateful : IsStateful delayCall := trivial
  refine ⟨slip_harms rfl stateful (by decide) slips, (lossy delayCall 8 [delayCall]).take 15, 0xCF, by decide, ?_⟩
  exact List.mem_cons_of_mem _ List.mem_cons_self

end Fruitchip.Firmware
