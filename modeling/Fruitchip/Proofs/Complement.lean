import Fruitchip.Proofs.FrameEffects

/-! Arguments and their complements. A frame whose complements do not match is
refused and changes nothing, but for the flag of the two read commands: it is
kept as a `bool`, so its upper bits are not compared. -/

namespace Fruitchip.Firmware
open Embedded

variable {config : Config} {world : World}

def halfwordPairs (index complement : Nat) : List (Nat × Nat) :=
  [(index, complement), (index + 1, complement + 1)]

def wordPairs (index complement : Nat) : List (Nat × Nat) :=
  halfwordPairs index complement ++ halfwordPairs (index + 2) (complement + 2)

/-- Positions of the argument bytes of a command with those of their complements. -/
def complementPairs : Cmd → List (Nat × Nat)
  | .pinConfig | .getPartitionSize | .writeLock | .reboot => [(0, 1)]
  | .kvGet => halfwordPairs 0 2
  | .kvSet => halfwordPairs 0 2 ++ wordPairs 4 8
  | .readEeStage3 => wordPairs 0 4 ++ wordPairs 8 12 ++ [(16, 17)]
  | .readApp => [(0, 1)] ++ wordPairs 2 6 ++ wordPairs 10 14 ++ [(18, 19)]
  | .eraseFlashSector | .writeFlashSector => [(0, 1)] ++ wordPairs 2 6 ++ wordPairs 10 14
  | _ => []

def PairsMatch (pairs : List (Nat × Nat)) (byte : Nat → U8) : Prop :=
  ∀ pair ∈ pairs, byte pair.2 = ~~~(byte pair.1)

/-- Every argument byte of a frame is the complement of its partner. -/
def Complemented (cmd : Cmd) (args : List U8) : Prop :=
  PairsMatch (complementPairs cmd) (fun index => args.getD index 0)

theorem pairsMatch_append {first rest : List (Nat × Nat)} {byte : Nat → U8} :
    PairsMatch (first ++ rest) byte ↔ PairsMatch first byte ∧ PairsMatch rest byte :=
  List.forall_mem_append

theorem byte_match {index complement : Nat} {byte : Nat → U8} :
    PairsMatch [(index, complement)] byte ↔ byte index ^^^ byte complement = 0xFF := by
  rw [xor8]
  simp [PairsMatch]

theorem halfword_match {index complement : Nat} {byte : Nat → U8} :
    PairsMatch (halfwordPairs index complement) byte ↔
      halfwordAt byte index ^^^ halfwordAt byte complement = 0xFFFF := by
  rw [halfwordAt, halfwordAt, xor_le16]
  simp [PairsMatch, halfwordPairs]

theorem word_match {index complement : Nat} {byte : Nat → U8} :
    PairsMatch (wordPairs index complement) byte ↔
      wordAt byte index ^^^ wordAt byte complement = 0xFFFFFFFF := by
  rw [wordAt, wordAt, xor_le32]
  simp [PairsMatch, wordPairs, halfwordPairs]

def statusCodes (events : List Event) : List U32 := events.filterMap fun
  | .startStatusCode statusCode => some statusCode
  | .startDataWithStatusCode statusCode _ _ _ => some statusCode
  | .stopBusyCode statusCode => some statusCode
  | _ => none

/-- The only answer is the error word and nothing has changed. -/
structure Refused (world : World) (result : World × List Event) : Prop where
  answer : statusCodes result.2 = [modchipCmdResultErr]
  unchanged : result.1 = world

theorem refused_answer : Refused world (answer world modchipCmdResultErr) := ⟨rfl, rfl⟩

theorem refused_ite {accepted : Prop} [Decidable accepted] {readAddr : DataRef} {transferCount : U32}
    {crc : Bool} :
    Refused world (if accepted then answerData world readAddr transferCount crc
      else answer world modchipCmdResultErr) ↔ ¬ accepted := by
  split
  next held =>
    refine ⟨?_, fun other => absurd held other⟩
    intro refused
    cases refused.answer
  next failed => exact ⟨fun _ => failed, fun _ => refused_answer⟩

theorem refused_busy (crcEvents : List Event) (silent : statusCodes crcEvents = []) :
    Refused world (world, .startBusyCode :: crcEvents ++ [.stopBusyCode modchipCmdResultErr]) := by
  refine ⟨?_, rfl⟩
  simp only [statusCodes] at silent ⊢
  simp [silent]

private theorem checkedSectorAddr_complements {s : FlashStatics}
    (valid : (checkedSectorAddr config s).2 = true) :
    s.partitionIdx ^^^ s.partitionIdxXor = 0xFF ∧ s.sectorIdx ^^^ s.sectorIdxXor = 0xFFFFFFFF := by
  simp only [checkedSectorAddr] at valid
  split at valid
  next both => exact both
  · cases valid

private theorem refused_of_mismatch {cmd : Cmd} (other : cmd ≠ .readEeStage3 ∧ cmd ≠ .readApp)
    {args : List U8} (mismatch : ¬ Complemented cmd args) :
    Refused world (execute config (cmd, args) world) := by
  cases cmd
  case readEeStage3 => exact False.elim (other.1 rfl)
  case readApp => exact False.elim (other.2 rfl)
  all_goals simp only [Complemented, complementPairs, pairsMatch_append, byte_match, halfword_match,
    word_match] at mismatch
  case pinConfig =>
    simp only [execute, pinConfigBody, if_neg mismatch]
    exact refused_answer
  case getPartitionSize =>
    simp only [execute, getPartitionSizeBody]
    rw [if_neg fun valid => mismatch valid.1]
    exact refused_answer
  case writeLock =>
    simp only [execute, writeLockBody, if_neg mismatch]
    exact refused_answer
  case reboot =>
    simp only [execute, rebootBody]
    rw [if_neg fun valid => mismatch valid.1]
    exact refused_answer
  case kvGet =>
    simp only [execute, kvGetBody]
    rw [if_neg fun valid => mismatch valid.1]
    exact refused_answer
  case kvSet =>
    simp only [execute, kvSetBody]
    rw [if_neg fun valid => mismatch ⟨valid.1.1, valid.2⟩]
    exact refused_answer
  case eraseFlashSector =>
    simp only [execute, eraseFlashSectorBody]
    rw [if_neg fun valid => mismatch ⟨checkedSectorAddr_complements valid.2.1, valid.2.2⟩]
    exact refused_busy [] rfl
  case writeFlashSector =>
    simp only [execute, writeFlashSectorBody]
    rw [if_neg fun valid => mismatch ⟨checkedSectorAddr_complements valid.2.1, valid.2.2.1⟩]
    exact refused_busy _ (by split <;> rfl)
  all_goals exact False.elim (mismatch fun _ member => absurd member List.not_mem_nil)

/-- What the test of the flag accepts: the complement of the `bool`, not of the byte. -/
private theorem flag_accepted {flag complement : U8} :
    boolXor (flag ≠ 0) complement = 0xFF ↔
      flag = 0 ∧ complement = 0xFF ∨ flag ≠ 0 ∧ complement = 0xFE := by
  rw [boolXor, xor8]
  by_cases zero : flag = 0
  · simp [zero, boolByte]
  · rw [decide_eq_true zero]
    constructor
    · intro one
      exact .inr ⟨zero, one⟩
    · rintro (⟨same, _⟩ | ⟨_, one⟩)
      · exact absurd same zero
      · exact one

/-- A flag byte with some other bit set, next to the complement of 1. -/
structure FlagHidden (flag complement : U8) : Prop where
  notZero : flag ≠ 0
  notOne : flag ≠ 1
  complement : complement = 0xFE

private theorem flagHidden_iff {flag complement : U8} :
    FlagHidden flag complement ↔
      boolXor (flag ≠ 0) complement = 0xFF ∧ ¬ flag ^^^ complement = 0xFF := by
  rw [flag_accepted, xor8]
  constructor
  · rintro ⟨notZero, notOne, rfl⟩
    refine ⟨.inr ⟨notZero, rfl⟩, fun same => notOne ?_⟩
    rw [← BitVec.not_not (b := flag), ← same]
    rfl
  · rintro ⟨⟨rfl, rfl⟩ | ⟨notZero, rfl⟩, mismatch⟩
    · exact False.elim (mismatch rfl)
    · refine ⟨notZero, ?_, rfl⟩
      rintro rfl
      exact mismatch rfl

/-- A read frame whose flag does not match its complement and is accepted: all
the other arguments are valid, and the flag byte hides in a `bool`. -/
def FlagAccepted (config : Config) (world : World) (cmd : Cmd) (args : List U8) : Prop :=
  let byte (index : Nat) : U8 := args.getD index 0
  match cmd with
  | .readEeStage3 =>
    PairsMatch (wordPairs 0 4 ++ wordPairs 8 12) byte ∧ wordAt byte 0 < config.loaderEeStage3Size ∧
      FlagHidden (byte 16) (byte 17)
  | .readApp =>
    PairsMatch ([(0, 1)] ++ wordPairs 2 6 ++ wordPairs 10 14) byte ∧
      appsPartitionDetect world.flash ∧
      (byte 0).setWidth 32 < appsPartitionEntriesCount world.flash ∧
      wordAt byte 2 < appsPartitionEntryLength world.flash ((byte 0).setWidth 32) ∧
      FlagHidden (byte 18) (byte 19)
  | _ => False

theorem stage3_refused_iff {s : Stage3Statics} {w : U8} :
    Refused world (readEeStage3Body config s w world) ↔
      ¬ ((s.readOffset ^^^ s.readOffsetXor = 0xFFFFFFFF ∧ s.readOffset < config.loaderEeStage3Size) ∧
        s.readSize ^^^ s.readSizeXor = 0xFFFFFFFF ∧ boolXor s.withCrc w = 0xFF) :=
  refused_ite

theorem readApp_refused_iff {s : ReadAppStatics} {w : U8} :
    Refused world (readAppsPartitionBody s w world) ↔
      ¬ (s.isValidAppsPartition ∧ s.isValidReadOffset ∧ s.isValidReadSize ∧ s.isValidAppIdx ∧
        boolXor s.withCrc w = 0xFF) :=
  refused_ite

private theorem stage3_iff {args : List U8} :
    (¬ Complemented .readEeStage3 args → Refused world (execute config (.readEeStage3, args) world)) ↔
      ¬ FlagAccepted config world .readEeStage3 args := by
  simp only [Complemented, complementPairs, FlagAccepted, pairsMatch_append, byte_match, word_match,
    flagHidden_iff, execute, stage3_refused_iff, stage3Args]
  tauto

private theorem readApp_iff {args : List U8} :
    (¬ Complemented .readApp args → Refused world (execute config (.readApp, args) world)) ↔
      ¬ FlagAccepted config world .readApp args := by
  simp only [Complemented, complementPairs, FlagAccepted, pairsMatch_append, byte_match, word_match,
    flagHidden_iff, execute, readApp_refused_iff, readAppArgs, decide_eq_true_eq]
  tauto

/-- A frame with a mismatched complement, delivered to an idle parser, is
refused in all cases but the one where the flag of a read command hides it. -/
theorem mismatch_refused_iff (config : Config) {start : FirmwareState} (idle : start.writeHandler = .idle)
    (cmd : Cmd) {args : List U8} (length : args.length = argLength cmd) :
    (¬ Complemented cmd args →
      Refused start.world (((machine config).run start (cmd.opcode ++ args)).1.world,
        ((machine config).run start (cmd.opcode ++ args)).2)) ↔
    ¬ FlagAccepted config start.world cmd args := by
  obtain ⟨_, world, events⟩ := run_frame config idle length
  rw [world, events]
  by_cases stage3 : cmd = .readEeStage3
  · subst stage3
    exact stage3_iff
  · by_cases app : cmd = .readApp
    · subst app
      exact readApp_iff
    · refine ⟨?_, fun _ mismatch => refused_of_mismatch ⟨stage3, app⟩ mismatch⟩
      intro _ accepted
      unfold FlagAccepted at accepted
      split at accepted
      · exact stage3 rfl
      · exact app rfl
      · exact accepted

def hiddenFlagConfig : Config := { (default : Config) with loaderEeStage3Size := 16 }

def hiddenFlagArgs : List U8 :=
  bytes32 0 ++ bytes32 0xFFFFFFFF ++ bytes32 4 ++ bytes32 0xFFFFFFFB ++ [0x02, 0xFE]

def hiddenFlagStart : FirmwareState := .powerUp (fun _ => 0xFF) ⟨.defaults, WearLeveling.clearCache⟩

theorem mismatch_refused_hidden_flag :
    (¬ Complemented .readEeStage3 hiddenFlagArgs →
      Refused hiddenFlagStart.world
        (((machine hiddenFlagConfig).run hiddenFlagStart (Cmd.opcode .readEeStage3 ++ hiddenFlagArgs)).1.world,
          ((machine hiddenFlagConfig).run hiddenFlagStart (Cmd.opcode .readEeStage3 ++ hiddenFlagArgs)).2)) ↔
    ¬ FlagAccepted hiddenFlagConfig hiddenFlagStart.world .readEeStage3 hiddenFlagArgs :=
  mismatch_refused_iff hiddenFlagConfig rfl .readEeStage3 rfl

/-- The mismatched flag is accepted and the data goes out with a checksum. -/
theorem hidden_flag_answers_data :
    ¬ Complemented .readEeStage3 hiddenFlagArgs ∧
      ((machine hiddenFlagConfig).run hiddenFlagStart (Cmd.opcode .readEeStage3 ++ hiddenFlagArgs)).2 =
        [.startDataWithStatusCode modchipCmdResultOk (.xip 0) 4 true] ∧
      ¬ Refused hiddenFlagStart.world
        (((machine hiddenFlagConfig).run hiddenFlagStart (Cmd.opcode .readEeStage3 ++ hiddenFlagArgs)).1.world,
          ((machine hiddenFlagConfig).run hiddenFlagStart (Cmd.opcode .readEeStage3 ++ hiddenFlagArgs)).2) := by
  refine ⟨?_, rfl, ?_⟩
  · intro complemented
    have flag := complemented (16, 17) (by decide)
    exact absurd flag (by decide)
  · intro refused
    have answer : [modchipCmdResultOk] = [modchipCmdResultErr] := refused.answer
    exact absurd answer (by decide)

end Fruitchip.Firmware
