import Fruitchip.Proofs.Complement

/-! Where the read commands read. Only the offset is compared with the length of
the object, so an accepted frame stays inside it exactly when its size does. -/

namespace Fruitchip.Firmware
open Embedded

variable {config : Config} {world : World}

def readObject (config : Config) (flash : Flash) (cmd : Cmd) (byte : Nat → U8) : U32 × U32 :=
  match cmd with
  | .readApp =>
    (appsPartitionEntryAddr flash ((byte 0).setWidth 32), appsPartitionEntryLength flash ((byte 0).setWidth 32))
  | _ => (config.loaderEeStage3, config.loaderEeStage3Size)

def readRange (cmd : Cmd) (byte : Nat → U8) : U32 × U32 :=
  match cmd with
  | .readApp => (wordAt byte 2, wordAt byte 10)
  | _ => (wordAt byte 0, wordAt byte 8)

/-- The tests that a read frame passes before its data goes out. -/
def ReadAccepted (config : Config) (flash : Flash) (cmd : Cmd) (byte : Nat → U8) : Prop :=
  match cmd with
  | .readApp =>
    let s := readAppArgs flash byte
    s.isValidAppsPartition ∧ s.isValidReadOffset ∧ s.isValidReadSize ∧ s.isValidAppIdx ∧
      boolXor s.withCrc (byte 19) = 0xFF
  | _ =>
    let s := stage3Args byte
    (s.readOffset ^^^ s.readOffsetXor = 0xFFFFFFFF ∧ s.readOffset < config.loaderEeStage3Size) ∧
      s.readSize ^^^ s.readSizeXor = 0xFFFFFFFF ∧ boolXor s.withCrc (byte 17) = 0xFF

/-- The entries of the apps partition do not run past the address space. -/
def AppsPartitionValid (flash : Flash) : Prop :=
  ∀ idx, idx < appsPartitionEntriesCount flash →
    (appsPartitionEntryAddr flash idx).toNat + (appsPartitionEntryLength flash idx).toNat ≤ 2 ^ 32

/-- The data that an answer starts lies in the object that the frame names. -/
structure ReadsInside (config : Config) (world : World) (cmd : Cmd) (byte : Nat → U8)
    (a n : U32) (crc : Bool) (result : World × List Event) : Prop where
  answer : result = (world, [.startDataWithStatusCode modchipCmdResultOk (.xip a) n crc])
  index : cmd = .readApp → (byte 0).setWidth 32 < appsPartitionEntriesCount world.flash
  inside : ∀ address, a.toNat ≤ address → address < a.toNat + n.toNat →
    (readObject config world.flash cmd byte).1.toNat ≤ address ∧
      address < (readObject config world.flash cmd byte).1.toNat +
        (readObject config world.flash cmd byte).2.toNat

private theorem range_iff {base length offset size : U32}
    (fits : base.toNat + length.toNat ≤ 2 ^ 32) (below : offset < length) :
    (∀ address, (base + offset).toNat ≤ address → address < (base + offset).toNat + size.toNat →
      base.toNat ≤ address ∧ address < base.toNat + length.toNat) ↔
    size = 0 ∨ offset.toNat + size.toNat ≤ length.toNat := by
  have first : (base + offset).toNat = base.toNat + offset.toNat := by
    rw [BitVec.toNat_add, Nat.mod_eq_of_lt]
    have := BitVec.lt_def.mp below
    omega
  rw [first]
  constructor
  · intro inside
    by_cases none : size = 0
    · exact .inl none
    · have some : 0 < size.toNat := Nat.pos_of_ne_zero fun zero => none (BitVec.eq_of_toNat_eq zero)
      have last := inside (base.toNat + offset.toNat + (size.toNat - 1)) (by omega) (by omega)
      exact .inr (by omega)
  · rintro (rfl | ends) address low high
    · have none : (0 : U32).toNat = 0 := rfl
      omega
    · omega

private theorem accepted_facts {cmd : Cmd} (read : cmd = .readApp ∨ cmd = .readEeStage3)
    {byte : Nat → U8} (accepted : ReadAccepted config world.flash cmd byte) :
    (readRange cmd byte).1 < (readObject config world.flash cmd byte).2 ∧
      (cmd = .readApp → (byte 0).setWidth 32 < appsPartitionEntriesCount world.flash) := by
  rcases read with rfl | rfl
  · simp only [ReadAccepted, readAppArgs, decide_eq_true_eq] at accepted
    exact ⟨accepted.2.1.2, fun _ => accepted.2.2.2.1.2⟩
  · simp only [ReadAccepted, stage3Args] at accepted
    exact ⟨accepted.1.2, Cmd.noConfusion⟩

private theorem read_result {cmd : Cmd} (read : cmd = .readApp ∨ cmd = .readEeStage3) (args : List U8) :
    let byte (index : Nat) : U8 := args.getD index 0
    (¬ ReadAccepted config world.flash cmd byte → Refused world (execute config (cmd, args) world)) ∧
    (ReadAccepted config world.flash cmd byte → ∃ crc, execute config (cmd, args) world =
      (world, [.startDataWithStatusCode modchipCmdResultOk
        (.xip ((readObject config world.flash cmd byte).1 + (readRange cmd byte).1))
        (readRange cmd byte).2 crc])) := by
  rcases read with rfl | rfl
  · refine ⟨readApp_refused_iff.mpr, fun accepted => ⟨_, if_pos accepted⟩⟩
  · refine ⟨stage3_refused_iff.mpr, fun accepted => ⟨_, if_pos accepted⟩⟩

/-- A read frame delivered to an idle parser is either refused or answered
with bytes of the object it names, exactly when the size of an accepted frame
ends inside the object. -/
theorem reads_inside_iff (config : Config) {start : FirmwareState} (idle : start.writeHandler = .idle)
    (valid : AppsPartitionValid start.world.flash)
    (linked : config.loaderEeStage3.toNat + config.loaderEeStage3Size.toNat ≤ 2 ^ 32)
    {cmd : Cmd} (read : cmd = .readApp ∨ cmd = .readEeStage3)
    {args : List U8} (length : args.length = argLength cmd) :
    let byte (index : Nat) : U8 := args.getD index 0
    let result := ((machine config).run start (cmd.opcode ++ args))
    (Refused start.world (result.1.world, result.2) ∨
      ∃ a n crc, ReadsInside config start.world cmd byte a n crc (result.1.world, result.2)) ↔
    (ReadAccepted config start.world.flash cmd byte →
      (readRange cmd byte).2 = 0 ∨ (readRange cmd byte).1.toNat + (readRange cmd byte).2.toNat ≤
        (readObject config start.world.flash cmd byte).2.toNat) := by
  intro byte result
  obtain ⟨_, world, events⟩ := run_frame config idle length
  have whole : (result.1.world, result.2) = execute config (cmd, args) start.world := by
    rw [← Prod.eta (execute config (cmd, args) start.world), ← world, ← events]
  rw [whole]
  obtain ⟨refused, answered⟩ := read_result read args
  by_cases accepted : ReadAccepted config start.world.flash cmd byte
  · obtain ⟨crc, started⟩ := answered accepted
    obtain ⟨below, index⟩ := accepted_facts read accepted
    have fits : (readObject config start.world.flash cmd byte).1.toNat +
        (readObject config start.world.flash cmd byte).2.toNat ≤ 2 ^ 32 := by
      rcases read with rfl | rfl
      · exact valid _ (index rfl)
      · exact linked
    rw [started]
    constructor
    · rintro (error | ⟨a, n, crc', reads⟩) _
      · cases error.answer
      · have same := reads.answer
        simp only [Prod.mk.injEq, List.cons.injEq, Event.startDataWithStatusCode.injEq,
          DataRef.xip.injEq, true_and, and_true] at same
        obtain ⟨rfl, rfl, rfl⟩ := same
        exact (range_iff fits below).mp reads.inside
    · intro ends
      exact .inr ⟨_, _, crc, rfl, index, (range_iff fits below).mpr (ends accepted)⟩
  · constructor
    · intro _ other
      exact absurd other accepted
    · intro _
      exact .inl (refused accepted)

def overrunConfig : Config :=
  { (default : Config) with loaderEeStage3 := 0x10020000, loaderEeStage3Size := 16 }

def overrunArgs : List U8 :=
  bytes32 8 ++ bytes32 0xFFFFFFF7 ++ bytes32 16 ++ bytes32 0xFFFFFFEF ++ [0x00, 0xFF]

def overrunStart : FirmwareState := .powerUp (fun _ => 0) ⟨.defaults, WearLeveling.clearCache⟩

private theorem overrun_partition : AppsPartitionValid overrunStart.world.flash := by
  intro idx below
  have none : appsPartitionEntriesCount overrunStart.world.flash = 0 := rfl
  rw [none] at below
  exact absurd (BitVec.lt_def.mp below) (Nat.not_lt_zero _)

theorem reads_inside_overrun :
    let byte (index : Nat) : U8 := overrunArgs.getD index 0
    let result := ((machine overrunConfig).run overrunStart (Cmd.opcode .readEeStage3 ++ overrunArgs))
    (Refused overrunStart.world (result.1.world, result.2) ∨
      ∃ a n crc, ReadsInside overrunConfig overrunStart.world .readEeStage3 byte a n crc
        (result.1.world, result.2)) ↔
    (ReadAccepted overrunConfig overrunStart.world.flash .readEeStage3 byte →
      (readRange .readEeStage3 byte).2 = 0 ∨
        (readRange .readEeStage3 byte).1.toNat + (readRange .readEeStage3 byte).2.toNat ≤
          (readObject overrunConfig overrunStart.world.flash .readEeStage3 byte).2.toNat) :=
  reads_inside_iff overrunConfig rfl overrun_partition (by decide) (.inr rfl) rfl

/-- Half of the data that goes out lies behind the image. -/
theorem overrun_leaves_object :
    let byte (index : Nat) : U8 := overrunArgs.getD index 0
    let result := ((machine overrunConfig).run overrunStart (Cmd.opcode .readEeStage3 ++ overrunArgs))
    AppsPartitionValid overrunStart.world.flash ∧
      ¬ (Refused overrunStart.world (result.1.world, result.2) ∨
        ∃ a n crc, ReadsInside overrunConfig overrunStart.world .readEeStage3 byte a n crc
          (result.1.world, result.2)) := by
  intro byte result
  refine ⟨overrun_partition, ?_⟩
  rintro (refused | ⟨a, n, crc, reads⟩)
  · have answer : [modchipCmdResultOk] = [modchipCmdResultErr] := refused.answer
    exact absurd answer (by decide)
  · have same : [Event.startDataWithStatusCode modchipCmdResultOk (.xip 0x10020008) 16 false] =
        [.startDataWithStatusCode modchipCmdResultOk (.xip a) n crc] := congrArg Prod.snd reads.answer
    simp only [List.cons.injEq, Event.startDataWithStatusCode.injEq, DataRef.xip.injEq, true_and,
      and_true] at same
    obtain ⟨rfl, rfl, rfl⟩ := same
    have last := reads.inside 0x10020010 (by decide) (by decide)
    exact absurd last.2 (by decide)

end Fruitchip.Firmware
