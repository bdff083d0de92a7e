import Fruitchip.Firmware.ReadHandlers

/-! What one byte can do to the read handlers. The three handlers that look for
IOPBOOT never touch the counter of the OSDSYS handlers, and give up on 0x7F. -/

namespace Fruitchip.Firmware
open Embedded

def ReadHandler.inOsdsys : ReadHandler → Bool
  | .findOsdsysElf | .findOsdsysSyscallTable => true
  | _ => false

def ReadHandler.inIopboot : ReadHandler → Bool
  | .findIopboot | .findIopboot2 | .findIopboot3 => true
  | _ => false

variable {config : Config} {reader : Reader} {disabled : Bool} {r : U8}

/-- A byte outside of `read/osdsys.c` that does not lead into it. -/
structure StaysOutside (reader next : Reader) : Prop where
  outside : next.readHandler.inOsdsys = false
  counter : next.osdsysCounter = reader.osdsysCounter

private theorem exitIopboot_outside (reader : Reader) : StaysOutside reader reader.exitIopboot := ⟨rfl, rfl⟩

theorem iopboot_pattern_byte : 0x7F ∉ iopbootPattern := by decide

theorem iopbootCase_7f (first last : Nat) : reader.iopbootCase first last 0x7F = false :=
  decide_eq_false fun fits => iopboot_pattern_byte (List.mem_of_getElem? fits.2.2)

theorem findIopboot_outside (handler : reader.readHandler = .findIopboot) :
    StaysOutside reader (handleReadFindIopboot reader r) := by
  simp only [handleReadFindIopboot]
  split
  · split
    · exact ⟨rfl, rfl⟩
    · exact ⟨by rw [Reader.countIopboot, handler]; rfl, rfl⟩
  · exact exitIopboot_outside _

theorem findIopboot2_outside (handler : reader.readHandler = .findIopboot2) :
    StaysOutside reader (handleReadFindIopboot2 reader r).1 := by
  simp only [handleReadFindIopboot2]
  split
  · split
    · exact ⟨rfl, rfl⟩
    · exact ⟨by rw [Reader.countIopboot, handler]; rfl, rfl⟩
  · exact exitIopboot_outside _

theorem findIopboot3_outside (handler : reader.readHandler = .findIopboot3) :
    StaysOutside reader (handleReadFindIopboot3 reader r).1 := by
  simp only [handleReadFindIopboot3]
  split
  · split
    · exact exitIopboot_outside _
    · exact ⟨by rw [Reader.countIopboot, handler]; rfl, rfl⟩
  · exact exitIopboot_outside _

theorem outside_step (config : Config) (outside : reader.readHandler.inOsdsys = false) (disabled : Bool) (r : U8) :
    (handleRead config reader disabled r).2.1 = disabled ∧
      (StaysOutside reader (handleRead config reader disabled r).1 ∨
        reader.readHandler = .idle ∧ r = 0x7F ∧
          (handleRead config reader disabled r).1 = { reader with readHandler := .findOsdsysElf }) := by
  simp only [handleRead]
  split
  next handler =>
    refine ⟨rfl, ?_⟩
    simp only [handleReadIdle]
    split
    next found => exact .inr ⟨handler, found, rfl⟩
    · left
      split
      · exact ⟨rfl, rfl⟩
      · exact ⟨outside, rfl⟩
  next handler => simp [handler, ReadHandler.inOsdsys] at outside
  next handler => simp [handler, ReadHandler.inOsdsys] at outside
  next handler => exact ⟨rfl, .inl (findIopboot_outside handler)⟩
  next handler => exact ⟨rfl, .inl (findIopboot2_outside handler)⟩
  next handler => exact ⟨rfl, .inl (findIopboot3_outside handler)⟩

/-- The search for IOPBOOT swallows 0x7F. -/
theorem iopboot_gives_up (iopboot : reader.readHandler.inIopboot) (disabled : Bool) :
    (handleRead config reader disabled 0x7F).1 = reader.exitIopboot := by
  have miss (first last : Nat) : reader.countIopboot.iopbootCase first last 0x7F = false := iopbootCase_7f first last
  cases handler : reader.readHandler with
  | idle | findOsdsysElf | findOsdsysSyscallTable => simp [handler, ReadHandler.inIopboot] at iopboot
  | findIopboot =>
    simp only [handleRead, handler, handleReadFindIopboot, miss, Bool.false_eq_true, ite_false]
    rfl
  | findIopboot2 =>
    simp only [handleRead, handler, handleReadFindIopboot2, miss, Bool.false_eq_true, ite_false]
    rfl
  | findIopboot3 =>
    simp only [handleRead, handler, handleReadFindIopboot3, miss, Bool.false_eq_true, ite_false]
    rfl

def osdsysHeader : List U8 :=
  [0x7F, 0x45, 0x4C, 0x46] ++ List.replicate 20 0x00 ++ [0x08, 0x00, 0x10, 0x00] ++ List.replicate 20 0x00 ++
    [0x08, 0x00, 0x07, 0x00]

/-- The case of the switch that compares the next byte fails. -/
def Reader.Mismatches (reader : Reader) (r : U8) : Prop :=
  ∃ expected, osdsysElfCase (reader.osdsysCounter + 1) = some expected ∧ expected ≠ r

theorem any_ne_iff (expected : Option U8) (r : U8) :
    expected.any (· ≠ r) = true ↔ ∃ byte, expected = some byte ∧ byte ≠ r := by
  cases expected <;> simp

theorem elf_cases (reader : Reader) (r : U8) :
    (handleReadFindOsdsysElf reader r = { reader with osdsysCounter := 0 } ∧
        (reader.Mismatches r ∨ r = 0x7F ∨ 51 < reader.osdsysCounter + 1)) ∨
      (handleReadFindOsdsysElf reader r = { reader with osdsysCounter := 0, readHandler := .findOsdsysSyscallTable } ∧
        reader.osdsysCounter + 1 = 51 ∧ ¬ reader.Mismatches r) ∨
      (handleReadFindOsdsysElf reader r = { reader with osdsysCounter := reader.osdsysCounter + 1 } ∧
        reader.osdsysCounter + 1 < 51 ∧ ¬ reader.Mismatches r ∧ r ≠ 0x7F) := by
  simp only [handleReadFindOsdsysElf, any_ne_iff]
  split
  next mismatch => exact .inl ⟨rfl, .inl mismatch⟩
  next fits =>
    split
    next last => exact .inr (.inl ⟨rfl, last, fits⟩)
    next more =>
      split
      next again => exact .inl ⟨rfl, .inr again⟩
      next other => exact .inr (.inr ⟨rfl, by omega, fits, fun same => other (.inl same)⟩)

end Fruitchip.Firmware
