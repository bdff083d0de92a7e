import Fruitchip.Bootloader
import Fruitchip.Library.PowerCuts

/-! Power that is lost in the middle of flash operations. The SDK functions erase
sector by sector and program page by page. -/

namespace Fruitchip
open Embedded

namespace FlashOp

/-- The commands that the flash chip gets one after the other. -/
def pieces : FlashOp → List FlashOp
  | .rangeErase offset count =>
    (List.range (count / flashSectorSize)).map fun sector => .rangeErase (offset + flashSectorSize * sector) flashSectorSize
  | .rangeProgram offset data => Bootloader.flashRangeProgram offset data
  | .pageProgram address data => [.pageProgram address data]

/-- The operation is about whole sectors or pages. -/
def Whole : FlashOp → Prop
  | .rangeErase _ count => count % flashSectorSize = 0
  | .rangeProgram _ data => data.length % flashPageSize = 0
  | .pageProgram _ _ => True

theorem erase_add (flash : Flash) (offset first rest : Nat) :
    flash.erase offset (first + rest) = (flash.erase offset first).erase (offset + first) rest := by
  funext address
  rcases Nat.lt_or_ge address (offset + first) with early | late
  · rw [Flash.erase_outside (.inl early)]
    rcases Nat.lt_or_ge address offset with before | low
    · rw [Flash.erase_outside (.inl before), Flash.erase_outside (.inl before)]
    · rw [Flash.erase_inside low (by omega), Flash.erase_inside low early]
  · rcases Nat.lt_or_ge address (offset + (first + rest)) with inside | after
    · rw [Flash.erase_inside (by omega) inside, Flash.erase_inside late (by omega)]
    · rw [Flash.erase_outside (.inr after), Flash.erase_outside (.inr (by omega)), Flash.erase_outside (.inr (by omega))]

theorem applyAll_sectors (flash : Flash) (offset sectors : Nat) :
    applyAll ((List.range sectors).map fun sector => .rangeErase (offset + flashSectorSize * sector) flashSectorSize) flash =
      flash.erase offset (flashSectorSize * sectors) := by
  induction sectors with
  | zero =>
    funext address
    exact (Flash.erase_outside (by omega)).symm
  | succ sectors ih =>
    rw [List.range_succ, List.map_append, applyAll_append, ih, Nat.mul_succ, erase_add]
    rfl

theorem applyAll_pages (flash : Flash) (offset : Nat) {data : List U8} {pages : Nat}
    (enough : flashPageSize * pages ≤ data.length) :
    applyAll ((List.range pages).map fun page => FlashOp.pageProgram (offset + flashPageSize * page)
        ((data.drop (flashPageSize * page)).take flashPageSize)) flash =
      flash.program offset (data.take (flashPageSize * pages)) := by
  induction pages with
  | zero =>
    rw [Nat.mul_zero, List.take_zero, Flash.program_nil]
    rfl
  | succ pages ih =>
    have fits : flashPageSize * pages ≤ data.length := Nat.le_trans (Nat.mul_le_mul_left _ (Nat.le_succ _)) enough
    have length : (data.take (flashPageSize * pages)).length = flashPageSize * pages := List.length_take_of_le fits
    rw [List.range_succ, List.map_append, applyAll_append, ih fits, Nat.mul_succ, List.take_add, Flash.program_append,
      length]
    rfl

theorem pieces_apply {op : FlashOp} (whole : op.Whole) (flash : Flash) : applyAll op.pieces flash = op.apply flash := by
  cases op with
  | rangeErase offset count =>
    have sectors : flashSectorSize * (count / flashSectorSize) = count := Nat.mul_div_cancel' (Nat.dvd_of_mod_eq_zero whole)
    rw [pieces, applyAll_sectors, sectors]
    rfl
  | rangeProgram offset data =>
    have pages : flashPageSize * (data.length / flashPageSize) = data.length :=
      Nat.mul_div_cancel' (Nat.dvd_of_mod_eq_zero whole)
    rw [pieces, Bootloader.flashRangeProgram, applyAll_pages flash offset (Nat.le_of_eq pages), pages, List.take_length]
    rfl
  | pageProgram address data => rfl

theorem pieces_covers {op piece : FlashOp} (member : piece ∈ op.pieces) {address : Nat} (covered : piece.covers address) :
    op.covers address := by
  cases op with
  | rangeErase offset count =>
    obtain ⟨sector, index, rfl⟩ := List.mem_map.mp member
    have below := List.mem_range.mp index
    have inside : flashSectorSize * (sector + 1) ≤ count :=
      Nat.le_trans (Nat.mul_le_mul_left _ below) (Nat.mul_div_le count flashSectorSize)
    rw [Nat.mul_succ] at inside
    simp only [covers] at covered ⊢
    omega
  | rangeProgram offset data =>
    obtain ⟨page, _, rfl⟩ := List.mem_map.mp member
    simp only [covers, List.length_take, List.length_drop] at covered ⊢
    omega
  | pageProgram other data =>
    obtain rfl := List.mem_singleton.mp member
    exact covered

end FlashOp

/-- What is left when power is lost after a number of commands to the flash chip. -/
def interrupt (ops : List FlashOp) (steps : Nat) (flash : Flash) : Flash :=
  applyAll ((ops.flatMap FlashOp.pieces).take steps) flash

/-- Whenever power is lost, `holds` of the commands so far and of the flash. -/
def CutAnywhere (ops : List FlashOp) (holds : List FlashOp → Flash → Prop) (flash : Flash) : Prop :=
  Cuts (fun flash op => op.apply flash) (ops.flatMap FlashOp.pieces) holds flash

variable {ops first rest : List FlashOp} {holds : List FlashOp → Flash → Prop} {flash : Flash} {op : FlashOp}

theorem applyAll_pieces (whole : ∀ op ∈ ops, op.Whole) (flash : Flash) :
    applyAll (ops.flatMap FlashOp.pieces) flash = applyAll ops flash := by
  induction ops generalizing flash with
  | nil => rfl
  | cons op ops ih =>
    rw [List.flatMap_cons, applyAll_append, FlashOp.pieces_apply (whole op List.mem_cons_self),
      ih fun other member => whole other (List.mem_cons_of_mem _ member)]
    rfl

theorem CutAnywhere.interrupted (cut : CutAnywhere ops holds flash) (steps : Nat) :
    holds ((ops.flatMap FlashOp.pieces).take steps) (interrupt ops steps flash) := Cuts.after cut steps

theorem cutAnywhere_nil : CutAnywhere [] holds flash ↔ holds [] flash := cuts_nil

theorem cutAnywhere_append (whole : ∀ op ∈ first, op.Whole) :
    CutAnywhere (first ++ rest) holds flash ↔
      CutAnywhere first holds flash ∧
        CutAnywhere rest (fun performed => holds (first.flatMap FlashOp.pieces ++ performed)) (applyAll first flash) := by
  have after := applyAll_pieces whole flash
  rw [CutAnywhere, List.flatMap_append, cuts_append]
  rw [applyAll] at after
  rw [after]
  rfl

/-- A cut row of operations changes nothing but what the operations cover. -/
theorem cutAnywhere_outside {region : Nat → Prop} (outside : ∀ op ∈ ops, ∀ address, region address → ¬ op.covers address) :
    CutAnywhere ops (fun _ after => ∀ address, region address → after address = flash address) flash := by
  refine @cuts_of_kept _ _ _ _ _ (fun after : Flash => ∀ address, region address → after address = flash address)
    (fun _ _ => rfl) ?_
  intro piece member state same address inside
  obtain ⟨op, issued, part⟩ := List.mem_flatMap.mp member
  rw [FlashOp.apply_outside fun covered => outside op issued address inside (FlashOp.pieces_covers part covered),
    same address inside]

theorem interrupt_outside {region : Nat → Prop} (outside : ∀ op ∈ ops, ∀ address, region address → ¬ op.covers address)
    (steps : Nat) {address : Nat} (inside : region address) : interrupt ops steps flash address = flash address :=
  (@cutAnywhere_outside ops flash region outside).interrupted steps address inside

end Fruitchip
