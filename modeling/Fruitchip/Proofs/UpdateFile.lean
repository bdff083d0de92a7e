import Fruitchip.Menu.Checking
import Fruitchip.Proofs.SceneStack

/-! Which update files are let through. The blocks are well formed and follow
one another, but nothing says where the first of them belongs, or that there is
one. -/

namespace Fruitchip.Menu
open Embedded Client Firmware

variable {config : Config} {info : BinaryInfo} {updateType : UpdateType} {inputs : CheckingInputs}
  {file : UpdateFile} {malloc : Nat → U8} {copy next : Copy}

/-- The address of the partition that the firmware runs from or reads. -/
def UpdateType.baseAddress : UpdateType → Nat
  | .fw => 0x10000000 + fwPartitionOffset
  | .apps => 0x10000000 + appsPartitionOffset

def UpdateFile.blocks (file : UpdateFile) : Nat := file.bytes.length / uf2BlockSize

/-- A block that the menu can use. -/
structure Uf2Block.WellFormed (block : Uf2Block) : Prop where
  start0 : block.magicStart0 = uf2MagicStart0
  start1 : block.magicStart1 = uf2MagicStart1
  finish : block.magicEnd = uf2MagicEnd
  payload : block.payloadSize = 256
  family : block.flags &&& uf2FlagFamilyIdPresent ≠ 0 → block.fileSize = uf2FamilyIdRp2040

/-- An image that is the contents of its file, block by block. -/
structure Uf2Accepted (updateType : UpdateType) (file : UpdateFile) (malloc : Nat → U8) (update : Update) : Prop where
  whole : file.bytes.length % uf2BlockSize = 0
  some : 0 < file.blocks
  wellFormed : ∀ index < file.blocks, (file.block index).WellFormed
  target : ∀ index < file.blocks,
    (file.block index).targetAddr.toNat = updateType.baseAddress + 256 * index
  size : update.size.toNat = 256 * file.blocks
  image : ∀ index < file.blocks, ∀ offset < 256,
    update.byte (256 * index + offset) = (file.block index).data.getD offset 0
  buffer : ∀ position, file.size.toNat / 2 ≤ position → update.byte position = malloc position

theorem store_inside {memory : Nat → U8} {offset index : Nat} {src : List U8} (inside : index < src.length) :
    store memory offset src (offset + index) = src.getD index 0 := by
  unfold store
  rw [if_pos ⟨Nat.le_add_right offset index, Nat.add_lt_add_left inside offset⟩, Nat.add_sub_cancel_left]

theorem store_outside {memory : Nat → U8} {offset position : Nat} {src : List U8}
    (outside : position < offset ∨ offset + src.length ≤ position) : store memory offset src position = memory position := by
  unfold store
  rw [if_neg]
  omega

/-- What the loop knows after a number of blocks. -/
structure Copied (file : UpdateFile) (malloc : Nat → U8) (blocks : Nat) (copy : Copy) : Prop where
  size : copy.updateSize.toNat = 256 * blocks
  wellFormed : ∀ index < blocks, (file.block index).WellFormed
  last : copy.lastBlockAddr = if blocks = 0 then 0 else (file.block (blocks - 1)).targetAddr
  linear : ∀ index, index + 1 < blocks → (file.block index).targetAddr ≠ 0 →
    (file.block (index + 1)).targetAddr = (file.block index).targetAddr + 256
  image : ∀ index < blocks, ∀ offset < 256,
    copy.memory (256 * index + offset) = (file.block index).data.getD offset 0
  behind : ∀ position, 256 * blocks ≤ position → copy.memory position = malloc position

theorem copyBlock_ok {index : Nat} (done : copyBlock file index copy = .ok next) :
    (file.block index).WellFormed ∧
      (copy.lastBlockAddr ≠ 0 → (file.block index).targetAddr = copy.lastBlockAddr + 256) ∧
      next = ⟨store copy.memory copy.updateSize.toNat ((file.block index).data.take 256), copy.updateSize + 256,
        (file.block index).targetAddr⟩ := by
  simp only [copyBlock] at done
  split at done
  · cases done
  split at done
  · cases done
  next magic =>
  split at done
  · cases done
  next family =>
  split at done
  · cases done
  next payload =>
  split at done
  · cases done
  next linear =>
  obtain ⟨start0, start1, finish⟩ := Decidable.not_not.mp magic
  have size : (file.block index).payloadSize = 256 := (Decidable.not_not.mp payload).symm
  refine ⟨⟨start0, start1, finish, size, ?_⟩, ?_, ?_⟩
  · intro present
    apply Decidable.not_not.mp
    intro other
    exact family ⟨present, other⟩
  · intro some
    apply Decidable.not_not.mp
    intro other
    exact linear ⟨some, fun same => other same.symm⟩
  · cases done
    rw [size]
    rfl

theorem block_data {index : Nat} (inside : 512 * (index + 1) ≤ file.bytes.length) :
    (file.block index).data.length = 476 := by
  have size : uf2BlockSize = 512 := rfl
  simp only [UpdateFile.block, Uf2Block.ofBytes, List.length_take, List.length_drop, size]
  omega

theorem Copied.step {blocks : Nat} (copied : Copied file malloc blocks copy)
    (inside : 512 * (blocks + 1) ≤ file.bytes.length) (small : 256 * (blocks + 1) < 2 ^ 32)
    (done : copyBlock file blocks copy = .ok next) : Copied file malloc (blocks + 1) next := by
  obtain ⟨wellFormed, linear, rfl⟩ := copyBlock_ok done
  have data := block_data inside
  have length : ((file.block blocks).data.take 256).length = 256 := by
    rw [List.length_take, data]
    rfl
  have size := copied.size
  constructor
  · show (copy.updateSize + 256).toNat = 256 * (blocks + 1)
    rw [BitVec.toNat_add, show (256 : U32).toNat = 256 from rfl]
    omega
  · intro index before
    rcases Nat.lt_or_eq_of_le (Nat.le_of_lt_succ before) with earlier | rfl
    · exact copied.wellFormed index earlier
    · exact wellFormed
  · rw [if_neg (Nat.succ_ne_zero blocks), Nat.add_sub_cancel]
  · intro index before some
    rcases Nat.lt_or_eq_of_le (Nat.le_of_lt_succ before) with earlier | last
    · exact copied.linear index earlier some
    · have previous := copied.last
      rw [if_neg (by omega), ← last, Nat.add_sub_cancel] at previous
      rw [previous] at linear
      rw [last]
      exact linear some
  · intro index before offset within
    show store _ _ _ _ = _
    rcases Nat.lt_or_eq_of_le (Nat.le_of_lt_succ before) with earlier | rfl
    · rw [store_outside (.inl (by omega))]
      exact copied.image index earlier offset within
    · rw [← size, store_inside (by omega)]
      simp only [List.getD_eq_getElem?_getD, List.getElem?_take, within, ite_true]
  · intro position after
    show store _ _ _ _ = _
    rw [store_outside (.inr (by omega))]
    exact copied.behind position (by omega)

theorem Copied.run {count blocks : Nat} (copied : Copied file malloc blocks copy)
    (inside : 512 * (blocks + count) ≤ file.bytes.length) (small : 256 * (blocks + count) < 2 ^ 32)
    (done : copyBlocks file count blocks copy = .ok next) : Copied file malloc (blocks + count) next := by
  induction count generalizing blocks copy with
  | zero =>
    cases done
    exact copied
  | succ count ih =>
    cases first : copyBlock file blocks copy with
    | error error =>
      rw [copyBlocks, first] at done
      cases done
    | ok middle =>
      rw [copyBlocks, first] at done
      have stepped := copied.step (by omega) (by omega) first
      have finished := ih stepped (by omega) (by omega) done
      rwa [Nat.add_assoc, Nat.add_comm 1 count] at finished

theorem UpdateFile.size_toNat (file : UpdateFile) : file.size.toNat = file.bytes.length % 2 ^ 32 :=
  BitVec.toNat_ofNat file.bytes.length 32

theorem readUpdate_ok (done : readUpdate file malloc = .ok copy) :
    file.size.toNat % 512 = 0 ∧ Copied file malloc (file.size.toNat / 512) copy := by
  have block : uf2BlockSize = 512 := rfl
  have known := file.size_toNat
  have bound := file.size.isLt
  simp only [readUpdate] at done
  split at done
  · cases done
  next whole =>
  have aligned : file.size.toNat % 512 = 0 := by
    have zero := congrArg BitVec.toNat (Decidable.not_not.mp whole)
    rw [BitVec.toNat_umod] at zero
    exact zero
  have start : Copied file malloc 0 ⟨malloc, 0, 0⟩ :=
    ⟨rfl, nofun, rfl, nofun, nofun, fun _ _ => rfl⟩
  have looped : copyBlocks file (file.size.toNat / 512) 0 ⟨malloc, 0, 0⟩ = .ok copy := done
  have finished := start.run (by omega) (by omega) looped
  rw [Nat.zero_add] at finished
  exact ⟨aligned, finished⟩

theorem checking_ok {update : Update}
    (passed : sceneTickHandlerUpdateChecking config info updateType inputs = some (.ok update)) :
    ∃ file copy, inputs.file = some file ∧ readUpdate file inputs.malloc = .ok copy ∧
      checkSpace config updateType copy.updateSize inputs = .ok () ∧
      (updateType = .fw → checkPins info copy.memory inputs = some (.ok ())) ∧
      update = ⟨copy.memory, copy.updateSize⟩ := by
  unfold sceneTickHandlerUpdateChecking at passed
  split at passed
  · cases passed
  next file opened =>
  split at passed
  · cases passed
  next copy read =>
  split at passed
  · cases passed
  next space =>
  obtain ⟨pins, checked, handed⟩ := Option.map_eq_some_iff.mp passed
  cases pins with
  | error error => cases handed
  | ok _ =>
    cases handed
    refine ⟨file, copy, opened, read, space, ?_, rfl⟩
    intro firmware
    rwa [if_pos firmware] at checked

/-- The menu goes on to the writing scene with the images that are let through. -/
theorem checking_hands_over {menu next : Program} {running : List Scene} {outcomes : Outcomes}
    {result : Except CheckingError Update}
    (found : sceneTickHandlerUpdateChecking config info updateType inputs = some result)
    (outcome : outcomes.checking = result.map fun _ => ())
    (handled : menu.sceneTickHandlerUpdateChecking running outcomes = some next) :
    next.scenes.head? = some .updateWriting ↔
      ∃ update, sceneTickHandlerUpdateChecking config info updateType inputs = some (.ok update) := by
  rw [Program.checking_switches handled, outcome, found]
  cases result with
  | error error =>
    constructor
    · intro passed
      cases passed
    · rintro ⟨update, passed⟩
      cases passed
  | ok update => exact iff_of_true rfl ⟨update, rfl⟩

theorem baseAddress_bounds (updateType : UpdateType) :
    0 < updateType.baseAddress ∧ updateType.baseAddress + 2 ^ 31 < 2 ^ 32 := by
  cases updateType <;> decide

theorem Copied.targets {blocks base : Nat} (copied : Copied file malloc blocks copy) (positive : 0 < base)
    (room : base + 256 * blocks < 2 ^ 32) (first : (file.block 0).targetAddr.toNat = base) {index : Nat}
    (before : index < blocks) : (file.block index).targetAddr.toNat = base + 256 * index := by
  induction index with
  | zero => exact first
  | succ index ih =>
    have previous := ih (by omega)
    have some : (file.block index).targetAddr ≠ 0 := by
      intro none
      rw [none] at previous
      have zero : (0 : U32).toNat = 0 := rfl
      omega
    rw [copied.linear index before some, BitVec.toNat_add, previous, show (256 : U32).toNat = 256 from rfl]
    omega

/-- A file that is let through is what it should be exactly when it is not
empty, its size fits a `u32` and its first block belongs at the start of the
partition. -/
theorem uf2_accepted_iff (config : Config) (info : BinaryInfo) (updateType : UpdateType) (inputs : CheckingInputs)
    {file : UpdateFile} {update : Update} (opened : inputs.file = some file)
    (passed : sceneTickHandlerUpdateChecking config info updateType inputs = some (.ok update)) :
    Uf2Accepted updateType file inputs.malloc update ↔
      0 < file.bytes.length ∧ file.bytes.length < 2 ^ 32 ∧
        (file.block 0).targetAddr.toNat = updateType.baseAddress := by
  obtain ⟨other, copy, again, read, _, _, rfl⟩ := checking_ok passed
  obtain rfl : file = other := Option.some.inj (opened.symm.trans again)
  obtain ⟨whole, copied⟩ := readUpdate_ok read
  have block : uf2BlockSize = 512 := rfl
  have known := file.size_toNat
  have counted : file.blocks = file.bytes.length / 512 := rfl
  constructor
  · intro accepted
    have same : 256 * (file.size.toNat / 512) = 256 * file.blocks := copied.size.symm.trans accepted.size
    have some := accepted.some
    have aligned := accepted.whole
    refine ⟨by omega, by omega, ?_⟩
    exact accepted.target 0 some
  · rintro ⟨some, short, first⟩
    have size : file.size.toNat = file.bytes.length := by
      rw [known]
      exact Nat.mod_eq_of_lt short
    rw [size] at whole copied
    obtain ⟨positive, room⟩ := baseAddress_bounds updateType
    refine ⟨whole, by omega, copied.wellFormed, ?_, copied.size, copied.image, ?_⟩
    · intro index before
      exact copied.targets positive (by omega) first before
    · intro position after
      apply copied.behind
      rw [size] at after
      omega

def uf2Block (targetAddr : U32) (page : List U8) : List U8 :=
  bytes32 uf2MagicStart0 ++ (bytes32 uf2MagicStart1 ++ (bytes32 0 ++ (bytes32 targetAddr ++
    (bytes32 256 ++ (bytes32 0 ++ (bytes32 1 ++ (bytes32 0 ++ (page ++ (List.replicate 220 0 ++
      bytes32 uf2MagicEnd)))))))))

def uf2File (base : U32) : List (List U8) → List U8
  | [] => []
  | page :: rest => uf2Block base page ++ uf2File (base + 256) rest

theorem uf2Block_length (targetAddr : U32) {page : List U8} (whole : page.length = 256) :
    (uf2Block targetAddr page).length = 512 := by
  simp only [uf2Block, List.length_append, bytes32_length, whole, List.length_replicate]

theorem uf2File_length (base : U32) {pages : List (List U8)} (whole : ∀ page ∈ pages, page.length = 256) :
    (uf2File base pages).length = 512 * pages.length := by
  induction pages generalizing base with
  | nil => rfl
  | cons page rest ih =>
    obtain ⟨first, others⟩ := List.forall_mem_cons.mp whole
    rw [uf2File, List.length_append, uf2Block_length base first, ih _ others, List.length_cons]
    omega

theorem ofBytes_uf2Block (targetAddr : U32) {page : List U8} (whole : page.length = 256) :
    Uf2Block.ofBytes (uf2Block targetAddr page) =
      ⟨uf2MagicStart0, uf2MagicStart1, 0, targetAddr, 256, 0, page ++ List.replicate 220 0, uf2MagicEnd⟩ := by
  have header : (uf2Block targetAddr page).drop 32 = page ++ (List.replicate 220 0 ++ bytes32 uf2MagicEnd) := rfl
  have data : ((uf2Block targetAddr page).drop 32).take 476 = page ++ List.replicate 220 0 := by
    rw [header, ← List.append_assoc]
    apply List.take_left'
    rw [List.length_append, whole, List.length_replicate]
  have last : wordOf (uf2Block targetAddr page) 508 = uf2MagicEnd := by
    simp only [uf2Block, wordOf_next _ _ 504, wordOf_next _ _ 500, wordOf_next _ _ 496, wordOf_next _ _ 492,
      wordOf_next _ _ 488, wordOf_next _ _ 484, wordOf_next _ _ 480, wordOf_next _ _ 476]
    rw [wordOf_append (by omega), whole, wordOf_append (Nat.le_of_eq List.length_replicate), List.length_replicate]
    exact wordOf_bytes32 uf2MagicEnd []
  rw [Uf2Block.ofBytes, data, last]
  simp only [uf2Block, wordOf_next _ _ 0, wordOf_next _ _ 4, wordOf_next _ _ 8, wordOf_next _ _ 12, wordOf_next _ _ 16,
    wordOf_next _ _ 24, wordOf_next _ _ 20, wordOf_bytes32]

theorem store_append (memory : Nat → U8) (offset : Nat) (front rest : List U8) :
    store (store memory offset front) (offset + front.length) rest = store memory offset (front ++ rest) := by
  have length : (front ++ rest).length = front.length + rest.length := List.length_append
  funext position
  rcases Nat.lt_or_ge position (offset + front.length) with early | late
  · rw [store_outside (.inl early)]
    rcases Nat.lt_or_ge position offset with before | after
    · rw [store_outside (.inl before), store_outside (.inl before)]
    · obtain ⟨index, rfl⟩ := Nat.exists_eq_add_of_le after
      have inside := Nat.lt_of_add_lt_add_left early
      rw [store_inside inside, store_inside (by omega)]
      simp only [List.getD_eq_getElem?_getD]
      rw [List.getElem?_append_left inside]
  · obtain ⟨index, rfl⟩ := Nat.exists_eq_add_of_le late
    rcases Nat.lt_or_ge index rest.length with inside | behind
    · rw [store_inside inside, Nat.add_assoc, store_inside (by omega)]
      simp only [List.getD_eq_getElem?_getD]
      rw [List.getElem?_append_right (Nat.le_add_right _ index), Nat.add_sub_cancel_left]
    · rw [store_outside (.inr (by omega)), store_outside (.inr (by omega)), store_outside (.inr (by omega))]

theorem copyBlock_uf2Block {index : Nat} {targetAddr : U32} {page : List U8} (whole : page.length = 256)
    (delivered : file.reads index = true) (place : file.block index = .ofBytes (uf2Block targetAddr page))
    (follows : copy.lastBlockAddr = 0 ∨ copy.lastBlockAddr + 256 = targetAddr) :
    copyBlock file index copy =
      .ok ⟨store copy.memory copy.updateSize.toNat page, copy.updateSize + 256, targetAddr⟩ := by
  have linear : ¬ (copy.lastBlockAddr ≠ 0 ∧ copy.lastBlockAddr + blockSize ≠ targetAddr) := by
    rintro ⟨some, other⟩
    rcases follows with none | same
    · exact some none
    · exact other same
  have page256 : (page ++ List.replicate 220 (0 : U8)).take (256 : U32).toNat = page := by
    apply List.take_left'
    exact whole
  simp only [copyBlock, place, ofBytes_uf2Block targetAddr whole, page256]
  rw [if_neg (not_not.mpr delivered), if_neg (by decide), if_neg (by decide), if_neg (by decide), if_neg linear]

theorem copyBlocks_uf2File {index : Nat} {base : U32} {pages : List (List U8)}
    (whole : ∀ page ∈ pages, page.length = 256) (delivered : ∀ index, file.reads index = true)
    (place : file.bytes.drop (512 * index) = uf2File base pages)
    (follows : copy.lastBlockAddr = 0 ∨ copy.lastBlockAddr + 256 = base)
    (small : copy.updateSize.toNat + 256 * pages.length < 2 ^ 32) :
    ∃ last, copyBlocks file pages.length index copy =
      .ok ⟨store copy.memory copy.updateSize.toNat pages.flatten,
        copy.updateSize + BitVec.ofNat 32 (256 * pages.length), last⟩ := by
  induction pages generalizing index base copy with
  | nil =>
    refine ⟨copy.lastBlockAddr, ?_⟩
    have same : store copy.memory copy.updateSize.toNat [] = copy.memory := by
      funext position
      apply store_outside
      exact (Nat.lt_or_ge position _)
    rw [List.length_nil, copyBlocks, List.flatten_nil, same]
    simp
  | cons page rest ih =>
    obtain ⟨first, others⟩ := List.forall_mem_cons.mp whole
    rw [List.length_cons] at small
    have block : file.block index = .ofBytes (uf2Block base page) := by
      show Uf2Block.ofBytes ((file.bytes.drop (512 * index)).take 512) = _
      rw [place, uf2File, List.take_left' (uf2Block_length base first)]
    have behind : file.bytes.drop (512 * (index + 1)) = uf2File (base + 256) rest := by
      rw [Nat.mul_add, ← List.drop_drop, place, uf2File, List.drop_left' (uf2Block_length base first)]
    have size : (copy.updateSize + 256).toNat = copy.updateSize.toNat + page.length := by
      rw [BitVec.toNat_add, show (256 : U32).toNat = 256 from rfl, first]
      omega
    have taken := copyBlock_uf2Block first (delivered index) block follows
    have room : (copy.updateSize + 256).toNat + 256 * rest.length < 2 ^ 32 := by
      rw [size, first]
      omega
    obtain ⟨last, done⟩ := @ih ⟨store copy.memory copy.updateSize.toNat page, copy.updateSize + 256, base⟩
      (index + 1) (base + 256) others behind (.inr rfl) room
    refine ⟨last, ?_⟩
    have sum : copy.updateSize + 256 + BitVec.ofNat 32 (256 * rest.length) =
        copy.updateSize + BitVec.ofNat 32 (256 * (rest.length + 1)) := by
      rw [Nat.mul_add, BitVec.ofNat_add, BitVec.add_assoc, BitVec.add_comm 256]
      rfl
    rw [List.length_cons, copyBlocks, taken]
    apply done.trans
    rw [size, store_append, sum, List.flatten_cons]

theorem readUpdate_uf2File (base : U32) (malloc : Nat → U8) {pages : List (List U8)}
    (whole : ∀ page ∈ pages, page.length = 256) (short : 512 * pages.length < 2 ^ 32) :
    ∃ last, readUpdate ⟨uf2File base pages, fun _ => true⟩ malloc =
      .ok ⟨store malloc 0 pages.flatten, BitVec.ofNat 32 (256 * pages.length), last⟩ := by
  have size : (UpdateFile.size ⟨uf2File base pages, fun _ => true⟩).toNat = 512 * pages.length := by
    rw [UpdateFile.size, uf2File_length base whole, toNat_ofNat_of_lt short]
  have aligned : UpdateFile.size ⟨uf2File base pages, fun _ => true⟩ % BitVec.ofNat 32 uf2BlockSize = 0 := by
    apply BitVec.eq_of_toNat_eq
    rw [BitVec.toNat_umod, size]
    exact Nat.mul_mod_right 512 pages.length
  have blocks : 512 * pages.length / uf2BlockSize = pages.length := Nat.mul_div_cancel_left _ (by decide)
  have empty : (0 : U32).toNat + 256 * pages.length < 2 ^ 32 := by
    rw [show (0 : U32).toNat = 0 from rfl]
    omega
  obtain ⟨last, done⟩ := @copyBlocks_uf2File ⟨uf2File base pages, fun _ => true⟩ ⟨malloc, 0, 0⟩ 0 base pages whole
    (fun _ => rfl) rfl (.inl rfl) empty
  refine ⟨last, ?_⟩
  have sum : (0 : U32) + BitVec.ofNat 32 (256 * pages.length) = BitVec.ofNat 32 (256 * pages.length) :=
    BitVec.zero_add _
  rw [readUpdate, if_neg (not_not.mpr aligned), size, blocks, done]
  show Except.ok (Copy.mk (store malloc 0 pages.flatten) (0 + _) last) = _
  rw [sum]

theorem uf2File_checked (config : Config) (info : BinaryInfo) (updateType : UpdateType) (base : U32)
    {pages : List (List U8)} (whole : ∀ page ∈ pages, page.length = 256) (short : 512 * pages.length < 2 ^ 32)
    (opened : inputs.file = some ⟨uf2File base pages, fun _ => true⟩)
    (space : checkSpace config updateType (BitVec.ofNat 32 (256 * pages.length)) inputs = .ok ())
    (pins : updateType = .fw → checkPins info (store inputs.malloc 0 pages.flatten) inputs = some (.ok ())) :
    sceneTickHandlerUpdateChecking config info updateType inputs =
      some (.ok ⟨store inputs.malloc 0 pages.flatten, BitVec.ofNat 32 (256 * pages.length)⟩) := by
  obtain ⟨last, read⟩ := readUpdate_uf2File base inputs.malloc whole short
  simp only [sceneTickHandlerUpdateChecking, opened, read, space]
  split
  next firmware =>
    rw [pins firmware]
    rfl
  next => rfl

def blankPage : List U8 := List.replicate 256 0

def fileOf (targetAddr : U32) (pages : List (List U8)) : CheckingInputs where
  file := some ⟨uf2File targetAddr pages, fun _ => true⟩
  malloc := fun _ => 0
  fwPartitionSize := 0
  updatePartitionSize := 0
  appsPartitionSize := 0
  sizeQueries := fun _ _ => .ok
  modchipPinConfig := fun _ => 0

def onePage : Update := ⟨store (fun _ => 0) 0 [blankPage].flatten, 256⟩

theorem onePage_passes (info : BinaryInfo) (targetAddr : U32) :
    sceneTickHandlerUpdateChecking default info .apps (fileOf targetAddr [blankPage]) = some (.ok onePage) := by
  apply uf2File_checked default info .apps targetAddr
  · exact List.forall_mem_singleton.mpr List.length_replicate
  · decide
  · rfl
  · rfl
  · nofun

/-- Three pages that differ. -/
def threePages : List (List U8) := [blankPage, List.replicate 256 0x5A, List.replicate 256 0xFF]

def threePagesUpdate : Update := ⟨store (fun _ => 0) 0 threePages.flatten, 768⟩

theorem threePages_pass (info : BinaryInfo) (targetAddr : U32) :
    sceneTickHandlerUpdateChecking default info .apps (fileOf targetAddr threePages) = some (.ok threePagesUpdate) := by
  apply uf2File_checked default info .apps targetAddr
  · intro page member
    simp only [threePages, List.mem_cons, List.not_mem_nil, or_false] at member
    rcases member with rfl | rfl | rfl <;> exact List.length_replicate
  · decide
  · rfl
  · rfl
  · nofun

theorem uf2_accepted_three_blocks :
    Uf2Accepted .apps ⟨uf2File 0x1014e000 threePages, fun _ => true⟩ (fileOf 0x1014e000 threePages).malloc
        threePagesUpdate ↔
      0 < (uf2File 0x1014e000 threePages).length ∧ (uf2File 0x1014e000 threePages).length < 2 ^ 32 ∧
        (UpdateFile.block ⟨uf2File 0x1014e000 threePages, fun _ => true⟩ 0).targetAddr.toNat = UpdateType.apps.baseAddress :=
  uf2_accepted_iff default picoSdk .apps (fileOf 0x1014e000 threePages) rfl (threePages_pass picoSdk 0x1014e000)

/-- A block that belongs to the firmware is let through as an update of the applications. -/
theorem firmware_block_passes :
    sceneTickHandlerUpdateChecking default picoSdk .apps (fileOf 0x10008000 [blankPage]) = some (.ok onePage) ∧
      ¬ Uf2Accepted .apps ⟨uf2File 0x10008000 [blankPage], fun _ => true⟩ (fileOf 0x10008000 [blankPage]).malloc onePage := by
  refine ⟨onePage_passes picoSdk 0x10008000, ?_⟩
  intro accepted
  have target := accepted.target 0 accepted.some
  exact absurd target (by decide)

end Fruitchip.Menu
