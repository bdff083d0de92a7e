import Fruitchip.Loader
import Fruitchip.Proofs.Session
import Mathlib.Data.List.GetD

/-! Stage 3 over a lossless bus. The loader asks for the bytes of every segment,
also where there are none, and the firmware refuses an offset at the end of the
image. -/

namespace Fruitchip.Loader
open Embedded Client Firmware

variable {config : Config} {flash : Flash} {frame : Frame} {i : Nat} {offset size dst : U32}

theorem covers_offset (base : U32) {place size : Nat} (inside : place < size) (fits : size ≤ 2 ^ 32) :
    Covers base size (base + BitVec.ofNat 32 place) := by
  rw [Covers, BitVec.add_comm, BitVec.add_sub_cancel, toNat_ofNat_of_lt (Nat.lt_of_lt_of_le inside fits)]
  exact inside

theorem Apart.symm {base other : U32} {size count : Nat} (apart : Apart base size other count) :
    Apart other count base size := fun address covers inside => apart address inside covers

namespace Ram

variable {ram : Ram} {bytes : List U8}

theorem store_inside (place : Nat) (inside : place < bytes.length) (fits : bytes.length ≤ 2 ^ 32) :
    (ram.store dst bytes).object dst place = bytes[place] := by
  rw [object, store, BitVec.add_comm, BitVec.add_sub_cancel, toNat_ofNat_of_lt (Nat.lt_of_lt_of_le inside fits),
    List.getD_eq_getElem _ _ inside]

theorem store_outside {address : U32} (outside : ¬ Covers dst bytes.length address) :
    ram.store dst bytes address = ram address :=
  List.getD_eq_default _ _ (Nat.not_lt.mp outside)

theorem object_apart {base : U32} {count place : Nat} (apart : Apart dst bytes.length base count) (inside : place < count)
    (fits : count ≤ 2 ^ 32) : (ram.store dst bytes).object base place = ram.object base place :=
  store_outside fun covers => apart _ covers (covers_offset base inside fits)

end Ram

theorem wordAt_congr {bytes other : Nat → U8} {size place : Nat} (same : ∀ place < size, bytes place = other place)
    (inside : place + 3 < size) : wordAt bytes place = wordAt other place := by
  rw [wordAt, same place (by omega), same (place + 1) (by omega), same (place + 2) (by omega), same (place + 3) inside,
    wordAt]

theorem ElfHeader.of_congr {bytes other : Nat → U8} (same : ∀ place < sizeofElfHeader, bytes place = other place) :
    ElfHeader.of bytes = ElfHeader.of other := by
  have word (place : Nat) (inside : place + 3 < sizeofElfHeader) := wordAt_congr same inside
  rw [ElfHeader.of, word 0 (by decide), word 24 (by decide), word 28 (by decide), same 44 (by decide),
    same 45 (by decide), ElfHeader.of]

theorem ElfPHeader.of_congr {bytes other : Nat → U8} (same : ∀ place < sizeofElfPHeader, bytes place = other place) :
    ElfPHeader.of bytes = ElfPHeader.of other := by
  have word (place : Nat) (inside : place + 3 < sizeofElfPHeader) := wordAt_congr same inside
  rw [ElfPHeader.of, word 0 (by decide), word 4 (by decide), word 8 (by decide), word 16 (by decide),
    word 20 (by decide), ElfPHeader.of]

/-- The bytes of `LOADER_EE_STAGE_3`. -/
def image (config : Config) (flash : Flash) (place : Nat) : U8 :=
  xipByte flash (config.loaderEeStage3 + BitVec.ofNat 32 place)

def slice (bytes : Nat → U8) (start count : Nat) : List U8 := (List.range count).map fun place => bytes (start + place)

@[simp] theorem slice_length (bytes : Nat → U8) (start count : Nat) : (slice bytes start count).length = count := by
  rw [slice, List.length_map, List.length_range]

theorem slice_getElem (bytes : Nat → U8) (start count place : Nat) (inside : place < (slice bytes start count).length) :
    (slice bytes start count)[place] = bytes (start + place) := by
  simp [slice]

def header (config : Config) (flash : Flash) : ElfHeader := .of (image config flash)

def pheader (config : Config) (flash : Flash) (i : Nat) : ElfPHeader :=
  .of fun place => image config flash ((header config flash).phoff.toNat + sizeofElfPHeader * i + place)

/-- A segment that is loaded. -/
def Loaded (config : Config) (flash : Flash) (i : Nat) : Prop :=
  i < (header config flash).phnum.toNat ∧ (pheader config flash i).type = elfPtLoad

/-- An ELF image whose headers and segments lie inside it, and whose segments
overlap neither each other nor what the loader works with. -/
structure Loadable (config : Config) (flash : Flash) (frame : Frame) : Prop where
  whole : sizeofElfHeader ≤ config.loaderEeStage3Size.toNat
  magic : (header config flash).ident = elfMagic
  headers : ∀ i < (header config flash).phnum.toNat,
    (header config flash).phoff.toNat + sizeofElfPHeader * (i + 1) ≤ config.loaderEeStage3Size.toNat
  inside : ∀ i, Loaded config flash i →
    (pheader config flash i).offset.toNat + (pheader config flash i).filesz.toNat ≤ config.loaderEeStage3Size.toNat
  sized : ∀ i, Loaded config flash i → (pheader config flash i).filesz ≤ (pheader config flash i).memsz
  disjoint : ∀ i j, Loaded config flash i → Loaded config flash j → i ≠ j →
    Apart (pheader config flash i).vaddr (pheader config flash i).memsz.toNat (pheader config flash j).vaddr
      (pheader config flash j).memsz.toNat
  locals : ∀ i, Loaded config flash i →
    Apart (pheader config flash i).vaddr (pheader config flash i).memsz.toNat frame.eh sizeofElfHeader ∧
      Apart (pheader config flash i).vaddr (pheader config flash i).memsz.toNat frame.eph sizeofElfPHeader

/-- The first bytes of a segment are those of the image, and the others zero. -/
def Placed (config : Config) (flash : Flash) (i : Nat) (ram : Ram) : Prop :=
  ∀ place < (pheader config flash i).memsz.toNat, ram.object (pheader config flash i).vaddr place =
    if place < (pheader config flash i).filesz.toNat then
      image config flash ((pheader config flash i).offset.toNat + place)
    else 0

/-- The modchip waits for a command, with these contents of the flash. -/
structure Resting (flash : Flash) (firmware : FirmwareState) : Prop where
  idle : firmware.writeHandler = .idle
  flash : firmware.world.flash = flash

theorem received_data (data : List U8) (length : data.length = size.toNat) :
    (received size.toNat (bytes32 modchipCmdResultOk ++ dataOut data true)).read size true = (.data data, some data) := by
  have answered : received size.toNat (bytes32 modchipCmdResultOk ++ dataOut data true) =
      ⟨modchipCmdResultOk, fun place => (dataOut data true).getD place 0, wordOf (dataOut data true) size.toNat⟩ := by
    have bytes : ∀ place, (bytes32 modchipCmdResultOk ++ dataOut data true).getD (4 + place) 0 =
        (dataOut data true).getD place 0 := by
      intro place
      rw [List.getD_append_right _ _ _ _ (Nat.le_add_right 4 place), bytes32_length, Nat.add_sub_cancel_left]
    rw [received, wordOf_bytes32, Nat.add_comm 4, wordOf_next, funext bytes]
  have bytes : (List.range size.toNat).map (fun place => (dataOut data true).getD place 0) = data := by
    rw [← length]
    apply Eq.trans ?_ (map_getD_range data)
    apply List.map_congr_left
    intro place below
    exact List.getD_append _ _ _ _ (List.mem_range.mp below)
  have checksum : wordOf (dataOut data true) size.toNat = crc32 data := by
    rw [dataOut, wordOf_append (Nat.le_of_eq length), length, Nat.sub_self, crc32_eq, if_pos rfl]
    have word := wordOf_bytes32 (Crc.crc32 0xFFFFFFFF data) []
    rw [List.append_nil] at word
    exact word
  rw [answered, Answer.read]
  dsimp only
  rw [if_neg (by decide), if_neg (by decide), if_pos rfl, bytes, if_pos checksum]

theorem received_error : (received size.toNat (bytes32 modchipCmdResultErr)).read size true = (.failed, none) := rfl

theorem image_at (config : Config) (flash : Flash) (offset size : U32) :
    refBytes config flash (.xip (config.loaderEeStage3 + offset)) size.toNat =
      slice (image config flash) offset.toNat size.toNat := by
  apply List.map_congr_left
  intro place _
  rw [refByte, image, BitVec.ofNat_add, BitVec.ofNat_toNat, BitVec.setWidth_eq, BitVec.add_assoc]

theorem lossless_answer {firmware : FirmwareState} (resting : Resting flash firmware) (offset size : U32) :
    ∃ answer next, (losslessBus config).answer offset size true firmware = (answer, next) ∧ Resting flash next ∧
      answer.read size true = if offset < config.loaderEeStage3Size then
        (.data (slice (image config flash) offset.toNat size.toNat),
          some (slice (image config flash) offset.toNat size.toNat))
      else (.failed, none) := by
  obtain ⟨idle, world, events⟩ := run_call config resting.idle (.stage3Read offset size true)
  simp only [losslessBus]
  generalize (machine config).run firmware (Call.stage3Read offset size true).poked = result at *
  obtain ⟨next, sent⟩ := result
  dsimp only at idle world events
  have kept : (runCall config (.stage3Read offset size true) firmware.world).1 = firmware.world := by
    rw [runCall, readEeStage3Body]
    split <;> rfl
  have rests : Resting flash next := by
    refine ⟨idle, ?_⟩
    rw [world, kept]
    exact resting.flash
  refine ⟨_, _, rfl, rests, ?_⟩
  rw [rests.flash, events, runCall, readEeStage3Body]
  dsimp only
  rw [xor_xor_self, xor_xor_self]
  by_cases inside : offset < config.loaderEeStage3Size
  · rw [if_pos ⟨⟨rfl, inside⟩, rfl, by decide⟩, if_pos inside, emit_answerData, image_at]
    exact received_data _ (slice_length _ _ _)
  · rw [if_neg fun accepted => inside accepted.1.2, if_neg inside, emit_answer]
    exact received_error

variable {console : Console FirmwareState}

theorem lossless_read (resting : Resting flash console.bus) (inside : offset < config.loaderEeStage3Size) (dst : U32) :
    ∃ next, Resting flash next ∧
      modchipStage3ReadWithRetry (losslessBus config) offset size dst true modchipCmdRetries console =
        (true, ⟨next, console.ram.store dst (slice (image config flash) offset.toNat size.toNat),
          console.reads ++ [true]⟩) := by
  obtain ⟨answer, next, answered, rests, found⟩ := @lossless_answer config flash console.bus resting offset size
  rw [if_pos inside] at found
  refine ⟨next, rests, ?_⟩
  have read : modchipStage3Read (losslessBus config) offset size dst true console =
      (true, ⟨next, console.ram.store dst (slice (image config flash) offset.toNat size.toNat), console.reads⟩) := by
    rw [modchipStage3Read, answered]
    dsimp only
    rw [found]
    rfl
  rw [modchipStage3ReadWithRetry, modchipCmdRetries, withRetry, read]
  rfl

theorem lossless_refused (resting : Resting flash console.bus) (outside : ¬ offset < config.loaderEeStage3Size)
    (dst : U32) :
    (modchipStage3ReadWithRetry (losslessBus config) offset size dst true modchipCmdRetries console).1 = false := by
  have failed (attemp : Nat) (current : Console FirmwareState) (resting : Resting flash current.bus) :
      Leads (fun next : Console FirmwareState => Resting flash next.bus) (fun _ => False)
        (modchipStage3Read (losslessBus config) offset size dst true current) := by
    obtain ⟨answer, next, answered, rests, found⟩ := @lossless_answer config flash current.bus resting offset size
    rw [if_neg outside] at found
    rw [modchipStage3Read, answered]
    dsimp only
    rw [found]
    exact ⟨nofun, fun _ => rests⟩
  have leads := withRetry_leads failed modchipCmdRetries 0 resting
  rw [modchipStage3ReadWithRetry]
  exact Bool.eq_false_iff.mpr leads.succeeded

/-- Before program header `i`: `eh` is the header of the image and the segments
in front of it are in place. -/
structure Loading (config : Config) (flash : Flash) (frame : Frame) (i : Nat) (console : Console FirmwareState) : Prop where
  resting : Resting flash console.bus
  eh : ∀ place < sizeofElfHeader, console.ram.object frame.eh place = image config flash place
  placed : ∀ j < i, Loaded config flash j → Placed config flash j console.ram

/-- The segment is empty at the end of the image. -/
def Refused (config : Config) (flash : Flash) (i : Nat) : Prop :=
  Loaded config flash i ∧ (pheader config flash i).offset = config.loaderEeStage3Size

theorem Loading.header_eq (loading : Loading config flash frame i console) :
    frame.header console.ram = header config flash := ElfHeader.of_congr loading.eh

theorem Placed.store {ram : Ram} {bytes : List U8} (placed : Placed config flash i ram)
    (apart : Apart dst bytes.length (pheader config flash i).vaddr (pheader config flash i).memsz.toNat) :
    Placed config flash i (ram.store dst bytes) := by
  intro place inside
  rw [Ram.object_apart apart inside (Nat.le_of_lt (BitVec.isLt _))]
  exact placed place inside

theorem Loading.store {bytes : List U8} {next : FirmwareState} {reads : List Bool}
    (loading : Loading config flash frame i console) (resting : Resting flash next)
    (eh : Apart dst bytes.length frame.eh sizeofElfHeader)
    (segments : ∀ j < i, Loaded config flash j →
      Apart dst bytes.length (pheader config flash j).vaddr (pheader config flash j).memsz.toNat) :
    Loading config flash frame i ⟨next, console.ram.store dst bytes, reads⟩ := by
  refine ⟨resting, ?_, ?_⟩
  · intro place inside
    rw [Ram.object_apart eh inside (by decide)]
    exact loading.eh place inside
  · intro j before loaded
    exact (loading.placed j before loaded).store (segments j before loaded)

theorem Apart.mono {base other : U32} {size fewer count : Nat} (apart : Apart base size other count) (less : fewer ≤ size) :
    Apart base fewer other count := fun address covers => apart address (Nat.lt_of_lt_of_le covers less)

theorem Apart.shift {base other : U32} {size count front : Nat} (apart : Apart base size other count)
    (fits : size < 2 ^ 32) (inside : front ≤ size) : Apart (base + BitVec.ofNat 32 front) (size - front) other count := by
  intro address covers
  apply apart
  unfold Covers at *
  bv_omega

theorem Ram.object_behind {ram : Ram} {base : U32} {bytes : List U8} {front place : Nat} (before : place < front)
    (fits : front + bytes.length < 2 ^ 32) :
    (ram.store (base + BitVec.ofNat 32 front) bytes).object base place = ram.object base place := by
  apply store_outside
  unfold Covers
  bv_omega

theorem Ram.object_behind_inside {ram : Ram} {base : U32} {bytes : List U8} {front place : Nat} (behind : front ≤ place)
    (inside : place < front + bytes.length) (fits : front + bytes.length < 2 ^ 32) :
    (ram.store (base + BitVec.ofNat 32 front) bytes).object base place = bytes[place - front] := by
  have address : base + BitVec.ofNat 32 place = base + BitVec.ofNat 32 front + BitVec.ofNat 32 (place - front) := by
    rw [BitVec.add_assoc, ← BitVec.ofNat_add, Nat.add_sub_cancel' behind]
  rw [object, address]
  exact store_inside (place - front) (by omega) (by omega)

theorem Loadable.pheader_place (loadable : Loadable config flash frame) (inside : i < (header config flash).phnum.toNat) :
    ((header config flash).phoff + BitVec.ofNat 32 (sizeofElfPHeader * i)).toNat =
        (header config flash).phoff.toNat + sizeofElfPHeader * i ∧
      (header config flash).phoff + BitVec.ofNat 32 (sizeofElfPHeader * i) < config.loaderEeStage3Size := by
  have ends := loadable.headers i inside
  have place : ((header config flash).phoff + BitVec.ofNat 32 (sizeofElfPHeader * i)).toNat =
      (header config flash).phoff.toNat + sizeofElfPHeader * i := by
    unfold sizeofElfPHeader at *
    bv_omega
  refine ⟨place, ?_⟩
  rw [BitVec.lt_def, place]
  unfold sizeofElfPHeader at *
  omega

/-- The only offset in reach that is not inside the image. -/
theorem Loadable.at_end (loadable : Loadable config flash frame) (loaded : Loaded config flash i)
    (outside : ¬ (pheader config flash i).offset < config.loaderEeStage3Size) :
    (pheader config flash i).offset = config.loaderEeStage3Size := by
  have ends := loadable.inside i loaded
  have least := BitVec.not_lt.mp outside
  rw [BitVec.le_def] at least
  apply BitVec.eq_of_toNat_eq
  omega

theorem Loading.pheader_read (loadable : Loadable config flash frame) (loading : Loading config flash frame i console)
    (inside : i < (header config flash).phnum.toNat) :
    ∃ next, modchipStage3ReadWithRetry (losslessBus config)
        ((frame.header console.ram).phoff + BitVec.ofNat 32 (sizeofElfPHeader * i)) (BitVec.ofNat 32 sizeofElfPHeader)
        frame.eph true modchipCmdRetries console = (true, next) ∧
      Loading config flash frame i next ∧ frame.pheader next.ram = pheader config flash i := by
  obtain ⟨place, below⟩ := loadable.pheader_place inside
  rw [loading.header_eq]
  obtain ⟨next, rests, read⟩ := @lossless_read config flash _ _ console loading.resting below frame.eph
  refine ⟨_, read, loading.store rests ?_ ?_, ?_⟩
  · rw [slice_length]
    exact frame.apart.symm
  · intro j before loaded
    rw [slice_length]
    exact (loadable.locals j loaded).2.symm
  · apply ElfPHeader.of_congr
    intro offset within
    rw [Ram.store_inside offset (by rw [slice_length]; exact within) (by rw [slice_length]; decide), slice_getElem, place]

theorem Loading.placed_next (loading : Loading config flash frame i console)
    (here : Loaded config flash i → Placed config flash i console.ram) : Loading config flash frame (i + 1) console := by
  refine ⟨loading.resting, loading.eh, ?_⟩
  intro j before loaded
  rcases Nat.lt_succ_iff_lt_or_eq.mp before with earlier | rfl
  · exact loading.placed j earlier loaded
  · exact here loaded

theorem Loading.store_segment (loadable : Loadable config flash frame) (loading : Loading config flash frame i console)
    (loaded : Loaded config flash i) {next : FirmwareState} {reads : List Bool} {bytes : List U8}
    (resting : Resting flash next)
    (part : ∀ other count, Apart (pheader config flash i).vaddr (pheader config flash i).memsz.toNat other count →
      Apart dst bytes.length other count) :
    Loading config flash frame i ⟨next, console.ram.store dst bytes, reads⟩ ∧
      frame.pheader (console.ram.store dst bytes) = frame.pheader console.ram := by
  obtain ⟨eh, eph⟩ := loadable.locals i loaded
  constructor
  · apply loading.store resting (part _ _ eh)
    intro j before other
    exact part _ _ (loadable.disjoint i j loaded other (Nat.ne_of_gt before))
  · apply ElfPHeader.of_congr
    intro place inside
    exact Ram.object_apart (part _ _ eph) inside (by decide)

/-- Segment `i` is read and the memory behind it cleared. -/
theorem Loading.segment_loaded (loadable : Loadable config flash frame) (loading : Loading config flash frame i console)
    (loaded : Loaded config flash i) (eph : frame.pheader console.ram = pheader config flash i)
    (inside : (pheader config flash i).offset < config.loaderEeStage3Size) :
    ∃ next, modchipStage3ReadWithRetry (losslessBus config) (pheader config flash i).offset (pheader config flash i).filesz
        (pheader config flash i).vaddr true modchipCmdRetries console = (true, next) ∧
      frame.pheader next.ram = pheader config flash i ∧
      ((pheader config flash i).filesz < (pheader config flash i).memsz →
        Loading config flash frame (i + 1) { next with
          ram := next.ram.memset ((pheader config flash i).vaddr + (pheader config flash i).filesz) 0
            ((pheader config flash i).memsz - (pheader config flash i).filesz).toNat }) ∧
      (¬ (pheader config flash i).filesz < (pheader config flash i).memsz → Loading config flash frame (i + 1) next) := by
  obtain ⟨next, rests, read⟩ := @lossless_read config flash _ (pheader config flash i).filesz console loading.resting inside
    (pheader config flash i).vaddr
  have sized := BitVec.le_def.mp (loadable.sized i loaded)
  have most := (pheader config flash i).memsz.isLt
  have length : (slice (image config flash) (pheader config flash i).offset.toNat
      (pheader config flash i).filesz.toNat).length = (pheader config flash i).filesz.toNat := slice_length _ _ _
  obtain ⟨copied, kept⟩ := @Loading.store_segment config flash frame i (pheader config flash i).vaddr console loadable loading
    loaded next (console.reads ++ [true]) _ rests (fun _ _ apart => apart.mono (Nat.le_trans (Nat.le_of_eq length) sized))
  have part : ∀ place < (pheader config flash i).filesz.toNat,
      (console.ram.store (pheader config flash i).vaddr (slice (image config flash) (pheader config flash i).offset.toNat
        (pheader config flash i).filesz.toNat)).object (pheader config flash i).vaddr place =
      image config flash ((pheader config flash i).offset.toNat + place) := by
    intro place within
    rw [Ram.store_inside place (by rw [length]; exact within) (by rw [length]; omega), slice_getElem]
  refine ⟨_, read, kept.trans eph, ?_, ?_⟩
  · intro more
    have behind : (pheader config flash i).vaddr + (pheader config flash i).filesz =
        (pheader config flash i).vaddr + BitVec.ofNat 32 (pheader config flash i).filesz.toNat := by
      rw [BitVec.ofNat_toNat, BitVec.setWidth_eq]
    have zeros : (List.replicate ((pheader config flash i).memsz - (pheader config flash i).filesz).toNat (0 : U8)).length =
        (pheader config flash i).memsz.toNat - (pheader config flash i).filesz.toNat :=
      List.length_replicate.trans (BitVec.toNat_sub_of_le (loadable.sized i loaded))
    rw [Ram.memset, behind]
    obtain ⟨again, _⟩ := @Loading.store_segment config flash frame i
      ((pheader config flash i).vaddr + BitVec.ofNat 32 (pheader config flash i).filesz.toNat) _ loadable copied loaded next
      (console.reads ++ [true]) (List.replicate _ 0) rests (fun _ _ apart => by
        rw [zeros]
        exact apart.shift most sized)
    apply again.placed_next
    intro _ place within
    by_cases few : place < (pheader config flash i).filesz.toNat
    · rw [if_pos few, Ram.object_behind few (by rw [zeros]; omega)]
      exact part place few
    · rw [if_neg few, Ram.object_behind_inside (Nat.not_lt.mp few) (by rw [zeros]; omega) (by rw [zeros]; omega),
        List.getElem_replicate]
  · intro whole
    apply copied.placed_next
    intro _ place within
    have few : place < (pheader config flash i).filesz.toNat := by
      have least := BitVec.le_def.mp (BitVec.not_lt.mp whole)
      omega
    rw [if_pos few]
    exact part place few

theorem Loading.segment (loadable : Loadable config flash frame) (loading : Loading config flash frame i console)
    (inside : i < (header config flash).phnum.toNat) :
    (Refused config flash i →
      (loadSegment (losslessBus config) frame i console).1 = .error "failed to read elf section") ∧
    (¬ Refused config flash i → ∃ next, loadSegment (losslessBus config) frame i console = (.ok (), next) ∧
      Loading config flash frame (i + 1) next) := by
  obtain ⟨between, read, still, eph⟩ := loading.pheader_read loadable inside
  rw [loadSegment, read]
  dsimp only
  rw [if_neg (by decide), eph]
  by_cases load : (pheader config flash i).type = elfPtLoad
  · have loaded : Loaded config flash i := ⟨inside, load⟩
    rw [if_neg (not_not_intro load)]
    by_cases below : (pheader config flash i).offset < config.loaderEeStage3Size
    · have possible : ¬ Refused config flash i := by
        intro refused
        rw [refused.2] at below
        exact absurd below (BitVec.lt_irrefl _)
      refine ⟨fun refused => absurd refused possible, fun _ => ?_⟩
      obtain ⟨next, copied, kept, cleared, whole⟩ := still.segment_loaded loadable loaded eph below
      rw [copied]
      dsimp only
      rw [if_neg (by decide), kept]
      by_cases more : (pheader config flash i).filesz < (pheader config flash i).memsz
      · rw [if_pos more]
        exact ⟨_, rfl, cleared more⟩
      · rw [if_neg more]
        exact ⟨_, rfl, whole more⟩
    · have atEnd := loadable.at_end loaded below
      refine ⟨fun _ => ?_, fun possible => absurd ⟨loaded, atEnd⟩ possible⟩
      have refused := @lossless_refused config flash _ (pheader config flash i).filesz between still.resting below
        (pheader config flash i).vaddr
      rw [refused]
      rfl
  · rw [if_pos load]
    refine ⟨fun refused => absurd refused.1.2 load, fun _ => ⟨_, rfl, still.placed_next ?_⟩⟩
    exact fun loaded => absurd loaded.2 load

theorem Loading.segments (loadable : Loadable config flash frame) (loading : Loading config flash frame i console)
    (bound : i ≤ (header config flash).phnum.toNat) :
    ((∃ j, i ≤ j ∧ Refused config flash j) →
      (loadSegments (losslessBus config) frame i console).1 = .error "failed to read elf section") ∧
    ((∀ j, i ≤ j → ¬ Refused config flash j) →
      ∃ next, loadSegments (losslessBus config) frame i console = (.ok (), next) ∧
        Loading config flash frame (header config flash).phnum.toNat next) := by
  induction left : (header config flash).phnum.toNat - i generalizing i console with
  | zero =>
    obtain rfl : i = (header config flash).phnum.toNat := by omega
    have done : ¬ (header config flash).phnum.toNat < (frame.header console.ram).phnum.toNat := by
      rw [loading.header_eq]
      exact Nat.lt_irrefl _
    constructor
    · intro refused
      obtain ⟨j, later, refused⟩ := refused
      exact absurd refused.1.1 (Nat.not_lt.mpr later)
    · intro _
      rw [loadSegments, if_neg done]
      exact ⟨console, rfl, loading⟩
  | succ left ih =>
    have inside : i < (header config flash).phnum.toNat := by omega
    have more : i < (frame.header console.ram).phnum.toNat := by
      rw [loading.header_eq]
      exact inside
    obtain ⟨stops, goes⟩ := loading.segment loadable inside
    rw [loadSegments, if_pos more]
    by_cases refused : Refused config flash i
    · generalize loadSegment (losslessBus config) frame i console = result at stops
      obtain ⟨outcome, next⟩ := result
      cases stops refused
      refine ⟨fun _ => rfl, fun possible => absurd refused (possible i (Nat.le_refl i))⟩
    · obtain ⟨next, passed, later⟩ := goes refused
      obtain ⟨fails, loads⟩ := ih later inside (by omega)
      rw [passed]
      constructor
      · intro found
        obtain ⟨j, behind, stopped⟩ := found
        apply fails
        refine ⟨j, Nat.lt_of_le_of_ne behind ?_, stopped⟩
        rintro rfl
        exact refused stopped
      · intro possible
        exact loads fun j behind => possible j (Nat.le_of_succ_le behind)

/-- `ExecPS2` is called with the entry point, and every segment is in place. -/
def Started (config : Config) (flash : Flash) (argc : Nat) (argv : List String)
    (result : Except String Exec × Console FirmwareState) : Prop :=
  result.1 = .ok ⟨(header config flash).entry, 0, argc, argv⟩ ∧
    ∀ i, Loaded config flash i → Placed config flash i result.2.ram

/-- A read that fails in the end, or another first word than the magic, keeps
`ExecPS2` from being called. -/
def FailsClosed {σ : Type} (bus : Bus σ) (frame : Frame) (argc : Nat) (argv : List String) (console : Console σ) : Prop :=
  let result := execPS2FromModchipStage3 bus frame argc argv console
  let first := modchipStage3ReadWithRetry bus 0 (BitVec.ofNat 32 sizeofElfHeader) frame.eh true modchipCmdRetries console
  (∃ reads, result.2.reads = console.reads ++ reads ∧ false ∈ reads) ∨
      (first.1 = true ∧ (frame.header first.2.ram).ident ≠ elfMagic) →
    ∃ message, result.1 = .error message

section Failures

variable {σ α : Type} {bus : Bus σ} {before after : Console σ}

/-- A call that is not given up has not seen a read fail. -/
def Reports (before : Console σ) (result : Except String α × Console σ) : Prop :=
  ∃ reads, result.2.reads = before.reads ++ reads ∧ ∀ value, result.1 = .ok value → false ∉ reads

theorem Reports.trans {result : Except String α × Console σ} {reads : List Bool}
    (known : after.reads = before.reads ++ reads) (fine : ∀ value, result.1 = .ok value → false ∉ reads)
    (reports : Reports after result) : Reports before result := by
  obtain ⟨more, seen, none⟩ := reports
  refine ⟨reads ++ more, ?_, ?_⟩
  · rw [seen, known, List.append_assoc]
  · intro value finished member
    rcases List.mem_append.mp member with early | late
    · exact fine value finished early
    · exact none value finished late

theorem Reports.error {β : Type} {message other : String}
    (reports : Reports before ((Except.error message : Except String β), after)) :
    Reports before ((Except.error other : Except String α), after) := by
  obtain ⟨reads, known, _⟩ := reports
  exact ⟨reads, known, nofun⟩

theorem Reports.ok {β : Type} {value : β} {other : α}
    (reports : Reports before ((Except.ok value : Except String β), after)) :
    Reports before ((Except.ok other : Except String α), after) := by
  obtain ⟨reads, known, fine⟩ := reports
  exact ⟨reads, known, fun _ _ => fine value rfl⟩

theorem Reports.done {outcome : Except String α} (same : after.reads = before.reads) : Reports before (outcome, after) :=
  ⟨[], same.trans (List.append_nil _).symm, fun _ _ => List.not_mem_nil⟩

theorem Reports.read {offset size dst : U32} {withCrc read : Bool} {attemps : Nat}
    {result : Except String α × Console σ}
    (ran : modchipStage3ReadWithRetry bus offset size dst withCrc attemps before = (read, after))
    (gives : read = false → ∃ message, result.1 = .error message) (reports : Reports after result) :
    Reports before result := by
  have kept := @withRetry_preserves _ (fun console : Console σ => console.reads = before.reads)
    (fun _ => modchipStage3Read bus offset size dst withCrc) (fun _ _ same => same) attemps 0 before rfl
  have known : after.reads = before.reads ++ [read] := by
    cases ran
    exact congrArg (· ++ _) kept
  apply reports.trans known
  intro value finished member
  obtain ⟨message, failed⟩ := gives (List.mem_singleton.mp member).symm
  cases finished.symm.trans failed

theorem loadSegment_reports (bus : Bus σ) (frame : Frame) (i : Nat) (before : Console σ) :
    Reports before (loadSegment bus frame i before) := by
  unfold loadSegment
  split
  next read console ran =>
    cases read with
    | false => exact .read ran (fun _ => ⟨_, rfl⟩) (.done rfl)
    | true =>
      apply Reports.read ran nofun
      rw [if_neg (by decide)]
      extract_lets eph
      split
      · exact .done rfl
      · split
        next copied next ran =>
          cases copied with
          | false => exact .read ran (fun _ => ⟨_, rfl⟩) (.done rfl)
          | true =>
            apply Reports.read ran nofun
            rw [if_neg (by decide)]
            extract_lets eph
            split
            · exact .done rfl
            · exact .done rfl

theorem loadSegments_reports (bus : Bus σ) (frame : Frame) (i : Nat) (before : Console σ) :
    Reports before (loadSegments bus frame i before) := by
  fun_induction loadSegments bus frame i before with
  | case1 i before more next passed ih =>
    obtain ⟨reads, known, fine⟩ := loadSegment_reports bus frame i before
    rw [passed] at known fine
    exact ih.trans known (fun _ _ => fine () rfl)
  | case2 i before more message next failed =>
    have segment := loadSegment_reports bus frame i before
    rw [failed] at segment
    exact segment.error
  | case3 i before done => exact .done rfl

theorem exec_reports (bus : Bus σ) (frame : Frame) (argc : Nat) (argv : List String) (before : Console σ) :
    Reports before (execPS2FromModchipStage3 bus frame argc argv before) := by
  unfold execPS2FromModchipStage3
  split
  next read console ran =>
    cases read with
    | false => exact .read ran (fun _ => ⟨_, rfl⟩) (.done rfl)
    | true =>
      apply Reports.read ran nofun
      rw [if_neg (by decide)]
      split
      · exact .done rfl
      · have loads := loadSegments_reports bus frame 0 console
        split
        next message next failed =>
          rw [failed] at loads
          exact loads.error
        next next loaded =>
          rw [loaded] at loads
          exact loads.ok

theorem fails_closed (bus : Bus σ) (frame : Frame) (argc : Nat) (argv : List String) (before : Console σ) :
    FailsClosed bus frame argc argv before := by
  unfold FailsClosed
  intro result first failed
  obtain ⟨reads, known, fine⟩ := exec_reports bus frame argc argv before
  rcases failed with ⟨reported, same, member⟩ | ⟨read, other⟩
  · obtain rfl : reads = reported := List.append_cancel_left (known.symm.trans same)
    cases outcome : result.1 with
    | error message => exact ⟨message, rfl⟩
    | ok exec => exact absurd member (fine exec outcome)
  · refine ⟨"not an elf", ?_⟩
    have refused : result = (.error "not an elf", first.2) := by
      show execPS2FromModchipStage3 bus frame argc argv before = _
      unfold execPS2FromModchipStage3
      dsimp only
      rw [if_neg (by rw [read]; decide), if_pos other]
    rw [refused]

end Failures

theorem loading_begins (loadable : Loadable config flash frame) (resting : Resting flash console.bus) :
    ∃ next, modchipStage3ReadWithRetry (losslessBus config) 0 (BitVec.ofNat 32 sizeofElfHeader) frame.eh true
        modchipCmdRetries console = (true, next) ∧ Loading config flash frame 0 next := by
  have below : (0 : U32) < config.loaderEeStage3Size :=
    BitVec.lt_def.mpr (Nat.lt_of_lt_of_le (by decide) loadable.whole)
  obtain ⟨next, rests, read⟩ := @lossless_read config flash 0 (BitVec.ofNat 32 sizeofElfHeader) console resting below
    frame.eh
  refine ⟨_, read, rests, ?_, nofun⟩
  intro place inside
  rw [Ram.store_inside place (by rw [slice_length]; exact inside) (by rw [slice_length]; decide), slice_getElem]
  exact congrArg (image config flash) (Nat.zero_add place)

theorem exec_cases (loadable : Loadable config flash frame) (resting : Resting flash console.bus) (argc : Nat)
    (argv : List String) :
    ((∃ i, Refused config flash i) →
      (execPS2FromModchipStage3 (losslessBus config) frame argc argv console).1 = .error "failed to read elf section") ∧
    ((∀ i, ¬ Refused config flash i) →
      Started config flash argc argv (execPS2FromModchipStage3 (losslessBus config) frame argc argv console)) := by
  obtain ⟨first, read, loading⟩ := @loading_begins config flash frame console loadable resting
  obtain ⟨fails, loads⟩ := loading.segments loadable (Nat.zero_le _)
  rw [execPS2FromModchipStage3, read]
  dsimp only
  rw [if_neg (by decide), loading.header_eq, if_neg (not_not_intro loadable.magic)]
  constructor
  · intro refused
    obtain ⟨i, refused⟩ := refused
    have stopped := fails ⟨i, Nat.zero_le i, refused⟩
    generalize loadSegments (losslessBus config) frame 0 first = result at stopped
    obtain ⟨outcome, next⟩ := result
    cases stopped
    rfl
  · intro possible
    obtain ⟨next, loaded, done⟩ := loads fun i _ => possible i
    rw [loaded]
    dsimp only
    rw [done.header_eq]
    exact ⟨rfl, fun i loaded => done.placed i loaded.1 loaded⟩

/-- Stage 3 is loaded and started exactly when no segment to load begins at the
end of the image; failures always keep it from being started. -/
theorem stage3_loads_iff (loadable : Loadable config console.bus.world.flash frame)
    (idle : console.bus.writeHandler = .idle) (argc : Nat) (argv : List String) :
    (Started config console.bus.world.flash argc argv
        (execPS2FromModchipStage3 (losslessBus config) frame argc argv console) ∧
      ∀ (σ : Type) (bus : Bus σ) (start : Console σ), FailsClosed bus frame argc argv start) ↔
    ∀ i, Loaded config console.bus.world.flash i →
      (pheader config console.bus.world.flash i).offset ≠ config.loaderEeStage3Size := by
  obtain ⟨fails, loads⟩ := @exec_cases config _ frame console loadable ⟨idle, rfl⟩ argc argv
  constructor
  · intro holds i loaded atEnd
    have stopped := fails ⟨i, loaded, atEnd⟩
    cases holds.1.1.symm.trans stopped
  · intro possible
    exact ⟨loads fun i refused => possible i refused.1 refused.2, fun _ bus start => fails_closed bus frame argc argv start⟩

/-- An image of one segment, which says that its bytes are at this offset. -/
def segmentImage (offset filesz : U32) (data : List U8) : List U8 :=
  bytes32 elfMagic ++ List.replicate 20 0 ++ bytes32 0x00200000 ++ bytes32 52 ++ List.replicate 12 0 ++ bytes16 1 ++
    List.replicate 6 0 ++ bytes32 elfPtLoad ++ bytes32 offset ++ bytes32 0x00200000 ++ bytes32 0x00200000 ++
    bytes32 filesz ++ bytes32 16 ++ List.replicate 8 0 ++ data

def segmentConfig (data : List U8) : Config :=
  { (default : Config) with loaderEeStage3 := 0x10020000, loaderEeStage3Size := BitVec.ofNat 32 (84 + data.length) }

def segmentFlash (offset filesz : U32) (data : List U8) : Flash := fun address =>
  (segmentImage offset filesz data).getD (address - 0x20000) 0

def segmentFrame : Frame := ⟨0x01FF0000, 0x01FF0040, fun address => by unfold Covers sizeofElfHeader sizeofElfPHeader; bv_omega⟩

def startConsole (flash : Flash) : Console FirmwareState :=
  ⟨.powerUp flash ⟨.defaults, WearLeveling.clearCache⟩, fun _ => 0xAA, []⟩

theorem startConsole_flash (flash : Flash) : (startConsole flash).bus.world.flash = flash := rfl

section Segment

variable {filesz : U32} {data : List U8}

theorem segment_image (offset filesz : U32) (data : List U8) {place : Nat} (few : place < 2 ^ 16) :
    image (segmentConfig data) (segmentFlash offset filesz data) place = (segmentImage offset filesz data).getD place 0 := by
  have address : (((segmentConfig data).loaderEeStage3 + BitVec.ofNat 32 place) - xipBase).toNat - 0x20000 = place := by
    unfold segmentConfig xipBase
    bv_omega
  rw [image, xipByte, segmentFlash, address]

theorem segment_header (offset filesz : U32) (data : List U8) :
    header (segmentConfig data) (segmentFlash offset filesz data) = ⟨elfMagic, 0x00200000, 52, 1⟩ := by
  rw [header, ElfHeader.of_congr fun place inside => segment_image offset filesz data (Nat.lt_trans inside (by decide))]
  simp [ElfHeader.of, wordAt, segmentImage, bytes32, bytes16, List.replicate]

theorem segment_pheader (offset filesz : U32) (data : List U8) :
    pheader (segmentConfig data) (segmentFlash offset filesz data) 0 = ⟨elfPtLoad, offset, 0x00200000, filesz, 16⟩ := by
  have found : ElfPHeader.of (fun place => (segmentImage offset filesz data).getD (52 + place) 0) =
      ⟨elfPtLoad, offset, 0x00200000, filesz, 16⟩ := by
    simp [ElfPHeader.of, wordAt, segmentImage, bytes32, bytes16, List.replicate]
  rw [pheader, segment_header, ← found]
  apply ElfPHeader.of_congr
  intro place inside
  apply segment_image
  unfold sizeofElfPHeader at inside
  show 52 + 0 + place < 2 ^ 16
  omega

theorem segment_only {i : Nat} (loaded : Loaded (segmentConfig data) (segmentFlash offset filesz data) i) : i = 0 := by
  have few := loaded.1
  rw [segment_header] at few
  exact Nat.lt_one_iff.mp few

theorem segment_loadable (inside : offset.toNat + filesz.toNat ≤ 84 + data.length) (small : filesz ≤ 16)
    (short : data.length ≤ 16) : Loadable (segmentConfig data) (segmentFlash offset filesz data) segmentFrame := by
  have size : (segmentConfig data).loaderEeStage3Size.toNat = 84 + data.length := toNat_ofNat_of_lt (by omega)
  constructor
  · rw [size]
    exact Nat.le_add_right_of_le (by decide)
  · rw [segment_header]
  · intro i few
    rw [segment_header] at few ⊢
    obtain rfl : i = 0 := Nat.lt_one_iff.mp few
    rw [size]
    exact Nat.le_add_right_of_le (by decide)
  · intro i loaded
    rw [segment_only loaded, segment_pheader, size]
    exact inside
  · intro i loaded
    rw [segment_only loaded, segment_pheader]
    exact small
  · intro i j first second apart
    exact absurd ((segment_only first).trans (segment_only second).symm) apart
  · intro i loaded
    rw [segment_only loaded, segment_pheader]
    constructor
    · intro address
      unfold Covers segmentFrame sizeofElfHeader
      bv_omega
    · intro address
      unfold Covers segmentFrame sizeofElfPHeader
      bv_omega

end Segment

/-- Four bytes of a segment, which has twelve more that are cleared. -/
def shortSegment : List U8 := [0x08, 0x00, 0xE0, 0x03]

theorem short_loadable : Loadable (segmentConfig shortSegment) (segmentFlash 84 4 shortSegment) segmentFrame :=
  segment_loadable (Nat.le_refl 88) (by decide) (by decide)

theorem stage3_loads_short :
    Started (segmentConfig shortSegment) (segmentFlash 84 4 shortSegment) 1 [""]
        (execPS2FromModchipStage3 (losslessBus (segmentConfig shortSegment)) segmentFrame 1 [""]
          (startConsole (segmentFlash 84 4 shortSegment))) ∧
      ∀ (σ : Type) (bus : Bus σ) (start : Console σ), FailsClosed bus segmentFrame 1 [""] start := by
  have loadable : Loadable (segmentConfig shortSegment)
      (startConsole (segmentFlash 84 4 shortSegment)).bus.world.flash segmentFrame := by
    rw [startConsole_flash]
    exact short_loadable
  have loads := stage3_loads_iff loadable rfl 1 [""]
  rw [startConsole_flash] at loads
  refine loads.mpr fun i loaded => ?_
  rw [segment_only loaded, segment_pheader]
  decide

/-- A segment without bytes, whose offset follows the last byte of the image, is refused. -/
theorem bss_at_end_refused :
    Loadable (segmentConfig []) (segmentFlash 84 0 []) segmentFrame ∧
      (execPS2FromModchipStage3 (losslessBus (segmentConfig [])) segmentFrame 1 [""]
        (startConsole (segmentFlash 84 0 []))).1 = .error "failed to read elf section" ∧
      ¬ Started (segmentConfig []) (segmentFlash 84 0 []) 1 [""]
        (execPS2FromModchipStage3 (losslessBus (segmentConfig [])) segmentFrame 1 [""]
          (startConsole (segmentFlash 84 0 []))) := by
  have loadable := @segment_loadable 84 0 [] (Nat.le_refl 84) (by decide) (by decide)
  obtain ⟨fails, _⟩ := @exec_cases (segmentConfig []) _ segmentFrame (startConsole (segmentFlash 84 0 [])) loadable
    ⟨rfl, startConsole_flash _⟩ 1 [""]
  have stopped := fails ⟨0, ⟨by rw [segment_header]; decide, by rw [segment_pheader]⟩, by rw [segment_pheader]; rfl⟩
  refine ⟨loadable, stopped, ?_⟩
  intro started
  cases started.1.symm.trans stopped

end Fruitchip.Loader
