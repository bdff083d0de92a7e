import Fruitchip.Proofs.UpdateFile

/-! The two tests between an image and the writing scene. Of the three size
queries only the last one is tested, and the pins are compared as one set. -/

namespace Fruitchip.Menu
open Embedded Client Firmware

variable {config : Config} {info : BinaryInfo} {updateType : UpdateType} {inputs : CheckingInputs}
  {queries : Nat → SizeQuery} {idx : U8} {size value : U32}

/-- What a failed attempt stored. -/
def SizeQuery.left : SizeQuery → Option U32
  | .ok => none
  | .failed left => left

def Answered (queries : Nat → SizeQuery) : Prop := ∃ attemp < modchipCmdRetries, queries attemp = .ok

instance (queries : Nat → SizeQuery) : Decidable (Answered queries) :=
  inferInstanceAs (Decidable (∃ attemp, attemp < 3 ∧ queries attemp = .ok))

/-- The variable after attempts that all failed. -/
def leftBehind (queries : Nat → SizeQuery) : (attemps attemp : Nat) → U32 → U32
  | 0, _, value => value
  | attemps + 1, attemp, value => leftBehind queries attemps (attemp + 1) ((queries attemp).left.getD value)

/-- The variable in the end. -/
def sizeFound (config : Config) (queries : Nat → SizeQuery) (idx : U8) (value : U32) : U32 :=
  if Answered queries then partitionSize config idx else leftBehind queries modchipCmdRetries 0 value

theorem withRetry_query (config : Config) (queries : Nat → SizeQuery) (idx : U8) (attemps attemp : Nat) (value : U32) :
    withRetry (fun attemp => modchipGetPartitionSize config idx (queries attemp)) attemps attemp value =
      if ∃ index < attemps, queries (attemp + index) = .ok then (true, partitionSize config idx)
      else (false, leftBehind queries attemps attemp value) := by
  induction attemps generalizing attemp value with
  | zero =>
    rw [if_neg (fun ⟨_, before, _⟩ => Nat.not_lt_zero _ before)]
    rfl
  | succ attemps ih =>
    cases first : queries attemp with
    | ok =>
      rw [withRetry, first, if_pos ⟨0, Nat.zero_lt_succ attemps, first⟩]
      rfl
    | failed left =>
      have later : (∃ index < attemps + 1, queries (attemp + index) = .ok) ↔
          ∃ index < attemps, queries (attemp + 1 + index) = .ok := by
        constructor
        · rintro ⟨index, before, answered⟩
          cases index with
          | zero => cases first.symm.trans answered
          | succ index =>
            refine ⟨index, Nat.lt_of_succ_lt_succ before, ?_⟩
            rwa [Nat.add_assoc, Nat.add_comm 1]
        · rintro ⟨index, before, answered⟩
          refine ⟨index + 1, Nat.succ_lt_succ before, ?_⟩
          rwa [Nat.add_comm index, ← Nat.add_assoc]
      rw [withRetry, first]
      show withRetry _ attemps (attemp + 1) (left.getD value) = _
      rw [ih, leftBehind, first]
      simp only [later]
      rfl

theorem partitionSize_found (config : Config) (idx : U8) (value : U32) :
    inputs.partitionSize config idx value =
      (decide (Answered (inputs.sizeQueries idx)), sizeFound config (inputs.sizeQueries idx) idx value) := by
  have retried := withRetry_query config (inputs.sizeQueries idx) idx modchipCmdRetries 0 value
  simp only [Nat.zero_add] at retried
  apply retried.trans
  unfold sizeFound
  by_cases answered : Answered (inputs.sizeQueries idx)
  · rw [if_pos answered, decide_eq_true answered]
    exact if_pos answered
  · rw [if_neg answered, decide_eq_false answered]
    exact if_neg answered

/-- The image is no larger than the values that the variables have in the end. -/
def SpaceFound (config : Config) (inputs : CheckingInputs) (updateSize : U32) : UpdateType → Prop
  | .fw =>
    updateSize ≤ sizeFound config (inputs.sizeQueries modchipPartitionIdxFw) modchipPartitionIdxFw
        inputs.fwPartitionSize ∧
      updateSize ≤ sizeFound config (inputs.sizeQueries modchipPartitionIdxFwUpdate) modchipPartitionIdxFwUpdate
        inputs.updatePartitionSize
  | .apps =>
    updateSize ≤ sizeFound config (inputs.sizeQueries modchipPartitionIdxApps) modchipPartitionIdxApps
      inputs.appsPartitionSize

theorem checkSpace_ok :
    checkSpace config updateType size inputs = .ok () ↔
      Answered (inputs.sizeQueries modchipPartitionIdxApps) ∧ SpaceFound config inputs size updateType := by
  simp only [checkSpace, partitionSize_found]
  by_cases answered : Answered (inputs.sizeQueries modchipPartitionIdxApps)
  · cases updateType <;> simp [answered, SpaceFound, not_or]
  · simp [answered]

/-- What a tested size stands for. -/
structure SpaceChecked (config : Config) (inputs : CheckingInputs) (updateType : UpdateType) (size : Nat) : Prop where
  fw : Answered (inputs.sizeQueries modchipPartitionIdxFw)
  fwUpdate : Answered (inputs.sizeQueries modchipPartitionIdxFwUpdate)
  apps : Answered (inputs.sizeQueries modchipPartitionIdxApps)
  enough : match updateType with
    | .fw => size ≤ fwPartitionSizeBytes ∧ size ≤ updatePartitionSizeBytes
    | .apps => size ≤ appsPartitionSizeBytes config.flashSize

theorem sizeFound_answered (config : Config) (idx : U8) (value : U32) (answered : Answered queries) :
    sizeFound config queries idx value = partitionSize config idx := if_pos answered

theorem SpaceFound.checked (found : SpaceFound config inputs size updateType)
    (fw : Answered (inputs.sizeQueries modchipPartitionIdxFw))
    (fwUpdate : Answered (inputs.sizeQueries modchipPartitionIdxFwUpdate))
    (apps : Answered (inputs.sizeQueries modchipPartitionIdxApps)) :
    SpaceChecked config inputs updateType size.toNat := by
  refine ⟨fw, fwUpdate, apps, ?_⟩
  cases updateType with
  | fw =>
    obtain ⟨first, second⟩ := found
    rw [sizeFound_answered _ _ _ fw] at first
    rw [sizeFound_answered _ _ _ fwUpdate] at second
    exact ⟨first, second⟩
  | apps =>
    have found : size ≤ sizeFound config _ modchipPartitionIdxApps _ := found
    rw [sizeFound_answered _ _ _ apps] at found
    have bytes : (partitionSize config modchipPartitionIdxApps).toNat = appsPartitionSizeBytes config.flashSize := by
      unfold partitionSize
      cases config.flashSize <;> rfl
    rw [← bytes]
    exact found

theorem pinConfigGetFromUpdate_blank (info : BinaryInfo) (masks : PinMasks) :
    pinConfigGetFromUpdate info (fun _ => 0) masks = some masks := by
  have none (address : U32) : Memory.word (fun _ => 0) address = 0 := show le32 0 0 0 0 = 0 by decide
  unfold pinConfigGetFromUpdate
  split
  · rfl
  · simp only [none, BitVec.sub_self]
    rfl

theorem checkPins_blank (info : BinaryInfo) (known : (pinConfigGetCurrent inputs.modchipPinConfig).all) :
    checkPins info (fun _ => 0) inputs = some (.ok ()) := by
  rw [checkPins, if_neg (not_not.mpr known), pinConfigGetFromUpdate_blank]
  rfl

theorem store_blank {src : List U8} (offset : Nat) (blank : ∀ byte ∈ src, byte = 0) :
    store (fun _ => 0) offset src = fun _ => 0 := by
  funext position
  unfold store
  split
  · rw [List.getD_eq_getElem?_getD]
    cases found : src[position - offset]? with
    | none => rfl
    | some byte => exact blank byte (List.mem_of_getElem? found)
  · rfl

/-- A file for the right place that is all zeros, on a modchip that knows its pins. -/
def blankFile (updateType : UpdateType) (pages : Nat) (inputs : CheckingInputs) : CheckingInputs :=
  { inputs with
    file := some ⟨uf2File (BitVec.ofNat 32 updateType.baseAddress) (List.replicate pages blankPage), fun _ => true⟩
    malloc := fun _ => 0
    modchipPinConfig := fun _ => 1 }

theorem blankFile_passes (config : Config) (info : BinaryInfo) {pages : Nat} (short : 512 * pages < 2 ^ 32)
    (apps : Answered (inputs.sizeQueries modchipPartitionIdxApps))
    (found : SpaceFound config inputs (BitVec.ofNat 32 (256 * pages)) updateType) :
    sceneTickHandlerUpdateChecking config info updateType (blankFile updateType pages inputs) =
      some (.ok ⟨fun _ => 0, BitVec.ofNat 32 (256 * pages)⟩) := by
  have whole : ∀ page ∈ List.replicate pages blankPage, page.length = 256 := by
    intro page member
    rw [List.eq_of_mem_replicate member]
    exact List.length_replicate
  have blank : store (fun _ => 0) 0 (List.replicate pages blankPage).flatten = fun _ => 0 := by
    apply store_blank
    intro byte member
    obtain ⟨page, among, member⟩ := List.mem_flatten.mp member
    rw [List.eq_of_mem_replicate among] at member
    exact List.eq_of_mem_replicate member
  have space : checkSpace config updateType (BitVec.ofNat 32 (256 * pages)) (blankFile updateType pages inputs) = .ok () :=
    checkSpace_ok.mpr ⟨apps, found⟩
  have passed := @uf2File_checked (blankFile updateType pages inputs) config info updateType _ _ whole
    (by rwa [List.length_replicate]) rfl (by rwa [List.length_replicate]) (fun _ => ?_)
  · rw [List.length_replicate] at passed
    apply passed.trans
    show some (Except.ok (Update.mk (store (fun _ => 0) 0 _) _)) = _
    rw [blank]
  · show checkPins info (store (fun _ => 0) 0 _) _ = _
    rw [blank]
    apply checkPins_blank
    show PinMasks.all ⟨1, 1, 1, 1⟩
    decide

/-- Whatever the file and the pins are, an image of a size passes only with
three answers and enough space exactly when the first two queries are answered,
the third one is not, or the image is too large for what they left behind. -/
theorem space_checked_iff (config : Config) (info : BinaryInfo) (updateType : UpdateType) (inputs : CheckingInputs)
    {pages : Nat} (short : 512 * pages < 2 ^ 32) :
    (∀ file malloc pins image,
        sceneTickHandlerUpdateChecking config info updateType
          { inputs with file := file, malloc := malloc, modchipPinConfig := pins } = some (.ok image) →
        image.size.toNat = 256 * pages → SpaceChecked config inputs updateType (256 * pages)) ↔
      (Answered (inputs.sizeQueries modchipPartitionIdxFw) ∧ Answered (inputs.sizeQueries modchipPartitionIdxFwUpdate)) ∨
        ¬ Answered (inputs.sizeQueries modchipPartitionIdxApps) ∨
        ¬ SpaceFound config inputs (BitVec.ofNat 32 (256 * pages)) updateType := by
  have size : (BitVec.ofNat 32 (256 * pages)).toNat = 256 * pages := by
    apply toNat_ofNat_of_lt
    omega
  constructor
  · intro checked
    by_cases apps : Answered (inputs.sizeQueries modchipPartitionIdxApps)
    · by_cases found : SpaceFound config inputs (BitVec.ofNat 32 (256 * pages)) updateType
      · have passed := blankFile_passes config info short apps found
        have space := checked _ _ _ _ passed size
        exact .inl ⟨space.fw, space.fwUpdate⟩
      · exact .inr (.inr found)
    · exact .inr (.inl apps)
  · intro condition file malloc pins image passed pages
    obtain ⟨_, copy, _, _, space, _, rfl⟩ := checking_ok passed
    obtain ⟨apps, found⟩ := checkSpace_ok.mp space
    have same : copy.updateSize = BitVec.ofNat 32 (256 * _) := BitVec.eq_of_toNat_eq (pages.trans size.symm)
    rw [same] at found
    rcases condition with ⟨fw, fwUpdate⟩ | none | small
    · have checked := found.checked fw fwUpdate apps
      rw [size] at checked
      exact ⟨checked.fw, checked.fwUpdate, checked.apps, checked.enough⟩
    · exact absurd apps none
    · exact absurd found small

def leftLarge : CheckingInputs where
  file := none
  malloc := fun _ => 0
  fwPartitionSize := 0
  updatePartitionSize := 0
  appsPartitionSize := 0
  sizeQueries := fun idx _ => if idx = modchipPartitionIdxApps then .ok else .failed (some 0xFFFFFFFF)
  modchipPinConfig := fun _ => 1

theorem space_checked_large :
    (∀ file malloc pins image,
        sceneTickHandlerUpdateChecking default picoSdk .fw
          { leftLarge with file := file, malloc := malloc, modchipPinConfig := pins } = some (.ok image) →
        image.size.toNat = 256 * 2593 → SpaceChecked default leftLarge .fw (256 * 2593)) ↔
      (Answered (leftLarge.sizeQueries modchipPartitionIdxFw) ∧
          Answered (leftLarge.sizeQueries modchipPartitionIdxFwUpdate)) ∨
        ¬ Answered (leftLarge.sizeQueries modchipPartitionIdxApps) ∨
        ¬ SpaceFound default leftLarge (BitVec.ofNat 32 (256 * 2593)) .fw :=
  space_checked_iff default picoSdk .fw leftLarge (by decide)

/-- A firmware that is one page larger than its partition is let through. -/
theorem large_firmware_passes :
    sceneTickHandlerUpdateChecking default picoSdk .fw (blankFile .fw 2593 leftLarge) =
        some (.ok ⟨fun _ => 0, 663808⟩) ∧
      ¬ SpaceChecked default leftLarge .fw 663808 := by
  constructor
  · apply blankFile_passes default picoSdk
    · decide
    · exact ⟨0, by decide, rfl⟩
    · exact ⟨by decide, by decide⟩
  · intro checked
    exact absurd checked.fw (by decide)

/-- A firmware that declares pins for every role passes with those of the
modchip alone exactly when they are the same, not even the same set, or the
space is tested and not enough. -/
theorem pins_checked_iff (config : Config) (info : BinaryInfo) (inputs : CheckingInputs) {file : UpdateFile}
    {copy : Copy} {masks : PinMasks} (opened : inputs.file = some file)
    (read : readUpdate file inputs.malloc = .ok copy)
    (declared : pinConfigGetFromUpdate info (fun address => copy.memory address.toNat) .none = some masks)
    (roles : masks.all) (known : (pinConfigGetCurrent inputs.modchipPinConfig).all) :
    (∀ image, sceneTickHandlerUpdateChecking config info .fw inputs = some (.ok image) →
        masks = pinConfigGetCurrent inputs.modchipPinConfig) ↔
      masks = pinConfigGetCurrent inputs.modchipPinConfig ∨
        masks.union ≠ (pinConfigGetCurrent inputs.modchipPinConfig).union ∨
        ¬ (Answered (inputs.sizeQueries modchipPartitionIdxApps) ∧ SpaceFound config inputs copy.updateSize .fw) := by
  have pins : checkPins info copy.memory inputs = some
      (if (pinConfigGetCurrent inputs.modchipPinConfig).union ≠ masks.union then .error .pinMismatch else .ok ()) := by
    rw [checkPins, if_neg (not_not.mpr known), declared, Option.map_some]
    simp only [roles, true_and]
  constructor
  · intro safe
    by_cases same : (pinConfigGetCurrent inputs.modchipPinConfig).union = masks.union
    · by_cases space : Answered (inputs.sizeQueries modchipPartitionIdxApps) ∧ SpaceFound config inputs copy.updateSize .fw
      · apply Or.inl
        apply safe ⟨copy.memory, copy.updateSize⟩
        rw [if_neg (not_not.mpr same)] at pins
        simp only [sceneTickHandlerUpdateChecking, opened, read, checkSpace_ok.mpr space, pins]
        rfl
      · exact .inr (.inr space)
    · exact .inr (.inl (fun other => same other.symm))
  · intro condition image passed
    obtain ⟨other, copied, again, reread, space, checked, _⟩ := checking_ok passed
    obtain rfl : file = other := Option.some.inj (opened.symm.trans again)
    obtain rfl : copy = copied := Except.ok.inj (read.symm.trans reread)
    rcases condition with same | other | refused
    · exact same
    · have accepted := checked rfl
      rw [pins, if_pos (Ne.symm other)] at accepted
      cases accepted
    · exact absurd (checkSpace_ok.mp space) refused

/-- The labels of eight data pins, and of one pin for each of the other roles. -/
def labels : List (List U8) := dataLabels ++ [ceLabel, oeLabel, rstLabel]

def pointerTo (offset : Nat) : List U8 := bytes32 (baseAddress + BitVec.ofNat 32 offset)

def pinEntry (index : Nat) : List U8 :=
  bytes16 picoSdk.typePinsWithName ++ bytes16 picoSdk.tagRaspberryPi ++ bytes32 (1 <<< index) ++ pointerTo (12 * index)

/-- An image of two pages: the labels, then the markers, an empty mapping table,
the pointers to the entries and the entries. -/
def pinImage : List U8 :=
  labels.flatMap (fun label => label ++ List.replicate (12 - label.length) 0) ++ List.replicate 124 0 ++
    bytes32 picoSdk.markerStart ++ pointerTo 280 ++ pointerTo 324 ++ pointerTo 276 ++ bytes32 picoSdk.markerEnd ++
    bytes32 0 ++ (List.range 11).flatMap (fun index => pointerTo (324 + 12 * index)) ++
    (List.range 11).flatMap pinEntry ++ List.replicate 56 0

def pinPages : List (List U8) := [pinImage.take 256, pinImage.drop 256]

theorem pinImage_length : pinImage.length = 512 := by decide +kernel

theorem pinPages_whole : ∀ page ∈ pinPages, page.length = 256 := by
  have first : (pinImage.take 256).length = 256 := by
    rw [List.length_take, pinImage_length]
    rfl
  have second : (pinImage.drop 256).length = 256 := by rw [List.length_drop, pinImage_length]
  exact List.forall_mem_cons.mpr ⟨first, List.forall_mem_singleton.mpr second⟩

def pinMasks : PinMasks := ⟨0xFF, 0x100, 0x200, 0x400⟩

theorem pinMasks_declared :
    pinConfigGetFromUpdate picoSdk (fun address => pinImage.getD address.toNat 0) .none = some pinMasks := by
  decide +kernel

theorem store_empty (src : List U8) : store (fun _ => 0) 0 src = fun position => src.getD position 0 := by
  funext position
  unfold store
  split
  · rfl
  next outside =>
    rw [List.getD_eq_getElem?_getD, List.getElem?_eq_none (by omega)]
    rfl

theorem pinPages_store : store (fun _ => 0) 0 pinPages.flatten = fun position => pinImage.getD position 0 := by
  have joined : pinPages.flatten = pinImage := by
    show pinImage.take 256 ++ (pinImage.drop 256 ++ []) = pinImage
    rw [List.append_nil, List.take_append_drop]
  rw [joined, store_empty]

/-- A modchip on which CE and OE are the other way round. -/
def swappedPins : CheckingInputs where
  file := some ⟨uf2File baseAddress pinPages, fun _ => true⟩
  malloc := fun _ => 0
  fwPartitionSize := 0
  updatePartitionSize := 0
  appsPartitionSize := 0
  sizeQueries := fun _ _ => .ok
  modchipPinConfig := fun pin =>
    if pin = modchipPinBootRomData then 0xFF
    else if pin = modchipPinBootRomCe then 0x200
    else if pin = modchipPinBootRomOe then 0x100
    else 0x400

theorem swappedPins_read :
    ∃ last, readUpdate ⟨uf2File baseAddress pinPages, fun _ => true⟩ swappedPins.malloc =
      .ok ⟨fun position => pinImage.getD position 0, 512, last⟩ := by
  obtain ⟨last, read⟩ := readUpdate_uf2File baseAddress swappedPins.malloc pinPages_whole (by decide)
  refine ⟨last, ?_⟩
  rw [read]
  show Except.ok (Copy.mk (store (fun _ => 0) 0 _) _ _) = _
  rw [pinPages_store]
  rfl

theorem pins_checked_swapped :
    ∃ copy, readUpdate ⟨uf2File baseAddress pinPages, fun _ => true⟩ swappedPins.malloc = .ok copy ∧
      ((∀ image, sceneTickHandlerUpdateChecking default picoSdk .fw swappedPins = some (.ok image) →
          pinMasks = pinConfigGetCurrent swappedPins.modchipPinConfig) ↔
        pinMasks = pinConfigGetCurrent swappedPins.modchipPinConfig ∨
          pinMasks.union ≠ (pinConfigGetCurrent swappedPins.modchipPinConfig).union ∨
          ¬ (Answered (swappedPins.sizeQueries modchipPartitionIdxApps) ∧
            SpaceFound default swappedPins copy.updateSize .fw)) := by
  obtain ⟨last, read⟩ := swappedPins_read
  exact ⟨_, read, pins_checked_iff default picoSdk swappedPins rfl read pinMasks_declared (by decide) (by decide)⟩

/-- An image that drives OE where the modchip has CE is let through. -/
theorem swapped_pins_pass :
    sceneTickHandlerUpdateChecking default picoSdk .fw swappedPins =
        some (.ok ⟨fun position => pinImage.getD position 0, 512⟩) ∧
      pinConfigGetFromUpdate picoSdk (fun address => pinImage.getD address.toNat 0) .none = some pinMasks ∧
      pinMasks.all ∧ (pinConfigGetCurrent swappedPins.modchipPinConfig).all ∧
      pinMasks ≠ pinConfigGetCurrent swappedPins.modchipPinConfig := by
  obtain ⟨last, read⟩ := swappedPins_read
  have space : checkSpace default .fw 512 swappedPins = .ok () := by decide
  have pins : checkPins picoSdk (fun position => pinImage.getD position 0) swappedPins = some (.ok ()) := by
    rw [checkPins, if_neg (by decide), pinMasks_declared]
    decide
  refine ⟨?_, pinMasks_declared, by decide, by decide, by decide⟩
  have opened : swappedPins.file = some ⟨uf2File baseAddress pinPages, fun _ => true⟩ := rfl
  simp only [sceneTickHandlerUpdateChecking, opened, read, space, pins]
  rfl

end Fruitchip.Menu
