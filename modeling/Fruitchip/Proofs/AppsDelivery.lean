import Fruitchip.Proofs.AppReads
import Fruitchip.Proofs.PowerCycles
import Fruitchip.Proofs.UpdateFile

/-! Applications from the builder to the console: they are packed into an image,
the menu takes the image from a UF2 file and writes it, the modchip starts again,
and the driver reads what was packed. -/

namespace Fruitchip
open Embedded Client Firmware Menu Bootloader

variable {config : Config} {world : World} {image : List U8} {update : Update} {base : U32} {inputs : CheckingInputs}

def pagesOf (image : List U8) : List (List U8) :=
  (List.range (image.length / 256)).map fun page => (image.drop (256 * page)).take 256

theorem pagesOf_whole (image : List U8) : ∀ page ∈ pagesOf image, page.length = 256 := by
  intro page member
  obtain ⟨index, inside, rfl⟩ := List.mem_map.mp member
  have before := List.mem_range.mp inside
  rw [List.length_take, List.length_drop]
  omega

theorem pages_front (image : List U8) (count : Nat) :
    ((List.range count).map fun page => (image.drop (256 * page)).take 256).flatten = image.take (256 * count) := by
  induction count with
  | zero => rfl
  | succ count ih =>
    rw [List.range_succ, List.map_append, List.flatten_append, ih, Nat.mul_succ, List.take_add,
      List.map_singleton, List.flatten_singleton]

theorem pagesOf_flatten (whole : image.length % 256 = 0) : (pagesOf image).flatten = image := by
  rw [pagesOf, pages_front]
  apply List.take_of_length_le
  omega

theorem checked_image {info : BinaryInfo} {updateType : UpdateType} (whole : image.length % 256 = 0)
    (short : 2 * image.length < 2 ^ 32) (file : inputs.file = some ⟨uf2File base (pagesOf image), fun _ => true⟩)
    (checked : sceneTickHandlerUpdateChecking config info updateType inputs = some (.ok update)) :
    update.size.toNat = image.length ∧ ∀ index (inside : index < image.length), update.byte index = image[index] := by
  have count : (pagesOf image).length = image.length / 256 := by rw [pagesOf, List.length_map, List.length_range]
  obtain ⟨other, copy, again, read, _, _, rfl⟩ := checking_ok checked
  obtain rfl := Option.some.inj (file.symm.trans again)
  obtain ⟨last, taken⟩ := readUpdate_uf2File base inputs.malloc (pagesOf_whole image) (by omega)
  obtain rfl := Except.ok.inj (taken.symm.trans read)
  rw [count, pagesOf_flatten whole]
  refine ⟨?_, fun index inside => ?_⟩
  · show (BitVec.ofNat 32 (256 * (image.length / 256))).toNat = image.length
    rw [toNat_ofNat_of_lt (by omega)]
    omega
  · show store inputs.malloc 0 image index = image[index]
    have byte := @store_inside inputs.malloc 0 index image inside
    rw [Nat.zero_add] at byte
    rw [byte, List.getD_eq_getElem?_getD, List.getElem?_eq_getElem inside, Option.getD_some]

theorem apps_apart {address : Nat} (apps : appsPartitionOffset ≤ address) :
    ¬ InSettings address ∧ ¬ (fwPartitionOffset ≤ address ∧ address < fwPartitionOffset + fwPartitionSizeBytes) := by
  have settings : settingsPartitionOffset + wearLevelingBackingSize = appsPartitionOffset := rfl
  have fw : fwPartitionOffset + fwPartitionSizeBytes ≤ appsPartitionOffset := by decide
  exact ⟨fun inside => absurd inside.2 (by omega), fun inside => absurd inside.2 (by omega)⟩

/-- The bootloader leaves the applications alone. -/
theorem Boots.apps {flash : Flash} {scratch0 : U32} {ops : List FlashOp} (boots : Boots flash scratch0 ops world)
    {address : Nat} (apps : appsPartitionOffset ≤ address) : world.flash address = flash address := by
  obtain ⟨settings, fw⟩ := apps_apart apps
  rw [boots.apart address settings]
  exact applyAll_outside fun op member covered => fw (main_covers member covered)

theorem image_placed {flash : Flash} (short : image.length ≤ 2 ^ 28)
    (bytes : ∀ index (inside : index < image.length), flash (appsPartitionOffset + index) = image[index]) :
    AppsBuilder.Placed flash image := by
  have limit : appsPartitionOffset + 2 ^ 28 < 2 ^ 32 := by decide
  apply List.ext_getElem
  · rw [xipBytes, List.length_map, List.length_range]
  · intro index low inside
    simp only [xipBytes, List.getElem_map, List.getElem_range, xipByte]
    rw [← bytes index inside]
    congr 1
    rw [appsPartitionAddr, BitVec.add_assoc, BitVec.add_comm xipBase, BitVec.add_sub_cancel, ← BitVec.ofNat_add,
      toNat_ofNat_of_lt (by omega)]

namespace AppsBuilder

theorem built_image {apps : List App} (packable : Packable apps) (built : AppsBuilder.main apps = some image) :
    image = imageOf (entriesOf apps) ∧ image.length % 4096 = 0 ∧ 0 < image.length := by
  obtain rfl := Option.some.inj (built.symm.trans (main_some packable))
  have first := startOf_aligned (entriesOf apps).length
  have second := offset_aligned (entriesOf apps).length (Nat.le_refl _)
  rw [Blocks.offset_length] at second
  unfold sectorSize at first second
  refine ⟨rfl, ?_, ?_⟩
  · rw [imageOf_length]
    omega
  · rw [imageOf_length, startOf, headLength]
    omega

end AppsBuilder

namespace Device

variable {first : Flash} {apps : List AppsBuilder.App}

/-- Applications that were packed are what the driver reads once their image has
been installed from a file, whatever becomes of the frames of the driver. -/
theorem apps_delivered (φ : Type) [DecidableEq φ] (config : Config) (info : BinaryInfo) (valid : isFwValid first = true)
    (erased : ∀ address < settingsPartitionSizeBytes, first (settingsPartitionOffset + address) = 0xFF)
    {steps : List Step} (plain : ∀ step ∈ steps, step.Plain)
    (careful : Along (Device.run config) (fun device step => ¬ device.Tears step) (.reset first 0) steps)
    (reached : runs config (.reset first 0) steps = some (.running world)) (packable : AppsBuilder.Packable apps)
    (built : AppsBuilder.main apps = some image) (fits : image.length < appsPartitionSizeBytes config.flashSize)
    (file : inputs.file = some ⟨uf2File base (pagesOf image), fun _ => true⟩)
    (checked : sceneTickHandlerUpdateChecking config info .apps inputs = some (.ok update))
    {deliveries : List Delivery} (lossless : Lossless (image.length / 4096 + 5) deliveries) :
    ∃ next, runs config (.running world) [.install .apps update deliveries, .boot] = some (.running next) ∧
      Fwfs.Readable φ config apps next ∧ AppsBuilder.appsListPopulate (Fwfs.contents apps 0) =
        (apps.zipIdx 1).map fun (app, appIdx) => (AppsBuilder.ascii app.name, BitVec.ofNat 8 appIdx) := by
  obtain ⟨last, ran, sound⟩ := Sound.runs (sound_reset valid erased) (known_sent plain) careful
  obtain rfl : Device.running world = last := Option.some.inj (reached.symm.trans ran)
  obtain ⟨running, awake⟩ := sound
  obtain ⟨rfl, whole, positive⟩ := AppsBuilder.built_image packable built
  have limit : appsPartitionSizeBytes config.flashSize ≤ 2 ^ 28 := by cases config.flashSize <;> decide
  obtain ⟨size, bytes⟩ := checked_image (by omega) (by omega) file checked
  rw [← size] at whole positive fits lossless
  obtain ⟨rebooting, written⟩ := @installUpdate_apps config update world deliveries whole positive fits lossless
  have installed := @Running.install _ _ config update world running awake .apps deliveries nofun
  obtain ⟨ops, next, starts, _⟩ := installed.resting.boot
  have ran : Device.run config (.running world) (.install .apps update deliveries) =
      some (.reset (installUpdate config .apps update ⟨world, deliveries, []⟩).world.flash
        (installUpdate config .apps update ⟨world, deliveries, []⟩).world.scratch0) := by
    rw [Device.run, Device.ofWorld, if_pos rebooting]
  have placed : AppsBuilder.Placed next.flash (AppsBuilder.imageOf (AppsBuilder.entriesOf apps)) := by
    refine image_placed (by omega) fun index inside => ?_
    rw [starts.apps (Nat.le_add_right _ _), written index (by omega), bytes index inside]
  exact ⟨next, (runs_cons ran).trans (runs_cons starts.run), Fwfs.readable packable placed, Fwfs.index_names packable⟩

def oneAppImage : List U8 := AppsBuilder.imageOf (AppsBuilder.entriesOf AppsBuilder.oneApp)

def oneAppFile : CheckingInputs := fileOf 0x1014e000 (pagesOf oneAppImage)

def oneAppUpdate : Update := ⟨store (fun _ => 0) 0 (pagesOf oneAppImage).flatten, 12288⟩

theorem oneApp_packable : AppsBuilder.Packable AppsBuilder.oneApp ∧ oneAppImage.length = 12288 := by
  have size : AppsBuilder.imageSize AppsBuilder.oneApp = 12288 := by
    simp [AppsBuilder.oneApp, AppsBuilder.imageSize, AppsBuilder.entriesOf, AppsBuilder.entryBytes_length,
      AppsBuilder.startOf, AppsBuilder.headLength, AppsBuilder.calculatePaddingForLen, AppsBuilder.indexData,
      AppsBuilder.ascii, AppsBuilder.sectorSize]
  refine ⟨⟨by decide, by simp [AppsBuilder.oneApp], by decide, by decide, ?_⟩, ?_⟩
  · rw [size]
    decide
  · rw [oneAppImage, AppsBuilder.imageOf_length]
    exact size

theorem oneApp_checked :
    sceneTickHandlerUpdateChecking default picoSdk .apps oneAppFile = some (.ok oneAppUpdate) := by
  have count : (pagesOf oneAppImage).length = 48 := by
    rw [pagesOf, List.length_map, List.length_range, oneApp_packable.2]
  have checked := @uf2File_checked oneAppFile default picoSdk .apps 0x1014e000 (pagesOf oneAppImage)
    (pagesOf_whole oneAppImage) (by rw [count]; decide) rfl
  rw [count] at checked
  exact checked rfl nofun

theorem apps_delivered_one_app :
    ∃ world next, runs default (.reset tornFlash 0) [.boot] = some (.running world) ∧
      runs default (.running world) [.install .apps oneAppUpdate (lossless 8), .boot] = some (.running next) ∧
      Fwfs.Readable Unit default AppsBuilder.oneApp next ∧
      AppsBuilder.appsListPopulate (Fwfs.contents AppsBuilder.oneApp 0) =
        (AppsBuilder.oneApp.zipIdx 1).map fun (app, appIdx) => (AppsBuilder.ascii app.name, BitVec.ofNat 8 appIdx) := by
  obtain ⟨world, booted, _⟩ := (@sound_reset tornFlash (fun _ => False) tornFlash_firmware tornFlash_erased).restarts default
  have reached : runs default (.reset tornFlash 0) [.boot] = some (.running world) := runs_cons booted
  obtain ⟨packable, length⟩ := oneApp_packable
  have enough : Lossless (oneAppImage.length / 4096 + 5) (lossless 8) := by
    rw [length]
    exact lossless_replicate 8
  obtain ⟨next, delivered⟩ := @apps_delivered world oneAppImage oneAppUpdate 0x1014e000 oneAppFile tornFlash
    AppsBuilder.oneApp Unit _ default picoSdk tornFlash_firmware tornFlash_erased [.boot]
    (List.forall_mem_singleton.mpr trivial) (along_untorn (by simp)) reached packable (AppsBuilder.main_some packable)
    (by rw [length]; decide) rfl oneApp_checked (lossless 8) enough
  exact ⟨world, next, reached, delivered⟩

end Device

end Fruitchip
