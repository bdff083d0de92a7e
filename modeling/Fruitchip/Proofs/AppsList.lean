import Fruitchip.Proofs.AppsPartition
import Fruitchip.Proofs.MenuSteps

/-! The boot list from a well-formed index. A failure to read the attributes of
an app is tested for with a comparison that no unsigned number passes. -/

namespace Fruitchip.Menu
open Embedded Firmware Program

variable {menu : Program} {outcomes : Outcomes} {files : U8 → AttrFile} {file : AttrFile}

/-- The names of the apps, which fit the bytes for their number and lengths. -/
structure AppsIndex where
  names : List (List U8)
  few : names.length ≤ 255
  short : ∀ name ∈ names, name.length ≤ 255

def AppsIndex.bytes (index : AppsIndex) : List U8 :=
  BitVec.ofNat 8 index.names.length :: index.names.flatMap fun name => BitVec.ofNat 8 name.length :: name

def Program.AttrFile.Read (file : AttrFile) : Prop := 0 ≤ file.fd ∧ file.ret = 4

/-- OSDSYS and the apps in the order of the index, with what is read of their
attributes, and zero for those that cannot be read. -/
structure Listed (index : AppsIndex) (files : U8 → AttrFile) (result : Bool × Program) : Prop where
  returned : result.1 = true
  items : result.2.state.bootList.items = ⟨.static "OSDSYS"⟩ :: index.names.map fun name => ⟨.copied name⟩
  length : result.2.state.bootListAttr.length = result.2.state.bootList.items.length
  osdsys : result.2.state.bootListAttr[0]? = some (modchipAppsAttrDisableNextOsdsysHook ||| modchipAppsAttrOsdsys)
  read : ∀ place < index.names.length, (files (BitVec.ofNat 8 (place + 1))).Read →
    result.2.state.bootListAttr[place + 1]? = some (files (BitVec.ofNat 8 (place + 1))).attr
  failed : ∀ place < index.names.length, ¬ (files (BitVec.ofNat 8 (place + 1))).Read →
    result.2.state.bootListAttr[place + 1]? = some 0

/-- The index is read, and the attributes are those of the files. -/
def reading (outcomes : Outcomes) (index : AppsIndex) (rest : List U8) (files : U8 → AttrFile) : Outcomes :=
  { outcomes with
    appsReadIndex := some (index.bytes ++ rest)
    appReadAttributes := fun appIdx => appReadAttributes (files appIdx) }

theorem attributes_read (read : file.Read) : appReadAttributes file = file.attr := by
  rw [appReadAttributes, if_neg (Int.not_lt.mpr read.1), if_neg (not_not_intro read.2)]

theorem attributes_failed (failed : ¬ file.Read) : appReadAttributes file = -enoent ∨ appReadAttributes file = -eio := by
  rw [appReadAttributes]
  split
  · exact .inl rfl
  · split
    · exact .inr rfl
    next opened whole => exact absurd ⟨Int.not_lt.mp opened, not_not.mp whole⟩ failed

theorem populate_reading (menu : Program) (outcomes : Outcomes) (index : AppsIndex) (rest : List U8)
    (files : U8 → AttrFile) :
    let result := menu.appsListPopulate (reading outcomes index rest files)
    result.1 = true ∧
      result.2.state.bootList.items = ⟨.static "OSDSYS"⟩ :: index.names.map (fun name => ⟨.copied name⟩) ∧
      result.2.state.bootListAttr = (modchipAppsAttrDisableNextOsdsysHook ||| modchipAppsAttrOsdsys) ::
        (index.names.zipIdx 1).map fun app => appReadAttributes (files (BitVec.ofNat 8 app.2)) := by
  intro result
  have counted : (0 : U8).toNat + index.names.length = (BitVec.ofNat 8 index.names.length).toNat := by
    rw [toNat_ofNat_of_lt (Nat.lt_succ_of_le index.few)]
    exact Nat.zero_add _
  have parsed : AppsBuilder.appsListPopulate (index.bytes ++ rest) =
      (index.names.zipIdx 1).map fun app => (app.1, BitVec.ofNat 8 app.2) :=
    AppsBuilder.populate_names (fun name => name) index.names rest counted index.short
  obtain ⟨hiliteIdx, core, _⟩ := @appsListPopulate_core menu (reading outcomes index rest files)
  have known : populated (reading outcomes index rest files) =
      (⟨.static "OSDSYS"⟩, modchipAppsAttrDisableNextOsdsysHook ||| modchipAppsAttrOsdsys) ::
        (index.names.zipIdx 1).map fun app => (⟨.copied app.1⟩, appReadAttributes (files (BitVec.ofNat 8 app.2))) := by
    unfold populated reading
    dsimp only
    rw [parsed, List.map_map]
    rfl
  rw [known, List.map_cons, List.map_cons, List.map_map, List.map_map] at core
  refine ⟨?_, ?_, ?_⟩
  · show (menu.appsListPopulate (reading outcomes index rest files)).1 = true
    unfold appsListPopulate reading
    dsimp only
    split <;> rfl
  · have items := congrArg (fun core : Core => core.bootList.items) core
    have named : (index.names.zipIdx 1).map (fun app => (⟨.copied app.1⟩ : ListItem)) =
        index.names.map fun name => ⟨.copied name⟩ := by
      have names := congrArg (List.map fun name => (⟨.copied name⟩ : ListItem)) (List.zipIdx_map_fst 1 index.names)
      rw [List.map_map] at names
      exact names
    rw [← named]
    exact items
  · exact congrArg Core.bootListAttr core

theorem attributes_at (index : AppsIndex) (first : U32) (attributes : U8 → U32) {place : Nat}
    (inside : place < index.names.length) :
    (first :: (index.names.zipIdx 1).map fun app => attributes (BitVec.ofNat 8 app.2))[place + 1]? =
      some (attributes (BitVec.ofNat 8 (place + 1))) := by
  rw [List.getElem?_cons_succ, List.getElem?_map, List.getElem?_zipIdx, List.getElem?_eq_getElem inside]
  simp [Nat.add_comm]

/-- The boot list is as it should be exactly when the attributes of every app
can be read. -/
theorem apps_listed_iff (menu : Program) (outcomes : Outcomes) (index : AppsIndex) (rest : List U8)
    (files : U8 → AttrFile) :
    Listed index files (menu.appsListPopulate (reading outcomes index rest files)) ↔
      ∀ place < index.names.length, (files (BitVec.ofNat 8 (place + 1))).Read := by
  obtain ⟨returned, items, attributes⟩ := populate_reading menu outcomes index rest files
  have entry {place : Nat} (inside : place < index.names.length) :=
    attributes_at index (modchipAppsAttrDisableNextOsdsysHook ||| modchipAppsAttrOsdsys)
      (fun appIdx => appReadAttributes (files appIdx)) inside
  constructor
  · intro listed place inside
    by_contra failed
    have zero := listed.failed place inside failed
    rw [attributes, entry inside] at zero
    rcases attributes_failed failed with number | number
    · rw [number] at zero
      exact absurd (Option.some.inj zero) (by decide)
    · rw [number] at zero
      exact absurd (Option.some.inj zero) (by decide)
  · intro readable
    refine ⟨returned, items, ?_, ?_, ?_, ?_⟩
    · rw [attributes, items]
      simp
    · rw [attributes, List.getElem?_cons_zero]
    · intro place inside read
      rw [attributes, entry inside, attributes_read read]
    · intro place inside failed
      exact absurd (readable place inside) failed

def oneName : AppsIndex := ⟨[[0x41]], by decide, by decide⟩

def notFound (_ : U8) : AttrFile := ⟨-2, 0, 0⟩

/-- Such an app gets the error number for its attributes. -/
theorem missing_attributes_listed :
    let result := (powerUp (.filled 0) untouched).appsListPopulate (reading .plain oneName [] notFound)
    ¬ Listed oneName notFound result ∧ result.2.state.bootListAttr = [3, 0xFFFFFFFE] := by
  intro result
  have attributes : result.2.state.bootListAttr = [3, 0xFFFFFFFE] :=
    (populate_reading (powerUp (.filled 0) untouched) .plain oneName [] notFound).2.2
  refine ⟨?_, attributes⟩
  intro listed
  have zero := listed.failed 0 (by decide) (fun read => absurd read.1 (by decide))
  rw [attributes] at zero
  exact absurd (Option.some.inj zero) (by decide)

end Fruitchip.Menu
