import Fruitchip.Library.Programs
import Fruitchip.Menu.PinConfigBuffer
import Fruitchip.Proofs.UpdateChecks

/-! Which update images can be inspected. Every pointer in an image is followed
without a test, so all of them have to lead into the image. -/

namespace Fruitchip.Menu
open Embedded Client Firmware

variable {info : BinaryInfo} {buffer : Buffer} {address mappingTable addr label : U32}

namespace Buffer

/-- The string is compared with a name up to the first difference, and everything
up to there lies inside. -/
def Compared (buffer : Buffer) (address : U32) (name : List U8) : Prop :=
  ∀ place ≤ name.length,
    (∀ before < place, name[before]? = some (buffer.memory (address + BitVec.ofNat 32 before))) →
      buffer.Holds (address + BitVec.ofNat 32 place) 1

/-- The table from `row` on ends, and maps the address. -/
inductive Maps (buffer : Buffer) (addr : U32) : U32 → U32 → Prop
  | last {row : U32} (inside : buffer.Holds row 4) (zero : buffer.memory.word row = 0) : Maps buffer addr row addr
  | here {row : U32} (inside : buffer.Holds row 4 ∧ buffer.Holds (row + 4) 4 ∧ buffer.Holds (row + 8) 4)
    (nonzero : buffer.memory.word row ≠ 0)
    (covers : buffer.memory.word (row + 4) ≤ addr ∧ addr ≤ buffer.memory.word (row + 8)) :
    Maps buffer addr row (buffer.memory.word row + addr - buffer.memory.word (row + 4))
  | later {row label : U32} (inside : buffer.Holds row 4 ∧ buffer.Holds (row + 4) 4 ∧ buffer.Holds (row + 8) 4)
    (nonzero : buffer.memory.word row ≠ 0)
    (misses : ¬ (buffer.memory.word (row + 4) ≤ addr ∧ addr ≤ buffer.memory.word (row + 8)))
    (rest : Maps buffer addr (row + 12) label) : Maps buffer addr row label

/-- The name of a pin with its terminator, and the mask next to it. -/
def LabelInside (buffer : Buffer) (label pinMask : U32) (name : List U8) : Prop :=
  buffer.Compared label name ∧ (buffer.memory.equals label name = true → buffer.Holds pinMask 4)

def names : List (List U8) := dataLabels ++ [ceLabel, oeLabel, rstLabel]

/-- The entry that a pointer leads to. -/
def entryAt (buffer : Buffer) (entriesStart : U32) (i : Nat) : U32 :=
  convertRamAddress (buffer.memory.word (convertRamAddress (entriesStart + BitVec.ofNat 32 (4 * i))))

def Tagged (info : BinaryInfo) (buffer : Buffer) (entry : U32) : Prop :=
  buffer.memory.halfword (entry + info.tagOffset) = info.tagRaspberryPi

/-- The entry describes pins. -/
def Pins (info : BinaryInfo) (buffer : Buffer) (entry : U32) : Prop :=
  Tagged info buffer entry ∧ buffer.memory.halfword (entry + info.typeOffset) = info.typePinsWithName

/-- The pointer to an entry, as much of the entry as is read, and what it points to. -/
structure EntryInside (info : BinaryInfo) (buffer : Buffer) (entriesStart mappingTable : U32) (i : Nat) : Prop where
  pointer : buffer.Holds (convertRamAddress (entriesStart + BitVec.ofNat 32 (4 * i))) 4
  tag : buffer.Holds (buffer.entryAt entriesStart i + info.tagOffset) 2
  type : Tagged info buffer (buffer.entryAt entriesStart i) → buffer.Holds (buffer.entryAt entriesStart i + info.typeOffset) 2
  label : Pins info buffer (buffer.entryAt entriesStart i) →
    buffer.Holds (buffer.entryAt entriesStart i + info.labelOffset) 4
  names : Pins info buffer (buffer.entryAt entriesStart i) →
    ∃ label, buffer.Maps (buffer.memory.word (buffer.entryAt entriesStart i + info.labelOffset)) mappingTable label ∧
      ∀ name ∈ names, buffer.LabelInside (convertRamAddress label) (buffer.entryAt entriesStart i + info.pinMaskOffset) name

end Buffer

namespace Buffer

theorem ends_load {α : Type} (count : Nat) (value : α) (wanted : α → Prop) :
    Ends (buffer.load address count value) wanted ↔ buffer.Holds address count ∧ wanted value := by
  unfold load
  split
  next inside =>
    constructor
    · intro ends
      obtain ⟨result, same, holds⟩ := ends
      cases same
      exact ⟨inside, holds⟩
    · exact fun holds => ⟨value, rfl, holds.2⟩
  next outside => exact ⟨fun ends => absurd ends (Ends.error _ _), fun holds => absurd holds.1 outside⟩

theorem compared_nil : buffer.Compared address [] ↔ buffer.Holds address 1 := by
  constructor
  · intro compared
    have first := compared 0 (Nat.le_refl 0) (fun _ before => absurd before (Nat.not_lt_zero _))
    rw [BitVec.add_zero] at first
    exact first
  · intro inside place none _
    obtain rfl : place = 0 := Nat.le_zero.mp none
    rw [BitVec.add_zero]
    exact inside

theorem compared_cons {byte : U8} {rest : List U8} :
    buffer.Compared address (byte :: rest) ↔
      buffer.Holds address 1 ∧ (buffer.memory address = byte → buffer.Compared (address + 1) rest) := by
  have next (place : Nat) : address + BitVec.ofNat 32 (place + 1) = address + 1 + BitVec.ofNat 32 place := by
    rw [BitVec.add_assoc, Nat.add_comm, BitVec.ofNat_add]
    rfl
  have first : address + BitVec.ofNat 32 0 = address := BitVec.add_zero address
  constructor
  · intro compared
    constructor
    · have here := compared 0 (Nat.zero_le _) (fun _ before => absurd before (Nat.not_lt_zero _))
      rw [first] at here
      exact here
    · intro same place inside equal
      have there := compared (place + 1) (Nat.succ_le_succ inside) ?_
      · rw [next] at there
        exact there
      · intro before below
        cases before with
        | zero => rw [first, same, List.getElem?_cons_zero]
        | succ before =>
          rw [next, List.getElem?_cons_succ]
          exact equal before (Nat.lt_of_succ_lt_succ below)
  · intro needs place inside equal
    obtain ⟨here, there⟩ := needs
    cases place with
    | zero =>
      rw [first]
      exact here
    | succ place =>
      rw [next]
      have same := equal 0 (Nat.zero_lt_succ place)
      rw [first, List.getElem?_cons_zero] at same
      apply there (Option.some.inj same).symm place (Nat.le_of_succ_le_succ inside)
      intro before below
      have found := equal (before + 1) (Nat.succ_lt_succ below)
      rw [next, List.getElem?_cons_succ] at found
      exact found

theorem ends_equals (address : U32) (name : List U8) (wanted : Bool → Prop) :
    Ends (buffer.equals address name) wanted ↔
      buffer.Compared address name ∧ wanted (buffer.memory.equals address name) := by
  induction name generalizing address with
  | nil =>
    rw [equals, Ends.bind, byte, ends_load, Ends.pure, compared_nil, Memory.equals]
  | cons byte rest ih =>
    rw [equals, Ends.bind, Buffer.byte, ends_load, Ends.ite, compared_cons, Memory.equals]
    by_cases same : buffer.memory address = byte
    · rw [if_pos same, ih, decide_eq_true same, Bool.true_and]
      simp only [same, true_imp_iff, and_assoc]
    · rw [if_neg same, Ends.pure, decide_eq_false same, Bool.false_and]
      simp only [same, false_imp_iff, and_true]

theorem row_next (mappingTable i : U32) :
    mappingTable + 4 * (i + 1) = mappingTable + 4 * i + 4 ∧ mappingTable + 4 * (i + 2) = mappingTable + 4 * i + 8 ∧
      mappingTable + 4 * (i + 3) = mappingTable + 4 * i + 12 := by
  have moved (step : U32) : mappingTable + 4 * (i + step) = mappingTable + 4 * i + 4 * step := by
    rw [BitVec.mul_add, BitVec.add_assoc]
  exact ⟨moved 1, moved 2, moved 3⟩

theorem walk_maps {steps : Nat} {i : U32} {wanted : U32 → Prop}
    (ends : Ends (buffer.mapAddressFrom mappingTable addr steps i) wanted) :
    ∃ label, buffer.Maps addr (mappingTable + 4 * i) label ∧
      Menu.mapAddressFrom buffer.memory mappingTable addr steps i = some label ∧ wanted label := by
  induction steps generalizing i with
  | zero => exact absurd ends (Ends.error _ _)
  | succ steps ih =>
    obtain ⟨second, third, next⟩ := row_next mappingTable i
    rw [mapAddressFrom, Ends.bind, word, ends_load, Ends.ite] at ends
    obtain ⟨source, ends⟩ := ends
    rw [Menu.mapAddressFrom]
    by_cases zero : buffer.memory.word (mappingTable + 4 * i) = 0
    · rw [if_pos zero, Ends.pure] at ends
      exact ⟨addr, .last source zero, if_pos zero, ends⟩
    · rw [if_neg zero, Ends.bind, word, ends_load, Ends.bind, word, ends_load, Ends.ite] at ends
      obtain ⟨first, last, ends⟩ := ends
      rw [second] at first
      rw [third] at last
      rw [second, third] at ends
      dsimp only
      rw [if_neg zero, second, third]
      by_cases covers : buffer.memory.word (mappingTable + 4 * i + 4) ≤ addr ∧
          addr ≤ buffer.memory.word (mappingTable + 4 * i + 8)
      · rw [if_pos covers, Ends.pure] at ends
        exact ⟨_, .here ⟨source, first, last⟩ zero covers, if_pos covers, ends⟩
      · rw [if_neg covers] at ends
        obtain ⟨label, maps, found, holds⟩ := ih ends
        rw [next] at maps
        exact ⟨label, .later ⟨source, first, last⟩ zero covers maps, (if_neg covers).trans found, holds⟩

/-- As long as it stays inside, the walk gets closer to the end of the buffer. -/
theorem maps_walk {row : U32} {wanted : U32 → Prop} (maps : buffer.Maps addr row label) (holds : wanted label)
    {steps : Nat} {i : U32} (placed : mappingTable + 4 * i = row)
    (enough : buffer.size.toNat < row.toNat + 12 * steps) :
    Ends (buffer.mapAddressFrom mappingTable addr steps i) wanted := by
  obtain ⟨second, third, next⟩ := row_next mappingTable i
  rw [placed] at second third next
  induction maps generalizing steps i with
  | @last row inside zero =>
    obtain ⟨fewer, rfl⟩ : ∃ fewer, steps = fewer + 1 := ⟨steps - 1, by unfold Holds at inside; omega⟩
    rw [mapAddressFrom, Ends.bind, word, ends_load, placed, Ends.ite, if_pos zero, Ends.pure]
    exact ⟨inside, holds⟩
  | @here row inside nonzero covers =>
    obtain ⟨source, first, last⟩ := inside
    obtain ⟨fewer, rfl⟩ : ∃ fewer, steps = fewer + 1 := ⟨steps - 1, by unfold Holds at source; omega⟩
    rw [mapAddressFrom, Ends.bind, word, ends_load, placed, Ends.ite, if_neg nonzero, Ends.bind, word, ends_load, Ends.bind,
      word, ends_load, second, third, Ends.ite, if_pos covers, Ends.pure]
    exact ⟨source, first, last, holds⟩
  | @later row label inside nonzero misses rest ih =>
    obtain ⟨source, first, last⟩ := inside
    obtain ⟨fewer, rfl⟩ : ∃ fewer, steps = fewer + 1 := ⟨steps - 1, by unfold Holds at source; omega⟩
    rw [mapAddressFrom, Ends.bind, word, ends_load, placed, Ends.ite, if_neg nonzero, Ends.bind, word, ends_load, Ends.bind,
      word, ends_load, second, third, Ends.ite, if_neg misses]
    refine ⟨source, first, last, ?_⟩
    have fits := buffer.size.isLt
    have behind : (row + 12).toNat = row.toNat + 12 := by
      unfold Holds at source first last
      bv_omega
    obtain ⟨second, third, later⟩ := row_next mappingTable (i + 3)
    rw [next] at second third later
    exact ih holds next (by rw [behind]; omega) second third later

theorem ends_mapAddress (wanted : U32 → Prop) :
    Ends (buffer.binaryInfoMapAddress mappingTable addr) wanted ↔
      ∃ label, buffer.Maps addr mappingTable label ∧ wanted label := by
  have start : mappingTable + 4 * (0 : U32) = mappingTable := BitVec.add_zero mappingTable
  constructor
  · intro ends
    obtain ⟨label, maps, _, holds⟩ := walk_maps ends
    rw [start] at maps
    exact ⟨label, maps, holds⟩
  · intro found
    obtain ⟨label, maps, holds⟩ := found
    have fits := buffer.size.isLt
    exact maps_walk maps holds start (by omega)

theorem Maps.found (maps : buffer.Maps addr mappingTable label) :
    Menu.binaryInfoMapAddress buffer.memory mappingTable addr = some label := by
  have ends := (ends_mapAddress fun found => found = label).mpr ⟨label, maps, rfl⟩
  obtain ⟨_, _, found, rfl⟩ := walk_maps ends
  exact found

def joined (buffer : Buffer) (label pinMask : U32) (mask : U32) (name : List U8) : U32 :=
  if buffer.memory.equals label name then mask ||| buffer.memory.word pinMask else mask

theorem ends_addPins (label pinMask mask : U32) (name : List U8) (wanted : U32 → Prop) :
    Ends (buffer.addPins label pinMask mask name) wanted ↔
      buffer.LabelInside label pinMask name ∧ wanted (buffer.joined label pinMask mask name) := by
  rw [addPins, Ends.bind, ends_equals, Ends.ite, LabelInside, joined]
  by_cases same : buffer.memory.equals label name = true
  · rw [if_pos same, if_pos same, Ends.bind, word, ends_load, Ends.pure]
    simp only [same, true_imp_iff, and_assoc]
  · rw [if_neg same, if_neg same, Ends.pure]
    simp only [same, Bool.false_eq_true, false_imp_iff, and_true]

theorem joined_any (label pinMask mask : U32) (names : List (List U8)) :
    names.foldl (buffer.joined label pinMask) mask =
      if names.any (buffer.memory.equals label) then mask ||| buffer.memory.word pinMask else mask := by
  induction names generalizing mask with
  | nil => rfl
  | cons name rest ih =>
    rw [List.foldl_cons, ih, joined, List.any_cons]
    by_cases same : buffer.memory.equals label name = true
    · rw [if_pos same, same, Bool.true_or, if_pos rfl, BitVec.or_assoc, BitVec.or_self, ite_self]
    · rw [if_neg same, Bool.eq_false_iff.mpr same, Bool.false_or]

theorem ends_addLabel (masks : PinMasks) (label pinMask : U32) (wanted : PinMasks → Prop) :
    Ends (buffer.addLabel masks label pinMask) wanted ↔
      (∀ name ∈ names, buffer.LabelInside label pinMask name) ∧
        wanted (masks.add buffer.memory label (buffer.memory.word pinMask)) := by
  have added : masks.add buffer.memory label (buffer.memory.word pinMask) =
      ⟨dataLabels.foldl (buffer.joined label pinMask) masks.data, buffer.joined label pinMask masks.ce ceLabel,
        buffer.joined label pinMask masks.oe oeLabel, buffer.joined label pinMask masks.rst rstLabel⟩ := by
    rw [joined_any]
    rfl
  rw [addLabel, Ends.bind, Ends.foldlM fun mask name wanted => ends_addPins label pinMask mask name wanted, Ends.bind,
    ends_addPins, Ends.bind, ends_addPins, Ends.bind, ends_addPins, Ends.pure, added, names, List.forall_mem_append,
    List.forall_mem_cons, List.forall_mem_cons, List.forall_mem_singleton]
  simp only [and_assoc]

def entryMasks (info : BinaryInfo) (buffer : Buffer) (entriesStart mappingTable : U32) (masks : PinMasks) (i : Nat) :
    PinMasks :=
  (Menu.pinConfigEntry info buffer.memory entriesStart mappingTable masks i).getD masks

theorem ends_pinConfigEntry (entriesStart mappingTable : U32) (masks : PinMasks) (i : Nat) (wanted : PinMasks → Prop) :
    Ends (buffer.pinConfigEntry info entriesStart mappingTable masks i) wanted ↔
      EntryInside info buffer entriesStart mappingTable i ∧
        wanted (entryMasks info buffer entriesStart mappingTable masks i) := by
  have plain {entry : U32} (same : buffer.entryAt entriesStart i = entry) : convertRamAddress (buffer.memory.word
      (convertRamAddress (entriesStart + BitVec.ofNat 32 (4 * i)))) = entry := same
  rw [Buffer.pinConfigEntry, Ends.bind, word, ends_load, Ends.bind, halfword, ends_load, Ends.ite, entryMasks,
    Menu.pinConfigEntry]
  generalize known : buffer.entryAt entriesStart i = entry
  rw [plain known]
  by_cases tagged : buffer.memory.halfword (entry + info.tagOffset) = info.tagRaspberryPi
  · rw [if_neg (not_not_intro tagged), if_neg (not_not_intro tagged), Ends.bind, halfword, ends_load, Ends.ite]
    by_cases pins : buffer.memory.halfword (entry + info.typeOffset) = info.typePinsWithName
    · rw [if_neg (not_not_intro pins), if_neg (not_not_intro pins), Ends.bind, word, ends_load, Ends.bind, ends_mapAddress]
      constructor
      · intro ends
        obtain ⟨pointer, tag, type, field, label, maps, ends⟩ := ends
        obtain ⟨inside, holds⟩ := (ends_addLabel masks _ _ _).mp ends
        rw [maps.found]
        subst known
        exact ⟨⟨pointer, tag, fun _ => type, fun _ => field, fun _ => ⟨label, maps, inside⟩⟩, holds⟩
      · intro needs
        obtain ⟨⟨pointer, tag, type, field, reads⟩, holds⟩ := needs
        rw [known] at tag type field reads
        obtain ⟨label, maps, inside⟩ := reads ⟨tagged, pins⟩
        rw [maps.found] at holds
        exact ⟨pointer, tag, type tagged, field ⟨tagged, pins⟩, label, maps, (ends_addLabel masks _ _ _).mpr ⟨inside, holds⟩⟩
    · rw [if_pos pins, if_pos pins, Ends.pure]
      subst known
      constructor
      · intro ends
        obtain ⟨pointer, tag, type, holds⟩ := ends
        exact ⟨⟨pointer, tag, fun _ => type, fun other => absurd other.2 pins, fun other => absurd other.2 pins⟩, holds⟩
      · exact fun needs => ⟨needs.1.pointer, needs.1.tag, needs.1.type tagged, needs.2⟩
  · rw [if_pos tagged, if_pos tagged, Ends.pure]
    subst known
    constructor
    · intro ends
      obtain ⟨pointer, tag, holds⟩ := ends
      exact ⟨⟨pointer, tag, fun other => absurd other tagged, fun other => absurd other.1 tagged,
        fun other => absurd other.1 tagged⟩, holds⟩
    · exact fun needs => ⟨needs.1.pointer, needs.1.tag, needs.2⟩

theorem EntryInside.found {entriesStart : U32} {i : Nat} (inside : EntryInside info buffer entriesStart mappingTable i)
    (masks : PinMasks) : Menu.pinConfigEntry info buffer.memory entriesStart mappingTable masks i =
      some (entryMasks info buffer entriesStart mappingTable masks i) := by
  have some : (Menu.pinConfigEntry info buffer.memory entriesStart mappingTable masks i).isSome := by
    rw [Menu.pinConfigEntry]
    split
    · rfl
    · split
      · rfl
      next tagged pins =>
        obtain ⟨label, maps, _⟩ := inside.names ⟨not_not.mp tagged, not_not.mp pins⟩
        have found := maps.found
        unfold entryAt at found
        rw [found]
        rfl
  obtain ⟨next, found⟩ := Option.isSome_iff_exists.mp some
  rw [entryMasks, found]
  rfl

theorem foldlM_found {entriesStart : U32} (places : List Nat) (masks : PinMasks)
    (inside : ∀ i ∈ places, EntryInside info buffer entriesStart mappingTable i) :
    places.foldlM (Menu.pinConfigEntry info buffer.memory entriesStart mappingTable) masks =
      some (places.foldl (entryMasks info buffer entriesStart mappingTable) masks) := by
  induction places generalizing masks with
  | nil => rfl
  | cons place rest ih =>
    obtain ⟨here, others⟩ := List.forall_mem_cons.mp inside
    rw [List.foldlM_cons, here.found, List.foldl_cons]
    exact ih _ others

def markerAt (i : Nat) : U32 := boot2Size + BitVec.ofNat 32 (4 * i)

def Marked (info : BinaryInfo) (buffer : Buffer) (marker : U32) : Prop :=
  buffer.memory.word marker = info.markerStart ∧ buffer.memory.word (marker + 16) = info.markerEnd

instance (marker : U32) : Decidable (Marked info buffer marker) := inferInstanceAs (Decidable (_ ∧ _))

/-- The word that may be a marker and, if it is one, the other marker. -/
def MarkerInside (info : BinaryInfo) (buffer : Buffer) (marker : U32) : Prop :=
  buffer.Holds marker 4 ∧ (buffer.memory.word marker = info.markerStart → buffer.Holds (marker + 16) 4)

def ScanInside (info : BinaryInfo) (buffer : Buffer) (i steps : Nat) : Prop :=
  ∀ j, i ≤ j → j < i + steps → (∀ k, i ≤ k → k < j → ¬ Marked info buffer (markerAt k)) →
    MarkerInside info buffer (markerAt j)

theorem scan_step {i steps : Nat} :
    ScanInside info buffer i (steps + 1) ↔ MarkerInside info buffer (markerAt i) ∧
      (¬ Marked info buffer (markerAt i) → ScanInside info buffer (i + 1) steps) := by
  constructor
  · intro scan
    refine ⟨scan i (Nat.le_refl i) (by omega) (fun k later before => by omega), ?_⟩
    intro unmarked j later before none
    apply scan j (by omega) (by omega)
    intro k from_ below
    rcases Nat.eq_or_lt_of_le from_ with rfl | beyond
    · exact unmarked
    · exact none k beyond below
  · intro needs j from_ before none
    obtain ⟨here, others⟩ := needs
    rcases Nat.eq_or_lt_of_le from_ with rfl | beyond
    · exact here
    · apply others (none i (Nat.le_refl i) beyond) j beyond (by omega)
      exact fun k later below => none k (by omega) below

theorem ends_findMarkerFrom (steps i : Nat) (wanted : Option U32 → Prop) :
    Ends (buffer.findMarkerFrom info steps (BitVec.ofNat 32 (4 * i))) wanted ↔
      ScanInside info buffer i steps ∧
        wanted (((List.range' i steps).map markerAt).find? fun marker => Marked info buffer marker) := by
  induction steps generalizing i with
  | zero =>
    rw [findMarkerFrom, Ends.pure]
    constructor
    · exact fun holds => ⟨fun j later before => by omega, holds⟩
    · exact And.right
  | succ steps ih =>
    have next : BitVec.ofNat 32 (4 * i) + 4 = BitVec.ofNat 32 (4 * (i + 1)) := (BitVec.ofNat_add _ _).symm
    rw [scan_step, findMarkerFrom, Ends.bind, word, ends_load, Ends.ite, List.range'_succ, List.map_cons, List.find?_cons,
      next, ih]
    show (buffer.Holds (markerAt i) 4 ∧ if buffer.memory.word (markerAt i) ≠ info.markerStart then _ else _) ↔ _
    by_cases first : buffer.memory.word (markerAt i) = info.markerStart
    · rw [if_neg (not_not_intro first), Ends.bind, word, ends_load, Ends.ite, ih, Ends.pure]
      show (buffer.Holds (markerAt i) 4 ∧ buffer.Holds (markerAt i + 16) 4 ∧
        if buffer.memory.word (markerAt i + 16) ≠ info.markerEnd then _ else wanted (some (markerAt i))) ↔ _
      by_cases last : buffer.memory.word (markerAt i + 16) = info.markerEnd
      · have marked : Marked info buffer (markerAt i) := ⟨first, last⟩
        rw [if_neg (not_not_intro last), decide_eq_true marked]
        constructor
        · exact fun needs => ⟨⟨⟨needs.1, fun _ => needs.2.1⟩, fun unmarked => absurd marked unmarked⟩, needs.2.2⟩
        · exact fun needs => ⟨needs.1.1.1, needs.1.1.2 first, needs.2⟩
      · have unmarked : ¬ Marked info buffer (markerAt i) := fun marked => last marked.2
        rw [if_pos last, decide_eq_false unmarked]
        constructor
        · exact fun needs => ⟨⟨⟨needs.1, fun _ => needs.2.1⟩, fun _ => needs.2.2.1⟩, needs.2.2.2⟩
        · exact fun needs => ⟨needs.1.1.1, needs.1.1.2 first, needs.1.2 unmarked, needs.2⟩
    · have unmarked : ¬ Marked info buffer (markerAt i) := fun marked => first marked.1
      rw [if_pos first, decide_eq_false unmarked]
      constructor
      · exact fun needs => ⟨⟨⟨needs.1, fun other => absurd other first⟩, fun _ => needs.2.1⟩, needs.2.2⟩
      · exact fun needs => ⟨needs.1.1.1, needs.1.2 unmarked, needs.2⟩

/-- The first pair of markers. -/
def FirstMarker (info : BinaryInfo) (buffer : Buffer) (i : Nat) : Prop :=
  i < 64 ∧ Marked info buffer (markerAt i) ∧ ∀ j < i, ¬ Marked info buffer (markerAt j)

theorem found_first {marker : U32} :
    Menu.binaryInfoFindMarker info buffer.memory = some marker ↔ ∃ i, FirstMarker info buffer i ∧ markerAt i = marker := by
  unfold Menu.binaryInfoFindMarker
  rw [List.find?_map, Option.map_eq_some_iff]
  apply exists_congr
  intro i
  rw [List.find?_range_eq_some, List.mem_range]
  simp only [Function.comp_apply, decide_eq_true_eq, Bool.not_eq_true', decide_eq_false_iff_not]
  constructor
  · exact fun found => ⟨⟨found.1.2.1, found.1.1, found.1.2.2⟩, found.2⟩
  · exact fun first => ⟨⟨first.1.2.1, first.1.1, first.1.2.2⟩, first.2⟩

theorem pointers_inside {i : Nat} (few : i < 64) (inside : buffer.Holds (markerAt i + 16) 4) :
    buffer.Holds (markerAt i + 4) 4 ∧ buffer.Holds (markerAt i + 8) 4 ∧ buffer.Holds (markerAt i + 12) 4 := by
  unfold Holds markerAt boot2Size at *
  refine ⟨?_, ?_, ?_⟩ <;> bv_omega

/-- What has to be true of an image to be inspected. -/
structure WellFormed (info : BinaryInfo) (buffer : Buffer) : Prop where
  scan : ∀ i < 64, (∀ j < i, ¬ Marked info buffer (markerAt j)) → MarkerInside info buffer (markerAt i)
  entries : ∀ i, FirstMarker info buffer i →
    ∀ k < ((buffer.memory.word (markerAt i + 8) - buffer.memory.word (markerAt i + 4)) / 4).toNat,
      EntryInside info buffer (buffer.memory.word (markerAt i + 4))
        (convertRamAddress (buffer.memory.word (markerAt i + 12))) k

end Buffer

/-- An update image is inspected to the end without a read outside of it exactly
when it is well formed. -/
theorem inspection_safe_iff (info : BinaryInfo) (buffer : Buffer) (masks : PinMasks) :
    Ends (buffer.pinConfigGetFromUpdate info masks)
        (fun result => pinConfigGetFromUpdate info buffer.memory masks = some result) ↔ buffer.WellFormed info := by
  have scans : Buffer.ScanInside info buffer 0 64 ↔ ∀ i < 64, (∀ j < i, ¬ Buffer.Marked info buffer (Buffer.markerAt j)) →
      Buffer.MarkerInside info buffer (Buffer.markerAt i) := by
    constructor
    · exact fun scan i before none => scan i (Nat.zero_le i) (by omega) fun j _ below => none j below
    · exact fun scan i _ before none => scan i (by omega) fun j below => none j (Nat.zero_le j) below
  have finds : ((List.range' 0 64).map Buffer.markerAt).find? (fun marker => Buffer.Marked info buffer marker) =
      binaryInfoFindMarker info buffer.memory := by
    rw [← List.range_eq_range']
    rfl
  rw [Buffer.pinConfigGetFromUpdate, Ends.bind, Buffer.binaryInfoFindMarker]
  have zero : (0 : U32) = BitVec.ofNat 32 (4 * 0) := rfl
  rw [zero, Buffer.ends_findMarkerFrom, scans, finds, pinConfigGetFromUpdate]
  cases found : binaryInfoFindMarker info buffer.memory with
  | none =>
    rw [Ends.pure]
    constructor
    · intro needs
      refine ⟨needs.1, ?_⟩
      intro i first
      have some := Buffer.found_first.mpr ⟨i, first, rfl⟩
      cases found.symm.trans some
    · exact fun formed => ⟨formed.scan, rfl⟩
  | some marker =>
    obtain ⟨i, first, rfl⟩ := Buffer.found_first.mp found
    dsimp only
    rw [Ends.bind, Buffer.word, Buffer.ends_load, Ends.bind, Buffer.word, Buffer.ends_load, Ends.bind, Buffer.word,
      Buffer.ends_load, Ends.foldlM fun masks k wanted => Buffer.ends_pinConfigEntry _ _ masks k wanted]
    constructor
    · intro needs
      obtain ⟨scan, _, _, _, inside, _⟩ := needs
      refine ⟨scan, ?_⟩
      intro other also k below
      have same : Buffer.markerAt other = Buffer.markerAt i :=
        Option.some.inj ((Buffer.found_first.mpr ⟨other, also, rfl⟩).symm.trans found)
      rw [same] at below ⊢
      exact inside k (List.mem_range.mpr below)
    · intro formed
      obtain ⟨first4, first8, first12⟩ := Buffer.pointers_inside first.1
        ((formed.scan i first.1 first.2.2).2 first.2.1.1)
      have inside : ∀ k ∈ List.range _, Buffer.EntryInside info buffer _ _ k := fun k member =>
        formed.entries i first k (List.mem_range.mp member)
      exact ⟨formed.scan, first4, first8, first12, inside, Buffer.foldlM_found _ masks inside⟩

def Copy.toBuffer (copy : Copy) : Buffer := ⟨fun address => copy.memory address.toNat, copy.updateSize⟩

/-- A file of one block passes the checks of its blocks, and the first word that
is looked at lies behind its image. -/
theorem short_image_leaves_buffer :
    ∃ copy, readUpdate ⟨uf2File baseAddress [blankPage], fun _ => true⟩ (fun _ => 0) = .ok copy ∧
      copy.updateSize = 256 ∧ copy.toBuffer.pinConfigGetFromUpdate picoSdk .none = .error .outside ∧
      ¬ Ends (copy.toBuffer.pinConfigGetFromUpdate picoSdk .none)
        (fun result => pinConfigGetFromUpdate picoSdk copy.toBuffer.memory .none = some result) := by
  have whole : ∀ page ∈ [blankPage], page.length = 256 := List.forall_mem_singleton.mpr List.length_replicate
  obtain ⟨last, read⟩ := readUpdate_uf2File baseAddress (fun _ => 0) whole (by decide)
  have outside : (Copy.toBuffer ⟨store (fun _ => 0) 0 [blankPage].flatten, 256, last⟩).pinConfigGetFromUpdate picoSdk .none =
      .error .outside := rfl
  refine ⟨_, read, rfl, outside, ?_⟩
  intro ends
  obtain ⟨result, ended, _⟩ := ends
  cases outside.symm.trans ended

end Fruitchip.Menu
