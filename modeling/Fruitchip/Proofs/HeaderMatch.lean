import Fruitchip.Library.Mealy
import Mathlib.Data.List.Induction
import Fruitchip.Proofs.ReaderSteps

/-! Finding the OSDSYS header. The counter of the search is the length of the
part of the header that the last bytes have matched, except that zero also
stands for a restart after a mismatch. -/

namespace Fruitchip.Firmware
open Embedded

/-- The read handlers over the bytes of the ROM, each with the value that
`disable_next_osdsys_hook` has when it is handled. -/
def readMachine (config : Config) : Mealy Reader (Bool × U8) Event where
  step reader byte :=
    let (reader, _, events) := handleRead config reader byte.1 byte.2
    (reader, events)

abbrev readerAfter (config : Config) (stream : List (Bool × U8)) : Reader :=
  ((readMachine config).run .powerUp stream).1

variable {config : Config}

theorem readMachine_step (reader : Reader) (byte : Bool × U8) :
    ((readMachine config).step reader byte).1 = (handleRead config reader byte.1 byte.2).1 := rfl

theorem readerAfter_concat (stream : List (Bool × U8)) (byte : Bool × U8) :
    readerAfter config (stream ++ [byte]) = (handleRead config (readerAfter config stream) byte.1 byte.2).1 := by
  rw [readerAfter, Mealy.run_concat]
  rfl

theorem readerAfter_append (first rest : List (Bool × U8)) :
    readerAfter config (first ++ rest) = ((readMachine config).run (readerAfter config first) rest).1 := by
  rw [readerAfter, Mealy.run_append]

/-- 52 bytes with the magic, the entry point and the section counts. -/
structure IsHeader (bytes : List U8) : Prop where
  length : bytes.length = 52
  magic : (bytes.drop 0).take 4 = [0x7F, 0x45, 0x4C, 0x46]
  entry : (bytes.drop 24).take 4 = [0x08, 0x00, 0x10, 0x00]
  sections : (bytes.drop 48).take 4 = [0x08, 0x00, 0x07, 0x00]

theorem field_byte {bytes field : List U8} {offset : Nat} (found : (bytes.drop offset).take 4 = field) (index : Nat)
    (inside : index < 4) : bytes[offset + index]? = field[index]? := by
  rw [← found, List.getElem?_take_of_lt inside, List.getElem?_drop]

theorem field_of_bytes {bytes : List U8} {offset : Nat} {b0 b1 b2 b3 : U8} (first : bytes[offset]? = some b0)
    (second : bytes[offset + 1]? = some b1) (third : bytes[offset + 2]? = some b2)
    (fourth : bytes[offset + 3]? = some b3) : (bytes.drop offset).take 4 = [b0, b1, b2, b3] := by
  apply List.ext_getElem?
  intro index
  match index with
  | 0 | 1 | 2 | 3 => simp_all
  | index + 4 =>
    rw [List.getElem?_take_eq_none (by omega)]
    rfl

theorem isHeader_iff (bytes : List U8) : IsHeader bytes ↔ bytes.length = 52 ∧ bytes[0]? = some 0x7F ∧
    ∀ offset expected, osdsysElfCase offset = some expected → bytes[offset]? = some expected := by
  constructor
  · intro header
    refine ⟨header.length, field_byte header.magic 0 (by decide), ?_⟩
    intro offset expected found
    unfold osdsysElfCase at found
    split at found
    case h_12 => cases found
    case h_1 => exact found ▸ field_byte header.magic 1 (by decide)
    case h_2 => exact found ▸ field_byte header.magic 2 (by decide)
    case h_3 => exact found ▸ field_byte header.magic 3 (by decide)
    case h_4 => exact found ▸ field_byte header.entry 0 (by decide)
    case h_5 => exact found ▸ field_byte header.entry 1 (by decide)
    case h_6 => exact found ▸ field_byte header.entry 2 (by decide)
    case h_7 => exact found ▸ field_byte header.entry 3 (by decide)
    case h_8 => exact found ▸ field_byte header.sections 0 (by decide)
    case h_9 => exact found ▸ field_byte header.sections 1 (by decide)
    case h_10 => exact found ▸ field_byte header.sections 2 (by decide)
    case h_11 => exact found ▸ field_byte header.sections 3 (by decide)
  · rintro ⟨length, first, fixed⟩
    exact ⟨length, field_of_bytes first (fixed 1 _ rfl) (fixed 2 _ rfl) (fixed 3 _ rfl),
      field_of_bytes (fixed 24 _ rfl) (fixed 25 _ rfl) (fixed 26 _ rfl) (fixed 27 _ rfl),
      field_of_bytes (fixed 48 _ rfl) (fixed 49 _ rfl) (fixed 50 _ rfl) (fixed 51 _ rfl)⟩

structure HeaderFrom (counter : Nat) (bytes : List U8) : Prop where
  fits : ∀ index expected, index < bytes.length → osdsysElfCase (counter + 1 + index) = some expected →
    bytes[index]? = some expected
  plain : 0x7F ∉ bytes

theorem HeaderFrom.tail {counter : Nat} {r : U8} {bytes : List U8} (continues : HeaderFrom counter (r :: bytes)) :
    HeaderFrom (counter + 1) bytes where
  fits index expected inside found := by
    have place : counter + 1 + (index + 1) = counter + 1 + 1 + index := by omega
    exact continues.fits (index + 1) expected (Nat.succ_lt_succ inside) (place ▸ found)
  plain member := continues.plain (List.mem_cons_of_mem r member)

theorem HeaderFrom.append {counter : Nat} {first rest : List U8} (continues : HeaderFrom counter (first ++ rest)) :
    HeaderFrom counter first ∧ HeaderFrom (counter + first.length) rest := by
  induction first generalizing counter with
  | nil => exact ⟨⟨fun _ _ inside => absurd inside (Nat.not_lt_zero _), List.not_mem_nil⟩, continues⟩
  | cons r first ih =>
    obtain ⟨front, back⟩ := ih continues.tail
    rw [Nat.add_right_comm] at back
    refine ⟨⟨?_, ?_⟩, back⟩
    · intro index expected inside found
      have longer : index < (r :: first ++ rest).length := by
        rw [List.length_append]
        omega
      have here := continues.fits index expected longer found
      rwa [List.getElem?_append_left inside] at here
    · intro member
      exact continues.plain (List.mem_append_left rest member)

theorem HeaderFrom.head {reader : Reader} {r : U8} {bytes : List U8}
    (continues : HeaderFrom reader.osdsysCounter (r :: bytes)) : ¬ reader.Mismatches r ∧ r ≠ 0x7F := by
  constructor
  · rintro ⟨expected, found, other⟩
    have here := continues.fits 0 expected (Nat.succ_pos _) found
    exact other (Option.some.inj here).symm
  · rintro rfl
    exact continues.plain List.mem_cons_self

theorem search_step {reader : Reader} (handler : reader.readHandler = .findOsdsysElf) (byte : Bool × U8) :
    ((readMachine config).step reader byte).1 = handleReadFindOsdsysElf reader byte.2 := by
  simp only [readMachine_step, handleRead, handler]

theorem search_counts (config : Config) {reader : Reader} (handler : reader.readHandler = .findOsdsysElf) {bytes : List (Bool × U8)}
    (continues : HeaderFrom reader.osdsysCounter (bytes.map (·.2))) (room : reader.osdsysCounter + bytes.length ≤ 50) :
    ((readMachine config).run reader bytes).1 =
      { reader with osdsysCounter := reader.osdsysCounter + bytes.length } := by
  induction bytes generalizing reader with
  | nil => rfl
  | cons byte rest ih =>
    obtain ⟨fits, plain⟩ := continues.head
    rw [List.length_cons] at room ⊢
    rw [Mealy.run_cons, search_step handler]
    rcases elf_cases reader byte.2 with ⟨_, mismatch | again | beyond⟩ | ⟨_, last, _⟩ | ⟨counted, _⟩
    · exact False.elim (fits mismatch)
    · exact False.elim (plain again)
    · omega
    · omega
    · have later := @ih { reader with osdsysCounter := reader.osdsysCounter + 1 } handler continues.tail
        (by dsimp only; omega)
      rw [counted]
      apply later.trans
      rw [Nat.add_right_comm, Nat.add_assoc]

theorem search_completes {reader : Reader} (handler : reader.readHandler = .findOsdsysElf) {init : List (Bool × U8)}
    {last : Bool × U8} (continues : HeaderFrom reader.osdsysCounter ((init ++ [last]).map (·.2)))
    (left : reader.osdsysCounter + init.length = 50) :
    ((readMachine config).run reader (init ++ [last])).1 =
      { reader with osdsysCounter := 0, readHandler := .findOsdsysSyscallTable } := by
  rw [List.map_append] at continues
  obtain ⟨front, back⟩ := continues.append
  rw [List.length_map, left] at back
  have counted := search_counts config handler front (Nat.le_of_eq left)
  rw [left] at counted
  rw [Mealy.run_concat, counted]
  have searching : Reader.readHandler { reader with osdsysCounter := 50 } = .findOsdsysElf := handler
  have heads : ¬ Reader.Mismatches { reader with osdsysCounter := 50 } last.2 ∧ last.2 ≠ 0x7F :=
    @HeaderFrom.head { reader with osdsysCounter := 50 } last.2 [] back
  rw [search_step searching]
  rcases elf_cases { reader with osdsysCounter := 50 } last.2 with ⟨_, mismatch | again | beyond⟩ | ⟨entered, _⟩ | ⟨_, more, _⟩
  · exact False.elim (heads.1 mismatch)
  · exact False.elim (heads.2 again)
  · exact absurd beyond (Nat.lt_irrefl 51)
  · exact entered
  · exact absurd more (Nat.lt_irrefl 51)

/-- Outside of `read/osdsys.c` its counter is zero. -/
def Reader.Rests (reader : Reader) : Prop := reader.readHandler.inOsdsys = false → reader.osdsysCounter = 0

theorem Reader.Rests.step {reader : Reader} (rests : reader.Rests) (disabled : Bool) (r : U8) :
    (handleRead config reader disabled r).1.Rests := by
  intro outside
  cases handler : reader.readHandler with
  | findOsdsysElf =>
    have next : (handleRead config reader disabled r).1 = handleReadFindOsdsysElf reader r := by
      simp only [handleRead, handler]
    rw [next] at outside ⊢
    rcases elf_cases reader r with ⟨same, _⟩ | ⟨same, _⟩ | ⟨same, _⟩
    all_goals
      rw [same] at outside
      simp [handler, ReadHandler.inOsdsys] at outside
  | findOsdsysSyscallTable =>
    simp only [handleRead, handler, handleReadFindOsdsysSyscallTable] at outside ⊢
    repeat' split at outside
    all_goals simp_all [ReadHandler.inOsdsys]
  | idle | findIopboot | findIopboot2 | findIopboot3 =>
    have before : reader.readHandler.inOsdsys = false := by
      rw [handler]
      rfl
    obtain ⟨_, stays | ⟨_, _, entered⟩⟩ := outside_step config before disabled r
    · rw [stays.counter, rests before]
    · rw [entered] at outside
      cases outside

theorem readerAfter_rests (stream : List (Bool × U8)) : (readerAfter config stream).Rests :=
  (readMachine config).run_preserves (fun _ byte rests => rests.step byte.1 byte.2) (fun _ => rfl) stream

theorem outside_run {reader : Reader} (outside : reader.readHandler.inOsdsys = false) {bytes : List (Bool × U8)}
    (plain : 0x7F ∉ bytes.map (·.2)) :
    ((readMachine config).run reader bytes).1.readHandler.inOsdsys = false := by
  induction bytes generalizing reader with
  | nil => exact outside
  | cons byte rest ih =>
    rw [Mealy.run_cons, readMachine_step]
    rw [List.map_cons, List.mem_cons, not_or] at plain
    obtain ⟨_, stays | ⟨_, found, _⟩⟩ := outside_step config outside byte.1 byte.2
    · exact ih stays.outside plain.2
    · exact False.elim (plain.1 found.symm)

theorem elf_restarts (reader : Reader) :
    handleReadFindOsdsysElf reader 0x7F = { reader with osdsysCounter := 0 } := by
  rcases elf_cases reader 0x7F with ⟨same, _⟩ | ⟨_, last, fits⟩ | ⟨_, _, _, other⟩
  · exact same
  · exact False.elim (fits ⟨0x00, by rw [last]; rfl, by decide⟩)
  · exact False.elim (other rfl)

/-- 0x7F starts the search, unless the search for IOPBOOT swallows it. -/
theorem magic_starts {reader : Reader} (rests : reader.Rests) (looking : reader.readHandler ≠ .findOsdsysSyscallTable)
    (other : reader.readHandler.inIopboot = false) (disabled : Bool) :
    (handleRead config reader disabled 0x7F).1 = ⟨.findOsdsysElf, 0, reader.iopbootCounter⟩ := by
  cases handler : reader.readHandler with
  | findOsdsysSyscallTable => exact False.elim (looking handler)
  | findIopboot | findIopboot2 | findIopboot3 => simp [handler, ReadHandler.inIopboot] at other
  | findOsdsysElf =>
    simp only [handleRead, handler, elf_restarts]
  | idle =>
    have zero := rests (by rw [handler]; rfl)
    simp only [handleRead, handler, handleReadIdle, ite_true, zero]

theorem IsHeader.continues {first : U8} {rest : List U8} (isHeader : IsHeader (first :: rest)) (plain : 0x7F ∉ rest) :
    first = 0x7F ∧ HeaderFrom 0 rest := by
  obtain ⟨_, magic, fixed⟩ := (isHeader_iff _).mp isHeader
  refine ⟨Option.some.inj magic, ?_, plain⟩
  intro index expected _ found
  have place : 0 + 1 + index = index + 1 := by omega
  exact fixed (index + 1) expected (place ▸ found)

private theorem header_cases {reader : Reader} (rests : reader.Rests)
    (looking : reader.readHandler ≠ .findOsdsysSyscallTable) {header : List (Bool × U8)}
    (isHeader : IsHeader (header.map (·.2))) (plain : 0x7F ∉ (header.map (·.2)).tail) :
    if reader.readHandler.inIopboot then
      ((readMachine config).run reader header).1.readHandler.inOsdsys = false
    else ((readMachine config).run reader header).1 = ⟨.findOsdsysSyscallTable, 0, reader.iopbootCounter⟩ := by
  have length := isHeader.length
  cases header with
  | nil => cases length
  | cons byte rest =>
    obtain ⟨disabled, r⟩ := byte
    rw [List.map_cons, List.tail_cons] at plain
    rw [List.length_map, List.length_cons] at length
    obtain ⟨rfl, continues⟩ := isHeader.continues plain
    rw [Mealy.run_cons, readMachine_step]
    split
    next iopboot =>
      rw [iopboot_gives_up iopboot disabled]
      exact outside_run rfl plain
    next other =>
      rw [magic_starts rests looking (Bool.eq_false_iff.mpr other) disabled]
      obtain ⟨init, last, rfl⟩ : ∃ init last, rest = init ++ [last] :=
        ⟨rest.dropLast, rest.getLast (by rintro rfl; cases length), (List.dropLast_concat_getLast _).symm⟩
      rw [List.length_append, List.length_singleton] at length
      exact search_completes rfl continues (by dsimp only; omega)

/-- A header is caught exactly if no search for IOPBOOT is going on. -/
theorem header_caught_iff (config : Config) {before header : List (Bool × U8)}
    (isHeader : IsHeader (header.map (·.2))) (plain : 0x7F ∉ (header.map (·.2)).tail)
    (looking : (readerAfter config before).readHandler ≠ .findOsdsysSyscallTable) :
    ((readerAfter config (before ++ header)).readHandler = .findOsdsysSyscallTable ∧
        (readerAfter config (before ++ header)).osdsysCounter = 0) ↔
      (readerAfter config before).readHandler.inIopboot = false := by
  have outcome := @header_cases config _ (readerAfter_rests before) looking _ isHeader plain
  rw [readerAfter_append]
  split at outcome
  next iopboot =>
    constructor
    · intro caught
      rw [caught.1] at outcome
      cases outcome
    · intro other
      rw [other] at iopboot
      cases iopboot
  next other =>
    rw [outcome]
    exact ⟨fun _ => Bool.eq_false_iff.mpr other, fun _ => ⟨rfl, rfl⟩⟩

theorem osdsysHeader_isHeader : IsHeader ((osdsysHeader.map (Prod.mk false)).map (·.2)) := by
  constructor <;> decide

theorem header_caught_iff_first :
    ((readerAfter default ([] ++ osdsysHeader.map (Prod.mk false))).readHandler = .findOsdsysSyscallTable ∧
        (readerAfter default ([] ++ osdsysHeader.map (Prod.mk false))).osdsysCounter = 0) ↔
      (readerAfter default []).readHandler.inIopboot = false :=
  header_caught_iff default osdsysHeader_isHeader (by decide) (by decide)

/-- A header right behind the first byte of the IOPBOOT code. -/
theorem header_missed : (readerAfter default [(false, 0x07)]).readHandler = .findIopboot ∧
    IsHeader ((osdsysHeader.map (Prod.mk false)).map (·.2)) ∧
    0x7F ∉ ((osdsysHeader.map (Prod.mk false)).map (·.2)).tail ∧
    (readerAfter default ((false, 0x07) :: osdsysHeader.map (Prod.mk false))).readHandler ≠
      .findOsdsysSyscallTable := by
  exact ⟨by decide, osdsysHeader_isHeader, by decide, by decide +kernel⟩

theorem search_begins {reader : Reader} (other : reader.readHandler ≠ .findOsdsysElf) {disabled : Bool} {r : U8}
    (entered : (handleRead config reader disabled r).1.readHandler = .findOsdsysElf) :
    reader.readHandler = .idle ∧ r = 0x7F ∧
      (handleRead config reader disabled r).1 = { reader with readHandler := .findOsdsysElf } := by
  by_cases table : reader.readHandler = .findOsdsysSyscallTable
  · simp only [handleRead, table, handleReadFindOsdsysSyscallTable] at entered
    repeat' split at entered
    all_goals cases entered
  · have outside : reader.readHandler.inOsdsys = false := by
      cases handler : reader.readHandler <;> first | rfl | contradiction
    obtain ⟨_, stays | found⟩ := outside_step config outside disabled r
    · have still := stays.outside
      rw [entered] at still
      cases still
    · exact found

/-- What the counter of the search says about the last bytes of the stream: a
restart, and behind it as many bytes that fit. -/
structure Suffix (config : Config) (stream : List (Bool × U8)) (counter : Nat) : Prop where
  below : counter ≤ 50
  split : ∃ before tail, stream = before ++ tail ∧ tail.length = counter ∧
    (readerAfter config before).readHandler = .findOsdsysElf ∧
    (readerAfter config before).osdsysCounter = 0 ∧ HeaderFrom 0 (tail.map (·.2))

theorem HeaderFrom.concat {bytes : List U8} {r : U8} (continues : HeaderFrom 0 bytes)
    (fits : ∀ expected, osdsysElfCase (bytes.length + 1) = some expected → expected = r) (plain : r ≠ 0x7F) :
    HeaderFrom 0 (bytes ++ [r]) where
  fits index expected inside found := by
    rcases Nat.lt_or_ge index bytes.length with before | last
    · rw [List.getElem?_append_left before]
      exact continues.fits index expected before found
    · obtain rfl : index = bytes.length := by
        rw [List.length_append, List.length_singleton] at inside
        omega
      rw [List.getElem?_append_right (Nat.le_refl _), Nat.sub_self]
      rw [Nat.zero_add, Nat.add_comm] at found
      rw [fits expected found]
      rfl
  plain member := by
    rcases List.mem_append.mp member with old | new
    · exact continues.plain old
    · exact plain (List.mem_singleton.mp new).symm

theorem readerAfter_search {stream : List (Bool × U8)}
    (searching : (readerAfter config stream).readHandler = .findOsdsysElf) (byte : Bool × U8) :
    readerAfter config (stream ++ [byte]) = handleReadFindOsdsysElf (readerAfter config stream) byte.2 := by
  rw [readerAfter, Mealy.run_concat]
  exact search_step searching byte

/-- The search has always followed a restart without a gap. -/
theorem search_suffix (config : Config) (stream : List (Bool × U8)) :
    (readerAfter config stream).readHandler = .findOsdsysElf →
      Suffix config stream (readerAfter config stream).osdsysCounter := by
  induction stream using List.reverseRecOn with
  | nil => intro started; cases started
  | append_singleton stream byte ih =>
    intro handler
    have restart (zero : (readerAfter config (stream ++ [byte])).osdsysCounter = 0) :
        Suffix config (stream ++ [byte]) (readerAfter config (stream ++ [byte])).osdsysCounter :=
      ⟨by omega, _, [], by simp, by rw [zero]; rfl, handler, zero, ⟨by simp, by simp⟩⟩
    by_cases searching : (readerAfter config stream).readHandler = .findOsdsysElf
    · obtain ⟨below, before, tail, split, length, entered, zero, continues⟩ := ih searching
      have next := readerAfter_search searching byte
      rcases elf_cases (readerAfter config stream) byte.2 with ⟨same, _⟩ | ⟨same, _⟩ | ⟨same, more, fits, plain⟩
      · exact restart (by rw [next, same])
      · rw [next, same] at handler
        cases handler
      · rw [next, same]
        refine ⟨by dsimp only; omega, before, tail ++ [byte], by rw [split, List.append_assoc], ?_, entered, zero, ?_⟩
        · rw [List.length_append, List.length_singleton, length]
        · rw [List.map_append]
          refine continues.concat (fun expected found => ?_) plain
          rw [List.length_map, length] at found
          exact Decidable.not_not.mp fun other => fits ⟨expected, found, other⟩
    · rw [readerAfter_concat] at handler
      obtain ⟨idle, _, next⟩ := search_begins searching handler
      apply restart
      rw [readerAfter_concat, next]
      exact readerAfter_rests stream (by rw [idle]; rfl)

/-- The table is only entered behind 52 bytes that are a header. -/
def NoFalseMatch (config : Config) (stream : List (Bool × U8)) : Prop :=
  ∀ before byte rest, stream = before ++ byte :: rest →
    (readerAfter config before).readHandler ≠ .findOsdsysSyscallTable →
    (readerAfter config (before ++ [byte])).readHandler = .findOsdsysSyscallTable →
    ∃ earlier header, before ++ [byte] = earlier ++ header ∧ IsHeader (header.map (·.2))

/-- No byte other than 0x7F that the search stumbles on stands in for the 0x7F
of a header. -/
def NoStumble (config : Config) (stream : List (Bool × U8)) : Prop :=
  ∀ before byte rest, stream = before ++ byte :: rest →
    (readerAfter config before).readHandler = .findOsdsysElf → (readerAfter config before).Mismatches byte.2 →
    byte.2 ≠ 0x7F → ¬ (51 ≤ rest.length ∧ HeaderFrom 0 ((rest.take 51).map (·.2)))

theorem HeaderFrom.isHeader {bytes : List U8} (continues : HeaderFrom 0 bytes) (length : bytes.length = 51) :
    IsHeader (0x7F :: bytes) := by
  refine (isHeader_iff _).mpr ⟨by rw [List.length_cons, length], rfl, fun offset expected found => ?_⟩
  cases offset with
  | zero => cases found
  | succ index =>
    have place : 0 + 1 + index = index + 1 := by omega
    have inside : index < bytes.length := by
      rw [length]
      by_contra beyond
      have none : osdsysElfCase (index + 1) = none := by
        unfold osdsysElfCase
        split <;> first | rfl | omega
      rw [none] at found
      cases found
    exact continues.fits index expected inside (place ▸ found)

theorem false_match {before init : List (Bool × U8)} {last : Bool × U8}
    (handler : (readerAfter config before).readHandler = .findOsdsysElf)
    (zero : (readerAfter config before).osdsysCounter = 0) (length : init.length = 50)
    (continues : HeaderFrom 0 ((init ++ [last]).map (·.2))) :
    (readerAfter config (before ++ init)).readHandler ≠ .findOsdsysSyscallTable ∧
      (readerAfter config (before ++ init ++ [last])).readHandler = .findOsdsysSyscallTable := by
  rw [← zero] at continues
  have left : (readerAfter config before).osdsysCounter + init.length = 50 := by omega
  constructor
  · rw [List.map_append] at continues
    rw [readerAfter_append, search_counts config handler continues.append.1 (Nat.le_of_eq left)]
    exact fun same => absurd (handler.symm.trans same) (by decide)
  · rw [List.append_assoc, readerAfter_append, search_completes handler continues left]

theorem restart_source {stream : List (Bool × U8)} (handler : (readerAfter config stream).readHandler = .findOsdsysElf)
    (zero : (readerAfter config stream).osdsysCounter = 0) :
    ∃ before byte, stream = before ++ [byte] ∧ (byte.2 = 0x7F ∨
      (readerAfter config before).readHandler = .findOsdsysElf ∧ (readerAfter config before).Mismatches byte.2) := by
  rcases List.eq_nil_or_concat stream with rfl | ⟨before, byte, rfl⟩
  · cases handler
  rw [List.concat_eq_append] at *
  refine ⟨before, byte, rfl, ?_⟩
  by_cases searching : (readerAfter config before).readHandler = .findOsdsysElf
  · have below := (search_suffix config before searching).below
    rw [readerAfter_search searching] at handler zero
    rcases elf_cases (readerAfter config before) byte.2 with ⟨_, mismatch | again | beyond⟩ | ⟨same, _⟩ | ⟨same, _⟩
    · exact .inr ⟨searching, mismatch⟩
    · exact .inl again
    · omega
    · rw [same] at handler
      cases handler
    · rw [same] at zero
      cases zero
  · rw [readerAfter_concat] at handler
    exact .inl (search_begins searching handler).2.1

theorem table_source {before : List (Bool × U8)} {byte : Bool × U8}
    (outside : (readerAfter config before).readHandler ≠ .findOsdsysSyscallTable)
    (entered : (readerAfter config (before ++ [byte])).readHandler = .findOsdsysSyscallTable) :
    ∃ earlier tail, before = earlier ++ tail ∧ tail.length = 50 ∧
      (readerAfter config earlier).readHandler = .findOsdsysElf ∧ (readerAfter config earlier).osdsysCounter = 0 ∧
      HeaderFrom 0 ((tail ++ [byte]).map (·.2)) := by
  by_cases searching : (readerAfter config before).readHandler = .findOsdsysElf
  · rw [readerAfter_search searching] at entered
    rcases elf_cases (readerAfter config before) byte.2 with ⟨same, _⟩ | ⟨_, last, fits⟩ | ⟨same, _⟩
    · rw [same] at entered
      exact False.elim (outside entered)
    · obtain ⟨_, earlier, tail, split, length, handler, zero, continues⟩ := search_suffix config before searching
      refine ⟨earlier, tail, split, by omega, handler, zero, ?_⟩
      rw [List.map_append]
      have plain : byte.2 ≠ 0x7F := by
        intro again
        exact fits ⟨0x00, by rw [last]; rfl, by rw [again]; decide⟩
      refine continues.concat (fun expected found => ?_) plain
      rw [List.length_map, length] at found
      exact Decidable.not_not.mp fun other => fits ⟨expected, found, other⟩
    · rw [same] at entered
      exact False.elim (outside entered)
  · have elsewhere : (readerAfter config before).readHandler.inOsdsys = false := by
      cases handler : (readerAfter config before).readHandler <;> first | rfl | contradiction
    rw [readerAfter_concat] at entered
    obtain ⟨_, stays | ⟨_, _, found⟩⟩ := outside_step config elsewhere byte.1 byte.2
    · have still := stays.outside
      rw [entered] at still
      cases still
    · rw [found] at entered
      cases entered

/-- All matches are headers exactly if the search does not stumble right before
the rest of one. -/
theorem no_false_match_iff (config : Config) (stream : List (Bool × U8)) :
    NoFalseMatch config stream ↔ NoStumble config stream := by
  constructor
  · rintro noFalse before byte rest rfl searching mismatch other ⟨long, continues⟩
    have restarted : readerAfter config (before ++ [byte]) = { readerAfter config before with osdsysCounter := 0 } := by
      rw [readerAfter_search searching]
      rcases elf_cases (readerAfter config before) byte.2 with ⟨same, _⟩ | ⟨_, _, fits⟩ | ⟨_, _, fits, _⟩
      · exact same
      · exact False.elim (fits mismatch)
      · exact False.elim (fits mismatch)
    obtain ⟨init, last, tail⟩ : ∃ init last, rest.take 51 = init ++ [last] := by
      rcases List.eq_nil_or_concat (rest.take 51) with nil | ⟨init, last, split⟩
      · have length := congrArg List.length nil
        rw [List.length_take, List.length_nil] at length
        omega
      · exact ⟨init, last, by rw [split, List.concat_eq_append]⟩
    have length := congrArg List.length tail
    rw [List.length_take, List.length_append, List.length_singleton] at length
    rw [tail] at continues
    obtain ⟨outside, entered⟩ := false_match (by rw [restarted]; exact searching) (by rw [restarted])
      (by omega) continues
    have split : before ++ byte :: rest = before ++ [byte] ++ init ++ last :: rest.drop 51 := by
      have pieces : rest = init ++ [last] ++ rest.drop 51 := by rw [← tail, List.take_append_drop]
      calc before ++ byte :: rest = before ++ byte :: (init ++ [last] ++ rest.drop 51) := by rw [← pieces]
        _ = before ++ [byte] ++ init ++ last :: rest.drop 51 := by simp
    obtain ⟨earlier, header, whole, isHeader⟩ := noFalse _ last _ split outside entered
    have same : before ++ (byte :: (init ++ [last])) = earlier ++ header := by
      rw [← whole]
      simp
    have size := isHeader.length
    rw [List.length_map] at size
    obtain ⟨_, rfl⟩ := List.append_inj' same (by
      rw [size, List.length_cons, List.length_append, List.length_singleton]
      omega)
    obtain ⟨_, magic, _⟩ := (isHeader_iff _).mp isHeader
    exact other (Option.some.inj magic)
  · rintro noStumble before byte rest rfl outside entered
    obtain ⟨earlier, tail, rfl, length, handler, zero, continues⟩ := table_source outside entered
    obtain ⟨start, first, rfl, why⟩ := restart_source handler zero
    have long : (tail ++ [byte]).length = 51 := by rw [List.length_append, length]; rfl
    by_cases magic : first.2 = 0x7F
    · refine ⟨start, first :: (tail ++ [byte]), by simp, ?_⟩
      rw [List.map_cons, magic]
      exact continues.isHeader (by rw [List.length_map, long])
    · obtain ⟨searching, mismatch⟩ := why.resolve_left magic
      refine False.elim (noStumble start first (tail ++ [byte] ++ rest) (by simp) searching mismatch magic ⟨?_, ?_⟩)
      · rw [List.length_append, long]
        exact Nat.le_add_right 51 _
      · rw [← long, List.take_left]
        exact continues

def headerWithoutMagic : List (Bool × U8) := (0x7F :: 0x00 :: osdsysHeader.tail).map (Prod.mk false)

theorem headerWithoutMagic_matches : ¬ NoFalseMatch default headerWithoutMagic := by
  intro noFalse
  obtain ⟨earlier, header, split, isHeader⟩ := noFalse headerWithoutMagic.dropLast (false, 0x00) [] (by decide)
    (by decide +kernel) (by decide +kernel)
  have size := isHeader.length
  rw [List.length_map] at size
  obtain ⟨_, rfl⟩ := List.append_inj' (split.symm.trans (List.take_append_drop 1 headerWithoutMagic).symm) (by
    rw [size]
    decide)
  exact absurd isHeader.magic (by decide)

end Fruitchip.Firmware
