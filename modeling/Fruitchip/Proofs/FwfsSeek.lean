import Fruitchip.Proofs.FwfsReads

/-! Seeking in the data of an application. The offset counts from the start of
the entry in 32 bits, and the clamping looks at its sign. -/

namespace Fruitchip.Fwfs
open Embedded Client

variable {φ : Type} {driver : Driver φ} {entries : U8 → Entry} {file : φ} {slot : Slot} {idx : U8} {offset whence : U32}

/-- The place that a seek counts from. -/
def seekBase (size position : Nat) (whence : U32) : Option Nat :=
  if whence = seekSet then some 0
  else if whence = seekCur then some position
  else if whence = seekEnd then some size
  else none

/-- The nearest position of a file. -/
def clamp (size : Nat) (place : Int) : Nat := (min place size).toNat

/-- What one `fwfs_lseek` should do to an open file. -/
def SeekFollows (driver : Driver φ) (file : φ) (slot : Slot) (offset whence : U32) : Prop :=
  let fd := driver.fdHandle slot
  match seekBase fd.size.toNat (driver.position slot) whence with
  | some base =>
    let target := clamp fd.size.toNat (base + offset.toInt)
    fwfsLseek driver file offset whence =
      (driver.set slot { fd with offset := BitVec.ofNat 32 (8 + target) }, .ok (BitVec.ofNat 32 target))
  | none => fwfsLseek driver file offset whence = (driver, .error .einval)

/-- The seeks that do. -/
def SeekExact (size position : Nat) (offset : Int) (whence : U32) : Prop :=
  if whence = seekEnd then
    (offset = 0 ∧ size + 8 < 2 ^ 31) ∨ (size = 0 ∧ (offset < 0 ∨ 8 < offset)) ∨
      (size + offset ≤ 0 ∧ 0x80000000 ≤ size + 8 - offset ∧ size + 8 - offset < 0x100000000)
  else
    ∀ base, seekBase size position whence = some base →
      (base + offset < -8 ∨ 0 ≤ base + offset) ∧ (base + offset < 0x7FFFFFF8 ∨ size = 0)

def landed (fd : File) (offset : U32) : U32 :=
  let offset := if offset.toInt < 0 then modchipAppsDataOffset else offset
  if fd.size + modchipAppsDataOffset < offset then fd.size + modchipAppsDataOffset else offset

theorem fwfsLseek_held (held : driver.privdata file = some slot) (offset whence : U32) :
    fwfsLseek driver file offset whence =
      match seekOffset (driver.fdHandle slot) offset whence with
      | none => (driver, .error .einval)
      | some place => (driver.set slot { driver.fdHandle slot with offset := landed (driver.fdHandle slot) place },
          .ok (landed (driver.fdHandle slot) place - modchipAppsDataOffset)) := by
  rw [fwfsLseek, held]
  rfl

theorem landed_toNat {fd : File} (short : fd.size.toNat < 2 ^ 31) (offset : U32) :
    (landed fd offset).toNat = if 2 ^ 31 ≤ offset.toNat then 8 else min offset.toNat (fd.size.toNat + 8) := by
  have header : modchipAppsDataOffset.toNat = 8 := rfl
  have top : (fd.size + modchipAppsDataOffset).toNat = fd.size.toNat + 8 := by
    rw [BitVec.toNat_add, header, Nat.mod_eq_of_lt]
    omega
  have bound := offset.isLt
  have sign := BitVec.toInt_eq_toNat_cond offset
  unfold landed
  by_cases negative : 2 ^ 31 ≤ offset.toNat
  · have below : offset.toInt < 0 := by
      rw [sign, if_neg (by omega)]
      omega
    rw [if_pos below, if_pos negative, if_neg]
    · exact header
    · rw [BitVec.lt_def, top, header]
      omega
  · have above : ¬ offset.toInt < 0 := by
      rw [sign, if_pos (by omega)]
      omega
    rw [if_neg above, if_neg negative]
    by_cases behind : fd.size + modchipAppsDataOffset < offset
    · rw [if_pos behind, top]
      rw [BitVec.lt_def, top] at behind
      omega
    · rw [if_neg behind]
      rw [BitVec.lt_def, top] at behind
      omega

theorem clamp_le (size : Nat) (place : Int) : clamp size place ≤ size := by
  unfold clamp
  omega

theorem seekFollows_iff (held : driver.privdata file = some slot) (short : (driver.fdHandle slot).size.toNat < 2 ^ 31)
    {place : U32} {base : Nat} (asked : seekOffset (driver.fdHandle slot) offset whence = some place)
    (counted : seekBase (driver.fdHandle slot).size.toNat (driver.position slot) whence = some base) :
    SeekFollows driver file slot offset whence ↔
      (landed (driver.fdHandle slot) place).toNat =
        8 + clamp (driver.fdHandle slot).size.toNat (base + offset.toInt) := by
  have inside := clamp_le (driver.fdHandle slot).size.toNat (base + offset.toInt)
  have target : (BitVec.ofNat 32 (8 + clamp (driver.fdHandle slot).size.toNat (base + offset.toInt))).toNat =
      8 + clamp (driver.fdHandle slot).size.toNat (base + offset.toInt) := by
    apply toNat_ofNat_of_lt
    omega
  have seek := fwfsLseek_held held offset whence
  rw [asked] at seek
  dsimp only at seek
  simp only [SeekFollows, counted]
  rw [seek]
  constructor
  · intro follows
    have driven := congrArg (fun result => (result.1.fdHandle slot).offset) follows
    simp only [set_self] at driven
    rw [driven, target]
  · intro reached
    have same : landed (driver.fdHandle slot) place =
        BitVec.ofNat 32 (8 + clamp (driver.fdHandle slot).size.toNat (base + offset.toInt)) := by
      apply BitVec.eq_of_toNat_eq
      rw [reached, target]
    rw [same, BitVec.ofNat_add, BitVec.add_comm]
    exact congrArg (fun value => (_, Except.ok value)) (BitVec.add_sub_cancel _ _)

theorem toInt_cases (offset : U32) : offset.toInt = offset.toNat ∧ offset.toNat < 2 ^ 31 ∨
    offset.toInt = offset.toNat - 0x100000000 ∧ 2 ^ 31 ≤ offset.toNat := by
  have bound := offset.isLt
  rw [BitVec.toInt_eq_toNat_cond]
  split
  · omega
  · omega

/-- A place that is counted from the start or from the position. -/
theorem forward_exact {size base : Nat} {place offset : U32} (short : size < 2 ^ 31) (inside : base ≤ size)
    (asked : place.toNat = (base + 8 + offset.toNat) % 2 ^ 32) :
    (if 2 ^ 31 ≤ place.toNat then 8 else min place.toNat (size + 8)) = 8 + clamp size (base + offset.toInt) ↔
      (base + offset.toInt < -8 ∨ 0 ≤ base + offset.toInt) ∧ (base + offset.toInt < 0x7FFFFFF8 ∨ size = 0) := by
  have bound := offset.isLt
  have value := toInt_cases offset
  generalize offset.toInt = distance at value ⊢
  unfold clamp
  rcases value with ⟨positive, small⟩ | ⟨negative, large⟩
  · split <;> omega
  · split <;> omega

theorem backward_exact {size : Nat} {place offset : U32} (short : size < 2 ^ 31)
    (asked : place.toNat = (size + 8 + (2 ^ 32 - offset.toNat)) % 2 ^ 32) :
    (if 2 ^ 31 ≤ place.toNat then 8 else min place.toNat (size + 8)) = 8 + clamp size (size + offset.toInt) ↔
      (offset.toInt = 0 ∧ size + 8 < 2 ^ 31) ∨ (size = 0 ∧ (offset.toInt < 0 ∨ 8 < offset.toInt)) ∨
        (size + offset.toInt ≤ 0 ∧ 0x80000000 ≤ size + 8 - offset.toInt ∧ size + 8 - offset.toInt < 0x100000000) := by
  have bound := offset.isLt
  have value := toInt_cases offset
  generalize offset.toInt = distance at value ⊢
  unfold clamp
  rcases value with ⟨positive, small⟩ | ⟨negative, large⟩
  · split <;> omega
  · split <;> omega

theorem seek_exact (opened : Open driver entries file slot idx) (short : (entries idx).data.length < 2 ^ 31)
    (offset whence : U32) :
    SeekFollows driver file slot offset whence ↔
      SeekExact (entries idx).data.length (driver.position slot) offset.toInt whence := by
  have size := opened.size
  have behind := opened.behindHeader
  have inside := opened.inside
  have header : modchipAppsDataOffset.toNat = 8 := rfl
  rw [← size] at short inside ⊢
  have follows {place : U32} {base : Nat} := @seekFollows_iff φ driver file slot offset whence opened.held short place base
  by_cases set : whence = seekSet
  · subst set
    have place : (offset + modchipAppsDataOffset).toNat = (0 + 8 + offset.toNat) % 2 ^ 32 := by
      rw [BitVec.toNat_add, header, Nat.add_comm offset.toNat]
    rw [follows rfl rfl, landed_toNat short, forward_exact short (Nat.zero_le _) place]
    exact ⟨fun exact base counted => Option.some.inj counted ▸ exact, fun exact => exact 0 rfl⟩
  by_cases cur : whence = seekCur
  · subst cur
    have place : ((driver.fdHandle slot).offset + offset).toNat =
        (driver.position slot + 8 + offset.toNat) % 2 ^ 32 := by
      rw [BitVec.toNat_add, Driver.position, Nat.sub_add_cancel behind]
    rw [follows rfl rfl, landed_toNat short, forward_exact short inside place]
    exact ⟨fun exact base counted => Option.some.inj counted ▸ exact, fun exact => exact _ rfl⟩
  by_cases fin : whence = seekEnd
  · subst fin
    have place : ((driver.fdHandle slot).size + modchipAppsDataOffset - offset).toNat =
        ((driver.fdHandle slot).size.toNat + 8 + (2 ^ 32 - offset.toNat)) % 2 ^ 32 := by
      rw [BitVec.toNat_sub, BitVec.toNat_add, header]
      omega
    rw [follows rfl rfl, landed_toNat short, backward_exact short place]
    rfl
  · have nothing : seekBase (driver.fdHandle slot).size.toNat (driver.position slot) whence = none := by
      rw [seekBase, if_neg set, if_neg cur, if_neg fin]
    have refused : fwfsLseek driver file offset whence = (driver, .error .einval) := by
      rw [fwfsLseek_held opened.held, seekOffset, if_neg set, if_neg cur, if_neg fin]
    apply iff_of_true
    · simp only [SeekFollows, nothing, refused]
    · rw [SeekExact, if_neg fin, nothing]
      intro base counted
      cases counted

inductive Access where
  | read (size : U32) (answers : Answers)
  | seek (offset whence : U32)

def accessor (file : φ) : Mealy (Driver φ) Access (List U8 × Except Errno U32) where
  step driver
    | .read size answers =>
      let (driver, ptr, result) := fwfsRead driver file size answers
      (driver, [(ptr.getD [], result)])
    | .seek offset whence =>
      let (driver, result) := fwfsLseek driver file offset whence
      (driver, [([], result)])

/-- The modchip serves the reads, and the seeks do what they should. -/
structure Sound (driver : Driver φ) (entries : U8 → Entry) (file : φ) (slot : Slot) (idx : U8) (accesses : List Access) :
    Prop where
  serves : ∀ size answers, .read size answers ∈ accesses → Serves answers entries
  exact : ∀ before offset whence rest, accesses = before ++ .seek offset whence :: rest →
    SeekExact (entries idx).data.length (((accessor file).run driver before).1.position slot) offset.toInt whence

/-- The offset stays behind the header and inside the data, and so do the bytes
that are read. -/
structure StaysInside (driver : Driver φ) (entries : U8 → Entry) (file : φ) (slot : Slot) (idx : U8)
    (accesses : List Access) : Prop where
  offset : ∀ before rest, accesses = before ++ rest →
    8 ≤ (((accessor file).run driver before).1.fdHandle slot).offset.toNat ∧
      (((accessor file).run driver before).1.fdHandle slot).offset.toNat ≤ 8 + (entries idx).data.length
  bytes : ∀ before size answers rest count, accesses = before ++ .read size answers :: rest →
    (fwfsRead ((accessor file).run driver before).1 file size answers).2.2 = .ok count →
    (fwfsRead ((accessor file).run driver before).1 file size answers).2.1.getD [] =
      ((entries idx).data.drop (((accessor file).run driver before).1.position slot)).take count.toNat

theorem Open.seek (opened : Open driver entries file slot idx)
    (follows : SeekFollows driver file slot offset whence) :
    Open (fwfsLseek driver file offset whence).1 entries file slot idx := by
  have fits := (entries idx).fits
  have size := opened.size
  simp only [SeekFollows] at follows
  split at follows
  next base counted =>
    rw [follows]
    have inside := clamp_le (driver.fdHandle slot).size.toNat (base + offset.toInt)
    have place : (BitVec.ofNat 32 (8 + clamp (driver.fdHandle slot).size.toNat (base + offset.toInt))).toNat =
        8 + clamp (driver.fdHandle slot).size.toNat (base + offset.toInt) := by
      apply toNat_ofNat_of_lt
      omega
    constructor
    case held => exact opened.held
    case entry =>
      rw [set_self]
      exact opened.entry
    case size =>
      rw [set_self]
      exact size
    case behindHeader =>
      rw [set_self, place]
      exact Nat.le_add_right 8 _
    case inside =>
      rw [Driver.position, set_self, place]
      omega
  next =>
    rw [follows]
    exact opened

theorem Open.read (opened : Open driver entries file slot idx) (size : U32) {answers : Answers}
    (serves : Serves answers entries) :
    Open (fwfsRead driver file size answers).1 entries file slot idx ∧
      ∀ count, (fwfsRead driver file size answers).2.2 = .ok count →
        (fwfsRead driver file size answers).2.1.getD [] =
          ((entries idx).data.drop (driver.position slot)).take count.toNat := by
  rcases fwfsRead_cases opened size serves with ⟨_, read⟩ | ⟨_, ⟨_, bytes, read⟩ | ⟨next, bytes, count, read, advances⟩⟩
  · rw [read]
    exact ⟨opened, fun count returned => by cases returned; rfl⟩
  · rw [read]
    exact ⟨opened, fun count returned => by cases returned⟩
  · rw [read]
    exact ⟨advances.opened, fun count returned => by cases returned; exact advances.slice⟩

theorem Sound.front {before rest : List Access} (sound : Sound driver entries file slot idx (before ++ rest)) :
    Sound driver entries file slot idx before where
  serves size answers member := sound.serves size answers (List.mem_append_left _ member)
  exact first offset whence last split := by
    apply sound.exact first offset whence (last ++ rest)
    rw [split, List.append_assoc, List.cons_append]

theorem Open.run (opened : Open driver entries file slot idx) (short : (entries idx).data.length < 2 ^ 31)
    {accesses : List Access} (sound : Sound driver entries file slot idx accesses) :
    Open ((accessor file).run driver accesses).1 entries file slot idx := by
  induction accesses using List.reverseRecOn with
  | nil => exact opened
  | append_singleton before access ih =>
    have now := ih sound.front
    rw [Mealy.run_concat]
    cases access with
    | read size answers =>
      have serves := sound.serves size answers (List.mem_append_right _ List.mem_cons_self)
      exact (now.read size serves).1
    | seek offset whence =>
      have exact := sound.exact before offset whence [] rfl
      exact now.seek ((seek_exact now short offset whence).mpr exact)

theorem Open.staysInside (opened : Open driver entries file slot idx) (short : (entries idx).data.length < 2 ^ 31)
    {accesses : List Access} (sound : Sound driver entries file slot idx accesses) :
    StaysInside driver entries file slot idx accesses where
  offset before rest split := by
    have now := opened.run short (Sound.front (split ▸ sound))
    have behind := now.behindHeader
    have inside := now.inside
    rw [Driver.position] at inside
    omega
  bytes before size answers rest count split := by
    have now := opened.run short (Sound.front (split ▸ sound))
    have member : Access.read size answers ∈ accesses := by
      rw [split]
      exact List.mem_append_right _ List.mem_cons_self
    exact (now.read size (sound.serves size answers member)).2 count

/-- A seek in an open file does what it should exactly when its target does not
fall into the header or pass 2 ^ 31, and from the end only in corner cases. Where
all seeks are such, no access leaves the data. -/
theorem seeks_clamp_iff (opened : Open driver entries file slot idx) (short : (entries idx).data.length < 2 ^ 31) :
    (∀ offset whence, SeekFollows driver file slot offset whence ↔
        SeekExact (entries idx).data.length (driver.position slot) offset.toInt whence) ∧
      ∀ accesses, Sound driver entries file slot idx accesses → StaysInside driver entries file slot idx accesses :=
  ⟨seek_exact opened short, fun _ sound => opened.staysInside short sound⟩

def fiveEntry : Entry := ⟨0, [1, 2, 3, 4, 5], [0, 0, 0, 0], by decide, by decide⟩

def openFive : Driver Unit := ⟨fun _ => ⟨fwfsModeDataChar, 7, 5, 0, 8⟩, fun _ => some ⟨0, by decide⟩⟩

theorem openFive_open : Open openFive (fun _ => fiveEntry) () ⟨0, by decide⟩ 7 :=
  ⟨rfl, rfl, rfl, by decide, by decide⟩

theorem seeks_clamp_five :
    (∀ offset whence, SeekFollows openFive () ⟨0, by decide⟩ offset whence ↔
        SeekExact fiveEntry.data.length (openFive.position ⟨0, by decide⟩) offset.toInt whence) ∧
      ∀ accesses, Sound openFive (fun _ => fiveEntry) () ⟨0, by decide⟩ 7 accesses →
        StaysInside openFive (fun _ => fiveEntry) () ⟨0, by decide⟩ 7 accesses :=
  seeks_clamp_iff openFive_open (by decide)

/-- Eight bytes before the start is the length of the data, and is read as such. -/
theorem header_is_read :
    ¬ SeekFollows openFive () ⟨0, by decide⟩ (-8) seekSet ∧
      (fwfsRead (fwfsLseek openFive () (-8) seekSet).1 () 4 (servedBy fun _ => fiveEntry)).2 =
        (some (bytes32 5), .ok 4) := by
  constructor
  · intro follows
    have returned := congrArg Prod.snd follows
    exact absurd returned (by decide)
  · decide +kernel

end Fruitchip.Fwfs
