import Fruitchip.Proofs.LossyReads

/-! Stage 3 over a bus that loses and damages answers, next to the same load over
a lossless one: it ends in the same memory, or a read fails. -/

namespace Fruitchip.Loader
open Embedded Client Firmware

/-- A read of these bytes gets through at one of its attempts, and leaves the rest. -/
def Copied (data : List U8) (deliveries rest : List ReadDelivery) : Prop :=
  ∃ delivery, Got (ReadDelivery.Whole data) modchipCmdRetries deliveries delivery rest

def Unread (data : List U8) (deliveries : List ReadDelivery) : Prop :=
  Missed (ReadDelivery.Whole data) modchipCmdRetries deliveries

def headerBytes (config : Config) (flash : Flash) : List U8 := slice (image config flash) 0 sizeofElfHeader

def pheaderBytes (config : Config) (flash : Flash) (i : Nat) : List U8 :=
  slice (image config flash) ((header config flash).phoff.toNat + sizeofElfPHeader * i) sizeofElfPHeader

def segmentBytes (config : Config) (flash : Flash) (i : Nat) : List U8 :=
  slice (image config flash) (pheader config flash i).offset.toNat (pheader config flash i).filesz.toNat

/-- The reads up to segment `i` get through, and leave these deliveries. -/
inductive Through (config : Config) (flash : Flash) (deliveries : List ReadDelivery) : Nat → List ReadDelivery → Prop
  | header {rest} (copied : Copied (headerBytes config flash) deliveries rest) : Through config flash deliveries 0 rest
  | skipped {i middle rest} (before : Through config flash deliveries i middle)
      (other : (pheader config flash i).type ≠ elfPtLoad) (copied : Copied (pheaderBytes config flash i) middle rest) :
      Through config flash deliveries (i + 1) rest
  | loaded {i middle between rest} (before : Through config flash deliveries i middle)
      (load : (pheader config flash i).type = elfPtLoad) (copied : Copied (pheaderBytes config flash i) middle between)
      (possible : ¬ Refused config flash i) (filled : Copied (segmentBytes config flash i) between rest) :
      Through config flash deliveries (i + 1) rest

/-- A read fails, or is refused. -/
inductive Fails (config : Config) (flash : Flash) (deliveries : List ReadDelivery) : Prop
  | header (unread : Unread (headerBytes config flash) deliveries)
  | pheader {i middle} (before : Through config flash deliveries i middle) (inside : i < (header config flash).phnum.toNat)
      (unread : Unread (pheaderBytes config flash i) middle)
  | segment {i middle between} (before : Through config flash deliveries i middle) (loaded : Loaded config flash i)
      (copied : Copied (pheaderBytes config flash i) middle between)
      (failed : Refused config flash i ∨ Unread (segmentBytes config flash i) between)

variable {config : Config} {flash : Flash} {frame : Frame} {i j : Nat} {offset size dst : U32}
  {deliveries rest left : List ReadDelivery} {data : List U8}

theorem Copied.unique (copied : Copied data deliveries rest) (again : Copied data deliveries left) : rest = left := by
  obtain ⟨_, got⟩ := copied
  obtain ⟨_, other⟩ := again
  exact (got.unique other).2

theorem Copied.not_unread (copied : Copied data deliveries rest) : ¬ Unread data deliveries := by
  obtain ⟨_, got⟩ := copied
  exact got.not_missed

theorem Through.unique (through : Through config flash deliveries i rest) (again : Through config flash deliveries i left) :
    rest = left := by
  induction through generalizing left with
  | header copied =>
    cases again with
    | header other => exact copied.unique other
  | skipped before other copied ih =>
    cases again with
    | skipped earlier _ again =>
      obtain rfl := ih earlier
      exact copied.unique again
    | loaded _ load _ _ _ => exact absurd load other
  | loaded before load copied possible filled ih =>
    cases again with
    | skipped _ other _ => exact absurd load other
    | loaded earlier _ again _ placed =>
      obtain rfl := ih earlier
      obtain rfl := copied.unique again
      exact filled.unique placed

theorem Through.earlier (through : Through config flash deliveries j rest) (before : i ≤ j) :
    ∃ middle, Through config flash deliveries i middle := by
  induction through with
  | header copied =>
    obtain rfl := Nat.le_zero.mp before
    exact ⟨_, .header copied⟩
  | @skipped j _ _ earlier other copied ih =>
    rcases Nat.le_succ_iff.mp before with less | rfl
    · exact ih less
    · exact ⟨_, .skipped earlier other copied⟩
  | @loaded j _ _ _ earlier load copied possible filled ih =>
    rcases Nat.le_succ_iff.mp before with less | rfl
    · exact ih less
    · exact ⟨_, .loaded earlier load copied possible filled⟩

theorem Through.not_fails (through : Through config flash deliveries (Loader.header config flash).phnum.toNat rest) :
    ¬ Fails config flash deliveries := by
  rintro (unread | ⟨before, inside, unread⟩ | ⟨before, loaded, copied, failed⟩)
  · obtain ⟨_, first⟩ := through.earlier (Nat.zero_le _)
    cases first with
    | header copied => exact copied.not_unread unread
  · obtain ⟨_, next⟩ := through.earlier inside
    cases next with
    | skipped earlier _ copied | loaded earlier _ copied _ _ =>
      obtain rfl := earlier.unique before
      exact copied.not_unread unread
  · obtain ⟨_, next⟩ := through.earlier loaded.1
    cases next with
    | skipped _ other _ => exact other loaded.2
    | loaded earlier _ again possible filled =>
      obtain rfl := earlier.unique before
      obtain rfl := copied.unique again
      rcases failed with refused | unread
      · exact possible refused
      · exact filled.not_unread unread

theorem bursts_head (bursts : ∀ delivery ∈ deliveries, delivery.Bursts) : (deliveries.headD .lost).Bursts := by
  cases deliveries with
  | nil => trivial
  | cons delivery rest => exact bursts delivery List.mem_cons_self

theorem Ram.store_over {ram : Ram} {bytes other : List U8} (length : bytes.length = other.length) :
    (ram.store dst bytes).store dst other = ram.store dst other := by
  funext address
  by_cases inside : (address - dst).toNat < other.length
  · unfold Ram.store
    rw [List.getD_eq_getElem _ _ inside, List.getD_eq_getElem _ _ inside]
  · rw [Ram.store_outside inside, Ram.store_outside inside, Ram.store_outside (length ▸ inside)]

variable {console : Console (FirmwareState × List ReadDelivery)} {other : Console FirmwareState}

inductive Attempted (config : Config) (flash : Flash) (offset size dst : U32)
    (before : Console (FirmwareState × List ReadDelivery)) : Bool × Console (FirmwareState × List ReadDelivery) → Prop where
  | accepted (inside : offset < config.loaderEeStage3Size) (next : FirmwareState) (resting : Resting flash next)
      (whole : (before.bus.2.headD .lost).Whole (slice (image config flash) offset.toNat size.toNat)) :
      Attempted config flash offset size dst before (true, ⟨(next, before.bus.2.tail),
        before.ram.store dst (slice (image config flash) offset.toNat size.toNat), before.reads⟩)
  | refused (next : FirmwareState) (resting : Resting flash next)
      (damaged : offset < config.loaderEeStage3Size →
        ¬ (before.bus.2.headD .lost).Whole (slice (image config flash) offset.toNat size.toNat)) (ram : Ram)
      (filled : ∀ good : List U8, good.length = size.toNat → ram.store dst good = before.ram.store dst good) :
      Attempted config flash offset size dst before (false, ⟨(next, before.bus.2.tail), ram, before.reads⟩)

theorem attempted (resting : Resting flash console.bus.1) (bursts : ∀ delivery ∈ console.bus.2, delivery.Bursts)
    (offset size dst : U32) : Attempted config flash offset size dst console
      (modchipStage3Read (lossyBus config) offset size dst true console) := by
  obtain ⟨idle, world, events⟩ := run_call config resting.idle (.stage3Read offset size true)
  have kept : (runCall config (.stage3Read offset size true) console.bus.1.world).1 = console.bus.1.world := by
    rw [runCall, readEeStage3Body]
    split <;> rfl
  rw [kept] at world
  simp only [modchipStage3Read, lossyBus]
  generalize (machine config).run console.bus.1 (Call.stage3Read offset size true).poked = result at *
  obtain ⟨next, sent⟩ := result
  dsimp only at idle world events
  have rests : Resting flash next := ⟨idle, by rw [world]; exact resting.flash⟩
  have burst := bursts_head bursts
  dsimp only
  rw [rests.flash, events, runCall, readEeStage3Body]
  dsimp only
  rw [xor_xor_self, xor_xor_self]
  by_cases inside : offset < config.loaderEeStage3Size
  · rw [if_pos ⟨⟨rfl, inside⟩, rfl, by decide⟩, emit_answerData, image_at]
    have heard := deliver_data (slice_length (image config flash) offset.toNat size.toNat) burst
    cases heard with
    | accepted whole same =>
      rw [same]
      exact .accepted inside next rests whole
    | refused damaged failed filled =>
      rw [failed]
      refine .refused next rests (fun _ => damaged) _ fun good length => ?_
      cases given : ((received size.toNat ((console.bus.2.headD .lost).deliver _)).read size true).2 with
      | none => rfl
      | some bytes => exact Ram.store_over ((filled bytes given).trans length.symm)
  · rw [if_neg fun accepted => inside accepted.1.2, emit_answer]
    obtain ⟨failed, nothing⟩ := @deliver_error size (console.bus.2.headD .lost)
    rw [failed, nothing]
    exact .refused next rests (fun reached => absurd reached inside) _ fun _ _ => rfl

inductive Served (config : Config) (flash : Flash) (offset size dst : U32) (attemps : Nat)
    (before : Console (FirmwareState × List ReadDelivery)) : Bool × Console (FirmwareState × List ReadDelivery) → Prop where
  | accepted (inside : offset < config.loaderEeStage3Size) (next : FirmwareState) (resting : Resting flash next)
      (delivery : ReadDelivery) (rest : List ReadDelivery)
      (got : Got (ReadDelivery.Whole (slice (image config flash) offset.toNat size.toNat)) attemps before.bus.2 delivery rest) :
      Served config flash offset size dst attemps before (true, ⟨(next, rest),
        before.ram.store dst (slice (image config flash) offset.toNat size.toNat), before.reads⟩)
  | refused (missed : offset < config.loaderEeStage3Size →
        Missed (ReadDelivery.Whole (slice (image config flash) offset.toNat size.toNat)) attemps before.bus.2)
      (after : Console (FirmwareState × List ReadDelivery)) : Served config flash offset size dst attemps before (false, after)

theorem served (resting : Resting flash console.bus.1) (bursts : ∀ delivery ∈ console.bus.2, delivery.Bursts)
    (offset size dst : U32) (attemps attemp : Nat) : Served config flash offset size dst attemps console
      (withRetry (fun _ => modchipStage3Read (lossyBus config) offset size dst true) attemps attemp console) := by
  induction attemps generalizing attemp console with
  | zero => exact .refused (fun _ index none => absurd none (Nat.not_lt_zero index)) _
  | succ attemps ih =>
    have first := @attempted config flash console resting bursts offset size dst
    rw [withRetry]
    generalize modchipStage3Read (lossyBus config) offset size dst true console = result at first
    cases first with
    | accepted inside next rests whole => exact .accepted inside next rests _ _ (.of_head not_whole_lost whole)
    | refused next rests damaged ram filled =>
      have later := @ih ⟨(next, console.bus.2.tail), ram, console.reads⟩ rests
        (fun delivery member => bursts delivery (List.mem_of_mem_tail member)) (attemp + 1)
      dsimp only
      rw [if_neg (by decide)]
      generalize withRetry (fun _ => modchipStage3Read (lossyBus config) offset size dst true) attemps (attemp + 1) _ = final
        at later
      cases later with
      | accepted inside next rests delivery rest got =>
        dsimp only
        rw [filled _ (slice_length _ _ _)]
        exact .accepted inside next rests delivery rest (got.of_tail (damaged inside))
      | refused missed after => exact .refused (fun inside => (missed inside).cons (damaged inside)) after

/-- The same memory over both buses. -/
structure Beside (flash : Flash) (console : Console (FirmwareState × List ReadDelivery)) (other : Console FirmwareState) : Prop where
  modchip : Resting flash console.bus.1
  lossless : Resting flash other.bus
  ram : console.ram = other.ram
  bursts : ∀ delivery ∈ console.bus.2, delivery.Bursts

/-- A read succeeds over both, or fails over the lossy one. -/
theorem Beside.read (beside : Beside flash console other) (offset size dst : U32) :
    (∃ next again,
      modchipStage3ReadWithRetry (lossyBus config) offset size dst true modchipCmdRetries console = (true, next) ∧
      modchipStage3ReadWithRetry (losslessBus config) offset size dst true modchipCmdRetries other = (true, again) ∧
      Beside flash next again ∧ offset < config.loaderEeStage3Size ∧
      Copied (slice (image config flash) offset.toNat size.toNat) console.bus.2 next.bus.2) ∨
    (modchipStage3ReadWithRetry (lossyBus config) offset size dst true modchipCmdRetries console).1 = false ∧
      (offset < config.loaderEeStage3Size →
        Unread (slice (image config flash) offset.toNat size.toNat) console.bus.2) := by
  have result := @served config flash console beside.modchip beside.bursts offset size dst modchipCmdRetries 0
  rw [modchipStage3ReadWithRetry]
  generalize withRetry (fun _ => modchipStage3Read (lossyBus config) offset size dst true) modchipCmdRetries 0 console =
    final at result
  cases result with
  | accepted inside next rests delivery rest got =>
    obtain ⟨last, quiet, read⟩ := @lossless_read config flash offset size other beside.lossless inside dst
    refine .inl ⟨_, _, rfl, read, ⟨rests, quiet, ?_, fun delivery member => beside.bursts delivery (got.subset member)⟩,
      inside, delivery, got⟩
    exact congrArg (fun ram : Ram => ram.store dst _) beside.ram
  | refused missed after => exact .inr ⟨rfl, missed⟩

theorem taken : ¬ (!true) = true := by decide

/-- What a load over the lossy bus comes to: what it comes to over the other
one, when the reads up to segment `i` get through, or an error. -/
inductive Ends {α : Type} (config : Config) (flash : Flash) (deliveries : List ReadDelivery) (i : Nat) :
    Except String α × Console (FirmwareState × List ReadDelivery) → Except String α × Console FirmwareState → Prop where
  | same (value : α) (next : Console (FirmwareState × List ReadDelivery)) (again : Console FirmwareState)
      (beside : Beside flash next again) (through : Through config flash deliveries i next.bus.2) :
      Ends config flash deliveries i (.ok value, next) (.ok value, again)
  | failed (message : String) (next : Console (FirmwareState × List ReadDelivery)) (result : Except String α × Console FirmwareState)
      (fails : Fails config flash deliveries) : Ends config flash deliveries i (.error message, next) result

theorem Ends.unread {α : Type} {first : Bool × Console (FirmwareState × List ReadDelivery)}
    {message : String} {rest : Except String α × Console (FirmwareState × List ReadDelivery)}
    {others : Except String α × Console FirmwareState} (failed : first.1 = false) (fails : Fails config flash deliveries) :
    Ends config flash deliveries i (if !first.1 then (.error message, first.2) else rest) others := by
  rw [if_pos (by rw [failed]; rfl)]
  exact .failed message _ _ fails

variable {address : U32}

/-- Neither a segment that is loaded nor a local of the loader lies here. -/
structure Untouched (config : Config) (flash : Flash) (frame : Frame) (address : U32) : Prop where
  segments : ∀ i, Loaded config flash i → ¬ Covers (pheader config flash i).vaddr (pheader config flash i).memsz.toNat address
  eh : ¬ Covers frame.eh sizeofElfHeader address
  eph : ¬ Covers frame.eph sizeofElfPHeader address

section Segments

variable {console last : Console FirmwareState}

end Segments

end Fruitchip.Loader
