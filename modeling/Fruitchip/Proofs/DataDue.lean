import Fruitchip.Proofs.ChannelMap

/-! Answers without data, or past it. While one is on its way, nothing comes to
CTRL2 or moves it: what is busy leads to the rest of a list that has no data block
left. -/

namespace Fruitchip.DataOut
open Embedded Embedded.Dma Embedded.Dma.Engine Firmware

variable {state : State} {index : Nat} {engine : Engine Object Memory} {read : DataRef → Nat → U8}

/-- What CTRL1 has still to hand out leads back to CTRL1. -/
def Listed (channels : Nat → Channel Object) : Prop :=
  ∃ list, (channels ctrl1Chan).readAddr.object = .controlList list ∧
    ∀ block ∈ (controlBlocks list).drop ((channels ctrl1Chan).readAddr.offset / 16), block.ctrl.chainTo = ctrl1Chan

/-- No answer on its way has still to fetch its data block: CTRL2 rests, and
whatever is busy leads to the rest of a list that does not come to CTRL2. -/
structure NoDataDue (channels : Nat → Channel Object) : Prop where
  ctrl2 : (channels ctrl2Chan).busy = false
  worker : ∀ index, index = data1Chan ∨ index = data2Chan → (channels index).busy = true →
    (channels index).ctrl.chainTo = ctrl1Chan ∧ Listed channels
  ctrl1 : (channels ctrl1Chan).busy = true → Listed channels
  busyCode : (channels busyPing).busy = true ∨ (channels busyPong).busy = true →
    (channels busyPong).ctrl.chainTo = ctrl1Chan → Listed channels

theorem quiet_idle (quiet : state.quiet) (inside : index < numDmaChannels) :
    (state.engine.channels index).busy = false := by
  have idle := List.all_eq_true.mp quiet index (List.mem_range.mpr inside)
  exact Bool.not_eq_true' _ ▸ idle

theorem NoDataDue.quiet (quiet : state.quiet) : NoDataDue state.engine.channels where
  ctrl2 := quiet_idle quiet (by decide)
  worker index worker busy := by
    have inside : index < numDmaChannels := by
      rcases worker with rfl | rfl <;> decide
    exact False.elim (Bool.eq_false_iff.mp (quiet_idle quiet inside) busy)
  ctrl1 busy := False.elim (Bool.eq_false_iff.mp (quiet_idle quiet (by decide)) busy)
  busyCode busy _ := by
    rcases busy with busy | busy
    all_goals exact False.elim (Bool.eq_false_iff.mp (quiet_idle quiet (by decide)) busy)

theorem status_listed {channels : Nat → Channel Object}
    (pointed : (channels ctrl1Chan).readAddr.object = .controlList .withStatusNoDataNoCrc) : Listed channels := by
  have chains : ∀ block ∈ controlBlocks .withStatusNoDataNoCrc, block.ctrl.chainTo = ctrl1Chan := by decide
  exact ⟨_, pointed, fun block member => chains block (List.mem_of_mem_drop member)⟩

theorem word_ctrl {block : Block Object} {words : Nat} {value : Ctrl} (word : block.word words = .ctrl value) :
    value = block.ctrl := by
  unfold Block.word at word
  split at word
  all_goals cases word
  rfl

theorem Listed.loads {word : Word Object} {value : Ctrl} (listed : Listed state.engine.channels)
    (loaded : (bus read).load state.engine.memory (state.engine.channels ctrl1Chan).readAddr = some word)
    (ctrl : word = .ctrl value) : value.chainTo = ctrl1Chan := by
  obtain ⟨list, pointed, chains⟩ := listed
  have found : blockWord (controlBlocks list) (state.engine.channels ctrl1Chan).readAddr.offset = some word := by
    simp only [bus, load, pointed] at loaded
    exact loaded
  obtain ⟨block, here, same⟩ := Option.map_eq_some_iff.mp found
  rw [word_ctrl (same.trans ctrl)]
  apply chains
  refine List.mem_of_getElem? (i := 0) ?_
  rw [List.getElem?_drop]
  exact here

theorem Mapped.listed (mapped : Mapped state) (stepped : state.engine.step (bus read) index = some engine)
    (listed : Listed state.engine.channels) : Listed engine.channels := by
  obtain ⟨list, pointed, chains⟩ := listed
  have alike : (state.engine.channels ctrl1Chan).Alike (engine.channels ctrl1Chan) := mapped.core_alike stepped rfl
  have onwards := Nat.div_le_div_right (c := 16) (alike.onwards ((mapped.connected ctrl1Chan).ring rfl))
  refine ⟨list, alike.reads.trans pointed, fun block member => chains block ?_⟩
  obtain ⟨more, same⟩ := Nat.exists_eq_add_of_le onwards
  rw [same, ← List.drop_drop] at member
  exact List.mem_of_mem_drop member

namespace NoDataDue

theorem mover (due : NoDataDue state.engine.channels) (mapped : Mapped state)
    (stepped : state.engine.step (bus read) index = some engine) :
    index = ctrl1Chan ∨ (index = data1Chan ∨ index = data2Chan) ∨ index = busyPing ∨ index = busyPong := by
  have busy := (Engine.step_cases stepped).1
  have used := mapped.used stepped
  have notCtrl2 : index ≠ ctrl2Chan := by
    rintro rfl
    exact Bool.eq_false_iff.mp due.ctrl2 busy
  simp only [firstUnclaimed, ctrl1Chan, ctrl2Chan, data1Chan, data2Chan, busyPing, busyPong] at *
  omega

theorem chains (due : NoDataDue state.engine.channels) (mapped : Mapped state)
    (stepped : state.engine.step (bus read) index = some engine) :
    (state.engine.channels index).ctrl.chainTo = ctrl1Chan ∧ Listed state.engine.channels ∨
      (state.engine.channels index).ctrl.chainTo = busyPing ∧ (index = busyPing ∨ index = busyPong) ∨
      (state.engine.channels index).ctrl.chainTo = busyPong ∧ index = busyPing := by
  have busy := (Engine.step_cases stepped).1
  have chains := (mapped.connected index).chains (mapped.used stepped)
  rcases due.mover mapped stepped with rfl | worker | rfl | rfl
  · exact .inl ⟨List.mem_singleton.mp chains, due.ctrl1 busy⟩
  · exact .inl (due.worker index worker busy)
  · rcases List.mem_cons.mp chains with ping | pong
    · exact .inr (.inl ⟨ping, .inl rfl⟩)
    · exact .inr (.inr ⟨List.mem_singleton.mp pong, rfl⟩)
  · rcases List.mem_cons.mp chains with ping | ctrl1
    · exact .inr (.inl ⟨ping, .inr rfl⟩)
    · exact .inl ⟨List.mem_singleton.mp ctrl1, due.busyCode (.inr busy) (List.mem_singleton.mp ctrl1)⟩

theorem reaches {other : Nat} (due : NoDataDue state.engine.channels) (mapped : Mapped state)
    (stepped : state.engine.step (bus read) index = some engine)
    (there : (bus read).registers (state.engine.channels index).writeAddr.object = some other) :
    index = ctrl1Chan ∧ other = data1Chan ∨ index = busyPong ∧ other = busyPing := by
  rcases programmed_cases ((mapped.connected index).reaches there) with ctrl1 | ⟨rfl, _⟩ | pong
  · exact .inl ctrl1
  · exact False.elim (Bool.eq_false_iff.mp due.ctrl2 (Engine.step_cases stepped).1)
  · exact .inr pong

theorem unchained {other : Nat} (due : NoDataDue state.engine.channels) (mapped : Mapped state)
    (stepped : state.engine.step (bus read) index = some engine)
    (apart : other ≠ ctrl1Chan ∧ other ≠ busyPing ∧ other ≠ busyPong) :
    (state.engine.channels index).ctrl.chainTo ≠ other := by
  intro chained
  rcases due.chains mapped stepped with ⟨ctrl1, _⟩ | ⟨ping, _⟩ | ⟨pong, _⟩
  · exact apart.1 (chained.symm.trans ctrl1)
  · exact apart.2.1 (chained.symm.trans ping)
  · exact apart.2.2 (chained.symm.trans pong)

theorem unit_worker {worker : Nat} (due : NoDataDue state.engine.channels) (mapped : Mapped state)
    (stepped : state.engine.step (bus read) index = some engine) (which : worker = data1Chan ∨ worker = data2Chan)
    (busy : (engine.channels worker).busy = true) :
    (engine.channels worker).ctrl.chainTo = ctrl1Chan ∧ Listed engine.channels := by
  have moved := (Engine.step_cases stepped).1
  have kept := mapped.listed stepped
  have apart : worker ≠ ctrl1Chan ∧ worker ≠ busyPing ∧ worker ≠ busyPong := by
    rcases which with rfl | rfl <;> decide
  obtain ⟨reached, touched, same | ⟨chained, _, _⟩⟩ := step_touches (mapped.apart index) stepped worker
  · rw [same] at busy ⊢
    cases touched with
    | self here alike =>
      subst here
      obtain ⟨chains, listed⟩ := due.worker worker which moved
      exact ⟨alike.ctrl ▸ chains, kept listed⟩
    | same =>
      obtain ⟨chains, listed⟩ := due.worker worker which busy
      exact ⟨chains, kept listed⟩
    | @written word _ _ there loaded rewritten =>
      rcases due.reaches mapped stepped there with ⟨rfl, _⟩ | ⟨_, ping⟩
      · have listed := due.ctrl1 moved
        refine ⟨?_, kept listed⟩
        cases rewritten with
        | ctrl value =>
          rw [Channel.triggered_ctrl]
          exact listed.loads loaded rfl
        | readAddr | writeAddr | transCount => exact (due.worker worker which busy).1
      · exact False.elim (apart.2.1 ping)
  · exact False.elim (due.unchained mapped stepped apart chained)

theorem starts {other : Nat} (due : NoDataDue state.engine.channels) (mapped : Mapped state)
    (stepped : state.engine.step (bus read) index = some engine) (busy : (engine.channels other).busy = true) :
    (state.engine.channels other).busy = true ∨ other = ctrl1Chan ∧ Listed state.engine.channels ∨
      other = data1Chan ∨ (other = busyPing ∨ other = busyPong) ∧
        ((state.engine.channels busyPing).busy = true ∨ (state.engine.channels busyPong).busy = true) := by
  have moved := (Engine.step_cases stepped).1
  rcases step_starts (mapped.apart index) stepped busy with before | chained | there
  · exact .inl before
  · rcases due.chains mapped stepped with ⟨ctrl1, listed⟩ | ⟨ping, rfl | rfl⟩ | ⟨pong, rfl⟩
    · exact .inr (.inl ⟨chained.symm.trans ctrl1, listed⟩)
    · exact .inr (.inr (.inr ⟨.inl (chained.symm.trans ping), .inl moved⟩))
    · exact .inr (.inr (.inr ⟨.inl (chained.symm.trans ping), .inr moved⟩))
    · exact .inr (.inr (.inr ⟨.inr (chained.symm.trans pong), .inl moved⟩))
  · rcases due.reaches mapped stepped there with ⟨_, data1⟩ | ⟨rfl, ping⟩
    · exact .inr (.inr (.inl data1))
    · exact .inr (.inr (.inr ⟨.inl ping, .inr moved⟩))

theorem still (due : NoDataDue state.engine.channels) (mapped : Mapped state)
    (stepped : state.engine.step (bus read) index = some engine) :
    engine.channels ctrl2Chan = state.engine.channels ctrl2Chan := by
  refine step_still (mapped.apart index) ((mapped.connected index).unreached (core_unprogrammed rfl))
    (due.unchained mapped stepped (by decide)) ?_ stepped
  rintro rfl
  exact Bool.eq_false_iff.mp due.ctrl2 (Engine.step_cases stepped).1

theorem unit (due : NoDataDue state.engine.channels) (mapped : Mapped state)
    (stepped : state.engine.step (bus read) index = some engine) : NoDataDue engine.channels := by
  have kept := mapped.listed stepped
  constructor
  case ctrl2 => rw [due.still mapped stepped, due.ctrl2]
  case worker => exact fun worker which busy => due.unit_worker mapped stepped which busy
  case ctrl1 =>
    intro busy
    rcases due.starts mapped stepped busy with before | ⟨_, listed⟩ | data1 | ⟨ping | pong, _⟩
    · exact kept (due.ctrl1 before)
    · exact kept listed
    all_goals contradiction
  case busyCode =>
    intro busy chained
    have alike : (state.engine.channels busyPong).Alike (engine.channels busyPong) := mapped.core_alike stepped rfl
    apply kept
    refine due.busyCode ?_ (alike.ctrl ▸ chained)
    rcases busy with ping | pong
    · rcases due.starts mapped stepped ping with before | ⟨ctrl1, _⟩ | data1 | ⟨_, code⟩
      · exact .inl before
      · contradiction
      · contradiction
      · exact code
    · rcases due.starts mapped stepped pong with before | ⟨ctrl1, _⟩ | data1 | ⟨_, code⟩
      · exact .inr before
      · contradiction
      · contradiction
      · exact code

theorem list {channels : Nat → Channel Object} (due : NoDataDue state.engine.channels)
    (listed : Listed channels)
    (same : ∀ index, index = ctrl2Chan ∨ index = data1Chan ∨ index = data2Chan →
      channels index = state.engine.channels index) : NoDataDue channels where
  ctrl2 := by rw [same ctrl2Chan (.inl rfl), due.ctrl2]
  worker index which busy := by
    rw [same index (.inr which)] at busy ⊢
    exact ⟨(due.worker index which busy).1, listed⟩
  ctrl1 _ := listed
  busyCode _ _ := listed

theorem code {channels : Nat → Channel Object} (due : NoDataDue state.engine.channels)
    (same : ∀ index, index ≠ busyPing → index ≠ busyPong → channels index = state.engine.channels index)
    (code : (channels busyPing).busy = true ∨ (channels busyPong).busy = true →
      (channels busyPong).ctrl.chainTo = ctrl1Chan → Listed channels) : NoDataDue channels := by
  have listed : Listed state.engine.channels → Listed channels := by
    unfold Listed
    rw [same ctrl1Chan (by decide) (by decide)]
    exact id
  constructor
  case ctrl2 => rw [same ctrl2Chan (by decide) (by decide), due.ctrl2]
  case worker =>
    intro index which busy
    have here : channels index = state.engine.channels index := by
      rcases which with rfl | rfl
      all_goals exact same _ (by decide) (by decide)
    rw [here] at busy ⊢
    obtain ⟨chains, list⟩ := due.worker index which busy
    exact ⟨chains, listed list⟩
  case ctrl1 =>
    intro busy
    rw [same ctrl1Chan (by decide) (by decide)] at busy
    exact listed (due.ctrl1 busy)
  case busyCode => exact code

end NoDataDue

end Fruitchip.DataOut
