import Fruitchip.Library.Runs
import Fruitchip.Menu.ListComponent

/-! The highlight of a list stays on one of its items. Only an empty list upsets
it: an index that moves over no items wraps around, and none is below its length. -/

namespace Fruitchip.Menu
open Embedded

variable {list next : ListState} {tests : Nat} {idx : U32} {call : ListCall}

namespace ListState

theorem listLen_toNat (few : list.items.length < 2 ^ 32) : list.listLen.toNat = list.items.length :=
  toNat_ofNat_of_lt few

theorem listLen_le (list : ListState) : list.listLen.toNat ≤ list.items.length := by
  unfold listLen
  rw [BitVec.toNat_ofNat]
  exact Nat.mod_le _ _

theorem listLen_ne_zero (few : list.items.length < 2 ^ 32) (nonempty : 0 < list.items.length) : list.listLen ≠ 0 := by
  have len := listLen_toNat few
  bv_omega

theorem hiliteUp_lt (few : list.items.length < 2 ^ 32) (inside : list.hiliteIdx.toNat < list.items.length) :
    list.hiliteUp.hiliteIdx.toNat < list.items.length := by
  have len := listLen_toNat few
  unfold hiliteUp
  dsimp only
  split
  · bv_omega
  · bv_omega

theorem hiliteDown_lt (few : list.items.length < 2 ^ 32) (inside : list.hiliteIdx.toNat < list.items.length) :
    list.hiliteDown.hiliteIdx.toNat < list.items.length := by
  have len := listLen_toNat few
  unfold hiliteDown
  dsimp only
  split
  · bv_omega
  next below =>
    rw [BitVec.not_lt] at below
    bv_omega

theorem lowerHiliteWithin_empty (empty : list.listLen = 0) : list.lowerHiliteWithin tests = none := by
  apply whileLoop_forever fun list : ListState => list.listLen = 0
  · intro list empty
    rw [empty, BitVec.le_def]
    exact Nat.zero_le _
  · intro list empty
    exact empty
  · exact empty

theorem lowerHiliteWithin_ends (nonempty : list.listLen ≠ 0) (enough : list.hiliteIdx.toNat < tests) :
    ∃ next, list.lowerHiliteWithin tests = some next := by
  apply whileLoop_ends (fun now : ListState => now.listLen = list.listLen) fun now => now.hiliteIdx.toNat
  · intro now same _
    exact same
  · intro now same above
    rw [same] at above
    dsimp only
    bv_omega
  · rfl
  · exact enough

theorem lowerHiliteWithin_spec (ended : list.lowerHiliteWithin tests = some next) :
    next.items = list.items ∧ next.hiliteIdx.toNat < next.items.length := by
  have kept : ∀ now : ListState, now.items = list.items → now.listLen ≤ now.hiliteIdx →
      { now with hiliteIdx := now.hiliteIdx - 1 }.items = list.items := by
    intro now same _
    exact same
  have ⟨items, stop⟩ := whileLoop_leaves (fun now => now.items = list.items) kept rfl ended
  have below : next.hiliteIdx < next.listLen := BitVec.not_le.mp stop
  exact ⟨items, Nat.lt_of_lt_of_le (BitVec.lt_def.mp below) next.listLen_le⟩

theorem lowerHilite_loops {len hiliteIdx result : U32} (lowered : lowerHilite len hiliteIdx = some result)
    (list : ListState) (same : list.listLen = len) :
    ∃ tests, { list with hiliteIdx }.lowerHiliteWithin tests = some { list with hiliteIdx := result } := by
  fun_induction lowerHilite len hiliteIdx with
  | case1 hiliteIdx below =>
    cases lowered
    rw [← same] at below
    exact ⟨1, if_neg (BitVec.not_le.mpr below)⟩
  | case2 => cases lowered
  | case3 hiliteIdx above _ ih =>
    obtain ⟨tests, ended⟩ := ih lowered
    rw [← same, BitVec.not_lt] at above
    exact ⟨tests + 1, (if_pos above).trans ended⟩

theorem lowerHilite_result (ended : list.lowerHiliteWithin tests = some next) :
    lowerHilite list.listLen list.hiliteIdx = some next.hiliteIdx := by
  induction tests generalizing list with
  | zero => cases ended
  | succ tests ih =>
    unfold lowerHilite
    split
    next below =>
      rw [lowerHiliteWithin, whileLoop, if_neg (BitVec.not_le.mpr below)] at ended
      cases ended
      rfl
    next above =>
      have round : list.listLen ≤ list.hiliteIdx := BitVec.not_lt.mp above
      split
      next zero =>
        -- the index wraps around, but the loop goes on
        have empty : list.listLen = 0 := by bv_omega
        rw [lowerHiliteWithin_empty empty] at ended
        cases ended
      next =>
        rw [lowerHiliteWithin, whileLoop, if_pos round] at ended
        exact ih ended

/-- Removing an item leaves what the loop of the source leaves, and nothing if
that loop does not end. -/
theorem listRemoveItem_iff :
    list.listRemoveItem idx = some next ↔ idx.toNat < list.items.length ∧ list.Returns (.removeItem idx) next := by
  unfold listRemoveItem
  dsimp only
  constructor
  · intro removed
    split at removed
    next inside =>
      obtain ⟨hiliteIdx, lowered, rfl⟩ := Option.map_eq_some_iff.mp removed
      exact ⟨inside, lowerHilite_loops lowered { list with items := list.items.eraseIdx idx.toNat } rfl⟩
    next => cases removed
  · intro ⟨inside, tests, ended⟩
    have ⟨items, _⟩ := lowerHiliteWithin_spec ended
    have lowered := lowerHilite_result ended
    rw [if_pos inside]
    have lowered : lowerHilite (BitVec.ofNat 32 (list.items.eraseIdx idx.toNat).length) list.hiliteIdx =
        some next.hiliteIdx := lowered
    rw [lowered]
    obtain ⟨_, _⟩ := next
    cases items
    rfl

theorem listRemoveItem_spec (removed : list.listRemoveItem idx = some next) :
    next.items = list.items.eraseIdx idx.toNat ∧ next.hiliteIdx.toNat < next.items.length := by
  obtain ⟨_, _, ended⟩ := listRemoveItem_iff.mp removed
  exact lowerHiliteWithin_spec ended

/-- What is promised of the highlight. -/
structure InRange (list : ListState) : Prop where
  hilite : list.hiliteIdx < list.listLen ∨ list.items = [] ∧ list.hiliteIdx = 0
  /-- Indexing the items by it finds one. -/
  indexed : list.items ≠ [] → ∃ item, list.items[list.hiliteIdx.toNat]? = some item

structure Sound (list : ListState) : Prop where
  few : list.items.length < 2 ^ 32
  hilite : list.hiliteIdx.toNat < list.items.length ∨ list.items = [] ∧ list.hiliteIdx = 0

theorem Sound.inRange (sound : list.Sound) : list.InRange := by
  have len := listLen_toNat sound.few
  rcases sound.hilite with inside | empty
  · constructor
    · apply Or.inl
      rw [BitVec.lt_def, len]
      exact inside
    · intro _
      exact ⟨_, List.getElem?_eq_getElem inside⟩
  · exact ⟨.inr empty, fun nonempty => absurd empty.1 nonempty⟩

theorem InRange.zero (range : list.InRange) (empty : list.items = []) : list.hiliteIdx = 0 := by
  rcases range.hilite with below | ⟨_, zero⟩
  · have len := list.listLen_le
    have none := congrArg List.length empty
    have below := BitVec.lt_def.mp below
    rw [List.length_nil] at none
    omega
  · exact zero

/-- A length that has wrapped around to zero is above no index. -/
theorem InRange.few (range : list.InRange) (atMost : list.items.length ≤ 2 ^ 32) : list.items.length < 2 ^ 32 := by
  apply Nat.lt_of_le_of_ne atMost
  intro full
  rcases range.hilite with below | ⟨empty, _⟩
  · have len : list.listLen = 0 := by
      rw [listLen, full]
      rfl
    rw [len] at below
    exact BitVec.not_lt_zero below
  · rw [empty] at full
    cases full

theorem empty_sound : ListState.empty.Sound := ⟨by decide, .inr ⟨rfl, rfl⟩⟩

end ListState

/-- What a caller keeps to: an item that is removed is there. -/
def ListCall.Legal (len : Nat) : ListCall → Prop
  | .removeItem idx => idx.toNat < len
  | _ => True

instance (len : Nat) : (call : ListCall) → Decidable (call.Legal len)
  | .removeItem idx => inferInstanceAs (Decidable (idx.toNat < len))
  | .pushItem _ | .clear | .handleInput _ => inferInstanceAs (Decidable True)

def ListCall.lenAfter (len : Nat) : ListCall → Nat
  | .pushItem _ => len + 1
  | .removeItem _ => len - 1
  | .clear => 0
  | .handleInput _ => len

/-- The highlight is not moved over an empty list, the only item is not removed,
and the length fits its word. -/
def ListCall.SparesEmpty (len : Nat) : ListCall → Prop
  | .pushItem _ => len + 1 < 2 ^ 32
  | .removeItem _ => len ≠ 1
  | .clear => True
  | .handleInput input => input.up = true ∨ input.down = true → len ≠ 0

instance (len : Nat) : (call : ListCall) → Decidable (call.SparesEmpty len)
  | .pushItem _ => inferInstanceAs (Decidable (len + 1 < 2 ^ 32))
  | .removeItem _ => inferInstanceAs (Decidable (len ≠ 1))
  | .clear => inferInstanceAs (Decidable True)
  | .handleInput input => inferInstanceAs (Decidable (input.up = true ∨ input.down = true → len ≠ 0))

namespace ListState

theorem length_after (legal : call.Legal list.items.length) (returned : list.Returns call next) :
    next.items.length = call.lenAfter list.items.length := by
  obtain ⟨tests, returned⟩ := returned
  cases call with
  | pushItem item =>
    cases returned
    exact List.length_append
  | removeItem idx =>
    have ⟨items, _⟩ := lowerHiliteWithin_spec returned
    rw [items]
    exact List.length_eraseIdx_of_lt legal
  | clear =>
    cases returned
    rfl
  | handleInput input =>
    cases returned
    unfold listHandleInput
    split
    · rfl
    split
    · rfl
    · rfl

theorem Sound.returns (sound : list.Sound) (legal : call.Legal list.items.length)
    (spares : call.SparesEmpty list.items.length) : ∃ next, list.Returns call next := by
  cases call with
  | removeItem idx =>
    have left : (list.items.eraseIdx idx.toNat).length = list.items.length - 1 := List.length_eraseIdx_of_lt legal
    have others : 0 < list.items.length - 1 := by
      have inside : idx.toNat < list.items.length := legal
      have several : list.items.length ≠ 1 := spares
      omega
    have nonempty : { list with items := list.items.eraseIdx idx.toNat }.listLen ≠ 0 := by
      apply listLen_ne_zero
      · show (list.items.eraseIdx idx.toNat).length < 2 ^ 32
        rw [left]
        exact Nat.lt_of_le_of_lt (Nat.sub_le _ _) sound.few
      · show 0 < (list.items.eraseIdx idx.toNat).length
        rw [left]
        exact others
    obtain ⟨next, ended⟩ := lowerHiliteWithin_ends nonempty (Nat.lt_succ_self _)
    exact ⟨next, _, ended⟩
  | _ => exact ⟨_, 0, rfl⟩

theorem Sound.removes (sound : list.Sound) (inside : idx.toNat < list.items.length) (others : list.items.length ≠ 1) :
    ∃ next, list.listRemoveItem idx = some next := by
  obtain ⟨next, returned⟩ := @Sound.returns list (.removeItem idx) sound inside others
  exact ⟨next, listRemoveItem_iff.mpr ⟨inside, returned⟩⟩

theorem Sound.handled (sound : list.Sound) {input : Pad}
    (nonempty : input.up = true ∨ input.down = true → list.items.length ≠ 0) :
    (list.listHandleInput input).2.Sound := by
  have inside (some : list.items.length ≠ 0) : list.hiliteIdx.toNat < list.items.length := by
    rcases sound.hilite with inside | ⟨empty, _⟩
    · exact inside
    · exact absurd (congrArg List.length empty) some
  unfold listHandleInput
  split
  next up => exact ⟨sound.few, .inl (hiliteUp_lt sound.few (inside (nonempty (.inl up))))⟩
  split
  next down => exact ⟨sound.few, .inl (hiliteDown_lt sound.few (inside (nonempty (.inr down))))⟩
  · exact sound

theorem Sound.step (sound : list.Sound) (legal : call.Legal list.items.length)
    (spares : call.SparesEmpty list.items.length) (returned : list.Returns call next) : next.Sound := by
  have length := length_after legal returned
  obtain ⟨tests, returned⟩ := returned
  cases call with
  | pushItem item =>
    cases returned
    refine ⟨length ▸ spares, .inl ?_⟩
    rw [length]
    show list.hiliteIdx.toNat < list.items.length + 1
    rcases sound.hilite with inside | ⟨_, zero⟩
    · omega
    · rw [zero]
      exact Nat.succ_pos _
  | removeItem idx =>
    refine ⟨?_, .inl (lowerHiliteWithin_spec returned).2⟩
    rw [length]
    exact Nat.lt_of_le_of_lt (Nat.sub_le _ _) sound.few
  | clear =>
    cases returned
    exact empty_sound
  | handleInput input =>
    cases returned
    exact sound.handled spares

theorem Sound.eq_empty (sound : list.Sound) (nothing : list.items.length = 0) : list = .empty := by
  have empty := List.length_eq_zero_iff.mp nothing
  have zero := sound.inRange.zero empty
  cases list
  cases empty
  cases zero
  rfl

theorem handled_empty {input : Pad} (moved : input.up = true ∨ input.down = true) :
    ¬ (ListState.empty.listHandleInput input).2.InRange := by
  unfold listHandleInput
  intro range
  split at range
  · exact absurd (range.zero rfl) (by decide)
  split at range
  · exact absurd (range.zero rfl) (by decide)
  next up down => exact moved.elim up down

theorem Sound.spares (sound : list.Sound) (legal : call.Legal list.items.length) (returned : list.Returns call next)
    (promised : next.InRange) : call.SparesEmpty list.items.length := by
  have length := length_after legal returned
  obtain ⟨tests, returned⟩ := returned
  cases call with
  | pushItem item =>
    have few := promised.few (by rw [length]; exact sound.few)
    rw [length] at few
    exact few
  | removeItem idx =>
    intro single
    have nothing : (list.items.eraseIdx idx.toNat).length = 0 := by
      rw [List.length_eraseIdx_of_lt legal, single]
    have empty : { list with items := list.items.eraseIdx idx.toNat }.listLen = 0 :=
      congrArg (BitVec.ofNat 32) nothing
    have stuck : none = some next := (lowerHiliteWithin_empty empty).symm.trans returned
    cases stuck
  | clear => exact trivial
  | handleInput input =>
    intro moved nothing
    cases returned
    rw [sound.eq_empty nothing] at promised
    exact handled_empty moved promised

end ListState

/-- Every call of a run returns and leaves the highlight on an item, or an empty
list without one, exactly if no call meets an empty list. -/
theorem hilite_in_range_iff {calls : List ListCall} (legal : Foreseen ListCall.lenAfter ListCall.Legal 0 calls) :
    Sustained ListState.Returns ListState.InRange .empty calls ↔
      Foreseen ListCall.lenAfter ListCall.SparesEmpty 0 calls := by
  apply sustained_iff_foreseen (fun list : ListState => list.items.length) (fun _ => ListState.Sound.inRange)
  · intro list call next legal returned
    exact ListState.length_after legal returned
  · intro list call sound legal spares
    exact sound.returns legal spares
  · intro list call next sound legal spares returned
    exact sound.step legal spares returned
  · intro list call next sound legal returned promised
    exact sound.spares legal returned promised
  · exact ListState.empty_sound
  · exact legal

/-- Two items, of which the last is highlighted when it is removed. -/
theorem hilite_in_range_two :
    Sustained ListState.Returns ListState.InRange .empty [.pushItem ⟨.static "No"⟩, .pushItem ⟨.static "Yes"⟩,
      .handleInput { up := true }, .removeItem 1, .handleInput { down := true }, .clear, .handleInput {}] :=
  (hilite_in_range_iff (by decide)).mpr (by decide)

/-- Moving over an empty list leaves an index to no item, and removing the only
item never returns. -/
theorem empty_list_breaks :
    ¬ Sustained ListState.Returns ListState.InRange .empty [.handleInput { up := true }] ∧
    ¬ Sustained ListState.Returns ListState.InRange .empty [.handleInput { down := true }] ∧
    Foreseen ListCall.lenAfter ListCall.Legal 0 [.pushItem ⟨.static "No"⟩, .removeItem 0] ∧
    ¬ Sustained ListState.Returns ListState.InRange .empty [.pushItem ⟨.static "No"⟩, .removeItem 0] := by
  refine ⟨?_, ?_, ⟨trivial, Nat.lt_succ_self 0, trivial⟩, ?_⟩
  · rintro ⟨_, _, later⟩
    exact ListState.handled_empty (.inl rfl) (later _ ⟨0, rfl⟩)
  · rintro ⟨_, _, later⟩
    exact ListState.handled_empty (.inr rfl) (later _ ⟨0, rfl⟩)
  · rintro ⟨_, _, later⟩
    obtain ⟨_, ⟨next, tests, ended⟩, _⟩ := later _ ⟨0, rfl⟩
    have stuck : none = some next := (ListState.lowerHiliteWithin_empty rfl).symm.trans ended
    cases stuck

end Fruitchip.Menu
