import Fruitchip.Library.Bytes
import Fruitchip.Library.Programs
import Mathlib.Logic.Function.Basic

/-! `components/list.c`: a list with a highlighted item. -/

namespace Fruitchip.Menu
open Embedded

/-- `wstring_t`: a string constant, or characters copied from a buffer. -/
inductive WString where
  | static (text : String)
  | copied (str : List U8)
  deriving DecidableEq, Repr

/-- `list_item_t`, of which only the text on the left is read back. -/
structure ListItem where
  leftText : WString
  deriving DecidableEq, Repr

/-- `list_state_t`. -/
structure ListState where
  items : List ListItem
  hiliteIdx : U32
  deriving DecidableEq, Repr

/-- The bits of `input` that the scenes look at. -/
structure Pad where
  up : Bool := false
  down : Bool := false
  left : Bool := false
  right : Bool := false
  cross : Bool := false
  circle : Bool := false
  triangle : Bool := false
  square : Bool := false
  start : Bool := false
  deriving DecidableEq, Repr

namespace ListState

def empty : ListState := ⟨[], 0⟩

/-- `array_list_item_init`, which leaves the rest of the struct alone. -/
def initItems (list : ListState) : ListState := { list with items := [] }

def listLen (list : ListState) : U32 := BitVec.ofNat 32 list.items.length

/-- PAD_UP of `list_handle_input`. -/
def hiliteUp (list : ListState) : ListState :=
  { list with hiliteIdx := if list.hiliteIdx = 0 then list.listLen - 1 else list.hiliteIdx - 1 }

/-- PAD_DOWN of `list_handle_input`. -/
def hiliteDown (list : ListState) : ListState :=
  let hiliteIdx := list.hiliteIdx + 1
  { list with hiliteIdx := if list.listLen - 1 < hiliteIdx then 0 else hiliteIdx }

def listHandleInput (list : ListState) (input : Pad) : Bool × ListState :=
  if input.up then (true, list.hiliteUp)
  else if input.down then (true, list.hiliteDown)
  else (false, list)

/-- The index of the new item, and the list with it. -/
def listPushItem (list : ListState) (item : ListItem) : U32 × ListState :=
  (list.listLen, { list with items := list.items ++ [item] })

/-- The loop at the end of `list_remove_item`. Below zero the index wraps around,
and no index is below the length of an empty list: the loop does not end. -/
def lowerHilite (len hiliteIdx : U32) : Option U32 :=
  if hiliteIdx < len then some hiliteIdx
  else if hiliteIdx = 0 then none
  else lowerHilite len (hiliteIdx - 1)
termination_by hiliteIdx.toNat
decreasing_by
  next positive =>
    have := BitVec.toNat_ne_iff_ne.mpr positive
    bv_omega

/-- Removing needs an index inside the list. -/
def listRemoveItem (list : ListState) (idx : U32) : Option ListState :=
  if idx.toNat < list.items.length then
    let items := list.items.eraseIdx idx.toNat
    (lowerHilite (BitVec.ofNat 32 items.length) list.hiliteIdx).map fun hiliteIdx => { list with items, hiliteIdx }
  else none

def listClear (_ : ListState) : ListState := ⟨[], 0⟩

/-- The loop at the end of `list_remove_item` in single rounds, if it ends within
so many tests of its condition. -/
def lowerHiliteWithin (tests : Nat) (list : ListState) : Option ListState :=
  whileLoop (fun list => list.listLen ≤ list.hiliteIdx) (fun list => { list with hiliteIdx := list.hiliteIdx - 1 })
    tests list

end ListState

/-- The calls that change a list. -/
inductive ListCall where
  | pushItem (item : ListItem)
  | removeItem (idx : U32)
  | clear
  | handleInput (input : Pad)
  deriving DecidableEq, Repr

namespace ListState

/-- What a call leaves, if its loop ends within so many tests of its condition. -/
def callWithin (tests : Nat) (list : ListState) : ListCall → Option ListState
  | .pushItem item => some (list.listPushItem item).2
  | .removeItem idx => { list with items := list.items.eraseIdx idx.toNat }.lowerHiliteWithin tests
  | .clear => some list.listClear
  | .handleInput input => some (list.listHandleInput input).2

/-- The call returns, with this list. -/
def Returns (list : ListState) (call : ListCall) (next : ListState) : Prop :=
  ∃ tests, list.callWithin tests call = some next

end ListState

/-! `wstring.h`: the names of the apps as wide characters, and the copies that a
list makes of its items. -/

abbrev WChar := BitVec 32

/-- `mbtowc` in the C locale: how many bytes it takes, and the character. -/
def mbtowc : List U8 → Int × WChar
  | [] => (-1, 0)
  | byte :: _ => (if byte = 0 then 0 else 1, byte.setWidth 32)

/-- The loop of `wstring_new_copied_str`. -/
def copyStr (data : Nat → WChar) (i : Nat) (str : List U8) : Nat → WChar :=
  if str = [] then data
  else
    let (wcharLen, wchar) := mbtowc str
    if wcharLen < 1 then data
    else copyStr (Function.update data i wchar) (i + 1) (str.drop wcharLen.toNat)
termination_by str.length
decreasing_by
  have := List.length_pos_of_ne_nil ‹_›
  rw [List.length_drop]
  omega

/-- The buffer for `str`, which is `malloc` where nothing is stored. -/
def wstringNewCopiedStr (malloc : Nat → WChar) (str : List U8) : List WChar :=
  (List.range (str.length + 1)).map (copyStr malloc 0 str)

/-- The characters before the first null. Without one it reads on behind the
buffer. -/
def wcsdup (str : List WChar) : Option (List WChar) :=
  if 0 ∈ str then some (str.takeWhile (· ≠ 0)) else none

/-- `list_item_t` with the buffers of its texts. -/
structure ListItemText where
  leftText : Option (List WChar)
  rightText : Option (List WChar)
  deriving DecidableEq, Repr

def copiedText : Option (List WChar) → Option (Option (List WChar))
  | none => some none
  | some text => (wcsdup text).map some

def listItemCopy (src : ListItemText) : Option ListItemText := do
  let leftText ← copiedText src.leftText
  let rightText ← copiedText src.rightText
  pure ⟨leftText, rightText⟩

end Fruitchip.Menu
