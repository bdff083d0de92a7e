import Fruitchip.Client

/-! `fwfs.c`: the file system driver that shows the applications as files. Its
open files live in a table of eight slots. -/

namespace Fruitchip.Fwfs
open Embedded Client

/-- The error codes that the driver returns, all of them negative. -/
inductive Errno where
  | emfile
  | eio
  | enosys
  | ebadf
  | einval
  deriving DecidableEq, Repr

def maxFiles : Nat := 8

/-- `fwfs_file_t`. -/
structure File where
  mode : U8
  idx : U8
  size : U32
  attr : U32
  offset : U32
  deriving DecidableEq, Repr

def File.zero : File := ⟨0, 0, 0, 0, 0⟩

abbrev Slot := Fin maxFiles

/-- The table, and `privdata` of the file objects. -/
structure Driver (φ : Type) where
  fdHandle : Slot → File
  privdata : φ → Option Slot

variable {φ : Type} [DecidableEq φ]

/-- No file has been opened yet. -/
def Driver.initial : Driver φ := ⟨fun _ => .zero, fun _ => none⟩

def Driver.set (driver : Driver φ) (slot : Slot) (fd : File) : Driver φ :=
  { driver with fdHandle := fun other => if other = slot then fd else driver.fdHandle other }

def findFreeFileHandle (fdHandle : Slot → File) : Option Slot :=
  (List.finRange maxFiles).find? (fun i => (fdHandle i).size = 0)

def getFileHandleByIdx (fdHandle : Slot → File) (idx : U8) : Option Slot :=
  (List.finRange maxFiles).find? (fun i => (fdHandle i).size ≠ 0 ∧ (fdHandle i).idx = idx)

/-- '/'. -/
def slash : U8 := 0x2F

def getIdxFromName (name : List U8) : U8 := if name.getD 0 0 = slash then name.getD 2 0 else name.getD 1 0

def getModeFromName (name : List U8) : U8 := if name.getD 0 0 = slash then name.getD 1 0 else name.getD 0 0

/-- 'd'. -/
def fwfsModeDataChar : U8 := 0x64

/-- 'a'. -/
def fwfsModeAttrChar : U8 := 0x61

def modchipAppsSizeOffset : U32 := 0

def modchipAppsAttrOffset : U32 := 4

def modchipAppsAttrSize : U32 := 4

def modchipAppsDataOffset : U32 := 8

/-- Eight bytes stored at `&fd->size`, which lies in front of `attr`. -/
def File.storeSizeAttr (fd : File) (bytes : List U8) : File := { fd with size := wordOf bytes 0, attr := wordOf bytes 4 }

/-- Four bytes stored at `&fd->attr`. -/
def File.storeAttr (fd : File) (bytes : List U8) : File := { fd with attr := wordOf bytes 0 }

/-- The length and the attributes of an entry. -/
def readSizeAttr (answers : Answers) (idx : U8) (fd : File) : Bool × File :=
  modchipAppsReadWithRetry answers modchipAppsSizeOffset 8 idx File.storeSizeAttr true modchipCmdRetries fd

/-- The read of attribute mode, whose offset is `MODCHIP_APPS_ATTR_SIZE`. -/
def readAttr (answers : Answers) (idx : U8) (fd : File) : Bool × File :=
  modchipAppsReadWithRetry answers modchipAppsAttrSize 4 idx File.storeAttr true modchipCmdRetries fd

def fwfsOpen (driver : Driver φ) (file : φ) (name : List U8) (answers : Answers) : Driver φ × Except Errno Unit :=
  match findFreeFileHandle driver.fdHandle with
  | none => (driver, .error .emfile)
  | some slot =>
    let fd := { driver.fdHandle slot with idx := getIdxFromName name, mode := getModeFromName name }
    let held (fd : File) : Driver φ :=
      { driver.set slot fd with privdata := fun other => if other = file then some slot else driver.privdata other }
    if fd.mode = fwfsModeDataChar then
      let (done, fd) := readSizeAttr answers fd.idx fd
      if ¬ done then (driver.set slot fd, .error .eio)
      else (held { fd with offset := modchipAppsDataOffset }, .ok ())
    else if fd.mode = fwfsModeAttrChar then
      let (done, fd) := readAttr answers fd.idx fd
      if ¬ done then (driver.set slot fd, .error .eio)
      else (held { fd with size := modchipAppsAttrSize, offset := modchipAppsAttrOffset }, .ok ())
    else (driver.set slot fd, .error .enosys)

def fwfsClose (driver : Driver φ) (file : φ) : Driver φ × Except Errno Unit :=
  match driver.privdata file with
  | none => (driver, .error .ebadf)
  | some slot =>
    (driver.set slot { driver.fdHandle slot with idx := 0, size := 0, attr := 0, offset := 0 }, .ok ())

/-- The bytes at `ptr`, if they were written to, and the result. -/
def fwfsRead (driver : Driver φ) (file : φ) (size : U32) (answers : Answers) :
    Driver φ × Option (List U8) × Except Errno U32 :=
  match driver.privdata file with
  | none => (driver, none, .error .ebadf)
  | some slot =>
    let fd := driver.fdHandle slot
    if fd.size + modchipAppsDataOffset ≤ fd.offset then (driver, none, .ok 0)
    else
      let remainingSize := fd.size - (fd.offset - modchipAppsDataOffset)
      let availableSize := if size < remainingSize then size else remainingSize
      let (done, ptr) := modchipAppsReadWithRetry answers fd.offset availableSize fd.idx
        (fun _ bytes => some bytes) true modchipCmdRetries none
      if ¬ done then (driver, ptr, .error .eio)
      else (driver.set slot { fd with offset := fd.offset + availableSize }, ptr, .ok availableSize)

/-- `stat->size`. -/
def fwfsGetstat (driver : Driver φ) (name : List U8) (answers : Answers) : Except Errno U32 :=
  let idx := getIdxFromName name
  match getFileHandleByIdx driver.fdHandle idx with
  | none =>
    let (done, file) := readSizeAttr answers idx .zero
    if ¬ done then .error .eio else .ok file.size
  | some slot => .ok (driver.fdHandle slot).size

def seekSet : U32 := 0

def seekCur : U32 := 1

def seekEnd : U32 := 2

/-- The offset that `whence` asks for. -/
def seekOffset (fd : File) (offset whence : U32) : Option U32 :=
  if whence = seekSet then some (offset + modchipAppsDataOffset)
  else if whence = seekCur then some (fd.offset + offset)
  else if whence = seekEnd then some (fd.size + modchipAppsDataOffset - offset)
  else none

def fwfsLseek (driver : Driver φ) (file : φ) (offset whence : U32) : Driver φ × Except Errno U32 :=
  match driver.privdata file with
  | none => (driver, .error .ebadf)
  | some slot =>
    let fd := driver.fdHandle slot
    match seekOffset fd offset whence with
    | none => (driver, .error .einval)
    | some offset =>
      let offset := if offset.toInt < 0 then modchipAppsDataOffset else offset
      let offset := if fd.size + modchipAppsDataOffset < offset then fd.size + modchipAppsDataOffset else offset
      (driver.set slot { fd with offset }, .ok (offset - modchipAppsDataOffset))

/-- A call of the driver, with what the modchip answers during it. -/
inductive FsCall (φ : Type) where
  | openFile (file : φ) (name : List U8) (answers : Answers)
  | close (file : φ)
  | read (file : φ) (size : U32) (answers : Answers)
  | lseek (file : φ) (offset whence : U32)
  | getstat (name : List U8) (answers : Answers)

/-- The driver, and the file objects that are open: opened successfully and not
closed since. -/
structure Session (φ : Type) where
  driver : Driver φ
  opened : φ → Bool

def Session.initial : Session φ := ⟨.initial, fun _ => false⟩

def Session.step (session : Session φ) : FsCall φ → Session φ
  | .openFile file name answers =>
    let (driver, result) := fwfsOpen session.driver file name answers
    ⟨driver, fun other => if other = file then session.opened file || result.isOk else session.opened other⟩
  | .close file =>
    let (driver, _) := fwfsClose session.driver file
    ⟨driver, fun other => if other = file then false else session.opened other⟩
  | .read file size answers => { session with driver := (fwfsRead session.driver file size answers).1 }
  | .lseek file offset whence => { session with driver := (fwfsLseek session.driver file offset whence).1 }
  | .getstat _ _ => session

def Session.run (session : Session φ) (calls : List (FsCall φ)) : Session φ := calls.foldl Session.step session

/-- A file object is handed out for one `open` at a time, and closed once. -/
def Session.Allows (session : Session φ) : FsCall φ → Prop
  | .openFile file _ _ => session.opened file = false
  | .close file => session.opened file = true
  | _ => True

instance (session : Session φ) : (call : FsCall φ) → Decidable (session.Allows call)
  | .openFile file _ _ => inferInstanceAs (Decidable (session.opened file = false))
  | .close file => inferInstanceAs (Decidable (session.opened file = true))
  | .read .. | .lseek .. | .getstat .. => isTrue trivial

def Session.Legal : Session φ → List (FsCall φ) → Prop
  | _, [] => True
  | session, call :: rest => session.Allows call ∧ (session.step call).Legal rest

end Fruitchip.Fwfs
