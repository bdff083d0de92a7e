import Fruitchip.Client
import Fruitchip.Firmware.Answers
import Fruitchip.Firmware.Frames

/-! `load_elf.h` of the loader on the EE: stage 3 is read from the modchip,
segment by segment, and started. -/

namespace Fruitchip.Loader
open Embedded Client Firmware

abbrev Ram := U32 → U8

/-- Bytes stored one after the other. -/
def Ram.store (ram : Ram) (dst : U32) (bytes : List U8) : Ram := fun address =>
  bytes.getD (address - dst).toNat (ram address)

def Ram.memset (ram : Ram) (dst : U32) (value : U8) (count : Nat) : Ram := ram.store dst (List.replicate count value)

/-- The bytes of an object in memory. -/
def Ram.object (ram : Ram) (address : U32) (place : Nat) : U8 := ram (address + BitVec.ofNat 32 place)

/-- The address lies in an object of so many bytes. -/
def Covers (base : U32) (size : Nat) (address : U32) : Prop := (address - base).toNat < size

def Apart (base : U32) (size : Nat) (other : U32) (count : Nat) : Prop :=
  ∀ address, Covers base size address → ¬ Covers other count address

def elfMagic : U32 := 0x464c457f

def elfPtLoad : U32 := 1

/-- `elf_header_t`, with the first word of `ident`. -/
structure ElfHeader where
  ident : U32
  entry : U32
  phoff : U32
  phnum : U16

def sizeofElfHeader : Nat := 52

def ElfHeader.of (bytes : Nat → U8) : ElfHeader where
  ident := wordAt bytes 0
  entry := wordAt bytes 24
  phoff := wordAt bytes 28
  phnum := le16 (bytes 44) (bytes 45)

/-- `elf_pheader_t`. -/
structure ElfPHeader where
  type : U32
  offset : U32
  vaddr : U32
  filesz : U32
  memsz : U32

def sizeofElfPHeader : Nat := 32

def ElfPHeader.of (bytes : Nat → U8) : ElfPHeader where
  type := wordAt bytes 0
  offset := wordAt bytes 4
  vaddr := wordAt bytes 8
  filesz := wordAt bytes 16
  memsz := wordAt bytes 20

/-- Everything that can answer an attempt of `modchip_stage3_read`. -/
structure Bus (σ : Type) where
  answer (offset size : U32) (withCrc : Bool) : σ → Answer × σ

structure Console (σ : Type) where
  bus : σ
  ram : Ram
  /-- Whether the reads so far succeeded, with their retries. -/
  reads : List Bool

variable {σ : Type}

def modchipStage3Read (bus : Bus σ) (offset size dst : U32) (withCrc : Bool) (console : Console σ) :
    Bool × Console σ :=
  let (answer, state) := bus.answer offset size withCrc console.bus
  let (reply, filled) := answer.read size withCrc
  (reply.isOk, { console with bus := state, ram := filled.elim console.ram (console.ram.store dst) })

def modchipStage3ReadWithRetry (bus : Bus σ) (offset size dst : U32) (withCrc : Bool) (attemps : Nat)
    (console : Console σ) : Bool × Console σ :=
  let (read, console) := withRetry (fun _ => modchipStage3Read bus offset size dst withCrc) attemps 0 console
  (read, { console with reads := console.reads ++ [read] })

/-- What the console reads when the modchip has sent these bytes. -/
def received (size : Nat) (bytes : List U8) : Answer where
  r := wordOf bytes 0
  byte place := bytes.getD (4 + place) 0
  crcExpected := wordOf bytes (4 + size)

/-- The modchip receives what was poked, and the console what was sent. -/
def losslessBus (config : Config) : Bus FirmwareState where
  answer offset size withCrc firmware :=
    let (next, events) := (machine config).run firmware (Call.stage3Read offset size withCrc).poked
    (received size.toNat (emit config next.world.flash 0 (.placeholder, 0) events), next)

/-- Where the locals `eh` and `eph` lie. -/
structure Frame where
  eh : U32
  eph : U32
  apart : Apart eh sizeofElfHeader eph sizeofElfPHeader

/-- The call of `ExecPS2`. -/
structure Exec where
  pc : U32
  gp : U32
  argc : Nat
  argv : List String
  deriving DecidableEq

def Frame.header (frame : Frame) (ram : Ram) : ElfHeader := .of (ram.object frame.eh)

def Frame.pheader (frame : Frame) (ram : Ram) : ElfPHeader := .of (ram.object frame.eph)

/-- The body of the loop over the program headers. An error is the message
before `return false`. -/
def loadSegment (bus : Bus σ) (frame : Frame) (i : Nat) (console : Console σ) : Except String Unit × Console σ :=
  let (read, console) := modchipStage3ReadWithRetry bus
    ((frame.header console.ram).phoff + BitVec.ofNat 32 (sizeofElfPHeader * i)) (BitVec.ofNat 32 sizeofElfPHeader)
    frame.eph true modchipCmdRetries console
  if !read then (.error "failed to read elf section header", console)
  else
    let eph := frame.pheader console.ram
    if eph.type ≠ elfPtLoad then (.ok (), console)
    else
      let (read, console) := modchipStage3ReadWithRetry bus eph.offset eph.filesz eph.vaddr true modchipCmdRetries
        console
      if !read then (.error "failed to read elf section", console)
      else
        let eph := frame.pheader console.ram
        if eph.filesz < eph.memsz then
          (.ok (), { console with ram := console.ram.memset (eph.vaddr + eph.filesz) 0 (eph.memsz - eph.filesz).toNat })
        else (.ok (), console)

/-- The program headers from `i` on. -/
def loadSegments (bus : Bus σ) (frame : Frame) (i : Nat) (console : Console σ) : Except String Unit × Console σ :=
  if i < (frame.header console.ram).phnum.toNat then
    match loadSegment bus frame i console with
    | (.ok (), next) => loadSegments bus frame (i + 1) next
    | (.error message, next) => (.error message, next)
  else (.ok (), console)
termination_by 2 ^ 16 - i
decreasing_by
  exact Nat.sub_lt_sub_left (Nat.lt_trans ‹i < _› (BitVec.isLt _)) (Nat.lt_succ_self i)

/-- Either the message before `return false`, or the call of `ExecPS2`. -/
def execPS2FromModchipStage3 (bus : Bus σ) (frame : Frame) (argc : Nat) (argv : List String) (console : Console σ) :
    Except String Exec × Console σ :=
  let (read, console) := modchipStage3ReadWithRetry bus 0 (BitVec.ofNat 32 sizeofElfHeader) frame.eh true
    modchipCmdRetries console
  if !read then (.error "failed to read elf header", console)
  else if (frame.header console.ram).ident ≠ elfMagic then (.error "not an elf", console)
  else
    match loadSegments bus frame 0 console with
    | (.error message, console) => (.error message, console)
    | (.ok (), console) => (.ok ⟨(frame.header console.ram).entry, 0, argc, argv⟩, console)

end Fruitchip.Loader
