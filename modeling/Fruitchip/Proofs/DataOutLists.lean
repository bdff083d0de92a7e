import Fruitchip.Proofs.DataOutPhases

/-! What the control lists mean, block after block: the bytes that each of them
pushes and the checksum that it leaves in the sniffer. How the channels take
turns is left to `DataOutFraming`. -/

namespace Fruitchip.DataOut
open Embedded Embedded.Dma Firmware

def sendData (read : DataRef → Nat → U8) (memory : Memory) : Option Memory :=
  transfer (bus read) data2Chan (dataBlock memory).ctrl memory.transCount memory.readAddr (at0 .txf) memory

/-- The blocks of a list one after the other, with the data between them. -/
def runBlocks (read : DataRef → Nat → U8) : List (Block Object) → Memory → Option Memory
  | [], _ => none
  | block :: rest, memory =>
    if block.ctrl.en then
      (transfer (bus read) data1Chan block.ctrl block.transCount block.readAddr block.writeAddr memory).bind fun memory =>
        (if block.ctrl.chainTo = ctrl2Chan then sendData read memory else some memory).bind (runBlocks read rest)
    else some memory

def dataUnits (count : Nat) : Nat := 4 + max 1 count

def blockUnits (count : Nat) (block : Block Object) : Nat :=
  if block.ctrl.chainTo = ctrl2Chan then dataUnits count else 0

def listUnits (count : Nat) : List (Block Object) → Nat
  | [] => 0
  | block :: rest =>
    if block.ctrl.en then 4 + (max 1 block.transCount + (blockUnits count block + listUnits count rest)) else 4

variable {read : DataRef → Nat → U8} {memory : Memory}

/-- One byte for the FIFO, past the sniffer. -/
def pushByte (index : Nat) (ctrl : Ctrl) (memory : Memory) (byte : U8) : Memory :=
  let sniffed := sniff memory index ctrl (byteWord byte)
  { sniffed with pushed := sniffed.pushed ++ [byte] }

/-- A control word for single bytes that all go to one register. -/
structure Bytewise (ctrl : Ctrl) : Prop where
  dataSize : ctrl.dataSize = 0
  incrRead : ctrl.incrRead = true
  incrWrite : ctrl.incrWrite = false
  ringSize : ctrl.ringSize = 0

theorem transfer_bytes {index : Nat} {ctrl : Ctrl} (bytewise : Bytewise ctrl) {object : Object} {byte : Nat → U8}
    {holds : Memory → Prop} (kept : ∀ memory byte, holds memory → holds (pushByte index ctrl memory byte))
    (loads : ∀ memory offset, holds memory → load read memory ⟨object, offset⟩ = some (byteWord (byte offset)))
    (count start : Nat) (begins : holds memory) :
    transfer (bus read) index ctrl count ⟨object, start⟩ (at0 .txf) memory =
      some (((List.range' start count).map byte).foldl (pushByte index ctrl) memory) := by
  induction count generalizing start memory with
  | zero => rfl
  | succ count ih =>
    have stored : store (sniff memory index ctrl (byteWord (byte start))) (at0 .txf) (byteWord (byte start)) =
        some (pushByte index ctrl memory (byte start)) := by
      simp [store, byteWord, pushByte, at0]
    have forth : advance ctrl ctrl.incrRead (!ctrl.ringSel) ⟨object, start⟩ = ⟨object, start + 1⟩ := by
      simp [advance, bytewise.incrRead, bytewise.dataSize, bytewise.ringSize]
    have still : advance ctrl ctrl.incrWrite ctrl.ringSel (at0 .txf) = at0 .txf := by
      simp [advance, bytewise.incrWrite]
    have here := loads memory start begins
    have step : transfer (bus read) index ctrl (count + 1) ⟨object, start⟩ (at0 .txf) memory =
        transfer (bus read) index ctrl count ⟨object, start + 1⟩ (at0 .txf) (pushByte index ctrl memory (byte start)) := by
      rw [transfer, forth, still]
      show (load read memory ⟨object, start⟩).bind _ = _
      rw [here, Option.bind_some]
      show (store (sniff memory index ctrl (byteWord (byte start))) (at0 .txf) (byteWord (byte start))).bind _ = _
      rw [stored, Option.bind_some]
    rw [step, ih (start + 1) (kept memory _ begins)]
    rfl

theorem sniff_unseen {index : Nat} {ctrl : Ctrl} (unseen : ctrl.sniffEn = false) (word : Word Object) :
    (bus read).sniff memory index ctrl word = memory := by
  cases word with
  | bits value => exact if_neg fun all => Bool.false_ne_true (unseen.symm.trans all.2.2)
  | address value => rfl
  | count value => rfl
  | ctrl value => rfl

theorem foldl_pushByte_unseen {index : Nat} {ctrl : Ctrl} (unseen : ctrl.sniffEn = false) (bytes : List U8) :
    bytes.foldl (pushByte index ctrl) memory = { memory with pushed := memory.pushed ++ bytes } := by
  induction bytes generalizing memory with
  | nil => simp
  | cons byte bytes ih =>
    have first : pushByte index ctrl memory byte = { memory with pushed := memory.pushed ++ [byte] } := by
      simp [pushByte, sniff, byteWord, unseen]
    rw [List.foldl_cons, first, ih]
    simp

/-- The checksum after bytes of a channel that the sniffer may watch. -/
def sniffed (memory : Memory) (bytes : List U8) : U32 :=
  if memory.sniffEnabled ∧ memory.sniffChannel = data2Chan then Crc.crc32 memory.sniffData bytes else memory.sniffData

theorem foldl_pushByte_seen {ctrl : Ctrl} (seen : ctrl.sniffEn = true) (bytes : List U8) :
    bytes.foldl (pushByte data2Chan ctrl) memory =
      { memory with pushed := memory.pushed ++ bytes, sniffData := sniffed memory bytes } := by
  induction bytes generalizing memory with
  | nil => simp [sniffed, Crc.crc32]
  | cons byte bytes ih =>
    rw [List.foldl_cons, ih]
    by_cases watched : memory.sniffEnabled = true ∧ memory.sniffChannel = data2Chan
    · simp [pushByte, sniff, byteWord, seen, watched, sniffed, Crc.crc32]
    · have other : ¬ (memory.sniffEnabled = true ∧ memory.sniffChannel = data2Chan ∧ ctrl.sniffEn = true) :=
        fun all => watched ⟨all.1, all.2.1⟩
      simp [pushByte, sniff, byteWord, other, watched, sniffed]

theorem transfer_unseen {chainTo count start : Nat} {object : Object} {byte : Nat → U8}
    (loads : ∀ pushed offset, load read { memory with pushed } ⟨object, offset⟩ = some (byteWord (byte offset))) :
    transfer (bus read) data1Chan (dmaCtrlDataOut chainTo) count ⟨object, start⟩ (at0 .txf) memory =
      some { memory with pushed := memory.pushed ++ (List.range' start count).map byte } := by
  have unseen : (dmaCtrlDataOut chainTo).sniffEn = false := rfl
  have kept (other : Memory) (next : U8) (same : ∃ pushed, other = { memory with pushed }) :
      ∃ pushed, pushByte data1Chan (dmaCtrlDataOut chainTo) other next = { memory with pushed } := by
    obtain ⟨pushed, rfl⟩ := same
    exact ⟨pushed ++ [next], foldl_pushByte_unseen unseen [next]⟩
  have found (other : Memory) (offset : Nat) (same : ∃ pushed, other = { memory with pushed }) :
      load read other ⟨object, offset⟩ = some (byteWord (byte offset)) := by
    obtain ⟨pushed, rfl⟩ := same
    exact loads pushed offset
  rw [transfer_bytes ⟨rfl, rfl, rfl, rfl⟩ kept found count start ⟨memory.pushed, rfl⟩, foldl_pushByte_unseen unseen]

theorem transfer_status (chainTo : Nat) :
    transfer (bus read) data1Chan (controlBlockStatusCode chainTo).ctrl (controlBlockStatusCode chainTo).transCount
        (controlBlockStatusCode chainTo).readAddr (controlBlockStatusCode chainTo).writeAddr memory =
      some { memory with pushed := memory.pushed ++ bytes32 memory.dataOutStatusCode } :=
  transfer_unseen fun _ _ => rfl

theorem transfer_crc :
    transfer (bus read) data1Chan controlBlockCrc.ctrl controlBlockCrc.transCount controlBlockCrc.readAddr
        controlBlockCrc.writeAddr memory =
      some { memory with pushed := memory.pushed ++ bytes32 memory.sniffData } :=
  @transfer_unseen read memory ctrl1Chan 4 4 .sniffer (fun offset => byteAt memory.sniffData (offset - 4)) fun _ _ => rfl

theorem transfer_eot :
    transfer (bus read) data1Chan controlBlockEot.ctrl controlBlockEot.transCount controlBlockEot.readAddr
        controlBlockEot.writeAddr memory = some { memory with pushed := memory.pushed ++ [0] } :=
  @transfer_unseen read memory ctrl1Chan 1 0 .zero (fun _ => 0) fun _ _ => rfl

/-- The sniffer watches the data from the start of the checksum on. -/
def watching (memory : Memory) : Memory :=
  { memory with sniffEnabled := true, sniffChannel := data2Chan, sniffData := 0xFFFFFFFF }

theorem transfer_setup (chainTo : Nat) :
    transfer (bus read) data1Chan (controlBlockSnifferSetup chainTo).ctrl (controlBlockSnifferSetup chainTo).transCount
        (controlBlockSnifferSetup chainTo).readAddr (controlBlockSnifferSetup chainTo).writeAddr memory =
      some (watching memory) := rfl

def dataBytes (read : DataRef → Nat → U8) (ref : DataRef) (count : Nat) : List U8 := (List.range count).map (read ref)

theorem sendData_pushes {ref : DataRef} (pointed : memory.readAddr = at0 (.data ref)) :
    let bytes := dataBytes read ref memory.transCount
    sendData read memory =
      some { memory with pushed := memory.pushed ++ bytes, sniffData := sniffed memory bytes } := by
  intro bytes
  have range : bytes = (List.range' 0 memory.transCount).map (read ref) := by
    rw [← List.range_eq_range']
    rfl
  have kept (other : Memory) (byte : U8) (_ : True) : True := trivial
  have found (other : Memory) (offset : Nat) (_ : True) :
      load read other ⟨.data ref, offset⟩ = some (byteWord (read ref offset)) := rfl
  have sends := @transfer_bytes read memory data2Chan (dataBlock memory).ctrl ⟨rfl, rfl, rfl, rfl⟩ (.data ref) (read ref)
    (fun _ => True) kept found memory.transCount 0 trivial
  have seen := @foldl_pushByte_seen memory (dataBlock memory).ctrl rfl bytes
  have place : (⟨.data ref, 0⟩ : Address Object) = memory.readAddr := pointed.symm
  rw [← range, seen, place] at sends
  exact sends

theorem runBlocks_null {rest : List (Block Object)} : runBlocks read (controlBlockNull :: rest) memory = some memory := rfl

theorem runBlocks_next {block : Block Object} {rest : List (Block Object)} {after : Memory}
    (enabled : block.ctrl.en = true) (chains : block.ctrl.chainTo ≠ ctrl2Chan)
    (moved : transfer (bus read) data1Chan block.ctrl block.transCount block.readAddr block.writeAddr memory = some after) :
    runBlocks read (block :: rest) memory = runBlocks read rest after := by
  rw [runBlocks, if_pos enabled, moved, Option.bind_some, if_neg chains, Option.bind_some]

theorem runBlocks_data {block : Block Object} {rest : List (Block Object)} {after : Memory}
    (enabled : block.ctrl.en = true) (chains : block.ctrl.chainTo = ctrl2Chan)
    (moved : transfer (bus read) data1Chan block.ctrl block.transCount block.readAddr block.writeAddr memory = some after) :
    runBlocks read (block :: rest) memory = (sendData read after).bind (runBlocks read rest) := by
  rw [runBlocks, if_pos enabled, moved, Option.bind_some, if_pos chains]

theorem runBlocks_eot : runBlocks read [controlBlockEot, controlBlockNull] memory =
    some { memory with pushed := memory.pushed ++ [0] } := by
  rw [runBlocks_next rfl (by decide) transfer_eot]
  exact runBlocks_null

theorem runBlocks_crc : runBlocks read [controlBlockCrc, controlBlockEot, controlBlockNull] memory =
    some { memory with pushed := memory.pushed ++ bytes32 memory.sniffData ++ [0] } := by
  rw [runBlocks_next rfl (by decide) transfer_crc]
  exact runBlocks_eot

theorem runBlocks_status : runBlocks read (controlBlocks .withStatusNoDataNoCrc) memory =
    some { memory with pushed := memory.pushed ++ bytes32 memory.dataOutStatusCode ++ [0] } := by
  rw [controlBlocks, runBlocks_next rfl (by decide) (transfer_status ctrl1Chan)]
  exact runBlocks_eot

def Pushing (result : Option Memory) (bytes : List U8) : Prop := ∃ final, result = some final ∧ final.pushed = bytes

theorem sendData_ends {ref : DataRef} (pointed : memory.readAddr = at0 (.data ref)) :
    Pushing ((sendData read memory).bind (runBlocks read [controlBlockEot, controlBlockNull]))
      (memory.pushed ++ dataBytes read ref memory.transCount ++ [0]) := by
  rw [sendData_pushes pointed, Option.bind_some, runBlocks_eot]
  exact ⟨_, rfl, rfl⟩

theorem sendData_crc {ref : DataRef} (pointed : memory.readAddr = at0 (.data ref)) :
    Pushing ((sendData read (watching memory)).bind
        (runBlocks read [controlBlockCrc, controlBlockEot, controlBlockNull]))
      (memory.pushed ++ dataBytes read ref memory.transCount ++
        bytes32 (Crc.crc32 0xFFFFFFFF (dataBytes read ref memory.transCount)) ++ [0]) := by
  have watched : (watching memory).readAddr = at0 (.data ref) := pointed
  rw [sendData_pushes watched, Option.bind_some, runBlocks_crc]
  exact ⟨_, rfl, rfl⟩

def withStatus (crc : Bool) : ControlList := if crc then .withStatusWithDataWithCrc else .withStatusWithDataNoCrc

theorem Pushing.congr {result : Option Memory} {bytes other : List U8} (pushing : Pushing result bytes)
    (same : bytes = other) : Pushing result other := same ▸ pushing

theorem runBlocks_withStatus {ref : DataRef} (pointed : memory.readAddr = at0 (.data ref)) (crc : Bool) :
    Pushing (runBlocks read (controlBlocks (withStatus crc)) memory)
      (memory.pushed ++ (bytes32 memory.dataOutStatusCode ++
        dataOut (dataBytes read ref memory.transCount) crc ++ [0])) := by
  cases crc with
  | true =>
    have sent := @sendData_crc read { memory with pushed := memory.pushed ++ bytes32 memory.dataOutStatusCode } ref pointed
    rw [withStatus, if_pos rfl, controlBlocks, runBlocks_next rfl (by decide) (transfer_setup ctrl1Chan),
      runBlocks_data rfl rfl (transfer_status ctrl2Chan)]
    apply Pushing.congr sent
    simp [dataOut]
  | false =>
    have sent := @sendData_ends read { memory with pushed := memory.pushed ++ bytes32 memory.dataOutStatusCode } ref pointed
    rw [withStatus, if_neg Bool.false_ne_true, controlBlocks, runBlocks_data rfl rfl (transfer_status ctrl2Chan)]
    apply Pushing.congr sent
    simp [dataOut]

theorem runBlocks_withCrc {ref : DataRef} (pointed : memory.readAddr = at0 (.data ref)) :
    Pushing (runBlocks read (controlBlocks .noStatusWithDataWithCrc) memory)
      (memory.pushed ++ (dataOut (dataBytes read ref memory.transCount) true ++ [0])) := by
  rw [controlBlocks, runBlocks_data rfl rfl (transfer_setup ctrl2Chan)]
  apply Pushing.congr (sendData_crc pointed)
  simp [dataOut]

theorem sendData_withoutCrc {ref : DataRef} (pointed : memory.readAddr = at0 (.data ref)) :
    Pushing ((sendData read memory).bind (runBlocks read (controlBlocks .noStatusWithDataNoCrc)))
      (memory.pushed ++ (dataOut (dataBytes read ref memory.transCount) false ++ [0])) := by
  apply Pushing.congr (sendData_ends pointed)
  simp [dataOut]

end Fruitchip.DataOut
