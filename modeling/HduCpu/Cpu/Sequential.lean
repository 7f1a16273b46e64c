import HduCpu.Cpu.Core

/-!
# One instruction at a time

The architectural machine that the pipeline is compared with.  It has the same units as the
core, used one after the other on one instruction.

* `Arch`                   pc, general registers and CSR file;
* `Arch.slot`              an instruction decoded with its operands read from the registers;
* `Arch.exec`              one instruction from decoding to write back;
* `Arch.idle`, `Arch.interrupt`   a cycle without an instruction, and a trap between two.

`carry` is what the fetch address does to a pc: `id` for a full 64-bit address, `busPc` for the
32-bit address of the instruction SRAM.
-/

namespace HduCpu

/-- a pc after its way through the 32-bit address of the instruction SRAM -/
def busPc (x : BitVec 64) : BitVec 64 := (x.setWidth 32).setWidth 64

@[simp] theorem setWidth_busPc (x : BitVec 64) : (busPc x).setWidth 32 = x.setWidth 32 := by
  rw [busPc, BitVec.setWidth_setWidth_of_le _ (by decide), BitVec.setWidth_eq]

@[simp] theorem busPc_busPc (x : BitVec 64) : busPc (busPc x) = busPc x := by
  rw [busPc, setWidth_busPc, ← busPc]

/-- no later stage holds an instruction -/
def Bypass.none : Bypass := ⟨.zero, 0⟩

structure Arch where
  pc : BitVec 64
  regs : ARegFile
  csr : CSRRegFile

def Arch.reset : Arch := ⟨PC_INIT, .reset, .reset⟩

namespace Arch
section
variable (a : Arch)

/-- the instruction at `pc`, with its operands from the register file -/
def slot (word : BitVec 32) : IdExeData :=
  decodeUnit ⟨word, true, a.pc⟩ a.regs .none .none .none

def execute (ext : ExtInterrupt) (word : BitVec 32) : ExecuteOut :=
  executeUnit a.csr ext (a.slot word)

/-- what the instruction takes to write back -/
def result (ext : ExtInterrupt) (word : BitVec 32) (loadData : BitVec 64) : MemWbData :=
  memoryUnit (a.execute ext word).memoryStage loadData

/-- One instruction: continue at the flush target or at `pc + 4`. -/
def exec (carry : BitVec 64 → BitVec 64) (ext : ExtInterrupt) (word : BitVec 32)
    (loadData : BitVec 64) : Arch where
  pc := carry (if (a.execute ext word).ftcInfo.flush then (a.execute ext word).ftcInfo.target
    else a.pc + 4)
  regs := writeBackUnit a.regs (a.result ext word loadData)
  csr := a.csr.next (a.execute ext word).csrIn

end
end Arch

/-- what the CSR file is given when no instruction is in Execute -/
def bubbleIn (ext : ExtInterrupt) (pc : BitVec 64) : CsrIn :=
  ⟨⟨false, 0, 0⟩, ext, .none, false, pc⟩

namespace Arch

/-- A cycle without an instruction: only the interrupt lines reach `mip`. -/
def idle (a : Arch) (ext : ExtInterrupt) : Arch :=
  { a with csr := a.csr.next (bubbleIn ext a.pc) }

/-- A trap between two instructions: nothing but trap entry, `mepc` being the pc to come. -/
def interrupt (a : Arch) (ext : ExtInterrupt) : Arch where
  pc := busPc (a.csr.trapTarget (bubbleIn ext a.pc))
  regs := a.regs
  csr := a.csr.next (bubbleIn ext a.pc)

end Arch

/-! ## commits -/

/-- what the difftest sees of a committed instruction: its pc and its register write, if any -/
structure Commit where
  pc : BitVec 64
  write : Option (BitVec 5 × BitVec 64)
deriving DecidableEq

def commitOf (data : MemWbData) : Commit where
  pc := data.pc
  write := if data.info.valid && data.info.regWen && data.info.regWaddr != 0 then
    some (data.info.regWaddr, data.rdWdata) else none

/-- the commit of a slot that may be empty -/
def commits (data : MemWbData) : List Commit :=
  if data.info.valid then [commitOf data] else []

end HduCpu
