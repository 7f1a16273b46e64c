import HduCpu.Lib.Machine
import HduCpu.Lib.Bits
import HduCpu.Cpu.Defines

/-!
# The control and status registers

`CSRRegFile.scala`: the address map, the read and the write port, pending interrupts, trap entry
and `mret`.  `CSRRegFile.next` is the state after the clock edge.  A later connection to a
register overrides an earlier one ("last connect"): the unconditional drive of `mip` comes after
the write port, trap entry after that, and `mret` last.  All right-hand sides read the registers
as they were before the edge.
-/

namespace HduCpu

/-- the registers of `regs`, by the names of the address map -/
inductive CReg where
  | empty | cycle | mvendorid | marchid | mimpid | mhartid | mstatus | misa | mie | mtvec
  | mcounteren | mscratch | mepc | mcause | mtval | mip | satp | medeleg | mideleg | pmpcfg0
  | pmpaddr0 | tselect | tdata1 | tdata2
deriving DecidableEq

namespace CSRAddr
def cycle : BitVec 12 := 0b110000000000
def mvendorid : BitVec 12 := 0b111100010001
def marchid : BitVec 12 := 0b111100010010
def mimpid : BitVec 12 := 0b111100010011
def mhartid : BitVec 12 := 0b111100010100
def mstatus : BitVec 12 := 0b001100000000
def misa : BitVec 12 := 0b001100000001
def mie : BitVec 12 := 0b001100000100
def mtvec : BitVec 12 := 0b001100000101
def mcounteren : BitVec 12 := 0b001100000110
def mscratch : BitVec 12 := 0b001101000000
def mepc : BitVec 12 := 0b001101000001
def mcause : BitVec 12 := 0b001101000010
def mtval : BitVec 12 := 0b001101000011
def mip : BitVec 12 := 0b001101000100
def tselect : BitVec 12 := 0b011110100000
def tdata1 : BitVec 12 := 0b011110100001

def leastMode (addr : BitVec 12) : BitVec 2 := addr.extractLsb' 8 2
def enRead (_addr : BitVec 12) : Bool := true
def enWrite (addr : BitVec 12) : Bool := addr.extractLsb' 10 2 != 0b11
end CSRAddr

/-- virtual address → (register, read mask, write mask) -/
def addrTable : List (BitPat 12 × CReg × BitVec 64 × BitVec 64) :=
  [(.lit CSRAddr.cycle, .cycle, 0xFFFFFFFFFFFFFFFF, 0x0000000000000000),
   (.lit CSRAddr.mvendorid, .mvendorid, 0xFFFFFFFFFFFFFFFF, 0x0000000000000000),
   (.lit CSRAddr.marchid, .marchid, 0xFFFFFFFFFFFFFFFF, 0x0000000000000000),
   (.lit CSRAddr.mimpid, .mimpid, 0xFFFFFFFFFFFFFFFF, 0x0000000000000000),
   (.lit CSRAddr.mhartid, .mhartid, 0xFFFFFFFFFFFFFFFF, 0x0000000000000000),
   (.lit CSRAddr.mstatus, .mstatus, 0xFFFFFFFFFFFFFFFF, 0x0000000000021888),
   (.lit CSRAddr.misa, .misa, 0xFFFFFFFFFFFFFFFF, 0x0000000000000000),
   (.lit CSRAddr.mie, .mie, 0xFFFFFFFFFFFFFFFF, 0xFFFFFFFFFFFFFFFF),
   (.lit CSRAddr.mtvec, .mtvec, 0xFFFFFFFFFFFFFFFF, 0xFFFFFFFFFFFFFFFF),
   (.lit CSRAddr.mcounteren, .mcounteren, 0xFFFFFFFFFFFFFFFF, 0xFFFFFFFFFFFFFFFF),
   (.lit CSRAddr.mscratch, .mscratch, 0xFFFFFFFFFFFFFFFF, 0xFFFFFFFFFFFFFFFF),
   (.lit CSRAddr.mepc, .mepc, 0xFFFFFFFFFFFFFFFF, 0xFFFFFFFFFFFFFFFF),
   (.lit CSRAddr.mcause, .mcause, 0xFFFFFFFFFFFFFFFF, 0xFFFFFFFFFFFFFFFF),
   (.lit CSRAddr.mtval, .mtval, 0xFFFFFFFFFFFFFFFF, 0xFFFFFFFFFFFFFFFF),
   (.lit CSRAddr.mip, .mip, 0xFFFFFFFFFFFFFFFF, 0x0000000000000888),
   (.lit CSRAddr.tselect, .tselect, 0xFFFFFFFFFFFFFFFF, 0x0000000000000000),
   (.lit CSRAddr.tdata1, .tdata1, 0xFFFFFFFFFFFFFFFF, 0x0000000000000000)]

def addrDefault : CReg × BitVec 64 × BitVec 64 := (.empty, 0, 0)

/-- register, read mask and write mask of a virtual address -/
def csrLookup (vtAddr : BitVec 12) : CReg × BitVec 64 × BitVec 64 :=
  listLookup vtAddr addrDefault addrTable

structure CSRRegFile where
  regMode : BitVec 2
  regs : CReg → BitVec 64

/-- the write port of `CsrWrite` -/
structure CsrWrite where
  wen : Bool
  waddr : BitVec 12
  wdata : BitVec 64
deriving DecidableEq

/-- The inputs that decide the next state; the read port does not. -/
structure CsrIn where
  write : CsrWrite
  extInt : ExtInterrupt
  ex : ExceptionInfo
  mret : Bool
  pc : BitVec 64

/-- `ex` with the interrupt lines merged in -/
def ExceptionInfo.merge (ex : ExceptionInfo) (ext : ExtInterrupt) : ExceptionInfo :=
  let int := ex.interrupt
  let int := if ext.mei then Function.update int macExternalInterrupt true else int
  let int := if ext.mti then Function.update int macTimerInterrupt true else int
  let int := if ext.msi then Function.update int macSoftwareInterrupt true else int
  { ex with interrupt := int }

/-- the first exception that is raised -/
def excNO (ex : ExceptionInfo) : Fin 16 :=
  muxCase noException (exceptionity.map fun v => (ex.exception v, v))

namespace CSRRegFile

def reset : CSRRegFile where
  regMode := Privilege.m
  regs
    | .mstatus => 0x0000000200000000
    | .misa => 0x8000000000101100
    | .tselect => 0x0000000000000001
    | _ => 0

section
variable (s : CSRRegFile)

/-- `mstatus.MPP` -/
def mpp : BitVec 2 := (s.regs .mstatus).extractLsb' 11 2

/-! ### read port -/

def rlegal (ren : Bool) (raddr : BitVec 12) : Bool :=
  !(ren && ((csrLookup raddr).1 == .empty || !CSRAddr.enRead raddr ||
    s.regMode < CSRAddr.leastMode raddr))

def rdata (ren : Bool) (raddr : BitVec 12) : BitVec 64 :=
  if ren && s.rlegal ren raddr then s.regs (csrLookup raddr).1 &&& (csrLookup raddr).2.1 else 0

/-! ### write port -/

def wlegal (wen : Bool) (waddr : BitVec 12) : Bool :=
  !(wen && ((csrLookup waddr).1 == .empty || !CSRAddr.enWrite waddr ||
    s.regMode < CSRAddr.leastMode waddr))

/-- the value written to `MPP`: an unsupported mode keeps the old one -/
def wmpp (wdata : BitVec 64) : BitVec 2 :=
  let sxl := (s.regs .mstatus).extractLsb' 34 2
  let uxl := (s.regs .mstatus).extractLsb' 32 2
  let mode := wdata.extractLsb' 11 2
  if (sxl == 0 && mode == Privilege.s) || (uxl == 0 && mode == Privilege.u) || mode == Privilege.h
  then s.mpp else mode

/-- the value driven onto the addressed register -/
def writeValue (waddr : BitVec 12) (wdata : BitVec 64) : BitVec 64 :=
  let addr := (csrLookup waddr).1
  let mask := (csrLookup waddr).2.2
  (wdata &&& mask &&& 0xFFFFFFFFFFFFE7FF#64) ||| ((s.wmpp wdata).setWidth 64 <<< 11) |||
    (s.regs addr &&& ~~~mask)

def writeRegs (i : CsrWrite) : CReg → BitVec 64 :=
  if i.wen && s.wlegal i.wen i.waddr then
    Function.update s.regs (csrLookup i.waddr).1 (s.writeValue i.waddr i.wdata)
  else s.regs

/-! ### pending interrupts -/

def mipNext (ext : ExtInterrupt) : BitVec 64 :=
  s.regs .mip ||| bitAt ext.mei 11 ||| bitAt ext.mti 7 ||| bitAt ext.msi 3

theorem mipNext_low : s.mipNext .low = s.regs .mip := by
  simp [mipNext, ExtInterrupt.low]

def processInterrupt (ex : ExceptionInfo) (id : Fin 12) : Bool :=
  let case0 := ex.interrupt id
  let case1 := (s.regMode == Privilege.m && (s.regs .mstatus).getLsbD 3) ||
    s.regMode < Privilege.m
  let case2 := (s.regs .mip).getLsbD id && (s.regs .mie).getLsbD id
  case0 && case1 && case2

/-- the first interrupt that is taken -/
def intNO (ex : ExceptionInfo) : Fin 12 :=
  muxCase noInterrupt (interruptionity.map fun v => (s.processInterrupt ex v, v))

def isInt (i : CsrIn) : Bool := s.intNO (i.ex.merge i.extInt) != noInterrupt

/-- a trap is entered -/
def traps (i : CsrIn) : Bool := s.isInt i || excNO i.ex != noException

def cauNO (i : CsrIn) : BitVec 64 :=
  if s.isInt i then BitVec.ofNat 64 (s.intNO (i.ex.merge i.extInt))
  else BitVec.ofNat 64 (excNO i.ex)

/-! ### trap entry -/

def trapMstatus : BitVec 64 :=
  (s.regs .mstatus &&& ~~~((1#64 <<< 3) ||| (1#64 <<< 7) ||| (3#64 <<< 11))) |||
    bitAt ((s.regs .mstatus).getLsbD 3) 7 ||| (s.regMode.setWidth 64 <<< 11)

def trapMtval (i : CsrIn) : BitVec 64 := if s.isInt i then 0 else i.ex.tval (excNO i.ex)

def trapMcause (i : CsrIn) : BitVec 64 := bitAt (s.isInt i) 63 ||| s.cauNO i

/-- the four connections of trap entry, made over `regs` -/
def trapRegs (i : CsrIn) (regs : CReg → BitVec 64) : CReg → BitVec 64 :=
  let regs := Function.update regs .mtval (s.trapMtval i)
  let regs := Function.update regs .mcause (s.trapMcause i)
  let regs := Function.update regs .mepc i.pc
  Function.update regs .mstatus s.trapMstatus

/-- the base address of `mtvec` -/
def mtvecBase : BitVec 64 := (s.regs .mtvec).extractLsb' 2 62 ++ 0#2

def trapTarget (i : CsrIn) : BitVec 64 :=
  s.mtvecBase + if (s.regs .mtvec).getLsbD 0 && s.isInt i then s.cauNO i <<< 2 else 0

/-! ### return -/

def mretMstatus : BitVec 64 :=
  let mprvNew := if s.mpp == Privilege.m then (s.regs .mstatus).getLsbD 17 else false
  (s.regs .mstatus &&&
      ~~~((1#64 <<< 3) ||| (1#64 <<< 7) ||| (3#64 <<< 11) ||| (1#64 <<< 17))) |||
    bitAt ((s.regs .mstatus).getLsbD 7) 3 ||| (1#64 <<< 7) |||
    (Privilege.u.setWidth 64 <<< 11) ||| bitAt mprvNew 17

/-! ### the clock edge -/

/-- the state after the clock edge -/
def next (i : CsrIn) : CSRRegFile where
  regMode := if i.mret then s.mpp else if s.traps i then Privilege.m else s.regMode
  regs :=
    let regs := s.writeRegs i.write
    let regs := Function.update regs .mip (s.mipNext i.extInt)
    let regs := if s.traps i then s.trapRegs i regs else regs
    if i.mret then Function.update regs .mstatus s.mretMstatus else regs

def ftcInfo (i : CsrIn) : FetchInfo where
  flush := i.mret || s.traps i
  target := if i.mret then s.regs .mepc else if s.traps i then s.trapTarget i else 0

end
end CSRRegFile

/-- `CSRRegFile` on its own: any inputs in any cycle. -/
def csrMachine : Clocked CSRRegFile CsrIn where
  init s := s = .reset
  next i s := s.next i

end HduCpu
