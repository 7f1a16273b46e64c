import HduCpu.Lib.BitPat
import HduCpu.Lib.Width

/-!
# Constants, operation types and bundles of the processor

`defines/Const.scala`, `defines/Bundles.scala` and the operation types of
`defines/isa/Instructions.scala`, for the 64-bit configuration of `CpuConfig`.

The instruction word travels as `UInt(XLEN.W)` through `IfIdData`, but it is always the
zero-extended 32-bit `rdata` of the instruction SRAM; here it is the 32-bit word.
A `Vec` indexed by a constant is a function on `Fin`.
-/

namespace HduCpu

/-! ## constants -/

def PC_INIT : BitVec 64 := 0x80000000#64

/-- exception numbers (`HasExceptionNO`) -/
def noException : Fin 16 := 14
def instAddrMisaligned : Fin 16 := 0
def instAccessFault : Fin 16 := 1
def illegalInst : Fin 16 := 2
def breakPoint : Fin 16 := 3
def loadAddrMisaligned : Fin 16 := 4
def loadAccessFault : Fin 16 := 5
def storeAddrMisaligned : Fin 16 := 6
def storeAccessFault : Fin 16 := 7
def ecallU : Fin 16 := 8
def ecallS : Fin 16 := 9
def ecallM : Fin 16 := 11
def instPageFault : Fin 16 := 12
def loadPageFault : Fin 16 := 13
def storePageFault : Fin 16 := 15

/-- exceptions, the most urgent first -/
def exceptionity : List (Fin 16) :=
  [breakPoint, instPageFault, instAccessFault, illegalInst, instAddrMisaligned, ecallM, ecallS,
    ecallU, storeAddrMisaligned, loadAddrMisaligned, storePageFault, loadPageFault,
    storeAccessFault, loadAccessFault]

/-- interrupt numbers (`HasInterruptNO`) -/
def noInterrupt : Fin 12 := 10
def svSoftwareInterrupt : Fin 12 := 1
def macSoftwareInterrupt : Fin 12 := 3
def svTimerInterrupt : Fin 12 := 5
def macTimerInterrupt : Fin 12 := 7
def svExternalInterrupt : Fin 12 := 9
def macExternalInterrupt : Fin 12 := 11

/-- interrupts, the most urgent first -/
def interruptionity : List (Fin 12) :=
  [macExternalInterrupt, macSoftwareInterrupt, macTimerInterrupt, svExternalInterrupt,
    svSoftwareInterrupt, svTimerInterrupt]

/-! ## operation types -/

inductive InstrType where
  | N | I | R | S | B | U | J
deriving DecidableEq

inductive FuType where
  | alu | mdu | lsu | bru | csr
deriving DecidableEq

namespace ALUOpType
def nop : BitVec 5 := 0
def add : BitVec 5 := 1
def sub : BitVec 5 := 2
def sll : BitVec 5 := 3
def slt : BitVec 5 := 4
def sltu : BitVec 5 := 5
def xor : BitVec 5 := 6
def srl : BitVec 5 := 7
def sra : BitVec 5 := 8
def or : BitVec 5 := 9
def and : BitVec 5 := 10
def addw : BitVec 5 := 11
def subw : BitVec 5 := 12
def sllw : BitVec 5 := 13
def srlw : BitVec 5 := 14
def sraw : BitVec 5 := 15
end ALUOpType

namespace MDUOpType
def mul : BitVec 5 := 0
def mulh : BitVec 5 := 1
def mulhsu : BitVec 5 := 2
def mulhu : BitVec 5 := 3
def div : BitVec 5 := 4
def divu : BitVec 5 := 5
def rem : BitVec 5 := 6
def remu : BitVec 5 := 7
def mulw : BitVec 5 := 8
def divw : BitVec 5 := 9
def divuw : BitVec 5 := 10
def remw : BitVec 5 := 12
def remuw : BitVec 5 := 13
end MDUOpType

namespace LSUOpType
def lb : BitVec 5 := 0b0000
def lh : BitVec 5 := 0b0001
def lw : BitVec 5 := 0b0010
def ld : BitVec 5 := 0b0011
def lbu : BitVec 5 := 0b0100
def lhu : BitVec 5 := 0b0101
def lwu : BitVec 5 := 0b0110
def sb : BitVec 5 := 0b1000
def sh : BitVec 5 := 0b1001
def sw : BitVec 5 := 0b1010
def sd : BitVec 5 := 0b1011

def b : BitVec 2 := 0b00
def h : BitVec 2 := 0b01
def w : BitVec 2 := 0b10
def d : BitVec 2 := 0b11

def isLoad (op : BitVec 5) : Bool := !op.getLsbD 3
def isStore (op : BitVec 5) : Bool := op.getLsbD 3
def exBit (op : BitVec 5) : BitVec 2 := op.extractLsb' 0 2
end LSUOpType

namespace BRUOpType
def beq : BitVec 5 := 0
def bne : BitVec 5 := 1
def blt : BitVec 5 := 2
def bge : BitVec 5 := 3
def bltu : BitVec 5 := 4
def bgeu : BitVec 5 := 5
def jal : BitVec 5 := 6
def jalr : BitVec 5 := 7
end BRUOpType

namespace CSROpType
def csrrw : BitVec 5 := 0
def csrrs : BitVec 5 := 1
def csrrc : BitVec 5 := 2
def ecall : BitVec 5 := 3
def ebreak : BitVec 5 := 4
def mret : BitVec 5 := 5

def isCSRI (inst : BitVec 32) : Bool := inst.getLsbD 14
end CSROpType

namespace Privilege
def u : BitVec 2 := 0b00
def s : BitVec 2 := 0b01
def h : BitVec 2 := 0b10
def m : BitVec 2 := 0b11
end Privilege

/-! ## bundles -/

structure ExtInterrupt where
  mei : Bool
  mti : Bool
  msi : Bool
deriving DecidableEq

/-- all external interrupt lines low -/
def ExtInterrupt.low : ExtInterrupt := ⟨false, false, false⟩

structure CtrlSignal where
  allowToGo : Bool
  doFlush : Bool

structure FetchInfo where
  flush : Bool
  target : BitVec 64
deriving DecidableEq

structure ExceptionInfo where
  exception : Fin 16 → Bool
  interrupt : Fin 12 → Bool
  tval : Fin 16 → BitVec 64

/-- no exception and no interrupt -/
def ExceptionInfo.none : ExceptionInfo := ⟨fun _ => false, fun _ => false, fun _ => 0⟩

/-- `ex.exception(no) := true.B` and `ex.tval(no) := tval` -/
def ExceptionInfo.raise (ex : ExceptionInfo) (no : Fin 16) (tval : BitVec 64) : ExceptionInfo :=
  { ex with
    exception := Function.update ex.exception no true
    tval := Function.update ex.tval no tval }

structure SrcInfo where
  src1Data : BitVec 64
  src2Data : BitVec 64
deriving DecidableEq

structure Info where
  valid : Bool
  inst : BitVec 32
  fusel : FuType
  op : BitVec 5
  src1Ren : Bool
  src1Raddr : BitVec 5
  src1Pcen : Bool
  src2Ren : Bool
  src2Raddr : BitVec 5
  imm : BitVec 64
  regWen : Bool
  regWaddr : BitVec 5
  csr : BitVec 12
  isCsri : Bool
  zimm : BitVec 64
deriving DecidableEq

/-- `0.U.asTypeOf(new Info())` -/
def Info.zero : Info :=
  ⟨false, 0, .alu, 0, false, 0, false, false, 0, 0, false, 0, 0, false, 0⟩

/-- the outputs of an `InstSram` port that is never written -/
structure InstSram where
  en : Bool
  addr : BitVec 32

/-- the outputs of a `DataSram` port -/
structure DataSram where
  en : Bool
  addr : BitVec 32
  wdata : BitVec 64
  wen : BitVec 8
deriving DecidableEq

structure Debug where
  commit : Bool
  pc : BitVec 64
  rfWnum : BitVec 5
  rfWdata : BitVec 64
deriving DecidableEq

end HduCpu
