import HduCpu.Lib.Bytes

/-!
# Constants and bit fields of the reference simulator

`rv_common.hpp`.  A `struct` of bit fields is read and written as fields of the word it overlays;
the compiler places the first field at bit 0.

* `RvInstr`                the six instruction formats;
* `Opcode`, `Funct3`, `Funct7`, `Funct6`, `AmoFunct`   the enumerations;
* `PrivMode`, `RvCsrAddr`, `RvExcCode`, `CauseDef`;
* `Mstatus`, `Tvec`, `Satp`, `Pte`, `Va`   the bit-field structures of the CSRs and of Sv39.
-/

namespace HduCpu

/-! ## instruction formats -/

namespace RvInstr
section
variable (inst : BitVec 32)

def opcode : BitVec 7 := inst.extractLsb' 0 7
def rd : BitVec 5 := inst.extractLsb' 7 5
def funct3 : BitVec 3 := inst.extractLsb' 12 3
def rs1 : BitVec 5 := inst.extractLsb' 15 5
def rs2 : BitVec 5 := inst.extractLsb' 20 5
def funct7 : BitVec 7 := inst.extractLsb' 25 7

/-- `i_type.imm12` as an `int` -/
def imm12 : BitVec 32 := (inst.extractLsb' 20 12).signExtend 32

/-- `(s_type.imm_11_5 << 5) | s_type.imm_4_0` -/
def immS : BitVec 32 :=
  ((inst.extractLsb' 25 7).signExtend 32 <<< 5) ||| (inst.extractLsb' 7 5).setWidth 32

/-- `(b_type.imm_12 << 12) | (imm_11 << 11) | (imm_10_5 << 5) | (imm_4_1 << 1)` -/
def immB : BitVec 32 :=
  ((inst.extractLsb' 31 1).signExtend 32 <<< 12) ||| ((inst.extractLsb' 7 1).setWidth 32 <<< 11) |||
    ((inst.extractLsb' 25 6).setWidth 32 <<< 5) ||| ((inst.extractLsb' 8 4).setWidth 32 <<< 1)

/-- `(int64_t)u_type.imm_31_12 << 12` -/
def immU : BitVec 64 := (inst.extractLsb' 12 20).signExtend 64 <<< 12

/-- `(j_type.imm_20 << 20) | (imm_19_12 << 12) | (imm_11 << 11) | (imm_10_1 << 1)` -/
def immJ : BitVec 32 :=
  ((inst.extractLsb' 31 1).signExtend 32 <<< 20) ||| ((inst.extractLsb' 12 8).setWidth 32 <<< 12) |||
    ((inst.extractLsb' 20 1).setWidth 32 <<< 11) ||| ((inst.extractLsb' 21 10).setWidth 32 <<< 1)

end
end RvInstr

namespace Opcode
def LUI : BitVec 7 := 0b0110111
def AUIPC : BitVec 7 := 0b0010111
def JAL : BitVec 7 := 0b1101111
def JALR : BitVec 7 := 0b1100111
def BRANCH : BitVec 7 := 0b1100011
def LOAD : BitVec 7 := 0b0000011
def STORE : BitVec 7 := 0b0100011
def OPIMM : BitVec 7 := 0b0010011
def OPIMM32 : BitVec 7 := 0b0011011
def OP : BitVec 7 := 0b0110011
def OP32 : BitVec 7 := 0b0111011
def FENCE : BitVec 7 := 0b0001111
def SYSTEM : BitVec 7 := 0b1110011
def AMO : BitVec 7 := 0b0101111
end Opcode

namespace Funct3
def BEQ : BitVec 3 := 0b000
def BNE : BitVec 3 := 0b001
def BLT : BitVec 3 := 0b100
def BGE : BitVec 3 := 0b101
def BLTU : BitVec 3 := 0b110
def BGEU : BitVec 3 := 0b111
def LB : BitVec 3 := 0b000
def LH : BitVec 3 := 0b001
def LW : BitVec 3 := 0b010
def LD : BitVec 3 := 0b011
def LBU : BitVec 3 := 0b100
def LHU : BitVec 3 := 0b101
def LWU : BitVec 3 := 0b110
def SB : BitVec 3 := 0b000
def SH : BitVec 3 := 0b001
def SW : BitVec 3 := 0b010
def SD : BitVec 3 := 0b011
def ADD_SUB : BitVec 3 := 0b000
def SLL : BitVec 3 := 0b001
def SLT : BitVec 3 := 0b010
def SLTU : BitVec 3 := 0b011
def XOR : BitVec 3 := 0b100
def SRL_SRA : BitVec 3 := 0b101
def OR : BitVec 3 := 0b110
def AND : BitVec 3 := 0b111
def MUL : BitVec 3 := 0b000
def MULH : BitVec 3 := 0b001
def MULHSU : BitVec 3 := 0b010
def MULHU : BitVec 3 := 0b011
def DIV : BitVec 3 := 0b100
def DIVU : BitVec 3 := 0b101
def REM : BitVec 3 := 0b110
def REMU : BitVec 3 := 0b111
def PRIV : BitVec 3 := 0b000
def CSRRW : BitVec 3 := 0b001
def CSRRS : BitVec 3 := 0b010
def CSRRC : BitVec 3 := 0b011
def CSRRWI : BitVec 3 := 0b101
def CSRRSI : BitVec 3 := 0b110
def CSRRCI : BitVec 3 := 0b111
end Funct3

namespace Funct7
def NORMAL : BitVec 7 := 0b0000000
def SUB_SRA : BitVec 7 := 0b0100000
def MUL : BitVec 7 := 0b0000001
def ECALL_EBREAK : BitVec 7 := 0b0000000
def SRET_WFI : BitVec 7 := 0b0001000
def MRET : BitVec 7 := 0b0011000
def SFENCE_VMA : BitVec 7 := 0b0001001
end Funct7

namespace Funct6
def NORMAL : BitVec 6 := 0b000000
def SRA : BitVec 6 := 0b010000
end Funct6

namespace AmoFunct
def LR : BitVec 5 := 0b00010
def SC : BitVec 5 := 0b00011
def SWAP : BitVec 5 := 0b00001
def ADD : BitVec 5 := 0b00000
def XOR : BitVec 5 := 0b00100
def AND : BitVec 5 := 0b01100
def OR : BitVec 5 := 0b01000
def MIN : BitVec 5 := 0b10000
def MAX : BitVec 5 := 0b10100
def MINU : BitVec 5 := 0b11000
def MAXU : BitVec 5 := 0b11100
end AmoFunct

/-! ## modes, causes and CSR addresses -/

/-- `priv_mode`: a `static_cast` from a 2-bit field reaches all four -/
abbrev PrivMode := BitVec 2

namespace PrivMode
def U_MODE : PrivMode := 0
def S_MODE : PrivMode := 1
def M_MODE : PrivMode := 3
end PrivMode

/-- `rv_exc_code`, as the 64-bit number it is used as -/
abbrev RvExcCode := BitVec 64

namespace RvExcCode
def instrMisalign : RvExcCode := 0
def instrAccFault : RvExcCode := 1
def illegalInstr : RvExcCode := 2
def breakpoint : RvExcCode := 3
def loadMisalign : RvExcCode := 4
def loadAccFault : RvExcCode := 5
def storeMisalign : RvExcCode := 6
def storeAccFault : RvExcCode := 7
def instrPgfault : RvExcCode := 12
def loadPgfault : RvExcCode := 13
def storePgfault : RvExcCode := 15
def customOk : RvExcCode := 24
end RvExcCode

namespace RvIntCode
def sSw : ℕ := 1
def mSw : ℕ := 3
def sTimer : ℕ := 5
def mTimer : ℕ := 7
def sExt : ℕ := 9
def mExt : ℕ := 11
end RvIntCode

/-- `s_int_mask` -/
def sIntMask : BitVec 64 :=
  (1#64 <<< RvIntCode.sExt) ||| (1#64 <<< RvIntCode.sSw) ||| (1#64 <<< RvIntCode.sTimer)

/-- `m_int_mask` -/
def mIntMask : BitVec 64 :=
  sIntMask ||| (1#64 <<< RvIntCode.mExt) ||| (1#64 <<< RvIntCode.mSw) |||
    (1#64 <<< RvIntCode.mTimer)

/-- `csr_cause_def`: the cause has 63 bits -/
structure CauseDef where
  cause : BitVec 63
  interrupt : Bool

def CauseDef.exc (code : RvExcCode) : CauseDef := ⟨code.setWidth 63, false⟩

/-- the cause as it is stored in `mcause` -/
def CauseDef.toBits (c : CauseDef) : BitVec 64 := BitVec.ofBool c.interrupt ++ c.cause

-- `rv_csr_addr`, the ones that are read or written
namespace RvCsrAddr
def cycle : BitVec 12 := 0xc00
def mvendorid : BitVec 12 := 0xf11
def marchid : BitVec 12 := 0xf12
def mimpid : BitVec 12 := 0xf13
def mhartid : BitVec 12 := 0xf14
def mconfigptr : BitVec 12 := 0xf15
def mstatus : BitVec 12 := 0x300
def misa : BitVec 12 := 0x301
def medeleg : BitVec 12 := 0x302
def mideleg : BitVec 12 := 0x303
def mie : BitVec 12 := 0x304
def mtvec : BitVec 12 := 0x305
def mcounteren : BitVec 12 := 0x306
def mscratch : BitVec 12 := 0x340
def mepc : BitVec 12 := 0x341
def mcause : BitVec 12 := 0x342
def mtval : BitVec 12 := 0x343
def mip : BitVec 12 := 0x344
def mcycle : BitVec 12 := 0xb00
def minstret : BitVec 12 := 0xb02
def tselect : BitVec 12 := 0x7a0
def tdata1 : BitVec 12 := 0x7a1
end RvCsrAddr

/-! ## bit fields of the CSRs -/

-- `csr_mstatus_def`, which `csr_sstatus_def` overlays
namespace Mstatus
section
variable (s : BitVec 64)

def sie : Bool := s.getLsbD 1
def mie : Bool := s.getLsbD 3
def spie : Bool := s.getLsbD 5
def mpie : Bool := s.getLsbD 7
def spp : Bool := s.getLsbD 8
def mpp : BitVec 2 := s.extractLsb' 11 2
def mprv : Bool := s.getLsbD 17
def sum : Bool := s.getLsbD 18
def mxr : Bool := s.getLsbD 19
def tvm : Bool := s.getLsbD 20
def tsr : Bool := s.getLsbD 22
/-- `blank0` … `blank4` are all zero -/
def blank : Bool :=
  s.getLsbD 0 == false && s.getLsbD 2 == false && s.getLsbD 4 == false &&
    s.extractLsb' 23 9 == 0 && s.extractLsb' 38 25 == 0

def setSie (b : Bool) : BitVec 64 := putField s 1 (BitVec.ofBool b)
def setMie (b : Bool) : BitVec 64 := putField s 3 (BitVec.ofBool b)
def setSpie (b : Bool) : BitVec 64 := putField s 5 (BitVec.ofBool b)
def setMpie (b : Bool) : BitVec 64 := putField s 7 (BitVec.ofBool b)
def setSpp (b : Bool) : BitVec 64 := putField s 8 (BitVec.ofBool b)
def setMpp (m : BitVec 2) : BitVec 64 := putField s 11 m
def setMprv (b : Bool) : BitVec 64 := putField s 17 (BitVec.ofBool b)
def setUxl (m : BitVec 2) : BitVec 64 := putField s 32 m
end
end Mstatus

/-- `csr_misa_def`: `ext` of the extensions `i`, `m` and, if wanted, `u`; `mxl` = 2 -/
def misaOf (ext : BitVec 26) : BitVec 64 := (2#2 ++ 0#36) ++ ext

/-- `rv_ext` -/
def rvExt (k : ℕ) : BitVec 26 := 1#26 <<< k

namespace Tvec
def mode (t : BitVec 64) : BitVec 2 := t.extractLsb' 0 2
def base (t : BitVec 64) : BitVec 64 := (t.extractLsb' 2 62).setWidth 64
end Tvec

namespace Satp
def ppn (s : BitVec 64) : BitVec 64 := (s.extractLsb' 0 44).setWidth 64
def asid (s : BitVec 64) : BitVec 16 := s.extractLsb' 44 16
def mode (s : BitVec 64) : BitVec 4 := s.extractLsb' 60 4
end Satp

/-! ## Sv39 -/

-- `sv39_pte`
namespace Pte
section
variable (p : BitVec 64)
def V : Bool := p.getLsbD 0
def R : Bool := p.getLsbD 1
def W : Bool := p.getLsbD 2
def X : Bool := p.getLsbD 3
def U : Bool := p.getLsbD 4
def G : Bool := p.getLsbD 5
def A : Bool := p.getLsbD 6
def D : Bool := p.getLsbD 7
def PPN0 : BitVec 9 := p.extractLsb' 10 9
def PPN1 : BitVec 9 := p.extractLsb' 19 9
def PPN2 : BitVec 26 := p.extractLsb' 28 26
def reserved : BitVec 7 := p.extractLsb' 54 7
def PBMT : BitVec 2 := p.extractLsb' 61 2
/-- the physical page address -/
def ppa : BitVec 64 :=
  ((((PPN2 p).setWidth 64 <<< 9 ||| (PPN1 p).setWidth 64) <<< 9) ||| (PPN0 p).setWidth 64) <<< 12
end
end Pte

-- `sv39_va`
namespace Va
def vpn0 (va : BitVec 64) : BitVec 9 := va.extractLsb' 12 9
def vpn1 (va : BitVec 64) : BitVec 9 := va.extractLsb' 21 9
def vpn2 (va : BitVec 64) : BitVec 9 := va.extractLsb' 30 9
def blank (va : BitVec 64) : BitVec 25 := va.extractLsb' 39 25
end Va

/-! ## how a step of the simulator can end early -/

/-- a failed `assert`, or `exit` with a code -/
inductive Halt where
  | assertFailed
  | exit (code : ℕ)
deriving DecidableEq

/-- `assert` -/
def assertThat (b : Bool) : Except Halt Unit := if b then .ok () else .error .assertFailed

/-- the global flags of the simulator -/
structure Flags where
  runRiscvTest : Bool
  onlyModeM : Bool

end HduCpu
