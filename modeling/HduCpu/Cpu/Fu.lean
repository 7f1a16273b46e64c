import HduCpu.Cpu.Decode
import HduCpu.Cpu.CsrRegFile

/-!
# The functional units

`execute/fu/*.scala` and `execute/Fu.scala`.  Each unit is a function of the instruction in
Execute; a unit whose instruction is not valid drives the values of its `WireInit`s.

`switch (op)` is a chain of conditionals in the order of the source.  `DontCare` outputs of the
data SRAM port are driven with zero; `en` is low there.
-/

namespace HduCpu

/-- the sign-extended low word -/
def W {n : ℕ} (x : BitVec n) : BitVec 64 :=
  let x32 := x.extractLsb' 0 32
  fill 32 (x32.getLsbD 31) ++ x32

/-! ## Alu -/

def alu (info : Info) (src : SrcInfo) : BitVec 64 :=
  let op := info.op
  let rs := src.src1Data
  let rt := src.src2Data
  if info.valid then
    if op = ALUOpType.add then rs + rt
    else if op = ALUOpType.sub then rs - rt
    else if op = ALUOpType.sll then rs <<< rt.extractLsb' 0 6
    else if op = ALUOpType.slt then (BitVec.ofBool (rs.slt rt)).setWidth 64
    else if op = ALUOpType.sltu then (BitVec.ofBool (rs.ult rt)).setWidth 64
    else if op = ALUOpType.xor then rs ^^^ rt
    else if op = ALUOpType.srl then rs >>> rt.extractLsb' 0 6
    else if op = ALUOpType.sra then rs.sshiftRight' (rt.extractLsb' 0 6)
    else if op = ALUOpType.or then rs ||| rt
    else if op = ALUOpType.and then rs &&& rt
    else if op = ALUOpType.addw then W (rs + rt)
    else if op = ALUOpType.subw then W (rs - rt)
    else if op = ALUOpType.sllw then W (rs <<< rt.extractLsb' 0 5)
    else if op = ALUOpType.srlw then W (rs.extractLsb' 0 32 >>> rt.extractLsb' 0 5)
    else if op = ALUOpType.sraw then W ((rs.extractLsb' 0 32).sshiftRight' (rt.extractLsb' 0 5))
    else 0
  else 0

/-! ## Mdu -/

def mdu (info : Info) (src : SrcInfo) : BitVec 64 :=
  let op := info.op
  let rs := src.src1Data
  let rt := src.src2Data
  let rs32 := rs.extractLsb' 0 32
  let rt32 := rt.extractLsb' 0 32
  if info.valid then
    if op = MDUOpType.mul then (mulU rs rt).setWidth 64
    else if op = MDUOpType.mulh then (mulS rs rt).extractLsb' 64 64
    else if op = MDUOpType.mulhsu then (mulSU rs rt).extractLsb' 64 64
    else if op = MDUOpType.mulhu then (mulU rs rt).extractLsb' 64 64
    else if op = MDUOpType.div then
      if rt = 0 then 0xffffffffffffffff else (divS rs rt).extractLsb' 0 64
    else if op = MDUOpType.divu then
      if rt = 0 then 0xffffffffffffffff else divU rs rt
    else if op = MDUOpType.rem then
      if rt = 0 then rs else (subS rs (mulS rt (divS rs rt))).extractLsb' 0 64
    else if op = MDUOpType.remu then
      if rt = 0 then rs else (remU rs rt).setWidth 64
    else if op = MDUOpType.mulw then W (mulU rs rt)
    else if op = MDUOpType.divw then
      if rt32 = 0 then 0xffffffffffffffff else W (divS rs32 rt32)
    else if op = MDUOpType.divuw then
      if rt32 = 0 then 0xffffffffffffffff else W (divU rs32 rt32)
    else if op = MDUOpType.remw then
      if rt32 = 0 then W rs32 else W (remS rs32 rt32)
    else if op = MDUOpType.remuw then
      if rt32 = 0 then W rs32 else W (remU rs32 rt32)
    else 0
  else 0

/-! ## Bru -/

/-- the next pc of a taken branch; `none` when the branch is not taken -/
def bruTarget (info : Info) (src : SrcInfo) (pc : BitVec 64) : Option (BitVec 64) :=
  let op := info.op
  let rs := src.src1Data
  let rt := src.src2Data
  let newPc := pc + info.imm
  let when (c : Bool) : Option (BitVec 64) := if c then some newPc else none
  if info.valid then
    if op = BRUOpType.beq then when (rs == rt)
    else if op = BRUOpType.bne then when (rs != rt)
    else if op = BRUOpType.blt then when (rs.slt rt)
    else if op = BRUOpType.bge then when (!rs.slt rt)
    else if op = BRUOpType.bltu then when (rs.ult rt)
    else if op = BRUOpType.bgeu then when (!rs.ult rt)
    else if op = BRUOpType.jal then some newPc
    else if op = BRUOpType.jalr then some ((rs + info.imm) &&& (fill 63 true ++ 0#1))
    else none
  else none

structure BruOut where
  result : BitVec 64
  ftcInfo : FetchInfo
  newEx : ExceptionInfo

/-- `Exception : instAddrMisaligned` of a taken branch -/
def bruEx (target : Option (BitVec 64)) (oldEx : ExceptionInfo) : ExceptionInfo :=
  match target with
  | some t => if t.extractLsb' 0 2 != 0 then oldEx.raise instAddrMisaligned t else oldEx
  | none => oldEx

def bru (info : Info) (src : SrcInfo) (pc : BitVec 64) (oldEx : ExceptionInfo) : BruOut :=
  let target := bruTarget info src pc
  { result :=
      if info.valid && (info.op == BRUOpType.jal || info.op == BRUOpType.jalr) then pc + 4 else 0
    ftcInfo := ⟨target.isSome, target.getD 0⟩
    newEx := bruEx target oldEx }

/-! ## Lsu -/

structure LsuOut where
  dataSram : DataSram
  newEx : ExceptionInfo

/-- the bits of the address that must be zero (`bit`) -/
def lsuBit (op : BitVec 5) (addr : BitVec 64) : BitVec 32 :=
  if LSUOpType.exBit op = LSUOpType.b then 0
  else if LSUOpType.exBit op = LSUOpType.h then (addr.extractLsb' 0 1).setWidth 32
  else if LSUOpType.exBit op = LSUOpType.w then (addr.extractLsb' 0 2).setWidth 32
  else (addr.extractLsb' 0 3).setWidth 32

def lsuWen (op : BitVec 5) (addr : BitVec 64) : BitVec 8 :=
  if op = LSUOpType.sb then 0b00000001#8 <<< addr.extractLsb' 0 3
  else if op = LSUOpType.sh then 0b00000011#8 <<< addr.extractLsb' 0 3
  else if op = LSUOpType.sw then 0b00001111#8 <<< addr.extractLsb' 0 3
  else if op = LSUOpType.sd then 0b11111111#8 <<< addr.extractLsb' 0 3
  else 0

def lsuWdata (op : BitVec 5) (rt : BitVec 64) : BitVec 64 :=
  if op = LSUOpType.sb then (rt.extractLsb' 0 8).replicate 8
  else if op = LSUOpType.sh then (rt.extractLsb' 0 16).replicate 4
  else if op = LSUOpType.sw then (rt.extractLsb' 0 32).replicate 2
  else if op = LSUOpType.sd then rt
  else 0

/-- `Exception : storeAddrMisaligned & loadAddrMisaligned` -/
def lsuEx (op : BitVec 5) (addr : BitVec 64) (oldEx : ExceptionInfo) : ExceptionInfo :=
  if lsuBit op addr != 0 then
    if LSUOpType.isStore op then oldEx.raise storeAddrMisaligned addr
    else oldEx.raise loadAddrMisaligned addr
  else oldEx

def lsu (info : Info) (src : SrcInfo) (oldEx : ExceptionInfo) : LsuOut :=
  let addr := src.src1Data + info.imm
  { dataSram :=
      { en := true
        addr := addr.setWidth 32
        wdata := if info.valid then lsuWdata info.op src.src2Data else 0
        wen := if info.valid && lsuBit info.op addr == 0 then lsuWen info.op addr else 0 }
    newEx := if info.valid then lsuEx info.op addr oldEx else oldEx }

/-! ## Csr -/

structure CsrOut where
  result : BitVec 64
  write : CsrWrite
  newEx : ExceptionInfo
  mret : Bool

/-- is the CSR read: not by a `csrrw` with destination `x0` -/
def csrRen (info : Info) : Bool :=
  info.valid &&
    if info.op = CSROpType.csrrw then info.regWaddr != 0
    else info.op == CSROpType.csrrs || info.op == CSROpType.csrrc

/-- is the CSR written: not by a set or clear whose operand is `x0` or the immediate 0 -/
def csrWen (info : Info) : Bool :=
  info.valid &&
    if info.op = CSROpType.csrrw then true
    else if info.op = CSROpType.csrrs || info.op = CSROpType.csrrc then
      (if info.isCsri then info.zimm else info.src1Raddr.setWidth 64) != 0
    else false

def csrWdata (info : Info) (rs cdata : BitVec 64) : BitVec 64 :=
  if info.valid then
    if info.op = CSROpType.csrrw then rs
    else if info.op = CSROpType.csrrs then cdata ||| rs
    else if info.op = CSROpType.csrrc then cdata &&& ~~~rs
    else 0
  else 0

/-- `ecall` and `ebreak`; `tval` keeps its old value -/
def csrCallEx (info : Info) (mode : BitVec 2) (oldEx : ExceptionInfo) : ExceptionInfo :=
  let raise no := { oldEx with exception := Function.update oldEx.exception no true }
  if info.op = CSROpType.ebreak then raise breakPoint
  else if info.op = CSROpType.ecall then
    if mode = Privilege.u then raise ecallU
    else if mode = Privilege.s then raise ecallS
    else if mode = Privilege.m then raise ecallM
    else oldEx
  else oldEx

def csr (file : CSRRegFile) (info : Info) (src : SrcInfo) (oldEx : ExceptionInfo) : CsrOut :=
  let ren := csrRen info
  let wen := csrWen info
  let cdata := file.rdata ren info.csr
  let ex := if info.valid then csrCallEx info file.regMode oldEx else oldEx
  { result := cdata
    write := ⟨wen, info.csr, csrWdata info src.src1Data cdata⟩
    newEx :=
      if info.valid && (!file.rlegal ren info.csr || !file.wlegal wen info.csr) then
        ex.raise illegalInst (info.inst.setWidth 64)
      else ex
    mret := info.valid && info.op == CSROpType.mret }

/-! ## Fu -/

structure FuOut where
  wdata : BitVec 64
  dataSram : DataSram
  ftcInfo : FetchInfo
  write : CsrWrite
  newEx : ExceptionInfo
  mret : Bool

/-- `Fu` before its `switch`: result `res` and nothing else happens -/
def FuOut.quiet (res : BitVec 64) (oldEx : ExceptionInfo) : FuOut where
  wdata := res
  dataSram := ⟨false, 0, 0, 0⟩
  ftcInfo := ⟨false, 0⟩
  write := ⟨false, 0, 0⟩
  newEx := oldEx
  mret := false

def fu (file : CSRRegFile) (data : IdExeData) : FuOut :=
  match data.info.fusel with
  | .alu => .quiet (alu data.info data.srcInfo) data.ex
  | .mdu => .quiet (mdu data.info data.srcInfo) data.ex
  | .lsu =>
    let out := lsu data.info data.srcInfo data.ex
    { FuOut.quiet 0 data.ex with dataSram := out.dataSram, newEx := out.newEx }
  | .bru =>
    let out := bru data.info data.srcInfo data.pc data.ex
    { FuOut.quiet out.result data.ex with ftcInfo := out.ftcInfo, newEx := out.newEx }
  | .csr =>
    let out := csr file data.info data.srcInfo data.ex
    { FuOut.quiet out.result data.ex with
      write := out.write, newEx := out.newEx, mret := out.mret }

end HduCpu
