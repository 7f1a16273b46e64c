import HduCpu.Cpu.Rvi

/-!
# Fetch and decode

`fetch/FetchCtrl.scala`, `fetch/FetchUnit.scala`, `ARegfile.scala` and `decode/*.scala`.

* `FetchUnit`, `FetchUnit.sramAddr`, `FetchUnit.next`   the program counter;
* `ARegFile.write`         the general registers, register 0 is never written;
* `decoder`                table lookup, register numbers and immediates;
* `decodeUnit`             operands with forwarding from the three later stages, and the
                           exceptions that decoding finds;
* `decodeCtrl`             the load-use stall.
-/

namespace HduCpu

/-! ## fetch -/

/-- `FetchCtrl`: (allow is constantly true) -/
def fetchCtrl (decodeReady : Bool) (ftcInfo : FetchInfo) : CtrlSignal :=
  let allow := true
  ⟨allow && decodeReady, ftcInfo.flush || (!allow && decodeReady)⟩

inductive FetchState where
  | boot | send | receive
deriving DecidableEq

structure FetchUnit where
  state : FetchState
  pc : BitVec 64
deriving DecidableEq

def FetchUnit.reset : FetchUnit := ⟨.boot, PC_INIT - 4⟩

/-- `io.instSram.addr`: 32 bits wide, so the upper half of a target is dropped. -/
def FetchUnit.sramAddr (s : FetchUnit) (ctrl : CtrlSignal) (ftcInfo : FetchInfo) : BitVec 32 :=
  if ftcInfo.flush then ftcInfo.target.setWidth 32
  else if !ctrl.allowToGo then s.pc.setWidth 32
  else (s.pc + 4).setWidth 32

/-- `pc` follows the SRAM address (zero-extended) except in state `boot`. -/
def FetchUnit.next (s : FetchUnit) (ctrl : CtrlSignal) (ftcInfo : FetchInfo) : FetchUnit where
  state := match s.state with
    | .boot => .send
    | .send => .receive
    | .receive => .receive
  pc := if s.state = .boot then s.pc else (s.sramAddr ctrl ftcInfo).setWidth 64

/-! ## general registers -/

abbrev ARegFile := BitVec 5 → BitVec 64

def ARegFile.reset : ARegFile := fun _ => 0

def ARegFile.write (regs : ARegFile) (wen : Bool) (waddr : BitVec 5) (wdata : BitVec 64) :
    ARegFile :=
  if wen && waddr != 0 then Function.update regs waddr wdata else regs

/-! ## decoder -/

/-- `imm` by instruction type.  The `J` concatenation is 65 bits wide before the assignment. -/
def immOf (instrType : InstrType) (inst : BitVec 32) : BitVec 64 :=
  match instrType with
  | .I =>
    let imm12 := inst.extractLsb' 20 12
    fill 52 (imm12.getLsbD 11) ++ imm12
  | .U =>
    let imm32 : BitVec 32 := inst.extractLsb' 12 20 ++ 0#12
    fill 32 (imm32.getLsbD 31) ++ imm32
  | .S =>
    let imm12 : BitVec 12 := inst.extractLsb' 25 7 ++ inst.extractLsb' 7 5
    fill 52 (imm12.getLsbD 11) ++ imm12
  | .B =>
    let imm13 : BitVec 13 := ((inst.extractLsb' 31 1 ++ inst.extractLsb' 7 1) ++
      (inst.extractLsb' 25 6 ++ inst.extractLsb' 8 4)) ++ 0#1
    fill 51 (imm13.getLsbD 12) ++ imm13
  | .J =>
    let imm21 : BitVec 21 := ((inst.extractLsb' 31 1 ++ inst.extractLsb' 12 8) ++
      (inst.extractLsb' 20 1 ++ inst.extractLsb' 21 10)) ++ 0#1
    (fill 44 (imm21.getLsbD 20) ++ imm21).setWidth 64
  | .R | .N => 0

/-- `ListLookup(inst, DecodeDefault, DecodeTable)` -/
def decodeOf (inst : BitVec 32) : InstrType × FuType × BitVec 5 :=
  listLookup inst decodeDefault decodeTable

/-- A word is decoded by the one row of the table that it matches. -/
theorem decodeOf_of_hit {inst : BitVec 32} {e : BitPat 32 × InstrType × FuType × BitVec 5}
    (hm : e ∈ decodeTable) (hh : e.1.hit inst = true) : decodeOf inst = e.2 :=
  listLookup_of_mem decodeTable_apart hm hh

/-- What holds of every row of the decode table holds of every decoded word. -/
theorem decodeOf_mem (inst : BitVec 32) :
    decodeOf inst ∈ decodeDefault :: decodeTable.map Prod.snd := by
  rcases listLookup_cases inst decodeDefault decodeTable with ⟨e, hm, -, hl⟩ | ⟨-, hl⟩
  · rw [decodeOf, hl]
    exact List.mem_cons_of_mem _ (List.mem_map_of_mem hm)
  · rw [decodeOf, hl]
    exact List.mem_cons_self

def decoder (inst : BitVec 32) : Info :=
  let instrType := (decodeOf inst).1
  let fuType := (decodeOf inst).2.1
  let fuOpType := (decodeOf inst).2.2
  { valid := instrType != .N
    inst := inst
    fusel := fuType
    op := fuOpType
    src1Ren := instrType != .U && instrType != .J
    src1Raddr := rs1Of inst
    src1Pcen := RV32I_ALUInstr.AUIPC.hit inst || instrType == .J
    src2Ren := instrType != .I && instrType != .U && instrType != .J
    src2Raddr := rs2Of inst
    imm := immOf instrType inst
    regWen := instrType != .S && instrType != .B && !(fuType == .alu && fuOpType == ALUOpType.nop)
    regWaddr := rdOf inst
    csr := inst.extractLsb' 20 12
    isCsri := fuType == .csr && CSROpType.isCSRI inst
    zimm := (rs1Of inst).setWidth 64 }

/-! ## decode stage -/

structure IfIdData where
  inst : BitVec 32
  valid : Bool
  pc : BitVec 64
deriving DecidableEq

def IfIdData.zero : IfIdData := ⟨0, false, 0⟩

structure IdExeData where
  pc : BitVec 64
  info : Info
  srcInfo : SrcInfo
  ex : ExceptionInfo

def IdExeData.zero : IdExeData := ⟨0, .zero, ⟨0, 0⟩, .none⟩

/-- what a later stage offers to the decode stage: its instruction and the value of `rd` -/
structure Bypass where
  info : Info
  wdata : BitVec 64

def conflict1 (r w : Info) : Bool :=
  w.valid && w.regWen && w.regWaddr != 0 && r.src1Ren && r.src1Raddr == w.regWaddr

def conflict2 (r w : Info) : Bool :=
  w.valid && w.regWen && w.regWaddr != 0 && r.src2Ren && r.src2Raddr == w.regWaddr

/-- the exceptions found while decoding -/
def decodeEx (valid legal : Bool) (pc : BitVec 64) (inst : BitVec 32) : ExceptionInfo :=
  let ex := ExceptionInfo.none
  let ex := if valid && pc.extractLsb' 0 2 != 0 then ex.raise instAddrMisaligned pc else ex
  if valid && !legal then ex.raise illegalInst (inst.setWidth 64) else ex

def src1Data (info : Info) (pc : BitVec 64) (regs : ARegFile) (e m w : Bypass) : BitVec 64 :=
  muxCase 0 [
    (info.isCsri, info.zimm),
    (conflict1 info e.info, e.wdata),
    (conflict1 info m.info, m.wdata),
    (conflict1 info w.info, w.wdata),
    (info.src1Ren, regs info.src1Raddr),
    (info.src1Pcen, pc)]

def src2Data (info : Info) (regs : ARegFile) (e m w : Bypass) : BitVec 64 :=
  muxCase info.imm [
    (conflict2 info e.info, e.wdata),
    (conflict2 info m.info, m.wdata),
    (conflict2 info w.info, w.wdata),
    (info.src2Ren, regs info.src2Raddr)]

def decodeUnit (data : IfIdData) (regs : ARegFile) (e m w : Bypass) : IdExeData :=
  let info := { decoder data.inst with valid := data.valid }
  { pc := data.pc
    info := info
    srcInfo := ⟨src1Data info data.pc regs e m w, src2Data info regs e m w⟩
    ex := decodeEx data.valid (decoder data.inst).valid data.pc data.inst }

/-- The instruction in Execute is a load whose result the instruction in Decode reads. -/
def loadUse (d e : Info) : Bool :=
  e.valid && e.regWen && e.regWaddr != 0 && e.fusel == .lsu && !e.src2Ren &&
    ((d.src1Ren && d.src1Raddr == e.regWaddr) || (d.src2Ren && d.src2Raddr == e.regWaddr))

/-- `DecodeCtrl`; `decodeReady` is the `allowToGo` of the result. -/
def decodeCtrl (executeReady : Bool) (ftcInfo : FetchInfo) (d e : Info) : CtrlSignal :=
  let allow := !loadUse d e
  ⟨allow && executeReady, ftcInfo.flush || (!allow && executeReady)⟩

end HduCpu
