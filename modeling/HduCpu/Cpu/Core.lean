import HduCpu.Cpu.Fu

/-!
# The five-stage core

`execute/Execute*.scala`, `memory/*.scala`, `writeback/*.scala` and `Core.scala`.

* `executeUnit`            the functional units and the CSR file wired together;
* `memoryUnit`, `writeBackUnit`   the last two stages;
* `Core`                   the registers of all stages, `Core.reset`;
* `Core.wires`             the combinational signals of one clock cycle;
* `Core.next`              the registers after the clock edge;
* `coreMachine`            the core under arbitrary inputs in every cycle.
-/

namespace HduCpu

/-! ## execute -/

/-- `ExeMemData`; the source's `rd_info` bundle has the one field `wdata` -/
structure ExeMemData where
  pc : BitVec 64
  info : Info
  rdWdata : BitVec 64
  srcInfo : SrcInfo
deriving DecidableEq

def ExeMemData.zero : ExeMemData := ⟨0, .zero, 0, ⟨0, 0⟩⟩

structure ExecuteOut where
  memoryStage : ExeMemData
  dataSram : DataSram
  ftcInfo : FetchInfo
  /-- what the CSR file is given in this cycle -/
  csrIn : CsrIn
  csrFtc : FetchInfo

def executeUnit (file : CSRRegFile) (ext : ExtInterrupt) (data : IdExeData) : ExecuteOut :=
  let out := fu file data
  let csrIn : CsrIn :=
    { write := out.write
      extInt := ext
      ex := if data.info.valid then out.newEx else .none
      mret := out.mret
      pc := data.pc }
  let csrFtc := file.ftcInfo csrIn
  { memoryStage :=
      { pc := data.pc
        info := if csrFtc.flush then { data.info with regWen := false } else data.info
        rdWdata := out.wdata
        srcInfo := data.srcInfo }
    dataSram := out.dataSram
    ftcInfo := if csrFtc.flush then csrFtc else out.ftcInfo
    csrIn := csrIn
    csrFtc := csrFtc }

/-- `ExecuteCtrl` and `MemoryCtrl`: always allowed, never flushed -/
def passCtrl (ready : Bool) : CtrlSignal :=
  let allow := true
  let flush := false
  ⟨allow && ready, flush || (!allow && ready)⟩

/-! ## memory -/

structure MemWbData where
  pc : BitVec 64
  info : Info
  rdWdata : BitVec 64
deriving DecidableEq

def MemWbData.zero : MemWbData := ⟨0, .zero, 0⟩

/-- the value of a load, from the aligned double word that holds it -/
def loadValue (op : BitVec 5) (addr loadData : BitVec 64) (other : BitVec 64) : BitVec 64 :=
  let shamt : BitVec 7 := (addr.extractLsb' 0 3).setWidth 7 * 8
  let rdata := loadData >>> shamt
  if op = LSUOpType.lb then fill 56 (rdata.getLsbD 7) ++ rdata.extractLsb' 0 8
  else if op = LSUOpType.lh then fill 48 (rdata.getLsbD 15) ++ rdata.extractLsb' 0 16
  else if op = LSUOpType.lw then fill 32 (rdata.getLsbD 31) ++ rdata.extractLsb' 0 32
  else if op = LSUOpType.ld then rdata
  else if op = LSUOpType.lbu then (rdata.extractLsb' 0 8).setWidth 64
  else if op = LSUOpType.lhu then (rdata.extractLsb' 0 16).setWidth 64
  else if op = LSUOpType.lwu then (rdata.extractLsb' 0 32).setWidth 64
  else other

def memoryUnit (data : ExeMemData) (loadData : BitVec 64) : MemWbData where
  pc := data.pc
  info := data.info
  rdWdata :=
    if data.info.valid && data.info.fusel == .lsu && LSUOpType.isLoad data.info.op then
      loadValue data.info.op (data.srcInfo.src1Data + data.info.imm) loadData data.rdWdata
    else data.rdWdata

/-! ## write back -/

/-- `io.debug` -/
def writeBackDebug (data : MemWbData) : Debug :=
  ⟨data.info.valid, data.pc, data.info.regWaddr, data.rdWdata⟩

/-- the register file after the write of the instruction in WriteBack -/
def writeBackUnit (regs : ARegFile) (data : MemWbData) : ARegFile :=
  regs.write (data.info.valid && data.info.regWen) data.info.regWaddr data.rdWdata

/-! ## core -/

structure Core where
  fetch : FetchUnit
  decodeStage : IfIdData
  executeStage : IdExeData
  memoryStage : ExeMemData
  writeBackStage : MemWbData
  regfile : ARegFile
  csrfile : CSRRegFile

def Core.reset : Core where
  fetch := .reset
  decodeStage := .zero
  executeStage := .zero
  memoryStage := .zero
  writeBackStage := .zero
  regfile := .reset
  csrfile := .reset

/-- the inputs of one clock cycle -/
structure CoreIn where
  interrupt : ExtInterrupt
  instRdata : BitVec 32
  dataRdata : BitVec 64

/-- the combinational signals of one clock cycle -/
structure CoreWires where
  decodeUnit : IdExeData
  executeUnit : ExecuteOut
  memoryUnit : MemWbData
  memoryCtrl : CtrlSignal
  executeCtrl : CtrlSignal
  decodeCtrl : CtrlSignal
  fetchCtrl : CtrlSignal
  instSram : InstSram

namespace Core
variable (s : Core) (i : CoreIn)

def wires : CoreWires :=
  let mem := HduCpu.memoryUnit s.memoryStage i.dataRdata
  let exe := HduCpu.executeUnit s.csrfile i.interrupt s.executeStage
  let dec := HduCpu.decodeUnit s.decodeStage s.regfile
    ⟨exe.memoryStage.info, exe.memoryStage.rdWdata⟩ ⟨mem.info, mem.rdWdata⟩
    ⟨s.writeBackStage.info, s.writeBackStage.rdWdata⟩
  let writeBackReady := true
  let memCtrl := passCtrl writeBackReady
  let exeCtrl := passCtrl memCtrl.allowToGo
  let decCtrl := HduCpu.decodeCtrl exeCtrl.allowToGo exe.ftcInfo dec.info exe.memoryStage.info
  let fetCtrl := HduCpu.fetchCtrl decCtrl.allowToGo exe.ftcInfo
  { decodeUnit := dec
    executeUnit := exe
    memoryUnit := mem
    memoryCtrl := memCtrl
    executeCtrl := exeCtrl
    decodeCtrl := decCtrl
    fetchCtrl := fetCtrl
    instSram := ⟨true, s.fetch.sramAddr fetCtrl exe.ftcInfo⟩ }

/-- `DecodeStage` after the edge -/
def decodeNext (w : CoreWires) : IfIdData :=
  let data := if w.fetchCtrl.allowToGo then
    ⟨i.instRdata, s.fetch.state == .receive, s.fetch.pc⟩ else s.decodeStage
  if w.fetchCtrl.doFlush then { data with valid := false } else data

/-- `ExecuteStage` after the edge -/
def executeNext (w : CoreWires) : IdExeData :=
  let data := if w.decodeCtrl.allowToGo then w.decodeUnit else s.executeStage
  if w.decodeCtrl.doFlush then { data with info := { data.info with valid := false } } else data

/-- `MemoryStage` after the edge -/
def memoryNext (w : CoreWires) : ExeMemData :=
  let data := if w.executeCtrl.allowToGo then w.executeUnit.memoryStage else s.memoryStage
  if w.executeCtrl.doFlush then { data with info := { data.info with valid := false } } else data

/-- `WriteBackStage` after the edge -/
def writeBackNext (w : CoreWires) : MemWbData :=
  let data := if w.memoryCtrl.allowToGo then w.memoryUnit else s.writeBackStage
  if w.memoryCtrl.doFlush then { data with info := { data.info with valid := false } } else data

/-- the registers after the clock edge -/
def next : Core :=
  let w := s.wires i
  { fetch := s.fetch.next w.fetchCtrl w.executeUnit.ftcInfo
    decodeStage := s.decodeNext i w
    executeStage := s.executeNext w
    memoryStage := s.memoryNext w
    writeBackStage := s.writeBackNext w
    regfile := writeBackUnit s.regfile s.writeBackStage
    csrfile := s.csrfile.next w.executeUnit.csrIn }

/-- the difftest port -/
def debug : Debug := writeBackDebug s.writeBackStage

end Core

/-- The core with arbitrary inputs in every cycle. -/
def coreMachine : Clocked Core CoreIn where
  init s := s = .reset
  next i s := s.next i

end HduCpu
