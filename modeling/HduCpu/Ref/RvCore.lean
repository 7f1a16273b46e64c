import HduCpu.Ref.RvPriv

/-!
# The reference core

`rv_core.hpp`.  `RvCore.exec` is one instruction: interrupts and fetch, `decodeExec` for the
`decode_exec:` part with one function for each opcode, and `settle` for the `exception:` part.
The pc and instruction histories, which are only printed, and the dead code for compressed
instructions (`hasCExt` is false) are left out.

* `AluOp`, `aluExec`       `alu_exec`;
* `RvCore.setGPR`, `raise`, `memRead`, `memWrite`;
* `RvCore.lui` … `RvCore.system`   the opcodes; `ExecState` carries `ri` and `new_pc`;
* `RvCore.decodeExec`, `settle`, `exec`.
-/

namespace HduCpu

/-! ## arithmetic -/

inductive AluOp where
  | add | sub | sll | slt | sltu | xor | srl | sra | or | and
  | mul | mulh | mulhu | mulhsu | div | divu | rem | remu | nop
deriving DecidableEq

/-- `(int32_t)x`, converted back to 64 bits -/
def sext32 (x : BitVec 64) : BitVec 64 := (x.setWidth 32).signExtend 64

/-- `(uint32_t)x`, converted back to 64 bits -/
def zext32 (x : BitVec 64) : BitVec 64 := (x.setWidth 32).setWidth 64

/-- `LONG_MIN` -/
def longMin : BitVec 64 := 0x8000000000000000#64

/-- the `switch` of `alu_exec`, the operands being truncated already -/
def aluSwitch (a b : BitVec 64) (op : AluOp) (op32 : Bool) : Except Halt (BitVec 64) :=
  let shamt : ℕ := (b &&& (if op32 then 0x1f#64 else 0x3f#64)).toNat
  match op with
  | .add => .ok (a + b)
  | .sub => .ok (a - b)
  | .sll => .ok (a <<< shamt)
  | .slt => .ok ((BitVec.ofBool (a.slt b)).setWidth 64)
  | .sltu => .ok ((BitVec.ofBool (a.ult b)).setWidth 64)
  | .xor => .ok (a ^^^ b)
  | .srl => .ok ((if op32 then a &&& 0xffffffff#64 else a) >>> shamt)
  | .sra => .ok (a.sshiftRight shamt)
  | .or => .ok (a ||| b)
  | .and => .ok (a &&& b)
  | .mul => .ok (a * b)
  | .mulh => .ok ((a.signExtend 128 * b.signExtend 128).extractLsb' 64 64)
  | .mulhu => .ok ((a.setWidth 128 * b.setWidth 128).extractLsb' 64 64)
  | .mulhsu => .ok ((a.signExtend 128 * b.setWidth 128).extractLsb' 64 64)
  | .div =>
    if b = 0 then .ok (-1)
    else if a = longMin ∧ b = -1 then .ok longMin
    else .ok (a.sdiv b)
  | .divu =>
    if b = 0 then .ok (-1)
    else if op32 then .ok (zext32 a / zext32 b)
    else .ok (a / b)
  | .rem =>
    if b = 0 then .ok a
    else if a = longMin ∧ b = -1 then .ok 0
    else .ok (a.srem b)
  | .remu =>
    if b = 0 then .ok a
    else if op32 then .ok (zext32 a % zext32 b)
    else .ok (a % b)
  | .nop => .error .assertFailed

def aluExec (a b : BitVec 64) (op : AluOp) (op32 : Bool) : Except Halt (BitVec 64) := do
  let result ← aluSwitch (if op32 then sext32 a else a) (if op32 then sext32 b else b) op op32
  .ok (if op32 then sext32 result else result)

/-! ## state -/

structure RvCore (δ : Type) where
  debugPc : BitVec 64
  debugRegNum : BitVec 64
  debugRegWdata : BitVec 64
  debugInst : BitVec 32
  debugIsBranch : Bool
  intAllow : Bool
  difftestMode : Bool
  pc : BitVec 64
  priv : RvPriv
  bus : Systembus δ
  GPR : BitVec 5 → BitVec 64

/-- the state within `exec`, with `ri` and `new_pc` -/
structure ExecState (δ : Type) where
  core : RvCore δ
  ri : Bool
  newPc : Bool

namespace RvCore
section
variable {δ : Type} (c : RvCore δ)

def setGPR (index : BitVec 5) (value : BitVec 64) : RvCore δ :=
  { c with
    GPR := if index != 0 then Function.update c.GPR index value else c.GPR
    debugRegNum := index.setWidth 64
    debugRegWdata := value }

/-- `priv.raise_trap` with an exception -/
def raise (code : RvExcCode) (tval : BitVec 64) : Except Halt (RvCore δ) := do
  let p ← c.priv.raiseTrap c.pc (.exc code) tval
  .ok { c with priv := p }

/-- nothing more to do for this instruction -/
def done : Except Halt (ExecState δ) := .ok ⟨c, false, false⟩

def illegal : Except Halt (ExecState δ) := .ok ⟨c, true, false⟩

/-- a trap, and nothing else -/
def trap (code : RvExcCode) (tval : BitVec 64) : Except Halt (ExecState δ) := do
  let c ← c.raise code tval
  c.done

/-! ## upper immediates and jumps -/

def lui (inst : BitVec 32) : Except Halt (ExecState δ) :=
  (c.setGPR (RvInstr.rd inst) (RvInstr.immU inst)).done

def auipc (inst : BitVec 32) : Except Halt (ExecState δ) :=
  (c.setGPR (RvInstr.rd inst) (RvInstr.immU inst + c.pc)).done

/-- a jump with link, to a target that must be a multiple of `PC_ALIGN` -/
def jumpLink (rd : BitVec 5) (npc : BitVec 64) : Except Halt (ExecState δ) :=
  if npc % 4 != 0 then c.trap RvExcCode.instrMisalign npc
  else .ok ⟨{ ({ c with debugIsBranch := true }.setGPR rd (c.pc + 4)) with pc := npc }, false, true⟩

def jal (inst : BitVec 32) : Except Halt (ExecState δ) :=
  c.jumpLink (RvInstr.rd inst) (c.pc + (RvInstr.immJ inst).signExtend 64)

/-- Bit 0 of the immediate is cleared, not bit 0 of the target. -/
def jalr (inst : BitVec 32) : Except Halt (ExecState δ) :=
  let imm12 := if RvInstr.imm12 inst &&& 1 != 0 then RvInstr.imm12 inst ^^^ 1
    else RvInstr.imm12 inst
  c.jumpLink (RvInstr.rd inst) (c.GPR (RvInstr.rs1 inst) + imm12.signExtend 64)

/-- the condition of a branch; `none` for the reserved ones -/
def branchTaken (f3 : BitVec 3) (a b : BitVec 64) : Option Bool :=
  if f3 = Funct3.BEQ then some (a == b)
  else if f3 = Funct3.BNE then some (a != b)
  else if f3 = Funct3.BLT then some (a.slt b)
  else if f3 = Funct3.BGE then some (!a.slt b)
  else if f3 = Funct3.BLTU then some (a.ult b)
  else if f3 = Funct3.BGEU then some (!a.ult b)
  else none

def branch (inst : BitVec 32) : Except Halt (ExecState δ) :=
  match branchTaken (RvInstr.funct3 inst) (c.GPR (RvInstr.rs1 inst)) (c.GPR (RvInstr.rs2 inst)) with
  | none => c.illegal
  | some false => c.done
  | some true => do
    let npc := c.pc + (RvInstr.immB inst).signExtend 64
    let c := { c with debugIsBranch := true }
    if npc % 4 != 0 then
      let c ← c.raise RvExcCode.instrMisalign npc
      .ok ⟨c, false, true⟩
    else .ok ⟨{ c with pc := npc }, false, true⟩

/-! ## loads and stores -/

variable [MmioDev δ]

/-- the result and the buffer of `mem_read` -/
def memRead (startAddr size buffer : BitVec 64) : Except Halt (RvCore δ × Bool × BitVec 64) := do
  if startAddr % size != 0 then
    let c ← c.raise RvExcCode.loadMisalign startAddr
    .ok (c, false, buffer)
  else
    let r ← c.priv.vaRead c.bus startAddr size buffer
    let c := { c with priv := r.priv, bus := r.bus }
    if r.exc == RvExcCode.customOk then .ok (c, true, r.buffer)
    else
      let c ← c.raise r.exc startAddr
      .ok (c, false, r.buffer)

def memWrite (flags : Flags) (startAddr size buffer : BitVec 64) : Except Halt (RvCore δ) := do
  if startAddr % size != 0 then c.raise RvExcCode.storeMisalign startAddr
  else
    let r ← c.priv.vaWrite c.bus flags startAddr size buffer
    let c := { c with priv := r.priv, bus := r.bus }
    if r.exc == RvExcCode.customOk then .ok c else c.raise r.exc startAddr

/-- size and conversion of the loads; `none` for the reserved one -/
def loadKind (f3 : BitVec 3) : Option (BitVec 64 × (BitVec 64 → BitVec 64)) :=
  if f3 = Funct3.LB then some (1, fun buf => (buf.setWidth 8).signExtend 64)
  else if f3 = Funct3.LH then some (2, fun buf => (buf.setWidth 16).signExtend 64)
  else if f3 = Funct3.LW then some (4, fun buf => (buf.setWidth 32).signExtend 64)
  else if f3 = Funct3.LD then some (8, fun buf => buf)
  else if f3 = Funct3.LBU then some (1, fun buf => (buf.setWidth 8).setWidth 64)
  else if f3 = Funct3.LHU then some (2, fun buf => (buf.setWidth 16).setWidth 64)
  else if f3 = Funct3.LWU then some (4, fun buf => (buf.setWidth 32).setWidth 64)
  else none

def load (inst : BitVec 32) : Except Halt (ExecState δ) :=
  let memAddr := c.GPR (RvInstr.rs1 inst) + (RvInstr.imm12 inst).signExtend 64
  match loadKind (RvInstr.funct3 inst) with
  | none => c.illegal
  | some (size, conv) => do
    let (c, ok, buf) ← c.memRead memAddr size 0
    if ok then (c.setGPR (RvInstr.rd inst) (conv buf)).done else c.done

def storeSize (f3 : BitVec 3) : Option (BitVec 64) :=
  if f3 = Funct3.SB then some 1
  else if f3 = Funct3.SH then some 2
  else if f3 = Funct3.SW then some 4
  else if f3 = Funct3.SD then some 8
  else none

def store (flags : Flags) (inst : BitVec 32) : Except Halt (ExecState δ) :=
  let memAddr := c.GPR (RvInstr.rs1 inst) + (RvInstr.immS inst).signExtend 64
  match storeSize (RvInstr.funct3 inst) with
  | none => c.illegal
  | some size => do
    let c ← c.memWrite flags memAddr size (c.GPR (RvInstr.rs2 inst))
    c.done

/-! ## integer computation -/

omit [MmioDev δ] in
/-- the common end of the four opcodes: `ri`, or the result of `alu_exec` in `rd` -/
def computed (inst : BitVec 32) (op : Option AluOp) (b : BitVec 64) (op32 : Bool) :
    Except Halt (ExecState δ) :=
  match op with
  | none => c.illegal
  | some op => do
    let result ← aluExec (c.GPR (RvInstr.rs1 inst)) b op op32
    (c.setGPR (RvInstr.rd inst) result).done

/-- `op` and `imm` of OP-IMM; the immediate of a left shift is compared as a signed number -/
def opImmKind (inst : BitVec 32) : Option AluOp × BitVec 64 :=
  let imm := (RvInstr.imm12 inst).signExtend 64
  let fun6 := (RvInstr.funct7 inst).extractLsb' 1 6
  let f3 := RvInstr.funct3 inst
  if f3 = Funct3.ADD_SUB then (some .add, imm)
  else if f3 = Funct3.SLT then (some .slt, imm)
  else if f3 = Funct3.SLTU then (some .sltu, imm)
  else if f3 = Funct3.XOR then (some .xor, imm)
  else if f3 = Funct3.OR then (some .or, imm)
  else if f3 = Funct3.AND then (some .and, imm)
  else if f3 = Funct3.SLL then (if (64#64).sle imm then none else some .sll, imm)
  else
    (if fun6 != Funct6.NORMAL && fun6 != Funct6.SRA then none
      else some (if fun6 = Funct6.SRA then .sra else .srl), imm &&& 0x3f#64)

def opImm (inst : BitVec 32) : Except Halt (ExecState δ) :=
  c.computed inst (opImmKind inst).1 (opImmKind inst).2 false

def opImm32Kind (inst : BitVec 32) : Option AluOp × BitVec 64 :=
  let imm := (RvInstr.imm12 inst).signExtend 64
  let fun7 := RvInstr.funct7 inst
  let f3 := RvInstr.funct3 inst
  if f3 = Funct3.ADD_SUB then (some .add, imm)
  else if f3 = Funct3.SLL then
    (if (64#64).sle imm || fun7 != Funct7.NORMAL then none else some .sll, imm)
  else if f3 = Funct3.SRL_SRA then
    (if fun7 != Funct7.NORMAL && fun7 != Funct7.SUB_SRA then none
      else some (if fun7 = Funct7.SUB_SRA then .sra else .srl), imm &&& 0x3f#64)
  else (none, imm)

def opImm32 (inst : BitVec 32) : Except Halt (ExecState δ) :=
  c.computed inst (opImm32Kind inst).1 (opImm32Kind inst).2 true

def opKind (f7 : BitVec 7) (f3 : BitVec 3) : Option AluOp :=
  if f7 = Funct7.NORMAL then
    if f3 = Funct3.ADD_SUB then some .add
    else if f3 = Funct3.SLL then some .sll
    else if f3 = Funct3.SLT then some .slt
    else if f3 = Funct3.SLTU then some .sltu
    else if f3 = Funct3.XOR then some .xor
    else if f3 = Funct3.SRL_SRA then some .srl
    else if f3 = Funct3.OR then some .or
    else some .and
  else if f7 = Funct7.SUB_SRA then
    if f3 = Funct3.ADD_SUB then some .sub
    else if f3 = Funct3.SRL_SRA then some .sra
    else none
  else if f7 = Funct7.MUL then
    if f3 = Funct3.MUL then some .mul
    else if f3 = Funct3.MULH then some .mulh
    else if f3 = Funct3.MULHSU then some .mulhsu
    else if f3 = Funct3.MULHU then some .mulhu
    else if f3 = Funct3.DIV then some .div
    else if f3 = Funct3.DIVU then some .divu
    else if f3 = Funct3.REM then some .rem
    else some .remu
  else none

def op (inst : BitVec 32) : Except Halt (ExecState δ) :=
  c.computed inst (opKind (RvInstr.funct7 inst) (RvInstr.funct3 inst))
    (c.GPR (RvInstr.rs2 inst)) false

def op32Kind (f7 : BitVec 7) (f3 : BitVec 3) : Option AluOp :=
  if f7 = Funct7.NORMAL then
    if f3 = Funct3.ADD_SUB then some .add
    else if f3 = Funct3.SLL then some .sll
    else if f3 = Funct3.SRL_SRA then some .srl
    else none
  else if f7 = Funct7.SUB_SRA then
    if f3 = Funct3.ADD_SUB then some .sub
    else if f3 = Funct3.SRL_SRA then some .sra
    else none
  else if f7 = Funct7.MUL then
    if f3 = Funct3.MUL then some .mul
    else if f3 = Funct3.DIV then some .div
    else if f3 = Funct3.DIVU then some .divu
    else if f3 = Funct3.REM then some .rem
    else if f3 = Funct3.REMU then some .remu
    else none
  else none

def op32 (inst : BitVec 32) : Except Halt (ExecState δ) :=
  c.computed inst (op32Kind (RvInstr.funct7 inst) (RvInstr.funct3 inst))
    (c.GPR (RvInstr.rs2 inst)) true

/-! ## atomics -/

/-- the end of an atomic: `rd` or a trap at the address in `rs1` -/
def amoEnd (inst : BitVec 32) (r : RvPriv.VaRes δ) (result : BitVec 64) :
    Except Halt (ExecState δ) :=
  let c' := { c with priv := r.priv, bus := r.bus }
  if r.exc == RvExcCode.customOk then (c'.setGPR (RvInstr.rd inst) result).done
  else c'.trap r.exc (c.GPR (RvInstr.rs1 inst))

def amo (inst : BitVec 32) : Except Halt (ExecState δ) :=
  let funct5 := (RvInstr.funct7 inst).extractLsb' 2 5
  let f3 := RvInstr.funct3 inst
  let addr := c.GPR (RvInstr.rs1 inst)
  let size := 1#64 <<< f3
  if f3 != 0b010 && f3 != 0b011 then c.illegal
  else if funct5 = AmoFunct.LR then
    if RvInstr.rs2 inst != 0 then c.illegal
    else do
      let r ← c.priv.vaLr c.bus addr size 0
      c.amoEnd inst r (if f3 = 0b011 then r.buffer else sext32 r.buffer)
  else if funct5 = AmoFunct.SC then do
    let r ← c.priv.vaSc c.bus addr size (c.GPR (RvInstr.rs2 inst))
    c.amoEnd inst r r.buffer
  else if funct5 ∈ [AmoFunct.SWAP, AmoFunct.ADD, AmoFunct.XOR, AmoFunct.AND, AmoFunct.OR,
      AmoFunct.MIN, AmoFunct.MAX, AmoFunct.MINU, AmoFunct.MAXU] then do
    let r ← c.priv.vaAmo c.bus funct5 addr size (c.GPR (RvInstr.rs2 inst))
    c.amoEnd inst r r.buffer
  else c.illegal

/-! ## system instructions -/

/-- the end of an instruction of `rv_priv` that is illegal when it returns `false` -/
def privEnd (p : Option RvPriv) : Except Halt (ExecState δ) :=
  match p with
  | none => c.illegal
  | some p => { c with priv := p }.done

/-- A test ends with `ecall` when `a7` is 93. -/
def execEcall (flags : Flags) : Except Halt (ExecState δ) :=
  if flags.runRiscvTest && c.GPR 17 == 93 then .error (.exit (if c.GPR 10 = 0 then 0 else 1))
  else do
    let p ← c.priv.ecall c.pc
    { c with priv := p }.done

def execEbreak (flags : Flags) : Except Halt (ExecState δ) :=
  if flags.runRiscvTest && c.GPR 10 == 0 then .error (.exit 0)
  else do
    let p ← c.priv.ebreak c.pc
    { c with priv := p }.done

def execPriv (flags : Flags) (inst : BitVec 32) : Except Halt (ExecState δ) :=
  let f7 := RvInstr.funct7 inst
  let rs2 := RvInstr.rs2 inst
  let plain := RvInstr.rs1 inst == 0 && RvInstr.rd inst == 0
  if f7 = Funct7.ECALL_EBREAK then
    if !plain then c.illegal
    else if rs2 = 0 then c.execEcall flags
    else if rs2 = 1 then c.execEbreak flags
    else c.illegal
  else if f7 = Funct7.SRET_WFI then
    if !plain then c.done
    else if rs2 = 0b00010 then c.privEnd c.priv.sret
    else if rs2 = 0b00101 then c.done
    else c.illegal
  else if f7 = Funct7.MRET then
    if rs2 == 0b00010 && plain then c.privEnd c.priv.mret else c.illegal
  else if f7 = Funct7.SFENCE_VMA then
    c.privEnd (c.priv.sfenceVma (c.GPR (RvInstr.rs1 inst)) (c.GPR rs2 &&& 0xffff#64))
  else c.illegal

/-- a CSR instruction: `write` says whether it writes, `value` what it writes for the old value -/
def csrOp (flags : Flags) (inst : BitVec 32) (write : Bool) (value : BitVec 64 → BitVec 64) :
    Except Halt (ExecState δ) :=
  let csrIndex := inst.extractLsb' 20 12
  if !c.priv.csrOpPermissionCheck csrIndex write then c.illegal
  else match c.priv.csrRead csrIndex with
    | none => c.illegal
    | some csrResult => do
      let p ← if write then c.priv.csrWrite flags csrIndex (value csrResult) else .ok (some c.priv)
      match p with
      | none => c.illegal
      | some p =>
        let c := { c with priv := p }
        if RvInstr.rd inst != 0 then (c.setGPR (RvInstr.rd inst) csrResult).done else c.done

def system (flags : Flags) (inst : BitVec 32) : Except Halt (ExecState δ) :=
  let f3 := RvInstr.funct3 inst
  let rs1 := RvInstr.rs1 inst
  let a := c.GPR rs1
  let zimm : BitVec 64 := rs1.setWidth 64
  if f3 = Funct3.PRIV then c.execPriv flags inst
  else if f3 = Funct3.CSRRW then c.csrOp flags inst true fun _ => a
  else if f3 = Funct3.CSRRS then c.csrOp flags inst (rs1 != 0) fun old => old ||| a
  else if f3 = Funct3.CSRRC then c.csrOp flags inst (rs1 != 0) fun old => old &&& ~~~a
  else if f3 = Funct3.CSRRWI then c.csrOp flags inst true fun _ => zimm
  else if f3 = Funct3.CSRRSI then c.csrOp flags inst (rs1 != 0) fun old => old ||| zimm
  else if f3 = Funct3.CSRRCI then c.csrOp flags inst (rs1 != 0) fun old => old &&& ~~~zimm
  else c.illegal

/-! ## one instruction -/

/-- is the word a compressed instruction -/
def isRvc (inst : BitVec 32) : Bool := (RvInstr.opcode inst).extractLsb' 0 2 != 0b11

/-- `decode_exec:` -/
def decodeExec (flags : Flags) (inst : BitVec 32) : Except Halt (ExecState δ) :=
  let c := { c with debugInst := inst }
  let opcode := RvInstr.opcode inst
  if isRvc inst then c.illegal
  else if opcode = Opcode.LUI then c.lui inst
  else if opcode = Opcode.AUIPC then c.auipc inst
  else if opcode = Opcode.JAL then c.jal inst
  else if opcode = Opcode.JALR then c.jalr inst
  else if opcode = Opcode.BRANCH then c.branch inst
  else if opcode = Opcode.LOAD then c.load inst
  else if opcode = Opcode.STORE then c.store flags inst
  else if opcode = Opcode.OPIMM then c.opImm inst
  else if opcode = Opcode.OPIMM32 then c.opImm32 inst
  else if opcode = Opcode.OP then c.op inst
  else if opcode = Opcode.OP32 then c.op32 inst
  else if opcode = Opcode.AMO then c.amo inst
  else if opcode = Opcode.FENCE then c.done
  else if opcode = Opcode.SYSTEM then c.system flags inst
  else c.illegal

end
end RvCore

/-- `exception:` up to the next pc; `curInstr` is the word, `rvc` whether it is compressed -/
def ExecState.settle {δ : Type} (e : ExecState δ) (curInstr : BitVec 32) (rvc : Bool) :
    Except Halt (RvCore δ) := do
  let c ← if e.ri then e.core.raise RvExcCode.illegalInstr (curInstr.setWidth 64) else .ok e.core
  if c.priv.curNeedTrap then .ok { c with pc := c.priv.trapPc }
  else if !e.newPc then .ok { c with pc := c.pc + (if rvc then 2 else 4) }
  else .ok c

/-- the next pc, when the instruction leaves the core `c` -/
def ExecState.nextPc {δ : Type} (e : ExecState δ) (rvc : Bool) (c : RvCore δ) : BitVec 64 :=
  if c.priv.curNeedTrap then c.priv.trapPc
  else if !e.newPc then c.pc + (if rvc then 2 else 4)
  else c.pc

/-- `settle` is the trap of an illegal instruction, followed by the next pc. -/
theorem ExecState.settle_eq {δ : Type} (e : ExecState δ) (curInstr : BitVec 32) (rvc : Bool) :
    e.settle curInstr rvc =
      (if e.ri then e.core.raise RvExcCode.illegalInstr (curInstr.setWidth 64) else .ok e.core) >>=
        fun c => .ok { c with pc := e.nextPc rvc c } := by
  have hpc : ∀ c : RvCore δ, (if c.priv.curNeedTrap then .ok { c with pc := c.priv.trapPc }
      else if !e.newPc then .ok { c with pc := c.pc + (if rvc then 2 else 4) }
      else .ok c : Except Halt (RvCore δ)) = .ok { c with pc := e.nextPc rvc c } := by
    intro c
    unfold nextPc
    split_ifs <;> rfl
  unfold settle
  simp only [hpc]
  cases e.ri <;> rfl

namespace RvCore
variable {δ : Type} (c : RvCore δ)

/-- `priv.pre_exec`, or the interrupt check alone in the difftest mode -/
def interrupts (meip msip mtip seip : Bool) : Except Halt (RvCore δ) :=
  if !c.difftestMode then do
    let p ← c.priv.preExec c.pc meip msip mtip seip
    .ok { c with priv := p }
  else if c.intAllow then do
    let p ← c.priv.checkAndRaiseInt c.pc
    .ok { c with priv := p }
  else .ok c

/-- `post_exec` -/
def retire : Except Halt (RvCore δ) := do
  let p ← c.priv.postExec
  .ok { c with priv := p }

variable [MmioDev δ]

/-- what is left of `exec` once the word is fetched, or fetching has trapped -/
def fetchExec (flags : Flags) : Except Halt (RvCore δ) := do
  if c.priv.curNeedTrap then (⟨c, false, false⟩ : ExecState δ).settle 0 false
  else if c.pc % 4 != 0 then
    let e ← c.trap RvExcCode.instrMisalign c.pc
    e.settle 0 false
  else
    let (r, badVa) ← c.priv.vaIf c.bus c.pc 4 0
    let c := { c with priv := r.priv, bus := r.bus }
    let curInstr := r.buffer.setWidth 32
    if r.exc != RvExcCode.customOk then
      let e ← c.trap r.exc badVa
      e.settle curInstr false
    else
      let e ← c.decodeExec flags curInstr
      e.settle curInstr (isRvc curInstr)

def exec (flags : Flags) (meip msip mtip seip : Bool) : Except Halt (RvCore δ) := do
  let c := { c with
    debugPc := c.pc, debugIsBranch := false, debugRegNum := 0, debugRegWdata := 0 }
  if flags.runRiscvTest && 2000000#64 ≤ c.priv.mcycle then .error (.exit 1)
  else
    let c ← c.interrupts meip msip mtip seip
    let c ← c.fetchExec flags
    c.retire

end RvCore

end HduCpu
