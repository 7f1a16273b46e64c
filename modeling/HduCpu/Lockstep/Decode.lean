import HduCpu.Cpu.Decode
import HduCpu.Ref.Ram

/-!
# The two decoders

The decoder of the processor looks the word up in a table of bit patterns, the reference switches
over its fields.  Here each opcode's part of the table is written with the reference's own choice
of an operation.

* `AluOp.unit`, `AluOp.unitW`   the functional unit that carries out an operation of `alu_exec`;
* `decodeOf_lui` … `decodeOf_op32`   the row that is found for a word, opcode by opcode;
* `RvCore.setsRi`          the reference treats the word as illegal;
* `accepts_iff`            the two agree but for `LooseWord`.
-/

namespace HduCpu
open BitPat

theorem opcode_eq (w : BitVec 32) : RvInstr.opcode w = opcodeOf w := rfl

theorem funct3_eq (w : BitVec 32) : RvInstr.funct3 w = funct3Of w := rfl

theorem funct7_eq (w : BitVec 32) : RvInstr.funct7 w = funct7Of w := rfl

theorem funct6Of_eq (w : BitVec 32) : funct6Of w = (funct7Of w).extractLsb' 1 6 := by
  rw [funct6Of, funct7Of, extract_extract w (by decide)]

/-! ## operations and units -/

/-- the unit and the operation of the 64-bit form -/
def AluOp.unit : AluOp → FuType × BitVec 5
  | .add => (.alu, ALUOpType.add)
  | .sub => (.alu, ALUOpType.sub)
  | .sll => (.alu, ALUOpType.sll)
  | .slt => (.alu, ALUOpType.slt)
  | .sltu => (.alu, ALUOpType.sltu)
  | .xor => (.alu, ALUOpType.xor)
  | .srl => (.alu, ALUOpType.srl)
  | .sra => (.alu, ALUOpType.sra)
  | .or => (.alu, ALUOpType.or)
  | .and => (.alu, ALUOpType.and)
  | .mul => (.mdu, MDUOpType.mul)
  | .mulh => (.mdu, MDUOpType.mulh)
  | .mulhu => (.mdu, MDUOpType.mulhu)
  | .mulhsu => (.mdu, MDUOpType.mulhsu)
  | .div => (.mdu, MDUOpType.div)
  | .divu => (.mdu, MDUOpType.divu)
  | .rem => (.mdu, MDUOpType.rem)
  | .remu => (.mdu, MDUOpType.remu)
  | .nop => (.alu, ALUOpType.nop)

/-- the unit and the operation of the 32-bit form, for the operations that have one -/
def AluOp.unitW : AluOp → FuType × BitVec 5
  | .add => (.alu, ALUOpType.addw)
  | .sub => (.alu, ALUOpType.subw)
  | .sll => (.alu, ALUOpType.sllw)
  | .srl => (.alu, ALUOpType.srlw)
  | .sra => (.alu, ALUOpType.sraw)
  | .mul => (.mdu, MDUOpType.mulw)
  | .div => (.mdu, MDUOpType.divw)
  | .divu => (.mdu, MDUOpType.divuw)
  | .rem => (.mdu, MDUOpType.remw)
  | .remu => (.mdu, MDUOpType.remuw)
  | _ => (.alu, ALUOpType.nop)

/-- the row of an instruction type, or the default row -/
def rowOf (t : InstrType) : Option (FuType × BitVec 5) → InstrType × FuType × BitVec 5
  | some u => (t, u)
  | none => decodeDefault

/-- the branch that a `funct3` asks for -/
def branchOp (f3 : BitVec 3) : Option (BitVec 5) :=
  if f3 = Funct3.BEQ then some BRUOpType.beq
  else if f3 = Funct3.BNE then some BRUOpType.bne
  else if f3 = Funct3.BLT then some BRUOpType.blt
  else if f3 = Funct3.BGE then some BRUOpType.bge
  else if f3 = Funct3.BLTU then some BRUOpType.bltu
  else if f3 = Funct3.BGEU then some BRUOpType.bgeu
  else none

/-- the load that a `funct3` asks for -/
def loadOp (f3 : BitVec 3) : Option (BitVec 5) :=
  if f3 = 0b111 then none else some (f3.setWidth 5)

/-- the store that a `funct3` asks for -/
def storeOp (f3 : BitVec 3) : Option (BitVec 5) :=
  if f3 < 0b100 then some (0b01000 ||| f3.setWidth 5) else none

/-! ## the table, opcode by opcode -/

/-- the entries of the table that a word with this opcode can match -/
def rowsOf (op : BitVec 7) : List (BitPat 32 × InstrType × FuType × BitVec 5) :=
  decodeTable.filter fun e => !(opPat op).apart e.1

theorem decodeOf_rows {w : BitVec 32} {op : BitVec 7} (h : opcodeOf w = op) :
    decodeOf w = listLookup w decodeDefault (rowsOf op) := by
  have hp : (opPat op).hit w = true := by rw [hit_opPat, h, beq_self_eq_true]
  exact listLookup_filter hp _ _

section
variable {w : BitVec 32}

theorem decodeOf_lui (h : opcodeOf w = Opcode.LUI) : decodeOf w = (.U, .alu, ALUOpType.add) := by
  have hr : rowsOf Opcode.LUI = [(RV32I_ALUInstr.LUI, .U, .alu, ALUOpType.add)] := by rfl
  rw [decodeOf_rows h, hr, listLookup_cons, RV32I_ALUInstr.LUI, hit_opPat, h]
  rfl

theorem decodeOf_auipc (h : opcodeOf w = Opcode.AUIPC) :
    decodeOf w = (.U, .alu, ALUOpType.add) := by
  have hr : rowsOf Opcode.AUIPC = [(RV32I_ALUInstr.AUIPC, .U, .alu, ALUOpType.add)] := by rfl
  rw [decodeOf_rows h, hr, listLookup_cons, RV32I_ALUInstr.AUIPC, hit_opPat, h]
  rfl

theorem decodeOf_jal (h : opcodeOf w = Opcode.JAL) : decodeOf w = (.J, .bru, BRUOpType.jal) := by
  have hr : rowsOf Opcode.JAL = [(RV32I_BRUInstr.JAL, .J, .bru, BRUOpType.jal)] := by rfl
  rw [decodeOf_rows h, hr, listLookup_cons, RV32I_BRUInstr.JAL, hit_opPat, h]
  rfl

theorem decodeOf_jalr (h : opcodeOf w = Opcode.JALR) :
    decodeOf w = rowOf .I (if funct3Of w = 0 then some (.bru, BRUOpType.jalr) else none) := by
  have hr : rowsOf Opcode.JALR = [(RV32I_BRUInstr.JALR, .I, .bru, BRUOpType.jalr)] := by rfl
  rw [decodeOf_rows h, hr, listLookup_cons, listLookup_nil, RV32I_BRUInstr.JALR, hit_funct3Pat, h]
  generalize funct3Of w = f3
  revert f3
  decide

theorem decodeOf_branch (h : opcodeOf w = Opcode.BRANCH) :
    decodeOf w = rowOf .B ((branchOp (funct3Of w)).map (.bru, ·)) := by
  have hr : rowsOf Opcode.BRANCH = RV32I_BRUInstr.table.take 6 := by rfl
  rw [decodeOf_rows h, hr]
  simp only [RV32I_BRUInstr.table, List.take_succ_cons, List.take_zero, listLookup_cons,
    listLookup_nil, RV32I_BRUInstr.BEQ, RV32I_BRUInstr.BNE, RV32I_BRUInstr.BLT, RV32I_BRUInstr.BGE,
    RV32I_BRUInstr.BLTU, RV32I_BRUInstr.BGEU, hit_funct3Pat, h]
  generalize funct3Of w = f3
  revert f3
  decide

theorem decodeOf_load (h : opcodeOf w = Opcode.LOAD) :
    decodeOf w = rowOf .I ((loadOp (funct3Of w)).map (.lsu, ·)) := by
  have hr : rowsOf Opcode.LOAD = RV32I_LSUInstr.table.take 7 := by rfl
  rw [decodeOf_rows h, hr]
  simp only [RV32I_LSUInstr.table, List.take_succ_cons, List.take_zero, listLookup_cons,
    listLookup_nil, RV32I_LSUInstr.LB, RV32I_LSUInstr.LH, RV32I_LSUInstr.LW, RV32I_LSUInstr.LD,
    RV32I_LSUInstr.LBU, RV32I_LSUInstr.LHU, RV32I_LSUInstr.LWU, hit_funct3Pat, h]
  generalize funct3Of w = f3
  revert f3
  decide

theorem decodeOf_store (h : opcodeOf w = Opcode.STORE) :
    decodeOf w = rowOf .S ((storeOp (funct3Of w)).map (.lsu, ·)) := by
  have hr : rowsOf Opcode.STORE = RV32I_LSUInstr.table.drop 7 := by rfl
  rw [decodeOf_rows h, hr]
  simp only [RV32I_LSUInstr.table, List.drop_succ_cons, List.drop_zero, listLookup_cons,
    listLookup_nil, RV32I_LSUInstr.SB, RV32I_LSUInstr.SH, RV32I_LSUInstr.SW, RV32I_LSUInstr.SD,
    hit_funct3Pat, h]
  generalize funct3Of w = f3
  revert f3
  decide

open RV32I_ALUInstr RV32MInstr in
theorem decodeOf_op (h : opcodeOf w = Opcode.OP) :
    decodeOf w = rowOf .R ((RvCore.opKind (funct7Of w) (funct3Of w)).map AluOp.unit) := by
  have hr : rowsOf Opcode.OP = RV32I_ALUInstr.table.take 10 ++ RV32MInstr.table := by rfl
  rw [decodeOf_rows h, hr]
  simp only [RV32I_ALUInstr.table, RV32MInstr.table, List.take_succ_cons, List.take_zero,
    List.cons_append, List.nil_append, listLookup_cons, listLookup_nil, ADD, SLL, SLT, SLTU, XOR,
    SRL, RV32I_ALUInstr.OR, AND, SUB, SRA, MUL, MULH, MULHSU, MULHU, DIV, DIVU, REM, REMU,
    hit_funct7Pat, h]
  generalize funct3Of w = f3
  generalize funct7Of w = f7
  revert f3 f7
  decide +kernel

open RV64IInstr RV64MInstr in
theorem decodeOf_op32 (h : opcodeOf w = Opcode.OP32) :
    decodeOf w = rowOf .R ((RvCore.op32Kind (funct7Of w) (funct3Of w)).map AluOp.unitW) := by
  have hr : rowsOf Opcode.OP32 = RV64IInstr.table.take 5 ++ RV64MInstr.table := by rfl
  rw [decodeOf_rows h, hr]
  simp only [RV64IInstr.table, RV64MInstr.table, List.take_succ_cons, List.take_zero,
    List.cons_append, List.nil_append, listLookup_cons, listLookup_nil, ADDW, SUBW, SLLW, SRLW,
    SRAW, MULW, DIVW, DIVUW, REMW, REMUW, hit_funct7Pat, h]
  generalize funct3Of w = f3
  generalize funct7Of w = f7
  revert f3 f7
  decide +kernel

/-- The reference rejects an immediate of at least 64, the sign included. -/
theorem sle_imm12 (w : BitVec 32) : (64#64).sle ((RvInstr.imm12 w).signExtend 64) =
    (!(funct7Of w).getLsbD 6 && (funct7Of w).extractLsb' 1 6 != 0) := by
  have key : ∀ v : BitVec 12, (64#64).sle ((v.signExtend 32).signExtend 64) =
      (!(v.extractLsb' 5 7).getLsbD 6 && (v.extractLsb' 5 7).extractLsb' 1 6 != 0) := by
    intro v
    have hv : ((v.signExtend 32).signExtend 64).toInt = v.toInt := by
      rw [BitVec.toInt_signExtend_of_le (by decide), BitVec.toInt_signExtend_of_le (by decide)]
    have hbit : (v.extractLsb' 5 7).getLsbD 6 = decide (v.toNat / 2 ^ 11 % 2 = 1) := by
      rw [BitVec.getLsbD_extractLsb', BitVec.getLsbD, Nat.testBit_eq_decide_div_mod_eq]
      rfl
    have hhigh : (v.extractLsb' 5 7).extractLsb' 1 6 ≠ 0 ↔ v.toNat / 2 ^ 6 % 2 ^ 6 ≠ 0 := by
      rw [extract_extract v (by decide), Ne, ← BitVec.toNat_inj, BitVec.extractLsb'_toNat,
        Nat.shiftRight_eq_div_pow]
      rfl
    have hlt := v.isLt
    rw [hbit, Bool.eq_iff_iff, BitVec.sle_iff_toInt_le, hv, BitVec.toInt_eq_toNat_cond v,
      Bool.and_eq_true, bne_iff_ne, hhigh, Bool.not_eq_true', decide_eq_false_iff_not]
    show (64 : ℤ) ≤ _ ↔ _
    split_ifs <;> omega
  have h7 : funct7Of w = (w.extractLsb' 20 12).extractLsb' 5 7 := by
    rw [funct7Of, extract_extract w (by decide)]
  rw [h7]
  exact key _

/-- a left shift by an immediate whose topmost bit is set -/
def looseShift (w : BitVec 32) : Bool := funct3Of w == Funct3.SLL && (funct7Of w).getLsbD 6

open RV32I_ALUInstr in
theorem decodeOf_opImm (h : opcodeOf w = Opcode.OPIMM) : decodeOf w =
    if looseShift w then decodeDefault else rowOf .I ((RvCore.opImmKind w).1.map AluOp.unit) := by
  have hr : rowsOf Opcode.OPIMM = (RV32I_ALUInstr.table.drop 10).take 9 := by rfl
  obtain ⟨f3, h3⟩ : ∃ f3, funct3Of w = f3 := ⟨_, rfl⟩
  obtain ⟨f7, h7⟩ : ∃ f7, funct7Of w = f7 := ⟨_, rfl⟩
  rw [decodeOf_rows h, hr]
  simp only [RV32I_ALUInstr.table, List.drop_succ_cons, List.drop_zero, List.take_succ_cons,
    List.take_zero, listLookup_cons, listLookup_nil, ADDI, SLLI, SLTI, SLTIU, XORI, SRLI, ORI, ANDI,
    SRAI, hit_funct6Pat, hit_funct3Pat, h, funct6Of_eq, looseShift, RvCore.opImmKind, sle_imm12,
    funct3_eq, funct7_eq, apply_ite Prod.fst, h3, h7]
  clear h h3 h7 hr
  revert f3 f7
  decide +kernel

open RV64IInstr in
theorem decodeOf_opImm32 (h : opcodeOf w = Opcode.OPIMM32) :
    decodeOf w = rowOf .I ((RvCore.opImm32Kind w).1.map AluOp.unitW) := by
  have hr : rowsOf Opcode.OPIMM32 = RV64IInstr.table.drop 5 := by rfl
  obtain ⟨f3, h3⟩ : ∃ f3, funct3Of w = f3 := ⟨_, rfl⟩
  obtain ⟨f7, h7⟩ : ∃ f7, funct7Of w = f7 := ⟨_, rfl⟩
  rw [decodeOf_rows h, hr]
  simp only [RV64IInstr.table, List.drop_succ_cons, List.drop_zero, listLookup_cons,
    listLookup_nil, ADDIW, SLLIW, SRLIW, SRAIW, hit_funct7Pat, hit_funct3Pat, h,
    RvCore.opImm32Kind, sle_imm12, funct3_eq, funct7_eq, apply_ite Prod.fst, h3, h7]
  clear h h3 h7 hr
  revert f3 f7
  decide +kernel

end

/-! ## what the two accept -/

theorem decoder_valid_row (w : BitVec 32) : (decoder w).valid = ((decodeOf w).1 != .N) := rfl

theorem rowOf_valid {t : InstrType} (ht : t ≠ .N) (o : Option (FuType × BitVec 5)) :
    ((rowOf t o).1 != .N) = o.isSome := by
  cases o with
  | none => rfl
  | some u => exact bne_iff_ne.mpr ht

/-- does the instruction end as an illegal one -/
def resultRi {δ : Type} : Except Halt (ExecState δ) → Bool
  | .ok e => e.ri
  | .error _ => false

section
variable {δ : Type}

theorem resultRi_bind {α : Type} (x : Except Halt α) {f : α → Except Halt (ExecState δ)}
    (hf : ∀ a, resultRi (f a) = false) : resultRi (x >>= f) = false := by
  cases x with
  | error e => rfl
  | ok a => exact hf a

theorem resultRi_ite {q : Prop} [Decidable q] {x y : Except Halt (ExecState δ)}
    (hx : resultRi x = false) (hy : resultRi y = false) :
    resultRi (if q then x else y) = false := by
  split
  · exact hx
  · exact hy

namespace RvCore
variable (c : RvCore δ)

@[simp] theorem resultRi_trap (code : RvExcCode) (tval : BitVec 64) :
    resultRi (c.trap code tval) = false :=
  resultRi_bind _ fun _ => rfl

theorem resultRi_jumpLink (rd : BitVec 5) (npc : BitVec 64) :
    resultRi (c.jumpLink rd npc) = false :=
  resultRi_ite (c.resultRi_trap _ _) rfl

theorem resultRi_branch (w : BitVec 32) :
    resultRi (c.branch w) = (branchOp (funct3Of w)).isNone := by
  have hb : ∀ a b, (branchTaken (funct3Of w) a b).isNone = (branchOp (funct3Of w)).isNone := by
    intro a b
    unfold branchTaken branchOp
    split_ifs <;> rfl
  rw [← hb (c.GPR (RvInstr.rs1 w)) (c.GPR (RvInstr.rs2 w)), branch, funct3_eq]
  rcases branchTaken (funct3Of w) (c.GPR (RvInstr.rs1 w)) (c.GPR (RvInstr.rs2 w)) with _ | _ | _
  · rfl
  · rfl
  · exact resultRi_ite (resultRi_bind _ fun _ => rfl) rfl

theorem resultRi_computed (w : BitVec 32) (op : Option AluOp) (b : BitVec 64) (op32 : Bool) :
    resultRi (c.computed w op b op32) = op.isNone := by
  cases op with
  | none => rfl
  | some op => exact resultRi_bind _ fun _ => rfl

variable [MmioDev δ]

theorem resultRi_load (w : BitVec 32) : resultRi (c.load w) = (loadOp (funct3Of w)).isNone := by
  have hl : (loadKind (funct3Of w)).isNone = (loadOp (funct3Of w)).isNone := by
    generalize funct3Of w = f3
    revert f3
    decide
  rw [← hl, load, funct3_eq]
  cases loadKind (funct3Of w) with
  | none => rfl
  | some k =>
    obtain ⟨size, conv⟩ := k
    refine resultRi_bind _ fun r => ?_
    obtain ⟨c', ok, buf⟩ := r
    exact resultRi_ite rfl rfl

theorem resultRi_store (flags : Flags) (w : BitVec 32) :
    resultRi (c.store flags w) = (storeOp (funct3Of w)).isNone := by
  have hs : (storeSize (funct3Of w)).isNone = (storeOp (funct3Of w)).isNone := by
    generalize funct3Of w = f3
    revert f3
    decide
  rw [← hs, store, funct3_eq]
  cases storeSize (funct3Of w) with
  | none => rfl
  | some size => exact resultRi_bind _ fun _ => rfl

/-- the reference treats the word as an illegal instruction -/
def setsRi (flags : Flags) (w : BitVec 32) : Bool := resultRi (c.decodeExec flags w)

end RvCore
end

/-! ## the opcodes of the integer instructions -/

def integerOpcodes : List (BitVec 7) :=
  [Opcode.LUI, Opcode.AUIPC, Opcode.JAL, Opcode.JALR, Opcode.BRANCH, Opcode.LOAD, Opcode.STORE,
    Opcode.OPIMM, Opcode.OPIMM32, Opcode.OP, Opcode.OP32]

/-- Words that only the reference accepts: `jalr` with a `funct3` and `looseShift`. -/
def LooseWord (w : BitVec 32) : Prop :=
  (opcodeOf w = Opcode.JALR ∧ funct3Of w ≠ 0) ∨ (opcodeOf w = Opcode.OPIMM ∧ looseShift w = true)

section
variable {δ : Type} [MmioDev δ] (c : RvCore δ) (flags : Flags) {w : BitVec 32}

-- The case of `decode_exec` for each opcode.

theorem decodeExec_lui (h : opcodeOf w = Opcode.LUI) :
    c.decodeExec flags w = { c with debugInst := w }.lui w := by
  simp only [RvCore.decodeExec, RvCore.isRvc, opcode_eq, h]
  rfl

theorem decodeExec_auipc (h : opcodeOf w = Opcode.AUIPC) :
    c.decodeExec flags w = { c with debugInst := w }.auipc w := by
  simp only [RvCore.decodeExec, RvCore.isRvc, opcode_eq, h]
  rfl

theorem decodeExec_jal (h : opcodeOf w = Opcode.JAL) :
    c.decodeExec flags w = { c with debugInst := w }.jal w := by
  simp only [RvCore.decodeExec, RvCore.isRvc, opcode_eq, h]
  rfl

theorem decodeExec_jalr (h : opcodeOf w = Opcode.JALR) :
    c.decodeExec flags w = { c with debugInst := w }.jalr w := by
  simp only [RvCore.decodeExec, RvCore.isRvc, opcode_eq, h]
  rfl

theorem decodeExec_branch (h : opcodeOf w = Opcode.BRANCH) :
    c.decodeExec flags w = { c with debugInst := w }.branch w := by
  simp only [RvCore.decodeExec, RvCore.isRvc, opcode_eq, h]
  rfl

theorem decodeExec_load (h : opcodeOf w = Opcode.LOAD) :
    c.decodeExec flags w = { c with debugInst := w }.load w := by
  simp only [RvCore.decodeExec, RvCore.isRvc, opcode_eq, h]
  rfl

theorem decodeExec_store (h : opcodeOf w = Opcode.STORE) :
    c.decodeExec flags w = { c with debugInst := w }.store flags w := by
  simp only [RvCore.decodeExec, RvCore.isRvc, opcode_eq, h]
  rfl

theorem decodeExec_opImm (h : opcodeOf w = Opcode.OPIMM) :
    c.decodeExec flags w = { c with debugInst := w }.opImm w := by
  simp only [RvCore.decodeExec, RvCore.isRvc, opcode_eq, h]
  rfl

theorem decodeExec_opImm32 (h : opcodeOf w = Opcode.OPIMM32) :
    c.decodeExec flags w = { c with debugInst := w }.opImm32 w := by
  simp only [RvCore.decodeExec, RvCore.isRvc, opcode_eq, h]
  rfl

theorem decodeExec_op (h : opcodeOf w = Opcode.OP) :
    c.decodeExec flags w = { c with debugInst := w }.op w := by
  simp only [RvCore.decodeExec, RvCore.isRvc, opcode_eq, h]
  rfl

theorem decodeExec_op32 (h : opcodeOf w = Opcode.OP32) :
    c.decodeExec flags w = { c with debugInst := w }.op32 w := by
  simp only [RvCore.decodeExec, RvCore.isRvc, opcode_eq, h]
  rfl

theorem opImmKind_loose (h : looseShift w = true) : (RvCore.opImmKind w).1 = some .sll := by
  obtain ⟨h₃, h₇⟩ := Bool.and_eq_true_iff.mp h
  have h₃' : RvInstr.funct3 w = Funct3.SLL := eq_of_beq h₃
  have hs : (64#64).sle ((RvInstr.imm12 w).signExtend 64) = false := by rw [sle_imm12, h₇]; rfl
  simp only [RvCore.opImmKind, h₃', hs]
  rfl

/-- A row with the reference's own choice of an operation agrees with the reference. -/
theorem accepts_of_row {t : InstrType} {o : Option (FuType × BitVec 5)} (ht : t ≠ .N)
    (hd : decodeOf w = rowOf t o) (hr : c.setsRi flags w = o.isNone) :
    (decoder w).valid = !c.setsRi flags w := by
  rw [decoder_valid_row, hd, rowOf_valid ht, hr, Option.not_isNone]

theorem accepts_jalr (h : opcodeOf w = Opcode.JALR) :
    (decoder w).valid = !c.setsRi flags w ↔ funct3Of w = 0 := by
  have hr : c.setsRi flags w = false := by
    rw [RvCore.setsRi, decodeExec_jalr c flags h]
    exact RvCore.resultRi_jumpLink _ _ _
  rw [decoder_valid_row, decodeOf_jalr h, rowOf_valid (by decide), hr]
  simp

theorem accepts_opImm (h : opcodeOf w = Opcode.OPIMM) :
    (decoder w).valid = !c.setsRi flags w ↔ ¬ looseShift w = true := by
  have hr : c.setsRi flags w = (RvCore.opImmKind w).1.isNone := by
    rw [RvCore.setsRi, decodeExec_opImm c flags h]
    exact RvCore.resultRi_computed _ _ _ _ _
  by_cases hl : looseShift w = true
  · rw [decoder_valid_row, decodeOf_opImm h, if_pos hl, hr, opImmKind_loose hl]
    simp [decodeDefault, hl]
  · have hd := decodeOf_opImm h
    rw [if_neg hl] at hd
    refine ⟨fun _ => hl, fun _ => accepts_of_row c flags (by decide) hd ?_⟩
    rw [hr, Option.isNone_map]

/-- **The decoders accept the same integer instructions but for `LooseWord`.** -/
theorem accepts_iff (h : opcodeOf w ∈ integerOpcodes) :
    (decoder w).valid = !c.setsRi flags w ↔ ¬ LooseWord w := by
  have hagree : opcodeOf w ≠ Opcode.JALR → opcodeOf w ≠ Opcode.OPIMM →
      (decoder w).valid = !c.setsRi flags w →
      ((decoder w).valid = !c.setsRi flags w ↔ ¬ LooseWord w) := by
    intro h₁ h₂ hv
    have hl : ¬ LooseWord w := by
      rintro (⟨e, -⟩ | ⟨e, -⟩)
      · exact h₁ e
      · exact h₂ e
    exact ⟨fun _ => hl, fun _ => hv⟩
  simp only [integerOpcodes, List.mem_cons, List.not_mem_nil, or_false] at h
  rcases h with h | h | h | h | h | h | h | h | h | h | h
  case inr.inr.inr.inl =>
    have hj : LooseWord w ↔ funct3Of w ≠ 0 := by
      simp [LooseWord, h, show Opcode.JALR ≠ Opcode.OPIMM by decide]
    rw [accepts_jalr c flags h, hj, not_not]
  case inr.inr.inr.inr.inr.inr.inr.inl =>
    have hj : LooseWord w ↔ looseShift w = true := by
      simp [LooseWord, h, show Opcode.OPIMM ≠ Opcode.JALR by decide]
    rw [accepts_opImm c flags h, hj]
  all_goals refine hagree (by rw [h]; decide) (by rw [h]; decide) ?_
  · refine accepts_of_row c flags (t := .U) (o := some _) (by decide) (decodeOf_lui h) ?_
    rw [RvCore.setsRi, decodeExec_lui c flags h]
    rfl
  · refine accepts_of_row c flags (t := .U) (o := some _) (by decide) (decodeOf_auipc h) ?_
    rw [RvCore.setsRi, decodeExec_auipc c flags h]
    rfl
  · refine accepts_of_row c flags (t := .J) (o := some _) (by decide) (decodeOf_jal h) ?_
    rw [RvCore.setsRi, decodeExec_jal c flags h]
    exact RvCore.resultRi_jumpLink _ _ _
  · refine accepts_of_row c flags (by decide) (decodeOf_branch h) ?_
    rw [RvCore.setsRi, decodeExec_branch c flags h, RvCore.resultRi_branch, Option.isNone_map]
  · refine accepts_of_row c flags (by decide) (decodeOf_load h) ?_
    rw [RvCore.setsRi, decodeExec_load c flags h, RvCore.resultRi_load, Option.isNone_map]
  · refine accepts_of_row c flags (by decide) (decodeOf_store h) ?_
    rw [RvCore.setsRi, decodeExec_store c flags h, RvCore.resultRi_store, Option.isNone_map]
  · refine accepts_of_row c flags (by decide) (decodeOf_opImm32 h) ?_
    rw [RvCore.setsRi, decodeExec_opImm32 c flags h, RvCore.opImm32, RvCore.resultRi_computed,
      Option.isNone_map]
  · refine accepts_of_row c flags (by decide) (decodeOf_op h) ?_
    rw [RvCore.setsRi, decodeExec_op c flags h, RvCore.op, RvCore.resultRi_computed,
      Option.isNone_map]
    rfl
  · refine accepts_of_row c flags (by decide) (decodeOf_op32 h) ?_
    rw [RvCore.setsRi, decodeExec_op32 c flags h, RvCore.op32, RvCore.resultRi_computed,
      Option.isNone_map]
    rfl

end
/-! ## the words where they differ -/

/-- the simulator without options -/
def plainFlags : Flags := ⟨false, false⟩

/-- a reference that is about to execute at the start of an empty memory -/
def freshCore (regs : BitVec 5 → BitVec 64) : RvCore MmioMem :=
  .boot plainFlags (fun _ => 0) RAM_START regs

/-- `addi x1, x1, 1` -/
theorem accepts_addi : (decoder 0x00108093).valid =
    !(freshCore fun _ => 0).setsRi plainFlags 0x00108093 :=
  (accepts_iff (freshCore fun _ => 0) plainFlags (by decide)).mpr (by
    unfold LooseWord
    decide)

/-- `jalr` with `funct3` 1, and `slli` whose shift amount has its topmost bit set -/
theorem decoders_differ :
    ¬ ((decoder 0x00001067).valid = !(freshCore fun _ => 0).setsRi plainFlags 0x00001067) ∧
      ¬ ((decoder 0x80001013).valid = !(freshCore fun _ => 0).setsRi plainFlags 0x80001013) := by
  decide +kernel

end HduCpu
