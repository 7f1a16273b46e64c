import HduCpu.Lockstep.Encode

/-!
# The decoder and the instruction set

Every instruction of RV64IM with the CSR and machine instructions, its format and fixed fields from
the enumerations of `rv_common.hpp`, against the decode table of the processor.

* `Mnemonic`, `Mnemonic.row`   the instructions, their formats and the unit that executes them;
* `Instr`                  a mnemonic with its operands, `Instr.encode`;
* `Conforms`               what the signals of the decoder have to be for an instruction;
* `decoder_conforms`       they are that, for every word.
-/

namespace HduCpu
open BitPat

/-! ## instructions -/

inductive Mnemonic where
  | add | sll | slt | sltu | xor | srl | or | and | sub | sra
  | addi | slli | slti | sltiu | xori | srli | ori | andi | srai
  | auipc | lui
  | sllw | srlw | sraw | addw | subw | slliw | srliw | sraiw | addiw
  | mul | mulh | mulhsu | mulhu | div | divu | rem | remu
  | mulw | divw | divuw | remw | remuw
  | lb | lh | lw | ld | lbu | lhu | lwu | sb | sh | sw | sd
  | beq | bne | blt | bge | bltu | bgeu | jal | jalr
  | csrrw | csrrs | csrrc | csrrwi | csrrsi | csrrci
  | ecall | ebreak | mret | fence | wfi
deriving DecidableEq

namespace Mnemonic

def all : List Mnemonic :=
  [add, sll, slt, sltu, xor, srl, or, and, sub, sra,
    addi, slli, slti, sltiu, xori, srli, ori, andi, srai,
    auipc, lui,
    sllw, srlw, sraw, addw, subw, slliw, srliw, sraiw, addiw,
    mul, mulh, mulhsu, mulhu, div, divu, rem, remu,
    mulw, divw, divuw, remw, remuw,
    lb, lh, lw, ld, lbu, lhu, lwu, sb, sh, sw, sd,
    beq, bne, blt, bge, bltu, bgeu, jal, jalr,
    csrrw, csrrs, csrrc, csrrwi, csrrsi, csrrci,
    ecall, ebreak, mret, fence, wfi]

theorem mem_all (m : Mnemonic) : m ∈ all := by
  cases m <;> decide

open Opcode in
/-- the format of an instruction, its functional unit and the operation it asks of the unit -/
def row : Mnemonic → Format × FuType × BitVec 5
  | add => (.r Funct7.NORMAL Funct3.ADD_SUB OP, .alu, ALUOpType.add)
  | sll => (.r Funct7.NORMAL Funct3.SLL OP, .alu, ALUOpType.sll)
  | slt => (.r Funct7.NORMAL Funct3.SLT OP, .alu, ALUOpType.slt)
  | sltu => (.r Funct7.NORMAL Funct3.SLTU OP, .alu, ALUOpType.sltu)
  | xor => (.r Funct7.NORMAL Funct3.XOR OP, .alu, ALUOpType.xor)
  | srl => (.r Funct7.NORMAL Funct3.SRL_SRA OP, .alu, ALUOpType.srl)
  | or => (.r Funct7.NORMAL Funct3.OR OP, .alu, ALUOpType.or)
  | and => (.r Funct7.NORMAL Funct3.AND OP, .alu, ALUOpType.and)
  | sub => (.r Funct7.SUB_SRA Funct3.ADD_SUB OP, .alu, ALUOpType.sub)
  | sra => (.r Funct7.SUB_SRA Funct3.SRL_SRA OP, .alu, ALUOpType.sra)
  | addi => (.i Funct3.ADD_SUB OPIMM, .alu, ALUOpType.add)
  | slli => (.shift Funct6.NORMAL Funct3.SLL OPIMM, .alu, ALUOpType.sll)
  | slti => (.i Funct3.SLT OPIMM, .alu, ALUOpType.slt)
  | sltiu => (.i Funct3.SLTU OPIMM, .alu, ALUOpType.sltu)
  | xori => (.i Funct3.XOR OPIMM, .alu, ALUOpType.xor)
  | srli => (.shift Funct6.NORMAL Funct3.SRL_SRA OPIMM, .alu, ALUOpType.srl)
  | ori => (.i Funct3.OR OPIMM, .alu, ALUOpType.or)
  | andi => (.i Funct3.AND OPIMM, .alu, ALUOpType.and)
  | srai => (.shift Funct6.SRA Funct3.SRL_SRA OPIMM, .alu, ALUOpType.sra)
  -- the other operand is `pc` for `auipc` and 0 for `lui`
  | auipc => (.u AUIPC, .alu, ALUOpType.add)
  | lui => (.u LUI, .alu, ALUOpType.add)
  | sllw => (.r Funct7.NORMAL Funct3.SLL OP32, .alu, ALUOpType.sllw)
  | srlw => (.r Funct7.NORMAL Funct3.SRL_SRA OP32, .alu, ALUOpType.srlw)
  | sraw => (.r Funct7.SUB_SRA Funct3.SRL_SRA OP32, .alu, ALUOpType.sraw)
  | addw => (.r Funct7.NORMAL Funct3.ADD_SUB OP32, .alu, ALUOpType.addw)
  | subw => (.r Funct7.SUB_SRA Funct3.ADD_SUB OP32, .alu, ALUOpType.subw)
  | slliw => (.shiftW Funct7.NORMAL Funct3.SLL OPIMM32, .alu, ALUOpType.sllw)
  | srliw => (.shiftW Funct7.NORMAL Funct3.SRL_SRA OPIMM32, .alu, ALUOpType.srlw)
  | sraiw => (.shiftW Funct7.SUB_SRA Funct3.SRL_SRA OPIMM32, .alu, ALUOpType.sraw)
  | addiw => (.i Funct3.ADD_SUB OPIMM32, .alu, ALUOpType.addw)
  | mul => (.r Funct7.MUL Funct3.MUL OP, .mdu, MDUOpType.mul)
  | mulh => (.r Funct7.MUL Funct3.MULH OP, .mdu, MDUOpType.mulh)
  | mulhsu => (.r Funct7.MUL Funct3.MULHSU OP, .mdu, MDUOpType.mulhsu)
  | mulhu => (.r Funct7.MUL Funct3.MULHU OP, .mdu, MDUOpType.mulhu)
  | div => (.r Funct7.MUL Funct3.DIV OP, .mdu, MDUOpType.div)
  | divu => (.r Funct7.MUL Funct3.DIVU OP, .mdu, MDUOpType.divu)
  | rem => (.r Funct7.MUL Funct3.REM OP, .mdu, MDUOpType.rem)
  | remu => (.r Funct7.MUL Funct3.REMU OP, .mdu, MDUOpType.remu)
  | mulw => (.r Funct7.MUL Funct3.MUL OP32, .mdu, MDUOpType.mulw)
  | divw => (.r Funct7.MUL Funct3.DIV OP32, .mdu, MDUOpType.divw)
  | divuw => (.r Funct7.MUL Funct3.DIVU OP32, .mdu, MDUOpType.divuw)
  | remw => (.r Funct7.MUL Funct3.REM OP32, .mdu, MDUOpType.remw)
  | remuw => (.r Funct7.MUL Funct3.REMU OP32, .mdu, MDUOpType.remuw)
  | lb => (.i Funct3.LB LOAD, .lsu, LSUOpType.lb)
  | lh => (.i Funct3.LH LOAD, .lsu, LSUOpType.lh)
  | lw => (.i Funct3.LW LOAD, .lsu, LSUOpType.lw)
  | ld => (.i Funct3.LD LOAD, .lsu, LSUOpType.ld)
  | lbu => (.i Funct3.LBU LOAD, .lsu, LSUOpType.lbu)
  | lhu => (.i Funct3.LHU LOAD, .lsu, LSUOpType.lhu)
  | lwu => (.i Funct3.LWU LOAD, .lsu, LSUOpType.lwu)
  | sb => (.s Funct3.SB STORE, .lsu, LSUOpType.sb)
  | sh => (.s Funct3.SH STORE, .lsu, LSUOpType.sh)
  | sw => (.s Funct3.SW STORE, .lsu, LSUOpType.sw)
  | sd => (.s Funct3.SD STORE, .lsu, LSUOpType.sd)
  | beq => (.b Funct3.BEQ BRANCH, .bru, BRUOpType.beq)
  | bne => (.b Funct3.BNE BRANCH, .bru, BRUOpType.bne)
  | blt => (.b Funct3.BLT BRANCH, .bru, BRUOpType.blt)
  | bge => (.b Funct3.BGE BRANCH, .bru, BRUOpType.bge)
  | bltu => (.b Funct3.BLTU BRANCH, .bru, BRUOpType.bltu)
  | bgeu => (.b Funct3.BGEU BRANCH, .bru, BRUOpType.bgeu)
  | jal => (.j JAL, .bru, BRUOpType.jal)
  | jalr => (.i 0b000 JALR, .bru, BRUOpType.jalr)
  | csrrw => (.csr Funct3.CSRRW SYSTEM, .csr, CSROpType.csrrw)
  | csrrs => (.csr Funct3.CSRRS SYSTEM, .csr, CSROpType.csrrs)
  | csrrc => (.csr Funct3.CSRRC SYSTEM, .csr, CSROpType.csrrc)
  | csrrwi => (.csrI Funct3.CSRRWI SYSTEM, .csr, CSROpType.csrrw)
  | csrrsi => (.csrI Funct3.CSRRSI SYSTEM, .csr, CSROpType.csrrs)
  | csrrci => (.csrI Funct3.CSRRCI SYSTEM, .csr, CSROpType.csrrc)
  | ecall => (.env 0 SYSTEM, .csr, CSROpType.ecall)
  | ebreak => (.env 1 SYSTEM, .csr, CSROpType.ebreak)
  | mret => (.priv Funct7.MRET 0b00010 SYSTEM, .csr, CSROpType.mret)
  | fence => (.fence FENCE, .alu, ALUOpType.nop)
  | wfi => (.priv Funct7.SRET_WFI 0b00101 SYSTEM, .alu, ALUOpType.nop)

abbrev format (m : Mnemonic) : Format := m.row.1

abbrev unit (m : Mnemonic) : FuType × BitVec 5 := m.row.2

/-- the instructions whose first operand is `pc` -/
def readsPc (m : Mnemonic) : Bool := m == auipc || m == jal

end Mnemonic

/-- An instruction: a mnemonic with the operands of its format. -/
structure Instr where
  mnemonic : Mnemonic
  operands : Operands mnemonic.format

def Instr.encode (i : Instr) : BitVec 32 := HduCpu.encode i.operands

/-! ## what an instruction asks of its operands -/

namespace Operands
section
variable {f : Format}

/-- the register that is written -/
def rd : Operands f → Option (BitVec 5)
  | .r rd _ _ => some rd
  | .i rd _ _ => some rd
  | .shift rd _ _ => some rd
  | .shiftW rd _ _ => some rd
  | .u rd _ => some rd
  | .j rd _ => some rd
  | .csr rd _ _ => some rd
  | .csrI rd _ _ => some rd
  | _ => none

/-- the first register that is read -/
def rs1 : Operands f → Option (BitVec 5)
  | .r _ rs1 _ => some rs1
  | .i _ rs1 _ => some rs1
  | .shift _ rs1 _ => some rs1
  | .shiftW _ rs1 _ => some rs1
  | .s rs1 _ _ => some rs1
  | .b rs1 _ _ => some rs1
  | .csr _ rs1 _ => some rs1
  | _ => none

/-- the second register that is read -/
def rs2 : Operands f → Option (BitVec 5)
  | .r _ _ rs2 => some rs2
  | .s _ rs2 _ => some rs2
  | .b _ rs2 _ => some rs2
  | _ => none

/-- the address of the CSR -/
def csrAddr : Operands f → Option (BitVec 12)
  | .csr _ _ a => some a
  | .csrI _ _ a => some a
  | _ => none

/-- the CSR immediate -/
def uimm : Operands f → Option (BitVec 5)
  | .csrI _ zimm _ => some zimm
  | _ => none

/-- the shift amount; a 32-bit shift has five bits of it -/
def shiftAmount : Operands f → Option (BitVec 6)
  | .shift _ _ shamt => some shamt
  | .shiftW _ _ shamt => some (shamt.setWidth 6)
  | _ => none

/-- The sign-extended immediate of the layout; 0 where the layout has none. -/
def imm : {f : Format} → Operands f → BitVec 64
  | _, .i _ _ imm => imm.signExtend 64
  | .shift f6 _ _, .shift _ _ shamt => (f6 ++ shamt : BitVec 12).signExtend 64
  | .shiftW f7 _ _, .shiftW _ _ shamt => (f7 ++ shamt : BitVec 12).signExtend 64
  | _, .s _ _ imm => imm.signExtend 64
  | _, .b _ _ off => (off ++ 0#1 : BitVec 13).signExtend 64
  | _, .u _ imm => (imm ++ 0#12 : BitVec 32).signExtend 64
  | _, .j _ off => (off ++ 0#1 : BitVec 21).signExtend 64
  | _, .csr _ _ a => a.signExtend 64
  | _, .csrI _ _ a => a.signExtend 64
  | .env imm12 _, .env => imm12.signExtend 64
  | _, .fence pred succ => (0#4 ++ (pred ++ succ) : BitVec 12).signExtend 64
  | _, _ => 0

end
end Operands

/-- **What the decoder has to say about an instruction.** -/
structure Conforms (i : Instr) (d : Info) : Prop where
  valid : d.valid = true
  fusel : d.fusel = i.mnemonic.unit.1
  op : d.op = i.mnemonic.unit.2
  src1Pcen : d.src1Pcen = i.mnemonic.readsPc
  isCsri : d.isCsri = i.operands.uimm.isSome
  csr : ∀ a ∈ i.operands.csrAddr, d.csr = a
  zimm : ∀ z ∈ i.operands.uimm, d.zimm = z.setWidth 64
  imm : d.imm = i.operands.imm
  shamt : ∀ k ∈ i.operands.shiftAmount, d.imm.extractLsb' 0 6 = k
  rs1 : ∀ r ∈ i.operands.rs1, d.src1Ren = true ∧ d.src1Raddr = r
  rs2 : ∀ r ∈ i.operands.rs2, d.src2Ren = true ∧ d.src2Raddr = r
  rd : ∀ r ∈ i.operands.rd, d.regWaddr = r
  /-- the register that is written; writes of register 0 have no effect -/
  written : ∀ r ≠ 0, (d.regWen = true ∧ d.regWaddr = r) ↔ i.operands.rd = some r

/-! ## the two tables -/

/-- the instruction type of a format in the decode table -/
def Format.type : Format → InstrType
  | .r .. | .priv .. => .R
  | .s .. => .S
  | .b .. => .B
  | .u .. => .U
  | .j .. => .J
  | .i .. | .shift .. | .shiftW .. | .csr .. | .csrI .. | .env .. | .fence .. => .I

/-- the row of the decode table for an instruction -/
def Mnemonic.tableRow (m : Mnemonic) : BitPat 32 × InstrType × FuType × BitVec 5 :=
  (m.format.pat, m.format.type, m.unit)

/-- The decode table has one row for each instruction. -/
theorem decodeTable_eq : decodeTable = Mnemonic.all.map Mnemonic.tableRow := by
  decide +kernel

/-- The patterns of two different instructions are apart. -/
theorem pat_apart {m m' : Mnemonic} (h : m ≠ m') : m.format.pat.apart m'.format.pat = true := by
  have ht := decodeTable_apart
  rw [decodeTable_eq, List.pairwise_map] at ht
  have hs : Std.Symm fun n n' : Mnemonic => n.tableRow.1.apart n'.tableRow.1 = true := by
    refine ⟨fun n n' hn => ?_⟩
    rw [apart_comm]
    exact hn
  exact ht.forall m.mem_all m'.mem_all h

namespace Instr
variable (i : Instr)

theorem row_mem : i.mnemonic.tableRow ∈ decodeTable := by
  rw [decodeTable_eq]
  exact List.mem_map_of_mem i.mnemonic.mem_all

theorem hit : i.mnemonic.format.pat.hit i.encode = true :=
  hit_encode i.operands

theorem decodeOf_encode : decodeOf i.encode = (i.mnemonic.format.type, i.mnemonic.unit) :=
  decodeOf_of_hit i.row_mem i.hit

/-- A word is the encoding of one instruction only. -/
theorem encode_injective : Function.Injective encode := by
  intro i j h
  have hm : i.mnemonic = j.mnemonic := by
    by_contra hne
    have hj := apart_sound (pat_apart hne) i.hit
    rw [h, j.hit] at hj
    exact Bool.noConfusion hj
  obtain ⟨m, o⟩ := i
  obtain ⟨m', o'⟩ := j
  obtain rfl : m = m' := hm
  have ho : o = o' := by
    rw [← read_encode o, ← read_encode o']
    exact congrArg _ h
  rw [ho]

end Instr

/-- A word matches the table if and only if it is the encoding of an instruction. -/
theorem hit_iff_encode (w : BitVec 32) :
    (∃ e ∈ decodeTable, e.1.hit w = true) ↔ ∃ i : Instr, i.encode = w := by
  constructor
  · rintro ⟨e, he, hw⟩
    rw [decodeTable_eq] at he
    obtain ⟨m, -, rfl⟩ := List.mem_map.mp he
    exact ⟨⟨m, m.format.read w⟩, encode_read hw⟩
  · rintro ⟨i, rfl⟩
    exact ⟨_, i.row_mem, i.hit⟩

/-! ## signals, format by format -/

section
variable {f : Format} (o : Operands f)

theorem rs1_encode {r : BitVec 5} (h : o.rs1 = some r) :
    (f.type != .U && f.type != .J) = true ∧ rs1Of (encode o) = r := by
  have hr : (f.read (encode o)).rs1 = some r := by rw [read_encode, h]
  cases f
  case u | j | csrI | env | priv | fence =>
    cases o
    exact absurd h (by simp [Operands.rs1])
  all_goals exact ⟨rfl, Option.some.inj hr⟩

theorem rs2_encode {r : BitVec 5} (h : o.rs2 = some r) :
    (f.type != .I && f.type != .U && f.type != .J) = true ∧ rs2Of (encode o) = r := by
  have hr : (f.read (encode o)).rs2 = some r := by rw [read_encode, h]
  cases f
  case r | s | b => exact ⟨rfl, Option.some.inj hr⟩
  all_goals
    cases o
    exact absurd h (by simp [Operands.rs2])

theorem rd_encode {r : BitVec 5} (h : o.rd = some r) :
    (f.type != .S && f.type != .B) = true ∧ rdOf (encode o) = r := by
  have hr : (f.read (encode o)).rd = some r := by rw [read_encode, h]
  cases f
  case s | b | env | priv | fence =>
    cases o
    exact absurd h (by simp [Operands.rd])
  all_goals exact ⟨rfl, Option.some.inj hr⟩

/-- Without a destination the decoder writes nothing, or register 0. -/
theorem no_rd (h : o.rd = none) :
    (f.type != .S && f.type != .B) = false ∨ rdOf (encode o) = 0 := by
  cases o
  case s | b => exact .inl rfl
  case env | priv | fence =>
    refine .inr ?_
    simp (disch := decide) only [encode, rdOf, slice_low, slice_high]
    rfl
  all_goals exact absurd h (by simp [Operands.rd])

theorem csrAddr_encode {a : BitVec 12} (h : o.csrAddr = some a) :
    (encode o).extractLsb' 20 12 = a := by
  have hr : (f.read (encode o)).csrAddr = some a := by rw [read_encode, h]
  cases f
  case csr | csrI => exact Option.some.inj hr
  all_goals
    cases o
    exact absurd h (by simp [Operands.csrAddr])

theorem uimm_encode {z : BitVec 5} (h : o.uimm = some z) : rs1Of (encode o) = z := by
  have hr : (f.read (encode o)).uimm = some z := by rw [read_encode, h]
  cases f
  case csrI => exact Option.some.inj hr
  all_goals
    cases o
    exact absurd h (by simp [Operands.uimm])

-- `immOf` for each type, from the bits that it gathers
section
variable {w : BitVec 32}

theorem immOf_type_I {x : BitVec 12} (h : w.extractLsb' 20 12 = x) :
    immOf .I w = x.signExtend 64 := by
  subst h
  exact cat_fill_msb 52 _

theorem immOf_type_S {x : BitVec 12} (h : w.extractLsb' 25 7 ++ w.extractLsb' 7 5 = x) :
    immOf .S w = x.signExtend 64 := by
  subst h
  exact cat_fill_msb 52 (w.extractLsb' 25 7 ++ w.extractLsb' 7 5 : BitVec 12)

theorem immOf_type_B {x : BitVec 12} (h : (w.extractLsb' 31 1 ++ w.extractLsb' 7 1) ++
    (w.extractLsb' 25 6 ++ w.extractLsb' 8 4) = x) :
    immOf .B w = (x ++ 0#1 : BitVec 13).signExtend 64 := by
  subst h
  exact cat_fill_msb 51 _

theorem immOf_type_U {x : BitVec 20} (h : w.extractLsb' 12 20 = x) :
    immOf .U w = (x ++ 0#12 : BitVec 32).signExtend 64 := by
  subst h
  exact cat_fill_msb 32 (w.extractLsb' 12 20 ++ 0#12 : BitVec 32)

theorem immOf_type_J {x : BitVec 20} (h : (w.extractLsb' 31 1 ++ w.extractLsb' 12 8) ++
    (w.extractLsb' 20 1 ++ w.extractLsb' 21 10) = x) :
    immOf .J w = (x ++ 0#1 : BitVec 21).signExtend 64 := by
  subst h
  have hc := cat_fill_msb 44 (((w.extractLsb' 31 1 ++ w.extractLsb' 12 8) ++
    (w.extractLsb' 20 1 ++ w.extractLsb' 21 10)) ++ 0#1 : BitVec 21)
  -- 65 bits, the topmost of which is dropped
  exact (congrArg (BitVec.setWidth 64) hc).trans (setWidth_ofInt (by decide) _)

end

/-- Each immediate is the sign extension of the bits that the layout scatters. -/
theorem immOf_encode : immOf f.type (encode o) = o.imm := by
  cases o
  case i | csr | csrI | env =>
    refine immOf_type_I ?_
    simp (disch := decide) only [encode, slice_high]
    exact BitVec.extractLsb'_eq_self
  case shift =>
    refine immOf_type_I ((join (k := 6) (l := 6) rfl).symm.trans ?_)
    simp (disch := decide) only [encode, slice_low, slice_high]
    simp only [BitVec.extractLsb'_eq_self, Nat.reduceAdd, Nat.reduceSub]
  case shiftW =>
    refine immOf_type_I ((join (k := 7) (l := 5) rfl).symm.trans ?_)
    simp (disch := decide) only [encode, slice_low, slice_high]
    simp only [BitVec.extractLsb'_eq_self, Nat.reduceAdd, Nat.reduceSub]
  case fence =>
    refine immOf_type_I ((join (k := 4) (l := 8) rfl).symm.trans ?_)
    rw [← join (s := 20) (t := 24) (k := 4) (l := 4) rfl]
    simp (disch := decide) only [encode, slice_low, slice_high]
    simp only [BitVec.extractLsb'_eq_self, Nat.reduceAdd, Nat.reduceSub]
  case s imm =>
    refine immOf_type_S ?_
    simp (disch := decide) only [encode, slice_low, slice_high, extract_extract]
    exact join_S imm
  case b off =>
    refine immOf_type_B ?_
    simp (disch := decide) only [encode, slice_low, slice_high, extract_extract]
    exact join_B off
  case u =>
    refine immOf_type_U ?_
    simp (disch := decide) only [encode, slice_high]
    exact BitVec.extractLsb'_eq_self
  case j off =>
    refine immOf_type_J ?_
    simp (disch := decide) only [encode, slice_low, slice_high, extract_extract]
    exact join_J off
  case r | priv => rfl

end

/-! ## signals, row by row -/

theorem extract_signExtend {n v l : ℕ} (x : BitVec n) (h : l ≤ n) (hv : n ≤ v) :
    (x.signExtend v).extractLsb' 0 l = x.extractLsb' 0 l := by
  ext j hj
  have hn : j < n := by omega
  have hv' : j < v := by omega
  rw [BitVec.getElem_extractLsb', BitVec.getElem_extractLsb', Nat.zero_add,
    BitVec.getLsbD_signExtend, if_pos hn, decide_eq_true hv', Bool.true_and]

/-- does a format have a CSR immediate -/
def Format.hasUimm : Format → Bool
  | .csrI .. => true
  | _ => false

theorem uimm_isSome {f : Format} (o : Operands f) : o.uimm.isSome = f.hasUimm := by
  cases o <;> rfl

namespace Mnemonic

/-- The rows of the `nop` operation. -/
theorem unit_nop (m : Mnemonic) :
    (m.unit.1 == .alu && m.unit.2 == ALUOpType.nop) = (m == fence || m == wfi) := by
  cases m <;> rfl

theorem type_J (m : Mnemonic) : (m.format.type == .J) = (m == jal) := by
  cases m <;> rfl

theorem type_ne_N (m : Mnemonic) : (m.format.type != .N) = true := by
  cases m <;> rfl

/-- bit 14 of a CSR instruction distinguishes the forms with an immediate -/
theorem bit14 (m : Mnemonic) : if m.unit.1 = .csr then m.format.pat.mask.getLsbD 14 = true ∧
    m.format.pat.value.getLsbD 14 = m.format.hasUimm else m.format.hasUimm = false := by
  cases m <;> decide

theorem shiftW_even (m : Mnemonic) : ∀ f7 f3 op, m.format = .shiftW f7 f3 op →
    f7.getLsbD 0 = false := by
  intro f7 f3 op h
  cases m <;> cases h <;> rfl

end Mnemonic

section
variable (i : Instr)

theorem auipc_hit : RV32I_ALUInstr.AUIPC.hit i.encode = (i.mnemonic == .auipc) := by
  have hp : RV32I_ALUInstr.AUIPC = Mnemonic.auipc.format.pat := rfl
  rw [hp]
  by_cases hm : i.mnemonic = .auipc
  · have hi := i.hit
    rw [hm] at hi
    rw [hi, hm, beq_self_eq_true]
  · rw [apart_sound (pat_apart hm) i.hit, beq_eq_false_iff_ne.mpr hm]

theorem isCsri_encode : (i.mnemonic.unit.1 == .csr && CSROpType.isCSRI i.encode) =
    i.operands.uimm.isSome := by
  rw [uimm_isSome]
  have hb := i.mnemonic.bit14
  by_cases hc : i.mnemonic.unit.1 = .csr
  · rw [if_pos hc] at hb
    rw [hc, beq_self_eq_true, Bool.true_and, ← hb.2]
    exact hit_bit i.hit hb.1
  · rw [if_neg hc] at hb
    rw [beq_eq_false_iff_ne.mpr hc, Bool.false_and, hb]

theorem shamt_encode {k : BitVec 6} (h : i.operands.shiftAmount = some k) :
    i.operands.imm.extractLsb' 0 6 = k := by
  obtain ⟨m, o⟩ := i
  have he := m.shiftW_even
  change Operands.shiftAmount o = some k at h
  change (Operands.imm o).extractLsb' 0 6 = k
  revert o he
  generalize m.format = f
  intro o he h
  cases o
  case shift f6 f3 op rd rs1 shamt =>
    obtain rfl : shamt = k := Option.some.inj h
    change ((f6 ++ shamt : BitVec 12).signExtend 64).extractLsb' 0 6 = shamt
    rw [extract_signExtend _ (by decide) (by decide)]
    exact BitVec.extractLsb'_append_eq_right
  case shiftW f7 f3 op rd rs1 shamt =>
    obtain rfl : shamt.setWidth 6 = k := Option.some.inj h
    change ((f7 ++ shamt : BitVec 12).signExtend 64).extractLsb' 0 6 = shamt.setWidth 6
    rw [extract_signExtend _ (by decide) (by decide)]
    ext j hj
    have h7 := he f7 f3 op rfl
    rw [BitVec.getElem_extractLsb', BitVec.getElem_setWidth, BitVec.getLsbD_append, Nat.zero_add]
    by_cases h5 : j < 5
    · rw [if_pos h5]
    · obtain rfl : j = 5 := by omega
      rw [if_neg h5, h7, BitVec.getLsbD_of_ge _ _ (by decide)]
  all_goals exact absurd h (by simp [Operands.shiftAmount])

theorem regWen_of_rd {r : BitVec 5} (h : i.operands.rd = some r) :
    (i.mnemonic.unit.1 == .alu && i.mnemonic.unit.2 == ALUOpType.nop) = false := by
  obtain ⟨m, o⟩ := i
  rw [m.unit_nop]
  by_contra hm
  have hm' : m = .fence ∨ m = .wfi := by simpa [or_iff_not_imp_left] using hm
  rcases hm' with rfl | rfl
  · cases o
    exact absurd h (by simp [Operands.rd])
  · cases o
    exact absurd h (by simp [Operands.rd])

/-- The decoder says of the encoding of an instruction what it has to say of the instruction. -/
theorem conforms_encode : Conforms i (decoder i.encode) := by
  have hd := i.decodeOf_encode
  have hwen : (decoder i.encode).regWen = ((i.mnemonic.format.type != .S &&
      i.mnemonic.format.type != .B) && !(i.mnemonic.unit.1 == .alu &&
        i.mnemonic.unit.2 == ALUOpType.nop)) := by
    simp only [decoder, hd]
  constructor
  case valid =>
    simp only [decoder, hd, i.mnemonic.type_ne_N]
  case fusel => simp only [decoder, hd]
  case op => simp only [decoder, hd]
  case src1Pcen => simp only [decoder, hd, auipc_hit, i.mnemonic.type_J, Mnemonic.readsPc]
  case isCsri =>
    simp only [decoder, hd]
    exact isCsri_encode i
  case csr => exact fun a ha => csrAddr_encode i.operands ha
  case zimm =>
    intro z hz
    show (rs1Of i.encode).setWidth 64 = _
    rw [Instr.encode, uimm_encode i.operands hz]
  case imm =>
    simp only [decoder, hd]
    exact immOf_encode i.operands
  case shamt =>
    intro k hk
    simp only [decoder, hd]
    rw [Instr.encode, immOf_encode]
    exact shamt_encode i hk
  case rs1 =>
    intro r hr
    simp only [decoder, hd]
    exact rs1_encode i.operands hr
  case rs2 =>
    intro r hr
    simp only [decoder, hd]
    exact rs2_encode i.operands hr
  case rd => exact fun r hr => (rd_encode i.operands hr).2
  case written =>
    intro r hr
    rw [hwen]
    show _ ∧ rdOf (encode i.operands) = r ↔ _
    cases hrd : i.operands.rd with
    | none =>
      rcases no_rd i.operands hrd with ht | hz
      · simp [ht]
      · refine iff_of_false ?_ (by simp)
        rintro ⟨-, he⟩
        exact hr (he.symm.trans hz)
    | some r' =>
      obtain ⟨ht, hn⟩ := rd_encode i.operands hrd
      rw [ht, regWen_of_rd i hrd, hn]
      simp

end

/-- **The decoder conforms to the instruction set.** -/
theorem decoder_conforms (w : BitVec 32) :
    decodeTable.countP (fun e => e.1.hit w) ≤ 1 ∧
      ((∃ e ∈ decodeTable, e.1.hit w = true) ↔ ∃ i : Instr, i.encode = w) ∧
      (∀ i : Instr, i.encode = w → Conforms i (decoder w) ∧ ∀ j : Instr, j.encode = w → j = i) ∧
      ((∀ e ∈ decodeTable, e.1.hit w = false) →
        (decoder w).valid = false ∧ (decoder w).regWen = false) := by
  refine ⟨countP_hit_le_one w decodeTable_apart, hit_iff_encode w, ?_, ?_⟩
  · rintro i rfl
    exact ⟨conforms_encode i, fun j hj => Instr.encode_injective hj⟩
  · intro hn
    have hd : decodeOf w = decodeDefault := by
      rcases listLookup_cases w decodeDefault decodeTable with ⟨e, he, hh, -⟩ | ⟨-, hl⟩
      · rw [hn e he] at hh
        exact Bool.noConfusion hh
      · exact hl
    constructor
    · simp only [decoder, hd]
      rfl
    · simp only [decoder, hd]
      rfl

/-- `addi x1, x2, -1` -/
theorem decoder_conforms_addi :
    Conforms ⟨.addi, .i 1 2 (-1)⟩ (decoder 0xfff10093) ∧
      (decoder 0xfff10093).imm = (-1 : BitVec 64) := by
  have h := ((decoder_conforms 0xfff10093).2.2.1 ⟨.addi, .i 1 2 (-1)⟩ (by decide)).1
  exact ⟨h, h.imm⟩

end HduCpu
