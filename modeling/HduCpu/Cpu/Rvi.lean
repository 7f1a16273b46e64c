import HduCpu.Cpu.Defines

/-!
# The decode table

`defines/isa/RVI.scala` with `XLEN = 64`: the bit pattern of every instruction and the table
`pattern → (instruction type, functional unit, operation)`.

The patterns come in a few shapes (`opPat`, `funct3Pat`, `funct6Pat`, `funct7Pat`, `systemPat`);
each shape has a `hit_..` lemma that says what it asks of the fields of the word.
-/

namespace HduCpu
open BitPat

/-! ## fields of an instruction word -/

def opcodeOf (w : BitVec 32) : BitVec 7 := w.extractLsb' 0 7
def rdOf (w : BitVec 32) : BitVec 5 := w.extractLsb' 7 5
def funct3Of (w : BitVec 32) : BitVec 3 := w.extractLsb' 12 3
def rs1Of (w : BitVec 32) : BitVec 5 := w.extractLsb' 15 5
def rs2Of (w : BitVec 32) : BitVec 5 := w.extractLsb' 20 5
def funct7Of (w : BitVec 32) : BitVec 7 := w.extractLsb' 25 7
def funct6Of (w : BitVec 32) : BitVec 6 := w.extractLsb' 26 6

/-! ## shapes of patterns -/

/-- `????????????????????_?????_op` -/
def opPat (op : BitVec 7) : BitPat 32 := any 20 ++ (any 5 ++ lit op)

/-- `????????????_?????_f3_?????_op` -/
def funct3Pat (f3 : BitVec 3) (op : BitVec 7) : BitPat 32 :=
  any 12 ++ (any 5 ++ (lit f3 ++ (any 5 ++ lit op)))

/-- `f6??????_?????_f3_?????_op` -/
def funct6Pat (f6 : BitVec 6) (f3 : BitVec 3) (op : BitVec 7) : BitPat 32 :=
  lit f6 ++ (any 6 ++ (any 5 ++ (lit f3 ++ (any 5 ++ lit op))))

/-- `f7_?????_?????_f3_?????_op` -/
def funct7Pat (f7 : BitVec 7) (f3 : BitVec 3) (op : BitVec 7) : BitPat 32 :=
  lit f7 ++ (any 5 ++ (any 5 ++ (lit f3 ++ (any 5 ++ lit op))))

/-- `imm12_00000_000_00000_op` -/
def systemPat (imm12 : BitVec 12) (op : BitVec 7) : BitPat 32 :=
  lit imm12 ++ (lit 0#5 ++ (lit 0#3 ++ (lit 0#5 ++ lit op)))

theorem hit_opPat (op : BitVec 7) (w : BitVec 32) : (opPat op).hit w = (opcodeOf w == op) := by
  unfold opPat opcodeOf
  rw [hit_append, hit_append]
  simp [extract_extract]

theorem hit_funct3Pat (f3 : BitVec 3) (op : BitVec 7) (w : BitVec 32) :
    (funct3Pat f3 op).hit w = (funct3Of w == f3 && opcodeOf w == op) := by
  unfold funct3Pat funct3Of opcodeOf
  rw [hit_append, hit_append, hit_append, hit_append]
  simp [extract_extract]

theorem hit_funct6Pat (f6 : BitVec 6) (f3 : BitVec 3) (op : BitVec 7) (w : BitVec 32) :
    (funct6Pat f6 f3 op).hit w = (funct6Of w == f6 && (funct3Of w == f3 && opcodeOf w == op)) := by
  unfold funct6Pat funct6Of funct3Of opcodeOf
  rw [hit_append, hit_append, hit_append, hit_append, hit_append]
  simp [extract_extract]

theorem hit_funct7Pat (f7 : BitVec 7) (f3 : BitVec 3) (op : BitVec 7) (w : BitVec 32) :
    (funct7Pat f7 f3 op).hit w = (funct7Of w == f7 && (funct3Of w == f3 && opcodeOf w == op)) := by
  unfold funct7Pat funct7Of funct3Of opcodeOf
  rw [hit_append, hit_append, hit_append, hit_append, hit_append]
  simp [extract_extract]

/-! ## patterns -/

namespace RV32I_ALUInstr
def ADDI := funct3Pat 0b000 0b0010011
def SLLI := funct6Pat 0b000000 0b001 0b0010011
def SLTI := funct3Pat 0b010 0b0010011
def SLTIU := funct3Pat 0b011 0b0010011
def XORI := funct3Pat 0b100 0b0010011
def SRLI := funct6Pat 0b000000 0b101 0b0010011
def ORI := funct3Pat 0b110 0b0010011
def ANDI := funct3Pat 0b111 0b0010011
def SRAI := funct6Pat 0b010000 0b101 0b0010011

def ADD := funct7Pat 0b0000000 0b000 0b0110011
def SLL := funct7Pat 0b0000000 0b001 0b0110011
def SLT := funct7Pat 0b0000000 0b010 0b0110011
def SLTU := funct7Pat 0b0000000 0b011 0b0110011
def XOR := funct7Pat 0b0000000 0b100 0b0110011
def SRL := funct7Pat 0b0000000 0b101 0b0110011
def OR := funct7Pat 0b0000000 0b110 0b0110011
def AND := funct7Pat 0b0000000 0b111 0b0110011
def SUB := funct7Pat 0b0100000 0b000 0b0110011
def SRA := funct7Pat 0b0100000 0b101 0b0110011

def AUIPC := opPat 0b0010111
def LUI := opPat 0b0110111

def table : List (BitPat 32 × InstrType × FuType × BitVec 5) :=
  [(ADD, .R, .alu, ALUOpType.add),
   (SLL, .R, .alu, ALUOpType.sll),
   (SLT, .R, .alu, ALUOpType.slt),
   (SLTU, .R, .alu, ALUOpType.sltu),
   (XOR, .R, .alu, ALUOpType.xor),
   (SRL, .R, .alu, ALUOpType.srl),
   (OR, .R, .alu, ALUOpType.or),
   (AND, .R, .alu, ALUOpType.and),
   (SUB, .R, .alu, ALUOpType.sub),
   (SRA, .R, .alu, ALUOpType.sra),
   (ADDI, .I, .alu, ALUOpType.add),
   (SLLI, .I, .alu, ALUOpType.sll),
   (SLTI, .I, .alu, ALUOpType.slt),
   (SLTIU, .I, .alu, ALUOpType.sltu),
   (XORI, .I, .alu, ALUOpType.xor),
   (SRLI, .I, .alu, ALUOpType.srl),
   (ORI, .I, .alu, ALUOpType.or),
   (ANDI, .I, .alu, ALUOpType.and),
   (SRAI, .I, .alu, ALUOpType.sra),
   (AUIPC, .U, .alu, ALUOpType.add),
   (LUI, .U, .alu, ALUOpType.add)]
end RV32I_ALUInstr

namespace RV64IInstr
def ADDIW := funct3Pat 0b000 0b0011011
def SLLIW := funct7Pat 0b0000000 0b001 0b0011011
def SRLIW := funct7Pat 0b0000000 0b101 0b0011011
def SRAIW := funct7Pat 0b0100000 0b101 0b0011011
def SLLW := funct7Pat 0b0000000 0b001 0b0111011
def SRLW := funct7Pat 0b0000000 0b101 0b0111011
def SRAW := funct7Pat 0b0100000 0b101 0b0111011
def ADDW := funct7Pat 0b0000000 0b000 0b0111011
def SUBW := funct7Pat 0b0100000 0b000 0b0111011

def table : List (BitPat 32 × InstrType × FuType × BitVec 5) :=
  [(SLLW, .R, .alu, ALUOpType.sllw),
   (SRLW, .R, .alu, ALUOpType.srlw),
   (SRAW, .R, .alu, ALUOpType.sraw),
   (ADDW, .R, .alu, ALUOpType.addw),
   (SUBW, .R, .alu, ALUOpType.subw),
   (SLLIW, .I, .alu, ALUOpType.sllw),
   (SRLIW, .I, .alu, ALUOpType.srlw),
   (SRAIW, .I, .alu, ALUOpType.sraw),
   (ADDIW, .I, .alu, ALUOpType.addw)]
end RV64IInstr

namespace RV32MInstr
def MUL := funct7Pat 0b0000001 0b000 0b0110011
def MULH := funct7Pat 0b0000001 0b001 0b0110011
def MULHSU := funct7Pat 0b0000001 0b010 0b0110011
def MULHU := funct7Pat 0b0000001 0b011 0b0110011
def DIV := funct7Pat 0b0000001 0b100 0b0110011
def DIVU := funct7Pat 0b0000001 0b101 0b0110011
def REM := funct7Pat 0b0000001 0b110 0b0110011
def REMU := funct7Pat 0b0000001 0b111 0b0110011

def table : List (BitPat 32 × InstrType × FuType × BitVec 5) :=
  [(MUL, .R, .mdu, MDUOpType.mul),
   (MULH, .R, .mdu, MDUOpType.mulh),
   (MULHSU, .R, .mdu, MDUOpType.mulhsu),
   (MULHU, .R, .mdu, MDUOpType.mulhu),
   (DIV, .R, .mdu, MDUOpType.div),
   (DIVU, .R, .mdu, MDUOpType.divu),
   (REM, .R, .mdu, MDUOpType.rem),
   (REMU, .R, .mdu, MDUOpType.remu)]
end RV32MInstr

namespace RV64MInstr
def MULW := funct7Pat 0b0000001 0b000 0b0111011
def DIVW := funct7Pat 0b0000001 0b100 0b0111011
def DIVUW := funct7Pat 0b0000001 0b101 0b0111011
def REMW := funct7Pat 0b0000001 0b110 0b0111011
def REMUW := funct7Pat 0b0000001 0b111 0b0111011

def table : List (BitPat 32 × InstrType × FuType × BitVec 5) :=
  [(MULW, .R, .mdu, MDUOpType.mulw),
   (DIVW, .R, .mdu, MDUOpType.divw),
   (DIVUW, .R, .mdu, MDUOpType.divuw),
   (REMW, .R, .mdu, MDUOpType.remw),
   (REMUW, .R, .mdu, MDUOpType.remuw)]
end RV64MInstr

namespace RV32I_LSUInstr
def LB := funct3Pat 0b000 0b0000011
def LH := funct3Pat 0b001 0b0000011
def LW := funct3Pat 0b010 0b0000011
def LD := funct3Pat 0b011 0b0000011
def LBU := funct3Pat 0b100 0b0000011
def LHU := funct3Pat 0b101 0b0000011
def LWU := funct3Pat 0b110 0b0000011
def SB := funct3Pat 0b000 0b0100011
def SH := funct3Pat 0b001 0b0100011
def SW := funct3Pat 0b010 0b0100011
def SD := funct3Pat 0b011 0b0100011

def table : List (BitPat 32 × InstrType × FuType × BitVec 5) :=
  [(LB, .I, .lsu, LSUOpType.lb),
   (LH, .I, .lsu, LSUOpType.lh),
   (LW, .I, .lsu, LSUOpType.lw),
   (LD, .I, .lsu, LSUOpType.ld),
   (LBU, .I, .lsu, LSUOpType.lbu),
   (LHU, .I, .lsu, LSUOpType.lhu),
   (LWU, .I, .lsu, LSUOpType.lwu),
   (SB, .S, .lsu, LSUOpType.sb),
   (SH, .S, .lsu, LSUOpType.sh),
   (SW, .S, .lsu, LSUOpType.sw),
   (SD, .S, .lsu, LSUOpType.sd)]
end RV32I_LSUInstr

namespace RV32I_BRUInstr
def BEQ := funct3Pat 0b000 0b1100011
def BNE := funct3Pat 0b001 0b1100011
def BLT := funct3Pat 0b100 0b1100011
def BGE := funct3Pat 0b101 0b1100011
def BLTU := funct3Pat 0b110 0b1100011
def BGEU := funct3Pat 0b111 0b1100011
def JAL := opPat 0b1101111
def JALR := funct3Pat 0b000 0b1100111

def table : List (BitPat 32 × InstrType × FuType × BitVec 5) :=
  [(BEQ, .B, .bru, BRUOpType.beq),
   (BNE, .B, .bru, BRUOpType.bne),
   (BLT, .B, .bru, BRUOpType.blt),
   (BGE, .B, .bru, BRUOpType.bge),
   (BLTU, .B, .bru, BRUOpType.bltu),
   (BGEU, .B, .bru, BRUOpType.bgeu),
   (JAL, .J, .bru, BRUOpType.jal),
   (JALR, .I, .bru, BRUOpType.jalr)]
end RV32I_BRUInstr

namespace RV32I_CSRInstr
def CSRRW := funct3Pat 0b001 0b1110011
def CSRRS := funct3Pat 0b010 0b1110011
def CSRRC := funct3Pat 0b011 0b1110011
def CSRRWI := funct3Pat 0b101 0b1110011
def CSRRSI := funct3Pat 0b110 0b1110011
def CSRRCI := funct3Pat 0b111 0b1110011
def ECALL := systemPat 0b000000000000 0b1110011
def EBREAK := systemPat 0b000000000001 0b1110011
def MRET := systemPat 0b001100000010 0b1110011
/-- `0000????????_00000_000_00000_0001111` -/
def FENCE : BitPat 32 :=
  lit 0b0000#4 ++ (any 8 ++ (lit 0#5 ++ (lit 0#3 ++ (lit 0#5 ++ lit 0b0001111#7))))
def WFI := systemPat 0b000100000101 0b1110011

def table : List (BitPat 32 × InstrType × FuType × BitVec 5) :=
  [(CSRRW, .I, .csr, CSROpType.csrrw),
   (CSRRS, .I, .csr, CSROpType.csrrs),
   (CSRRC, .I, .csr, CSROpType.csrrc),
   (CSRRWI, .I, .csr, CSROpType.csrrw),
   (CSRRSI, .I, .csr, CSROpType.csrrs),
   (CSRRCI, .I, .csr, CSROpType.csrrc),
   (ECALL, .I, .csr, CSROpType.ecall),
   (EBREAK, .I, .csr, CSROpType.ebreak),
   (MRET, .R, .csr, CSROpType.mret),
   (FENCE, .I, .alu, ALUOpType.nop),
   (WFI, .R, .alu, ALUOpType.nop)]
end RV32I_CSRInstr

/-- `RVIInstr.table`, the `DecodeTable` -/
def decodeTable : List (BitPat 32 × InstrType × FuType × BitVec 5) :=
  RV32I_ALUInstr.table ++ RV64IInstr.table ++ RV32MInstr.table ++ RV64MInstr.table ++
    RV32I_LSUInstr.table ++ RV32I_BRUInstr.table ++ RV32I_CSRInstr.table

def decodeDefault : InstrType × FuType × BitVec 5 := (.N, .alu, ALUOpType.nop)

/-- No word matches two patterns of the table. -/
theorem decodeTable_apart :
    decodeTable.Pairwise fun e e' => e.1.apart e'.1 = true := by
  decide +kernel

end HduCpu
