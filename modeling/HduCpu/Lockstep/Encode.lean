import HduCpu.Cpu.Decode
import HduCpu.Ref.RvCommon

/-!
# Instruction formats and their encodings

The layouts of `rv_instr`, each with the fields that an instruction fixes, and the operands that
fill the rest of the word.

* `Format`, `Operands`     a layout, and what an instruction of that layout leaves open;
* `Format.pat`             the words of the format, as a bit pattern;
* `encode`, `Format.read`  a word from its operands, and back;
* `encode_read`, `read_encode`, `hit_encode`   the two are inverse on the words of the format
  (`hit_pat_iff`).
-/

namespace HduCpu
open BitPat

/-! ## formats -/

/-- The six layouts of `rv_instr` with their fixed fields.  A shift by an immediate is an `i` whose
immediate carries a `funct6` (or a `funct7`), a CSR access an `i` whose immediate is an address, and
`env`, `priv` and `fence` fix their register fields too. -/
inductive Format where
  | r (funct7 : BitVec 7) (funct3 : BitVec 3) (opcode : BitVec 7)
  | i (funct3 : BitVec 3) (opcode : BitVec 7)
  | shift (funct6 : BitVec 6) (funct3 : BitVec 3) (opcode : BitVec 7)
  | shiftW (funct7 : BitVec 7) (funct3 : BitVec 3) (opcode : BitVec 7)
  | s (funct3 : BitVec 3) (opcode : BitVec 7)
  | b (funct3 : BitVec 3) (opcode : BitVec 7)
  | u (opcode : BitVec 7)
  | j (opcode : BitVec 7)
  | csr (funct3 : BitVec 3) (opcode : BitVec 7)
  | csrI (funct3 : BitVec 3) (opcode : BitVec 7)
  | env (imm12 : BitVec 12) (opcode : BitVec 7)
  | priv (funct7 : BitVec 7) (rs2 : BitVec 5) (opcode : BitVec 7)
  | fence (opcode : BitVec 7)
deriving DecidableEq

/-- The operands of a format.  A branch or jump has the offset in units of two bytes. -/
inductive Operands : Format → Type where
  | r {f7 f3 op} (rd rs1 rs2 : BitVec 5) : Operands (.r f7 f3 op)
  | i {f3 op} (rd rs1 : BitVec 5) (imm : BitVec 12) : Operands (.i f3 op)
  | shift {f6 f3 op} (rd rs1 : BitVec 5) (shamt : BitVec 6) : Operands (.shift f6 f3 op)
  | shiftW {f7 f3 op} (rd rs1 : BitVec 5) (shamt : BitVec 5) : Operands (.shiftW f7 f3 op)
  | s {f3 op} (rs1 rs2 : BitVec 5) (imm : BitVec 12) : Operands (.s f3 op)
  | b {f3 op} (rs1 rs2 : BitVec 5) (off : BitVec 12) : Operands (.b f3 op)
  | u {op} (rd : BitVec 5) (imm : BitVec 20) : Operands (.u op)
  | j {op} (rd : BitVec 5) (off : BitVec 20) : Operands (.j op)
  | csr {f3 op} (rd rs1 : BitVec 5) (csr : BitVec 12) : Operands (.csr f3 op)
  | csrI {f3 op} (rd zimm : BitVec 5) (csr : BitVec 12) : Operands (.csrI f3 op)
  | env {imm12 op} : Operands (.env imm12 op)
  | priv {f7 rs2 op} : Operands (.priv f7 rs2 op)
  | fence {op} (pred succ : BitVec 4) : Operands (.fence op)

/-- the bit pattern of a format -/
def Format.pat : Format → BitPat 32
  | .r f7 f3 op => funct7Pat f7 f3 op
  | .i f3 op => funct3Pat f3 op
  | .shift f6 f3 op => funct6Pat f6 f3 op
  | .shiftW f7 f3 op => funct7Pat f7 f3 op
  | .s f3 op => funct3Pat f3 op
  | .b f3 op => funct3Pat f3 op
  | .u op => opPat op
  | .j op => opPat op
  | .csr f3 op => funct3Pat f3 op
  | .csrI f3 op => funct3Pat f3 op
  | .env imm12 op => systemPat imm12 op
  | .priv f7 rs2 op => lit f7 ++ (lit rs2 ++ (lit 0#5 ++ (lit 0#3 ++ (lit 0#5 ++ lit op))))
  | .fence op => lit 0b0000#4 ++ (any 8 ++ (lit 0#5 ++ (lit 0#3 ++ (lit 0#5 ++ lit op))))

/-- the instruction word, from bit 31 down to bit 0 as `rv_instr` lays its fields out -/
def encode : {f : Format} → Operands f → BitVec 32
  | .r f7 f3 op, .r rd rs1 rs2 => f7 ++ (rs2 ++ (rs1 ++ (f3 ++ (rd ++ op))))
  | .i f3 op, .i rd rs1 imm => imm ++ (rs1 ++ (f3 ++ (rd ++ op)))
  | .shift f6 f3 op, .shift rd rs1 shamt => f6 ++ (shamt ++ (rs1 ++ (f3 ++ (rd ++ op))))
  | .shiftW f7 f3 op, .shiftW rd rs1 shamt => f7 ++ (shamt ++ (rs1 ++ (f3 ++ (rd ++ op))))
  | .s f3 op, .s rs1 rs2 imm =>
    imm.extractLsb' 5 7 ++ (rs2 ++ (rs1 ++ (f3 ++ (imm.extractLsb' 0 5 ++ op))))
  | .b f3 op, .b rs1 rs2 off =>
    let imm : BitVec 13 := off ++ 0#1
    imm.extractLsb' 12 1 ++ (imm.extractLsb' 5 6 ++ (rs2 ++ (rs1 ++ (f3 ++
      (imm.extractLsb' 1 4 ++ (imm.extractLsb' 11 1 ++ op))))))
  | .u op, .u rd imm => imm ++ (rd ++ op)
  | .j op, .j rd off =>
    let imm : BitVec 21 := off ++ 0#1
    imm.extractLsb' 20 1 ++ (imm.extractLsb' 1 10 ++ (imm.extractLsb' 11 1 ++
      (imm.extractLsb' 12 8 ++ (rd ++ op))))
  | .csr f3 op, .csr rd rs1 csr => csr ++ (rs1 ++ (f3 ++ (rd ++ op)))
  | .csrI f3 op, .csrI rd zimm csr => csr ++ (zimm ++ (f3 ++ (rd ++ op)))
  | .env imm12 op, .env => imm12 ++ (0#5 ++ (0#3 ++ (0#5 ++ op)))
  | .priv f7 rs2 op, .priv => f7 ++ (rs2 ++ (0#5 ++ (0#3 ++ (0#5 ++ op))))
  | .fence op, .fence pred succ => 0#4 ++ (pred ++ (succ ++ (0#5 ++ (0#3 ++ (0#5 ++ op)))))

/-- the operands of a word of the format -/
def Format.read : (f : Format) → BitVec 32 → Operands f
  | .r _ _ _, w => .r (rdOf w) (rs1Of w) (rs2Of w)
  | .i _ _, w => .i (rdOf w) (rs1Of w) (w.extractLsb' 20 12)
  | .shift _ _ _, w => .shift (rdOf w) (rs1Of w) (w.extractLsb' 20 6)
  | .shiftW _ _ _, w => .shiftW (rdOf w) (rs1Of w) (rs2Of w)
  | .s _ _, w => .s (rs1Of w) (rs2Of w) (w.extractLsb' 25 7 ++ w.extractLsb' 7 5)
  | .b _ _, w => .b (rs1Of w) (rs2Of w) ((w.extractLsb' 31 1 ++ w.extractLsb' 7 1) ++
      (w.extractLsb' 25 6 ++ w.extractLsb' 8 4))
  | .u _, w => .u (rdOf w) (w.extractLsb' 12 20)
  | .j _, w => .j (rdOf w) ((w.extractLsb' 31 1 ++ w.extractLsb' 12 8) ++
      (w.extractLsb' 20 1 ++ w.extractLsb' 21 10))
  | .csr _ _, w => .csr (rdOf w) (rs1Of w) (w.extractLsb' 20 12)
  | .csrI _ _, w => .csrI (rdOf w) (rs1Of w) (w.extractLsb' 20 12)
  | .env _ _, _ => .env
  | .priv _ _ _, _ => .priv
  | .fence _, w => .fence (w.extractLsb' 24 4) (w.extractLsb' 20 4)

/-! ## one slice after another -/

section
variable {m n : ℕ}

theorem slice_high {a : BitVec m} {b : BitVec n} {s l : ℕ} (h : n ≤ s) :
    (a ++ b).extractLsb' s l = a.extractLsb' (s - n) l :=
  BitVec.extractLsb'_append_eq_of_le h

theorem slice_low {a : BitVec m} {b : BitVec n} {s l : ℕ} (h : s + l ≤ n) :
    (a ++ b).extractLsb' s l = b.extractLsb' s l :=
  BitVec.extractLsb'_append_eq_of_add_le h

theorem join {x : BitVec m} {s t k l : ℕ} (h : t = s + l) :
    x.extractLsb' t k ++ x.extractLsb' s l = x.extractLsb' s (k + l) :=
  BitVec.extractLsb'_append_extractLsb'_eq_extractLsb' h

end

theorem join_S (x : BitVec 12) : x.extractLsb' 5 7 ++ x.extractLsb' 0 5 = x := by
  simp (disch := decide) only [join]
  exact BitVec.extractLsb'_eq_self

theorem join_B (x : BitVec 12) : (x.extractLsb' 11 1 ++ x.extractLsb' 10 1) ++
    (x.extractLsb' 4 6 ++ x.extractLsb' 0 4) = x := by
  simp (disch := decide) only [join]
  exact BitVec.extractLsb'_eq_self

theorem join_J (x : BitVec 20) : (x.extractLsb' 19 1 ++ x.extractLsb' 11 8) ++
    (x.extractLsb' 10 1 ++ x.extractLsb' 0 10) = x := by
  simp (disch := decide) only [join]
  exact BitVec.extractLsb'_eq_self

/-- The operands are read back from the word. -/
theorem read_encode {f : Format} (o : Operands f) : f.read (encode o) = o := by
  cases o <;> simp (disch := decide) only [encode, Format.read, rdOf, rs1Of, rs2Of, slice_low,
    slice_high, extract_extract]
  all_goals simp only [BitVec.extractLsb'_eq_self, Nat.reduceAdd, Nat.reduceSub]
  case s imm => rw [join_S]
  case b off => rw [join_B]
  case j off => rw [join_J]

theorem hit_encode {f : Format} (o : Operands f) : f.pat.hit (encode o) = true := by
  cases o <;> simp (disch := decide) only [encode, Format.pat, opPat, funct3Pat, funct6Pat,
    funct7Pat, systemPat, hit_append, hit_lit, hit_any, extract_extract, slice_low, slice_high]
  all_goals simp only [BitVec.extractLsb'_eq_self, Nat.reduceAdd, Nat.reduceSub, beq_self_eq_true,
    Bool.and_self]

/-- a word whose register fields and `funct3` are zero, below the immediate -/
theorem low_zero {w : BitVec 32} {op : BitVec 7} (h₁ : w.extractLsb' 15 5 = 0#5)
    (h₃ : w.extractLsb' 12 3 = 0#3) (hd : w.extractLsb' 7 5 = 0#5) (ho : w.extractLsb' 0 7 = op) :
    (0#5 ++ (0#3 ++ (0#5 ++ op)) : BitVec 20) = w.extractLsb' 0 20 := by
  have hj : w.extractLsb' 15 5 ++ (w.extractLsb' 12 3 ++ (w.extractLsb' 7 5 ++ w.extractLsb' 0 7))
      = w.extractLsb' 0 20 := by
    simp (disch := decide) only [join]
  rw [h₁, h₃, hd, ho] at hj
  exact hj

/-- A word of the format is the encoding of its operands. -/
theorem encode_read {f : Format} {w : BitVec 32} (h : f.pat.hit w = true) :
    encode (f.read w) = w := by
  cases f <;> simp (disch := decide) only [encode, Format.pat, Format.read, rdOf, rs1Of, rs2Of,
    opPat, funct3Pat, funct6Pat, funct7Pat, systemPat, hit_append, hit_lit, hit_any,
    extract_extract, slice_low, slice_high, Bool.and_eq_true, beq_iff_eq, Bool.true_and] at h ⊢
  case env =>
    obtain ⟨rfl, h₁, h₃, hd, ho⟩ := h
    rw [low_zero h₁ h₃ hd ho]
    simp (disch := decide) only [join]
    exact BitVec.extractLsb'_eq_self
  case priv =>
    obtain ⟨rfl, rfl, h₁, h₃, hd, ho⟩ := h
    rw [low_zero h₁ h₃ hd ho]
    simp (disch := decide) only [join]
    exact BitVec.extractLsb'_eq_self
  case fence =>
    obtain ⟨hf, h₁, h₃, hd, ho⟩ := h
    rw [low_zero h₁ h₃ hd ho, ← hf]
    simp (disch := decide) only [join]
    exact BitVec.extractLsb'_eq_self
  case u | j =>
    subst h
    simp (disch := decide) only [join]
    exact BitVec.extractLsb'_eq_self
  case r | shift | shiftW =>
    obtain ⟨rfl, rfl, rfl⟩ := h
    simp (disch := decide) only [join]
    exact BitVec.extractLsb'_eq_self
  all_goals
    obtain ⟨rfl, rfl⟩ := h
    simp (disch := decide) only [join]
    exact BitVec.extractLsb'_eq_self

end HduCpu
