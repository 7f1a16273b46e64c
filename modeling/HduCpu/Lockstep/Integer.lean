import HduCpu.Lockstep.Operands

/-!
# Integer computation

Each operation of `alu_exec` is computed by the functional unit that `AluOp.unit`, or `AluOp.unitW`
for the 32-bit forms, names.

* `aluExec_unit`, `aluExec_unitW`   the operations;
* `integer_lockstep`       every accepted word of the six opcodes writes the same value to the same
                           register.
-/

namespace HduCpu

theorem shamt6 (b : BitVec 64) : (b &&& 0x3f#64).toNat = (b.extractLsb' 0 6).toNat := by
  rw [BitVec.toNat_and, BitVec.extractLsb'_toNat]
  exact Nat.and_two_pow_sub_one_eq_mod b.toNat 6

theorem shamt5 (b : BitVec 64) : (b &&& 0x1f#64).toNat = (b.extractLsb' 0 5).toNat := by
  rw [BitVec.toNat_and, BitVec.extractLsb'_toNat]
  exact Nat.and_two_pow_sub_one_eq_mod b.toNat 5

theorem aluExec_wide (a b : BitVec 64) (op : AluOp) :
    aluExec a b op false = aluSwitch a b op false := by
  show (aluSwitch a b op false >>= fun r => .ok r) = _
  cases aluSwitch a b op false <;> rfl

/-! ## 64-bit operations -/

section
variable (a b : BitVec 64)

theorem low_divS : (divS a b).extractLsb' 0 64 = a.sdiv b := by
  rw [← BitVec.setWidth_eq_extractLsb' (by decide), setWidth_divS]

theorem low_rem : (subS a (mulS b (divS a b))).extractLsb' 0 64 = a.srem b := by
  rw [← BitVec.setWidth_eq_extractLsb' (by decide), setWidth_subS_mulS]

theorem low_mulU : (mulU a b).setWidth 64 = a * b := by
  rw [mulU_eq, BitVec.setWidth_mul _ _ (by decide), BitVec.setWidth_setWidth_of_le _ (by decide),
    BitVec.setWidth_setWidth_of_le _ (by decide), BitVec.setWidth_eq, BitVec.setWidth_eq]

/-- The overflowing division, which the reference treats apart, gives the same. -/
theorem aluSwitch_div (op32 : Bool) : aluSwitch a b .div op32 =
    .ok (if b = 0 then 0xffffffffffffffff else a.sdiv b) := by
  have hmin : longMin.sdiv (-1) = longMin := by decide
  show (if b = 0 then _ else if a = longMin ∧ b = -1 then _ else _) = _
  split_ifs with h₀ h₁
  · rfl
  · rw [h₁.1, h₁.2, hmin]
  · rfl

theorem aluSwitch_rem (op32 : Bool) : aluSwitch a b .rem op32 = .ok (if b = 0 then a else a.srem b) := by
  have hmin : longMin.srem (-1) = 0 := by decide
  show (if b = 0 then _ else if a = longMin ∧ b = -1 then _ else _) = _
  split_ifs with h₀ h₁
  · rfl
  · rw [h₁.1, h₁.2, hmin]
  · rfl

theorem aluSwitch_divu : aluSwitch a b .divu false =
    .ok (if b = 0 then 0xffffffffffffffff else a / b) := by
  show (if b = 0 then _ else Except.ok (a / b)) = _
  split_ifs <;> rfl

theorem aluSwitch_remu : aluSwitch a b .remu false = .ok (if b = 0 then a else a % b) := by
  show (if b = 0 then _ else Except.ok (a % b)) = _
  split_ifs <;> rfl

end

/-- **A 64-bit operation of `alu_exec` is what the functional units compute.** -/
theorem aluExec_unit {op : AluOp} (hop : op ≠ .nop) (file : CSRRegFile) {d : IdExeData}
    (hv : d.info.valid = true) (hu : (d.info.fusel, d.info.op) = op.unit) :
    aluExec d.srcInfo.src1Data d.srcInfo.src2Data op false = .ok (fu file d).wdata := by
  obtain ⟨pc, ⟨valid, inst, fusel, iop, r1, a1, p1, r2, a2, imm, rw, rd, csr, ci, z⟩, ⟨a, b⟩, ex⟩ := d
  obtain rfl : valid = true := hv
  rw [aluExec_wide]
  cases op
  all_goals obtain ⟨rfl, rfl⟩ := Prod.mk.inj hu
  case nop => exact absurd rfl hop
  case sll => exact congrArg (fun s => Except.ok (a <<< s)) (shamt6 b)
  case srl => exact congrArg (fun s => Except.ok (a >>> s)) (shamt6 b)
  case sra => exact congrArg (fun s => Except.ok (a.sshiftRight s)) (shamt6 b)
  case mul => exact congrArg Except.ok (low_mulU a b).symm
  case mulh => exact congrArg (fun p : BitVec 128 => Except.ok (p.extractLsb' 64 64)) (mulS_eq a b).symm
  case mulhu =>
    exact congrArg (fun p : BitVec 128 => Except.ok (p.extractLsb' 64 64)) (mulU_eq a b).symm
  case mulhsu =>
    exact congrArg (fun p : BitVec 128 => Except.ok (p.extractLsb' 64 64)) (mulSU_eq a b).symm
  case div => rw [aluSwitch_div, ← low_divS]; rfl
  case divu => rw [aluSwitch_divu, ← divU_eq]; rfl
  case rem => rw [aluSwitch_rem, ← low_rem]; rfl
  case remu => rw [aluSwitch_remu, ← setWidth_remU]; rfl
  -- the other operations are the same term on both sides
  all_goals rfl

/-! ## 32-bit operations -/

theorem W_eq {n : ℕ} (x : BitVec n) : W x = (x.setWidth 32).signExtend 64 := by
  have h : x.extractLsb' 0 32 = x.setWidth 32 := by
    ext i hi
    simp
  exact (congrArg (fun y : BitVec 32 => fill 32 (y.getLsbD 31) ++ y) h).trans (cat_fill_msb 32 _)

theorem aluExec_narrow (a b : BitVec 64) (op : AluOp) :
    aluExec a b op true = (aluSwitch (sext32 a) (sext32 b) op true).map sext32 := by
  show (aluSwitch (sext32 a) (sext32 b) op true >>= fun r => .ok (sext32 r)) = _
  cases aluSwitch (sext32 a) (sext32 b) op true <;> rfl

section
variable (a b : BitVec 64)

theorem low_sext32 : (sext32 a).setWidth 32 = a.setWidth 32 := by
  rw [sext32, ← BitVec.signExtend_eq_setWidth_of_le _ (by decide),
    signExtend_signExtend _ (by decide), BitVec.signExtend_eq]

theorem extract_low (x : BitVec 64) : x.extractLsb' 0 32 = x.setWidth 32 :=
  (BitVec.setWidth_eq_extractLsb' (by decide)).symm

/-- Only the low words of the results matter. -/
theorem sext32_congr {x : BitVec 64} {n : ℕ} {y : BitVec n} (h : x.setWidth 32 = y.setWidth 32) :
    sext32 x = W y := by
  rw [sext32, W_eq, h]

theorem toInt_sext32 : (sext32 a).toInt = (a.setWidth 32).toInt :=
  BitVec.toInt_signExtend_of_le (by decide)

theorem sext32_eq_zero : sext32 b = 0 ↔ b.extractLsb' 0 32 = 0 := by
  rw [extract_low]
  constructor
  · intro h
    rw [← low_sext32, h]
    rfl
  · intro h
    rw [sext32, h]
    rfl

theorem shamt_sext32 : (sext32 b &&& 0x1f#64).toNat = (b.extractLsb' 0 5).toNat := by
  rw [shamt5]
  have h : ∀ x : BitVec 64, x.extractLsb' 0 5 = (x.setWidth 32).extractLsb' 0 5 := fun x =>
    (BitVec.extractLsb'_setWidth_of_le (by decide)).symm
  rw [h, h b, low_sext32]

theorem and_low (x : BitVec 64) : x &&& 0xffffffff#64 = zext32 x := by
  have h : (0xffffffff#64) = (BitVec.allOnes 32).setWidth 64 := by decide
  apply BitVec.eq_of_getLsbD_eq
  intro i hi
  rw [h, zext32, BitVec.getLsbD_and, BitVec.getLsbD_setWidth, BitVec.getLsbD_allOnes,
    BitVec.getLsbD_setWidth, BitVec.getLsbD_setWidth, Bool.and_comm]
  simp [hi]

theorem toNat_zext32 (x : BitVec 64) : (zext32 x).toNat = (x.setWidth 32).toNat :=
  BitVec.toNat_setWidth_of_le (by decide)

theorem low_sub (x y : BitVec 64) : (x - y).setWidth 32 = x.setWidth 32 - y.setWidth 32 := by
  rw [BitVec.sub_eq_add_neg, BitVec.setWidth_add _ _ (by decide),
    BitVec.setWidth_neg_of_le (by decide), ← BitVec.sub_eq_add_neg]

theorem low_sra (s : ℕ) : ((sext32 a).sshiftRight s).setWidth 32 = (a.setWidth 32).sshiftRight s := by
  show (BitVec.ofInt 64 ((sext32 a).toInt >>> s)).setWidth 32 = _
  rw [setWidth_ofInt (by decide), toInt_sext32]
  rfl

theorem low_srl (s : ℕ) :
    ((sext32 a &&& 0xffffffff#64) >>> s).setWidth 32 = a.setWidth 32 >>> s := by
  rw [and_low, zext32, low_sext32, ← BitVec.setWidth_ushiftRight (by decide),
    BitVec.setWidth_setWidth_of_le _ (by decide), BitVec.setWidth_eq]

theorem low_sdiv : ((sext32 a).sdiv (sext32 b)).setWidth 32 =
    (a.setWidth 32).sdiv (b.setWidth 32) := by
  rw [sdiv_eq_ofInt, sdiv_eq_ofInt, setWidth_ofInt (by decide), toInt_sext32, toInt_sext32]

theorem low_srem : ((sext32 a).srem (sext32 b)).setWidth 32 =
    (a.setWidth 32).srem (b.setWidth 32) := by
  rw [srem_eq_ofInt, srem_eq_ofInt, setWidth_ofInt (by decide), toInt_sext32, toInt_sext32]

theorem low_udiv : (zext32 (sext32 a) / zext32 (sext32 b)).setWidth 32 =
    a.setWidth 32 / b.setWidth 32 := by
  apply BitVec.eq_of_toNat_eq
  rw [BitVec.toNat_setWidth, BitVec.toNat_udiv, BitVec.toNat_udiv, toNat_zext32, toNat_zext32,
    low_sext32, low_sext32]
  exact Nat.mod_eq_of_lt (lt_of_le_of_lt (Nat.div_le_self _ _) (a.setWidth 32).isLt)

theorem low_umod : (zext32 (sext32 a) % zext32 (sext32 b)).setWidth 32 =
    a.setWidth 32 % b.setWidth 32 := by
  apply BitVec.eq_of_toNat_eq
  rw [BitVec.toNat_setWidth, BitVec.toNat_umod, BitVec.toNat_umod, toNat_zext32, toNat_zext32,
    low_sext32, low_sext32]
  exact Nat.mod_eq_of_lt (lt_of_le_of_lt (Nat.mod_le _ _) (a.setWidth 32).isLt)

/-- a 32-bit result that is a constant for a zero divisor -/
theorem sext32_ite {x y z : BitVec 64} {n : ℕ} {v : BitVec n} (hx : sext32 x = z)
    (hy : y.setWidth 32 = v.setWidth 32) :
    sext32 (if sext32 b = 0 then x else y) = if b.extractLsb' 0 32 = 0 then z else W v := by
  by_cases h : sext32 b = 0
  · rw [if_pos h, if_pos ((sext32_eq_zero b).mp h), hx]
  · rw [if_neg h, if_neg fun h' => h ((sext32_eq_zero b).mpr h'), sext32_congr hy]

end

/-- The operations that have a 32-bit form. -/
def AluOp.hasW (op : AluOp) : Bool := op.unitW != (.alu, ALUOpType.nop)

/-- **A 32-bit operation of `alu_exec` is what the functional units compute.** -/
theorem aluExec_unitW {op : AluOp} (hop : op.hasW = true) (file : CSRRegFile) {d : IdExeData}
    (hv : d.info.valid = true) (hu : (d.info.fusel, d.info.op) = op.unitW) :
    aluExec d.srcInfo.src1Data d.srcInfo.src2Data op true = .ok (fu file d).wdata := by
  obtain ⟨pc, ⟨valid, inst, fusel, iop, r1, a1, p1, r2, a2, imm, rw, rd, csr, ci, z⟩, ⟨a, b⟩, ex⟩ := d
  obtain rfl : valid = true := hv
  have hneg : sext32 (0xffffffffffffffff : BitVec 64) = 0xffffffffffffffff := by decide
  have hself : sext32 (sext32 a) = W (a.extractLsb' 0 32) :=
    sext32_congr (by rw [low_sext32, extract_low, BitVec.setWidth_eq])
  rw [aluExec_narrow]
  cases op
  all_goals obtain ⟨rfl, rfl⟩ := Prod.mk.inj hu
  case add =>
    refine congrArg Except.ok (sext32_congr ?_)
    rw [BitVec.setWidth_add _ _ (by decide), low_sext32, low_sext32,
      ← BitVec.setWidth_add _ _ (by decide)]
  case sub =>
    refine congrArg Except.ok (sext32_congr ?_)
    rw [low_sub, low_sext32, low_sext32, ← low_sub]
  case sll =>
    have hs : sext32 (sext32 a <<< (sext32 b &&& 0x1f#64).toNat) = W (a <<< b.extractLsb' 0 5) := by
      refine sext32_congr ?_
      rw [shamt_sext32, BitVec.setWidth_shiftLeft_of_le (by decide), low_sext32]
      exact (BitVec.setWidth_shiftLeft_of_le (by decide)).symm
    exact congrArg Except.ok hs
  case srl =>
    have hs : sext32 ((sext32 a &&& 0xffffffff#64) >>> (sext32 b &&& 0x1f#64).toNat) =
        W (a.extractLsb' 0 32 >>> b.extractLsb' 0 5) := by
      refine sext32_congr ?_
      rw [low_srl, shamt_sext32, extract_low, BitVec.setWidth_eq]
      rfl
    exact congrArg Except.ok hs
  case sra =>
    have hs : sext32 ((sext32 a).sshiftRight (sext32 b &&& 0x1f#64).toNat) =
        W ((a.extractLsb' 0 32).sshiftRight' (b.extractLsb' 0 5)) := by
      refine sext32_congr ?_
      rw [low_sra, shamt_sext32, extract_low, BitVec.setWidth_eq]
      rfl
    exact congrArg Except.ok hs
  case mul =>
    have hs : sext32 (sext32 a * sext32 b) = W (mulU a b) := by
      refine sext32_congr ?_
      have hm : (mulU a b).setWidth 32 = ((mulU a b).setWidth 64).setWidth 32 :=
        (BitVec.setWidth_setWidth_of_le _ (by decide)).symm
      rw [hm, low_mulU, BitVec.setWidth_mul _ _ (by decide), low_sext32, low_sext32,
        BitVec.setWidth_mul _ _ (by decide)]
    exact congrArg Except.ok hs
  case div =>
    rw [aluSwitch_div]
    refine congrArg Except.ok (sext32_ite b hneg ?_)
    rw [low_sdiv, setWidth_divS, extract_low, extract_low]
  case divu =>
    have hs : aluSwitch (sext32 a) (sext32 b) .divu true = .ok (if sext32 b = 0 then
        0xffffffffffffffff else zext32 (sext32 a) / zext32 (sext32 b)) := by
      show (if sext32 b = 0 then _ else Except.ok (zext32 (sext32 a) / zext32 (sext32 b))) = _
      split_ifs <;> rfl
    rw [hs]
    refine congrArg Except.ok (sext32_ite b hneg ?_)
    rw [low_udiv, divU_eq, BitVec.setWidth_eq, extract_low, extract_low]
  case rem =>
    rw [aluSwitch_rem]
    refine congrArg Except.ok (sext32_ite b hself ?_)
    rw [low_srem, setWidth_remS, extract_low, extract_low]
  case remu =>
    have hs : aluSwitch (sext32 a) (sext32 b) .remu true = .ok (if sext32 b = 0 then
        sext32 a else zext32 (sext32 a) % zext32 (sext32 b)) := by
      show (if sext32 b = 0 then _ else Except.ok (zext32 (sext32 a) % zext32 (sext32 b))) = _
      split_ifs <;> rfl
    rw [hs]
    refine congrArg Except.ok (sext32_ite b hself ?_)
    rw [low_umod, setWidth_remU, extract_low, extract_low]
  all_goals exact absurd hop (by decide)

/-! ## shift amounts of the immediate forms -/

theorem shamt_and (b : BitVec 64) : (b &&& 0x3f#64) &&& 0x3f#64 = b &&& 0x3f#64 := by
  rw [BitVec.and_assoc, BitVec.and_self]

theorem shamt_sext32_and (b : BitVec 64) :
    (sext32 (b &&& 0x3f#64) &&& 0x1f#64).toNat = (sext32 b &&& 0x1f#64).toNat := by
  have h : (0x3f#64).extractLsb' 0 5 = BitVec.allOnes 5 := by decide
  rw [shamt_sext32, shamt_sext32, BitVec.extractLsb'_and, h, BitVec.and_allOnes]

/-- A right shift looks at the low bits of its second operand only. -/
theorem aluExec_srl (a b : BitVec 64) (op32 : Bool) :
    aluExec a (b &&& 0x3f#64) .srl op32 = aluExec a b .srl op32 := by
  cases op32 with
  | false =>
    rw [aluExec_wide, aluExec_wide]
    exact congrArg (fun s : BitVec 64 => Except.ok (a >>> s.toNat)) (shamt_and b)
  | true =>
    rw [aluExec_narrow, aluExec_narrow]
    exact congrArg (fun s : ℕ => Except.ok (sext32 ((sext32 a &&& 0xffffffff#64) >>> s)))
      (shamt_sext32_and b)

theorem aluExec_sra (a b : BitVec 64) (op32 : Bool) :
    aluExec a (b &&& 0x3f#64) .sra op32 = aluExec a b .sra op32 := by
  cases op32 with
  | false =>
    rw [aluExec_wide, aluExec_wide]
    exact congrArg (fun s : BitVec 64 => Except.ok (a.sshiftRight s.toNat)) (shamt_and b)
  | true =>
    rw [aluExec_narrow, aluExec_narrow]
    exact congrArg (fun s : ℕ => Except.ok (sext32 ((sext32 a).sshiftRight s)))
      (shamt_sext32_and b)

section
variable {a imm : BitVec 64} {op32 : Bool} {x y : Option AluOp × BitVec 64}

/-- The second operand of the reference gives the result that `imm` gives. -/
def ImmServes (a imm : BitVec 64) (op32 : Bool) (x : Option AluOp × BitVec 64) : Prop :=
  ∀ op, x.1 = some op → aluExec a x.2 op op32 = aluExec a imm op op32

theorem immServes_ite {p : Prop} [Decidable p] (hx : ImmServes a imm op32 x)
    (hy : ImmServes a imm op32 y) : ImmServes a imm op32 (if p then x else y) := by
  by_cases hp : p
  · rwa [if_pos hp]
  · rwa [if_neg hp]

theorem immServes_self (o : Option AluOp) : ImmServes a imm op32 (o, imm) := fun _ _ => rfl

/-- The reference masks the amount of a right shift. -/
theorem immServes_shift (p q : Prop) [Decidable p] [Decidable q] : ImmServes a imm op32
    (if p then none else some (if q then .sra else .srl), imm &&& 0x3f#64) := by
  intro op h
  by_cases hp : p
  · rw [if_pos hp] at h
    cases h
  · rw [if_neg hp] at h
    obtain rfl := Option.some.inj h
    by_cases hq : q
    · rw [if_pos hq]
      exact aluExec_sra _ _ _
    · rw [if_neg hq]
      exact aluExec_srl _ _ _

theorem opImmKind_serves (w : BitVec 32) :
    ImmServes a ((RvInstr.imm12 w).signExtend 64) false (RvCore.opImmKind w) := by
  unfold RvCore.opImmKind
  repeat' apply immServes_ite
  all_goals first | exact immServes_shift _ _ | exact immServes_self _

theorem opImm32Kind_serves (w : BitVec 32) :
    ImmServes a ((RvInstr.imm12 w).signExtend 64) true (RvCore.opImm32Kind w) := by
  unfold RvCore.opImm32Kind
  repeat' apply immServes_ite
  all_goals first | exact immServes_shift _ _ | exact immServes_self _

theorem opImm32Kind_hasW {w : BitVec 32} {op : AluOp}
    (h : (RvCore.opImm32Kind w).1 = some op) : op.hasW = true := by
  unfold RvCore.opImm32Kind at h
  simp only [apply_ite Prod.fst] at h
  split_ifs at h
  all_goals cases h
  all_goals rfl

end

theorem opKind_ne_nop {f7 : BitVec 7} {f3 : BitVec 3} {op : AluOp}
    (h : RvCore.opKind f7 f3 = some op) : op ≠ .nop := by
  rintro rfl
  exact RvCore.opKind_ne_nop f7 f3 h

theorem op32Kind_hasW {f7 : BitVec 7} {f3 : BitVec 3} {op : AluOp}
    (h : RvCore.op32Kind f7 f3 = some op) : op.hasW = true := by
  have key : ∀ f7 f3, (RvCore.op32Kind f7 f3).all AluOp.hasW = true := by decide +kernel
  have hk := key f7 f3
  rwa [h] at hk

/-! ## words -/

/-- the opcodes of integer computation -/
def computeOpcodes : List (BitVec 7) :=
  [Opcode.OP, Opcode.OP32, Opcode.OPIMM, Opcode.OPIMM32, Opcode.LUI, Opcode.AUIPC]

section
variable {δ : Type} (c : RvCore δ) (file : CSRRegFile)

variable {w : BitVec 32} {t : InstrType} {op : AluOp} {b : BitVec 64}

/-- An operation of `alu_exec` on the operands of the slot. -/
theorem computed_slot (op32 : Bool) (hd : decodeOf w = (t, if op32 then op.unitW else op.unit))
    (hop : if op32 then op.hasW = true else op ≠ .nop) (ht : (t != .U && t != .J) = true)
    (hb : aluExec (c.GPR (RvInstr.rs1 w)) b op op32 =
      aluExec (c.GPR (RvInstr.rs1 w)) ((c.toArch file).slot w).srcInfo.src2Data op op32) :
    c.computed w (some op) b op32 = (c.setGPR ((c.toArch file).slot w).info.regWaddr
      (fu file ((c.toArch file).slot w)).wdata).done := by
  have hf : (if op32 then op.unitW else op.unit).1 ≠ .csr := by
    cases op32 <;> cases op <;> decide
  have h₁ := (c.toArch file).slot_src1 hd hf
  rw [if_pos ht] at h₁
  have hu : (((c.toArch file).slot w).info.fusel, ((c.toArch file).slot w).info.op) =
      if op32 then op.unitW else op.unit :=
    Prod.ext ((c.toArch file).slot_fusel hd) ((c.toArch file).slot_op hd)
  have hx : aluExec (c.GPR (RvInstr.rs1 w)) b op op32 =
      .ok (fu file ((c.toArch file).slot w)).wdata := by
    rw [hb, show c.GPR (RvInstr.rs1 w) = _ from h₁.symm]
    cases op32 with
    | false => exact aluExec_unit hop file rfl hu
    | true => exact aluExec_unitW hop file rfl hu
  unfold RvCore.computed
  simp only [hx]
  rfl

theorem slot_regWen_of_row {u : FuType × BitVec 5} (hd : decodeOf w = (t, u))
    (ht : (t != .S && t != .B) = true) (hu : u ≠ (.alu, ALUOpType.nop)) :
    ((c.toArch file).slot w).info.regWen = true := by
  obtain ⟨f, o⟩ := u
  rw [Arch.slot_regWen _ hd, ht, Bool.true_and, Bool.not_eq_true', Bool.and_eq_false_iff]
  by_cases hf : f = .alu
  · subst hf
    right
    exact beq_eq_false_iff_ne.mpr fun ho => hu (by rw [ho])
  · left
    exact beq_eq_false_iff_ne.mpr hf

/-- `lui` and `auipc` are additions, to zero and to the pc. -/
theorem upper_slot (hd : decodeOf w = (.U, .alu, ALUOpType.add)) :
    (fu file ((c.toArch file).slot w)).wdata =
      (if RV32I_ALUInstr.AUIPC.hit w then c.pc else 0) + RvInstr.immU w := by
  have hx := @aluExec_unit .add (by decide) file ((c.toArch file).slot w) rfl
    (Prod.ext ((c.toArch file).slot_fusel hd) ((c.toArch file).slot_op hd))
  have h₁ := (c.toArch file).slot_src1 hd (by decide)
  have h₂ := (c.toArch file).slot_src2 hd
  rw [if_neg (by decide), show (InstrType.U == .J) = false from rfl, Bool.or_false] at h₁
  rw [if_neg (by decide), immOf_U] at h₂
  rw [h₁, h₂] at hx
  exact (Except.ok.inj hx).symm

theorem unit_ne_nop {op : AluOp} (h : op ≠ .nop) : op.unit ≠ (.alu, ALUOpType.nop) := by
  revert h
  cases op <;> decide

section
variable [MmioDev δ] (flags : Flags)

/-- both sides write the result of the functional unit to the same register -/
def WritesSame (w : BitVec 32) : Prop :=
  ((c.toArch file).slot w).info.regWen = true ∧
    c.decodeExec flags w = ({ c with debugInst := w }.setGPR
      ((c.toArch file).slot w).info.regWaddr (fu file ((c.toArch file).slot w)).wdata).done

omit [MmioDev δ] in
/-- The two register files are written in the same way. -/
theorem setGPR_write (rd : BitVec 5) (v : BitVec 64) :
    (c.setGPR rd v).GPR = ARegFile.write c.GPR true rd v := by
  by_cases h : rd = 0
  · rw [h]
    rfl
  · have hne : (rd != 0) = true := bne_iff_ne.mpr h
    show (if rd != 0 then Function.update c.GPR rd v else c.GPR) = _
    rw [ARegFile.write, hne]
    rfl

theorem writesSame_op (h : opcodeOf w = Opcode.OP) (hv : (decoder w).valid = true) :
    WritesSame c file flags w := by
  obtain ⟨u, hu⟩ := row_of_valid (decodeOf_op h) hv
  obtain ⟨op, hk, rfl⟩ := Option.map_eq_some_iff.mp hu
  have hd : decodeOf w = (.R, op.unit) := by rw [decodeOf_op h, hu]; rfl
  have hn := opKind_ne_nop hk
  refine ⟨slot_regWen_of_row c file hd (by decide) (unit_ne_nop hn), ?_⟩
  rw [decodeExec_op c flags h, RvCore.op, funct7_eq, funct3_eq, hk]
  refine computed_slot { c with debugInst := w } file false hd hn (by decide) ?_
  rw [Arch.slot_src2 _ hd]
  rfl

theorem writesSame_op32 (h : opcodeOf w = Opcode.OP32) (hv : (decoder w).valid = true) :
    WritesSame c file flags w := by
  obtain ⟨u, hu⟩ := row_of_valid (decodeOf_op32 h) hv
  obtain ⟨op, hk, rfl⟩ := Option.map_eq_some_iff.mp hu
  have hd : decodeOf w = (.R, op.unitW) := by rw [decodeOf_op32 h, hu]; rfl
  have hn := op32Kind_hasW hk
  refine ⟨slot_regWen_of_row c file hd (by decide) (bne_iff_ne.mp hn), ?_⟩
  rw [decodeExec_op32 c flags h, RvCore.op32, funct7_eq, funct3_eq, hk]
  refine computed_slot { c with debugInst := w } file true hd hn (by decide) ?_
  rw [Arch.slot_src2 _ hd]
  rfl

/-- The words of `looseShift` are rejected. -/
theorem writesSame_opImm (h : opcodeOf w = Opcode.OPIMM) (hv : (decoder w).valid = true) :
    WritesSame c file flags w := by
  have hrow : decodeOf w = rowOf .I ((RvCore.opImmKind w).1.map AluOp.unit) := by
    rw [decodeOf_opImm h, if_neg]
    intro hl
    rw [decoder_valid_row, decodeOf_opImm h, if_pos hl] at hv
    have hn : (decodeDefault.1 != .N) = true := hv
    exact absurd hn (by decide)
  obtain ⟨u, hu⟩ := row_of_valid hrow hv
  obtain ⟨op, hk, rfl⟩ := Option.map_eq_some_iff.mp hu
  have hd : decodeOf w = (.I, op.unit) := by rw [hrow, hu]; rfl
  have hn : op ≠ .nop := by
    rintro rfl
    exact RvCore.opImmKind_ne_nop w hk
  refine ⟨slot_regWen_of_row c file hd (by decide) (unit_ne_nop hn), ?_⟩
  rw [decodeExec_opImm c flags h, RvCore.opImm, hk]
  refine computed_slot { c with debugInst := w } file false hd hn (by decide) ?_
  rw [Arch.slot_src2 _ hd, if_neg (by decide), immOf_I]
  exact opImmKind_serves w op hk

theorem writesSame_opImm32 (h : opcodeOf w = Opcode.OPIMM32) (hv : (decoder w).valid = true) :
    WritesSame c file flags w := by
  obtain ⟨u, hu⟩ := row_of_valid (decodeOf_opImm32 h) hv
  obtain ⟨op, hk, rfl⟩ := Option.map_eq_some_iff.mp hu
  have hd : decodeOf w = (.I, op.unitW) := by rw [decodeOf_opImm32 h, hu]; rfl
  have hn := opImm32Kind_hasW hk
  refine ⟨slot_regWen_of_row c file hd (by decide) (bne_iff_ne.mp hn), ?_⟩
  rw [decodeExec_opImm32 c flags h, RvCore.opImm32, hk]
  refine computed_slot { c with debugInst := w } file true hd hn (by decide) ?_
  rw [Arch.slot_src2 _ hd, if_neg (by decide), immOf_I]
  exact opImm32Kind_serves w op hk

/-- The first operand is zero. -/
theorem writesSame_lui (h : opcodeOf w = Opcode.LUI) : WritesSame c file flags w := by
  have hd := decodeOf_lui h
  have ha : RV32I_ALUInstr.AUIPC.hit w = false := by
    rw [RV32I_ALUInstr.AUIPC, hit_opPat, h]
    decide
  refine ⟨slot_regWen_of_row c file hd (by decide) (by decide), ?_⟩
  rw [decodeExec_lui c flags h, upper_slot c file hd, ha, if_neg Bool.false_ne_true, zero_add]
  rfl

theorem writesSame_auipc (h : opcodeOf w = Opcode.AUIPC) : WritesSame c file flags w := by
  have hd := decodeOf_auipc h
  have ha : RV32I_ALUInstr.AUIPC.hit w = true := by
    rw [RV32I_ALUInstr.AUIPC, hit_opPat, h]
    decide
  refine ⟨slot_regWen_of_row c file hd (by decide) (by decide), ?_⟩
  rw [decodeExec_auipc c flags h, upper_slot c file hd, ha, if_pos rfl, BitVec.add_comm]
  rfl

end

/-- **Every accepted word of integer computation writes the same value to the same register**: the
state of the reference after it has the register and the value of the functional unit in its debug
fields, and the value in the register unless that is `x0`. -/
theorem integer_lockstep [MmioDev δ] (flags : Flags) (ho : opcodeOf w ∈ computeOpcodes)
    (hv : (decoder w).valid = true) :
    ((c.toArch file).slot w).info.regWen = true ∧
      c.decodeExec flags w = ({ c with debugInst := w }.setGPR
        ((c.toArch file).slot w).info.regWaddr (fu file ((c.toArch file).slot w)).wdata).done ∧
      ∃ e, c.decodeExec flags w = .ok e ∧ e.ri = false ∧ e.newPc = false ∧
        e.core.pc = c.pc ∧ e.core.priv = c.priv ∧
        e.core.debugRegNum = ((c.toArch file).slot w).info.regWaddr.setWidth 64 ∧
        e.core.debugRegWdata = (fu file ((c.toArch file).slot w)).wdata ∧
        e.core.GPR = ARegFile.write c.GPR true ((c.toArch file).slot w).info.regWaddr
          (fu file ((c.toArch file).slot w)).wdata := by
  suffices hs : WritesSame c file flags w from
    ⟨hs.1, hs.2, _, hs.2, rfl, rfl, rfl, rfl, rfl, rfl, setGPR_write _ _ _⟩
  simp only [computeOpcodes, List.mem_cons, List.not_mem_nil, or_false] at ho
  rcases ho with h | h | h | h | h | h
  · exact writesSame_op c file flags h hv
  · exact writesSame_op32 c file flags h hv
  · exact writesSame_opImm c file flags h hv
  · exact writesSame_opImm32 c file flags h hv
  · exact writesSame_lui c file flags h
  · exact writesSame_auipc c file flags h

end

/-- `mulh x1, x2, x3` of -1 and 2 -/
theorem integer_lockstep_mulh :
    let c := freshCore fun r => if r = 2 then 0xffffffffffffffff else if r = 3 then 2 else 0
    c.decodeExec plainFlags 0x023110b3 =
      ({ c with debugInst := 0x023110b3 }.setGPR 1 0xffffffffffffffff).done ∧
    ∃ e, c.decodeExec plainFlags 0x023110b3 = .ok e ∧ e.core.debugRegNum = 1 ∧
      e.core.debugRegWdata = 0xffffffffffffffff ∧ e.core.GPR 1 = 0xffffffffffffffff := by
  intro c
  obtain ⟨-, h, e, he, -, -, -, -, hnum, hdata, hgpr⟩ := integer_lockstep c .reset plainFlags
    (w := 0x023110b3) (by decide) (by decide +kernel)
  have hv : (fu .reset ((c.toArch .reset).slot 0x023110b3)).wdata = 0xffffffffffffffff := by
    decide +kernel
  have hrd : ((c.toArch .reset).slot 0x023110b3).info.regWaddr = 1 := by decide +kernel
  rw [hrd] at h hnum hgpr
  rw [hv] at h hdata hgpr
  exact ⟨h, e, he, hnum, hdata, congrFun hgpr 1⟩

end HduCpu
