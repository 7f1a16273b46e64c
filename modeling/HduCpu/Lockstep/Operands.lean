import HduCpu.Cpu.Stages
import HduCpu.Lockstep.Decode

/-!
# Operands

The two immediate generators agree for every instruction type, and the operands that decoding
selects are those that the reference reads, when no later stage holds an instruction.

* `immOf_I`, `immOf_U`, `immOf_S`, `immOf_B`, `immOf_J`   the immediates;
* `Arch.slot_fusel`, `slot_op`, `slot_imm`, `slot_regWen`   the decoded word, from its table row;
* `Arch.slot_src1`, `Arch.slot_src2`   its operands;
* `raise_taken`            the reference enters a trap with its cause and value.
-/

namespace HduCpu

/-! ## immediates -/

theorem signExtend_signExtend {m v w : ℕ} (x : BitVec m) (h : m ≤ v) :
    (x.signExtend v).signExtend w = x.signExtend w := by
  show BitVec.ofInt w (x.signExtend v).toInt = BitVec.ofInt w x.toInt
  rw [BitVec.toInt_signExtend_of_le h]

section
variable (w : BitVec 32)

theorem immOf_I : immOf .I w = (RvInstr.imm12 w).signExtend 64 := by
  rw [RvInstr.imm12, signExtend_signExtend _ (by decide)]
  exact cat_fill_msb 52 (w.extractLsb' 20 12)

theorem immOf_U : immOf .U w = RvInstr.immU w := by
  rw [RvInstr.immU, signExtend_shift _ _ (by decide)]
  exact cat_fill_msb 32 (w.extractLsb' 12 20 ++ 0#12 : BitVec 32)

theorem immOf_S : immOf .S w = (RvInstr.immS w).signExtend 64 := by
  have h : RvInstr.immS w = (w.extractLsb' 25 7 ++ w.extractLsb' 7 5).signExtend 32 := by
    have hs := signExtend_shift_or (w := 32) (w.extractLsb' 25 7) (w.extractLsb' 7 5) 0 (by decide)
    simpa [RvInstr.immS] using hs
  rw [h, signExtend_signExtend _ (by decide)]
  exact cat_fill_msb 52 (w.extractLsb' 25 7 ++ w.extractLsb' 7 5 : BitVec 12)

theorem immOf_B : immOf .B w = (RvInstr.immB w).signExtend 64 := by
  have h : RvInstr.immB w = (((w.extractLsb' 31 1 ++ w.extractLsb' 7 1) ++
      (w.extractLsb' 25 6 ++ w.extractLsb' 8 4)) ++ 0#1 : BitVec 13).signExtend 32 := by
    rw [RvInstr.immB]
    have h₁ := signExtend_shift_or (w := 32) (w.extractLsb' 31 1) (w.extractLsb' 7 1) 11 (by decide)
    have h₂ := signExtend_shift_or (w := 32) (w.extractLsb' 31 1 ++ w.extractLsb' 7 1)
      (w.extractLsb' 25 6) 5 (by decide)
    have h₃ := signExtend_shift_or (w := 32) ((w.extractLsb' 31 1 ++ w.extractLsb' 7 1) ++
      w.extractLsb' 25 6) (w.extractLsb' 8 4) 1 (by decide)
    have h₄ : ((w.extractLsb' 31 1 ++ w.extractLsb' 7 1) ++ w.extractLsb' 25 6) ++
        w.extractLsb' 8 4 = ((w.extractLsb' 31 1 ++ w.extractLsb' 7 1) ++
          (w.extractLsb' 25 6 ++ w.extractLsb' 8 4) : BitVec 12) := by
      rw [BitVec.append_assoc]
      rfl
    rw [h₁, h₂, h₃, signExtend_shift _ _ (by decide), ← h₄]
  rw [h, signExtend_signExtend _ (by decide)]
  exact cat_fill_msb 51 _

theorem immOf_J : immOf .J w = (RvInstr.immJ w).signExtend 64 := by
  have h : RvInstr.immJ w = (((w.extractLsb' 31 1 ++ w.extractLsb' 12 8) ++
      (w.extractLsb' 20 1 ++ w.extractLsb' 21 10)) ++ 0#1 : BitVec 21).signExtend 32 := by
    rw [RvInstr.immJ]
    have h₁ := signExtend_shift_or (w := 32) (w.extractLsb' 31 1) (w.extractLsb' 12 8) 12
      (by decide)
    have h₂ := signExtend_shift_or (w := 32) (w.extractLsb' 31 1 ++ w.extractLsb' 12 8)
      (w.extractLsb' 20 1) 11 (by decide)
    have h₃ := signExtend_shift_or (w := 32) ((w.extractLsb' 31 1 ++ w.extractLsb' 12 8) ++
      w.extractLsb' 20 1) (w.extractLsb' 21 10) 1 (by decide)
    have h₄ : ((w.extractLsb' 31 1 ++ w.extractLsb' 12 8) ++ w.extractLsb' 20 1) ++
        w.extractLsb' 21 10 = ((w.extractLsb' 31 1 ++ w.extractLsb' 12 8) ++
          (w.extractLsb' 20 1 ++ w.extractLsb' 21 10) : BitVec 20) := by
      rw [BitVec.append_assoc]
      rfl
    rw [h₁, h₂, h₃, signExtend_shift _ _ (by decide), ← h₄]
  rw [h, signExtend_signExtend _ (by decide)]
  have hc := cat_fill_msb 44 (((w.extractLsb' 31 1 ++ w.extractLsb' 12 8) ++
    (w.extractLsb' 20 1 ++ w.extractLsb' 21 10)) ++ 0#1 : BitVec 21)
  exact (congrArg _ hc).trans (setWidth_ofInt (by decide) _)

end

/-! ## the decoded slot -/

namespace Arch
section
variable (a : Arch) {w : BitVec 32} {t : InstrType} {f : FuType} {op : BitVec 5}

theorem slot_valid : (a.slot w).info.valid = true := rfl

theorem slot_rd : (a.slot w).info.regWaddr = RvInstr.rd w := rfl

theorem slot_ex (hv : (decoder w).valid = true) (hp : a.pc.extractLsb' 0 2 = 0) :
    (a.slot w).ex = .none := by
  show decodeEx true (decoder w).valid a.pc w = .none
  rw [hv]
  simp [decodeEx, hp]

variable (hd : decodeOf w = (t, f, op))
include hd

theorem slot_fusel : (a.slot w).info.fusel = f := congrArg (fun r => r.2.1) hd

theorem slot_op : (a.slot w).info.op = op := congrArg (fun r => r.2.2) hd

theorem slot_imm : (a.slot w).info.imm = immOf t w := by
  show immOf (decodeOf w).1 w = _
  rw [hd]

theorem slot_regWen : (a.slot w).info.regWen =
    (t != .S && t != .B && !(f == .alu && op == ALUOpType.nop)) := by
  show ((decodeOf w).1 != .S && (decodeOf w).1 != .B &&
    !((decodeOf w).2.1 == .alu && (decodeOf w).2.2 == ALUOpType.nop)) = _
  rw [hd]

theorem slot_src1 (hf : f ≠ .csr) : (a.slot w).srcInfo.src1Data =
    if t != .U && t != .J then a.regs (RvInstr.rs1 w)
    else if RV32I_ALUInstr.AUIPC.hit w || t == .J then a.pc else 0 := by
  have hc : (decoder w).isCsri = false := by
    show ((decodeOf w).2.1 == .csr && _) = false
    rw [hd, beq_eq_false_iff_ne.mpr hf, Bool.false_and]
  have hr : (decoder w).src1Ren = (t != .U && t != .J) := by
    show ((decodeOf w).1 != .U && (decodeOf w).1 != .J) = _
    rw [hd]
  have hp : (decoder w).src1Pcen = (RV32I_ALUInstr.AUIPC.hit w || t == .J) := by
    show (_ || (decodeOf w).1 == .J) = _
    rw [hd]
  have hn : ∀ r : Info, conflict1 r Bypass.none.info = false := fun r => by
    simp [conflict1, Bypass.none, Info.zero]
  show src1Data { decoder w with valid := true } a.pc a.regs .none .none .none = _
  simp only [src1Data, muxCase_cons, muxCase_nil, hn, hc, hr, hp, Bool.false_eq_true, if_false]
  rfl

theorem slot_src2 : (a.slot w).srcInfo.src2Data =
    if t != .I && t != .U && t != .J then a.regs (RvInstr.rs2 w) else immOf t w := by
  have hr : (decoder w).src2Ren = (t != .I && t != .U && t != .J) := by
    show ((decodeOf w).1 != .I && (decodeOf w).1 != .U && (decodeOf w).1 != .J) = _
    rw [hd]
  have hi : (decoder w).imm = immOf t w := by
    show immOf (decodeOf w).1 w = _
    rw [hd]
  have hn : ∀ r : Info, conflict2 r Bypass.none.info = false := fun r => by
    simp [conflict2, Bypass.none, Info.zero]
  show src2Data { decoder w with valid := true } a.regs .none .none .none = _
  simp only [src2Data, muxCase_cons, muxCase_nil, hn, hr, hi, Bool.false_eq_true, if_false]
  rfl

end
end Arch

/-- the state of the processor with the pc and the registers of the reference -/
def RvCore.toArch {δ : Type} (c : RvCore δ) (file : CSRRegFile) : Arch := ⟨c.pc, c.GPR, file⟩

/-- a word that is accepted is in a row of the table -/
theorem row_of_valid {w : BitVec 32} {t : InstrType} {o : Option (FuType × BitVec 5)}
    (hd : decodeOf w = rowOf t o) (hv : (decoder w).valid = true) : ∃ u, o = some u := by
  cases o with
  | none =>
    rw [decoder_valid_row, hd] at hv
    have hn : (decodeDefault.1 != .N) = true := hv
    exact absurd hn (by decide)
  | some u => exact ⟨u, rfl⟩

/-! ## traps of the reference -/

/-- the cause and the value of a trap that has been entered -/
def RvPriv.trapTaken (p : RvPriv) : Option (BitVec 64 × BitVec 64) :=
  if p.curNeedTrap then
    some (if p.nextPriv = PrivMode.M_MODE then (p.mcause, p.mtval) else (p.scause, p.stval))
  else none

theorem causeDef_exc {code : RvExcCode} (h : code.getLsbD 63 = false) :
    (CauseDef.exc code).toBits = code ∧ (code.setWidth 63).setWidth 64 = code := by
  constructor
  · apply BitVec.eq_of_getLsbD_eq
    intro i hi
    show (BitVec.ofBool false ++ code.setWidth 63).getLsbD i = _
    rw [BitVec.getLsbD_append, BitVec.getLsbD_setWidth]
    by_cases h63 : i < 63
    · simp [h63]
    · obtain rfl : i = 63 := by omega
      rw [h]
      simp
  · apply BitVec.eq_of_getLsbD_eq
    intro i hi
    rw [BitVec.getLsbD_setWidth, BitVec.getLsbD_setWidth]
    by_cases h63 : i < 63
    · simp [h63, hi]
    · obtain rfl : i = 63 := by omega
      rw [h]
      simp

/-- **The first trap of an instruction is entered with its cause and value.** -/
theorem raise_taken {δ : Type} {c : RvCore δ} (hn : c.priv.curNeedTrap = false) (code : RvExcCode)
    (hc : code ≠ RvExcCode.instrPgfault) (hcode : code.getLsbD 63 = false) (tval : BitVec 64) :
    ∃ p, c.raise code tval = .ok { c with priv := p } ∧ p.trapTaken = some (code, tval) := by
  obtain ⟨hbits, hw⟩ := causeDef_exc hcode
  have hne : (code == RvExcCode.instrPgfault) = false := beq_eq_false_iff_ne.mpr hc
  refine ⟨if c.priv.trapToS (.exc code) then c.priv.enterS c.pc (.exc code) tval
    else c.priv.enterM c.pc (.exc code) tval, ?_, ?_⟩
  · unfold RvCore.raise RvPriv.raiseTrap
    simp only [hn, CauseDef.exc, hw, hne, Bool.false_and, assertThat]
    rfl
  · split
    · exact congrArg (fun x => some (x, tval)) hbits
    · exact congrArg (fun x => some (x, tval)) hbits

end HduCpu
