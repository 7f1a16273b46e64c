import HduCpu.Lockstep.Operands

/-!
# Control transfer

Branches and jumps end in one of two ways, and both sides are read as one of them.

* `Transfer`               a misaligned target, or a next pc and the registers;
* `cpuTransfer`            what Decoder, DecodeUnit and Bru make of a word;
* `RvCore.transfer`        what the reference makes of it;
* `transfer_lockstep_iff`  they agree except for `jalr` with an odd base register.
-/

namespace HduCpu

/-- the end of a branch or a jump -/
inductive Transfer where
  | misaligned (tval : BitVec 64)
  | goes (taken : Bool) (nextPc : BitVec 64) (regs : ARegFile)

/-- The end of a slot; the exception is the only one that a decoded word at an aligned pc has. -/
def slotTransfer (file : CSRRegFile) (regs : ARegFile) (d : IdExeData) : Transfer :=
  let out := fu file d
  if out.newEx.exception instAddrMisaligned then .misaligned (out.newEx.tval instAddrMisaligned)
  else .goes out.ftcInfo.flush (if out.ftcInfo.flush then out.ftcInfo.target else d.pc + 4)
    (regs.write d.info.regWen d.info.regWaddr out.wdata)

def cpuTransfer (a : Arch) (w : BitVec 32) : Transfer := slotTransfer a.csr a.regs (a.slot w)

/-- the end of an instruction of the reference; `none` when it ends in another way -/
def endOf {δ : Type} (w : BitVec 32) : Except Halt (ExecState δ) → Option Transfer
  | .error _ => none
  | .ok e => match e.settle w (RvCore.isRvc w) with
    | .error _ => none
    | .ok c' => match c'.priv.trapTaken with
      | none => some (.goes e.newPc c'.pc c'.GPR)
      | some (cause, tval) =>
        if cause = RvExcCode.instrMisalign then some (.misaligned tval) else none

def RvCore.transfer {δ : Type} [MmioDev δ] (c : RvCore δ) (flags : Flags) (w : BitVec 32) :
    Option Transfer :=
  endOf w (c.decodeExec flags w)

/-! ## both sides as jumps -/

/-- a jump to `npc` with a register write -/
def jumpEnd (regs : ARegFile) (wen : Bool) (rd : BitVec 5) (link npc : BitVec 64) : Transfer :=
  if npc.extractLsb' 0 2 != 0 then .misaligned npc else .goes true npc (regs.write wen rd link)

/-- Jumps with different targets end differently. -/
theorem jumpEnd_inj {regs : ARegFile} {wen : Bool} {rd : BitVec 5} {link npc npc' : BitVec 64}
    (h : jumpEnd regs wen rd link npc = jumpEnd regs wen rd link npc') : npc = npc' := by
  unfold jumpEnd at h
  split at h
  · split at h
    · exact Transfer.misaligned.inj h
    · cases h
  · split at h
    · cases h
    · exact (Transfer.goes.inj h).2.1

section
variable {file : CSRRegFile} {regs : ARegFile} {d : IdExeData} (hf : d.info.fusel = .bru)
  (hex : d.ex = .none)
include hf hex

theorem slotTransfer_taken {npc : BitVec 64} (ht : bruTarget d.info d.srcInfo d.pc = some npc) :
    slotTransfer file regs d =
      jumpEnd regs d.info.regWen d.info.regWaddr (fu file d).wdata npc := by
  have hftc : (fu file d).ftcInfo = ⟨true, npc⟩ := by
    simp only [fu, hf, bru, ht]
    rfl
  have hnew : (fu file d).newEx =
      if npc.extractLsb' 0 2 != 0 then ExceptionInfo.none.raise instAddrMisaligned npc else .none := by
    simp only [fu, hf, bru, bruEx, ht, hex]
  unfold slotTransfer jumpEnd
  simp only [hftc, hnew]
  split <;> rfl

theorem slotTransfer_fall (ht : bruTarget d.info d.srcInfo d.pc = none) :
    slotTransfer file regs d = .goes false (d.pc + 4)
      (regs.write d.info.regWen d.info.regWaddr (fu file d).wdata) := by
  have hftc : (fu file d).ftcInfo = ⟨false, 0⟩ := by
    simp only [fu, hf, bru, ht]
    rfl
  have hnew : (fu file d).newEx = .none := by
    simp only [fu, hf, bru, bruEx, ht, hex]
  unfold slotTransfer
  simp only [hftc, hnew]
  rfl

end

/-! ## the reference -/

theorem umod_four (x : BitVec 64) : (x % 4 != 0) = (x.extractLsb' 0 2 != 0) := by
  have h : x % 4 = 0 ↔ x.extractLsb' 0 2 = 0 := by
    rw [← BitVec.toNat_inj, ← BitVec.toNat_inj, BitVec.toNat_umod, BitVec.extractLsb'_toNat]
    rfl
  rw [Bool.eq_iff_iff, bne_iff_ne, bne_iff_ne, ne_eq, ne_eq, h]

section
variable {δ : Type} {e : ExecState δ} (hri : e.ri = false) (w : BitVec 32)
include hri

theorem settle_trap (rvc : Bool) (ht : e.core.priv.curNeedTrap = true) :
    e.settle w rvc = .ok { e.core with pc := e.core.priv.trapPc } := by
  rw [ExecState.settle_eq, hri, if_neg Bool.false_ne_true]
  show Except.ok { e.core with pc := e.nextPc rvc e.core } = _
  rw [ExecState.nextPc, if_pos ht]

theorem settle_quiet (rvc : Bool) (ht : e.core.priv.curNeedTrap = false) :
    e.settle w rvc = .ok { e.core with
      pc := if e.newPc then e.core.pc else e.core.pc + (if rvc then 2 else 4) } := by
  rw [ExecState.settle_eq, hri, if_neg Bool.false_ne_true]
  show Except.ok { e.core with pc := e.nextPc rvc e.core } = _
  rw [ExecState.nextPc, ht, if_neg Bool.false_ne_true]
  cases e.newPc <;> rfl

theorem endOf_trap {tval : BitVec 64}
    (hp : e.core.priv.trapTaken = some (RvExcCode.instrMisalign, tval)) :
    endOf w (.ok e) = some (.misaligned tval) := by
  have ht : e.core.priv.curNeedTrap = true := by
    unfold RvPriv.trapTaken at hp
    split at hp
    · assumption
    · cases hp
  unfold endOf
  simp only [settle_trap hri w _ ht, hp, if_true]

theorem endOf_quiet (hw : RvCore.isRvc w = false) (ht : e.core.priv.curNeedTrap = false) :
    endOf w (.ok e) = some (.goes e.newPc (if e.newPc then e.core.pc else e.core.pc + 4)
      e.core.GPR) := by
  have hp : e.core.priv.trapTaken = none := by
    rw [RvPriv.trapTaken, ht]
    rfl
  unfold endOf
  simp only [settle_quiet hri w _ ht, hp, hw]
  rfl

end

section
variable {δ : Type} {c : RvCore δ} (hn : c.priv.curNeedTrap = false) {w : BitVec 32}
  (hw : RvCore.isRvc w = false)
include hn hw

theorem endOf_done : endOf w c.done = some (.goes false (c.pc + 4) c.GPR) :=
  endOf_quiet rfl w hw hn

theorem endOf_jumpLink (rd : BitVec 5) (npc : BitVec 64) :
    endOf w (c.jumpLink rd npc) = some (jumpEnd c.GPR true rd (c.pc + 4) npc) := by
  unfold RvCore.jumpLink jumpEnd
  rw [umod_four]
  split
  · obtain ⟨p, hp, ht⟩ := raise_taken hn RvExcCode.instrMisalign (by decide) (by decide) npc
    unfold RvCore.trap
    rw [hp]
    exact endOf_trap rfl w ht
  · exact endOf_quiet rfl w hw hn

end

/-! ## branches -/

theorem bruTarget_branch {info : Info} (hv : info.valid = true) {f3 : BitVec 3}
    (ho : branchOp f3 = some info.op) (src : SrcInfo) (pc : BitVec 64) :
    bruTarget info src pc =
      if RvCore.branchTaken f3 src.src1Data src.src2Data = some true then some (pc + info.imm)
      else none := by
  obtain ⟨valid, inst, fusel, op, r1, a1, p1, r2, a2, imm, wen, rd, csr, ci, z⟩ := info
  obtain ⟨a, b⟩ := src
  obtain rfl : valid = true := hv
  have key : ∀ t : Bool, (if t then some (pc + imm) else none) =
      if some t = some true then some (pc + imm) else none := by
    intro t
    cases t <;> rfl
  unfold branchOp at ho
  split_ifs at ho with h₀ h₁ h₂ h₃ h₄ h₅
  · subst h₀
    obtain rfl := Option.some.inj ho
    exact key (a == b)
  · subst h₁
    obtain rfl := Option.some.inj ho
    exact key (a != b)
  · subst h₂
    obtain rfl := Option.some.inj ho
    exact key (a.slt b)
  · subst h₃
    obtain rfl := Option.some.inj ho
    exact key (!a.slt b)
  · subst h₄
    obtain rfl := Option.some.inj ho
    exact key (a.ult b)
  · subst h₅
    obtain rfl := Option.some.inj ho
    exact key (!a.ult b)

/-- The target of a branch, read by the reference. -/
theorem endOf_branch {δ : Type} {c : RvCore δ} (hn : c.priv.curNeedTrap = false) {w : BitVec 32}
    (hw : RvCore.isRvc w = false) {o : BitVec 5} (ho : branchOp (funct3Of w) = some o)
    (rd : BitVec 5) (link : BitVec 64) : endOf w (c.branch w) = some (
      if RvCore.branchTaken (funct3Of w) (c.GPR (RvInstr.rs1 w)) (c.GPR (RvInstr.rs2 w)) = some true
      then jumpEnd c.GPR false rd link (c.pc + (RvInstr.immB w).signExtend 64)
      else .goes false (c.pc + 4) c.GPR) := by
  have hsome : RvCore.branchTaken (funct3Of w) (c.GPR (RvInstr.rs1 w)) (c.GPR (RvInstr.rs2 w)) ≠
      none := by
    unfold branchOp at ho
    unfold RvCore.branchTaken
    split_ifs at ho ⊢ <;> exact Option.some_ne_none _
  unfold RvCore.branch
  rw [funct3_eq]
  cases ht : RvCore.branchTaken (funct3Of w) (c.GPR (RvInstr.rs1 w)) (c.GPR (RvInstr.rs2 w)) with
  | none => exact absurd ht hsome
  | some t =>
    cases t with
    | false => exact endOf_done hn hw
    | true =>
      have hb : ({ c with debugIsBranch := true } : RvCore δ).priv.curNeedTrap = false := hn
      rw [if_pos rfl]
      unfold jumpEnd
      simp only [umod_four]
      split
      · obtain ⟨p, hp, ht⟩ := raise_taken hb RvExcCode.instrMisalign (by decide) (by decide)
          (c.pc + (RvInstr.immB w).signExtend 64)
        rw [hp]
        exact endOf_trap rfl w ht
      · exact endOf_quiet rfl w hw hn

/-! ## the target of `jalr` -/

theorem clear_low (x : BitVec 64) : (x &&& (fill 63 true ++ 0#1)).toNat = x.toNat / 2 * 2 := by
  have h : x &&& (fill 63 true ++ 0#1) = x >>> 1 <<< 1 := by
    apply BitVec.eq_of_getLsbD_eq
    intro i hi
    rw [BitVec.getLsbD_and, BitVec.getLsbD_append, BitVec.getLsbD_shiftLeft,
      BitVec.getLsbD_ushiftRight, getLsbD_fill]
    by_cases h0 : i < 1
    · simp [h0]
    · have h1 : 1 + (i - 1) = i := by omega
      have h2 : i - 1 < 63 := by omega
      simp [h0, h1, h2, hi]
  rw [h, BitVec.toNat_shiftLeft, BitVec.toNat_ushiftRight, Nat.shiftRight_eq_div_pow,
    Nat.shiftLeft_eq]
  have := x.isLt
  omega

/-- What the reference does to the immediate is to clear its lowest bit. -/
theorem imm12_even (x : BitVec 32) :
    (if x &&& 1 != 0 then x ^^^ 1 else x).signExtend 64 =
      x.signExtend 64 &&& (fill 63 true ++ 0#1) := by
  have hm : (~~~1#32).signExtend 64 = fill 63 true ++ 0#1 := by decide
  have hb : (x &&& 1 != 0) = x.getLsbD 0 := by
    cases h : x.getLsbD 0 with
    | false =>
      rw [bne_eq_false_iff_eq]
      apply BitVec.eq_of_getLsbD_eq
      intro i hi
      by_cases h0 : i = 0
      · subst h0
        rw [BitVec.getLsbD_and, h]
        rfl
      · simp [h0]
    | true =>
      rw [bne_iff_ne]
      intro he
      have h0 := congrArg (BitVec.getLsbD · 0) he
      simp only [BitVec.getLsbD_and, h] at h0
      exact absurd h0 (by decide)
  have he : (if x &&& 1 != 0 then x ^^^ 1 else x) = x &&& ~~~1#32 := by
    rw [hb]
    apply BitVec.eq_of_getLsbD_eq
    intro i hi
    rw [BitVec.getLsbD_and, BitVec.getLsbD_not, BitVec.getLsbD_one]
    cases h : x.getLsbD 0 with
    | false =>
      by_cases h0 : i = 0
      · subst h0
        simpa using h
      · simp [h0, hi]
    | true =>
      rw [if_pos rfl, BitVec.getLsbD_xor]
      by_cases h0 : i = 0
      · subst h0
        rw [h]
        rfl
      · simp [h0, hi]
  rw [he, BitVec.signExtend_and, hm]

/-- Clearing the bit before or after the addition differs exactly for an odd base. -/
theorem jalr_target (r i : BitVec 64) : r + (i &&& (fill 63 true ++ 0#1)) =
    (r + i) &&& (fill 63 true ++ 0#1) ↔ r.getLsbD 0 = false := by
  rw [← BitVec.toNat_inj, BitVec.toNat_add, clear_low, clear_low, BitVec.toNat_add]
  have hr : r.getLsbD 0 = decide (r.toNat % 2 = 1) := Nat.testBit_zero _
  rw [hr, decide_eq_false_iff_not]
  have := r.isLt
  have := i.isLt
  omega

/-! ## lockstep -/

/-- the opcodes of control transfer -/
def transferOpcodes : List (BitVec 7) := [Opcode.BRANCH, Opcode.JAL, Opcode.JALR]

section
variable {δ : Type} [MmioDev δ] {c : RvCore δ} (file : CSRRegFile) (flags : Flags) {w : BitVec 32}
  (hp : c.pc.extractLsb' 0 2 = 0) (hn : c.priv.curNeedTrap = false)
  (hv : (decoder w).valid = true)
include hp hn hv

theorem transfer_branch (h : opcodeOf w = Opcode.BRANCH) :
    c.transfer flags w = some (cpuTransfer (c.toArch file) w) := by
  obtain ⟨u, hu⟩ := row_of_valid (decodeOf_branch h) hv
  obtain ⟨o, ho, rfl⟩ := Option.map_eq_some_iff.mp hu
  have hd : decodeOf w = (.B, .bru, o) := by rw [decodeOf_branch h, hu]; rfl
  have hw : RvCore.isRvc w = false := by rw [RvCore.isRvc, opcode_eq, h]; rfl
  have hex := (c.toArch file).slot_ex hv hp
  have hf := (c.toArch file).slot_fusel hd
  have ho' : branchOp (funct3Of w) = some ((c.toArch file).slot w).info.op := by
    rw [ho, (c.toArch file).slot_op hd]
  have h₁ := (c.toArch file).slot_src1 hd (by decide)
  have h₂ := (c.toArch file).slot_src2 hd
  rw [if_pos (by decide)] at h₁ h₂
  have ht : bruTarget ((c.toArch file).slot w).info ((c.toArch file).slot w).srcInfo c.pc =
      if RvCore.branchTaken (funct3Of w) (c.GPR (RvInstr.rs1 w)) (c.GPR (RvInstr.rs2 w)) = some true
      then some (c.pc + (RvInstr.immB w).signExtend 64) else none := by
    have hb := bruTarget_branch (c.toArch file).slot_valid ho' ((c.toArch file).slot w).srcInfo c.pc
    rwa [h₁, h₂, (c.toArch file).slot_imm hd, immOf_B] at hb
  have hwen : ((c.toArch file).slot w).info.regWen = false := (c.toArch file).slot_regWen hd
  rw [RvCore.transfer, decodeExec_branch c flags h, cpuTransfer,
    @endOf_branch δ { c with debugInst := w } hn w hw o ho ((c.toArch file).slot w).info.regWaddr
      (fu file ((c.toArch file).slot w)).wdata]
  refine congrArg some ?_
  by_cases hb : RvCore.branchTaken (funct3Of w) (c.GPR (RvInstr.rs1 w)) (c.GPR (RvInstr.rs2 w)) =
      some true
  · rw [if_pos hb] at ht
    rw [slotTransfer_taken hf hex ht, hwen, if_pos hb]
    rfl
  · rw [if_neg hb] at ht
    rw [slotTransfer_fall hf hex ht, hwen, if_neg hb]
    rfl

omit [MmioDev δ] hn in
/-- A jump of the processor writes `pc + 4`. -/
theorem cpuTransfer_jump {t : InstrType} {o : BitVec 5} (hd : decodeOf w = (t, .bru, o))
    (ho : o = BRUOpType.jal ∨ o = BRUOpType.jalr) (ht : (t != .S && t != .B) = true)
    {npc : BitVec 64}
    (hnpc : bruTarget ((c.toArch file).slot w).info ((c.toArch file).slot w).srcInfo c.pc = some npc) :
    cpuTransfer (c.toArch file) w = jumpEnd c.GPR true (RvInstr.rd w) (c.pc + 4) npc := by
  have hlink : (fu file ((c.toArch file).slot w)).wdata = c.pc + 4 := by
    simp only [fu, (c.toArch file).slot_fusel hd, bru, (c.toArch file).slot_valid,
      (c.toArch file).slot_op hd]
    rcases ho with rfl | rfl <;> rfl
  have hwen : ((c.toArch file).slot w).info.regWen = true := by
    rw [(c.toArch file).slot_regWen hd, ht]
    rfl
  show slotTransfer file c.GPR ((c.toArch file).slot w) = _
  rw [slotTransfer_taken ((c.toArch file).slot_fusel hd) ((c.toArch file).slot_ex hv hp) hnpc,
    hlink, hwen]
  rfl

omit [MmioDev δ] hp hn hv in
/-- where a `jal` goes -/
theorem bruTarget_jal (h : opcodeOf w = Opcode.JAL) :
    bruTarget ((c.toArch file).slot w).info ((c.toArch file).slot w).srcInfo c.pc =
      some (c.pc + (RvInstr.immJ w).signExtend 64) := by
  have hd := decodeOf_jal h
  rw [← immOf_J, ← (c.toArch file).slot_imm hd]
  simp only [bruTarget, (c.toArch file).slot_valid, (c.toArch file).slot_op hd]
  rfl

theorem transfer_jal (h : opcodeOf w = Opcode.JAL) :
    c.transfer flags w = some (cpuTransfer (c.toArch file) w) := by
  have hw : RvCore.isRvc w = false := by rw [RvCore.isRvc, opcode_eq, h]; rfl
  have hn' : ({ c with debugInst := w } : RvCore δ).priv.curNeedTrap = false := hn
  rw [cpuTransfer_jump file hp hv (decodeOf_jal h) (.inl rfl) (by decide) (bruTarget_jal file h),
    RvCore.transfer, decodeExec_jal c flags h, RvCore.jal, endOf_jumpLink hn' hw]

omit [MmioDev δ] hp hn in
theorem decodeOf_valid_jalr (h : opcodeOf w = Opcode.JALR) :
    decodeOf w = (.I, .bru, BRUOpType.jalr) := by
  obtain ⟨u, hu⟩ := row_of_valid (decodeOf_jalr h) hv
  rw [decodeOf_jalr h, hu]
  split at hu
  · rw [← Option.some.inj hu]
    rfl
  · cases hu

omit [MmioDev δ] hp hn in
/-- where a `jalr` goes -/
theorem bruTarget_jalr (h : opcodeOf w = Opcode.JALR) :
    bruTarget ((c.toArch file).slot w).info ((c.toArch file).slot w).srcInfo c.pc =
      some ((c.GPR (RvInstr.rs1 w) + (RvInstr.imm12 w).signExtend 64) &&&
        (fill 63 true ++ 0#1)) := by
  have hd := decodeOf_valid_jalr hv h
  have h₁ := (c.toArch file).slot_src1 hd (by decide)
  rw [if_pos (by decide)] at h₁
  rw [← immOf_I, ← (c.toArch file).slot_imm hd, show c.GPR (RvInstr.rs1 w) = _ from h₁.symm]
  simp only [bruTarget, (c.toArch file).slot_valid, (c.toArch file).slot_op hd]
  rfl

omit [MmioDev δ] hn in
/-- A `jalr` of the processor goes to the sum with bit 0 cleared. -/
theorem cpuTransfer_jalr (h : opcodeOf w = Opcode.JALR) :
    cpuTransfer (c.toArch file) w = jumpEnd c.GPR true (RvInstr.rd w) (c.pc + 4)
      ((c.GPR (RvInstr.rs1 w) + (RvInstr.imm12 w).signExtend 64) &&& ~~~1) := by
  have hmask : (fill 63 true ++ 0#1 : BitVec 64) = ~~~1 := by decide
  have ht := bruTarget_jalr (c := c) file hv h
  rw [hmask] at ht
  exact cpuTransfer_jump file hp hv (decodeOf_valid_jalr hv h) (.inr rfl) (by decide) ht

/-- `jalr` agrees exactly for an even base register. -/
theorem transfer_jalr (h : opcodeOf w = Opcode.JALR) :
    c.transfer flags w = some (cpuTransfer (c.toArch file) w) ↔
      (c.GPR (RvInstr.rs1 w)).getLsbD 0 = false := by
  have hw : RvCore.isRvc w = false := by rw [RvCore.isRvc, opcode_eq, h]; rfl
  have hmask : (fill 63 true ++ 0#1 : BitVec 64) = ~~~1 := by decide
  have hn' : ({ c with debugInst := w } : RvCore δ).priv.curNeedTrap = false := hn
  have href : c.transfer flags w = some (jumpEnd c.GPR true (RvInstr.rd w) (c.pc + 4)
      (c.GPR (RvInstr.rs1 w) + ((RvInstr.imm12 w).signExtend 64 &&& (fill 63 true ++ 0#1)))) := by
    rw [RvCore.transfer, decodeExec_jalr c flags h, RvCore.jalr, ← imm12_even]
    exact endOf_jumpLink hn' hw _ _
  rw [href, cpuTransfer_jalr file hp hv h, ← jalr_target, hmask, Option.some_inj]
  exact ⟨jumpEnd_inj, fun e => by rw [e]⟩

/-- **Branches and jumps agree except for `jalr` with an odd base register**, and the target of the
processor's `jalr` is the sum with bit 0 cleared. -/
theorem transfer_lockstep_iff (h : opcodeOf w ∈ transferOpcodes) :
    (c.transfer flags w = some (cpuTransfer (c.toArch file) w) ↔
      ¬ (opcodeOf w = Opcode.JALR ∧ (c.GPR (RvInstr.rs1 w)).getLsbD 0 = true)) ∧
    (opcodeOf w = Opcode.JALR → cpuTransfer (c.toArch file) w =
      jumpEnd c.GPR true (RvInstr.rd w) (c.pc + 4)
        ((c.GPR (RvInstr.rs1 w) + (RvInstr.imm12 w).signExtend 64) &&& ~~~1)) := by
  refine ⟨?_, cpuTransfer_jalr file hp hv⟩
  simp only [transferOpcodes, List.mem_cons, List.not_mem_nil, or_false] at h
  rcases h with h | h | h
  · refine ⟨fun _ hj => ?_, fun _ => transfer_branch file flags hp hn hv h⟩
    exact absurd (h.symm.trans hj.1) (by decide)
  · refine ⟨fun _ hj => ?_, fun _ => transfer_jal file flags hp hn hv h⟩
    exact absurd (h.symm.trans hj.1) (by decide)
  · rw [transfer_jalr file flags hp hn hv h]
    simp [h]

end

/-- `jalr x1, 0(x2)`, `x2` being the next word -/
theorem transfer_lockstep_jalr :
    let c := freshCore fun r => if r = 2 then 0x80000004 else 0
    c.transfer plainFlags 0x000100e7 = some (cpuTransfer (c.toArch .reset) 0x000100e7) ∧
      cpuTransfer (c.toArch .reset) 0x000100e7 = jumpEnd c.GPR true 1 (c.pc + 4) 0x80000004 := by
  intro c
  have h := transfer_lockstep_iff (c := c) .reset plainFlags (w := 0x000100e7) (by decide)
    (by decide) (by decide +kernel) (by decide)
  have ht : (c.GPR (RvInstr.rs1 0x000100e7) + (RvInstr.imm12 0x000100e7).signExtend 64) &&& ~~~1 =
      0x80000004 := by decide +kernel
  have hj := h.2 (by decide)
  rw [ht] at hj
  exact ⟨h.1.mpr (by decide), hj⟩

/-- `jalr x1, 1(x2)` with an odd `x2`: the processor jumps to `0x80000008`, the reference raises an
exception for `0x80000007`. -/
theorem jalr_odd_base_differs :
    let c := freshCore fun r => if r = 2 then 0x80000007 else 0
    c.transfer plainFlags 0x001100e7 = some (.misaligned 0x80000007) ∧
      c.transfer plainFlags 0x001100e7 ≠ some (cpuTransfer (c.toArch .reset) 0x001100e7) := by
  refine ⟨rfl, fun h => ?_⟩
  have ht := congrArg (fun t => match t with
    | some (.misaligned _) => true
    | _ => false) h
  revert ht
  decide +kernel

end HduCpu
