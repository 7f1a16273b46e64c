import HduCpu.Isa.Machine

/-!
# The words of the instructions, in the reference

What `decode_exec` does with a word that has the format of an instruction, one statement for each
kind of `Action`.

* `hit_r`, `hit_i`, …      the fields that a format fixes;
* `op_row`, `load_row`, …  what the `switch`es of the reference choose for them;
* `does_compute`, `does_branch`, …   the case of `decode_exec`.
-/

namespace HduCpu
open BitPat

/-! ## fields -/

section
variable {w : BitVec 32} {f7 : BitVec 7} {f6 : BitVec 6} {f3 : BitVec 3} {op : BitVec 7}

theorem hit_r (h : (funct7Pat f7 f3 op).hit w = true) :
    funct7Of w = f7 ∧ funct3Of w = f3 ∧ opcodeOf w = op := by
  simpa [hit_funct7Pat] using h

theorem hit_i (h : (funct3Pat f3 op).hit w = true) : funct3Of w = f3 ∧ opcodeOf w = op := by
  simpa [hit_funct3Pat] using h

theorem hit_shift (h : (funct6Pat f6 f3 op).hit w = true) :
    funct6Of w = f6 ∧ funct3Of w = f3 ∧ opcodeOf w = op := by
  simpa [hit_funct6Pat] using h

theorem hit_u (h : (opPat op).hit w = true) : opcodeOf w = op := by
  simpa [hit_opPat] using h

end

/-! ## rows -/

namespace Mnemonic
variable {m : Mnemonic} {op : AluOp}

theorem op_row (h : m.action = .compute op false false) :
    ∃ f7 f3, m.format = .r f7 f3 Opcode.OP ∧ RvCore.opKind f7 f3 = some op := by
  cases m <;> cases h <;> exact ⟨_, _, rfl, rfl⟩

theorem op32_row (h : m.action = .compute op true false) :
    ∃ f7 f3, m.format = .r f7 f3 Opcode.OP32 ∧ RvCore.op32Kind f7 f3 = some op := by
  cases m <;> cases h <;> exact ⟨_, _, rfl, rfl⟩

theorem load_row {bytes : ℕ} {signed : Bool} (h : m.action = .load bytes signed) :
    ∃ f3 conv, m.format = .i f3 Opcode.LOAD ∧
      RvCore.loadKind f3 = some (BitVec.ofNat 64 bytes, conv) ∧ bytes ∈ [1, 2, 4, 8] ∧
      1#64 <<< f3.extractLsb' 0 2 = BitVec.ofNat 64 bytes ∧
      ∀ x, conv x = if signed then (x.setWidth (8 * bytes)).signExtend 64
        else (x.setWidth (8 * bytes)).setWidth 64 := by
  cases m <;> cases h <;> exact ⟨_, _, rfl, rfl, by decide, by decide, fun x => by simp⟩

theorem store_row {bytes : ℕ} (h : m.action = .store bytes) :
    ∃ f3, m.format = .s f3 Opcode.STORE ∧ RvCore.storeSize f3 = some (BitVec.ofNat 64 bytes) ∧
      bytes ∈ [1, 2, 4, 8] ∧ 1#64 <<< f3.extractLsb' 0 2 = BitVec.ofNat 64 bytes := by
  cases m <;> cases h <;> exact ⟨_, rfl, rfl, by decide, by decide⟩

theorem branch_row {cond : Cond} (h : m.action = .branch cond) :
    ∃ f3, m.format = .b f3 Opcode.BRANCH ∧
      ∀ a b, RvCore.branchTaken f3 a b = some (cond.holds a b) := by
  cases m <;> cases h <;> exact ⟨_, rfl, fun _ _ => rfl⟩

/-- an operation with an immediate: an `i`, or a shift by an amount -/
theorem opImm_row (h : m.action = .compute op false true) {w : BitVec 32}
    (hw : m.format.pat.hit w = true) :
    opcodeOf w = Opcode.OPIMM ∧ (RvCore.opImmKind w).1 = some op := by
  cases m <;> cases h
  case slli | srli | srai =>
    obtain ⟨h6, h3, ho⟩ := hit_shift hw
    have h6' : (funct7Of w).extractLsb' 1 6 = _ := (funct6Of_eq w).symm.trans h6
    refine ⟨ho, ?_⟩
    simp only [RvCore.opImmKind, funct3_eq, funct7_eq, sle_imm12, h3, h6']
    cases (funct7Of w).getLsbD 6 <;> rfl
  all_goals
    obtain ⟨h3, ho⟩ := hit_i hw
    refine ⟨ho, ?_⟩
    simp only [RvCore.opImmKind, funct3_eq, h3]
    rfl

theorem opImm32_row (h : m.action = .compute op true true) {w : BitVec 32}
    (hw : m.format.pat.hit w = true) :
    opcodeOf w = Opcode.OPIMM32 ∧ (RvCore.opImm32Kind w).1 = some op := by
  cases m <;> cases h
  case addiw =>
    obtain ⟨h3, ho⟩ := hit_i hw
    refine ⟨ho, ?_⟩
    simp only [RvCore.opImm32Kind, funct3_eq, h3]
    rfl
  all_goals
    obtain ⟨h7, h3, ho⟩ := hit_r hw
    refine ⟨ho, ?_⟩
    simp only [RvCore.opImm32Kind, funct3_eq, funct7_eq, sle_imm12, h3, h7]
    rfl

theorem compute_form {op32 imm : Bool} (h : m.action = .compute op op32 imm) :
    op.hasForm op32 = true := by
  cases m <;> cases h <;> rfl

end Mnemonic

/-! ## immediates -/

section
variable {f : Format} {w : BitVec 32} (hw : f.pat.hit w = true)
include hw

/-- the immediate is what the decoder of the processor gathers -/
theorem imm_read : (f.read w).imm = immOf f.type w := by
  rw [← immOf_encode (f.read w), encode_read hw]

end

/-- the operations that take an amount -/
def AluOp.shifts (op : AluOp) : Bool := op == .sll || op == .srl || op == .sra

/-- Of its amount a shift takes the low six bits, or five. -/
theorem formResult_amount {op : AluOp} (hop : op.shifts = true) (op32 : Bool) {a b b' : BitVec 64}
    (h : b.extractLsb' 0 6 = b'.extractLsb' 0 6) :
    op.formResult op32 a b = op.formResult op32 a b' := by
  have hmod : b.toNat % 64 = b'.toNat % 64 := by
    have ht := congrArg BitVec.toNat h
    rwa [BitVec.extractLsb'_toNat, BitVec.extractLsb'_toNat] at ht
  have hmod32 : (b.setWidth 32).toNat % 32 = (b'.setWidth 32).toNat % 32 := by
    rw [BitVec.toNat_setWidth, BitVec.toNat_setWidth]
    omega
  cases op32 with
  | false =>
    show op.result a b = op.result a b'
    cases op
    case sll => rw [AluOp.result_sll, AluOp.result_sll, hmod]
    case srl => rw [AluOp.result_srl, AluOp.result_srl, hmod]
    case sra => rw [AluOp.result_sra, AluOp.result_sra, hmod]
    all_goals cases hop
  | true =>
    show (op.result _ _).signExtend 64 = (op.result _ _).signExtend 64
    cases op
    case sll => rw [AluOp.result_sll, AluOp.result_sll, hmod32]
    case srl => rw [AluOp.result_srl, AluOp.result_srl, hmod32]
    case sra => rw [AluOp.result_sra, AluOp.result_sra, hmod32]
    all_goals cases hop

/-- an immediate that is an amount belongs to a shift -/
theorem Mnemonic.amount_shifts {m : Mnemonic} {op : AluOp} {op32 : Bool}
    (h : m.action = .compute op op32 true) (o : Operands m.format) :
    o.shiftAmount = none ∨ op.shifts = true := by
  cases m <;> cases h
  case addi | slti | sltiu | xori | ori | andi | addiw =>
    cases o
    exact .inl rfl
  all_goals exact .inr rfl

theorem formResult_immediate {m : Mnemonic} {op : AluOp} {op32 : Bool}
    (h : m.action = .compute op op32 true) (o : Operands m.format) (a : BitVec 64) :
    op.formResult op32 a o.imm = op.formResult op32 a o.immediate := by
  rcases m.amount_shifts h o with hn | hs
  · rw [Operands.immediate, hn]
    rfl
  · cases hk : o.shiftAmount with
    | none =>
      rw [Operands.immediate, hk]
      rfl
    | some k =>
      refine formResult_amount hs op32 ?_
      rw [@shamt_encode ⟨m, o⟩ k hk, Operands.immediate, hk]
      show k = (k.setWidth 64).extractLsb' 0 6
      rw [BitVec.extractLsb'_setWidth_of_le (by decide), BitVec.extractLsb'_eq_self]

/-- an access of the machine in the terms of the reference -/
theorem Accessible.ram {lo : ℕ} {addr : BitVec 64} {bytes : ℕ} (h : Accessible lo addr bytes)
    (hb : bytes ∈ [1, 2, 4, 8]) : addr % BitVec.ofNat 64 bytes = 0 ∧
      InRam addr (BitVec.ofNat 64 bytes) ∧ (BitVec.ofNat 64 bytes).toNat = bytes := by
  have hn : (BitVec.ofNat 64 bytes).toNat = bytes := by
    rw [BitVec.toNat_ofNat]
    simp only [List.mem_cons, List.not_mem_nil, or_false] at hb
    omega
  obtain ⟨hal, hlo, hhi⟩ := h
  refine ⟨?_, ⟨?_, ?_⟩, hn⟩
  · apply BitVec.eq_of_toNat_eq
    rw [BitVec.toNat_umod, hn]
    exact hal
  · rw [BitVec.le_def]
    omega
  · rw [hn]
    exact hhi

/-! ## `decode_exec` -/

section
variable (c : RvCore MmioMem) (flags : Flags) {m : Mnemonic} {w : BitVec 32}
  (hw : m.format.pat.hit w = true)
include hw

theorem does_compute {op : AluOp} {op32 imm : Bool} (h : m.action = .compute op op32 imm) :
    let o := m.format.read w
    c.decodeExec flags w = ({ c with debugInst := w }.setGPR (o.rd.getD 0)
      (op.formResult op32 (c.GPR (o.rs1.getD 0))
        (if imm then o.immediate else c.GPR (o.rs2.getD 0)))).done := by
  have hform := m.compute_form h
  have hend : ∀ b, { c with debugInst := w }.computed w (some op) b op32 =
      ({ c with debugInst := w }.setGPR (rdOf w) (op.formResult op32 (c.GPR (rs1Of w)) b)).done := by
    intro b
    show aluExec (c.GPR (rs1Of w)) b op op32 >>= _ = _
    rw [aluExec_form hform]
    rfl
  cases imm with
  | false =>
    cases op32 with
    | false =>
      obtain ⟨f7, f3, hf, hk⟩ := m.op_row h
      rw [hf] at hw ⊢
      obtain ⟨h7, h3, ho⟩ := hit_r hw
      rw [decodeExec_op c flags ho, RvCore.op, funct7_eq, funct3_eq, h7, h3, hk]
      exact hend _
    | true =>
      obtain ⟨f7, f3, hf, hk⟩ := m.op32_row h
      rw [hf] at hw ⊢
      obtain ⟨h7, h3, ho⟩ := hit_r hw
      rw [decodeExec_op32 c flags ho, RvCore.op32, funct7_eq, funct3_eq, h7, h3, hk]
      exact hend _
  | true =>
    have hrd : (m.format.read w).rd.getD 0 = rdOf w := by cases m <;> cases h <;> rfl
    have hrs : (m.format.read w).rs1.getD 0 = rs1Of w := by cases m <;> cases h <;> rfl
    have himm : (RvInstr.imm12 w).signExtend 64 = (m.format.read w).imm := by
      have ht : m.format.type = .I := by cases m <;> cases h <;> rfl
      rw [imm_read hw, ht, immOf_I]
    dsimp only
    rw [hrd, hrs, if_pos rfl, ← formResult_immediate h, ← hend]
    cases op32 with
    | false =>
      obtain ⟨ho, hk⟩ := m.opImm_row h hw
      rw [decodeExec_opImm c flags ho, RvCore.opImm, hk]
      show aluExec _ _ op false >>= _ = aluExec _ _ op false >>= _
      rw [opImmKind_serves w op hk, himm]
    | true =>
      obtain ⟨ho, hk⟩ := m.opImm32_row h hw
      rw [decodeExec_opImm32 c flags ho, RvCore.opImm32, hk]
      show aluExec _ _ op true >>= _ = aluExec _ _ op true >>= _
      rw [opImm32Kind_serves w op hk, himm]

theorem does_lui (h : m.action = .lui) :
    let o := m.format.read w
    c.decodeExec flags w = ({ c with debugInst := w }.setGPR (o.rd.getD 0) o.imm).done := by
  obtain rfl : m = .lui := by
    cases m <;> cases h
    rfl
  intro o
  have himm : o.imm = RvInstr.immU w := by rw [imm_read hw, ← immOf_U]; rfl
  rw [himm, decodeExec_lui c flags (hit_u hw)]
  rfl

theorem does_auipc (h : m.action = .auipc) :
    let o := m.format.read w
    c.decodeExec flags w =
      ({ c with debugInst := w }.setGPR (o.rd.getD 0) (c.pc + o.imm)).done := by
  obtain rfl : m = .auipc := by
    cases m <;> cases h
    rfl
  intro o
  have himm : o.imm = RvInstr.immU w := by rw [imm_read hw, ← immOf_U]; rfl
  rw [himm, decodeExec_auipc c flags (hit_u hw), BitVec.add_comm]
  rfl

theorem does_jal (h : m.action = .jal) :
    let o := m.format.read w
    c.decodeExec flags w = { c with debugInst := w }.jumpLink (o.rd.getD 0) (c.pc + o.imm) := by
  obtain rfl : m = .jal := by
    cases m <;> cases h
    rfl
  intro o
  have himm : o.imm = (RvInstr.immJ w).signExtend 64 := by rw [imm_read hw, ← immOf_J]; rfl
  rw [himm, decodeExec_jal c flags (hit_u hw)]
  rfl

/-- `jalr` with an even base register -/
theorem does_jalr (h : m.action = .jalr)
    (heven : (c.GPR ((m.format.read w).rs1.getD 0)).getLsbD 0 = false) :
    let o := m.format.read w
    c.decodeExec flags w = { c with debugInst := w }.jumpLink (o.rd.getD 0)
      ((c.GPR (o.rs1.getD 0) + o.imm) &&& ~~~1) := by
  obtain rfl : m = .jalr := by
    cases m <;> cases h
    rfl
  intro o
  have hmask : (~~~1 : BitVec 64) = fill 63 true ++ 0#1 := by decide
  have himm : o.imm = (RvInstr.imm12 w).signExtend 64 := by rw [imm_read hw, ← immOf_I]; rfl
  have htarget : (c.GPR (rs1Of w) + o.imm) &&& ~~~1 =
      c.GPR (rs1Of w) + ((RvInstr.imm12 w).signExtend 64 &&& (fill 63 true ++ 0#1)) := by
    rw [himm, hmask]
    exact ((jalr_target _ _).mpr heven).symm
  show _ = RvCore.jumpLink _ _ ((c.GPR (rs1Of w) + o.imm) &&& ~~~1)
  rw [htarget, decodeExec_jalr c flags (hit_i hw).2, RvCore.jalr, ← imm12_even]
  rfl

theorem does_branch {cond : Cond} (h : m.action = .branch cond) :
    let o := m.format.read w
    let npc := c.pc + o.imm
    c.decodeExec flags w =
      if cond.holds (c.GPR (o.rs1.getD 0)) (c.GPR (o.rs2.getD 0)) then
        if npc % 4 != 0 then
          { c with debugInst := w, debugIsBranch := true }.raise RvExcCode.instrMisalign npc >>=
            fun c => .ok ⟨c, false, true⟩
        else .ok ⟨{ c with debugInst := w, debugIsBranch := true, pc := npc }, false, true⟩
      else { c with debugInst := w }.done := by
  obtain ⟨f3, hf, hk⟩ := m.branch_row h
  have himm : (m.format.read w).imm = (RvInstr.immB w).signExtend 64 := by
    rw [imm_read hw, hf]
    exact immOf_B w
  have h₁ : (m.format.read w).rs1.getD 0 = RvInstr.rs1 w := by rw [hf]; rfl
  have h₂ : (m.format.read w).rs2.getD 0 = RvInstr.rs2 w := by rw [hf]; rfl
  rw [hf] at hw
  obtain ⟨h3, ho⟩ := hit_i hw
  have hk' := hk (c.GPR (RvInstr.rs1 w)) (c.GPR (RvInstr.rs2 w))
  have he := decodeExec_branch c flags ho
  unfold RvCore.branch at he
  rw [funct3_eq, h3] at he
  dsimp only
  rw [himm, h₁, h₂]
  cases ht : cond.holds (c.GPR (RvInstr.rs1 w)) (c.GPR (RvInstr.rs2 w)) with
  | false =>
    rw [ht] at hk'
    rw [hk'] at he
    exact he
  | true =>
    rw [ht] at hk'
    rw [hk'] at he
    exact he

/-! ### loads and stores -/

theorem does_load {s : Isa} (hs : c.priv.satp = 0) (hb : c.bus.devices = [ramEntry s.mem])
    {bytes : ℕ} {signed : Bool} (h : m.action = .load bytes signed)
    (ha : Accessible 0 (c.GPR ((m.format.read w).rs1.getD 0) + (m.format.read w).imm) bytes) :
    let o := m.format.read w
    c.decodeExec flags w = ({ c with debugInst := w }.setGPR (o.rd.getD 0)
      (s.loaded (c.GPR (o.rs1.getD 0) + o.imm) bytes signed)).done := by
  obtain ⟨f3, conv, hf, hk, hmem, -, hconv⟩ := m.load_row h
  have himm : (m.format.read w).imm = (RvInstr.imm12 w).signExtend 64 := by
    rw [imm_read hw, hf]
    exact immOf_I w
  have h₁ : (m.format.read w).rs1.getD 0 = RvInstr.rs1 w := by rw [hf]; rfl
  have hd : (m.format.read w).rd.getD 0 = RvInstr.rd w := by rw [hf]; rfl
  rw [hf] at hw
  obtain ⟨h3, ho⟩ := hit_i hw
  rw [himm, h₁] at ha
  obtain ⟨hm, hr, hn⟩ := ha.ram hmem
  dsimp only
  rw [himm, h₁, hd]
  have hm' : ((c.GPR (RvInstr.rs1 w) + (RvInstr.imm12 w).signExtend 64) % BitVec.ofNat 64 bytes != 0) =
      false := bne_eq_false_iff_eq.mpr hm
  have hconv' : ∀ x, conv (copyLow 0 bytes x) = if signed then (x.setWidth (8 * bytes)).signExtend 64
      else (x.setWidth (8 * bytes)).setWidth 64 := by
    intro x
    have h8 : bytes ≤ 8 := by
      simp only [List.mem_cons, List.not_mem_nil, or_false] at hmem
      omega
    rw [hconv, setWidth_copyLow 0 x h8]
  rw [decodeExec_load c flags ho]
  unfold RvCore.load RvCore.memRead
  simp only [funct3_eq, h3, hk, RvPriv.vaRead_bare (RvPriv.bare_of_satp hs)]
  show (if (c.GPR (RvInstr.rs1 w) + (RvInstr.imm12 w).signExtend 64) % BitVec.ofNat 64 bytes != 0 then _
    else _) >>= _ = _
  rw [hm', if_neg Bool.false_ne_true, paRead_ram hr hb, hn, Isa.loaded, ← hconv']
  rfl

/-- a store, without the end of a test -/
theorem does_store {mem : Bytes} (hs : c.priv.satp = 0) (hb : c.bus.devices = [ramEntry mem])
    {bytes lo : ℕ} (h : m.action = .store bytes)
    (ha : Accessible lo (c.GPR ((m.format.read w).rs1.getD 0) + (m.format.read w).imm) bytes)
    (hx : ¬ (c.GPR ((m.format.read w).rs1.getD 0) + (m.format.read w).imm = tohost ∧
      c.GPR ((m.format.read w).rs2.getD 0) = 1)) :
    let o := m.format.read w
    let a := c.GPR (o.rs1.getD 0) + o.imm
    let b := c.GPR (o.rs2.getD 0)
    ∃ bus, c.decodeExec flags w = { c with debugInst := w, bus := bus }.done ∧
      bus.devices = [ramEntry (poke mem (ramIndex a) bytes b)] := by
  obtain ⟨f3, hf, hk, hmem, -⟩ := m.store_row h
  have himm : (m.format.read w).imm = (RvInstr.immS w).signExtend 64 := by
    rw [imm_read hw, hf]
    exact immOf_S w
  have h₁ : (m.format.read w).rs1.getD 0 = RvInstr.rs1 w := by rw [hf]; rfl
  have h₂ : (m.format.read w).rs2.getD 0 = RvInstr.rs2 w := by rw [hf]; rfl
  rw [hf] at hw
  obtain ⟨h3, ho⟩ := hit_i hw
  rw [himm, h₁] at ha
  rw [himm, h₁, h₂] at hx
  obtain ⟨hm, hr, hn⟩ := ha.ram hmem
  dsimp only
  rw [himm, h₁, h₂]
  rw [← h3] at hk
  have hok := @store_ok { c with debugInst := w } w mem _ _ flags hs hb hm hr hk rfl
    fun hx' => hx hx'.2
  refine ⟨_, (decodeExec_store c flags ho).trans hok, ?_⟩
  have hdev := (paWrite_ram hr hb (c.GPR (RvInstr.rs2 w))).2
  rwa [hn] at hdev

/-- the end of a test by a store -/
theorem does_tohost (hs : c.priv.satp = 0) (hflags : flags.runRiscvTest = true) {bytes : ℕ}
    (h : m.action = .store bytes)
    (hx : c.GPR ((m.format.read w).rs1.getD 0) + (m.format.read w).imm = tohost ∧
      c.GPR ((m.format.read w).rs2.getD 0) = 1) :
    c.decodeExec flags w = .error (.exit 0) := by
  obtain ⟨f3, hf, hk, hmem, -⟩ := m.store_row h
  have himm : (m.format.read w).imm = (RvInstr.immS w).signExtend 64 := by
    rw [imm_read hw, hf]
    exact immOf_S w
  have h₁ : (m.format.read w).rs1.getD 0 = RvInstr.rs1 w := by rw [hf]; rfl
  have h₂ : (m.format.read w).rs2.getD 0 = RvInstr.rs2 w := by rw [hf]; rfl
  rw [hf] at hw
  obtain ⟨h3, ho⟩ := hit_i hw
  rw [himm, h₁, h₂] at hx
  obtain ⟨ha, hv⟩ := hx
  have hal : (tohost % BitVec.ofNat 64 bytes != 0) = false := by
    have key : ∀ n ∈ [1, 2, 4, 8], (tohost % BitVec.ofNat 64 n != 0) = false := by decide
    exact key bytes hmem
  rw [decodeExec_store c flags ho]
  unfold RvCore.store RvCore.memWrite
  simp only [funct3_eq, h3, hk, ha, hv, hal, Bool.false_eq_true, if_false,
    RvPriv.vaWrite_bare (RvPriv.bare_of_satp hs), RvPriv.storeOrExit, hflags]
  rfl

/-- `fence` and `wfi` -/
theorem does_skip (h : m.action = .skip) :
    c.decodeExec flags w = { c with debugInst := w }.done := by
  have hm : m = .fence ∨ m = .wfi := by
    cases m <;> cases h
    · exact .inl rfl
    · exact .inr rfl
  rcases hm with rfl | rfl
  · have ho : opcodeOf w = Opcode.FENCE := by
      rw [← encode_read hw]
      simp (disch := decide) only [Mnemonic.format, Mnemonic.row, Format.read, encode, opcodeOf,
        slice_low]
      exact BitVec.extractLsb'_eq_self
    simp only [RvCore.decodeExec, RvCore.isRvc, opcode_eq, ho]
    rfl
  · obtain rfl : w = 0x10500073 := (encode_read hw).symm.trans rfl
    rfl

theorem does_ecall (h : m.action = .ecall) (hflags : flags.runRiscvTest = true)
    (h17 : c.GPR 17 = 93) :
    c.decodeExec flags w = .error (.exit (if c.GPR 10 = 0 then 0 else 1)) := by
  obtain rfl : m = .ecall := by
    cases m <;> cases h
    rfl
  obtain rfl : w = 0x00000073 := (encode_read hw).symm.trans rfl
  show (if flags.runRiscvTest && c.GPR 17 == 93 then _ else _ : Except Halt (ExecState MmioMem)) = _
  rw [hflags, h17]
  rfl

theorem does_ebreak (h : m.action = .ebreak) (hflags : flags.runRiscvTest = true)
    (h10 : c.GPR 10 = 0) : c.decodeExec flags w = .error (.exit 0) := by
  obtain rfl : m = .ebreak := by
    cases m <;> cases h
    rfl
  obtain rfl : w = 0x00100073 := (encode_read hw).symm.trans rfl
  show (if flags.runRiscvTest && c.GPR 10 == 0 then _ else _ : Except Halt (ExecState MmioMem)) = _
  rw [hflags, h10]
  rfl

end

end HduCpu
