import HduCpu.Cpu.Trap
import HduCpu.Cpu.WriteMask
import HduCpu.Lockstep.Operands
import HduCpu.Lockstep.Trap

/-!
# CSR instructions on both sides

The address table with its masks against the cases of `csr_read` and `csr_write`.

* `CsrSlot`                a CSR instruction decoded, in the terms of `RvCore.csrForm`;
* `RvPriv.reg`             the registers of the table as the reference holds them;
* `SameCsrs`               related states;
* `csrWrite_reg`           `csr_write` as an update of one register;
* `csr_lockstep_iff`       where the two designs agree.
-/

namespace HduCpu

/-! ## decoding -/

/-- the decoded slot of a CSR instruction that writes when `fm.1` says so, and then `fm.2` of the
old value -/
structure CsrSlot (d : IdExeData) (w : BitVec 32) (fm : Bool × (BitVec 64 → BitVec 64)) : Prop where
  fusel : d.info.fusel = .csr
  valid : d.info.valid = true
  op : d.info.op ∉ [CSROpType.ecall, CSROpType.ebreak, CSROpType.mret]
  csr : d.info.csr = w.extractLsb' 20 12
  rd : d.info.regWaddr = RvInstr.rd w
  regWen : d.info.regWen = true
  inst : d.info.inst = w
  wen : csrWen d.info = fm.1
  data : ∀ x, csrWdata d.info d.srcInfo.src1Data x = fm.2 x
  ren : csrRen d.info = true ∨ (RvInstr.rd w = 0 ∧ fm.1 = true ∧ ∀ x y, fm.2 x = fm.2 y)

section
variable {δ : Type} (c : RvCore δ) (file : CSRRegFile) {w : BitVec 32}

/-- the row of a CSR instruction -/
def csrRow (f3 : BitVec 3) : BitVec 5 := (f3.extractLsb' 0 2 - 1).setWidth 5

theorem decodeOf_csr (h : opcodeOf w = Opcode.SYSTEM) (h3 : (funct3Of w).extractLsb' 0 2 ≠ 0) :
    decodeOf w = (.I, .csr, csrRow (funct3Of w)) := by
  have hrows : ∀ f3 : BitVec 3, f3.extractLsb' 0 2 ≠ 0 →
      (funct3Pat f3 Opcode.SYSTEM, InstrType.I, FuType.csr, csrRow f3) ∈ decodeTable := by
    decide +kernel
  refine decodeOf_of_hit (hrows _ h3) ?_
  rw [hit_funct3Pat, h]
  simp

theorem funct3_csrForm {fm : Bool × (BitVec 64 → BitVec 64)} (hf : c.csrForm w = some fm) :
    (funct3Of w).extractLsb' 0 2 ≠ 0 := by
  intro h0
  have key : ∀ f3 : BitVec 3, f3.extractLsb' 0 2 = 0 → f3 ≠ Funct3.CSRRW ∧ f3 ≠ Funct3.CSRRS ∧
      f3 ≠ Funct3.CSRRC ∧ f3 ≠ Funct3.CSRRWI ∧ f3 ≠ Funct3.CSRRSI ∧ f3 ≠ Funct3.CSRRCI := by decide
  obtain ⟨h1, h2, h3, h4, h5, h6⟩ := key _ h0
  have hnone : c.csrForm w = none := by
    unfold RvCore.csrForm
    rw [funct3_eq]
    simp only [h1, h2, h3, h4, h5, h6, if_false]
  rw [hnone] at hf
  cases hf

theorem slot_csr_src1 (h : opcodeOf w = Opcode.SYSTEM) (h3 : (funct3Of w).extractLsb' 0 2 ≠ 0) :
    ((c.toArch file).slot w).srcInfo.src1Data =
      if w.getLsbD 14 then (RvInstr.rs1 w).setWidth 64 else c.GPR (RvInstr.rs1 w) := by
  have hd := decodeOf_csr h h3
  have hi : (decoder w).isCsri = w.getLsbD 14 := by
    show ((decodeOf w).2.1 == .csr && w.getLsbD 14) = _
    rw [hd]
    rfl
  have hr : (decoder w).src1Ren = true := by
    show ((decodeOf w).1 != .U && (decodeOf w).1 != .J) = _
    rw [hd]
    rfl
  have hn : ∀ r : Info, conflict1 r Bypass.none.info = false := fun r => by
    simp [conflict1, Bypass.none, Info.zero]
  show src1Data { decoder w with valid := true } c.pc c.GPR .none .none .none = _
  simp only [src1Data, muxCase_cons, muxCase_nil, hn, hi, hr, Bool.false_eq_true, if_false, if_true]
  rfl

/-- **Decoding a CSR instruction**, immediate or not. -/
theorem slot_csr {fm : Bool × (BitVec 64 → BitVec 64)} (h : opcodeOf w = Opcode.SYSTEM)
    (hf : c.csrForm w = some fm) : CsrSlot ((c.toArch file).slot w) w fm := by
  have h3 := funct3_csrForm c hf
  have hd := decodeOf_csr h h3
  have hbit : w.getLsbD 14 = (funct3Of w).getLsbD 2 := by
    rw [funct3Of, BitVec.getLsbD_extractLsb']
    rfl
  have hop : ((c.toArch file).slot w).info.op = csrRow (funct3Of w) := Arch.slot_op _ hd
  have hzimm : ((c.toArch file).slot w).info.zimm = (RvInstr.rs1 w).setWidth 64 := rfl
  have hraddr : ((c.toArch file).slot w).info.src1Raddr = RvInstr.rs1 w := rfl
  have hi : ((c.toArch file).slot w).info.isCsri = (funct3Of w).getLsbD 2 := by
    rw [← hbit]
    show ((decodeOf w).2.1 == .csr && w.getLsbD 14) = _
    rw [hd]
    rfl
  have hsrc := slot_csr_src1 c file h h3
  rw [hbit] at hsrc
  have hregWen : ((c.toArch file).slot w).info.regWen = true := by
    rw [Arch.slot_regWen _ hd]
    rfl
  have hzero : ((RvInstr.rs1 w).setWidth 64 != 0) = (RvInstr.rs1 w != 0) := by
    have key : ∀ r : BitVec 5, (r.setWidth 64 != 0#64) = (r != 0) := by decide
    exact key _
  have hv : ((c.toArch file).slot w).info.valid = true := rfl
  have hrd : ((c.toArch file).slot w).info.regWaddr = RvInstr.rd w := rfl
  have hcases : ∀ f3 : BitVec 3, f3.extractLsb' 0 2 ≠ 0 →
      f3 = Funct3.CSRRW ∨ f3 = Funct3.CSRRS ∨ f3 = Funct3.CSRRC ∨ f3 = Funct3.CSRRWI ∨
        f3 = Funct3.CSRRSI ∨ f3 = Funct3.CSRRCI := by decide
  have hpart : csrWen ((c.toArch file).slot w).info = fm.1 ∧
      (∀ x, csrWdata ((c.toArch file).slot w).info ((c.toArch file).slot w).srcInfo.src1Data x =
        fm.2 x) ∧
      (csrRen ((c.toArch file).slot w).info = true ∨
        (RvInstr.rd w = 0 ∧ fm.1 = true ∧ ∀ x y, fm.2 x = fm.2 y)) := by
    have hren : ∀ b : BitVec 5, (b != 0) = true ∨ b = 0 := by decide
    unfold RvCore.csrForm at hf
    rw [funct3_eq] at hf
    simp only [csrWen, csrRen, csrWdata, hv, hop, hi, hsrc, hzimm, hraddr, hrd, Bool.true_and,
      if_true]
    rcases hcases _ h3 with e | e | e | e | e | e
    all_goals
      rw [e] at hf ⊢
      cases hf
    · exact ⟨rfl, fun _ => rfl, (hren (RvInstr.rd w)).imp id fun h0 => ⟨h0, rfl, fun _ _ => rfl⟩⟩
    · exact ⟨hzero, fun _ => rfl, .inl rfl⟩
    · exact ⟨hzero, fun _ => rfl, .inl rfl⟩
    · exact ⟨rfl, fun _ => rfl, (hren (RvInstr.rd w)).imp id fun h0 => ⟨h0, rfl, fun _ _ => rfl⟩⟩
    · exact ⟨hzero, fun _ => rfl, .inl rfl⟩
    · exact ⟨hzero, fun _ => rfl, .inl rfl⟩
  have hplain : ∀ f3 : BitVec 3, f3.extractLsb' 0 2 ≠ 0 →
      csrRow f3 ∉ [CSROpType.ecall, CSROpType.ebreak, CSROpType.mret] := by decide
  exact ⟨Arch.slot_fusel _ hd, hv, hop ▸ hplain _ h3, rfl, hrd, hregWen, rfl, hpart.1, hpart.2.1,
    hpart.2.2⟩

end

/-! ## legality on the CPU -/

/-- the addresses of the table -/
def csrAddrs : List (BitVec 12) := addrTable.map fun e => e.1.value

/-- What the table and the address bits say of an address. -/
theorem csrAddrs_entry {a : BitVec 12} (ha : a ∈ csrAddrs) :
    (csrLookup a).1 ≠ .empty ∧ (csrLookup a).2.1 = BitVec.allOnes 64 ∧
      (a = CSRAddr.cycle ∨ CSRAddr.leastMode a = Privilege.m) := by
  have key : ∀ e ∈ addrTable, (csrLookup e.1.value).1 ≠ .empty ∧
      (csrLookup e.1.value).2.1 = BitVec.allOnes 64 ∧
      (e.1.value = CSRAddr.cycle ∨ CSRAddr.leastMode e.1.value = Privilege.m) := by decide
  obtain ⟨e, he, rfl⟩ := List.mem_map.mp ha
  exact key e he

/-- the illegal instruction exception of `Csr` -/
def csrIllegal (f : CSRRegFile) (ren wen : Bool) (a : BitVec 12) : Bool :=
  !f.rlegal ren a || !f.wlegal wen a

/-- **Legality on the CPU**, for an instruction that reads or writes. -/
theorem csrIllegal_iff {f : CSRRegFile} (hm : f.regMode = Privilege.u ∨ f.regMode = Privilege.m)
    {a : BitVec 12} (ha : a ∈ csrAddrs) {ren wen : Bool} (hr : ren = true ∨ wen = true) :
    csrIllegal f ren wen a = true ↔
      (f.regMode = Privilege.u ∧ ¬ (a = CSRAddr.cycle ∧ wen = false)) ∨
      (f.regMode = Privilege.m ∧ wen = true ∧ CSRAddr.enWrite a = false) := by
  obtain ⟨hne, -, hleast⟩ := csrAddrs_entry ha
  have hem : ((csrLookup a).1 == CReg.empty) = false := beq_eq_false_iff_ne.mpr hne
  rw [csrIllegal, CSRRegFile.rlegal, CSRRegFile.wlegal, hem, Bool.false_or, Bool.false_or,
    CSRAddr.enRead, Bool.not_true, Bool.false_or, Bool.not_not, Bool.not_not]
  have hcyc : CSRAddr.leastMode CSRAddr.cycle = Privilege.u ∧
      CSRAddr.enWrite CSRAddr.cycle = false := by decide
  have huu : (Privilege.u < Privilege.u) = False := by decide
  have hmu : (Privilege.m < Privilege.u) = False := by decide
  have hum : (Privilege.u < Privilege.m) = True := by decide
  have hmm : (Privilege.m < Privilege.m) = False := by decide
  have hne1 : Privilege.u ≠ Privilege.m := by decide
  rcases hm with hm | hm
  · rw [hm]
    rcases hleast with rfl | hl
    · rw [hcyc.1, hcyc.2]
      cases wen <;> cases ren <;> simp_all
    · have hac : a ≠ CSRAddr.cycle := by
        rintro rfl
        exact hne1 (hcyc.1.symm.trans hl)
      rw [hl]
      rcases hr with rfl | rfl <;> simp [hum, hac]
  · rw [hm]
    rcases hleast with rfl | hl
    · rw [hcyc.1, hcyc.2]
      cases wen <;> simp [hmu, hne1.symm]
    · rw [hl]
      cases wen <;> simp [hmm, hne1.symm]

section
variable {f : CSRRegFile} {d : IdExeData} {w : BitVec 32} {fm : Bool × (BitVec 64 → BitVec 64)}
  (hd : CsrSlot d w fm) (hex : d.ex = .none)
include hd hex

/-- what `Fu` makes of a CSR instruction -/
theorem fu_csr : fu f d =
    { FuOut.quiet (f.rdata (csrRen d.info) (w.extractLsb' 20 12)) .none with
      write := ⟨fm.1, w.extractLsb' 20 12, fm.2 (f.rdata (csrRen d.info) (w.extractLsb' 20 12))⟩
      newEx := if csrIllegal f (csrRen d.info) fm.1 (w.extractLsb' 20 12) then
        ExceptionInfo.none.raise illegalInst (w.setWidth 64) else .none } := by
  have hop := hd.op
  simp only [List.mem_cons, List.not_mem_nil, or_false, not_or] at hop
  have hcall : csrCallEx d.info f.regMode .none = .none := by
    rw [csrCallEx, if_neg hop.2.1, if_neg hop.1]
  have hmret : (d.info.op == CSROpType.mret) = false := beq_eq_false_iff_ne.mpr hop.2.2
  simp only [fu, hd.fusel, csr, hcall, hmret, hd.valid, hd.csr, hd.wen, hd.data, hd.inst, hex,
    if_true, Bool.true_and]
  rfl

/-- what the CSR file is given -/
theorem csrIn_csr : (executeUnit f .low d).csrIn =
    ⟨⟨fm.1, w.extractLsb' 20 12, fm.2 (f.rdata (csrRen d.info) (w.extractLsb' 20 12))⟩, .low,
      if csrIllegal f (csrRen d.info) fm.1 (w.extractLsb' 20 12) then
        ExceptionInfo.none.raise illegalInst (w.setWidth 64) else .none, false, d.pc⟩ := by
  simp only [executeUnit, fu_csr hd hex, hd.valid, if_true]
  rfl

theorem isInt_csr : f.isInt (executeUnit f .low d).csrIn = false := by
  have hi : (executeUnit f .low d).csrIn.ex.interrupt = ExceptionInfo.none.interrupt := by
    rw [csrIn_csr hd hex]
    simp only
    split_ifs <;> rfl
  have hl : (executeUnit f .low d).csrIn.extInt = .low := rfl
  rw [f.isInt_eq hi, hl, takesInt_low]

theorem excNO_csr : excNO (executeUnit f .low d).csrIn.ex =
    if csrIllegal f (csrRen d.info) fm.1 (w.extractLsb' 20 12) then illegalInst else noException := by
  have hraise : ∀ v, excNO (ExceptionInfo.none.raise illegalInst v) = illegalInst := fun _ => rfl
  rw [csrIn_csr hd hex]
  simp only
  split_ifs
  · exact hraise _
  · exact excNO_none

theorem traps_csr : f.traps (executeUnit f .low d).csrIn =
    csrIllegal f (csrRen d.info) fm.1 (w.extractLsb' 20 12) := by
  rw [CSRRegFile.traps, isInt_csr hd hex, excNO_csr hd hex]
  cases csrIllegal f (csrRen d.info) fm.1 (w.extractLsb' 20 12) <;> rfl

/-- **An illegal CSR instruction** is trap entry alone. -/
theorem trapEntered_csr (hill : csrIllegal f (csrRen d.info) fm.1 (w.extractLsb' 20 12) = true)
    (hw : (fm.1 && f.wlegal fm.1 (w.extractLsb' 20 12)) = false) :
    TrapEntered f (f.next (executeUnit f .low d).csrIn) 2 (w.setWidth 64) d.pc := by
  have hexc := excNO_csr (f := f) hd hex
  rw [if_pos hill] at hexc
  have hin := csrIn_csr (f := f) hd hex
  rw [if_pos hill] at hin
  have hwrite : f.writeRegs (executeUnit f .low d).csrIn.write = f.regs := by
    rw [hin, CSRRegFile.writeRegs]
    exact if_neg (by simp only [hw]; exact Bool.false_ne_true)
  have ht := f.trapEntered_next (i := (executeUnit f .low d).csrIn) rfl (isInt_csr hd hex)
    (by rw [hexc]; decide) (by rw [hin]) fun r _ => by rw [hwrite]
  rw [hexc] at ht
  rw [hin] at ht ⊢
  exact ht

/-- the registers after the instruction has gone through WriteBack -/
theorem regs_csr (regs : ARegFile) (ld : BitVec 64) :
    writeBackUnit regs (memoryUnit (executeUnit f .low d).memoryStage ld) =
      regs.write (!csrIllegal f (csrRen d.info) fm.1 (w.extractLsb' 20 12)) (RvInstr.rd w)
        (f.rdata (csrRen d.info) (w.extractLsb' 20 12)) := by
  have hflush : (executeUnit f .low d).csrFtc.flush =
      csrIllegal f (csrRen d.info) fm.1 (w.extractLsb' 20 12) := by
    have hm : (executeUnit f .low d).csrIn.mret = false := by rw [csrIn_csr hd hex]
    show ((executeUnit f .low d).csrIn.mret || f.traps (executeUnit f .low d).csrIn) = _
    rw [hm, traps_csr hd hex, Bool.false_or]
  have hdata : (executeUnit f .low d).memoryStage.rdWdata =
      f.rdata (csrRen d.info) (w.extractLsb' 20 12) := by
    show (fu f d).wdata = _
    rw [fu_csr hd hex]
    rfl
  have hinfo := executeUnit_info f .low d
  rw [hflush] at hinfo
  unfold writeBackUnit memoryUnit
  rw [hdata, hinfo]
  cases csrIllegal f (csrRen d.info) fm.1 (w.extractLsb' 20 12) with
  | true => simp [ARegFile.write]
  | false => simp [hd.valid, hd.rd, hd.regWen, hd.fusel]

end

/-! ## the registers of the reference -/

/-- The registers of the table in the reference; `cycle` counts on and has no counterpart. -/
def RvPriv.reg (p : RvPriv) : CReg → Option (BitVec 64)
  | .mvendorid | .marchid | .mimpid => some 0
  | .mhartid => some p.hartId
  | .mstatus => some p.status
  | .misa => some p.misa
  | .mie => some p.ie
  | .mtvec => some p.mtvec
  | .mcounteren => some p.mcounteren
  | .mscratch => some p.mscratch
  | .mepc => some p.mepc
  | .mcause => some p.mcause
  | .mtval => some p.mtval
  | .mip => some p.ip
  | .tselect => some 1
  | .tdata1 => some 0
  | _ => none

/-- Related states: the same mode, and the same registers as far as both sides have them. -/
structure SameCsrs (f : CSRRegFile) (p : RvPriv) : Prop where
  mode : f.regMode = p.curPriv
  regs : ∀ r v, p.reg r = some v → f.regs r = v

theorem csrRead_reg (p : RvPriv) {a : BitVec 12} (ha : a ∈ csrAddrs) (hc : a ≠ CSRAddr.cycle) :
    p.reg (csrLookup a).1 = p.csrRead a ∧ (p.csrRead a).isSome = true := by
  simp only [csrAddrs, addrTable, List.map_cons, List.map_nil, List.mem_cons, List.not_mem_nil,
    or_false] at ha
  rcases ha with rfl | rfl | rfl | rfl | rfl | rfl | rfl | rfl | rfl | rfl | rfl | rfl | rfl |
    rfl | rfl | rfl | rfl
  · exact absurd rfl hc
  all_goals exact ⟨rfl, rfl⟩

/-- The register of the table is what the reference reads, except for `cycle`. -/
theorem csrRead_same {f : CSRRegFile} {p : RvPriv} (h : SameCsrs f p) {a : BitVec 12}
    (ha : a ∈ csrAddrs) : ∃ old, p.csrRead a = some old ∧
      (a ≠ CSRAddr.cycle → f.regs (csrLookup a).1 = old) := by
  by_cases hc : a = CSRAddr.cycle
  · rw [hc]
    exact ⟨_, rfl, fun hn => absurd rfl hn⟩
  · obtain ⟨hreg, hsome⟩ := csrRead_reg p ha hc
    obtain ⟨old, hold⟩ := Option.isSome_iff_exists.mp hsome
    exact ⟨old, hold, fun _ => h.regs _ _ (hreg.trans hold)⟩

/-- the value that a write leaves in a register of the reference -/
def RvPriv.written (p : RvPriv) (flags : Flags) (r : CReg) (data : BitVec 64) : Option (BitVec 64) :=
  match r with
  | .mstatus => some (p.writeMstatus flags data)
  | .mie | .mip => some (data &&& mIntMask)
  | .mtvec | .mscratch | .mepc | .mcause | .mtval => some data
  | r => p.reg r

/-- the registers of the table that have a write port -/
theorem csrAddrs_write {a : BitVec 12} (ha : a ∈ csrAddrs) (hw : CSRAddr.enWrite a = true) :
    a = CSRAddr.mstatus ∨ a = CSRAddr.misa ∨ a = CSRAddr.mie ∨ a = CSRAddr.mtvec ∨
      a = CSRAddr.mcounteren ∨ a = CSRAddr.mscratch ∨ a = CSRAddr.mepc ∨ a = CSRAddr.mcause ∨
      a = CSRAddr.mtval ∨ a = CSRAddr.mip ∨ a = CSRAddr.tselect ∨ a = CSRAddr.tdata1 := by
  simp only [csrAddrs, addrTable, List.map_cons, List.map_nil, List.mem_cons, List.not_mem_nil,
    or_false] at ha
  -- the read-only registers come first in the table
  rcases ha with rfl | rfl | rfl | rfl | rfl | h
  iterate 5 exact absurd hw (by decide)
  exact h

/-- **`csr_write` changes one register.** -/
theorem csrWrite_reg (p : RvPriv) (flags : Flags) {a : BitVec 12} (ha : a ∈ csrAddrs)
    (hw : CSRAddr.enWrite a = true) (data : BitVec 64)
    (ht : a = CSRAddr.mtvec → Tvec.mode data ≤ 1) :
    ∃ p', p.csrWrite flags a data = .ok (some p') ∧ p'.curPriv = p.curPriv ∧
      p'.reg = Function.update p.reg (csrLookup a).1 (p.written flags (csrLookup a).1 data) := by
  rcases csrAddrs_write ha hw with rfl | rfl | rfl | rfl | rfl | rfl | rfl | rfl | rfl | rfl | rfl |
    rfl
  -- `mtvec`, the fourth, checks what it is given
  iterate 3 exact ⟨_, rfl, rfl, by funext r; cases r <;> rfl⟩
  · have hm : assertThat (decide (Tvec.mode data ≤ 1)) = .ok () := by
      rw [decide_eq_true (ht rfl)]
      rfl
    refine ⟨{ p with mtvec := data }, ?_, rfl, by funext r; cases r <;> rfl⟩
    show (assertThat (decide (Tvec.mode data ≤ 1)) >>= fun _ => _) = _
    rw [hm]
    rfl
  all_goals exact ⟨_, rfl, rfl, by funext r; cases r <;> rfl⟩

/-- The bits of `mstatus` after a write: MIE, MPIE, MPRV and, for a supported mode, MPP. -/
theorem getLsbD_writeLaw (old d : BitVec 64) {k : ℕ} (hk : k < 64) :
    (writeLaw .mstatus 0x21888 old d).getLsbD k =
      if k ∈ [3, 7, 17] ∨ (k ∈ [11, 12] ∧ (Mstatus.mpp d = 3 ∨ Mstatus.mpp d = 0))
        then d.getLsbD k else old.getLsbD k := by
  have hmask : ∀ k < 64,
      (0x21888 : BitVec 64).getLsbD k = decide (k ∈ [3, 7, 17] ∨ k ∈ [11, 12]) ∧
      ((0x21888 : BitVec 64) &&& ~~~fieldMask 64 11 2).getLsbD k = decide (k ∈ [3, 7, 17]) := by
    decide
  have hmode : (True ∧ (d.extractLsb' 11 2 = Privilege.s ∨ d.extractLsb' 11 2 = Privilege.h)) ↔
      ¬ (Mstatus.mpp d = 3 ∨ Mstatus.mpp d = 0) := by
    show (True ∧ (Mstatus.mpp d = Privilege.s ∨ Mstatus.mpp d = Privilege.h)) ↔ _
    generalize Mstatus.mpp d = m
    revert m
    decide
  have hmerge : ∀ m : BitVec 64, ((d &&& m) ||| (old &&& ~~~m)).getLsbD k =
      if m.getLsbD k then d.getLsbD k else old.getLsbD k := by
    intro m
    rw [BitVec.getLsbD_or, BitVec.getLsbD_and, BitVec.getLsbD_and, BitVec.getLsbD_not]
    cases m.getLsbD k <;> simp [hk]
  obtain ⟨h₁, h₂⟩ := hmask k hk
  unfold writeLaw
  by_cases hs : Mstatus.mpp d = 3 ∨ Mstatus.mpp d = 0
  · have hn := hmode.not.mpr (not_not.mpr hs)
    simp only [if_neg hn, hs, and_true]
    refine (hmerge _).trans ?_
    rw [h₁]
    simp only [decide_eq_true_eq]
  · have hy := hmode.mpr hs
    simp only [if_pos hy, hs, and_false, or_false]
    refine (hmerge _).trans ?_
    rw [h₂]
    simp only [decide_eq_true_eq]

/-- Both sides write the same `mstatus`. -/
theorem writeMstatus_law (p : RvPriv) {flags : Flags} (hf : flags.onlyModeM = false) (d : BitVec 64) :
    writeLaw .mstatus 0x21888 p.status d = p.writeMstatus flags d := by
  have hw : p.writeMstatus flags d = Mstatus.setMprv (Mstatus.setMpp
      (Mstatus.setMpie (Mstatus.setMie p.status (Mstatus.mie d)) (Mstatus.mpie d))
      (if Mstatus.mpp d = 3 ∨ Mstatus.mpp d = 0 then Mstatus.mpp d else Mstatus.mpp p.status))
      (Mstatus.mprv d) := by
    simp [RvPriv.writeMstatus, hf]
  rw [hw]
  refine eq_of_mpp_of_bits ?_ fun k h11 h12 hk => ?_
  · rw [Mstatus.setMprv, extract_putField_of_disjoint _ _ (by omega), Mstatus.setMpp,
      extract_putField _ _ _ (by decide)]
    apply BitVec.eq_of_getLsbD_eq
    intro i hi
    have hmem : 11 + i ∉ [3, 7, 17] ∧ 11 + i ∈ [11, 12] := by
      have key : ∀ i < 2, 11 + i ∉ [3, 7, 17] ∧ 11 + i ∈ [11, 12] := by decide
      exact key i hi
    rw [BitVec.getLsbD_extractLsb', getLsbD_writeLaw _ _ (by omega)]
    simp only [hmem.1, hmem.2, false_or, true_and, hi, decide_true, Bool.true_and]
    split_ifs with hs
    · simp [Mstatus.mpp, hi]
    · simp [Mstatus.mpp, hi]
  · have h1112 : k ∉ [11, 12] := by simp [h11, h12]
    have hmem : k ∈ [3, 7, 17] ↔ k = 3 ∨ k = 7 ∨ k = 17 := by simp
    rw [getLsbD_writeLaw _ _ hk, Mstatus.setMprv, getLsbD_putBit _ _ (by decide), Mstatus.setMpp,
      getLsbD_putField_of_notMem _ _ _ (by omega), Mstatus.setMpie, getLsbD_putBit _ _ (by decide),
      Mstatus.setMie, getLsbD_putBit _ _ (by decide)]
    simp only [h1112, false_and, or_false, hmem]
    by_cases h17 : k = 17
    · simp [h17, Mstatus.mprv]
    · by_cases h7 : k = 7
      · simp [h7, Mstatus.mpie]
      · by_cases h3 : k = 3
        · simp [h3, Mstatus.mie]
        · simp [h17, h7, h3]

/-! ## where the designs agree -/

/-- The data for which the designs agree: the reference holds only the bits of `m_int_mask` in
`mie` and `mip`, the CPU all bits in `mie` and three in `mip`; `mcounteren` is fixed in the
reference. -/
def DesignAgrees (p : RvPriv) (a : BitVec 12) (data : BitVec 64) : Prop :=
  (a = CSRAddr.mie → data &&& ~~~mIntMask = 0) ∧ (a = CSRAddr.mcounteren → data = p.mcounteren) ∧
    (a = CSRAddr.mip → data &&& mIntMask = p.ip)

theorem and_eq_self_iff_mask (d m : BitVec 64) : d = d &&& m ↔ d &&& ~~~m = 0 := by
  have h := merge_eq_self_iff (0#64) d (~~~m)
  rw [BitVec.zero_and, BitVec.zero_or, BitVec.not_not] at h
  exact ⟨fun e => (h.mp e.symm).symm, fun e => (h.mpr e.symm).symm⟩

theorem designAgrees_of_notMem (p : RvPriv) {a : BitVec 12}
    (h : a ∉ [CSRAddr.mie, CSRAddr.mcounteren, CSRAddr.mip]) (d : BitVec 64) : DesignAgrees p a d := by
  simp only [List.mem_cons, List.not_mem_nil, or_false, not_or] at h
  exact ⟨fun e => absurd e h.1, fun e => absurd e h.2.1, fun e => absurd e h.2.2⟩

/-- **The law of the CPU against the write of the reference**, register by register. -/
theorem written_iff {f : CSRRegFile} {p : RvPriv} (h : SameCsrs f p) {flags : Flags}
    (hf : flags.onlyModeM = false) {a : BitVec 12} (ha : a ∈ csrAddrs)
    (hw : CSRAddr.enWrite a = true) (d : BitVec 64) (hlaw : LawfulData f ⟨true, a, d⟩) :
    (∀ v, p.written flags (csrLookup a).1 d = some v →
      writeLaw (csrLookup a).1 (csrLookup a).2.2 (f.regs (csrLookup a).1) d = v) ↔
        DesignAgrees p a d := by
  have hfull : ∀ (c : CReg) (old : BitVec 64), c ≠ .mstatus →
      writeLaw c 0xFFFFFFFFFFFFFFFF old d = d := by
    intro c old hc
    have ho : (0xFFFFFFFFFFFFFFFF : BitVec 64) = BitVec.allOnes 64 := by decide
    rw [writeLaw_plain hc, ho, BitVec.and_allOnes, BitVec.not_allOnes, BitVec.and_zero,
      BitVec.or_zero]
  have hnone : ∀ (c : CReg) (old : BitVec 64), c ≠ .mstatus → writeLaw c 0 old d = old := by
    intro c old hc
    have hz : ~~~(0 : BitVec 64) = BitVec.allOnes 64 := by decide
    rw [writeLaw_plain hc, hz, BitVec.and_allOnes, show d &&& (0 : BitVec 64) = 0#64 from
      BitVec.and_zero, BitVec.zero_or]
  have hsome : ∀ x y : BitVec 64, (∀ v, some x = some v → y = v) ↔ y = x := fun x y =>
    ⟨fun hv => hv x rfl, fun hy v hv => hy.trans (Option.some.inj hv)⟩
  -- a register that both designs treat alike
  have hplain : ∀ {a : BitVec 12} {x y : BitVec 64},
      a ∉ [CSRAddr.mie, CSRAddr.mcounteren, CSRAddr.mip] → y = x →
        ((∀ v, some x = some v → y = v) ↔ DesignAgrees p a d) := fun hmem e =>
    iff_of_true ((hsome _ _).mpr e) (designAgrees_of_notMem p hmem d)
  rcases csrAddrs_write ha hw with rfl | rfl | rfl | rfl | rfl | rfl | rfl | rfl | rfl | rfl | rfl |
    rfl
  · refine hplain (by decide) ?_
    show writeLaw .mstatus 0x21888 (f.regs .mstatus) d = _
    rw [h.regs .mstatus p.status rfl, writeMstatus_law p hf]
  · exact hplain (by decide) ((hnone .misa _ (by decide)).trans (h.regs .misa _ rfl))
  · refine (hsome (d &&& mIntMask) _).trans ?_
    show writeLaw .mie 0xFFFFFFFFFFFFFFFF (f.regs .mie) d = _ ↔ _
    rw [hfull .mie _ (by decide), and_eq_self_iff_mask]
    exact ⟨fun e => ⟨fun _ => e, fun e => absurd e (by decide), fun e => absurd e (by decide)⟩,
      fun e => e.1 rfl⟩
  · exact hplain (by decide) (hfull .mtvec _ (by decide))
  · refine (hsome p.mcounteren _).trans ?_
    show writeLaw .mcounteren 0xFFFFFFFFFFFFFFFF (f.regs .mcounteren) d = _ ↔ _
    rw [hfull .mcounteren _ (by decide)]
    exact ⟨fun e => ⟨fun e => absurd e (by decide), fun _ => e, fun e => absurd e (by decide)⟩,
      fun e => e.2.1 rfl⟩
  · exact hplain (by decide) (hfull .mscratch _ (by decide))
  · exact hplain (by decide) (hfull .mepc _ (by decide))
  · exact hplain (by decide) (hfull .mcause _ (by decide))
  · exact hplain (by decide) (hfull .mtval _ (by decide))
  · refine (hsome (d &&& mIntMask) _).trans ?_
    have hmip : (csrLookup CSRAddr.mip).1 = .mip := by decide
    change LawfulData f ⟨true, CSRAddr.mip, d⟩ at hlaw
    simp only [LawfulData, hmip] at hlaw
    have hkeep : writeLaw .mip 0x888 (f.regs .mip) d = f.regs .mip :=
      (writeLaw_plain (by decide) _ _ _).trans ((merge_eq_self_iff _ _ _).mpr hlaw)
    show writeLaw .mip 0x888 (f.regs .mip) d = _ ↔ _
    rw [hkeep, h.regs .mip p.ip rfl]
    exact ⟨fun e => ⟨fun e => absurd e (by decide), fun e => absurd e (by decide), fun _ => e.symm⟩,
      fun e => (e.2.2 rfl).symm⟩
  · exact hplain (by decide) ((hnone .tselect _ (by decide)).trans (h.regs .tselect _ rfl))
  · exact hplain (by decide) ((hnone .tdata1 _ (by decide)).trans (h.regs .tdata1 _ rfl))

section
variable {f f' : CSRRegFile} {p p' : RvPriv} {r₀ : CReg} {v₀ : Option (BitVec 64)}

/-- Related states after one register was changed on both sides. -/
theorem sameCsrs_update (h : SameCsrs f p) (hm : f'.regMode = p'.curPriv)
    (hp : p'.reg = Function.update p.reg r₀ v₀) (hf : ∀ r, r ≠ r₀ → f'.regs r = f.regs r) :
    SameCsrs f' p' ↔ ∀ v, v₀ = some v → f'.regs r₀ = v := by
  constructor
  · intro h' v hv
    exact h'.regs r₀ v (by rw [hp, Function.update_self, hv])
  · refine fun hv => ⟨hm, fun r v hr => ?_⟩
    by_cases e : r = r₀
    · subst e
      rw [hp, Function.update_self] at hr
      exact hv v hr
    · rw [hp, Function.update_of_ne e] at hr
      rw [hf r e]
      exact h.regs r v hr

end

section
variable {f : CSRRegFile} {p : RvPriv} (h : SameCsrs f p) {a : BitVec 12} {d pc : BitVec 64}
include h

/-- Without a write both sides stay as they are. -/
theorem sameCsrs_read (ht : f.traps ⟨⟨false, a, d⟩, .low, .none, false, pc⟩ = false) :
    SameCsrs (f.next ⟨⟨false, a, d⟩, .low, .none, false, pc⟩) p := by
  have hregs := f.next_regs_quiet (i := ⟨⟨false, a, d⟩, .low, .none, false, pc⟩) ht rfl
  rw [f.mipNext_low, CSRRegFile.writeRegs, if_neg (by simp), Function.update_eq_self] at hregs
  refine ⟨(f.next_mode_quiet ht rfl).trans h.mode, fun r v hr => ?_⟩
  rw [hregs]
  exact h.regs r v hr

/-- **A write** leaves related states exactly when the data is such that the designs agree. -/
theorem sameCsrs_write_iff {p' : RvPriv} {flags : Flags} (hinv : PrivInv f)
    (hf : flags.onlyModeM = false) (ha : a ∈ csrAddrs) (hw : CSRAddr.enWrite a = true)
    (hleg : f.wlegal true a = true) (ht : f.traps ⟨⟨true, a, d⟩, .low, .none, false, pc⟩ = false)
    (hlaw : LawfulData f ⟨true, a, d⟩) (hpriv : p'.curPriv = p.curPriv)
    (hreg : p'.reg = Function.update p.reg (csrLookup a).1 (p.written flags (csrLookup a).1 d)) :
    SameCsrs (f.next ⟨⟨true, a, d⟩, .low, .none, false, pc⟩) p' ↔ DesignAgrees p a d := by
  have hobey := (writeObeys_of_privInv hinv ⟨⟨true, a, d⟩, .low, .none, false, pc⟩ rfl ht rfl rfl
    hleg).mpr hlaw
  have hmode := (hobey.mode.trans h.mode).trans hpriv.symm
  rw [sameCsrs_update h hmode hreg hobey.frame, hobey.value]
  exact written_iff h hf ha hw d hlaw

end

section
variable {δ : Type} (c : RvCore δ)

/-- A CSR instruction that the reference refuses. -/
theorem csrOp_illegal (flags : Flags) {w : BitVec 32} {fm : Bool × (BitVec 64 → BitVec 64)}
    (h : c.priv.csrOpPermissionCheck (w.extractLsb' 20 12) fm.1 = false) :
    c.csrOp flags w fm.1 fm.2 = c.illegal := by
  unfold RvCore.csrOp
  simp only [h, Bool.not_false, if_true]

/-- A CSR instruction that the reference carries out, `p'` being the state after the write. -/
theorem csrOp_legal (flags : Flags) {w : BitVec 32} {fm : Bool × (BitVec 64 → BitVec 64)}
    {old : BitVec 64} {p' : RvPriv}
    (h : c.priv.csrOpPermissionCheck (w.extractLsb' 20 12) fm.1 = true)
    (hr : c.priv.csrRead (w.extractLsb' 20 12) = some old)
    (hw : (if fm.1 then c.priv.csrWrite flags (w.extractLsb' 20 12) (fm.2 old)
      else .ok (some c.priv)) = .ok (some p')) :
    ∃ e, c.csrOp flags w fm.1 fm.2 = .ok e ∧ e.ri = false ∧ e.core.priv = p' ∧
      e.core.GPR = ARegFile.write c.GPR true (RvInstr.rd w) old := by
  have hop : c.csrOp flags w fm.1 fm.2 = if RvInstr.rd w != 0 then
      ({ c with priv := p' }.setGPR (RvInstr.rd w) old).done else { c with priv := p' }.done := by
    unfold RvCore.csrOp
    simp only [h, hr, Bool.not_true, Bool.false_eq_true, if_false]
    cases hb : fm.1 with
    | true =>
      rw [hb, if_pos rfl] at hw
      rw [if_pos rfl, hw]
      rfl
    | false =>
      rw [hb, if_neg Bool.false_ne_true] at hw
      rw [if_neg Bool.false_ne_true, hw]
      rfl
  rw [hop]
  unfold ARegFile.write
  cases hrd : RvInstr.rd w != 0 with
  | true => exact ⟨_, if_pos rfl, rfl, rfl, if_pos hrd⟩
  | false => exact ⟨_, if_neg Bool.false_ne_true, rfl, rfl, rfl⟩

/-- the case of `decode_exec` for a CSR instruction -/
theorem system_csr (flags : Flags) {w : BitVec 32} {fm : Bool × (BitVec 64 → BitVec 64)}
    (hf : c.csrForm w = some fm) : c.system flags w = c.csrOp flags w fm.1 fm.2 := by
  have h0 : RvInstr.funct3 w ≠ Funct3.PRIV := by
    intro h0
    have h3 := funct3_csrForm c hf
    rw [← funct3_eq, h0] at h3
    exact h3 (by decide)
  rw [RvCore.system_eq, if_neg h0, hf]
  rfl

end

/-! ## lockstep -/

section
variable {δ : Type} (flags : Flags) (f : CSRRegFile) (c : RvCore δ) (w : BitVec 32)

/-- the address of a CSR instruction -/
def csrAddr : BitVec 12 := w.extractLsb' 20 12

/-- What the instruction makes of the CSRs and of the registers is the same on both sides: it is
illegal on both and no more than a trap is entered, or legal on both. -/
def CsrAgrees : Prop :=
  let out := (c.toArch f).execute .low w
  let regs ld := writeBackUnit c.GPR ((c.toArch f).result .low w ld)
  ∃ e, c.system flags w = .ok e ∧ (excNO out.csrIn.ex = illegalInst ↔ e.ri = true) ∧
    (e.ri = true → TrapEntered f (f.next out.csrIn) 2 (w.setWidth 64) c.pc ∧
      (∀ ld, regs ld = c.GPR) ∧ e.core.priv = c.priv ∧ e.core.GPR = c.GPR) ∧
    (e.ri = false → SameCsrs (f.next out.csrIn) e.core.priv ∧
      ∀ ld r, r ≠ RvInstr.rd w ∨ csrAddr w ≠ CSRAddr.cycle → regs ld r = e.core.GPR r)

/-- The data show none of the slips of the two write ports: the one of the CPU obeys its law, and
the mode of `mtvec` is one that the reference accepts. -/
def PlainData (a : BitVec 12) (data : BitVec 64) : Prop :=
  LawfulData f ⟨true, a, data⟩ ∧ (a = CSRAddr.mtvec → Tvec.mode data ≤ 1)

end

section
variable {δ : Type} {flags : Flags} {f : CSRRegFile} {c : RvCore δ} {w : BitVec 32}
  {fm : Bool × (BitVec 64 → BitVec 64)} (hinv : PrivInv f) (h : SameCsrs f c.priv)
  (hd : CsrSlot ((c.toArch f).slot w) w fm) (hex : ((c.toArch f).slot w).ex = .none)
  (ha : csrAddr w ∈ csrAddrs)
include hd hex ha

/-- **Illegal on the CPU.** -/
theorem csr_refused (hill : csrIllegal f (csrRen ((c.toArch f).slot w).info) fm.1 (csrAddr w) = true)
    (hm : f.regMode = Privilege.u ∨ f.regMode = Privilege.m) :
    excNO ((c.toArch f).execute .low w).csrIn.ex = illegalInst ∧
      TrapEntered f (f.next ((c.toArch f).execute .low w).csrIn) 2 (w.setWidth 64) c.pc ∧
      ∀ ld, writeBackUnit c.GPR ((c.toArch f).result .low w ld) = c.GPR := by
  have hwl : (fm.1 && f.wlegal fm.1 (csrAddr w)) = false := by
    cases hb : fm.1 with
    | false => rfl
    | true =>
      have hi := (csrIllegal_iff hm ha (.inr hb)).mp hill
      have hi' : csrIllegal f false true (csrAddr w) = true :=
        (csrIllegal_iff hm ha (.inr rfl)).mpr (hb ▸ hi)
      simpa [csrIllegal, CSRRegFile.rlegal] using hi'
  refine ⟨?_, trapEntered_csr hd hex hill hwl, fun ld => ?_⟩
  · exact (excNO_csr hd hex).trans (if_pos hill)
  · have e : csrIllegal (c.toArch f).csr (csrRen ((c.toArch f).slot w).info) fm.1
        (w.extractLsb' 20 12) = true := hill
    refine (regs_csr hd hex c.GPR ld).trans ?_
    rw [e]
    rfl

omit hex in
/-- What a legal instruction reads is the register, as far as it is used. -/
theorem rdata_csr
    (hleg : csrIllegal f (csrRen ((c.toArch f).slot w).info) fm.1 (csrAddr w) = false) :
    fm.2 (f.rdata (csrRen ((c.toArch f).slot w).info) (csrAddr w)) =
        fm.2 (f.regs (csrLookup (csrAddr w)).1) ∧
      ∀ regs : ARegFile, regs.write true (RvInstr.rd w)
          (f.rdata (csrRen ((c.toArch f).slot w).info) (csrAddr w)) =
        regs.write true (RvInstr.rd w) (f.regs (csrLookup (csrAddr w)).1) := by
  rcases hd.ren with hr | ⟨h0, -, hconst⟩
  · have hrl : f.rlegal true (csrAddr w) = true := by
      rw [hr] at hleg
      simpa using (Bool.or_eq_false_iff.mp hleg).1
    have hdata : f.rdata true (csrAddr w) = f.regs (csrLookup (csrAddr w)).1 := by
      rw [CSRRegFile.rdata, hrl, (csrAddrs_entry ha).2.1, BitVec.and_allOnes]
      rfl
    rw [hr, hdata]
    exact ⟨rfl, fun _ => rfl⟩
  · refine ⟨hconst _ _, fun regs => ?_⟩
    rw [h0]
    rfl

/-- **Legal on the CPU.** -/
theorem csr_accepted
    (hleg : csrIllegal f (csrRen ((c.toArch f).slot w).info) fm.1 (csrAddr w) = false) :
    ((c.toArch f).execute .low w).csrIn =
        ⟨⟨fm.1, csrAddr w, fm.2 (f.regs (csrLookup (csrAddr w)).1)⟩, .low, .none, false, c.pc⟩ ∧
      f.traps ((c.toArch f).execute .low w).csrIn = false ∧
      ∀ ld, writeBackUnit c.GPR ((c.toArch f).result .low w ld) =
        ARegFile.write c.GPR true (RvInstr.rd w) (f.regs (csrLookup (csrAddr w)).1) := by
  have e : csrIllegal (c.toArch f).csr (csrRen ((c.toArch f).slot w).info) fm.1
      (w.extractLsb' 20 12) = false := hleg
  obtain ⟨hdata, hrd⟩ := rdata_csr hd ha hleg
  refine ⟨?_, (traps_csr hd hex).trans hleg, fun ld => ?_⟩
  · refine (csrIn_csr hd hex).trans ?_
    rw [e, show fm.2 ((c.toArch f).csr.rdata _ (w.extractLsb' 20 12)) = _ from hdata]
    rfl
  · refine (regs_csr hd hex c.GPR ld).trans ?_
    rw [e]
    exact hrd c.GPR

end

/-- **Permission in the reference**: machine mode, and no write to a read-only address. -/
theorem csrOpPermissionCheck_iff (p : RvPriv) (a : BitVec 12) (write : Bool) :
    p.csrOpPermissionCheck a write = true ↔
      p.curPriv = PrivMode.M_MODE ∧ ¬ (write = true ∧ CSRAddr.enWrite a = false) := by
  have hro : (a.extractLsb' 10 2 == 3) = !CSRAddr.enWrite a := by
    rw [CSRAddr.enWrite, bne, Bool.not_not]
  unfold RvPriv.csrOpPermissionCheck
  rw [hro]
  by_cases hm : p.curPriv = PrivMode.M_MODE
  · have hb : (p.curPriv != PrivMode.M_MODE) = false := by simp [hm]
    rw [hb]
    cases write <;> cases CSRAddr.enWrite a <;> simp [hm]
  · have hb : (p.curPriv != PrivMode.M_MODE) = true := by simp [hm]
    rw [hb]
    simp [hm]

section
variable {δ : Type} {flags : Flags} {f : CSRRegFile} {c : RvCore δ} {w : BitVec 32}
  {fm : Bool × (BitVec 64 → BitVec 64)} (hinv : PrivInv f) (h : SameCsrs f c.priv)
  (hflags : flags.onlyModeM = false)
  (hd : CsrSlot ((c.toArch f).slot w) w fm) (hex : ((c.toArch f).slot w).ex = .none)
  (ha : csrAddr w ∈ csrAddrs)

include hd hex ha

/-- Both sides refuse. -/
theorem csrAgrees_refused (hsys : c.system flags w = c.illegal)
    (hm : f.regMode = Privilege.u ∨ f.regMode = Privilege.m)
    (hill : csrIllegal f (csrRen ((c.toArch f).slot w).info) fm.1 (csrAddr w) = true) :
    CsrAgrees flags f c w := by
  obtain ⟨hexc, ht, hregs⟩ := csr_refused hd hex ha hill hm
  exact ⟨⟨c, true, false⟩, hsys, iff_of_true hexc rfl, fun _ => ⟨ht, hregs, rfl, rfl⟩,
    fun hri => (Bool.noConfusion hri)⟩

/-- The CPU carries out what the reference refuses. -/
theorem not_csrAgrees (hsys : c.system flags w = c.illegal)
    (hleg : csrIllegal f (csrRen ((c.toArch f).slot w).info) fm.1 (csrAddr w) = false) :
    ¬ CsrAgrees flags f c w := by
  rintro ⟨e, he, hri, -⟩
  obtain rfl := Except.ok.inj (hsys.symm.trans he)
  have hexc := hri.mpr rfl
  rw [(csr_accepted hd hex ha hleg).1] at hexc
  exact absurd hexc (by rw [excNO_none]; decide)

/-- Both sides carry the instruction out: the CSRs are left to compare. -/
theorem csrAgrees_accepted {e : ExecState δ} {p' : RvPriv} {old : BitVec 64}
    (hsys : c.system flags w = .ok e) (hri : e.ri = false) (hp : e.core.priv = p')
    (hgpr : e.core.GPR = ARegFile.write c.GPR true (RvInstr.rd w) old)
    (hold : csrAddr w ≠ CSRAddr.cycle → f.regs (csrLookup (csrAddr w)).1 = old)
    (hleg : csrIllegal f (csrRen ((c.toArch f).slot w).info) fm.1 (csrAddr w) = false) :
    CsrAgrees flags f c w ↔
      SameCsrs (f.next ⟨⟨fm.1, csrAddr w, fm.2 (f.regs (csrLookup (csrAddr w)).1)⟩, .low, .none,
        false, c.pc⟩) p' := by
  obtain ⟨hin, -, hregs⟩ := csr_accepted hd hex ha hleg
  have hexc : excNO ((c.toArch f).execute .low w).csrIn.ex ≠ illegalInst := by
    rw [hin, excNO_none]
    decide
  constructor
  · rintro ⟨e', he, -, -, hs⟩
    obtain rfl := Except.ok.inj (hsys.symm.trans he)
    have hsame := (hs hri).1
    rwa [hin, hp] at hsame
  · intro hs
    refine ⟨e, hsys, iff_of_false hexc (by simp [hri]), fun ht => ?_, fun _ => ⟨?_, ?_⟩⟩
    · exact Bool.noConfusion (hri.symm.trans ht)
    · rwa [hin, hp]
    · intro ld r hr
      refine (congrFun (hregs ld) r).trans ?_
      rw [hgpr]
      rcases hr with hr | hr
      · simp only [ARegFile.write]
        split_ifs
        · rw [Function.update_of_ne hr, Function.update_of_ne hr]
        · rfl
      · rw [hold hr]

end

section
variable {δ : Type} {flags : Flags} {f : CSRRegFile} {c : RvCore δ} {w : BitVec 32}
  {fm : Bool × (BitVec 64 → BitVec 64)} (h : SameCsrs f c.priv) (hinv : PrivInv f)
  (hflags : flags.onlyModeM = false)
include h hinv hflags

omit hinv hflags in
/-- The CPU accepts what the reference permits. -/
theorem csrIllegal_permitted (hd : CsrSlot ((c.toArch f).slot w) w fm) (ha : csrAddr w ∈ csrAddrs)
    (hperm : c.priv.csrOpPermissionCheck (csrAddr w) fm.1 = true) :
    csrIllegal f (csrRen ((c.toArch f).slot w).info) fm.1 (csrAddr w) = false := by
  obtain ⟨hm, hro⟩ := (csrOpPermissionCheck_iff c.priv _ _).mp hperm
  have hmode : f.regMode = Privilege.m := h.mode.trans hm
  have hren : csrRen ((c.toArch f).slot w).info = true ∨ fm.1 = true :=
    hd.ren.imp id fun hr => hr.2.1
  rw [← Bool.not_eq_true, csrIllegal_iff (.inr hmode) ha hren, hmode]
  rintro (⟨hu, -⟩ | ⟨-, hwr⟩)
  · exact absurd hu (by decide)
  · exact hro hwr

/-- **An instruction that the reference permits.** -/
theorem csrAgrees_permitted (hf : c.csrForm w = some fm)
    (hd : CsrSlot ((c.toArch f).slot w) w fm) (hex : ((c.toArch f).slot w).ex = .none)
    (ha : csrAddr w ∈ csrAddrs) (hperm : c.priv.csrOpPermissionCheck (csrAddr w) fm.1 = true)
    (hdata : fm.1 = true → PlainData f (csrAddr w) (fm.2 (f.regs (csrLookup (csrAddr w)).1))) :
    CsrAgrees flags f c w ↔ (fm.1 = true →
      DesignAgrees c.priv (csrAddr w) (fm.2 (f.regs (csrLookup (csrAddr w)).1))) := by
  have hro := ((csrOpPermissionCheck_iff c.priv _ _).mp hperm).2
  have hleg := csrIllegal_permitted h hd ha hperm
  have ht := (csr_accepted hd hex ha hleg).2.1
  rw [(csr_accepted hd hex ha hleg).1] at ht
  obtain ⟨old, hread, hold⟩ := csrRead_same h ha
  have hsys := system_csr c flags hf
  cases hb : fm.1 with
  | false =>
    have hwr : (if fm.1 then c.priv.csrWrite flags (csrAddr w) (fm.2 old)
        else .ok (some c.priv)) = .ok (some c.priv) := by
      rw [hb]
      rfl
    obtain ⟨e, he, hri, hp, hgpr⟩ := csrOp_legal c flags hperm hread hwr
    rw [csrAgrees_accepted hd hex ha (hsys.trans he) hri hp hgpr hold hleg, hb]
    rw [hb] at ht
    exact iff_of_true (sameCsrs_read h ht) fun hn => Bool.noConfusion hn
  | true =>
    have hen : CSRAddr.enWrite (csrAddr w) = true := by
      rw [← Bool.not_eq_false]
      exact fun hn => hro ⟨hb, hn⟩
    have hc : csrAddr w ≠ CSRAddr.cycle := by
      intro hc
      rw [hc] at hen
      exact absurd hen (by decide)
    obtain ⟨hlaw, hmtvec⟩ := hdata hb
    obtain ⟨p', hwr, hpriv, hreg⟩ := csrWrite_reg c.priv flags ha hen _ hmtvec
    have hwr' : (if fm.1 then c.priv.csrWrite flags (csrAddr w) (fm.2 old)
        else .ok (some c.priv)) = .ok (some p') := by
      rw [hb, ← hold hc]
      exact hwr
    obtain ⟨e, he, hri, hp, hgpr⟩ := csrOp_legal c flags hperm hread hwr'
    have hwl : f.wlegal true (csrAddr w) = true := by
      rw [csrIllegal, hb] at hleg
      simpa using (Bool.or_eq_false_iff.mp hleg).2
    rw [csrAgrees_accepted hd hex ha (hsys.trans he) hri hp hgpr hold hleg, hb]
    rw [hb] at ht
    rw [sameCsrs_write_iff h hinv hflags ha hen hwl ht hlaw hpriv hreg]
    exact ⟨fun hs _ => hs, fun hs => hs rfl⟩

/-- **CSR instructions agree**, except that user mode may read `cycle` on the CPU only and that the
two designs keep different bits of `mie`, `mip` and `mcounteren`. -/
theorem csr_lockstep_iff (hpc : c.pc.extractLsb' 0 2 = 0) (hw : opcodeOf w = Opcode.SYSTEM)
    (hf : c.csrForm w = some fm) (ha : csrAddr w ∈ csrAddrs)
    (hdata : c.priv.curPriv = PrivMode.M_MODE → fm.1 = true →
      CSRAddr.enWrite (csrAddr w) = true →
      PlainData f (csrAddr w) (fm.2 (f.regs (csrLookup (csrAddr w)).1))) :
    CsrAgrees flags f c w ↔
      ¬ (c.priv.curPriv = PrivMode.U_MODE ∧ csrAddr w = CSRAddr.cycle ∧ fm.1 = false) ∧
      (c.priv.curPriv = PrivMode.M_MODE → fm.1 = true →
        DesignAgrees c.priv (csrAddr w) (fm.2 (f.regs (csrLookup (csrAddr w)).1))) := by
  have hd := slot_csr c f hw hf
  have hv : (decoder w).valid = true := by
    rw [decoder_valid_row, decodeOf_csr hw (funct3_csrForm c hf)]
    rfl
  have hex : ((c.toArch f).slot w).ex = .none := Arch.slot_ex _ hv hpc
  have hren : csrRen ((c.toArch f).slot w).info = true ∨ fm.1 = true :=
    hd.ren.imp id fun hr => hr.2.1
  have hill := csrIllegal_iff hinv.mode ha hren
  rw [h.mode] at hill
  by_cases hperm : c.priv.csrOpPermissionCheck (csrAddr w) fm.1 = true
  · obtain ⟨hm, hro⟩ := (csrOpPermissionCheck_iff c.priv _ _).mp hperm
    rw [csrAgrees_permitted h hinv hflags hf hd hex ha hperm fun hb =>
      hdata hm hb (Bool.eq_true_of_not_eq_false fun hn => hro ⟨hb, hn⟩)]
    refine ⟨fun hs => ⟨fun hu => ?_, fun _ => hs⟩, fun hs => hs.2 hm⟩
    exact absurd (hm.symm.trans hu.1) (by decide)
  · have hsys : c.system flags w = c.illegal :=
      (system_csr c flags hf).trans (csrOp_illegal c flags (Bool.eq_false_of_not_eq_true hperm))
    have hdesign : c.priv.curPriv = PrivMode.M_MODE → fm.1 = true →
        DesignAgrees c.priv (csrAddr w) (fm.2 (f.regs (csrLookup (csrAddr w)).1)) := by
      intro hm hb
      refine designAgrees_of_notMem _ (fun hmem => hperm ?_) _
      have hen : CSRAddr.enWrite (csrAddr w) = true := by
        simp only [List.mem_cons, List.not_mem_nil, or_false] at hmem
        rcases hmem with e | e | e
        all_goals
          rw [e]
          decide
      exact (csrOpPermissionCheck_iff c.priv _ _).mpr
        ⟨hm, fun hn => Bool.noConfusion (hen.symm.trans hn.2)⟩
    by_cases hi : csrIllegal f (csrRen ((c.toArch f).slot w).info) fm.1 (csrAddr w) = true
    · refine iff_of_true (csrAgrees_refused hd hex ha hsys hinv.mode hi) ⟨fun hu => ?_, hdesign⟩
      rcases hill.mp hi with ⟨-, hn⟩ | ⟨hm, -⟩
      · exact hn hu.2
      · exact absurd (hm.symm.trans hu.1) (by decide)
    · refine iff_of_false (not_csrAgrees hd hex ha hsys (Bool.eq_false_of_not_eq_true hi))
        fun hs => hi (hill.mpr ?_)
      rcases hinv.mode with hm | hm
      · have hu : c.priv.curPriv = PrivMode.U_MODE := h.mode.symm.trans hm
        exact .inl ⟨hu, fun hn => hs.1 ⟨hu, hn⟩⟩
      · have hM : c.priv.curPriv = PrivMode.M_MODE := h.mode.symm.trans hm
        refine .inr ⟨hM, ?_⟩
        by_contra hn
        exact hperm ((csrOpPermissionCheck_iff c.priv _ _).mpr ⟨hM, hn⟩)

end

/-- the reference after reset, at the first instruction -/
def csrStart : RvCore MmioMem := { RvCore.boots [] with priv := refReset }

theorem sameCsrs_reset : SameCsrs .reset refReset := by
  refine ⟨rfl, fun r v hv => ?_⟩
  cases r
  all_goals
    cases hv
    try decide

/-- `csrrw x1, mscratch, x0` right after reset -/
theorem csr_lockstep_mscratch : CsrAgrees testFlags .reset csrStart 0x340010F3 := by
  have hform : csrStart.csrForm 0x340010F3 = some (true, fun _ => csrStart.GPR 0) := rfl
  refine (csr_lockstep_iff sameCsrs_reset privInv_reset rfl (by decide) (by decide) hform (by decide)
    fun _ _ _ => ⟨?_, ?_⟩).mpr ⟨?_, fun _ _ => ?_⟩
  · exact .inl (by decide)
  · intro e
    exact absurd e (by decide)
  · rintro ⟨hu, -⟩
    exact absurd hu (by decide)
  · exact designAgrees_of_notMem _ (by decide) _

/-- both sides in user mode -/
def csrUser : CSRRegFile := ⟨Privilege.u, CSRRegFile.reset.regs⟩

def csrUserRef : RvCore MmioMem := { csrStart with priv := { refReset with curPriv := PrivMode.U_MODE } }

/-- `csrrs x1, cycle, x0` in user mode is legal on the CPU and illegal in the reference. -/
theorem user_cycle_diverges : ¬ ∀ (f : CSRRegFile) (c : RvCore MmioMem) (w : BitVec 32)
    (fm : Bool × (BitVec 64 → BitVec 64)), SameCsrs f c.priv → PrivInv f → c.pc.extractLsb' 0 2 = 0 →
    opcodeOf w = Opcode.SYSTEM → c.csrForm w = some fm → csrAddr w ∈ csrAddrs →
    CsrAgrees testFlags f c w := by
  intro h
  obtain ⟨e, he, hri, -⟩ := h csrUser csrUserRef 0xC00020F3 (false, fun old => old ||| 0)
    ⟨rfl, sameCsrs_reset.regs⟩ ⟨.inl rfl, .inl (by decide), fun _ => by decide, privInv_reset.wf⟩
    (by decide) (by decide) rfl (by decide)
  obtain rfl := Except.ok.inj he
  have hex := hri.mpr rfl
  exact absurd hex (by decide +kernel)

end HduCpu
