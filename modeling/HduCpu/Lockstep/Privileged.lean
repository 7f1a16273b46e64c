import HduCpu.Lockstep.Step
import HduCpu.Ref.Effect

/-!
# System instructions on both sides, and a step of the reference

* `lockstep_nop`           `fence` and `wfi`;
* `lockstep_ecall`, `lockstep_ebreak`, `lockstep_mret`   calls and returns;
* `csr_quiet`, `csr_written`, `csr_sameCsrs`, `csr_sameWrite`   what a permitted one does;
* `lockstep_csr`, `lockstep_csr_refused`   CSR instructions;
* `lockstep_agreeing`      all the classes;
* `StepAgrees`, `exec_lockstep`   a whole step of the reference, with the fetch before it.
-/

namespace HduCpu

/-! ## instructions that do nothing -/

section
variable {c : RvCore MmioMem} {f : CSRRegFile} {mem : Bytes} (h : InStep c f mem)
  {flags : Flags} {w : BitVec 32} (rdata : BitVec 64)
include h

/-- a row of the table without an operation -/
theorem lockstep_nop {t : InstrType} (hd : decodeOf w = (t, .alu, ALUOpType.nop)) (ht : t ≠ .N)
    (hrvc : RvCore.isRvc w = false)
    (he : c.decodeExec flags w = .ok ⟨{ c with debugInst := w }, false, false⟩) :
    Lockstep flags c f mem rdata w := by
  have hv : (decoder w).valid = true := by
    rw [decoder_valid_row, hd]
    exact bne_iff_ne.mpr ht
  have hu : ((c.toArch f).slot w).info.fusel = .alu := (c.toArch f).slot_fusel hd
  obtain ⟨v, hfu⟩ := @fu_quiet f _ (.inl hu) ((c.toArch f).slot_ex hv h.pc)
  have hp : (fu f ((c.toArch f).slot w)).Plain := by
    rw [hfu]
    exact ⟨rfl, rfl, rfl⟩
  have hl : ((c.toArch f).slot w).info.fusel ≠ .lsu := by
    rw [hu]
    decide
  have hwen : ((c.toArch f).execute .low w).dataSram.wen = 0 := by
    show (fu f ((c.toArch f).slot w)).dataSram.wen = 0
    rw [hfu]
    rfl
  have hreg : ((c.toArch f).slot w).info.regWen = false := by
    rw [(c.toArch f).slot_regWen hd, beq_self_eq_true, beq_self_eq_true, Bool.and_self,
      Bool.not_true, Bool.and_false]
  refine lockstep_plain h rdata hp he rfl hrvc rfl h.debugPc ?_
    (SramXbar.dataChannel_quiet mem hwen rdata) h.bus ?_
  · rw [hfu]
    rfl
  · rw [@result_unit (c.toArch f) _ hp hl]
    exact sameWrite_none hreg rfl h.debugRegNum

theorem lockstep_fence (hw : RV32I_CSRInstr.FENCE.hit w = true) : Lockstep flags c f mem rdata w := by
  have hd : decodeOf w = (.I, .alu, ALUOpType.nop) :=
    @decodeOf_of_hit _ (RV32I_CSRInstr.FENCE, .I, .alu, ALUOpType.nop) (by decide +kernel) hw
  have ho : opcodeOf w = Opcode.FENCE := by
    have key : ∀ i < 7, RV32I_CSRInstr.FENCE.mask.getLsbD i = true ∧
        RV32I_CSRInstr.FENCE.value.getLsbD i = Opcode.FENCE.getLsbD i := by decide
    apply BitVec.eq_of_getLsbD_eq
    intro i hi
    obtain ⟨hm, hval⟩ := key i hi
    rw [← hval, ← BitPat.hit_bit hw hm, opcodeOf, BitVec.getLsbD_extractLsb', decide_eq_true hi,
      Bool.true_and, Nat.zero_add]
  have hrvc : RvCore.isRvc w = false := by rw [RvCore.isRvc, opcode_eq, ho]; rfl
  refine lockstep_nop h rdata hd (by decide) hrvc ?_
  simp only [RvCore.decodeExec, RvCore.isRvc, opcode_eq, ho]
  rfl

theorem lockstep_wfi (hw : w = 0x10500073) : Lockstep flags c f mem rdata w := by
  subst hw
  have hd : decodeOf 0x10500073 = (.R, .alu, ALUOpType.nop) := by decide +kernel
  exact lockstep_nop h rdata hd (by decide) (by decide) rfl

end

/-! ## calls and returns -/

/-- what Fu makes of `ecall`, `ebreak` and `mret` -/
theorem fu_call {f : CSRRegFile} {d : IdExeData} {op : BitVec 5} (hf : d.info.fusel = .csr)
    (hv : d.info.valid = true) (hex : d.ex = .none) (hop : d.info.op = op)
    (hmem : op ∈ [CSROpType.ecall, CSROpType.ebreak, CSROpType.mret]) :
    ∃ v x, fu f d = { FuOut.quiet v .none with
      write := ⟨false, d.info.csr, x⟩, newEx := csrCallEx d.info f.regMode .none
      mret := op == CSROpType.mret } := by
  have key : ∀ o ∈ [CSROpType.ecall, CSROpType.ebreak, CSROpType.mret],
      o ≠ CSROpType.csrrw ∧ o ≠ CSROpType.csrrs ∧ o ≠ CSROpType.csrrc := by decide
  obtain ⟨h1, h2, h3⟩ := key op hmem
  have hr : csrRen d.info = false := by simp [csrRen, hop, h1, h2, h3]
  have hw : csrWen d.info = false := by simp [csrWen, hop, h1, h2, h3]
  refine ⟨f.rdata false d.info.csr, csrWdata d.info d.srcInfo.src1Data (f.rdata false d.info.csr), ?_⟩
  simp only [fu, hf, csr, hr, hw, hex, hv, hop, CSRRegFile.rlegal, CSRRegFile.wlegal, if_true,
    Bool.true_and, Bool.false_and, Bool.not_false, Bool.not_true, Bool.or_self, Bool.false_eq_true,
    if_false]

section
variable {c : RvCore MmioMem} {f : CSRRegFile} {mem : Bytes} (h : InStep c f mem)
  {flags : Flags} {w : BitVec 32} (rdata : BitVec 64)
include h

/-- **A call**: a trap on both sides, with nothing in `mtval`. -/
theorem lockstep_call {op : BitVec 5} {no : Fin 16} (hd : decodeOf w = (.I, .csr, op))
    (hmem : op ∈ [CSROpType.ecall, CSROpType.ebreak]) (hno : no ≠ noException)
    (hex : csrCallEx ((c.toArch f).slot w).info f.regMode .none =
      { ExceptionInfo.none with exception := Function.update ExceptionInfo.none.exception no true })
    (hexno : excNO { ExceptionInfo.none with
      exception := Function.update ExceptionInfo.none.exception no true } = no)
    (hdir : c.priv.directTvec)
    (he : c.decodeExec flags w = .ok ⟨{ c with
      debugInst := w, priv := c.priv.enterM c.pc ⟨BitVec.ofNat 63 no, false⟩ 0 }, false, false⟩) :
    Lockstep flags c f mem rdata w := by
  have hv : (decoder w).valid = true := by
    rw [decoder_valid_row, hd]
    rfl
  have hmem' : op ∈ [CSROpType.ecall, CSROpType.ebreak, CSROpType.mret] := by
    simp only [List.mem_cons, List.not_mem_nil, or_false] at hmem ⊢
    exact hmem.imp_right .inl
  have hm : (op == CSROpType.mret) = false := by
    have key : ∀ o ∈ [CSROpType.ecall, CSROpType.ebreak], (o == CSROpType.mret) = false := by decide
    exact key op hmem
  obtain ⟨v, x, hfu⟩ := @fu_call f _ op ((c.toArch f).slot_fusel hd) (c.toArch f).slot_valid
    ((c.toArch f).slot_ex hv h.pc) ((c.toArch f).slot_op hd) hmem'
  rw [hex, hm] at hfu
  have htr : Traps (c.toArch f) w no 0 := by
    refine traps_of_raise hno ?_ ?_ ?_ ?_ ?_ ?_
    all_goals rw [show fu (c.toArch f).csr ((c.toArch f).slot w) = _ from hfu]
    · exact hexno
    all_goals rfl
  exact lockstep_raised h rdata htr (.inl hdir) he rfl rfl rfl rfl h.debugPc h.debugRegNum

theorem lockstep_ecall (hx : ¬ (flags.runRiscvTest = true ∧ c.GPR 17 = 93))
    (hdir : c.priv.directTvec) : Lockstep flags c f mem rdata 0x00000073 := by
  have hd : decodeOf 0x00000073 = (.I, .csr, CSROpType.ecall) := by decide +kernel
  have hexit : (flags.runRiscvTest && c.GPR 17 == 93) = false := by
    rw [← Bool.not_eq_true, Bool.and_eq_true, beq_iff_eq]
    exact hx
  have hop : ((c.toArch f).slot 0x00000073).info.op = CSROpType.ecall := (c.toArch f).slot_op hd
  -- the cause is 8 more than the mode
  have hcall : ∀ no : Fin 16, c.priv.curPriv.setWidth 63 + 8 = BitVec.ofNat 63 no →
      (BitVec.ofNat 63 no).setWidth 64 ≠ RvExcCode.instrPgfault →
      c.decodeExec flags 0x00000073 = .ok ⟨{ c with
        debugInst := 0x00000073, priv := c.priv.enterM c.pc ⟨BitVec.ofNat 63 no, false⟩ 0 },
        false, false⟩ := by
    intro no hno hpg
    have hr : c.priv.ecall c.pc = .ok (c.priv.enterM c.pc ⟨BitVec.ofNat 63 no, false⟩ 0) := by
      rw [RvPriv.ecall, hno]
      exact RvPriv.raiseTrap_eq h.env h.flag c.pc hpg 0
    show (if flags.runRiscvTest && c.GPR 17 == 93 then _ else _ : Except Halt (ExecState MmioMem)) = _
    rw [hexit, if_neg Bool.false_ne_true]
    show (c.priv.ecall c.pc >>= fun p => _) = _
    rw [hr]
    rfl
  have hmode : f.regMode = c.priv.curPriv := h.csrs.mode
  rcases h.env.cur with hc | hc
  · refine @lockstep_call _ _ _ h _ _ rdata _ ecallU hd (by decide) (by decide) ?_ rfl hdir
      (hcall ecallU (by rw [hc]; decide) (by decide))
    rw [csrCallEx, hop, hmode, hc]
    rfl
  · refine @lockstep_call _ _ _ h _ _ rdata _ ecallM hd (by decide) (by decide) ?_ rfl hdir
      (hcall ecallM (by rw [hc]; decide) (by decide))
    rw [csrCallEx, hop, hmode, hc]
    rfl

theorem lockstep_ebreak (hx : ¬ (flags.runRiscvTest = true ∧ c.GPR 10 = 0))
    (hdir : c.priv.directTvec) : Lockstep flags c f mem rdata 0x00100073 := by
  have hd : decodeOf 0x00100073 = (.I, .csr, CSROpType.ebreak) := by decide +kernel
  have hexit : (flags.runRiscvTest && c.GPR 10 == 0) = false := by
    rw [← Bool.not_eq_true, Bool.and_eq_true, beq_iff_eq]
    exact hx
  have hop : ((c.toArch f).slot 0x00100073).info.op = CSROpType.ebreak := (c.toArch f).slot_op hd
  have hr : c.priv.ebreak c.pc = .ok (c.priv.enterM c.pc ⟨BitVec.ofNat 63 breakPoint, false⟩ 0) :=
    RvPriv.raiseTrap_eq h.env h.flag c.pc (by decide) 0
  refine @lockstep_call _ _ _ h _ _ rdata _ breakPoint hd (by decide) (by decide) ?_ rfl hdir ?_
  · rw [csrCallEx, hop]
    rfl
  · show (if flags.runRiscvTest && c.GPR 10 == 0 then _ else _ : Except Halt (ExecState MmioMem)) = _
    rw [hexit, if_neg Bool.false_ne_true]
    show (c.priv.ebreak c.pc >>= fun p => _) = _
    rw [hr]
    rfl

/-- `mret` in machine mode -/
theorem lockstep_mret (hm : c.priv.curPriv = PrivMode.M_MODE) :
    Lockstep flags c f mem rdata 0x30200073 := by
  have hd : decodeOf 0x30200073 = (.R, .csr, CSROpType.mret) := by decide +kernel
  have hv : (decoder 0x30200073).valid = true := by decide +kernel
  obtain ⟨v, x, hfu⟩ := @fu_call f _ _ ((c.toArch f).slot_fusel hd) (c.toArch f).slot_valid
    ((c.toArch f).slot_ex hv h.pc) ((c.toArch f).slot_op hd) (by decide)
  have hcall : csrCallEx ((c.toArch f).slot 0x30200073).info f.regMode .none = .none := by
    rw [csrCallEx, (c.toArch f).slot_op hd]
    rfl
  rw [hcall] at hfu
  have hin : ((c.toArch f).execute .low 0x30200073).csrIn =
      ⟨⟨false, ((c.toArch f).slot 0x30200073).info.csr, x⟩, .low, .none, true, c.pc⟩ := by
    unfold Arch.execute executeUnit
    rw [show fu (c.toArch f).csr ((c.toArch f).slot 0x30200073) = _ from hfu]
    rfl
  have hi : Returns ((c.toArch f).execute .low 0x30200073).csrIn := by
    rw [hin]
    exact ⟨excNO_none, fun _ => rfl, rfl, rfl, rfl⟩
  have hsame : SameTrapCsrs f c.priv.curPriv c.priv :=
    ⟨h.csrs.mode, h.csrs.regs .mstatus _ rfl, h.csrs.regs .mtvec _ rfl, h.csrs.regs .mepc _ rfl,
      h.csrs.regs .mcause _ rfl, h.csrs.regs .mtval _ rfl⟩
  obtain ⟨p, hp, hcsr, hflag, hftc⟩ := mretAgrees hsame hm hi
  have hframe : ∀ r, r ≠ .mstatus →
      (f.next ((c.toArch f).execute .low 0x30200073).csrIn).regs r = f.regs r := by
    intro r hr
    have hnt : f.traps ((c.toArch f).execute .low 0x30200073).csrIn = false := by
      rw [CSRRegFile.traps, isInt_of_quiet f hi.interrupt hi.lines, hi.cause]
      rfl
    have hw : f.writeRegs ((c.toArch f).execute .low 0x30200073).csrIn.write = f.regs := by
      rw [CSRRegFile.writeRegs, hi.write]
      rfl
    simp only [CSRRegFile.next, hi.mret, hnt, hw, hi.lines, f.mipNext_low, Function.update_eq_self,
      if_true, Bool.false_eq_true, if_false]
    exact Function.update_of_ne hr _ _
  have hreg : ∀ r, r ≠ .mstatus → p.reg r = c.priv.reg r := by
    intro r hr
    have hne : ¬ (c.priv.curPriv != PrivMode.M_MODE) = true := by
      rw [hm]
      decide
    rw [RvPriv.mret, if_neg hne] at hp
    rw [← Option.some.inj hp]
    cases r <;> first | rfl | exact absurd rfl hr
  have hx : ((sramOf mem).dataChannel ((c.toArch f).execute .low 0x30200073).dataSram rdata).xbar =
      sramOf mem := by
    refine SramXbar.dataChannel_quiet mem ?_ rdata
    show (fu f ((c.toArch f).slot 0x30200073)).dataSram.wen = 0
    rw [hfu]
    rfl
  have he : c.decodeExec flags 0x30200073 =
      .ok ⟨{ c with debugInst := 0x30200073, priv := p }, false, false⟩ := by
    show { c with debugInst := 0x30200073 }.privEnd c.priv.mret = _
    rw [hp]
    rfl
  have hc : ((c.toArch f).execute .low 0x30200073).csrFtc = ⟨true, p.trapPc⟩ := hftc
  refine ⟨{ c with debugInst := 0x30200073, priv := p, pc := p.trapPc }, ?_, ?_, ?_⟩
  · rw [RvCore.decodeSettle, he]
    exact @settle_trap _ ⟨{ c with debugInst := 0x30200073, priv := p }, false, false⟩ rfl 0x30200073 _
      hflag
  · rw [exec_flush hc]
    refine ⟨rfl, rfl, ⟨mem, hx, h.bus⟩, hcsr.mode, fun r v hr => ?_, ?_⟩
    · by_cases hm : r = .mstatus
      · subst hm
        exact hcsr.mstatus.trans (Option.some.inj hr)
      · exact (hframe r hm).trans (h.csrs.regs r v ((hreg r hm).symm.trans hr))
    · exact (hframe .mip (by decide)).trans h.quiet
  · exact differs_quiet h.debugPc.symm h.debugRegNum

end

/-! ## CSR instructions -/

/-- No CSR write reaches the mode to come. -/
theorem csrWrite_nextPriv {p q : RvPriv} {flags : Flags} {a : BitVec 12} {data : BitVec 64}
    (h : p.csrWrite flags a data = .ok (some q)) : q.nextPriv = p.nextPriv := by
  have hall : Ends (fun o => ∀ q ∈ o, q.nextPriv = p.nextPriv) AnyHalt (p.csrWrite flags a data) := by
    have hsome : ∀ q : RvPriv, q.nextPriv = p.nextPriv → ∀ q' ∈ some q, q'.nextPriv = p.nextPriv := by
      rintro q h _ ⟨⟩
      exact h
    unfold RvPriv.csrWrite
    repeat' refine ends_ite (fun _ => ?_) fun _ => ?_
    all_goals first
      | exact hsome _ rfl
      | exact (ends_any _).bind fun _ _ => hsome _ rfl
      | exact fun q hq => absurd hq (Option.not_mem_none q)
  exact hall.ok h q rfl

/-- The CSRs keep the pending interrupts clear when the designs agree. -/
theorem csrWrite_quiet {p q : RvPriv} {flags : Flags} {a : BitVec 12} {data : BitVec 64}
    (ha : a ∈ csrAddrs) (hq : q.reg = Function.update p.reg (csrLookup a).1
      (p.written flags (csrLookup a).1 data)) (hd : DesignAgrees p a data) (h0 : p.ip = 0) :
    q.ip = 0 := by
  have hreg : some q.ip = Function.update p.reg (csrLookup a).1
      (p.written flags (csrLookup a).1 data) .mip := congrFun hq .mip
  by_cases hm : (csrLookup a).1 = .mip
  · have key : ∀ e ∈ addrTable, (csrLookup e.1.value).1 = .mip → e.1.value = CSRAddr.mip := by decide
    obtain ⟨e, he, rfl⟩ := List.mem_map.mp ha
    rw [hm, Function.update_self] at hreg
    exact (Option.some.inj hreg).trans ((hd.2.2 (key e he hm)).trans h0)
  · rw [Function.update_of_ne (Ne.symm hm)] at hreg
    exact (Option.some.inj hreg).trans h0

/-- what the reference makes of a CSR instruction that it permits -/
theorem csrOp_ok {c : RvCore MmioMem} {flags : Flags} {w : BitVec 32}
    {fm : Bool × (BitVec 64 → BitVec 64)} {old : BitVec 64} {p : RvPriv}
    (h : c.priv.csrOpPermissionCheck (w.extractLsb' 20 12) fm.1 = true)
    (hr : c.priv.csrRead (w.extractLsb' 20 12) = some old)
    (hw : (if fm.1 then c.priv.csrWrite flags (w.extractLsb' 20 12) (fm.2 old)
      else .ok (some c.priv)) = .ok (some p)) : c.csrOp flags w fm.1 fm.2 =
        .ok ⟨if RvInstr.rd w != 0 then { c with priv := p }.setGPR (RvInstr.rd w) old
          else { c with priv := p }, false, false⟩ := by
  unfold RvCore.csrOp
  simp only [h, hr, Bool.not_true, Bool.false_eq_true, if_false]
  cases hb : fm.1 with
  | true =>
    rw [hb, if_pos rfl] at hw
    rw [if_pos rfl, hw]
    cases RvInstr.rd w != 0 <;> rfl
  | false =>
    rw [hb, if_neg Bool.false_ne_true] at hw
    rw [if_neg Bool.false_ne_true, hw]
    cases RvInstr.rd w != 0 <;> rfl

theorem decodeExec_system (c : RvCore MmioMem) (flags : Flags) {w : BitVec 32}
    (h : opcodeOf w = Opcode.SYSTEM) : c.decodeExec flags w = { c with debugInst := w }.system flags w := by
  simp only [RvCore.decodeExec, RvCore.isRvc, opcode_eq, h]
  rfl

section
variable {c : RvCore MmioMem} {f : CSRRegFile} {mem : Bytes} (h : InStep c f mem)
  {flags : Flags} {w : BitVec 32} {fm : Bool × (BitVec 64 → BitVec 64)} (rdata : BitVec 64)
  (ho : opcodeOf w = Opcode.SYSTEM) (hf : c.csrForm w = some fm) (ha : csrAddr w ∈ csrAddrs)
include h ho hf ha

omit ha in
theorem slot_csr_ex : ((c.toArch f).slot w).ex = .none := by
  have hv : (decoder w).valid = true := by
    rw [decoder_valid_row, decodeOf_csr ho (funct3_csrForm c hf)]
    rfl
  exact (c.toArch f).slot_ex hv h.pc

/-- An accepted CSR instruction does nothing else: fetching goes on, and the data port is quiet. -/
theorem csr_quiet (hleg : csrIllegal f (csrRen ((c.toArch f).slot w).info) fm.1 (csrAddr w) = false) :
    ((c.toArch f).execute .low w).csrFtc.flush = false ∧
      ((c.toArch f).execute .low w).ftcInfo.flush = false ∧
      ((sramOf mem).dataChannel ((c.toArch f).execute .low w).dataSram rdata).xbar = sramOf mem := by
  have hd := slot_csr c f ho hf
  have hex := slot_csr_ex h ho hf
  obtain ⟨hin, ht, -⟩ := csr_accepted hd hex ha hleg
  have hfu := @fu_csr f _ _ _ hd hex
  have hftc : ((c.toArch f).execute .low w).csrFtc.flush = false := by
    show ((((c.toArch f).execute .low w).csrIn.mret) ||
      f.traps ((c.toArch f).execute .low w).csrIn) = false
    rw [ht, hin]
    rfl
  refine ⟨hftc, ?_, SramXbar.dataChannel_quiet mem ?_ rdata⟩
  · show (if ((c.toArch f).execute .low w).csrFtc.flush then _ else
      (fu f ((c.toArch f).slot w)).ftcInfo).flush = false
    rw [hftc, if_neg Bool.false_ne_true, hfu]
    rfl
  · show (fu f ((c.toArch f).slot w)).dataSram.wen = 0
    rw [hfu]
    rfl

section
variable {old : BitVec 64} (hperm : c.priv.csrOpPermissionCheck (csrAddr w) fm.1 = true)
  (hplain : fm.1 = true → PlainData f (csrAddr w) (fm.2 old))
  (hdesign : fm.1 = true → DesignAgrees c.priv (csrAddr w) (fm.2 old))
include hperm hplain hdesign

omit ho hf in
variable (flags) in
/-- The write of the reference leaves the mode and the trap flag alone, and no interrupt pending. -/
theorem csr_written : ∃ p, (if fm.1 then c.priv.csrWrite flags (csrAddr w) (fm.2 old)
    else .ok (some c.priv)) = .ok (some p) ∧ p.nextPriv = c.priv.nextPriv ∧
      p.curNeedTrap = false ∧ p.ip = 0 := by
  have hip : c.priv.ip = 0 := (h.csrs.regs .mip _ rfl).symm.trans h.quiet
  have hro := ((csrOpPermissionCheck_iff c.priv _ _).mp hperm).2
  cases hb : fm.1 with
  | false => exact ⟨c.priv, rfl, rfl, h.flag, hip⟩
  | true =>
    have hen : CSRAddr.enWrite (csrAddr w) = true :=
      Bool.eq_true_of_not_eq_false fun hn => hro ⟨hb, hn⟩
    obtain ⟨p, hw, -, hq⟩ := csrWrite_reg c.priv flags ha hen (fm.2 old) (hplain hb).2
    exact ⟨p, hw, csrWrite_nextPriv hw, (RvPriv.csrWrite_keeps hw).2.1.trans h.flag,
      csrWrite_quiet ha hq (hdesign hb) hip⟩

variable (hold : c.priv.csrRead (csrAddr w) = some old) {p : RvPriv}
  (hwr : (if fm.1 then c.priv.csrWrite flags (csrAddr w) (fm.2 old) else .ok (some c.priv)) =
    .ok (some p))
include hold hwr

/-- Afterwards the two sides have the same CSRs. -/
theorem csr_sameCsrs (hflags : flags.onlyModeM = false)
    (hreg : f.regs (csrLookup (csrAddr w)).1 = old) :
    SameCsrs (f.next ((c.toArch f).execute .low w).csrIn) p := by
  have hsys := (system_csr { c with debugInst := w } flags hf).trans
    (@csrOp_ok { c with debugInst := w } flags w fm old p hperm hold hwr)
  obtain ⟨e, he, -, -, hs⟩ := (@csrAgrees_permitted _ flags f { c with debugInst := w } w fm h.csrs
    h.inv hflags hf (slot_csr c f ho hf) (slot_csr_ex h ho hf) ha hperm
    fun hb => by rw [hreg]; exact hplain hb).mpr fun hb => by rw [hreg]; exact hdesign hb
  rw [hsys] at he
  obtain rfl := Except.ok.inj he
  have hp : ∀ d : RvCore MmioMem, (if RvInstr.rd w != 0 then { d with priv := p }.setGPR
      (RvInstr.rd w) old else { d with priv := p }).priv = p := by
    intro d
    split <;> rfl
  have hs' := (hs rfl).1
  rwa [hp] at hs'

omit hplain hdesign in
/-- The old value goes to the register; the reference leaves `x0` alone, the processor writes it
without effect. -/
theorem csr_sameWrite (hreg : f.regs (csrLookup (csrAddr w)).1 = old) : ∃ d : RvCore MmioMem,
    c.decodeExec flags w = .ok ⟨d, false, false⟩ ∧ d.priv = p ∧ d.pc = c.pc ∧ d.bus = c.bus ∧
      d.debugPc = c.pc ∧ ∀ ld, SameWrite c.GPR ((c.toArch f).result .low w ld) d := by
  have hd := slot_csr c f ho hf
  have hleg := csrIllegal_permitted h.csrs hd ha hperm
  obtain ⟨-, -, hregs⟩ := csr_accepted hd (slot_csr_ex h ho hf) ha hleg
  have hftc := (csr_quiet h 0 ho hf ha hleg).1
  have hinfo : ∀ ld, ((c.toArch f).result .low w ld).info = ((c.toArch f).slot w).info := by
    intro ld
    have hi := executeUnit_info f .low ((c.toArch f).slot w)
    rw [show (executeUnit f .low ((c.toArch f).slot w)).csrFtc.flush = false from hftc,
      if_neg Bool.false_ne_true] at hi
    exact hi
  have hwr' : ∀ ld, writeBackUnit c.GPR ((c.toArch f).result .low w ld) =
      ARegFile.write c.GPR true (RvInstr.rd w) old := by
    intro ld
    rw [hregs, hreg]
  refine ⟨_, (decodeExec_system c flags ho).trans ((system_csr { c with debugInst := w } flags hf).trans
    (@csrOp_ok { c with debugInst := w } flags w fm old p hperm hold hwr)), ?_⟩
  by_cases h0 : (RvInstr.rd w != 0) = true
  · rw [if_pos h0]
    refine ⟨rfl, rfl, rfl, h.debugPc, fun ld => ?_⟩
    exact @sameWrite_regs _ { c with debugInst := w, priv := p } _ old (by rw [hinfo]; rfl)
      (by rw [hinfo]; exact hd.regWen) (by rw [hinfo]; rfl) (hwr' ld)
  · rw [if_neg h0]
    have hrd : RvInstr.rd w = 0 := by simpa using h0
    refine ⟨rfl, rfl, rfl, h.debugPc, fun ld => ⟨?_, ?_, ?_⟩⟩
    · rw [hwr', hrd]
      rfl
    · rw [hinfo, hd.regWen, if_pos rfl, hd.rd, hrd]
      exact h.debugRegNum
    · intro _ hne
      rw [hinfo, hd.rd, hrd] at hne
      exact absurd rfl hne

end

/-- **A CSR instruction that the reference permits**, with data for which the designs agree. -/
theorem lockstep_csr {old : BitVec 64} (hflags : flags.onlyModeM = false)
    (hcycle : csrAddr w ≠ CSRAddr.cycle)
    (hperm : c.priv.csrOpPermissionCheck (csrAddr w) fm.1 = true)
    (hold : c.priv.csrRead (csrAddr w) = some old)
    (hplain : fm.1 = true → PlainData f (csrAddr w) (fm.2 old))
    (hdesign : fm.1 = true → DesignAgrees c.priv (csrAddr w) (fm.2 old)) :
    Lockstep flags c f mem rdata w := by
  have hd := slot_csr c f ho hf
  have hrvc : RvCore.isRvc w = false := by rw [RvCore.isRvc, opcode_eq, ho]; rfl
  have hleg := csrIllegal_permitted h.csrs hd ha hperm
  have hreg : f.regs (csrLookup (csrAddr w)).1 = old := by
    obtain ⟨old', hr, hreg⟩ := csrRead_same h.csrs ha
    rw [hreg hcycle, Option.some.inj (hr.symm.trans hold)]
  obtain ⟨hin, ht, -⟩ := csr_accepted hd (slot_csr_ex h ho hf) ha hleg
  obtain ⟨-, hpc, hx⟩ := csr_quiet h rdata ho hf ha hleg
  obtain ⟨p, hwr, hnext, hflag, hp0⟩ := csr_written h flags ha hperm hplain hdesign
  have hsame := csr_sameCsrs h ho hf ha hperm hplain hdesign hold hwr hflags hreg
  obtain ⟨d, hd', hpriv, hdpc, hdbus, hdebug, hw⟩ := csr_sameWrite h ho hf ha hperm hold hwr hreg
  refine ⟨{ d with pc := c.pc + 4 }, ?_, ⟨?_, (hw _).regs, ⟨mem, hx, hdbus ▸ h.bus⟩, ?_, ?_, ?_⟩, ?_⟩
  · rw [RvCore.decodeSettle, hd', hrvc]
    have hq := @settle_quiet _ ⟨d, false, false⟩ rfl w false (by rw [hpriv]; exact hflag)
    rw [hdpc] at hq
    exact hq
  · show busPc (if ((c.toArch f).execute .low w).ftcInfo.flush then _ else c.pc + 4) = _
    rw [hpc, if_neg Bool.false_ne_true]
  · show (f.next _).regMode = d.priv.nextPriv
    rw [hpriv, hnext, h.mode, f.next_mode_quiet ht (by rw [hin]), h.csrs.mode]
  · intro r v hr
    refine hsame.regs r v ?_
    rw [← hpriv]
    exact hr
  · exact (hsame.regs .mip _ rfl).trans hp0
  · exact @SameWrite.differs _ _ c.GPR ⟨(hw _).regs, (hw _).num, (hw _).data⟩ hdebug.symm

/-- **A CSR instruction that both sides refuse.** -/
theorem lockstep_csr_refused (hcycle : ¬ (csrAddr w = CSRAddr.cycle ∧ fm.1 = false))
    (hperm : c.priv.csrOpPermissionCheck (csrAddr w) fm.1 = false) (hdir : c.priv.directTvec) :
    Lockstep flags c f mem rdata w := by
  have hd := slot_csr c f ho hf
  have hex := slot_csr_ex h ho hf
  have hren : csrRen ((c.toArch f).slot w).info = true ∨ fm.1 = true := hd.ren.imp id fun hr => hr.2.1
  have hill : csrIllegal f (csrRen ((c.toArch f).slot w).info) fm.1 (csrAddr w) = true := by
    rw [csrIllegal_iff h.inv.mode ha hren]
    rcases h.inv.mode with hm | hm
    · exact .inl ⟨hm, hcycle⟩
    · refine .inr ⟨hm, ?_⟩
      have hM : c.priv.curPriv = PrivMode.M_MODE := h.csrs.mode.symm.trans hm
      by_contra hn
      rw [(csrOpPermissionCheck_iff c.priv _ _).mpr ⟨hM, hn⟩] at hperm
      cases hperm
  obtain ⟨-, hent, -⟩ := csr_refused hd hex ha hill h.inv.mode
  have htr : Traps (c.toArch f) w illegalInst (w.setWidth 64) := by
    refine ⟨(traps_csr hd hex).trans hill, isInt_csr hd hex, ?_, hent, ?_⟩
    · show (executeUnit f .low ((c.toArch f).slot w)).csrIn.mret = false
      rw [csrIn_csr hd hex]
    · show (fu f ((c.toArch f).slot w)).dataSram.wen = 0
      rw [fu_csr hd hex]
      rfl
  have he := (decodeExec_system c flags ho).trans ((system_csr { c with debugInst := w } flags hf).trans
    (csrOp_illegal { c with debugInst := w } flags hperm))
  exact lockstep_illegal h rdata htr hdir he

end

/-! ## illegal words -/

section
variable {c : RvCore MmioMem} {f : CSRRegFile} {mem : Bytes} (h : InStep c f mem)
  {flags : Flags} {w : BitVec 32} (rdata : BitVec 64)
include h

/-- a word that neither side accepts -/
theorem lockstep_unknown (hv : (decoder w).valid = false)
    (hr : c.decodeExec flags w = { c with debugInst := w }.illegal) (hdir : c.priv.directTvec) :
    Lockstep flags c f mem rdata w := by
  have hd : decodeOf w = decodeDefault := by
    have key : ∀ e ∈ decodeTable, (e.2.1 != .N) = true := by decide +kernel
    rcases listLookup_cases w decodeDefault decodeTable with ⟨e, he, -, hl⟩ | ⟨-, hl⟩
    · rw [decoder_valid_row, decodeOf, hl, key e he] at hv
      cases hv
    · exact hl
  have hex : ((c.toArch f).slot w).ex = ExceptionInfo.none.raise illegalInst (w.setWidth 64) := by
    show decodeEx true (decoder w).valid c.pc w = _
    rw [hv]
    simp [decodeEx, h.pc]
  have hfu : fu f ((c.toArch f).slot w) = .quiet (fu f ((c.toArch f).slot w)).wdata
      (ExceptionInfo.none.raise illegalInst (w.setWidth 64)) := by
    have hf : ((c.toArch f).slot w).info.fusel = .alu := (c.toArch f).slot_fusel hd
    simp only [fu, hf, hex]
    rfl
  have htr : Traps (c.toArch f) w illegalInst (w.setWidth 64) := by
    refine traps_of_raise (by decide) ?_ ?_ ?_ ?_ ?_ ?_
    all_goals
      rw [show fu (c.toArch f).csr ((c.toArch f).slot w) = _ from hfu]
      rfl
  exact lockstep_illegal h rdata htr hdir hr

/-- **On the instructions of `Agreeing` both sides do the same.** -/
theorem lockstep_agreeing (hflags : flags.onlyModeM = false) (ha : Agreeing flags c w) :
    Lockstep flags c f mem rdata w := by
  cases ha with
  | compute ho hv => exact lockstep_compute h rdata hv ho
  | transfer ho hv heven => exact lockstep_transfer h rdata hv ho heven
  | access ho hv hal hin hx => exact lockstep_access h rdata hv ho hal hin hx
  | misaligned ho hv hal hd => exact lockstep_misaligned h rdata hv ho hal hd
  | csr ho hf ha hcycle hperm hold hplain hdesign =>
    exact lockstep_csr h rdata ho hf ha hflags hcycle hperm hold (fun hw => hplain hw f h.csrs) hdesign
  | csrRefused ho hf ha hcycle hperm hd => exact lockstep_csr_refused h rdata ho hf ha hcycle hperm hd
  | ecall hw hx hd => exact hw ▸ lockstep_ecall h rdata hx hd
  | ebreak hw hx hd => exact hw ▸ lockstep_ebreak h rdata hx hd
  | mret hw hm => exact hw ▸ lockstep_mret h rdata hm
  | fence hw => exact lockstep_fence h rdata hw
  | wfi hw => exact lockstep_wfi h rdata hw
  | illegal hv hr hd => exact lockstep_unknown h rdata hv hr hd

end

/-! ## a step of the reference -/

/-- The next step of the reference fetches `w` from the memory, and the designs agree on it. -/
structure StepAgrees (flags : Flags) (c : RvCore MmioMem) (w : BitVec 32) : Prop where
  fetches : w ∈ c.fetches flags .low
  inRam : InRam c.pc 4
  agrees : Agreeing flags (c.atFetch .low) w

/-- the memory is the only device of the bus -/
def OneRam (bus : Systembus MmioMem) : Prop := ∃ mem, bus.devices = [ramEntry mem]

theorem busPc_ram {a : BitVec 64} (h : InRam a 4) : busPc a = a := by
  have e : (RAM_START + RAM_SIZE).toNat = 0x88000000 := by decide
  have hle := h.2
  rw [e] at hle
  have hlt : a.toNat < 2 ^ 32 := by omega
  apply BitVec.eq_of_toNat_eq
  rw [busPc, BitVec.toNat_setWidth, BitVec.toNat_setWidth, Nat.mod_eq_of_lt hlt,
    Nat.mod_eq_of_lt a.isLt]

/-- `post_exec` leaves the registers that the processor has. -/
theorem RvPriv.postExec_reg {p : RvPriv} (h : Mstatus.blank p.status = true) :
    ∃ q, p.postExec = .ok q ∧ (∀ r, q.reg r = p.reg r) ∧ q.nextPriv = p.nextPriv := by
  unfold RvPriv.postExec
  rw [h]
  refine ⟨_, rfl, fun r => ?_, rfl⟩
  cases r <;> rfl

section
variable {flags : Flags} {c : RvCore MmioMem} {w : BitVec 32} {a : Arch} {x : SramXbar MmioMem}
  (hs : StepAgrees flags c w) (h : Meets a x c) (hc : Inside OneRam c) (hinv : PrivInv a.csr)
include hs h

/-- the core of the processor is that of the reference at the instruction -/
theorem arch_atFetch : a = (c.atFetch .low).toArch a.csr := by
  have hpc : a.pc = c.pc := by rw [h.pc, busPc_ram hs.inRam]
  obtain ⟨pc, regs, csr⟩ := a
  obtain rfl : pc = c.pc := hpc
  obtain rfl : regs = c.GPR := h.regs
  rfl

include hc hinv

/-- Before the step both sides are at the instruction. -/
theorem inStep_atFetch {mem : Bytes} (hm : c.bus.devices = [ramEntry mem]) :
    InStep (c.atFetch .low) a.csr mem := by
  obtain ⟨-, hint, hpc, -, -⟩ := RvCore.mem_fetches.mp hs.fetches
  have hpriv : (c.atFetch .low).priv = c.priv.entered .low := if_neg hint
  have hip : c.priv.ip = 0 := (h.csrs .mip _ rfl).symm.trans h.quiet
  have hlow : (c.priv.entered .low).ip = 0 := by
    show RvPriv.setLines c.priv.ip false false false false = 0
    rw [hip]
    decide
  have hreg : ∀ r v, (c.atFetch .low).priv.reg r = some v → a.csr.regs r = v := by
    intro r v hr
    rw [hpriv] at hr
    cases r
    case mip => exact h.quiet.trans (hlow.symm.trans (Option.some.inj hr))
    all_goals exact h.csrs _ v hr
  refine ⟨?_, by rw [hpriv]; rfl, by rw [hpriv]; rfl, ⟨?_, hreg⟩, hinv, h.quiet, hm, ?_, rfl, rfl⟩
  · rw [hpriv]
    exact hc.env.entered .low
  · rw [hpriv]
    exact h.mode
  · have ht := congrArg BitVec.toNat hpc
    rw [BitVec.toNat_umod] at ht
    apply BitVec.eq_of_toNat_eq
    rw [BitVec.extractLsb'_toNat]
    exact ht

/-- **A step of the reference and an instruction of the processor.** -/
theorem exec_lockstep (hflags : flags.onlyModeM = false) (rdata : BitVec 64) :
    let out := x.dataChannel (a.execute .low w).dataSram rdata
    ∃ c', c.exec flags false false false false = .ok c' ∧
      Meets (a.exec busPc .low w out.buffer) out.xbar c' ∧
      differs (writeBackDebug (a.result .low w out.buffer)) c' = false := by
  obtain ⟨mem, rfl, hm⟩ := h.mem
  have hin := inStep_atFetch hs h hc hinv hm
  obtain ⟨htime, hint, hpc, hok, hbuf⟩ := RvCore.mem_fetches.mp hs.fetches
  obtain ⟨c', hsettle, hmeets, hdiff⟩ := lockstep_agreeing hin rdata hflags hs.agrees
  rw [← arch_atFetch hs h] at hmeets hdiff
  have hfetch : (c.atFetch .low).fetchExec flags = .ok c' := by
    have hbus : { c.atFetch .low with bus := (c.bus.paRead c.pc 4 0).bus } = c.atFetch .low := by
      rw [paRead_bus hm]
      rfl
    rw [RvCore.fetchExec_word hin.env.satp hin.flag hpc hok hbuf flags]
    exact (congrArg (fun d : RvCore MmioMem => d.decodeSettle flags w) hbus).trans hsettle
  have hstatus : Mstatus.blank c'.priv.status = true := by
    have hr : Ready OneRam (c.atFetch .low) := ⟨⟨hin.env, ⟨mem, hin.bus⟩, hc.plain⟩, hin.flag⟩
    have hend : Ends (Inside OneRam) (Allowed True) ((c.atFetch .low).fetchExec flags) :=
      RvCore.fetchExec_ends kept_ram hr flags fun _ _ _ => True.intro
    exact (hend.ok hfetch).env.status.blank
  obtain ⟨q, hq, hreg, hnext⟩ := RvPriv.postExec_reg hstatus
  refine ⟨{ c' with priv := q }, ?_, ?_, hdiff⟩
  · refine (RvCore.exec_eq hc.env hc.plain flags .low).trans ?_
    rw [if_neg htime, hfetch]
    show c'.retire = _
    rw [RvCore.retire, hq]
    rfl
  · exact ⟨hmeets.pc, hmeets.regs, hmeets.mem, hmeets.mode.trans hnext.symm,
      fun r v hr => hmeets.csrs r v ((hreg r).symm.trans hr), hmeets.quiet⟩

end

end HduCpu
