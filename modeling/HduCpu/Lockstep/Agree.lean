import HduCpu.Lockstep.Csr
import HduCpu.Lockstep.Difftest
import HduCpu.Lockstep.Integer
import HduCpu.Lockstep.Memory

/-!
# One instruction on both sides

The processor and the reference stand before the same instruction (`InStep`); the instruction is
one on which the designs agree (`Agreeing`).  What is to be shown is that they then stand before
the same instruction again, the comparison of the simulator having nothing to report (`Lockstep`).
Here the two kinds of end that most instructions have are treated once.

* `InStep`, `Meets`        the relation before an instruction and after it;
* `Agreeing`               the instructions, class by class;
* `FuOut.Plain`, `meets_plain`   no trap, no return, no CSR write;
* `Traps`, `meets_trap`    a trap and nothing else.
-/

namespace HduCpu

/-! ## the relation -/

/-- The reference at an instruction, once the word is fetched, and the CSR file and the memory of
the processor. -/
structure InStep (c : RvCore MmioMem) (f : CSRRegFile) (mem : Bytes) : Prop where
  env : Envelope c.priv
  flag : c.priv.curNeedTrap = false
  mode : c.priv.nextPriv = c.priv.curPriv
  csrs : SameCsrs f c.priv
  inv : PrivInv f
  quiet : f.regs .mip = 0
  bus : c.bus.devices = [ramEntry mem]
  pc : c.pc.extractLsb' 0 2 = 0
  debugPc : c.debugPc = c.pc
  debugRegNum : c.debugRegNum = 0

/-- Between two instructions both sides have the same pc on the bus, the same registers, memory and
CSRs, and will be in the same mode. -/
structure Meets (a : Arch) (x : SramXbar MmioMem) (c : RvCore MmioMem) : Prop where
  pc : a.pc = busPc c.pc
  regs : a.regs = c.GPR
  mem : ∃ mem, x = sramOf mem ∧ c.bus.devices = [ramEntry mem]
  mode : a.csr.regMode = c.priv.nextPriv
  csrs : ∀ r v, c.priv.reg r = some v → a.csr.regs r = v
  quiet : a.csr.regs .mip = 0

/-- an instruction of the reference, from the decoding to the next pc -/
def RvCore.decodeSettle (c : RvCore MmioMem) (flags : Flags) (w : BitVec 32) :
    Except Halt (RvCore MmioMem) :=
  c.decodeExec flags w >>= fun e => e.settle w (RvCore.isRvc w)

/-- **The word does the same on both sides**, and the comparison at its commit passes. -/
def Lockstep (flags : Flags) (c : RvCore MmioMem) (f : CSRRegFile) (mem : Bytes)
    (rdata : BitVec 64) (w : BitVec 32) : Prop :=
  let a := c.toArch f
  let out := (sramOf mem).dataChannel (a.execute .low w).dataSram rdata
  ∃ c', c.decodeSettle flags w = .ok c' ∧ Meets (a.exec busPc .low w out.buffer) out.xbar c' ∧
    differs (writeBackDebug (a.result .low w out.buffer)) c' = false

/-! ## the instructions -/

/-- the handler of an exception does not depend on its cause -/
def RvPriv.directTvec (p : RvPriv) : Prop := Tvec.mode p.mtvec = 0

/-- The instructions on which the designs agree, by what they do; `c` is the reference at the
instruction. -/
inductive Agreeing (flags : Flags) (c : RvCore MmioMem) (w : BitVec 32) : Prop
  | compute (ho : opcodeOf w ∈ computeOpcodes) (hv : (decoder w).valid = true)
  | transfer (ho : opcodeOf w ∈ transferOpcodes) (hv : (decoder w).valid = true)
      (heven : ¬ (opcodeOf w = Opcode.JALR ∧ (c.GPR (RvInstr.rs1 w)).getLsbD 0 = true))
  | access (ho : opcodeOf w ∈ memoryOpcodes) (hv : (decoder w).valid = true)
      (hal : c.accessAddr w % accessSize w = 0) (hin : InRam (c.accessAddr w) (accessSize w))
      (hx : ¬ c.endsTest flags w)
  | misaligned (ho : opcodeOf w ∈ memoryOpcodes) (hv : (decoder w).valid = true)
      (hal : c.accessAddr w % accessSize w ≠ 0) (hd : c.priv.directTvec)
  | csr {fm : Bool × (BitVec 64 → BitVec 64)} {old : BitVec 64} (ho : opcodeOf w = Opcode.SYSTEM)
      (hf : c.csrForm w = some fm) (ha : csrAddr w ∈ csrAddrs) (hcycle : csrAddr w ≠ CSRAddr.cycle)
      (hperm : c.priv.csrOpPermissionCheck (csrAddr w) fm.1 = true)
      (hold : c.priv.csrRead (csrAddr w) = some old)
      (hplain : fm.1 = true → ∀ f, SameCsrs f c.priv → PlainData f (csrAddr w) (fm.2 old))
      (hdesign : fm.1 = true → DesignAgrees c.priv (csrAddr w) (fm.2 old))
  | csrRefused {fm : Bool × (BitVec 64 → BitVec 64)} (ho : opcodeOf w = Opcode.SYSTEM)
      (hf : c.csrForm w = some fm) (ha : csrAddr w ∈ csrAddrs)
      (hcycle : ¬ (csrAddr w = CSRAddr.cycle ∧ fm.1 = false))
      (hperm : c.priv.csrOpPermissionCheck (csrAddr w) fm.1 = false) (hd : c.priv.directTvec)
  | ecall (hw : w = 0x00000073) (hx : ¬ (flags.runRiscvTest = true ∧ c.GPR 17 = 93))
      (hd : c.priv.directTvec)
  | ebreak (hw : w = 0x00100073) (hx : ¬ (flags.runRiscvTest = true ∧ c.GPR 10 = 0))
      (hd : c.priv.directTvec)
  | mret (hw : w = 0x30200073) (hm : c.priv.curPriv = PrivMode.M_MODE)
  | fence (hw : RV32I_CSRInstr.FENCE.hit w = true)
  | wfi (hw : w = 0x10500073)
  | illegal (hv : (decoder w).valid = false)
      (hr : c.decodeExec flags w = { c with debugInst := w }.illegal) (hd : c.priv.directTvec)

/-! ## the comparison -/

section
variable {d : Debug} {c : RvCore MmioMem} (hpc : d.pc = c.debugPc)
include hpc

theorem differs_quiet (hn : c.debugRegNum = 0) : differs d c = false := by
  simp [differs, hpc, hn]

theorem differs_write {rd : BitVec 5} (hn : c.debugRegNum = rd.setWidth 64) (hnum : d.rfWnum = rd)
    (hdata : rd ≠ 0 → d.rfWdata = c.debugRegWdata) : differs d c = false := by
  by_cases h0 : rd = 0
  · refine differs_quiet hpc ?_
    rw [hn, h0]
    rfl
  · simp [differs, hpc, hn, hnum, hdata h0]

end

/-! ## an end without effect on the CSRs -/

/-- no trap, no return and no CSR write -/
structure FuOut.Plain (out : FuOut) : Prop where
  ex : out.newEx = .none
  mret : out.mret = false
  write : out.write.wen = false

section
variable {a : Arch} {w : BitVec 32} (h : (fu a.csr (a.slot w)).Plain)
include h

theorem csrIn_plain : (a.execute .low w).csrIn.mret = false ∧ (a.execute .low w).csrIn.ex = .none ∧
    (a.execute .low w).csrIn.write.wen = false :=
  ⟨h.mret, h.ex, h.write⟩

theorem csrFtc_plain : (a.execute .low w).csrFtc.flush = false := by
  obtain ⟨hm, hex, -⟩ := csrIn_plain h
  have ht : a.csr.traps (a.execute .low w).csrIn = false := by
    have hi : a.csr.isInt (a.execute .low w).csrIn = a.csr.takesInt .low :=
      a.csr.isInt_eq (by rw [hex])
    rw [CSRRegFile.traps, hi, hex, excNO_none, takesInt_low]
    rfl
  show ((a.execute .low w).csrIn.mret || a.csr.traps (a.execute .low w).csrIn) = false
  rw [hm, ht]
  rfl

theorem result_plain (ld : BitVec 64) : a.result .low w ld = memoryUnit
    ⟨a.pc, (a.slot w).info, (fu a.csr (a.slot w)).wdata, (a.slot w).srcInfo⟩ ld := by
  have hinfo := executeUnit_info a.csr .low (a.slot w)
  have hf := csrFtc_plain h
  change (executeUnit a.csr .low (a.slot w)).csrFtc.flush = false at hf
  rw [hf, if_neg Bool.false_ne_true] at hinfo
  show memoryUnit ⟨a.pc, (executeUnit a.csr .low (a.slot w)).memoryStage.info, _, _⟩ ld = _
  rw [hinfo]

/-- **Such an instruction** goes on where the functional unit says, and changes registers only. -/
theorem exec_plain (ld : BitVec 64) : a.exec busPc .low w ld =
    ⟨busPc (if (fu a.csr (a.slot w)).ftcInfo.flush then (fu a.csr (a.slot w)).ftcInfo.target
      else a.pc + 4), writeBackUnit a.regs (a.result .low w ld), a.csr⟩ := by
  obtain ⟨hm, hex, hw⟩ := csrIn_plain h
  have hcsr : a.csr.next (a.execute .low w).csrIn = a.csr := by
    have hl : (a.execute .low w).csrIn.extInt = .low := rfl
    rw [a.csr.next_bubble hw hm hex, hl, a.csr.next_bubble_quiet _ (takesInt_low _), a.csr.mipNext_low,
      Function.update_eq_self]
  have hftc : (a.execute .low w).ftcInfo = (fu a.csr (a.slot w)).ftcInfo := by
    show (if (a.execute .low w).csrFtc.flush then _ else _) = _
    rw [csrFtc_plain h, if_neg Bool.false_ne_true]
  rw [Arch.exec, hcsr, hftc]

end

section
variable {c c' : RvCore MmioMem} {f : CSRRegFile} {mem : Bytes} (h : InStep c f mem)
  {w : BitVec 32} (hp : (fu f ((c.toArch f).slot w)).Plain)
include h hp

/-- **An end without effect on the CSRs**: what is left to compare are pc, registers and memory. -/
theorem meets_plain {ld : BitVec 64} {x : SramXbar MmioMem} (hpriv : c'.priv = c.priv)
    (hpc : busPc (if (fu f ((c.toArch f).slot w)).ftcInfo.flush then
      (fu f ((c.toArch f).slot w)).ftcInfo.target else c.pc + 4) = busPc c'.pc)
    (hregs : writeBackUnit c.GPR ((c.toArch f).result .low w ld) = c'.GPR)
    (hmem : ∃ mem, x = sramOf mem ∧ c'.bus.devices = [ramEntry mem]) :
    Meets ((c.toArch f).exec busPc .low w ld) x c' := by
  rw [exec_plain (a := c.toArch f) hp ld]
  refine ⟨hpc, hregs, hmem, ?_, fun r v hr => ?_, h.quiet⟩
  · show f.regMode = _
    rw [hpriv, h.mode, h.csrs.mode]
  · rw [hpriv] at hr
    exact h.csrs.regs r v hr

end

/-! ## a trap or a return -/

section
variable {a : Arch} {w : BitVec 32} {target : BitVec 64}
  (h : (a.execute .low w).csrFtc = ⟨true, target⟩)
include h

/-- An instruction with which the CSR file goes on elsewhere writes no register. -/
theorem regWen_flush (ld : BitVec 64) : (a.result .low w ld).info.regWen = false := by
  have hf : (executeUnit a.csr .low (a.slot w)).csrFtc.flush = true := congrArg FetchInfo.flush h
  show (executeUnit a.csr .low (a.slot w)).memoryStage.info.regWen = false
  rw [executeUnit_info, hf, if_pos rfl]

theorem exec_flush (ld : BitVec 64) : a.exec busPc .low w ld =
    ⟨busPc target, a.regs, a.csr.next (a.execute .low w).csrIn⟩ := by
  have hregs : writeBackUnit a.regs (a.result .low w ld) = a.regs := by
    rw [writeBackUnit, regWen_flush h, Bool.and_false]
    rfl
  have hftc : (a.execute .low w).ftcInfo = ⟨true, target⟩ := by
    show (if (a.execute .low w).csrFtc.flush then (a.execute .low w).csrFtc else _) = _
    rw [h, if_pos rfl]
  rw [Arch.exec, hregs, hftc, if_pos rfl]

end

/-- A trap for the cause `no` is entered in Execute, and the instruction does nothing else. -/
structure Traps (a : Arch) (w : BitVec 32) (no : Fin 16) (tval : BitVec 64) : Prop where
  traps : a.csr.traps (a.execute .low w).csrIn = true
  int : a.csr.isInt (a.execute .low w).csrIn = false
  mret : (a.execute .low w).csrIn.mret = false
  entered : TrapEntered a.csr (a.csr.next (a.execute .low w).csrIn) (BitVec.ofNat 64 no) tval a.pc
  wen : (a.execute .low w).dataSram.wen = 0

/-- An exception of the functional unit, without a strobe, a return or a CSR write. -/
theorem traps_of_raise {a : Arch} {w : BitVec 32} {no : Fin 16} {tval : BitVec 64}
    (hno : no ≠ noException) (hex : excNO (fu a.csr (a.slot w)).newEx = no)
    (htval : (fu a.csr (a.slot w)).newEx.tval no = tval)
    (hint : (fu a.csr (a.slot w)).newEx.interrupt = ExceptionInfo.none.interrupt)
    (hm : (fu a.csr (a.slot w)).mret = false) (hw : (fu a.csr (a.slot w)).write.wen = false)
    (hwen : (fu a.csr (a.slot w)).dataSram.wen = 0) : Traps a w no tval := by
  have hexc : excNO (a.execute .low w).csrIn.ex = no := hex
  have hi : a.csr.isInt (a.execute .low w).csrIn = false :=
    (a.csr.isInt_eq hint).trans (takesInt_low _)
  have hwr : (a.execute .low w).csrIn.write.wen = false := hw
  have hent := a.csr.trapEntered_next (i := (a.execute .low w).csrIn) rfl hi (by rw [hexc]; exact hno)
    hm fun r _ => by rw [CSRRegFile.writeRegs, hwr, Bool.false_and, if_neg Bool.false_ne_true]
  have ht : a.csr.traps (a.execute .low w).csrIn = true := by
    rw [CSRRegFile.traps, hexc, bne_iff_ne.mpr hno, Bool.or_true]
  rw [hexc] at hent
  have htv : (a.execute .low w).csrIn.ex.tval no = tval := htval
  rw [htv] at hent
  exact ⟨ht, hi, hm, hent, hwen⟩

section
variable {a : Arch} {w : BitVec 32} {no : Fin 16} {tval : BitVec 64} (h : Traps a w no tval)
include h

theorem Traps.csrFtc : (a.execute .low w).csrFtc = ⟨true, a.csr.mtvecBase⟩ := by
  show a.csr.ftcInfo (a.execute .low w).csrIn = _
  rw [CSRRegFile.ftcInfo, h.mret, h.traps, a.csr.trapTarget_exc h.int]
  rfl

end

section
variable {c c' : RvCore MmioMem} {f : CSRRegFile} {mem : Bytes} (h : InStep c f mem)
  {w : BitVec 32} {no : Fin 16} {tval : BitVec 64} (ht : Traps (c.toArch f) w no tval)
  (hpriv : c'.priv = c.priv.enterM c.pc ⟨BitVec.ofNat 63 no, false⟩ tval)
include h ht hpriv

/-- the CSRs after trap entry -/
theorem csrs_trap : ∀ r v, c'.priv.reg r = some v →
    (f.next ((c.toArch f).execute .low w).csrIn).regs r = v := by
  have hent := ht.entered
  have hmst : (f.next ((c.toArch f).execute .low w).csrIn).regs .mstatus = f.trapMstatus := by
    rw [f.next_mstatus, ht.mret, if_neg Bool.false_ne_true]
    exact if_pos ht.traps
  have hcause : BitVec.ofNat 64 no = CauseDef.toBits ⟨BitVec.ofNat 63 no, false⟩ := by
    have key : ∀ c : Fin 16, BitVec.ofNat 64 c = CauseDef.toBits ⟨BitVec.ofNat 63 c, false⟩ := by
      decide
    exact key no
  have hframe : ∀ r ∉ [CReg.mstatus, .mepc, .mcause, .mtval], ∀ v, c.priv.reg r = some v →
      (f.next ((c.toArch f).execute .low w).csrIn).regs r = v := fun r hr v hv =>
    (hent.frame r hr).trans (h.csrs.regs r v hv)
  intro r v hr
  rw [hpriv] at hr
  cases r
  case mstatus =>
    rw [hmst, f.trapMstatus_eq, h.csrs.regs .mstatus _ rfl, h.csrs.mode]
    exact Option.some.inj hr
  case mepc => exact hent.mepc.trans (Option.some.inj hr)
  case mcause => exact hent.mcause.trans (hcause.trans (Option.some.inj hr))
  case mtval => exact hent.mtval.trans (Option.some.inj hr)
  all_goals exact hframe _ (by decide) v hr

/-- **A trap that both sides take** for the same cause, with the same value. -/
theorem meets_trap (hdir : c.priv.directTvec ∨ no = 0) (hpc : c'.pc = c'.priv.trapPc)
    (hgpr : c'.GPR = c.GPR) (hbus : c'.bus = c.bus) (hdpc : c'.debugPc = c.pc)
    (hnum : c'.debugRegNum = 0) (rdata : BitVec 64) :
    let out := (sramOf mem).dataChannel ((c.toArch f).execute .low w).dataSram rdata
    Meets ((c.toArch f).exec busPc .low w out.buffer) out.xbar c' ∧
      differs (writeBackDebug ((c.toArch f).result .low w out.buffer)) c' = false := by
  intro out
  have hx : out.xbar = sramOf mem := SramXbar.dataChannel_quiet mem ht.wen rdata
  have hbase : f.mtvecBase = c'.pc := by
    have htv : f.regs .mtvec = c.priv.mtvec := h.csrs.regs .mtvec _ rfl
    rw [hpc, hpriv, mtvecBase_eq, htv]
    show _ = Tvec.base c.priv.mtvec <<< 2 +
      if Tvec.mode c.priv.mtvec != 0 then (BitVec.ofNat 63 no).setWidth 64 * 4 else 0
    rcases hdir with hd | rfl
    · have hd' : Tvec.mode c.priv.mtvec = 0 := hd
      rw [hd']
      exact (BitVec.add_zero _).symm
    · split <;> exact (BitVec.add_zero _).symm
  rw [exec_flush ht.csrFtc]
  refine ⟨⟨?_, hgpr.symm, ⟨mem, hx, by rw [hbus]; exact h.bus⟩, ?_, csrs_trap h ht hpriv, ?_⟩, ?_⟩
  · show busPc f.mtvecBase = _
    rw [hbase]
  · rw [hpriv]
    exact ht.entered.mode
  · exact (ht.entered.frame .mip (by decide)).trans h.quiet
  · exact differs_quiet hdpc.symm hnum

end

end HduCpu
