import HduCpu.Cpu.Pipeline
import HduCpu.Cpu.Privilege

/-!
# Trap entry and the other effects of the trapped instruction

The Fu works on an instruction that traps as on any other.  The register write is masked and trap
entry overrides some CSRs, but a store strobe, a write to one of the other CSRs and `mret` go
through.  `SideEffect` says when that is so, and without it a trap is trap entry alone.

* `TrapEntered`            what trap entry changes, and that it changes nothing else;
* `SideEffect`             an aligned store, a CSR write that trap entry does not cover, `mret`;
* `CSRRegFile.next_trap`   a trap without side effect is the four connections of trap entry;
* `trapEntered_next`, `executeUnit_port`, `next_regs_cause`   the single effects;
* `Core.regfile_of_trap`   a trapped instruction never reaches the register file.
-/

namespace HduCpu

/-- The CSR file entered a trap and nothing else happened to it. -/
structure TrapEntered (file file' : CSRRegFile) (cause tval pc : BitVec 64) : Prop where
  mode : file'.regMode = Privilege.m
  mepc : file'.regs .mepc = pc
  mcause : file'.regs .mcause = cause
  mtval : file'.regs .mtval = tval
  mpie : (file'.regs .mstatus).getLsbD 7 = (file.regs .mstatus).getLsbD 3
  mie : (file'.regs .mstatus).getLsbD 3 = false
  mpp : file'.mpp = file.regMode
  mstatus : ∀ k, k ∉ [3, 7, 11, 12] →
    (file'.regs .mstatus).getLsbD k = (file.regs .mstatus).getLsbD k
  frame : ∀ r, r ∉ [CReg.mstatus, .mepc, .mcause, .mtval] → file'.regs r = file.regs r

/-! ## side effects of an instruction in Execute -/

/-- the strobe of an aligned store -/
def Storing (data : IdExeData) : Prop :=
  data.info.fusel = .lsu ∧ LSUOpType.isStore data.info.op = true ∧
    lsuBit data.info.op (data.srcInfo.src1Data + data.info.imm) = 0

/-- the registers that are driven again after the write port when a trap is entered -/
def lateRegs : List CReg := [.mstatus, .mepc, .mcause, .mtval, .mip]

/-- the data on the write port of a CSR instruction -/
def csrPortData (file : CSRRegFile) (data : IdExeData) : BitVec 64 :=
  csrWdata data.info data.srcInfo.src1Data (file.rdata (csrRen data.info) data.info.csr)

/-- a legal CSR write that changes a register which trap entry leaves alone -/
def CsrWriting (file : CSRRegFile) (data : IdExeData) : Prop :=
  data.info.fusel = .csr ∧ csrWen data.info = true ∧ file.wlegal true data.info.csr = true ∧
    (csrLookup data.info.csr).1 ∉ lateRegs ∧
    file.writeValue data.info.csr (csrPortData file data) ≠ file.regs (csrLookup data.info.csr).1

def Returning (data : IdExeData) : Prop :=
  data.info.fusel = .csr ∧ data.info.op = CSROpType.mret

def SideEffect (file : CSRRegFile) (data : IdExeData) : Prop :=
  Storing data ∨ CsrWriting file data ∨ Returning data

/-! ## the store strobe -/

theorem lsuWen_load {op : BitVec 5} (h : LSUOpType.isStore op = false) (addr : BitVec 64) :
    lsuWen op addr = 0 := by
  have key : ∀ op : BitVec 5, LSUOpType.isStore op = false → op ≠ LSUOpType.sb ∧
      op ≠ LSUOpType.sh ∧ op ≠ LSUOpType.sw ∧ op ≠ LSUOpType.sd := by decide
  obtain ⟨h1, h2, h3, h4⟩ := key op h
  rw [lsuWen, if_neg h1, if_neg h2, if_neg h3, if_neg h4]

/-- Without an aligned store no strobe is raised. -/
theorem executeUnit_port (file : CSRRegFile) (ext : ExtInterrupt) {data : IdExeData}
    (h : ¬ Storing data) : (executeUnit file ext data).dataSram.wen = 0 := by
  show (fu file data).dataSram.wen = 0
  cases hf : data.info.fusel with
  | lsu =>
    simp only [fu, hf, lsu]
    by_cases hb : lsuBit data.info.op (data.srcInfo.src1Data + data.info.imm) = 0
    · have hst : LSUOpType.isStore data.info.op = false := by
        by_contra hs
        exact h ⟨hf, by simpa using hs, hb⟩
      rw [lsuWen_load hst]
      simp
    · have hb' : (lsuBit data.info.op (data.srcInfo.src1Data + data.info.imm) == 0) = false := by
        simpa using hb
      rw [hb']
      simp
  | _ => simp [fu, hf, FuOut.quiet]

/-! ## the write port of the CSR file -/

/-- Without a `CsrWriting` instruction the write port only reaches the registers that trap entry
drives again. -/
theorem writeRegs_late (file : CSRRegFile) {data : IdExeData} (h : ¬ CsrWriting file data)
    {r : CReg} (hr : r ∉ lateRegs) :
    file.writeRegs (fu file data).write r = file.regs r := by
  rw [CSRRegFile.writeRegs]
  by_cases hw : ((fu file data).write.wen &&
      file.wlegal (fu file data).write.wen (fu file data).write.waddr) = true
  swap
  · rw [if_neg hw]
  rw [if_pos hw]
  obtain ⟨hwen, hleg⟩ := Bool.and_eq_true_iff.mp hw
  have hf : data.info.fusel = .csr := by
    by_contra hn
    have hq : (fu file data).write.wen = false := by
      unfold fu
      cases hfu : data.info.fusel with
      | csr => exact absurd hfu hn
      | _ => rfl
    exact absurd (hq.symm.trans hwen) (by decide)
  have hfw : (fu file data).write = ⟨csrWen data.info, data.info.csr, csrPortData file data⟩ := by
    simp only [fu, hf]
    rfl
  rw [hfw] at hwen hleg ⊢
  change csrWen data.info = true at hwen
  change file.wlegal (csrWen data.info) data.info.csr = true at hleg
  rw [hwen] at hleg
  by_cases hrc : r = (csrLookup data.info.csr).1
  · by_contra hne
    rw [hrc, Function.update_self] at hne
    exact h ⟨hf, hwen, hleg, hrc ▸ hr, hne⟩
  · rw [Function.update_of_ne hrc]

theorem mem_lateRegs {r : CReg} : r ∈ lateRegs ↔
    r = .mstatus ∨ r = .mepc ∨ r = .mcause ∨ r = .mtval ∨ r = .mip := by
  simp [lateRegs]

/-- A trap without `mret` and without a write to another register is trap entry alone. -/
theorem CSRRegFile.next_trap (file : CSRRegFile) {i : CsrIn} (ht : file.traps i = true)
    (hm : i.mret = false) (hw : ∀ r, r ∉ lateRegs → file.writeRegs i.write r = file.regs r) :
    file.next i = { regMode := Privilege.m
                    regs := file.trapRegs i
                      (Function.update file.regs .mip (file.mipNext i.extInt)) } := by
  have hregs : file.trapRegs i (Function.update (file.writeRegs i.write) .mip
      (file.mipNext i.extInt)) =
      file.trapRegs i (Function.update file.regs .mip (file.mipNext i.extInt)) := by
    funext r
    by_cases hr : r ∈ lateRegs
    · rcases mem_lateRegs.mp hr with rfl | rfl | rfl | rfl | rfl <;> simp [trapRegs]
    · have hn := mem_lateRegs.not.mp hr
      simp only [not_or] at hn
      obtain ⟨h1, h2, h3, h4, h5⟩ := hn
      simp [trapRegs, h1, h2, h3, h4, h5, hw r hr]
  simp only [next, hm, ht, if_true, hregs, Bool.false_eq_true, if_false]

/-! ## trap entry -/

namespace CSRRegFile
variable (file : CSRRegFile) {i : CsrIn}

/-- Trap entry leaves the other registers to the write port. -/
theorem next_regs_late (hm : i.mret = false) (ht : file.traps i = true) {r : CReg}
    (hr : r ∉ lateRegs) : (file.next i).regs r = file.writeRegs i.write r := by
  have hn := mem_lateRegs.not.mp hr
  simp only [not_or] at hn
  obtain ⟨h1, h2, h3, h4, h5⟩ := hn
  simp [next, hm, ht, trapRegs, h1, h2, h3, h4, h5]

/-- What a trap records. -/
theorem next_regs_cause (hm : i.mret = false) (ht : file.traps i = true) :
    (file.next i).regs .mcause = file.trapMcause i ∧
      (file.next i).regs .mtval = file.trapMtval i := by
  constructor
  · simp [next, hm, ht, trapRegs]
  · simp [next, hm, ht, trapRegs]

theorem trapMcause_exc (h : file.isInt i = false) :
    file.trapMcause i = BitVec.ofNat 64 (excNO i.ex) := by
  rw [trapMcause, cauNO, h, bitAt_false, BitVec.zero_or, if_neg Bool.false_ne_true]

theorem trapMtval_exc (h : file.isInt i = false) :
    file.trapMtval i = i.ex.tval (excNO i.ex) := by
  rw [trapMtval, h, if_neg Bool.false_ne_true]

theorem trapTarget_exc (h : file.isInt i = false) : file.trapTarget i = file.mtvecBase := by
  simp [trapTarget, h]

theorem getLsbD_modeField (m : BitVec 2) {k : ℕ} (h : k ∉ [11, 12]) :
    (m.setWidth 64 <<< 11).getLsbD k = false := by
  have hk : k ≠ 11 ∧ k ≠ 12 := by simpa using h
  simp only [BitVec.getLsbD_shiftLeft, BitVec.getLsbD_setWidth]
  by_cases h11 : k < 11
  · simp [h11]
  · have h2 : m.getLsbD (k - 11) = false := BitVec.getLsbD_of_ge _ _ (by omega)
    simp [h2]

/-- MPIE takes MIE, MIE is cleared, MPP takes the mode; the other bits stay. -/
theorem trapMstatus_bits : file.trapMstatus.getLsbD 7 = (file.regs .mstatus).getLsbD 3 ∧
    file.trapMstatus.getLsbD 3 = false ∧ ∀ k, k ∉ [3, 7, 11, 12] →
      file.trapMstatus.getLsbD k = (file.regs .mstatus).getLsbD k := by
  have hmask : ∀ k < 64, k ∉ [3, 7, 11, 12] →
      (~~~((1#64 <<< 3) ||| (1#64 <<< 7) ||| (3#64 <<< 11))).getLsbD k = true := by decide
  have h7 : (~~~((1#64 <<< 3) ||| (1#64 <<< 7) ||| (3#64 <<< 11))).getLsbD 7 = false := by decide
  have h3 : (~~~((1#64 <<< 3) ||| (1#64 <<< 7) ||| (3#64 <<< 11))).getLsbD 3 = false := by decide
  refine ⟨?_, ?_, fun k hk => ?_⟩
  · rw [trapMstatus, BitVec.getLsbD_or, BitVec.getLsbD_or, BitVec.getLsbD_and, h7,
      getLsbD_modeField _ (by decide), getLsbD_bitAt _ _ _ (by decide)]
    simp
  · rw [trapMstatus, BitVec.getLsbD_or, BitVec.getLsbD_or, BitVec.getLsbD_and, h3,
      getLsbD_modeField _ (by decide), getLsbD_bitAt _ _ _ (by decide)]
    simp
  · have hk' : k ≠ 3 ∧ k ≠ 7 ∧ k ≠ 11 ∧ k ≠ 12 := by simpa using hk
    by_cases h64 : k < 64
    · rw [trapMstatus, BitVec.getLsbD_or, BitVec.getLsbD_or, BitVec.getLsbD_and, hmask k h64 hk,
        getLsbD_modeField _ (by simp [hk'.2.2.1, hk'.2.2.2]), getLsbD_bitAt _ _ _ h64]
      simp [hk'.2.1]
    · rw [BitVec.getLsbD_of_ge _ k (by omega), BitVec.getLsbD_of_ge _ k (by omega)]

/-- MIE takes MPIE, MPIE is set, MPRV is cleared unless the return is to M mode. -/
theorem mretMstatus_bits : file.mretMstatus.getLsbD 3 = (file.regs .mstatus).getLsbD 7 ∧
    file.mretMstatus.getLsbD 7 = true ∧
    file.mretMstatus.getLsbD 17 = (file.mpp == Privilege.m && (file.regs .mstatus).getLsbD 17) ∧
    ∀ k, k ∉ [3, 7, 11, 12, 17] → k < 64 →
      file.mretMstatus.getLsbD k = (file.regs .mstatus).getLsbD k := by
  have hkeep : ∀ k < 64, (~~~((1#64 <<< 3) ||| (1#64 <<< 7) ||| (3#64 <<< 11) |||
      (1#64 <<< 17))).getLsbD k = decide (k ∉ [3, 7, 11, 12, 17]) := by decide
  have hone : ∀ k < 64, (1#64 <<< 7).getLsbD k = decide (k = 7) := by decide
  have hu : ∀ k < 64, (Privilege.u.setWidth 64 <<< 11).getLsbD k = false := by decide
  have hbit : ∀ k < 64, file.mretMstatus.getLsbD k =
      ((file.regs .mstatus).getLsbD k && decide (k ∉ [3, 7, 11, 12, 17]) ||
        (decide (k = 3) && (file.regs .mstatus).getLsbD 7) || decide (k = 7) ||
        (decide (k = 17) && (file.mpp == Privilege.m && (file.regs .mstatus).getLsbD 17))) := by
    intro k hk
    have hmprv : (if file.mpp == Privilege.m then (file.regs .mstatus).getLsbD 17 else false) =
        (file.mpp == Privilege.m && (file.regs .mstatus).getLsbD 17) := by
      cases file.mpp == Privilege.m <;> rfl
    rw [mretMstatus]
    simp only [BitVec.getLsbD_or, BitVec.getLsbD_and]
    rw [hkeep k hk, hone k hk, hu k hk, hmprv, getLsbD_bitAt _ _ _ hk, getLsbD_bitAt _ _ _ hk,
      Bool.or_false]
  refine ⟨?_, ?_, ?_, fun k hm hk => ?_⟩
  · rw [hbit 3 (by decide)]
    simp
  · rw [hbit 7 (by decide)]
    simp
  · rw [hbit 17 (by decide)]
    simp
  · have hk' : k ≠ 3 ∧ k ≠ 7 ∧ k ≠ 11 ∧ k ≠ 12 ∧ k ≠ 17 := by simpa using hm
    rw [hbit k hk, decide_eq_true hm]
    simp [hk'.1, hk'.2.1, hk'.2.2.2.2]

/-- An exception without side effect, the interrupt lines low, is exactly trap entry. -/
theorem trapEntered_next (hlow : i.extInt = .low) (hint : file.isInt i = false)
    (hex : excNO i.ex ≠ noException) (hm : i.mret = false)
    (hw : ∀ r, r ∉ lateRegs → file.writeRegs i.write r = file.regs r) :
    TrapEntered file (file.next i) (BitVec.ofNat 64 (excNO i.ex)) (i.ex.tval (excNO i.ex))
      i.pc := by
  have ht : file.traps i = true := by simp [traps, hex]
  have hmip : Function.update file.regs .mip (file.mipNext i.extInt) = file.regs := by
    rw [hlow, mipNext_low, Function.update_eq_self]
  obtain ⟨h7, h3, hrest⟩ := file.trapMstatus_bits
  have hmst : (file.next i).regs .mstatus = file.trapMstatus := by
    rw [next_mstatus, hm, ht, if_neg Bool.false_ne_true, if_pos rfl]
  rw [file.next_trap ht hm hw, hmip] at hmst ⊢
  refine ⟨rfl, ?_, ?_, ?_, ?_, ?_, ?_, fun k hk => ?_, fun r hr => ?_⟩
  · simp [trapRegs]
  · simp [trapRegs, file.trapMcause_exc hint]
  · simp [trapRegs, file.trapMtval_exc hint]
  · rw [hmst, h7]
  · rw [hmst, h3]
  · rw [mpp, hmst, mpp_trapMstatus]
  · rw [hmst, hrest k hk]
  · have hr' : r ≠ .mstatus ∧ r ≠ .mepc ∧ r ≠ .mcause ∧ r ≠ .mtval := by simpa using hr
    simp [trapRegs, hr'.1, hr'.2.1, hr'.2.2.1, hr'.2.2.2]

end CSRRegFile

/-! ## the redirection and the register file -/

section
variable {s : Core} {i : CoreIn} (ht : s.csrfile.traps (s.exe i).csrIn = true)
include ht

theorem csrFtc_of_trap : (s.exe i).csrFtc.flush = true := by
  have hf : (s.exe i).csrFtc.flush =
      ((s.exe i).csrIn.mret || s.csrfile.traps (s.exe i).csrIn) := rfl
  rw [hf, ht, Bool.or_true]

theorem ftcInfo_of_trap : (s.exe i).ftcInfo = (s.exe i).csrFtc := by
  have hf : (s.exe i).ftcInfo = if (s.exe i).csrFtc.flush then (s.exe i).csrFtc
      else (fu s.csrfile s.executeStage).ftcInfo := rfl
  rw [hf, if_pos (csrFtc_of_trap ht)]

theorem flush_of_trap : s.flush i = true := by
  rw [Core.flush, ftcInfo_of_trap ht, csrFtc_of_trap ht]

/-- without `mret` the pc goes to the trap handler -/
theorem target_of_trap (hm : (s.exe i).csrIn.mret = false) :
    (s.exe i).ftcInfo.target = s.csrfile.trapTarget (s.exe i).csrIn := by
  have hf : (s.exe i).csrFtc = s.csrfile.ftcInfo (s.exe i).csrIn := rfl
  rw [ftcInfo_of_trap ht, hf, CSRRegFile.ftcInfo, hm, ht]
  rfl

end

/-- What traps in Execute is never written back: three edges later the register file is the one
that the instruction found in WriteBack. -/
theorem Core.regfile_of_trap {s : Core} (i : CoreIn)
    (ht : s.csrfile.traps (s.exe i).csrIn = true) (j k : CoreIn) :
    (((s.next i).next j).next k).regfile = ((s.next i).next j).regfile := by
  have hflush := csrFtc_of_trap ht
  have hwen : (s.exe i).memoryStage.info.regWen = false := by
    rw [Core.exe, executeUnit_info, ← Core.exe, if_pos hflush]
  have hwb : ((s.next i).next j).writeBackStage.info.regWen = false := by
    rw [Core.next_writeBackStage, Core.next_memoryStage]
    exact hwen
  rw [Core.next_regfile]
  funext r
  rw [writeBackUnit_apply, writes, hwb]
  simp

end HduCpu
