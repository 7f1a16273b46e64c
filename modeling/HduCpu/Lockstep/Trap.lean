import HduCpu.Cpu.Trap
import HduCpu.Ref.Ram

/-!
# Trap entry and return on both sides

The CPU rebuilds `mstatus` with masks and shifts, the reference assigns its bit fields; they agree.
The reference adds four times the cause to the handler address whenever `mtvec` is vectored, the
CPU for interrupts only.

* `trapMstatus_eq`, `mretMstatus_eq`   the masks and the bit fields;
* `SameTrapCsrs`           the CSRs of a trap, and the mode, are the same on both sides;
* `raiseTrap_exc`          `raise_trap` for an exception, without delegation;
* `trap_lockstep_iff`      trap entry agrees except for a vectored `mtvec`; `mret` agrees.
-/

namespace HduCpu

/-! ## mstatus -/

/-- Words that agree on the field at 11 and on every other bit. -/
theorem eq_of_mpp_of_bits {x y : BitVec 64} (h : x.extractLsb' 11 2 = y.extractLsb' 11 2)
    (hb : ∀ k, k ≠ 11 → k ≠ 12 → k < 64 → x.getLsbD k = y.getLsbD k) : x = y := by
  apply BitVec.eq_of_getLsbD_eq
  intro k hk
  by_cases h11 : k = 11
  · have := congrArg (fun z : BitVec 2 => z.getLsbD 0) h
    simpa [BitVec.getLsbD_extractLsb', h11] using this
  · by_cases h12 : k = 12
    · have := congrArg (fun z : BitVec 2 => z.getLsbD 1) h
      simpa [BitVec.getLsbD_extractLsb', h12] using this
    · exact hb k h11 h12 hk

theorem getLsbD_putBit (x : BitVec 64) {lo : ℕ} (b : Bool) (h : lo < 64) (k : ℕ) :
    (putField x lo (BitVec.ofBool b)).getLsbD k = if k = lo then b else x.getLsbD k := by
  by_cases hk : k = lo
  · have := getLsbD_putField x lo (BitVec.ofBool b) (i := 0) (by decide) (by omega)
    rw [if_pos hk, hk]
    simpa using this
  · rw [if_neg hk, getLsbD_putField_of_notMem _ _ _ (by omega)]

namespace CSRRegFile
variable (f : CSRRegFile)

theorem trapMstatus_eq : f.trapMstatus = Mstatus.setMpp
    (Mstatus.setMie (Mstatus.setMpie (f.regs .mstatus) (Mstatus.mie (f.regs .mstatus))) false)
    f.regMode := by
  obtain ⟨h7, h3, hrest⟩ := f.trapMstatus_bits
  refine eq_of_mpp_of_bits ?_ fun k h11 h12 hk => ?_
  · rw [f.mpp_trapMstatus, Mstatus.setMpp, extract_putField _ _ _ (by decide)]
  · rw [Mstatus.setMpp, getLsbD_putField_of_notMem _ _ _ (by omega), Mstatus.setMie,
      getLsbD_putBit _ _ (by decide), Mstatus.setMpie, getLsbD_putBit _ _ (by decide)]
    by_cases hk3 : k = 3
    · rw [if_pos hk3, hk3, h3]
    · rw [if_neg hk3]
      by_cases hk7 : k = 7
      · rw [if_pos hk7, hk7, h7]
        rfl
      · rw [if_neg hk7, hrest k (by simp [hk3, hk7, h11, h12])]

theorem mretMstatus_eq : f.mretMstatus = Mstatus.setMpp
    (if Mstatus.mpp (f.regs .mstatus) != PrivMode.M_MODE then
      Mstatus.setMprv (Mstatus.setMpie (Mstatus.setMie (f.regs .mstatus)
        (Mstatus.mpie (f.regs .mstatus))) true) false
    else Mstatus.setMpie (Mstatus.setMie (f.regs .mstatus) (Mstatus.mpie (f.regs .mstatus))) true)
    PrivMode.U_MODE := by
  obtain ⟨h3, h7, h17, hrest⟩ := f.mretMstatus_bits
  have hmprv : (f.mpp == Privilege.m && (f.regs .mstatus).getLsbD 17) =
      if Mstatus.mpp (f.regs .mstatus) != PrivMode.M_MODE then false
      else (f.regs .mstatus).getLsbD 17 := by
    show (Mstatus.mpp (f.regs .mstatus) == PrivMode.M_MODE && _) = _
    cases hm : Mstatus.mpp (f.regs .mstatus) == PrivMode.M_MODE
    · rw [bne, hm]
      rfl
    · rw [bne, hm]
      rfl
  refine eq_of_mpp_of_bits ?_ fun k h11 h12 hk => ?_
  · rw [f.mpp_mretMstatus, Mstatus.setMpp, extract_putField _ _ _ (by decide)]
    rfl
  · rw [Mstatus.setMpp, getLsbD_putField_of_notMem _ _ _ (by omega)]
    have hmid : (Mstatus.setMpie (Mstatus.setMie (f.regs .mstatus)
        (Mstatus.mpie (f.regs .mstatus))) true).getLsbD k =
        if k = 7 then true else if k = 3 then (f.regs .mstatus).getLsbD 7
        else (f.regs .mstatus).getLsbD k := by
      rw [Mstatus.setMpie, getLsbD_putBit _ _ (by decide), Mstatus.setMie,
        getLsbD_putBit _ _ (by decide)]
      rfl
    by_cases hk17 : k = 17
    · subst hk17
      rw [h17, hmprv]
      split_ifs
      · rw [Mstatus.setMprv, getLsbD_putBit _ _ (by decide), if_pos rfl]
      · rw [hmid, if_neg (by decide), if_neg (by decide)]
    · have hif : ∀ x : BitVec 64, (Mstatus.setMprv x false).getLsbD k = x.getLsbD k := by
        intro x
        rw [Mstatus.setMprv, getLsbD_putBit _ _ (by decide), if_neg hk17]
      rw [apply_ite (fun x : BitVec 64 => x.getLsbD k), hif, ite_self, hmid]
      by_cases hk7 : k = 7
      · rw [if_pos hk7, hk7, h7]
      · rw [if_neg hk7]
        by_cases hk3 : k = 3
        · rw [if_pos hk3, hk3, h3]
        · rw [if_neg hk3, hrest k (by simp [hk3, hk7, h11, h12, hk17]) hk]

end CSRRegFile

/-! ## trap entry -/

/-- the CSRs of a trap, and the mode of the next instruction, are the same on both sides -/
structure SameTrapCsrs (f : CSRRegFile) (mode : PrivMode) (p : RvPriv) : Prop where
  mode : f.regMode = mode
  mstatus : f.regs .mstatus = p.status
  mtvec : f.regs .mtvec = p.mtvec
  mepc : f.regs .mepc = p.mepc
  mcause : f.regs .mcause = p.mcause
  mtval : f.regs .mtval = p.mtval

/-- the exceptions that the CPU can raise -/
def raisedExceptions : List (Fin 16) :=
  [instAddrMisaligned, illegalInst, breakPoint, loadAddrMisaligned, storeAddrMisaligned, ecallU, ecallM]

/-- the inputs of a trap entry: an exception, no interrupt, nothing else at work -/
structure Raises (i : CsrIn) : Prop where
  cause : excNO i.ex ∈ raisedExceptions
  interrupt : ∀ id, i.ex.interrupt id = false
  lines : i.extInt = .low
  write : i.write.wen = false
  mret : i.mret = false

/-- the inputs of an `mret` -/
structure Returns (i : CsrIn) : Prop where
  cause : excNO i.ex = noException
  interrupt : ∀ id, i.ex.interrupt id = false
  lines : i.extInt = .low
  write : i.write.wen = false
  mret : i.mret = true

/-- The exception of `i` is taken alike. -/
def TrapAgrees (f : CSRRegFile) (p : RvPriv) (i : CsrIn) : Prop :=
  ∃ p', p.raiseTrap i.pc ⟨BitVec.ofNat 63 (excNO i.ex), false⟩ (i.ex.tval (excNO i.ex)) = .ok p' ∧
    SameTrapCsrs (f.next i) p'.nextPriv p' ∧ p'.curNeedTrap = true ∧
    f.ftcInfo i = ⟨true, p'.trapPc⟩

/-- `mret` returns alike. -/
def MretAgrees (f : CSRRegFile) (p : RvPriv) (i : CsrIn) : Prop :=
  ∃ p', p.mret = some p' ∧ SameTrapCsrs (f.next i) p'.nextPriv p' ∧ p'.curNeedTrap = true ∧
    f.ftcInfo i = ⟨true, p'.trapPc⟩

/-- no interrupt is taken that is not raised -/
theorem isInt_of_quiet (f : CSRRegFile) {i : CsrIn} (h : ∀ id, i.ex.interrupt id = false)
    (hl : i.extInt = .low) : f.isInt i = false := by
  have hno : i.ex.interrupt = ExceptionInfo.none.interrupt := funext h
  rw [f.isInt_eq hno, hl, takesInt_low]

/-- `raise_trap` for an exception, when nothing is delegated. -/
theorem raiseTrap_exc {p : RvPriv} (hn : p.curNeedTrap = false) (hd : p.medeleg = 0)
    {c : Fin 16} (hc : c ∈ raisedExceptions) (pc tval : BitVec 64) :
    p.raiseTrap pc ⟨BitVec.ofNat 63 c, false⟩ tval =
      .ok (p.enterM pc ⟨BitVec.ofNat 63 c, false⟩ tval) := by
  have hs : p.trapToS ⟨BitVec.ofNat 63 c, false⟩ = false := by
    simp [RvPriv.trapToS, hd]
  have hne : ((BitVec.ofNat 63 c).setWidth 64 == RvExcCode.instrPgfault) = false := by
    have key : ∀ c ∈ raisedExceptions,
        ((BitVec.ofNat 63 (c : ℕ)).setWidth 64 == RvExcCode.instrPgfault) = false := by decide
    exact key c hc
  simp only [RvPriv.raiseTrap, hn, hs, hne, Bool.false_and, Bool.false_eq_true, if_false]
  rfl

section
variable {f : CSRRegFile} {p : RvPriv} (h : SameTrapCsrs f p.curPriv p) {i : CsrIn}
include h

/-- **The registers after trap entry** are the same, whatever the handler address. -/
theorem sameTrapCsrs_enterM (hi : Raises i) :
    SameTrapCsrs (f.next i) PrivMode.M_MODE
      (p.enterM i.pc ⟨BitVec.ofNat 63 (excNO i.ex), false⟩ (i.ex.tval (excNO i.ex))) := by
  have hint := isInt_of_quiet f hi.interrupt hi.lines
  have ht : f.traps i = true := by
    have key : ∀ c ∈ raisedExceptions, c ≠ noException := by decide
    simp [CSRRegFile.traps, key _ hi.cause]
  have hcause : BitVec.ofNat 64 (excNO i.ex) =
      CauseDef.toBits ⟨BitVec.ofNat 63 (excNO i.ex), false⟩ := by
    have key : ∀ c : Fin 16, BitVec.ofNat 64 c = CauseDef.toBits ⟨BitVec.ofNat 63 c, false⟩ := by
      decide
    exact key _
  have hw : f.writeRegs i.write = f.regs := by
    rw [CSRRegFile.writeRegs, hi.write]
    rfl
  have hn : f.next i = ⟨Privilege.m, f.trapRegs i (Function.update f.regs .mip (f.mipNext i.extInt))⟩ :=
    f.next_trap ht hi.mret fun r _ => by rw [hw]
  rw [hn]
  refine ⟨rfl, ?_, ?_, ?_, ?_, ?_⟩
  · show f.trapMstatus = _
    rw [f.trapMstatus_eq, h.mstatus, h.mode]
    rfl
  · exact h.mtvec
  · rfl
  · show f.trapMcause i = _
    rw [f.trapMcause_exc hint, hcause]
    rfl
  · show f.trapMtval i = _
    rw [f.trapMtval_exc hint]
    rfl

omit h in
theorem mtvecBase_eq : f.mtvecBase = Tvec.base (f.regs .mtvec) <<< 2 := by
  apply BitVec.eq_of_getLsbD_eq
  intro k hk
  rw [CSRRegFile.mtvecBase, BitVec.getLsbD_append, Tvec.base, getLsbD_field 2 _ hk]
  by_cases h2 : k < 2
  · simp [h2]
  · simp [h2, Nat.not_lt.mp h2]

/-- **The handler address** is the same when `mtvec` is direct, or for cause 0. -/
theorem trapPc_eq_iff (hi : Raises i) (tval : BitVec 64) :
    f.trapTarget i = (p.enterM i.pc ⟨BitVec.ofNat 63 (excNO i.ex), false⟩ tval).trapPc ↔
      Tvec.mode p.mtvec = 0 ∨ excNO i.ex = instAddrMisaligned := by
  have hoff : (BitVec.ofNat 63 (excNO i.ex)).setWidth 64 * 4 = 0#64 ↔
      excNO i.ex = instAddrMisaligned := by
    have key : ∀ c : Fin 16, (BitVec.ofNat 63 c).setWidth 64 * 4 = 0#64 ↔ c = instAddrMisaligned := by
      decide
    exact key _
  rw [f.trapTarget_exc (isInt_of_quiet f hi.interrupt hi.lines), mtvecBase_eq, h.mtvec]
  show _ = Tvec.base p.mtvec <<< 2 + (if Tvec.mode p.mtvec != 0 then _ else 0) ↔ _
  by_cases hm : Tvec.mode p.mtvec = 0
  · have hne : (Tvec.mode p.mtvec != 0) = false := by simp [hm]
    rw [hne, if_neg Bool.false_ne_true]
    exact iff_of_true (BitVec.add_zero _).symm (.inl hm)
  · rw [if_pos (bne_iff_ne.mpr hm), left_eq_add]
    exact hoff.trans ⟨.inr, fun ho => ho.resolve_left hm⟩

/-- **`mret`** is the same on both sides. -/
theorem mretAgrees (hm : p.curPriv = PrivMode.M_MODE) (hi : Returns i) : MretAgrees f p i := by
  have hnt : f.traps i = false := by
    rw [CSRRegFile.traps, isInt_of_quiet f hi.interrupt hi.lines, hi.cause]
    rfl
  have hw : f.writeRegs i.write = f.regs := by
    rw [CSRRegFile.writeRegs, hi.write]
    rfl
  have hnext : f.next i = ⟨f.mpp, Function.update
      (Function.update f.regs .mip (f.mipNext i.extInt)) .mstatus f.mretMstatus⟩ := by
    simp only [CSRRegFile.next, hi.mret, hnt, hw, if_true, Bool.false_eq_true, if_false]
  have hne : ¬ (p.curPriv != PrivMode.M_MODE) = true := by
    rw [hm]
    decide
  rw [MretAgrees, hnext]
  refine ⟨_, if_neg hne, ⟨?_, ?_, ?_, ?_, ?_, ?_⟩, rfl, ?_⟩
  · exact congrArg Mstatus.mpp h.mstatus
  · show f.mretMstatus = _
    rw [f.mretMstatus_eq, h.mstatus]
  · exact h.mtvec
  · exact h.mepc
  · exact h.mcause
  · exact h.mtval
  · simp only [CSRRegFile.ftcInfo, hi.mret, if_true, Bool.true_or, h.mepc]

end

/-- **Trap entry and return agree**, trap entry exactly when `mtvec` is direct or the exception is
a misaligned pc. -/
theorem trap_lockstep_iff {f : CSRRegFile} {p : RvPriv} (h : SameTrapCsrs f p.curPriv p)
    (hn : p.curNeedTrap = false) (hd : p.medeleg = 0) :
    (∀ i, Raises i →
      (TrapAgrees f p i ↔ Tvec.mode p.mtvec = 0 ∨ excNO i.ex = instAddrMisaligned)) ∧
    (p.curPriv = PrivMode.M_MODE → ∀ i, Returns i → MretAgrees f p i) := by
  refine ⟨fun i hi => ?_, fun hm i hi => mretAgrees h hm hi⟩
  have ht : f.traps i = true := by
    have key : ∀ c ∈ raisedExceptions, c ≠ noException := by decide
    simp [CSRRegFile.traps, key _ hi.cause]
  have hftc : f.ftcInfo i = ⟨true, f.trapTarget i⟩ := by
    simp [CSRRegFile.ftcInfo, hi.mret, ht]
  rw [← trapPc_eq_iff h hi (i.ex.tval (excNO i.ex)), TrapAgrees,
    raiseTrap_exc hn hd hi.cause i.pc, hftc]
  constructor
  · rintro ⟨p', hp, -, -, hpc⟩
    obtain rfl := Except.ok.inj hp
    exact congrArg FetchInfo.target hpc
  · intro hpc
    exact ⟨_, rfl, sameTrapCsrs_enterM h hi, rfl, by rw [hpc]⟩

/-- the reference after reset, with a buffer without entries -/
def refReset : RvPriv := (RvCore.boots []).priv

/-- `ecall` at 0x80000000 in M mode -/
def ecallIn : CsrIn := ⟨⟨false, 0, 0⟩, .low, ExceptionInfo.none.raise ecallM 0, false, 0x80000000⟩

theorem ecallIn_raises : Raises ecallIn := ⟨by decide, fun _ => rfl, rfl, rfl, rfl⟩

theorem trap_lockstep_reset : TrapAgrees .reset refReset ecallIn :=
  ((trap_lockstep_iff ⟨rfl, by decide, rfl, rfl, rfl, rfl⟩ rfl rfl).1 ecallIn
    ecallIn_raises).mpr (.inl rfl)

/-- both sides with a vectored handler at 0x80000100 -/
def vectored : CSRRegFile := ⟨Privilege.m, Function.update CSRRegFile.reset.regs .mtvec 0x80000101⟩

def vectoredRef : RvPriv := { refReset with mtvec := 0x80000101 }

/-- The reference enters the handler of `ecall` 44 bytes behind the base. -/
theorem vectored_ecall_diverges : ¬ ∀ (f : CSRRegFile) (p : RvPriv), SameTrapCsrs f p.curPriv p →
    p.curNeedTrap = false → p.medeleg = 0 →
    (p.curPriv = PrivMode.U_MODE ∨ p.curPriv = PrivMode.M_MODE) →
    (Mstatus.mpp p.status = PrivMode.U_MODE ∨ Mstatus.mpp p.status = PrivMode.M_MODE) →
    Tvec.mode p.mtvec ≤ 1 → ∀ i, Raises i → i.pc.extractLsb' 0 2 = 0 → TrapAgrees f p i := by
  intro h
  obtain ⟨p', hp, -, -, hpc⟩ := h vectored vectoredRef ⟨rfl, by decide, rfl, rfl, rfl, rfl⟩ rfl rfl
    (.inr rfl) (.inl (by decide)) (by decide) ecallIn ecallIn_raises (by decide)
  obtain rfl := Except.ok.inj hp
  exact absurd (congrArg FetchInfo.target hpc) (by decide)

end HduCpu
