import HduCpu.Cpu.CsrRegFile

/-!
# The privilege state of the CSR file

Three blocks rewrite `mstatus`: the write port, trap entry and `mret`.  `next_mstatus` says which
one wins in a cycle; each of them is then shown to keep the well-formed values
(`MstatusWF`), and the invariant over all reachable states follows.

* `CSRRegFile.next_mstatus`, `next_regMode`   the last connection wins;
* `MstatusWF`              UXL = 2, SXL = 0 and no bit outside the implemented ones;
* `PrivInv`                the invariant; `PrivInv.next`, `privInv`: every edge keeps it;
* `reachable_privilege`    the same, field by field, for every reachable state.
-/

namespace HduCpu

/-! ## bits of `mstatus` that are implemented -/

/-- bits 3, 7, 11, 12, 17 and 33 -/
def mstatusMask : BitVec 64 := 0x0000000200021888

structure MstatusWF (x : BitVec 64) : Prop where
  uxl : x.extractLsb' 32 2 = 2
  sxl : x.extractLsb' 34 2 = 0
  within : Within mstatusMask x

theorem within_bitAt (b : Bool) {i : ℕ} (h : Within mstatusMask (bitAt true i)) :
    Within mstatusMask (bitAt b i) := by
  cases b with
  | true => exact h
  | false => rw [bitAt_false]; exact BitVec.zero_and

theorem within_mode (m : BitVec 2) : Within mstatusMask (m.setWidth 64 <<< 11) := by
  revert m
  decide

theorem extract_bitAt (b : Bool) {i lo n : ℕ} (h : (bitAt true i).extractLsb' lo n = 0#n) :
    (bitAt b i).extractLsb' lo n = 0#n := by
  cases b with
  | true => exact h
  | false => rw [bitAt_false]; exact BitVec.extractLsb'_zero

theorem extract_mode (m : BitVec 2) : (m.setWidth 64 <<< 11).extractLsb' 11 2 = m :=
  extract_field 11 m (by decide)

theorem extract_mode_uxl (m : BitVec 2) : (m.setWidth 64 <<< 11).extractLsb' 32 2 = 0#2 := by
  revert m
  decide

theorem extract_mode_sxl (m : BitVec 2) : (m.setWidth 64 <<< 11).extractLsb' 34 2 = 0#2 := by
  revert m
  decide

namespace CSRRegFile
variable (s : CSRRegFile)

/-! ## which block wins -/

theorem next_regMode (i : CsrIn) :
    (s.next i).regMode = if i.mret then s.mpp else if s.traps i then Privilege.m else s.regMode :=
  rfl

theorem trapRegs_mstatus (i : CsrIn) (r : CReg → BitVec 64) :
    s.trapRegs i r .mstatus = s.trapMstatus := by
  simp [trapRegs]

theorem next_mstatus (i : CsrIn) :
    (s.next i).regs .mstatus =
      if i.mret then s.mretMstatus
      else if s.traps i then s.trapMstatus
      else s.writeRegs i.write .mstatus := by
  unfold next
  by_cases hm : i.mret = true
  · simp [hm]
  · by_cases ht : s.traps i = true
    · simp [hm, ht, trapRegs_mstatus]
    · simp [hm, ht]

/-! ## what each block leaves in the fields -/

theorem mpp_trapMstatus : s.trapMstatus.extractLsb' 11 2 = s.regMode := by
  have hc : (~~~((1#64 <<< 3) ||| (1#64 <<< 7) ||| (3#64 <<< 11))).extractLsb' 11 2 = 0#2 := by
    decide
  rw [trapMstatus, BitVec.extractLsb'_or, BitVec.extractLsb'_or, BitVec.extractLsb'_and, hc,
    extract_bitAt _ (by decide), extract_mode]
  simp

theorem mpp_mretMstatus : s.mretMstatus.extractLsb' 11 2 = Privilege.u := by
  have hc : (~~~((1#64 <<< 3) ||| (1#64 <<< 7) ||| (3#64 <<< 11) ||| (1#64 <<< 17))).extractLsb'
      11 2 = 0#2 := by decide
  have h7 : (1#64 <<< 7).extractLsb' 11 2 = 0#2 := by decide
  have hu : (Privilege.u.setWidth 64 <<< 11).extractLsb' 11 2 = Privilege.u := extract_mode _
  rw [mretMstatus, BitVec.extractLsb'_or, BitVec.extractLsb'_or, BitVec.extractLsb'_or,
    BitVec.extractLsb'_or, BitVec.extractLsb'_and, hc, h7, hu, extract_bitAt _ (by decide),
    extract_bitAt _ (by decide)]
  simp

theorem wf_trapMstatus (h : MstatusWF (s.regs .mstatus)) : MstatusWF s.trapMstatus where
  uxl := by
    have hc : (~~~((1#64 <<< 3) ||| (1#64 <<< 7) ||| (3#64 <<< 11))).extractLsb' 32 2 = 3#2 := by
      decide
    rw [trapMstatus, BitVec.extractLsb'_or, BitVec.extractLsb'_or, BitVec.extractLsb'_and, hc,
      extract_bitAt _ (by decide), extract_mode_uxl, h.uxl]
    decide
  sxl := by
    rw [trapMstatus, BitVec.extractLsb'_or, BitVec.extractLsb'_or, BitVec.extractLsb'_and, h.sxl,
      extract_bitAt _ (by decide), extract_mode_sxl]
    simp
  within :=
    within_or (within_or (within_and_left h.within _) (within_bitAt _ (by decide))) (within_mode _)

theorem wf_mretMstatus (h : MstatusWF (s.regs .mstatus)) : MstatusWF s.mretMstatus where
  uxl := by
    have hc : (~~~((1#64 <<< 3) ||| (1#64 <<< 7) ||| (3#64 <<< 11) ||| (1#64 <<< 17))).extractLsb'
        32 2 = 3#2 := by decide
    have h7 : (1#64 <<< 7).extractLsb' 32 2 = 0#2 := by decide
    rw [mretMstatus, BitVec.extractLsb'_or, BitVec.extractLsb'_or, BitVec.extractLsb'_or,
      BitVec.extractLsb'_or, BitVec.extractLsb'_and, hc, h7, extract_mode_uxl,
      extract_bitAt _ (by decide), extract_bitAt _ (by decide), h.uxl]
    decide
  sxl := by
    have h7 : (1#64 <<< 7).extractLsb' 34 2 = 0#2 := by decide
    rw [mretMstatus, BitVec.extractLsb'_or, BitVec.extractLsb'_or, BitVec.extractLsb'_or,
      BitVec.extractLsb'_or, BitVec.extractLsb'_and, h7, extract_mode_sxl,
      extract_bitAt _ (by decide), extract_bitAt _ (by decide), h.sxl]
    simp
  within := by
    have h7 : Within mstatusMask (1#64 <<< 7) := by decide
    exact within_or (within_or (within_or (within_or (within_and_left h.within _)
      (within_bitAt _ (by decide))) h7) (within_mode _)) (within_bitAt _ (by decide))

/-! ## the write port -/

theorem csrLookup_mstatus : csrLookup CSRAddr.mstatus
    = (.mstatus, 0xFFFFFFFFFFFFFFFF#64, 0x0000000000021888#64) := by decide

/-- Only the address of `mstatus` leads to `mstatus`. -/
theorem eq_mstatus_of_csrLookup {a : BitVec 12} (h : (csrLookup a).1 = .mstatus) :
    a = CSRAddr.mstatus := by
  rcases listLookup_cases a addrDefault addrTable with ⟨e, hm, hh, hl⟩ | ⟨_, hl⟩
  · have he : e.2.1 = .mstatus := by rw [← hl]; exact h
    have key : ∀ e ∈ addrTable, e.2.1 = CReg.mstatus → e.1 = .lit CSRAddr.mstatus := by decide
    rw [key e hm he, BitPat.hit_lit] at hh
    exact beq_iff_eq.mp hh
  · rw [csrLookup, hl] at h
    exact absurd h (by decide)

/-- The write port reaches `mstatus` only in machine mode. -/
theorem machine_of_wlegal {s : CSRRegFile} (h : s.wlegal true CSRAddr.mstatus = true) :
    s.regMode = Privilege.m := by
  have hl : CSRAddr.leastMode CSRAddr.mstatus = 3#2 := by decide
  simp only [wlegal, hl, Bool.true_and, Bool.not_eq_true', Bool.or_eq_false_iff,
    decide_eq_false_iff_not] at h
  have h3 := h.2
  rw [BitVec.not_lt, BitVec.le_def] at h3
  apply BitVec.eq_of_toNat_eq
  have hlt := s.regMode.isLt
  have e3 : (3#2).toNat = 3 := rfl
  have em : Privilege.m.toNat = 3 := rfl
  omega

/-- A write leaves `mstatus` alone, or was made in machine mode to its address. -/
theorem writeRegs_mstatus (w : CsrWrite) :
    s.writeRegs w .mstatus = s.regs .mstatus ∨
      (s.regMode = Privilege.m ∧
        s.writeRegs w .mstatus = s.writeValue CSRAddr.mstatus w.wdata) := by
  unfold writeRegs
  split
  next hw =>
    obtain ⟨hwen, hleg⟩ := Bool.and_eq_true_iff.mp hw
    by_cases ha : (csrLookup w.waddr).1 = .mstatus
    · have haddr := eq_mstatus_of_csrLookup ha
      rw [hwen, haddr] at hleg
      refine .inr ⟨machine_of_wlegal hleg, ?_⟩
      rw [ha, haddr, Function.update_self]
    · exact .inl (Function.update_of_ne (Ne.symm ha) _ _)
  next => exact .inl rfl

theorem mpp_writeValue (d : BitVec 64) :
    (s.writeValue CSRAddr.mstatus d).extractLsb' 11 2 = s.wmpp d := by
  have hm : (0x0000000000021888#64 &&& 0xFFFFFFFFFFFFE7FF#64).extractLsb' 11 2 = 0#2 := by decide
  have hk : (~~~0x0000000000021888#64).extractLsb' 11 2 = 0#2 := by decide
  simp only [writeValue, csrLookup_mstatus]
  rw [BitVec.and_assoc, BitVec.extractLsb'_or, BitVec.extractLsb'_or, BitVec.extractLsb'_and, hm,
    BitVec.extractLsb'_and, hk, extract_mode]
  simp

theorem wf_writeValue (h : MstatusWF (s.regs .mstatus)) (d : BitVec 64) :
    MstatusWF (s.writeValue CSRAddr.mstatus d) := by
  simp only [writeValue, csrLookup_mstatus]
  rw [BitVec.and_assoc]
  refine ⟨?_, ?_, ?_⟩
  · have hm : (0x0000000000021888#64 &&& 0xFFFFFFFFFFFFE7FF#64).extractLsb' 32 2 = 0#2 := by decide
    have hk : (~~~0x0000000000021888#64).extractLsb' 32 2 = 3#2 := by decide
    rw [BitVec.extractLsb'_or, BitVec.extractLsb'_or, BitVec.extractLsb'_and, hm,
      BitVec.extractLsb'_and, hk, extract_mode_uxl, h.uxl]
    simp
  · have hm : (0x0000000000021888#64 &&& 0xFFFFFFFFFFFFE7FF#64).extractLsb' 34 2 = 0#2 := by decide
    rw [BitVec.extractLsb'_or, BitVec.extractLsb'_or, BitVec.extractLsb'_and, hm,
      BitVec.extractLsb'_and, extract_mode_sxl, h.sxl]
    simp
  · have hd : Within mstatusMask (d &&& (0x0000000000021888#64 &&& 0xFFFFFFFFFFFFE7FF#64)) := by
      have hc : Within mstatusMask (0x0000000000021888#64 &&& 0xFFFFFFFFFFFFE7FF#64) := by decide
      rw [BitVec.and_comm]
      exact within_and_left hc d
    exact within_or (within_or hd (within_mode _)) (within_and_left h.within _)

end CSRRegFile

/-! ## the invariant -/

/-- The privilege state is one of machine and user mode, with `MPP` in step. -/
structure PrivInv (s : CSRRegFile) : Prop where
  mode : s.regMode = Privilege.u ∨ s.regMode = Privilege.m
  mpp : s.mpp = Privilege.u ∨ s.mpp = Privilege.m
  mpp_of_u : s.regMode = Privilege.u → s.mpp = Privilege.u
  wf : MstatusWF (s.regs .mstatus)

/-- With SXL = 0 and UXL ≠ 0 the modes kept out of `MPP` are S and H. -/
theorem PrivInv.wmpp_eq {s : CSRRegFile} (h : PrivInv s) (d : BitVec 64) :
    s.wmpp d = if d.extractLsb' 11 2 = Privilege.s ∨ d.extractLsb' 11 2 = Privilege.h then s.mpp
      else d.extractLsb' 11 2 := by
  have hu : ((2 : BitVec 2) == 0) = false := by decide
  simp only [CSRRegFile.wmpp, h.wf.sxl, h.wf.uxl, hu, beq_self_eq_true, Bool.true_and,
    Bool.false_and, Bool.or_false, Bool.or_eq_true, beq_iff_eq]

theorem PrivInv.wmpp {s : CSRRegFile} (h : PrivInv s) (d : BitVec 64) :
    s.wmpp d = Privilege.u ∨ s.wmpp d = Privilege.m := by
  rw [h.wmpp_eq]
  split
  next => exact h.mpp
  next hn =>
    have key : ∀ m : BitVec 2, ¬ (m = Privilege.s ∨ m = Privilege.h) →
        m = Privilege.u ∨ m = Privilege.m := by decide
    exact key _ hn

theorem privInv_reset : PrivInv .reset where
  mode := .inr rfl
  mpp := .inl (by decide)
  mpp_of_u := by decide
  wf := ⟨by decide, by decide, by decide⟩

/-- One clock edge keeps the invariant, whatever the inputs. -/
theorem PrivInv.next {s : CSRRegFile} (h : PrivInv s) (i : CsrIn) : PrivInv (s.next i) := by
  have hmode := s.next_regMode i
  have hmst := s.next_mstatus i
  by_cases hm : i.mret = true
  · -- `mret` overrides everything: the mode becomes the old MPP and MPP becomes U
    rw [if_pos hm] at hmode hmst
    have hmpp : (s.next i).mpp = Privilege.u := by
      rw [CSRRegFile.mpp, hmst, s.mpp_mretMstatus]
    exact ⟨by rw [hmode]; exact h.mpp, .inl hmpp, fun _ => hmpp,
      by rw [hmst]; exact s.wf_mretMstatus h.wf⟩
  rw [if_neg hm] at hmode hmst
  by_cases ht : s.traps i = true
  · rw [if_pos ht] at hmode hmst
    have hmpp : (s.next i).mpp = s.regMode := by
      rw [CSRRegFile.mpp, hmst, s.mpp_trapMstatus]
    exact ⟨.inr hmode, by rw [hmpp]; exact h.mode,
      fun hu => absurd (hmode.symm.trans hu) (by decide), by rw [hmst]; exact s.wf_trapMstatus h.wf⟩
  rw [if_neg ht] at hmode hmst
  rcases s.writeRegs_mstatus i.write with hw | ⟨hM, hw⟩
  · have hmpp : (s.next i).mpp = s.mpp := by rw [CSRRegFile.mpp, hmst, hw]; rfl
    exact ⟨by rw [hmode]; exact h.mode, by rw [hmpp]; exact h.mpp,
      fun hu => by rw [hmpp]; exact h.mpp_of_u (hmode ▸ hu), by rw [hmst, hw]; exact h.wf⟩
  · have hmpp : (s.next i).mpp = s.wmpp i.write.wdata := by
      rw [CSRRegFile.mpp, hmst, hw, s.mpp_writeValue]
    exact ⟨by rw [hmode]; exact h.mode, by rw [hmpp]; exact h.wmpp _,
      fun hu => absurd (hM.symm.trans (hmode ▸ hu)) (by decide),
      by rw [hmst, hw]; exact s.wf_writeValue h.wf _⟩

theorem privInv : csrMachine.Invariant PrivInv where
  base := by rintro s rfl; exact privInv_reset
  step i _ h := h.next i

/-- **The privilege state is well formed in every reachable state of the CSR file**, under any
sequence of writes, exceptions, interrupts and returns, several of them in one cycle included. -/
theorem reachable_privilege {s : CSRRegFile} (h : csrMachine.Reach s) :
    (s.regMode = Privilege.u ∨ s.regMode = Privilege.m) ∧
    (s.mpp = Privilege.u ∨ s.mpp = Privilege.m) ∧
    (s.regMode = Privilege.u → s.mpp = Privilege.u) ∧
    (s.regs .mstatus).extractLsb' 32 2 = 2 ∧ (s.regs .mstatus).extractLsb' 34 2 = 0 ∧
    ∀ i, i ∉ [3, 7, 11, 12, 17, 33] → (s.regs .mstatus).getLsbD i = false := by
  obtain ⟨hmode, hmpp, hu, hwf⟩ := privInv.reach h
  refine ⟨hmode, hmpp, hu, hwf.uxl, hwf.sxl, fun i hi => hwf.within.getLsbD ?_⟩
  by_cases h64 : i < 64
  · have key : ∀ i < 64, i ∉ [3, 7, 11, 12, 17, 33] → mstatusMask.getLsbD i = false := by decide
    exact key i h64 hi
  · exact BitVec.getLsbD_of_ge _ i (by omega)

/-- after a trap from machine mode into machine mode the invariant still holds, MPP being M -/
theorem reachable_privilege_trap :
    (CSRRegFile.reset.next ⟨⟨false, 0, 0⟩, .low, ExceptionInfo.none.raise illegalInst 0, false,
      PC_INIT⟩).mpp = Privilege.m ∧
    ((CSRRegFile.reset.next ⟨⟨false, 0, 0⟩, .low, ExceptionInfo.none.raise illegalInst 0, false,
      PC_INIT⟩).regMode = Privilege.u ∨
     (CSRRegFile.reset.next ⟨⟨false, 0, 0⟩, .low, ExceptionInfo.none.raise illegalInst 0, false,
      PC_INIT⟩).regMode = Privilege.m) :=
  ⟨by decide, (reachable_privilege (.next _ (.init rfl))).1⟩

end HduCpu
