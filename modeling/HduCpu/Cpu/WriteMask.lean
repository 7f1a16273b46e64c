import HduCpu.Cpu.Privilege

/-!
# The write port and the write masks

The intended law of a CSR write is `(wdata & wmask) | (old & ~wmask)`, except that `mstatus.MPP`
keeps its value when the data names an unsupported mode (`writeLaw`).  One expression serves all
registers, and it drives the `MPP` candidate onto bits 12 and 11 of every register; `mip` is
driven once more, unconditionally, later in the file.

* `writable_cases`         the registers a legal write can address;
* `writeValue_full`, `writeValue_none`, `writeValue_mstatus`   what is driven, by write mask;
* `WriteObeys`             the law together with the frame (nothing else changes);
* `writeObeys_iff`         for every reachable state and every legal write: the law holds
                           exactly when `LawfulData` does.
-/

namespace HduCpu

/-- what a legal write should leave in the addressed register -/
def writeLaw (c : CReg) (wmask old wdata : BitVec 64) : BitVec 64 :=
  let mode := wdata.extractLsb' 11 2
  let mask := if c = .mstatus ∧ (mode = Privilege.s ∨ mode = Privilege.h)
    then wmask &&& ~~~fieldMask 64 11 2 else wmask
  (wdata &&& mask) ||| (old &&& ~~~mask)

/-- The addressed register obeys the law and nothing else changes. -/
structure WriteObeys (s : CSRRegFile) (w : CsrWrite) (s' : CSRRegFile) : Prop where
  value : s'.regs (csrLookup w.waddr).1 =
    writeLaw (csrLookup w.waddr).1 (csrLookup w.waddr).2.2 (s.regs (csrLookup w.waddr).1) w.wdata
  frame : ∀ r, r ≠ (csrLookup w.waddr).1 → s'.regs r = s.regs r
  mode : s'.regMode = s.regMode

/-- The data for which the write port does what the masks say: always for `mstatus`; for `mip`
when nothing in the mask would change; for a fully writable register when bits 12 and 11 name
machine or user mode; for a register that cannot be written when the mode that would be stored
in `MPP` has no bit that the register lacks there. -/
def LawfulData (s : CSRRegFile) (w : CsrWrite) : Prop :=
  let mode := w.wdata.extractLsb' 11 2
  let stored := if mode = Privilege.u ∨ mode = Privilege.m then mode else s.mpp
  match (csrLookup w.waddr).1 with
  | .mstatus => True
  | .mip => w.wdata &&& 0x888 = s.regs .mip &&& 0x888
  | .misa => stored &&& ~~~(s.regs .misa).extractLsb' 11 2 = 0
  | .tselect => stored &&& ~~~(s.regs .tselect).extractLsb' 11 2 = 0
  | .tdata1 => stored &&& ~~~(s.regs .tdata1).extractLsb' 11 2 = 0
  | _ => mode = Privilege.u ∨ mode = Privilege.m

/-! ## the addressed register -/

/-- the entries a legal write can hit -/
def writableEntries : List (CReg × BitVec 64 × BitVec 64) :=
  (addrTable.filter fun e => CSRAddr.enWrite e.1.value).map Prod.snd

theorem writable_cases {s : CSRRegFile} {a : BitVec 12} (h : s.wlegal true a = true) :
    csrLookup a ∈ writableEntries := by
  simp only [CSRRegFile.wlegal, Bool.true_and, Bool.not_eq_true', Bool.or_eq_false_iff] at h
  obtain ⟨⟨hne, hen⟩, -⟩ := h
  rcases listLookup_cases a addrDefault addrTable with ⟨e, hm, hh, hl⟩ | ⟨-, hl⟩
  · have hlit : ∀ e ∈ addrTable, e.1 = .lit e.1.value := by decide
    rw [hlit e hm, BitPat.hit_lit] at hh
    have ha : a = e.1.value := beq_iff_eq.mp hh
    refine List.mem_map.mpr ⟨e, List.mem_filter.mpr ⟨hm, ?_⟩, hl.symm⟩
    rw [← ha]
    simpa using hen
  · rw [csrLookup, hl] at hne
    exact absurd hne (by decide)

/-- A register that a legal write can address, with its write mask. -/
theorem writable_mask {e : CReg × BitVec 64 × BitVec 64} (h : e ∈ writableEntries) :
    (e.1 = .mstatus ∧ e.2.2 = 0x21888) ∨ (e.1 = .mip ∧ e.2.2 = 0x888) ∨
    ((e.1 = .misa ∨ e.1 = .tselect ∨ e.1 = .tdata1) ∧ e.2.2 = 0) ∨
    ((e.1 = .mie ∨ e.1 = .mtvec ∨ e.1 = .mcounteren ∨ e.1 = .mscratch ∨ e.1 = .mepc ∨
      e.1 = .mcause ∨ e.1 = .mtval) ∧ e.2.2 = BitVec.allOnes 64) := by
  revert e
  decide

/-! ## the driven value -/

theorem mode_cases (m : BitVec 2) :
    (m = Privilege.s ∨ m = Privilege.h) ↔ ¬ (m = Privilege.u ∨ m = Privilege.m) := by
  revert m
  decide

namespace CSRRegFile
variable (s : CSRRegFile)

/-- without trap and return only the write port and the interrupt lines act -/
theorem next_regs_quiet {i : CsrIn} (ht : s.traps i = false) (hm : i.mret = false) :
    (s.next i).regs = Function.update (s.writeRegs i.write) .mip (s.mipNext i.extInt) := by
  simp [next, ht, hm]

theorem next_mode_quiet {i : CsrIn} (ht : s.traps i = false) (hm : i.mret = false) :
    (s.next i).regMode = s.regMode := by
  simp [next, ht, hm]

/-- A fully writable register receives the data with the `MPP` candidate put over bits 12, 11. -/
theorem writeValue_full {a : BitVec 12} (d : BitVec 64)
    (h : (csrLookup a).2.2 = BitVec.allOnes 64) :
    s.writeValue a d = putField d 11 (s.wmpp d) := by
  have hm : (0xFFFFFFFFFFFFE7FF#64) = ~~~fieldMask 64 11 2 := by decide
  simp only [writeValue, h]
  rw [BitVec.and_allOnes, BitVec.not_allOnes, BitVec.and_zero, BitVec.or_zero, hm, putField]

/-- A register that cannot be written receives the `MPP` candidate on top of its old value. -/
theorem writeValue_none {a : BitVec 12} (d : BitVec 64) (h : (csrLookup a).2.2 = 0) :
    s.writeValue a d = ((s.wmpp d).setWidth 64 <<< 11) ||| s.regs (csrLookup a).1 := by
  have hz : ~~~(0 : BitVec 64) = BitVec.allOnes 64 := by decide
  simp only [writeValue, h]
  rw [hz, BitVec.and_allOnes, show d &&& (0 : BitVec 64) = 0#64 from BitVec.and_zero,
    BitVec.zero_and, BitVec.zero_or]

/-- `mstatus` receives the masked data with the `MPP` candidate in the field meant for it. -/
theorem writeValue_mstatus {a : BitVec 12} (d : BitVec 64) (h : (csrLookup a).1 = .mstatus)
    (hm : (csrLookup a).2.2 = 0x21888) :
    s.writeValue a d = putField (d &&& 0x21888) 11 (s.wmpp d) |||
      (s.regs .mstatus &&& ~~~0x21888) := by
  have hc : (0xFFFFFFFFFFFFE7FF#64) = ~~~fieldMask 64 11 2 := by decide
  simp [writeValue, h, hm, hc, putField]

end CSRRegFile

/-! ## when the law holds -/

section
variable {s : CSRRegFile} (hinv : PrivInv s)
include hinv

/-- The `MPP` candidate, given the modes that are supported. -/
theorem wmpp_supported (d : BitVec 64) :
    s.wmpp d = if d.extractLsb' 11 2 = Privilege.u ∨ d.extractLsb' 11 2 = Privilege.m
      then d.extractLsb' 11 2 else s.mpp := by
  rw [hinv.wmpp_eq]
  by_cases h : d.extractLsb' 11 2 = Privilege.u ∨ d.extractLsb' 11 2 = Privilege.m
  · rw [if_pos h, if_neg fun h' => (mode_cases _).mp h' h]
  · rw [if_neg h, if_pos ((mode_cases _).mpr h)]

/-- The `MPP` candidate is the data field exactly when that field names a supported mode. -/
theorem wmpp_eq_iff (d : BitVec 64) :
    s.wmpp d = d.extractLsb' 11 2 ↔
      d.extractLsb' 11 2 = Privilege.u ∨ d.extractLsb' 11 2 = Privilege.m := by
  rw [wmpp_supported hinv]
  constructor
  · intro h
    by_contra hn
    rw [if_neg hn] at h
    exact hn (h ▸ hinv.mpp)
  · intro h
    rw [if_pos h]

/-- For `mstatus` the driven value is the law. -/
theorem mstatus_lawful {a : BitVec 12} (d : BitVec 64) (h : (csrLookup a).1 = .mstatus)
    (hm : (csrLookup a).2.2 = 0x21888) :
    s.writeValue a d = writeLaw .mstatus 0x21888 (s.regs .mstatus) d := by
  rw [s.writeValue_mstatus d h hm]
  simp only [writeLaw]
  by_cases hs : d.extractLsb' 11 2 = Privilege.s ∨ d.extractLsb' 11 2 = Privilege.h
  · -- an unsupported mode: bits 12 and 11 come from the old value on both sides
    have hw : s.wmpp d = (s.regs .mstatus).extractLsb' 11 2 := by
      rw [hinv.wmpp_eq, if_pos hs]; rfl
    rw [if_pos (And.intro trivial hs), hw]
    apply BitVec.eq_of_getLsbD_eq
    intro i hi
    simp only [putField, BitVec.getLsbD_or, BitVec.getLsbD_and, BitVec.getLsbD_not, hi,
      getLsbD_field 11 _ hi, getLsbD_fieldMask 11 hi, BitVec.getLsbD_extractLsb', decide_true,
      Bool.true_and]
    by_cases hl : 11 ≤ i
    · have e : 11 + (i - 11) = i := by omega
      by_cases hu : i < 11 + 2
      · have hn : i - 11 < 2 := by omega
        simp only [hl, hu, hn, e, decide_true, Bool.true_and, Bool.and_true, Bool.not_true,
          Bool.and_false, Bool.false_or, Bool.not_false]
        exact Bool.or_eq_left_iff_imp.mpr fun h => (Bool.and_eq_true_iff.mp h).1
      · have hn : ¬ i - 11 < 2 := by omega
        simp [hl, hu, hn]
    · simp [hl]
  · have hw : s.wmpp d = d.extractLsb' 11 2 := by rw [hinv.wmpp_eq, if_neg hs]
    have hx : d.extractLsb' 11 2 = (d &&& 0x21888).extractLsb' 11 2 := by
      have hc : (0x21888 : BitVec 64).extractLsb' 11 2 = BitVec.allOnes 2 := by decide
      rw [BitVec.extractLsb'_and, hc, BitVec.and_allOnes]
    have hn : ¬ (True ∧ (d.extractLsb' 11 2 = Privilege.s ∨ d.extractLsb' 11 2 = Privilege.h)) :=
      fun h => hs h.2
    rw [if_neg hn, hw, hx, (putField_eq_self_iff _ 11 _ (by decide)).mpr rfl]

end

/-- A register other than `mstatus` has the plain law. -/
theorem writeLaw_plain {c : CReg} (h : c ≠ .mstatus) (mask old d : BitVec 64) :
    writeLaw c mask old d = (d &&& mask) ||| (old &&& ~~~mask) := by
  have hn : ¬ (c = .mstatus ∧
      (d.extractLsb' 11 2 = Privilege.s ∨ d.extractLsb' 11 2 = Privilege.h)) := fun h' => h h'.1
  rw [writeLaw, if_neg hn]

section
variable {s : CSRRegFile} {i : CsrIn} (hext : i.extInt = .low) (ht : s.traps i = false)
  (hm : i.mret = false) (hwen : i.write.wen = true) (hleg : s.wlegal true i.write.waddr = true)
include hext ht hm hwen hleg

/-- a legal write in a cycle without trap, return and interrupt lines; `mip` is driven once more -/
theorem next_regs_write : (s.next i).regs = Function.update (Function.update s.regs
    (csrLookup i.write.waddr).1 (s.writeValue i.write.waddr i.write.wdata)) .mip (s.regs .mip) := by
  rw [s.next_regs_quiet ht hm, hext, s.mipNext_low, CSRRegFile.writeRegs, hwen, hleg]
  rfl

theorem next_reg_write (hne : (csrLookup i.write.waddr).1 ≠ .mip) :
    (s.next i).regs (csrLookup i.write.waddr).1 = s.writeValue i.write.waddr i.write.wdata := by
  rw [next_regs_write hext ht hm hwen hleg, Function.update_of_ne hne, Function.update_self]

/-- Only the value of the addressed register is in question. -/
theorem writeObeys_iff_value : WriteObeys s i.write (s.next i) ↔
    (s.next i).regs (csrLookup i.write.waddr).1 = writeLaw (csrLookup i.write.waddr).1
      (csrLookup i.write.waddr).2.2 (s.regs (csrLookup i.write.waddr).1) i.write.wdata := by
  refine ⟨fun h => h.value, fun h => ⟨h, fun r hrc => ?_, s.next_mode_quiet ht hm⟩⟩
  rw [next_regs_write hext ht hm hwen hleg]
  by_cases hmip : r = .mip
  · rw [hmip, Function.update_self]
  · rw [Function.update_of_ne hmip, Function.update_of_ne hrc]

/-- A write to `mip` is lost. -/
theorem writeObeys_mip (h : (csrLookup i.write.waddr).1 = .mip)
    (hk : (csrLookup i.write.waddr).2.2 = 0x888) :
    WriteObeys s i.write (s.next i) ↔ i.write.wdata &&& 0x888 = s.regs .mip &&& 0x888 := by
  have hcur : (s.next i).regs .mip = s.regs .mip := by
    rw [next_regs_write hext ht hm hwen hleg, Function.update_self]
  rw [writeObeys_iff_value hext ht hm hwen hleg, h, hk, hcur, writeLaw_plain (by decide), eq_comm]
  exact merge_eq_self_iff _ _ _

/-- A register without writable bits receives the mode. -/
theorem writeObeys_locked (hne : (csrLookup i.write.waddr).1 ≠ .mip ∧
    (csrLookup i.write.waddr).1 ≠ .mstatus) (hk : (csrLookup i.write.waddr).2.2 = 0) :
    WriteObeys s i.write (s.next i) ↔ s.wmpp i.write.wdata &&&
      ~~~(s.regs (csrLookup i.write.waddr).1).extractLsb' 11 2 = 0 := by
  have hz : ~~~(0 : BitVec 64) = BitVec.allOnes 64 := by decide
  rw [writeObeys_iff_value hext ht hm hwen hleg, next_reg_write hext ht hm hwen hleg hne.1,
    writeLaw_plain hne.2, hk, s.writeValue_none _ hk, hz, BitVec.and_allOnes,
    show i.write.wdata &&& (0 : BitVec 64) = 0#64 from BitVec.and_zero, BitVec.zero_or]
  exact or_field_eq_self_iff (s.regs _) 11 (s.wmpp i.write.wdata) (by decide)

/-- A fully writable register receives the mode in place of bits 12 and 11. -/
theorem writeObeys_full (hne : (csrLookup i.write.waddr).1 ≠ .mip ∧
    (csrLookup i.write.waddr).1 ≠ .mstatus)
    (hk : (csrLookup i.write.waddr).2.2 = BitVec.allOnes 64) :
    WriteObeys s i.write (s.next i) ↔
      s.wmpp i.write.wdata = i.write.wdata.extractLsb' 11 2 := by
  rw [writeObeys_iff_value hext ht hm hwen hleg, next_reg_write hext ht hm hwen hleg hne.1,
    writeLaw_plain hne.2, hk, s.writeValue_full _ hk, BitVec.and_allOnes, BitVec.not_allOnes,
    BitVec.and_zero, BitVec.or_zero]
  exact putField_eq_self_iff i.write.wdata 11 _ (by decide)

end

/-- The law under the invariant of the privilege state. -/
theorem writeObeys_of_privInv {s : CSRRegFile} (hinv : PrivInv s) (i : CsrIn)
    (hext : i.extInt = .low) (ht : s.traps i = false) (hm : i.mret = false)
    (hwen : i.write.wen = true) (hleg : s.wlegal true i.write.waddr = true) :
    WriteObeys s i.write (s.next i) ↔ LawfulData s i.write := by
  rcases writable_mask (writable_cases hleg) with ⟨h1, hk⟩ | ⟨h1, hk⟩ | ⟨h1, hk⟩ | ⟨h1, hk⟩
  · have hcond : LawfulData s i.write ↔ True := by simp only [LawfulData, h1]
    have hval := next_reg_write hext ht hm hwen hleg (by rw [h1]; decide)
    rw [hcond, iff_true, writeObeys_iff_value hext ht hm hwen hleg, hval, h1, hk]
    exact mstatus_lawful hinv _ h1 hk
  · have hcond : LawfulData s i.write ↔ i.write.wdata &&& 0x888 = s.regs .mip &&& 0x888 := by
      simp only [LawfulData, h1]
    rw [hcond]
    exact writeObeys_mip hext ht hm hwen hleg h1 hk
  · have hcond : LawfulData s i.write ↔ s.wmpp i.write.wdata &&&
        ~~~(s.regs (csrLookup i.write.waddr).1).extractLsb' 11 2 = 0 := by
      rw [wmpp_supported hinv]
      rcases h1 with h1 | h1 | h1 <;> simp only [LawfulData, h1]
    rw [hcond]
    refine writeObeys_locked hext ht hm hwen hleg ?_ hk
    rcases h1 with h1 | h1 | h1 <;> rw [h1] <;> decide
  · have hcond : LawfulData s i.write ↔ s.wmpp i.write.wdata = i.write.wdata.extractLsb' 11 2 := by
      rw [wmpp_eq_iff hinv]
      rcases h1 with h1 | h1 | h1 | h1 | h1 | h1 | h1 <;> simp only [LawfulData, h1]
    rw [hcond]
    refine writeObeys_full hext ht hm hwen hleg ?_ hk
    rcases h1 with h1 | h1 | h1 | h1 | h1 | h1 | h1 <;> rw [h1] <;> decide

/-- **When a CSR write obeys its mask.**  In every reachable state and for every legal write, in a
cycle with the interrupt lines low and neither trap nor `mret`, the addressed register obeys the
law and everything else is unchanged exactly when the data is `LawfulData`. -/
theorem writeObeys_iff {s : CSRRegFile} (hr : csrMachine.Reach s) (i : CsrIn)
    (hext : i.extInt = .low) (ht : s.traps i = false) (hm : i.mret = false)
    (hwen : i.write.wen = true) (hleg : s.wlegal true i.write.waddr = true) :
    WriteObeys s i.write (s.next i) ↔ LawfulData s i.write :=
  writeObeys_of_privInv (privInv.reach hr) i hext ht hm hwen hleg

/-- a legal write of `data` to the CSR at `addr`, the rest of the inputs quiet -/
def writeIn (addr : BitVec 12) (data : BitVec 64) : CsrIn :=
  ⟨⟨true, addr, data⟩, .low, .none, false, PC_INIT⟩

/-- after reset, data that names the user mode is written to `mscratch` as it is -/
theorem writeObeys_mscratch :
    WriteObeys .reset (writeIn CSRAddr.mscratch 0x12).write
      (CSRRegFile.reset.next (writeIn CSRAddr.mscratch 0x12)) := by
  refine (writeObeys_iff (.init rfl) (writeIn CSRAddr.mscratch 0x12) rfl (by decide) rfl rfl
    (by decide)).mpr ?_
  show _ = _ ∨ _ = _
  exact .inl (by decide)

/-- After reset a legal write of `0x800` to `mscratch` leaves 0 there: the unsupported mode in bits
12 and 11 is replaced as if `mstatus` were written. -/
theorem write_mscratch_masked :
    ¬ ∀ s, csrMachine.Reach s → ∀ i : CsrIn, i.extInt = .low → s.traps i = false →
      i.mret = false → i.write.wen = true → s.wlegal true i.write.waddr = true →
      csrLookup i.write.waddr ∈ addrTable.map Prod.snd →
      WriteObeys s i.write (s.next i) := by
  intro h
  have hv := (h .reset (.init rfl) (writeIn CSRAddr.mscratch 0x800) rfl (by decide) rfl rfl
    (by decide) (by decide)).value
  exact absurd hv (by decide)

end HduCpu
