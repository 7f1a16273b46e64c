import HduCpu.Cpu.Trap

/-!
# Trap entry and return

Trap entry saves the mode and MIE in `mstatus`, `mret` takes them out again.  When the CSR file does
nothing else in between, the two together give back the state before the trap.

* `TrapCycle`, `IdleCycle`, `MretCycle`   the inputs of the three kinds of cycles;
* `next_idle`, `run_idle`  idle cycles change nothing;
* `Restored`               what is the same after the return, and what is not;
* `trap_mret_transparent`  a trap, any number of idle cycles and `mret`.
-/

namespace HduCpu

/-- a cycle in which the CSR file enters a trap for an exception, with nothing else requested -/
structure TrapCycle (f : CSRRegFile) (i : CsrIn) : Prop where
  low : i.extInt = .low
  exc : excNO i.ex ≠ noException
  int : f.isInt i = false
  write : i.write.wen = false
  mret : i.mret = false

/-- a cycle in which nothing is requested from the CSR file -/
structure IdleCycle (f : CSRRegFile) (i : CsrIn) : Prop where
  low : i.extInt = .low
  traps : f.traps i = false
  write : i.write.wen = false
  mret : i.mret = false

/-- a cycle with `mret` and nothing else -/
structure MretCycle (f : CSRRegFile) (i : CsrIn) : Prop where
  low : i.extInt = .low
  traps : f.traps i = false
  write : i.write.wen = false
  mret : i.mret = true

/-- `f'` is `f` again, but for what a trap at `pc` and the return leave behind. -/
structure Restored (f f' : CSRRegFile) (pc : BitVec 64) : Prop where
  mode : f'.regMode = f.regMode
  mie : (f'.regs .mstatus).getLsbD 3 = (f.regs .mstatus).getLsbD 3
  mpie : (f'.regs .mstatus).getLsbD 7 = true
  mpp : f'.mpp = Privilege.u
  mprv_m : f.regMode = Privilege.m →
    (f'.regs .mstatus).getLsbD 17 = (f.regs .mstatus).getLsbD 17
  mprv_u : f.regMode = Privilege.u → (f'.regs .mstatus).getLsbD 17 = false
  mstatus : ∀ k, k ∉ [3, 7, 11, 12, 17] →
    (f'.regs .mstatus).getLsbD k = (f.regs .mstatus).getLsbD k
  mepc : f'.regs .mepc = pc
  frame : ∀ r, r ∉ [CReg.mstatus, .mepc, .mcause, .mtval] → f'.regs r = f.regs r

namespace CSRRegFile
variable {f : CSRRegFile} {i : CsrIn}

theorem writeRegs_off (h : i.write.wen = false) : f.writeRegs i.write = f.regs := by
  rw [writeRegs, h]
  rfl

/-- Without a trap only `mret` and the write port change the registers. -/
theorem next_regs_untrapped (hlow : i.extInt = .low) (ht : f.traps i = false)
    (hw : i.write.wen = false) : (f.next i).regs =
      if i.mret then Function.update f.regs .mstatus f.mretMstatus else f.regs := by
  have hmip : Function.update f.regs .mip (f.mipNext i.extInt) = f.regs := by
    rw [hlow, mipNext_low, Function.update_eq_self]
  change (if i.mret then Function.update (if f.traps i then
      f.trapRegs i (Function.update (f.writeRegs i.write) .mip (f.mipNext i.extInt))
      else Function.update (f.writeRegs i.write) .mip (f.mipNext i.extInt)) .mstatus f.mretMstatus
    else if f.traps i then
      f.trapRegs i (Function.update (f.writeRegs i.write) .mip (f.mipNext i.extInt))
      else Function.update (f.writeRegs i.write) .mip (f.mipNext i.extInt)) = _
  rw [ht, if_neg Bool.false_ne_true, writeRegs_off hw, hmip]

theorem next_idle (h : IdleCycle f i) : f.next i = f := by
  have hm : (f.next i).regMode = f.regMode := by
    rw [next_regMode, h.mret, h.traps]
    rfl
  have hr : (f.next i).regs = f.regs := by
    rw [next_regs_untrapped h.low h.traps h.write, h.mret]
    rfl
  cases hn : f.next i
  cases hf : f
  rw [hn, hf] at hm hr
  exact congrArg₂ CSRRegFile.mk hm hr

/-- `mret` on a file that entered a trap from `f`. -/
theorem restored_mret {g : CSRRegFile} {cause tval pc : BitVec 64}
    (hg : TrapEntered f g cause tval pc) (h : MretCycle g i) : Restored f (g.next i) pc := by
  have hregs : (g.next i).regs = Function.update g.regs .mstatus g.mretMstatus := by
    rw [next_regs_untrapped h.low h.traps h.write, h.mret]
    rfl
  have hmst : (g.next i).regs .mstatus = g.mretMstatus := by
    rw [hregs, Function.update_self]
  have hother : ∀ r, r ≠ .mstatus → (g.next i).regs r = g.regs r := by
    intro r hr
    rw [hregs, Function.update_of_ne hr]
  obtain ⟨h3, h7, h17, hrest⟩ := g.mretMstatus_bits
  have h17' : g.mretMstatus.getLsbD 17 =
      (f.regMode == Privilege.m && (f.regs .mstatus).getLsbD 17) := by
    rw [h17, hg.mpp, hg.mstatus 17 (by decide)]
  refine ⟨?_, ?_, ?_, ?_, fun hm => ?_, fun hu => ?_, fun k hk => ?_, ?_, fun r hr => ?_⟩
  · rw [next_regMode, h.mret, if_pos rfl, hg.mpp]
  · rw [hmst, h3, hg.mpie]
  · rw [hmst, h7]
  · rw [mpp, hmst, mpp_mretMstatus]
  · rw [hmst, h17', hm]
    rfl
  · rw [hmst, h17', hu]
    rfl
  · have hk' : k ≠ 3 ∧ k ≠ 7 ∧ k ≠ 11 ∧ k ≠ 12 ∧ k ≠ 17 := by simpa using hk
    by_cases h64 : k < 64
    · rw [hmst, hrest k hk h64, hg.mstatus k (by simp [hk'])]
    · rw [BitVec.getLsbD_of_ge _ k (by omega), BitVec.getLsbD_of_ge _ k (by omega)]
  · rw [hother _ (by decide), hg.mepc]
  · have hr' : r ≠ .mstatus := fun he => hr (by simp [he])
    rw [hother r hr', hg.frame r hr]

end CSRRegFile

/-- A run of idle cycles stays where it is. -/
theorem run_idle (inp : ℕ → CsrIn) (f : CSRRegFile) {n : ℕ}
    (h : ∀ k < n, IdleCycle (csrMachine.run inp f k) (inp k)) : csrMachine.run inp f n = f := by
  induction n with
  | zero => rfl
  | succ n ih =>
    have hn := ih fun k hk => h k (by omega)
    have hi := h n (by omega)
    rw [Clocked.run_succ]
    rw [hn] at hi ⊢
    exact CSRRegFile.next_idle hi

/-- **A trap followed by `mret` is transparent.**  From any reachable state, an exception, `n` idle
cycles and then `mret` restore the mode and MIE and continue at the instruction that trapped. -/
theorem trap_mret_transparent {f : CSRRegFile} (hf : csrMachine.Reach f) {i : CsrIn}
    (hi : TrapCycle f i) (inp : ℕ → CsrIn) (n : ℕ)
    (hidle : ∀ k < n, IdleCycle (csrMachine.run inp (f.next i) k) (inp k))
    (hret : MretCycle (csrMachine.run inp (f.next i) n) (inp n)) :
    (csrMachine.run inp (f.next i) n).ftcInfo (inp n) = ⟨true, i.pc⟩ ∧
      Restored f (csrMachine.run inp (f.next i) (n + 1)) i.pc ∧
      (f.regMode = Privilege.m ∨ f.regMode = Privilege.u) := by
  have hg : TrapEntered f (f.next i) _ _ i.pc := f.trapEntered_next hi.low hi.int hi.exc hi.mret
    fun r _ => by rw [CSRRegFile.writeRegs_off hi.write]
  rw [Clocked.run_succ]
  rw [run_idle inp (f.next i) hidle] at hret ⊢
  refine ⟨?_, CSRRegFile.restored_mret hg hret, (privInv.reach hf).mode.symm⟩
  rw [CSRRegFile.ftcInfo, hret.mret, ← hg.mepc]
  rfl

/-- an illegal instruction at the first pc, in machine mode -/
def illegalIn : CsrIn :=
  ⟨⟨false, 0, 0⟩, .low, ExceptionInfo.none.raise illegalInst 0xffffffff, false, PC_INIT⟩

/-- one idle cycle, then `mret` in every cycle -/
def idleThenMret (n : ℕ) : CsrIn := ⟨⟨false, 0, 0⟩, .low, .none, n != 0, PC_INIT + 4⟩

theorem trap_mret_transparent_illegal :
    (csrMachine.run idleThenMret (CSRRegFile.reset.next illegalIn) 1).ftcInfo (idleThenMret 1) =
      ⟨true, PC_INIT⟩ ∧
    Restored .reset (csrMachine.run idleThenMret (CSRRegFile.reset.next illegalIn) 2) PC_INIT := by
  have hi : TrapCycle .reset illegalIn := ⟨rfl, by decide, by decide, rfl, rfl⟩
  have hidle : ∀ k < 1, IdleCycle (csrMachine.run idleThenMret (CSRRegFile.reset.next illegalIn) k)
      (idleThenMret k) := by
    intro k hk
    obtain rfl : k = 0 := by omega
    exact ⟨rfl, by decide, rfl, rfl⟩
  have h := trap_mret_transparent (.init rfl) hi idleThenMret 1 hidle
    ⟨rfl, by decide, rfl, rfl⟩
  exact ⟨h.1, h.2.1⟩

end HduCpu
