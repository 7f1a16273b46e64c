import HduCpu.Cpu.Exception

/-!
# Interrupts

The precise machine (`Arch.precise`) takes an interrupt between two instructions: `mepc` is the
pc to come and nothing else happens.  The core does the same as long as every interrupt finds
Execute in a state where that can be done (`Interruptible`): a valid instruction without side
effect, or an empty slot whose stale pc happens to be the pc to come.

* `Core.slotWord`          the instruction in Execute, if there is one;
* `Arch.precise`, `preciseRun`   the precise machine, one step a cycle;
* `Interruptible`          when an interrupt of the core is precise;
* `Precise`                what a precise interrupt does to the core;
* `arch_next_interrupt`    one interrupt-taking cycle;
* `interrupts_precise`     whole runs, under any inputs.
-/

namespace HduCpu

/-- the word in Execute, if it is valid -/
def Core.slotWord (s : Core) : Option (BitVec 32) :=
  if s.executeStage.info.valid then some s.executeStage.info.inst else none

/-- One cycle of the precise machine: an enabled interrupt is taken before the instruction. -/
def Arch.precise (a : Arch) (ext : ExtInterrupt) (word : Option (BitVec 32))
    (loadData : BitVec 64) : Arch :=
  if a.csr.takesInt ext then a.interrupt ext
  else match word with
    | some w => a.exec busPc ext w loadData
    | none => a.idle ext

/-- An interrupt can be taken precisely in this state. -/
def Interruptible (s : Core) : Prop :=
  if s.executeStage.info.valid then ¬ SideEffect s.csrfile s.executeStage
  else s.executeStage.pc = s.frontPc

/-- What a precise interrupt does, `a` being the state after all instructions before it: `mepc` is
the pc to come, the CSR file enters the trap and nothing else, and the instruction in Execute
neither stores nor writes a register; the younger ones are dropped. -/
structure Precise (s : Core) (i : CoreIn) (a : Arch) : Prop where
  mepc : (s.next i).csrfile.regs .mepc = a.pc
  csr : (s.next i).csrfile = a.csr.next (bubbleIn i.interrupt a.pc)
  strobe : (s.wires i).executeUnit.dataSram.wen = 0
  regs : ∀ j k, (((s.next i).next j).next k).regfile = ((s.next i).next j).regfile
  dropped : (s.next i).executeStage.info.valid = false ∧ (s.next i).decodeStage.valid = false

/-! ## the CSR file in an interrupt -/

namespace CSRRegFile
variable (file : CSRRegFile) {i : CsrIn}

theorem intNO_eq (h : i.ex.interrupt = ExceptionInfo.none.interrupt) :
    file.intNO (i.ex.merge i.extInt) = file.intNO (ExceptionInfo.none.merge i.extInt) := by
  have hp : ∀ v, file.processInterrupt (i.ex.merge i.extInt) v =
      file.processInterrupt (ExceptionInfo.none.merge i.extInt) v := by
    intro v
    simp only [processInterrupt, ExceptionInfo.merge, h]
  simp only [intNO, hp]

/-- cause and target of an interrupt do not depend on the instruction in Execute -/
theorem interrupt_eq (h : i.ex.interrupt = ExceptionInfo.none.interrupt)
    (hint : file.takesInt i.extInt = true) :
    file.trapMcause i = file.trapMcause (bubbleIn i.extInt i.pc) ∧
    file.trapMtval i = file.trapMtval (bubbleIn i.extInt i.pc) ∧
    file.trapTarget i = file.trapTarget (bubbleIn i.extInt i.pc) := by
  have h1 : file.isInt i = true := (file.isInt_eq h).trans hint
  have h2 : file.isInt (bubbleIn i.extInt i.pc) = true := (file.isInt_eq rfl).trans hint
  have hc : file.cauNO i = file.cauNO (bubbleIn i.extInt i.pc) := by
    rw [cauNO, cauNO, h1, h2, if_pos rfl, if_pos rfl, file.intNO_eq h]
    rfl
  exact ⟨by rw [trapMcause, trapMcause, h1, h2, hc], by rw [trapMtval, trapMtval, h1, h2, if_pos rfl, if_pos rfl],
    by rw [trapTarget, trapTarget, h1, h2, hc]⟩

/-- An interrupt without `mret` and without a write to another register is the interrupt of an
empty slot. -/
theorem next_interrupt (h : i.ex.interrupt = ExceptionInfo.none.interrupt)
    (hint : file.takesInt i.extInt = true) (hm : i.mret = false)
    (hw : ∀ r, r ∉ lateRegs → file.writeRegs i.write r = file.regs r) :
    file.next i = file.next (bubbleIn i.extInt i.pc) := by
  have ht : file.traps i = true := by rw [traps, file.isInt_eq h, hint, Bool.true_or]
  have ht' : file.traps (bubbleIn i.extInt i.pc) = true := by rw [traps_bubble, hint]
  obtain ⟨hc, hv, -⟩ := file.interrupt_eq h hint
  rw [file.next_trap ht hm hw, file.next_trap ht' rfl fun _ _ => rfl, trapRegs, trapRegs, hc, hv]
  rfl

theorem next_bubble_mepc {ext : ExtInterrupt} (hint : file.takesInt ext = true) (pc : BitVec 64) :
    (file.next (bubbleIn ext pc)).regs .mepc = pc := by
  have ht : file.traps (bubbleIn ext pc) = true := by rw [traps_bubble, hint]
  rw [file.next_trap ht rfl fun _ _ => rfl]
  simp [trapRegs, bubbleIn]

end CSRRegFile

/-! ## one cycle -/

section
variable {s : Core} (h : Coherent s) (i : CoreIn)
  (hint : s.csrfile.takesInt i.interrupt = true) (hok : Interruptible s)
include h hint

theorem traps_of_takesInt : s.csrfile.traps (s.exe i).csrIn = true := by
  by_cases hv : s.executeStage.info.valid = true
  · rw [CSRRegFile.traps, slot_isInt h hv i, hint, Bool.true_or]
  · exact (executeUnit_traps_bubble _ _ (by simpa using hv)).trans hint

/-- the fetch unit has left its boot states -/
theorem receive_of_takesInt : s.fetch.state = .receive := by
  by_contra hn
  rw [s.csrfile.takesInt_of_mie _ (h.boot hn).2.2] at hint
  exact absurd hint (by decide)

include hok

/-- The CSR file enters the trap at the pc to come. -/
theorem csr_of_interrupt : s.csrfile.next (s.exe i).csrIn =
    s.csrfile.next (bubbleIn i.interrupt s.frontPc) := by
  by_cases hv : s.executeStage.info.valid = true
  · rw [Interruptible, if_pos hv] at hok
    simp only [SideEffect, not_or] at hok
    obtain ⟨-, hcsr, hret⟩ := hok
    have hpc : s.frontPc = (s.exe i).csrIn.pc := by
      rw [Core.frontPc, if_pos hv]
      rfl
    rw [hpc]
    exact s.csrfile.next_interrupt (slot_interrupt h hv i) hint (mret_eq _ _ hret)
      fun r hr => writeRegs_late _ hcsr hr
  · rw [Interruptible, if_neg hv] at hok
    rw [← hok]
    exact executeUnit_next_bubble _ _ (by simpa using hv)

theorem target_of_interrupt : (s.exe i).ftcInfo.target =
    s.csrfile.trapTarget (bubbleIn i.interrupt s.frontPc) := by
  have ht := traps_of_takesInt h i hint
  have hpc : ∀ pc, s.csrfile.trapTarget (bubbleIn i.interrupt pc) =
      s.csrfile.trapTarget (bubbleIn i.interrupt 0) := fun _ => rfl
  have hm : (s.exe i).csrIn.mret = false := by
    by_cases hv : s.executeStage.info.valid = true
    · rw [Interruptible, if_pos hv] at hok
      exact mret_eq _ _ fun hret => hok (.inr (.inr hret))
    · exact (executeUnit_csrIn_bubble _ _ (by simpa using hv)).1
  have hex : (s.exe i).csrIn.ex.interrupt = ExceptionInfo.none.interrupt := by
    by_cases hv : s.executeStage.info.valid = true
    · exact slot_interrupt h hv i
    · have hx : (s.exe i).csrIn.ex = .none :=
        (executeUnit_csrIn_bubble s.csrfile i.interrupt (by simpa using hv)).2.1
      rw [hx]
  rw [target_of_trap ht hm, (s.csrfile.interrupt_eq hex hint).2.2]
  exact (hpc _).trans (hpc _).symm

/-- **An interrupt in an interruptible state is precise.** -/
theorem arch_next_interrupt (rdata : BitVec 64) :
    (s.next i).arch rdata = (s.arch i.dataRdata).interrupt i.interrupt := by
  have ht := traps_of_takesInt h i hint
  have hf := flush_of_trap ht
  have hboot : s.fetch.state ≠ .boot := by rw [receive_of_takesInt h i hint]; decide
  have hpc : (s.next i).frontPc = busPc (s.csrfile.trapTarget (bubbleIn i.interrupt s.frontPc)) := by
    rw [Core.frontPc, Core.next_execute_bubble s i (.inl hf), Core.next_decode_flush s i hf,
      Core.next_fetch_receive i hboot, Core.next_fetch_pc i hboot, ← target_of_interrupt h i hint hok]
    simp [hf]
  have hregs : (s.next i).drained rdata = s.drained i.dataRdata := by
    have hwen : (memoryUnit (s.exe i).memoryStage rdata).info.regWen = false := by
      show (s.exe i).memoryStage.info.regWen = false
      rw [Core.exe, executeUnit_info, ← Core.exe, if_pos (csrFtc_of_trap ht)]
    rw [Core.drained_next]
    funext r
    rw [writeBackUnit_apply, writes, hwen]
    simp
  rw [Core.arch, hpc, hregs, Core.next_csrfile, csr_of_interrupt h i hint hok]
  rfl

theorem precise_of_interruptible : Precise s i (s.arch i.dataRdata) := by
  have ht := traps_of_takesInt h i hint
  have hf := flush_of_trap ht
  have hcsr : (s.next i).csrfile = s.csrfile.next (bubbleIn i.interrupt s.frontPc) :=
    csr_of_interrupt h i hint hok
  refine ⟨?_, hcsr, ?_, fun j k => Core.regfile_of_trap i ht j k,
    Core.next_execute_bubble s i (.inl hf), Core.next_decode_flush s i hf⟩
  · rw [hcsr, s.csrfile.next_bubble_mepc hint]
    rfl
  · by_cases hv : s.executeStage.info.valid = true
    · rw [Interruptible, if_pos hv] at hok
      exact executeUnit_port _ _ fun hst => hok (.inl hst)
    · exact (fu_bubble _ (by simpa using hv)).2.2.2

end

/-! ## whole runs -/

/-- The precise machine in lockstep with the core: each cycle it is given the interrupt lines, the
word in Execute, if any, and the load data of the next cycle. -/
def preciseRun (inp : ℕ → CoreIn) : ℕ → Arch
  | 0 => .reset
  | n + 1 => (preciseRun inp n).precise (inp n).interrupt
      (coreMachine.run inp .reset n).slotWord (inp (n + 1)).dataRdata

/-- a cycle in which the core takes an interrupt -/
def takesIntAt (inp : ℕ → CoreIn) (n : ℕ) : Prop :=
  (coreMachine.run inp .reset n).csrfile.takesInt (inp n).interrupt = true

/-- One cycle of the core is one cycle of the precise machine. -/
theorem arch_next_precise {s : Core} (h : Coherent s) (i : CoreIn)
    (hok : s.csrfile.takesInt i.interrupt = true → Interruptible s) (rdata : BitVec 64) :
    (s.next i).arch rdata = (s.arch i.dataRdata).precise i.interrupt s.slotWord rdata := by
  have hcsr : (s.arch i.dataRdata).csr = s.csrfile := rfl
  unfold Arch.precise
  by_cases hint : s.csrfile.takesInt i.interrupt = true
  · rw [hcsr, if_pos hint]
    exact arch_next_interrupt h i hint (hok hint) rdata
  · rw [hcsr, if_neg hint, Core.slotWord]
    by_cases hv : s.executeStage.info.valid = true
    · rw [if_pos hv]
      exact Core.arch_next_fire i h hv rdata
    · rw [if_neg hv]
      exact Core.arch_next_idle i h (by simpa using hv) (by simpa using hint) rdata

/-- **Interrupts are precise in every run that is interrupted in interruptible states only**, for
all instruction words, load data and patterns of the interrupt lines: the core follows the precise
machine, and each interrupt is precise with respect to the state of that machine. -/
theorem interrupts_precise (inp : ℕ → CoreIn)
    (hok : ∀ n, takesIntAt inp n → Interruptible (coreMachine.run inp .reset n)) (n : ℕ) :
    (coreMachine.run inp .reset n).arch (inp n).dataRdata = preciseRun inp n ∧
      (takesIntAt inp n → Precise (coreMachine.run inp .reset n) (inp n) (preciseRun inp n)) := by
  have hc : ∀ n, Coherent (coreMachine.run inp .reset n) := fun n => coherent.run inp rfl n
  have harch : (coreMachine.run inp .reset n).arch (inp n).dataRdata = preciseRun inp n := by
    induction n with
    | zero => rfl
    | succ n ih =>
      rw [preciseRun, ← ih]
      exact arch_next_precise (hc n) (inp n) (hok n) _
  refine ⟨harch, fun hint => ?_⟩
  rw [← harch]
  exact precise_of_interruptible (hc n) (inp n) hint (hok n hint)

/-! ## inputs that show both sides -/

/-- the words of a list, one a cycle, and the software interrupt line high in cycles 5 and 6 -/
def interruptFeed (prog : List (BitVec 32)) (n : ℕ) : CoreIn :=
  ⟨⟨false, false, n == 5 || n == 6⟩, prog.getD n 0x00000013, 0⟩

theorem takesIntAt_feed {prog : List (BitVec 32)} {n : ℕ} (h : takesIntAt (interruptFeed prog) n) :
    n = 5 ∨ n = 6 := by
  by_contra hn
  have hlow : (interruptFeed prog n).interrupt = .low := by
    have hb : (n == 5 || n == 6) = false := by simpa using hn
    simp only [interruptFeed, hb]
    rfl
  rw [takesIntAt, hlow, takesInt_low] at h
  exact absurd h (by decide)

/-- `csrrwi x0, mie, 8`, `csrrwi x0, mstatus, 8`, `addi x1, x1, 1` -/
def interruptedAdd : List (BitVec 32) := [0x13, 0x13, 0x30445073, 0x30045073, 0x00108093]

/-- the addition in Execute in cycle 6 is interrupted precisely -/
theorem interrupts_precise_add : takesIntAt (interruptFeed interruptedAdd) 6 ∧
    Precise (coreMachine.run (interruptFeed interruptedAdd) .reset 6)
      (interruptFeed interruptedAdd 6) (preciseRun (interruptFeed interruptedAdd) 6) := by
  have h6 : takesIntAt (interruptFeed interruptedAdd) 6 := by
    unfold takesIntAt
    decide +kernel
  refine ⟨h6, (interrupts_precise (interruptFeed interruptedAdd) ?_ 6).2 h6⟩
  intro n hn
  rcases takesIntAt_feed hn with rfl | rfl
  · unfold takesIntAt at hn
    exact absurd hn (by decide +kernel)
  · have hv : (coreMachine.run (interruptFeed interruptedAdd) .reset 6).executeStage.info.valid
        = true := by decide +kernel
    rw [Interruptible, if_pos hv]
    rintro (h | h | h) <;> exact absurd h.1 (by decide +kernel)

/-- `csrrwi x0, mie, 8`, `csrrwi x0, mstatus, 8`, `sw x0, 0(x0)` -/
def interruptedStore : List (BitVec 32) := [0x13, 0x13, 0x30445073, 0x30045073, 0x00002023]

/-- The store in Execute in cycle 6 is interrupted with its strobe raised. -/
theorem interrupted_store_not_precise : ¬ ∀ (inp : ℕ → CoreIn) (n : ℕ), takesIntAt inp n →
    Precise (coreMachine.run inp .reset n) (inp n) (preciseRun inp n) := by
  intro h
  have hp := h (interruptFeed interruptedStore) 6 (by unfold takesIntAt; decide +kernel)
  exact absurd hp.strobe (by decide +kernel)

end HduCpu
