import HduCpu.Cpu.Interrupt

/-!
# Pending and enabled interrupts

An interrupt should be taken when it is pending in `mip` and enabled.  `processInterrupt` asks in
addition for its line to be high in the same cycle, while `mip` keeps every bit that was ever set:
an interrupt whose line has dropped stays pending and is never taken.

* `CSRRegFile.pending`, `firstPending`   pending and enabled, the most urgent one;
* `ExtInterrupt.line`      the line of an interrupt;
* `intNO_eq`               what the CSR file takes: the most urgent one whose line is high;
* `IntEntered`, `TakesPending`   a cycle that takes what is pending, and how it is entered;
* `interrupt_taken_iff`    a cycle is right exactly when the line of the most urgent one is high.
-/

namespace HduCpu

/-- the interrupts of machine mode, the most urgent first -/
def machineInterrupts : List (Fin 12) :=
  [macExternalInterrupt, macSoftwareInterrupt, macTimerInterrupt]

/-- is the line of the interrupt high; there is none for the supervisor interrupts -/
def ExtInterrupt.line (ext : ExtInterrupt) (id : Fin 12) : Bool :=
  (ExceptionInfo.none.merge ext).interrupt id

theorem line_supervisor (ext : ExtInterrupt) {id : Fin 12}
    (h : id ∈ [svExternalInterrupt, svSoftwareInterrupt, svTimerInterrupt]) : ext.line id = false := by
  obtain ⟨mei, mti, msi⟩ := ext
  revert id mei mti msi
  decide

namespace CSRRegFile
section
variable (f : CSRRegFile)

/-- pending in `mip`, enabled in `mie`, and enabled in the current mode -/
def pending (id : Fin 12) : Bool :=
  (f.regs .mip).getLsbD id && (f.regs .mie).getLsbD id &&
    (decide (f.regMode < Privilege.m) || (f.regs .mstatus).getLsbD 3)

/-- the most urgent interrupt that is pending and enabled -/
def firstPending : Option (Fin 12) := machineInterrupts.find? f.pending

theorem exists_firstPending : (∃ id, f.firstPending = some id) ↔
    ∃ id ∈ machineInterrupts, f.pending id = true := by
  rw [← Option.isSome_iff_exists]
  exact List.find?_isSome

theorem processInterrupt_eq (ext : ExtInterrupt) (id : Fin 12) :
    f.processInterrupt (ExceptionInfo.none.merge ext) id = (ext.line id && f.pending id) := by
  have hmode : ∀ (m : BitVec 2) (b : Bool), ((m == Privilege.m && b) || decide (m < Privilege.m)) =
      (decide (m < Privilege.m) || b) := by decide
  rw [processInterrupt, hmode, pending, ExtInterrupt.line, Bool.and_assoc, Bool.and_assoc,
    Bool.and_comm (_ || _), Bool.and_assoc]

/-- **What the CSR file takes**: the most urgent interrupt that is pending and enabled and has its
line high. -/
theorem intNO_eq_find (ext : ExtInterrupt) : f.intNO (ExceptionInfo.none.merge ext) =
    (machineInterrupts.find? fun id => ext.line id && f.pending id).getD noInterrupt := by
  have hp : f.processInterrupt (ExceptionInfo.none.merge ext) =
      fun id => ext.line id && f.pending id := funext (f.processInterrupt_eq ext)
  have hsplit : interruptionity = machineInterrupts ++
      [svExternalInterrupt, svSoftwareInterrupt, svTimerInterrupt] := rfl
  have hnone : ([svExternalInterrupt, svSoftwareInterrupt, svTimerInterrupt].find? fun id =>
      ext.line id && f.pending id) = none := by
    refine List.find?_eq_none.mpr fun id hid => ?_
    rw [line_supervisor ext hid]
    exact Bool.false_ne_true
  rw [intNO, muxCase_find, hp, hsplit, List.find?_append, hnone, Option.or_none]

/-- The interrupt that is taken is pending, enabled and has its line high. -/
theorem intNO_of_takesInt {ext : ExtInterrupt} (h : f.takesInt ext = true) :
    f.intNO (ExceptionInfo.none.merge ext) ∈ machineInterrupts ∧
      ext.line (f.intNO (ExceptionInfo.none.merge ext)) = true ∧
      f.pending (f.intNO (ExceptionInfo.none.merge ext)) = true := by
  have hno : f.intNO (ExceptionInfo.none.merge ext) ≠ noInterrupt := bne_iff_ne.mp h
  rw [intNO_eq_find] at hno ⊢
  cases hfind : machineInterrupts.find? fun id => ext.line id && f.pending id with
  | none =>
    rw [hfind] at hno
    exact absurd rfl hno
  | some id =>
    have hboth := Bool.and_eq_true_iff.mp (List.find?_eq_some_iff_append.mp hfind).1
    exact ⟨List.mem_of_find?_eq_some hfind, hboth.1, hboth.2⟩

/-- **Taking what is pending**: with its line high, the most urgent interrupt is the one taken. -/
theorem intNO_of_line {ext : ExtInterrupt} {id : Fin 12} (h : f.firstPending = some id)
    (hl : ext.line id = true) : f.intNO (ExceptionInfo.none.merge ext) = id := by
  rw [intNO_eq_find, find?_and h hl]
  rfl

theorem takesInt_of_line {ext : ExtInterrupt} {id : Fin 12} (h : f.firstPending = some id)
    (hl : ext.line id = true) : f.takesInt ext = true := by
  have hne : ∀ id ∈ machineInterrupts, id ≠ noInterrupt := by decide
  have hno := hne id (List.mem_of_find?_eq_some h)
  rw [← f.intNO_of_line h hl] at hno
  exact bne_iff_ne.mpr hno

end
end CSRRegFile

/-! ## one cycle -/

/-- An interrupt trap with this cause has been entered. -/
structure IntEntered (s : Core) (i : CoreIn) (id : Fin 12) : Prop where
  mode : (s.next i).csrfile.regMode = Privilege.m
  mcause : (s.next i).csrfile.regs .mcause = (1#64 <<< 63) ||| BitVec.ofNat 64 id
  mtval : (s.next i).csrfile.regs .mtval = 0
  redirect : (s.wires i).executeUnit.ftcInfo = ⟨true, s.csrfile.mtvecBase +
    if (s.csrfile.regs .mtvec).getLsbD 0 then BitVec.ofNat 64 id * 4 else 0⟩

/-- An interrupt is taken exactly when one is pending and enabled, and then the most urgent. -/
structure TakesPending (s : Core) (i : CoreIn) : Prop where
  taken : s.csrfile.isInt (s.wires i).executeUnit.csrIn = true ↔
    ∃ id ∈ machineInterrupts, s.csrfile.pending id = true
  entered : s.csrfile.isInt (s.wires i).executeUnit.csrIn = true →
    ∃ id, s.csrfile.firstPending = some id ∧ IntEntered s i id

section
variable {s : Core} (h : Coherent s) (i : CoreIn) (hv : s.executeStage.info.valid = true)
  (hm : ¬ Returning s.executeStage) (hint : s.csrfile.takesInt i.interrupt = true)
include h hv hint

theorem cauNO_of_takesInt : s.csrfile.cauNO (s.exe i).csrIn =
    BitVec.ofNat 64 (s.csrfile.intNO (ExceptionInfo.none.merge i.interrupt)) := by
  have hi : s.csrfile.isInt (s.exe i).csrIn = true := (slot_isInt h hv i).trans hint
  rw [CSRRegFile.cauNO, hi, if_pos rfl, s.csrfile.intNO_eq (slot_interrupt h hv i)]
  rfl

include hm

/-- **Interrupt entry**, without `mret` in Execute. -/
theorem intEntered_of_takesInt :
    IntEntered s i (s.csrfile.intNO (ExceptionInfo.none.merge i.interrupt)) := by
  have hi : s.csrfile.isInt (s.exe i).csrIn = true := (slot_isInt h hv i).trans hint
  have ht := traps_of_takesInt h i hint
  have hret : (s.exe i).csrIn.mret = false := mret_eq _ _ hm
  have hcau := cauNO_of_takesInt h i hv hint
  have hnext : (s.next i).csrfile = s.csrfile.next (s.exe i).csrIn := s.next_csrfile i
  obtain ⟨hmcause, hmtval⟩ := s.csrfile.next_regs_cause hret ht
  refine ⟨?_, ?_, ?_, ?_⟩
  · rw [hnext]
    simp [CSRRegFile.next, hret, ht]
  · rw [hnext, hmcause, CSRRegFile.trapMcause, hi, hcau]
    rfl
  · rw [hnext, hmtval, CSRRegFile.trapMtval, hi]
    rfl
  · have hflush : (s.exe i).ftcInfo.flush = true := flush_of_trap ht
    have htarget := target_of_trap ht hret
    have hfour : ∀ id : Fin 12, BitVec.ofNat 64 id <<< 2 = BitVec.ofNat 64 id * 4 := by decide
    rw [CSRRegFile.trapTarget, hi, hcau, Bool.and_true, hfour] at htarget
    calc (s.exe i).ftcInfo = ⟨(s.exe i).ftcInfo.flush, (s.exe i).ftcInfo.target⟩ := rfl
      _ = _ := by rw [hflush, htarget]

end

/-- **An interrupt is taken when it is pending and enabled** exactly in the cycles in which none is,
or the line of the most urgent one is high. -/
theorem interrupt_taken_iff {s : Core} (hs : coreMachine.Reach s) (i : CoreIn)
    (hv : s.executeStage.info.valid = true) (hm : ¬ Returning s.executeStage) :
    TakesPending s i ↔ ∀ id, s.csrfile.firstPending = some id → i.interrupt.line id = true := by
  have h := coherent.reach hs
  have hi : s.csrfile.isInt (s.wires i).executeUnit.csrIn = s.csrfile.takesInt i.interrupt :=
    slot_isInt h hv i
  constructor
  · intro ht id hfirst
    have htaken := ht.taken.mpr (s.csrfile.exists_firstPending.mp ⟨id, hfirst⟩)
    have hint : s.csrfile.takesInt i.interrupt = true := hi.symm.trans htaken
    obtain ⟨id', hfirst', hent⟩ := ht.entered htaken
    obtain rfl : id = id' := Option.some.inj (hfirst.symm.trans hfirst')
    -- the recorded cause tells which interrupt was taken, and that one has its line high
    have hcause : ∀ a b : Fin 12, (1#64 <<< 63) ||| BitVec.ofNat 64 a =
        (1#64 <<< 63) ||| BitVec.ofNat 64 b → a = b := by decide
    have hno := hcause _ _ (hent.mcause.symm.trans (intEntered_of_takesInt h i hv hm hint).mcause)
    rw [hno]
    exact (s.csrfile.intNO_of_takesInt hint).2.1
  · intro hline
    have htaken : s.csrfile.takesInt i.interrupt = true ↔
        ∃ id ∈ machineInterrupts, s.csrfile.pending id = true := by
      constructor
      · intro hint
        obtain ⟨hmem, -, hpend⟩ := s.csrfile.intNO_of_takesInt hint
        exact ⟨_, hmem, hpend⟩
      · intro hpend
        obtain ⟨id, hfirst⟩ := s.csrfile.exists_firstPending.mpr hpend
        exact s.csrfile.takesInt_of_line hfirst (hline id hfirst)
    rw [← hi] at htaken
    refine ⟨htaken, fun ht => ?_⟩
    obtain ⟨id, hfirst⟩ := s.csrfile.exists_firstPending.mpr (htaken.mp ht)
    have hent := intEntered_of_takesInt h i hv hm (hi.symm.trans ht)
    rw [s.csrfile.intNO_of_line hfirst (hline id hfirst)] at hent
    exact ⟨id, hfirst, hent⟩

/-- the software interrupt is pending, its line high, when the addition is in Execute -/
theorem interrupt_taken_add : TakesPending
    (coreMachine.run (interruptFeed interruptedAdd) .reset 6) (interruptFeed interruptedAdd 6) := by
  refine (interrupt_taken_iff (coreMachine.reach_run _ rfl 6) _ (by decide +kernel) ?_).mpr ?_
  · rintro ⟨hf, -⟩
    exact absurd hf (by decide +kernel)
  · intro id hid
    have hfirst : (coreMachine.run (interruptFeed interruptedAdd) .reset 6).csrfile.firstPending =
        some macSoftwareInterrupt := by decide +kernel
    obtain rfl := Option.some.inj (hfirst.symm.trans hid)
    decide

/-- the words of a list, one a cycle, and the software interrupt line high in cycle 1 -/
def pulseFeed (prog : List (BitVec 32)) (n : ℕ) : CoreIn :=
  ⟨⟨false, false, n == 1⟩, prog.getD n 0x00000013, 0⟩

/-- The pulse sets the bit in `mip`; once it is enabled, no interrupt is taken. -/
theorem pulse_not_taken : ¬ ∀ s, coreMachine.Reach s → ∀ i : CoreIn,
    s.executeStage.info.valid = true → ¬ Returning s.executeStage → TakesPending s i := by
  intro h
  have ht := (h (coreMachine.run (pulseFeed interruptedAdd) .reset 6) (coreMachine.reach_run _ rfl 6)
    (pulseFeed interruptedAdd 6) (by decide +kernel) (fun hr => absurd hr.1 (by decide +kernel))).taken
  have hpend : ∃ id ∈ machineInterrupts, (coreMachine.run (pulseFeed interruptedAdd)
      .reset 6).csrfile.pending id = true := by decide +kernel
  exact absurd (ht.mpr hpend) (by decide +kernel)

end HduCpu
