import HduCpu.Cpu.Sequential

/-!
# What the stages do to an instruction

Facts about the units that hold for any contents of the pipeline registers.

* `fu_bubble`, `executeUnit_next_bubble`, `executeUnit_flush_bubble`   an empty slot has no effect
                           of its own: the CSR file sees only the interrupt lines and the pc;
* `CSRRegFile.takesInt`    whether an interrupt is taken, which no instruction influences;
* `src1Data_drained`, `src2Data_drained`   forwarding from the three later stages reads what the
                           registers hold once these stages have written back;
* `decoder_load`           what `DecodeCtrl` uses to recognise a load.
-/

namespace HduCpu

/-! ## an empty slot -/

/-- An instruction that is not valid has no effect in Execute. -/
theorem fu_bubble (file : CSRRegFile) {data : IdExeData} (h : data.info.valid = false) :
    (fu file data).write.wen = false ∧ (fu file data).mret = false ∧
      (fu file data).ftcInfo.flush = false ∧ (fu file data).dataSram.wen = 0 := by
  unfold fu
  cases data.info.fusel <;> simp [FuOut.quiet, lsu, bru, bruTarget, csr, csrWen, h]

theorem executeUnit_info (file : CSRRegFile) (ext : ExtInterrupt) (data : IdExeData) :
    (executeUnit file ext data).memoryStage.info =
      if (executeUnit file ext data).csrFtc.flush then { data.info with regWen := false }
      else data.info := rfl

theorem executeUnit_valid (file : CSRRegFile) (ext : ExtInterrupt) (data : IdExeData) :
    (executeUnit file ext data).memoryStage.info.valid = data.info.valid := by
  rw [executeUnit_info]
  split <;> rfl

/-- Without a write, a return and an exception the CSR file sees only the lines and the pc. -/
theorem CSRRegFile.next_bubble (file : CSRRegFile) {i : CsrIn} (hw : i.write.wen = false)
    (hm : i.mret = false) (hex : i.ex = .none) : file.next i = file.next (bubbleIn i.extInt i.pc) := by
  have hregs : file.writeRegs i.write = file.writeRegs ⟨false, 0, 0⟩ := by
    simp [writeRegs, hw]
  obtain ⟨w, ext, ex, mret, pc⟩ := i
  obtain rfl : ex = .none := hex
  obtain rfl : mret = false := hm
  unfold next
  congr 1
  simp only [bubbleIn] at hregs ⊢
  rw [hregs]
  rfl

/-- an interrupt is taken, given that the instruction in Execute carries none -/
def CSRRegFile.takesInt (file : CSRRegFile) (ext : ExtInterrupt) : Bool :=
  file.isInt (bubbleIn ext 0)

theorem CSRRegFile.isInt_eq (file : CSRRegFile) {i : CsrIn}
    (h : i.ex.interrupt = ExceptionInfo.none.interrupt) :
    file.isInt i = file.takesInt i.extInt := by
  have hp : ∀ v, file.processInterrupt (i.ex.merge i.extInt) v =
      file.processInterrupt (ExceptionInfo.none.merge i.extInt) v := by
    intro v
    simp only [processInterrupt, ExceptionInfo.merge, h]
  simp only [takesInt, isInt, intNO, bubbleIn, hp]

/-- no interrupt is taken while none is enabled -/
theorem CSRRegFile.takesInt_of_mie (file : CSRRegFile) (ext : ExtInterrupt)
    (h : file.regs .mie = 0) : file.takesInt ext = false := by
  have hno : file.intNO (ExceptionInfo.none.merge ext) = noInterrupt := by
    refine muxCase_eq_default fun c hc => ?_
    obtain ⟨v, -, rfl⟩ := List.mem_map.mp hc
    simp [processInterrupt, h]
  simp [takesInt, isInt, bubbleIn, hno]

/-- no interrupt is taken while the lines are low -/
theorem takesInt_low (file : CSRRegFile) : file.takesInt .low = false := by
  have hno : file.intNO (ExceptionInfo.none.merge .low) = noInterrupt := by
    refine muxCase_eq_default fun c hc => ?_
    obtain ⟨v, -, rfl⟩ := List.mem_map.mp hc
    rfl
  simp [CSRRegFile.takesInt, CSRRegFile.isInt, bubbleIn, hno]

theorem excNO_none : excNO .none = noException := by decide

theorem CSRRegFile.traps_bubble (file : CSRRegFile) (ext : ExtInterrupt) (pc : BitVec 64) :
    file.traps (bubbleIn ext pc) = file.takesInt ext := by
  have h : file.isInt (bubbleIn ext pc) = file.takesInt ext := file.isInt_eq rfl
  have hex : excNO (bubbleIn ext pc).ex = noException := excNO_none
  simp [traps, h, hex]

/-- An empty slot without an interrupt only lets the interrupt lines into `mip`. -/
theorem CSRRegFile.next_bubble_quiet (file : CSRRegFile) {ext : ExtInterrupt} (pc : BitVec 64)
    (h : file.takesInt ext = false) : file.next (bubbleIn ext pc) =
      { file with regs := Function.update file.regs .mip (file.mipNext ext) } := by
  have ht : file.traps (bubbleIn ext pc) = false := by rw [traps_bubble, h]
  have hm : (bubbleIn ext pc).mret = false := rfl
  have hw : file.writeRegs (bubbleIn ext pc).write = file.regs := rfl
  simp only [next, ht, hm, hw, Bool.false_eq_true, if_false]
  rfl

theorem CSRRegFile.next_bubble_mie (file : CSRRegFile) (ext : ExtInterrupt) (pc : BitVec 64) :
    (file.next (bubbleIn ext pc)).regs .mie = file.regs .mie := by
  have hm : (bubbleIn ext pc).mret = false := rfl
  have hw : file.writeRegs (bubbleIn ext pc).write = file.regs := rfl
  simp only [next, trapRegs, hm, hw]
  by_cases ht : file.traps (bubbleIn ext pc) = true <;> simp [ht]

section
variable (file : CSRRegFile) (ext : ExtInterrupt) {data : IdExeData}
  (h : data.info.valid = false)
include h

theorem executeUnit_csrIn_bubble : (executeUnit file ext data).csrIn.mret = false ∧
    (executeUnit file ext data).csrIn.ex = .none ∧
    (executeUnit file ext data).csrIn.write.wen = false := by
  obtain ⟨hw, hm, -, -⟩ := fu_bubble file h
  refine ⟨hm, ?_, hw⟩
  show (if data.info.valid then (fu file data).newEx else .none) = .none
  rw [h]
  rfl

theorem executeUnit_next_bubble :
    file.next (executeUnit file ext data).csrIn = file.next (bubbleIn ext data.pc) := by
  obtain ⟨hm, hex, hw⟩ := executeUnit_csrIn_bubble file ext h
  exact file.next_bubble hw hm hex

theorem executeUnit_traps_bubble :
    file.traps (executeUnit file ext data).csrIn = file.takesInt ext := by
  obtain ⟨-, hex, -⟩ := executeUnit_csrIn_bubble file ext h
  have hi : file.isInt (executeUnit file ext data).csrIn = file.takesInt ext :=
    file.isInt_eq (by rw [hex])
  simp [CSRRegFile.traps, hi, hex, excNO_none]

/-- An empty slot flushes only when an interrupt is taken. -/
theorem executeUnit_flush_bubble :
    (executeUnit file ext data).ftcInfo.flush = file.takesInt ext := by
  obtain ⟨hm, -, -⟩ := executeUnit_csrIn_bubble file ext h
  have ht := executeUnit_traps_bubble file ext h
  have hc : (executeUnit file ext data).csrFtc.flush = file.takesInt ext := by
    have hf : (executeUnit file ext data).csrFtc.flush = ((executeUnit file ext data).csrIn.mret ||
        file.traps (executeUnit file ext data).csrIn) := rfl
    rw [hf, hm, ht, Bool.false_or]
  show (if (executeUnit file ext data).csrFtc.flush then (executeUnit file ext data).csrFtc
    else (fu file data).ftcInfo).flush = _
  rw [apply_ite FetchInfo.flush, hc, (fu_bubble file h).2.2.1]
  cases file.takesInt ext <;> rfl

end

/-! ## forwarding -/

/-- does the instruction write general register `r` -/
def writes (w : Info) (r : BitVec 5) : Bool :=
  w.valid && w.regWen && w.regWaddr != 0 && r == w.regWaddr

theorem conflict1_eq (r w : Info) : conflict1 r w = (r.src1Ren && writes w r.src1Raddr) := by
  simp only [conflict1, writes]
  ac_rfl

theorem conflict2_eq (r w : Info) : conflict2 r w = (r.src2Ren && writes w r.src2Raddr) := by
  simp only [conflict2, writes]
  ac_rfl

theorem writeBackUnit_apply (regs : ARegFile) (d : MemWbData) (r : BitVec 5) :
    writeBackUnit regs d r = if writes d.info r then d.rdWdata else regs r := by
  unfold writeBackUnit ARegFile.write writes
  by_cases h : (d.info.valid && d.info.regWen && d.info.regWaddr != 0) = true
  · rw [if_pos h, h, Bool.true_and]
    by_cases hr : r = d.info.regWaddr
    · rw [hr, Function.update_self, if_pos (beq_self_eq_true _)]
    · rw [Function.update_of_ne hr, if_neg (by simpa using hr)]
  · rw [if_neg h, if_neg]
    intro h'
    exact h (Bool.and_eq_true_iff.mp h').1

theorem writeBackUnit_bubble (regs : ARegFile) {d : MemWbData} (h : d.info.valid = false) :
    writeBackUnit regs d = regs := by
  funext r
  rw [writeBackUnit_apply, writes, h]
  rfl

section
variable {info : Info} {pc : BitVec 64} {regs : ARegFile} {e : Bypass} {l m w : MemWbData}

/-- The first operand, forwarded from the three later stages, is the one that the registers hold
after these have written back; `l` is what the instruction in Execute will write. -/
theorem src1Data_drained (hi : l.info = e.info)
    (hd : info.src1Ren = true → writes e.info info.src1Raddr = true → l.rdWdata = e.wdata) :
    src1Data info pc regs e ⟨m.info, m.rdWdata⟩ ⟨w.info, w.rdWdata⟩ =
      src1Data info pc (writeBackUnit (writeBackUnit (writeBackUnit regs w) m) l)
        .none .none .none := by
  have hn : conflict1 info Bypass.none.info = false := by simp [conflict1, Bypass.none, Info.zero]
  simp only [src1Data, muxCase_cons, muxCase_nil, hn, conflict1_eq, writeBackUnit_apply, hi]
  by_cases hc : info.isCsri = true
  · simp [hc]
  by_cases hr : info.src1Ren = true
  · by_cases he : writes e.info info.src1Raddr = true
    · simp [hc, hr, he, hd hr he]
    · simp [hc, hr, he]
  · simp [hc, hr]

theorem src2Data_drained (hi : l.info = e.info)
    (hd : info.src2Ren = true → writes e.info info.src2Raddr = true → l.rdWdata = e.wdata) :
    src2Data info regs e ⟨m.info, m.rdWdata⟩ ⟨w.info, w.rdWdata⟩ =
      src2Data info (writeBackUnit (writeBackUnit (writeBackUnit regs w) m) l)
        .none .none .none := by
  have hn : conflict2 info Bypass.none.info = false := by simp [conflict2, Bypass.none, Info.zero]
  simp only [src2Data, muxCase_cons, muxCase_nil, hn, conflict2_eq, writeBackUnit_apply, hi]
  by_cases hr : info.src2Ren = true
  · by_cases he : writes e.info info.src2Raddr = true
    · simp [hr, he, hd hr he]
    · simp [hr, he]
  · simp [hr]

end

/-! ## loads -/

/-- In the decode table the loads are the LSU operations without a second register operand. -/
theorem decoder_load (inst : BitVec 32) (hf : (decoder inst).fusel = .lsu)
    (ho : LSUOpType.isLoad (decoder inst).op = true) : (decoder inst).src2Ren = false := by
  have key : ∀ t ∈ decodeDefault :: decodeTable.map Prod.snd, t.2.1 = FuType.lsu →
      LSUOpType.isLoad t.2.2 = true →
      (t.1 != InstrType.I && t.1 != .U && t.1 != .J) = false := by decide
  exact key _ (decodeOf_mem inst) hf ho

/-- The load data matters only to a valid load. -/
theorem memoryUnit_congr {data : ExeMemData} (h : data.info.fusel ≠ .lsu) (r r' : BitVec 64) :
    memoryUnit data r = memoryUnit data r' := by
  simp [memoryUnit, h]

theorem memoryUnit_store {data : ExeMemData}
    (h : ¬ (data.info.fusel = .lsu ∧ LSUOpType.isLoad data.info.op = true)) (r : BitVec 64) :
    (memoryUnit data r).rdWdata = data.rdWdata := by
  have hn : (data.info.valid && data.info.fusel == .lsu && LSUOpType.isLoad data.info.op) = false := by
    simpa [and_assoc] using fun _ hf => by simpa using fun ho => h ⟨hf, ho⟩
  simp [memoryUnit, hn]

end HduCpu
