import HduCpu.Cpu.Trap

/-!
# Exceptions and the user mode

* `fu_interrupt`, `slot_isInt`   no instruction raises an interrupt;
* `excNO_of_sideEffect`    an instruction with a side effect raises an exception only when its pc
                           is misaligned;
* `AtomicTrap`, `atomicTrap_iff`   in every reachable state an exception is atomic exactly when
                           the trapped instruction has no side effect at a misaligned pc;
* `UserConfined`, `userConfined_iff`   in user mode nothing but a trap changes the CSR file,
                           exactly when `mret` is not in Execute.
-/

namespace HduCpu

/-! ## what an instruction raises -/

theorem lsuEx_interrupt (op : BitVec 5) (addr : BitVec 64) (ex : ExceptionInfo) :
    (lsuEx op addr ex).interrupt = ex.interrupt := by
  unfold lsuEx
  split_ifs <;> rfl

theorem bruEx_interrupt (target : Option (BitVec 64)) (ex : ExceptionInfo) :
    (bruEx target ex).interrupt = ex.interrupt := by
  cases target with
  | none => rfl
  | some t =>
    show (if t.extractLsb' 0 2 != 0 then ex.raise instAddrMisaligned t else ex).interrupt = _
    split_ifs <;> rfl

theorem csrCallEx_interrupt (info : Info) (mode : BitVec 2) (ex : ExceptionInfo) :
    (csrCallEx info mode ex).interrupt = ex.interrupt := by
  unfold csrCallEx
  split_ifs <;> rfl

theorem fu_interrupt (file : CSRRegFile) (data : IdExeData) :
    (fu file data).newEx.interrupt = data.ex.interrupt := by
  have hif : ∀ (b : Bool) (x y : ExceptionInfo), x.interrupt = y.interrupt →
      (if b then x else y).interrupt = y.interrupt := by
    intro b x y h
    split_ifs
    · exact h
    · rfl
  cases hf : data.info.fusel with
  | alu | mdu =>
    rw [fu, hf]
    rfl
  | lsu =>
    rw [fu, hf]
    exact hif _ _ _ (lsuEx_interrupt _ _ _)
  | bru =>
    rw [fu, hf]
    exact bruEx_interrupt _ _
  | csr =>
    rw [fu, hf]
    have hcall := hif data.info.valid _ _ (csrCallEx_interrupt data.info file.regMode data.ex)
    have hraise : ∀ (x : ExceptionInfo) no tval, (x.raise no tval).interrupt = x.interrupt :=
      fun _ _ _ => rfl
    exact (hif _ _ _ (hraise _ _ _)).trans hcall

theorem decodeEx_interrupt (valid legal : Bool) (pc : BitVec 64) (inst : BitVec 32) :
    (decodeEx valid legal pc inst).interrupt = ExceptionInfo.none.interrupt := by
  simp only [decodeEx]
  split_ifs <;> rfl

/-- A legal instruction at an aligned pc is decoded without exception. -/
theorem decodeEx_none {legal : Bool} {pc : BitVec 64} (inst : BitVec 32) (hl : legal = true)
    (hp : pc.extractLsb' 0 2 = 0) : decodeEx true legal pc inst = .none := by
  simp [decodeEx, hl, hp]

/-- The default entry of the decode table goes to the ALU. -/
theorem decoder_valid {inst : BitVec 32} (h : (decoder inst).fusel ≠ .alu) :
    (decoder inst).valid = true := by
  have key : ∀ t ∈ decodeDefault :: decodeTable.map Prod.snd, t.2.1 ≠ FuType.alu →
      (t.1 != InstrType.N) = true := by decide
  exact key _ (decodeOf_mem inst) h

/-- A store of the decode table is one of the four store operations. -/
theorem decoder_store {inst : BitVec 32} (hf : (decoder inst).fusel = .lsu)
    (hs : LSUOpType.isStore (decoder inst).op = true) : (decoder inst).op ∈
      [LSUOpType.sb, LSUOpType.sh, LSUOpType.sw, LSUOpType.sd] := by
  have key : ∀ t ∈ decodeDefault :: decodeTable.map Prod.snd, t.2.1 = FuType.lsu →
      LSUOpType.isStore t.2.2 = true →
      t.2.2 ∈ [LSUOpType.sb, LSUOpType.sh, LSUOpType.sw, LSUOpType.sd] := by decide
  exact key _ (decodeOf_mem inst) hf hs

/-- A legal write is to a register that may also be read. -/
theorem CSRRegFile.rlegal_of_wlegal (file : CSRRegFile) {a : BitVec 12}
    (h : file.wlegal true a = true) (ren : Bool) : file.rlegal ren a = true := by
  simp only [wlegal, Bool.true_and, Bool.not_eq_true', Bool.or_eq_false_iff] at h
  obtain ⟨⟨hne, -⟩, hmode⟩ := h
  simp [rlegal, hne, hmode, CSRAddr.enRead]

/-- `mret` itself raises nothing. -/
theorem fu_mret_ex (file : CSRRegFile) {data : IdExeData} (h : Returning data) :
    (fu file data).newEx = data.ex := by
  obtain ⟨hf, ho⟩ := h
  have hwen : csrWen data.info = false := by
    rw [csrWen, ho]
    simp [CSROpType.csrrw, CSROpType.csrrs, CSROpType.csrrc, CSROpType.mret]
  have hren : csrRen data.info = false := by
    rw [csrRen, ho]
    simp [CSROpType.csrrw, CSROpType.csrrs, CSROpType.csrrc, CSROpType.mret]
  have hcall : ∀ ex, csrCallEx data.info file.regMode ex = ex := by
    intro ex
    rw [csrCallEx, ho, if_neg (by decide), if_neg (by decide)]
  simp only [fu, hf, csr, hwen, hren, hcall]
  simp [CSRRegFile.rlegal, CSRRegFile.wlegal]

section
variable {s : Core} (h : Coherent s) (hv : s.executeStage.info.valid = true) (i : CoreIn)
include h hv

theorem slot_interrupt :
    (s.exe i).csrIn.ex.interrupt = ExceptionInfo.none.interrupt := by
  show (if s.executeStage.info.valid then (fu s.csrfile s.executeStage).newEx
    else .none).interrupt = _
  rw [hv, if_pos rfl, fu_interrupt, h.slot_ex hv, decodeEx_interrupt]

theorem slot_isInt : s.csrfile.isInt (s.exe i).csrIn = s.csrfile.takesInt i.interrupt :=
  s.csrfile.isInt_eq (slot_interrupt h hv i)

omit h in
theorem slot_ex_eq : (s.exe i).csrIn.ex = (fu s.csrfile s.executeStage).newEx := by
  show (if s.executeStage.info.valid then _ else _) = _
  rw [hv, if_pos rfl]

/-- The fields of a valid slot are those of the decoder. -/
theorem slot_fields : s.executeStage.info.fusel = (decoder s.executeStage.info.inst).fusel ∧
    s.executeStage.info.op = (decoder s.executeStage.info.inst).op := by
  constructor
  · conv_lhs => rw [h.slot_info hv]
  · conv_lhs => rw [h.slot_info hv]

/-- An instruction with a side effect raises no exception of its own. -/
theorem excNO_of_sideEffect (hse : SideEffect s.csrfile s.executeStage)
    (hp : s.executeStage.pc.extractLsb' 0 2 = 0) : excNO (s.exe i).csrIn.ex = noException := by
  obtain ⟨hfu, hop⟩ := slot_fields h hv
  have hne : s.executeStage.info.fusel ≠ .alu := by
    rcases hse with ⟨hf, -⟩ | ⟨hf, -⟩ | ⟨hf, -⟩ <;> rw [hf] <;> decide
  have hold : s.executeStage.ex = .none := by
    rw [h.slot_ex hv, decodeEx_none _ (decoder_valid (hfu ▸ hne)) hp]
  rw [slot_ex_eq hv]
  have key : (fu s.csrfile s.executeStage).newEx = .none := by
    rcases hse with ⟨hf, -, hb⟩ | ⟨hf, hwen, hleg, -⟩ | ⟨hf, ho⟩
    · simp only [fu, hf, lsu, lsuEx, hb, hold]
      simp
    · have hr := s.csrfile.rlegal_of_wlegal hleg (csrRen s.executeStage.info)
      have hcall : ∀ ex, csrCallEx s.executeStage.info s.csrfile.regMode ex = ex := by
        intro ex
        have hop : s.executeStage.info.op ≠ CSROpType.ebreak ∧
            s.executeStage.info.op ≠ CSROpType.ecall := by
          constructor <;> intro he <;> rw [csrWen, he] at hwen <;> simp [CSROpType.csrrw,
            CSROpType.csrrs, CSROpType.csrrc, CSROpType.ebreak, CSROpType.ecall] at hwen
        rw [csrCallEx, if_neg hop.1, if_neg hop.2]
      simp only [fu, hf, csr, hwen, hleg, hr, hcall, hold]
      simp
    · rw [fu_mret_ex s.csrfile ⟨hf, ho⟩, hold]
  rw [key, excNO_none]

end

/-- the CSR file of a reachable core is reachable -/
theorem csr_reach {s : Core} (h : coreMachine.Reach s) : csrMachine.Reach s.csrfile := by
  induction h with
  | init h =>
    obtain rfl := h
    exact .init rfl
  | next i _ ih => exact .next _ ih

/-! ## exceptions are atomic -/

/-- What the trap of the instruction in Execute should come to: no store, no register write ever,
trap entry and nothing else in the CSR file, and the handler as the next fetch address. -/
structure AtomicTrap (s : Core) (i : CoreIn) : Prop where
  strobe : (s.wires i).executeUnit.dataSram.wen = 0
  regs : ∀ j k, (((s.next i).next j).next k).regfile = ((s.next i).next j).regfile
  csr : TrapEntered s.csrfile (s.next i).csrfile
    (BitVec.ofNat 64 (excNO (s.wires i).executeUnit.csrIn.ex))
    ((s.wires i).executeUnit.csrIn.ex.tval (excNO (s.wires i).executeUnit.csrIn.ex))
    s.executeStage.pc
  fetch : (s.wires i).instSram.addr = s.csrfile.mtvecBase.setWidth 32

theorem lsuWen_store {op : BitVec 5} (h : op ∈ [LSUOpType.sb, LSUOpType.sh, LSUOpType.sw,
    LSUOpType.sd]) (addr : BitVec 64) : lsuWen op addr ≠ 0 := by
  have k1 : ∀ a : BitVec 3, (0b00000001#8 <<< a) ≠ 0 := by decide
  have k2 : ∀ a : BitVec 3, (0b00000011#8 <<< a) ≠ 0 := by decide
  have k4 : ∀ a : BitVec 3, (0b00001111#8 <<< a) ≠ 0 := by decide
  have k8 : ∀ a : BitVec 3, (0b11111111#8 <<< a) ≠ 0 := by decide
  simp only [List.mem_cons, List.not_mem_nil, or_false] at h
  rcases h with rfl | rfl | rfl | rfl
  · exact k1 _
  · exact k2 _
  · exact k4 _
  · exact k8 _

/-- the next fetch address under a flush -/
theorem instSram_flush {s : Core} (i : CoreIn) (hf : s.flush i = true) :
    (s.wires i).instSram.addr = (s.exe i).ftcInfo.target.setWidth 32 := by
  have hf' : (s.exe i).ftcInfo.flush = true := hf
  show s.fetch.sramAddr (s.wires i).fetchCtrl (s.exe i).ftcInfo = _
  rw [FetchUnit.sramAddr, if_pos hf']

/-- `mret` is signalled for a valid `mret` only. -/
theorem mret_eq (file : CSRRegFile) (ext : ExtInterrupt) {data : IdExeData}
    (h : ¬ Returning data) : (executeUnit file ext data).csrIn.mret = false := by
  show (fu file data).mret = false
  cases hf : data.info.fusel with
  | csr =>
    have ho : data.info.op ≠ CSROpType.mret := fun ho => h ⟨hf, ho⟩
    simp only [fu, hf, csr]
    simp [ho]
  | _ => simp [fu, hf, FuOut.quiet]

theorem mret_of_returning (file : CSRRegFile) (ext : ExtInterrupt) {data : IdExeData}
    (hv : data.info.valid = true) (h : Returning data) :
    (executeUnit file ext data).csrIn.mret = true := by
  obtain ⟨hf, ho⟩ := h
  show (fu file data).mret = true
  simp only [fu, hf, csr, ho, hv]
  rfl

/-- A return is never a trap entry: the mode would have to be `M` before and after, but the saved
mode becomes `U`. -/
theorem not_trapEntered_of_mret {file : CSRRegFile} (hp : PrivInv file) {i : CsrIn}
    (hm : i.mret = true) (cause tval pc : BitVec 64) :
    ¬ TrapEntered file (file.next i) cause tval pc := by
  intro h
  have hmode := h.mode
  have hmpp := h.mpp
  rw [file.next_regMode, if_pos hm] at hmode
  rw [CSRRegFile.mpp, file.next_mstatus, if_pos hm, file.mpp_mretMstatus] at hmpp
  rw [hp.mpp_of_u hmpp.symm] at hmode
  exact absurd hmode (by decide)

section
variable {s : Core} (i : CoreIn) (ha : AtomicTrap s i)
include ha

/-- An aligned store raises its strobe. -/
theorem AtomicTrap.not_storing (hc : Coherent s) (hv : s.executeStage.info.valid = true) :
    ¬ Storing s.executeStage := by
  rintro ⟨hf, hs, hb⟩
  have hop : s.executeStage.info.op ∈
      [LSUOpType.sb, LSUOpType.sh, LSUOpType.sw, LSUOpType.sd] := by
    obtain ⟨hfu, hop⟩ := slot_fields hc hv
    rw [hop] at hs ⊢
    exact decoder_store (hfu ▸ hf) hs
  have hwen : (s.exe i).dataSram.wen = lsuWen s.executeStage.info.op
      (s.executeStage.srcInfo.src1Data + s.executeStage.info.imm) := by
    show (fu s.csrfile s.executeStage).dataSram.wen = _
    simp only [fu, hf, lsu, hv, hb]
    simp
  exact lsuWen_store hop _ (hwen.symm.trans ha.strobe)

/-- The CSR that a legal write changes is not in the frame of trap entry. -/
theorem AtomicTrap.not_csrWriting (ht : s.csrfile.traps (s.exe i).csrIn = true) :
    ¬ CsrWriting s.csrfile s.executeStage := by
  rintro ⟨hf, hwen, hleg, hlate, hne⟩
  have hfw : (s.exe i).csrIn.write = ⟨true, s.executeStage.info.csr,
      csrPortData s.csrfile s.executeStage⟩ := by
    show (fu s.csrfile s.executeStage).write = _
    rw [← hwen]
    simp only [fu, hf]
    rfl
  have hm : (s.exe i).csrIn.mret = false := by
    refine mret_eq _ _ fun hret => ?_
    rw [csrWen, hret.2] at hwen
    simp [CSROpType.csrrw, CSROpType.csrrs, CSROpType.csrrc, CSROpType.mret] at hwen
  have hreg := ha.csr.frame (csrLookup s.executeStage.info.csr).1 (by
    intro hmem
    refine hlate ?_
    simp only [List.mem_cons, List.not_mem_nil, or_false] at hmem
    rw [mem_lateRegs]
    tauto)
  rw [Core.next_csrfile, s.csrfile.next_regs_late hm ht hlate, hfw, CSRRegFile.writeRegs,
    hleg] at hreg
  simp only [Bool.and_self, if_true, Function.update_self] at hreg
  exact hne hreg

theorem AtomicTrap.not_returning (hp : PrivInv s.csrfile)
    (hv : s.executeStage.info.valid = true) : ¬ Returning s.executeStage := fun hret =>
  not_trapEntered_of_mret hp (mret_of_returning _ _ hv hret) _ _ _ ha.csr

end

/-- An exception without side effect is atomic. -/
theorem atomicTrap_of_quiet {s : Core} (i : CoreIn) (hlow : i.interrupt = .low)
    (hint : s.csrfile.isInt (s.exe i).csrIn = false) (hex : excNO (s.exe i).csrIn.ex ≠ noException)
    (hse : ¬ SideEffect s.csrfile s.executeStage) : AtomicTrap s i := by
  simp only [SideEffect, not_or] at hse
  obtain ⟨hst, hcsr, hret⟩ := hse
  have ht : s.csrfile.traps (s.exe i).csrIn = true := by simp [CSRRegFile.traps, hex]
  have hm : (s.exe i).csrIn.mret = false := mret_eq _ _ hret
  refine ⟨executeUnit_port _ _ hst, fun j k => Core.regfile_of_trap i ht j k, ?_, ?_⟩
  · exact s.csrfile.trapEntered_next hlow hint hex hm fun r hr => writeRegs_late _ hcsr hr
  · rw [instSram_flush i (flush_of_trap ht), target_of_trap ht hm, s.csrfile.trapTarget_exc hint]

/-- **When an exception is atomic.**  In every reachable state, for every valid instruction in
Execute for which the CSR file sees an exception with the interrupt lines low, the trap is atomic
unless the pc is misaligned and the instruction is an aligned store, a legal CSR write that trap
entry does not cover, or `mret`. -/
theorem atomicTrap_iff {s : Core} (hr : coreMachine.Reach s) (i : CoreIn)
    (hlow : i.interrupt = .low) (hv : s.executeStage.info.valid = true)
    (hex : excNO (s.wires i).executeUnit.csrIn.ex ≠ noException) :
    AtomicTrap s i ↔
      ¬ (s.executeStage.pc.extractLsb' 0 2 ≠ 0 ∧ SideEffect s.csrfile s.executeStage) := by
  have hc := coherent.reach hr
  change excNO (s.exe i).csrIn.ex ≠ noException at hex
  have ht : s.csrfile.traps (s.exe i).csrIn = true := by simp [CSRRegFile.traps, hex]
  have hint : s.csrfile.isInt (s.exe i).csrIn = false := by
    rw [slot_isInt hc hv i, hlow, takesInt_low]
  constructor
  · rintro ha ⟨-, hst | hcsr | hret⟩
    · exact ha.not_storing i hc hv hst
    · exact ha.not_csrWriting i ht hcsr
    · exact ha.not_returning i (privInv.reach (csr_reach hr)) hv hret
  · intro hcond
    refine atomicTrap_of_quiet i hlow hint hex fun hse => ?_
    -- an instruction with a side effect traps at a misaligned pc only
    by_cases hp : s.executeStage.pc.extractLsb' 0 2 = 0
    · exact hex (excNO_of_sideEffect hc hv i hse hp)
    · exact hcond ⟨hp, hse⟩

/-! ## the user mode -/

/-- No CSR can be written in user mode. -/
theorem wlegal_user {file : CSRRegFile} (hu : file.regMode = Privilege.u) (a : BitVec 12) :
    file.wlegal true a = false := by
  have key : ∀ e ∈ addrTable, e.1 = .lit e.1.value ∧
      (!CSRAddr.enWrite e.1.value || Privilege.u < CSRAddr.leastMode e.1.value) = true := by
    decide
  rcases listLookup_cases a addrDefault addrTable with ⟨e, hm, hh, -⟩ | ⟨-, hl⟩
  · obtain ⟨hlit, hno⟩ := key e hm
    rw [hlit, BitPat.hit_lit] at hh
    rw [beq_iff_eq.mp hh, CSRRegFile.wlegal, hu, Bool.or_assoc, hno]
    simp
  · have hempty : (csrLookup a).1 = .empty := by rw [csrLookup, hl]; rfl
    simp [CSRRegFile.wlegal, hempty]

theorem writeRegs_user {file : CSRRegFile} (hu : file.regMode = Privilege.u) (w : CsrWrite) :
    file.writeRegs w = file.regs := by
  rw [CSRRegFile.writeRegs, if_neg]
  rintro hw
  obtain ⟨hwen, hleg⟩ := Bool.and_eq_true_iff.mp hw
  rw [hwen, wlegal_user hu] at hleg
  exact absurd hleg (by decide)

/-- What a cycle in user mode may do to the CSR file: enter a trap or nothing; `mret` is an
illegal instruction. -/
structure UserConfined (s : Core) (i : CoreIn) : Prop where
  change : (TrapEntered s.csrfile (s.next i).csrfile
      (BitVec.ofNat 64 (excNO (s.wires i).executeUnit.csrIn.ex))
      ((s.wires i).executeUnit.csrIn.ex.tval (excNO (s.wires i).executeUnit.csrIn.ex))
      s.executeStage.pc ∧
      (s.wires i).instSram.addr = s.csrfile.mtvecBase.setWidth 32) ∨
    (s.next i).csrfile = s.csrfile
  mret : s.executeStage.info.valid = true → Returning s.executeStage →
    (s.wires i).executeUnit.csrIn.ex.exception illegalInst = true

/-- `mret` raises no illegal instruction in any mode. -/
theorem mret_not_illegal {s : Core} (h : Coherent s) (i : CoreIn)
    (hv : s.executeStage.info.valid = true) (hret : Returning s.executeStage) :
    (s.wires i).executeUnit.csrIn.ex.exception illegalInst = false := by
  change (s.exe i).csrIn.ex.exception illegalInst = false
  obtain ⟨hfu, -⟩ := slot_fields h hv
  have hne : (decoder s.executeStage.info.inst).fusel ≠ .alu := by
    rw [← hfu, hret.1]
    decide
  rw [slot_ex_eq hv, fu_mret_ex _ hret, h.slot_ex hv, decoder_valid hne]
  simp only [decodeEx]
  split_ifs <;> simp_all [ExceptionInfo.none, ExceptionInfo.raise, illegalInst,
    instAddrMisaligned]

/-- **User mode is confined except for `mret`.**  In every reachable state in user mode with the
interrupt lines low, whatever Execute holds: the cycle enters a trap or leaves the mode and every
CSR alone, and `mret` is illegal, exactly when Execute holds no valid `mret`. -/
theorem userConfined_iff {s : Core} (hr : coreMachine.Reach s) (i : CoreIn)
    (hlow : i.interrupt = .low) (hu : s.csrfile.regMode = Privilege.u) :
    UserConfined s i ↔
      ¬ (s.executeStage.info.valid = true ∧ Returning s.executeStage) := by
  have hc := coherent.reach hr
  constructor
  · rintro h ⟨hv, hret⟩
    exact absurd ((mret_not_illegal hc i hv hret).symm.trans (h.mret hv hret)) (by decide)
  intro hn
  refine ⟨?_, fun hv hret => absurd ⟨hv, hret⟩ hn⟩
  have hmip : Function.update s.csrfile.regs .mip (s.csrfile.mipNext i.interrupt) =
      s.csrfile.regs := by
    rw [hlow, CSRRegFile.mipNext_low, Function.update_eq_self]
  by_cases hv : s.executeStage.info.valid = true
  swap
  · right
    have hv' : s.executeStage.info.valid = false := by simpa using hv
    rw [Core.next_csrfile, Core.exe, executeUnit_next_bubble _ _ hv',
      s.csrfile.next_bubble_quiet _ (by rw [hlow]; exact takesInt_low _), hmip]
  have hm : (s.exe i).csrIn.mret = false := mret_eq _ _ fun hret => hn ⟨hv, hret⟩
  have hint : s.csrfile.isInt (s.exe i).csrIn = false := by
    rw [slot_isInt hc hv i, hlow, takesInt_low]
  by_cases ht : s.csrfile.traps (s.exe i).csrIn = true
  · left
    have hex : excNO (s.exe i).csrIn.ex ≠ noException := by simpa [CSRRegFile.traps, hint] using ht
    refine ⟨s.csrfile.trapEntered_next hlow hint hex hm fun r _ => ?_, ?_⟩
    · rw [writeRegs_user hu]
    · rw [instSram_flush i (flush_of_trap ht), target_of_trap ht hm,
        s.csrfile.trapTarget_exc hint]
  · right
    have hext : (s.exe i).csrIn.extInt = i.interrupt := rfl
    have ht' : s.csrfile.traps (s.exe i).csrIn = false := by simpa using ht
    rw [Core.next_csrfile]
    simp only [CSRRegFile.next, hm, ht', writeRegs_user hu, hext, hmip, Bool.false_eq_true,
      if_false]

/-! ## inputs that show both sides -/

/-- The instruction bus returns the words of a list, one a cycle, and `addi x0, x0, 0` after it. -/
def feed (prog : List (BitVec 32)) (n : ℕ) : CoreIn := ⟨.low, prog.getD n 0x00000013, 0⟩

/-- the core after `n` cycles with these words -/
def fed (prog : List (BitVec 32)) (n : ℕ) : Core := coreMachine.run (feed prog) .reset n

theorem fed_reach (prog : List (BitVec 32)) (n : ℕ) : coreMachine.Reach (fed prog n) :=
  coreMachine.reach_run _ rfl n

/-- an all-zero word at the first pc traps atomically -/
theorem atomicTrap_illegal : AtomicTrap (fed [0, 0, 0] 4) (feed [] 4) :=
  (atomicTrap_iff (fed_reach _ _) (feed [] 4) rfl (by decide +kernel) (by decide +kernel)).mpr
    fun h => h.1 (by decide +kernel)

/-- `csrrwi x0, mepc, 2`, `mret` and, at the misaligned pc 2, `sw x0, 0(x0)` -/
def misalignedStore : List (BitVec 32) :=
  [0x13, 0x13, 0x34115073, 0x30200073, 0x13, 0x13, 0x00002023]

/-- The store at the misaligned pc raises its strobe although it traps. -/
theorem misaligned_store_not_atomic : ¬ ∀ s, coreMachine.Reach s → ∀ i : CoreIn,
    i.interrupt = .low → s.executeStage.info.valid = true →
    excNO (s.wires i).executeUnit.csrIn.ex ≠ noException → AtomicTrap s i := by
  intro h
  have ha := h (fed misalignedStore 8) (fed_reach _ _) (feed [] 8) rfl (by decide +kernel)
    (by decide +kernel)
  exact absurd ha.strobe (by decide +kernel)

/-- `mret` to user mode, and `ecall` there -/
def userEcall : List (BitVec 32) := [0x13, 0x13, 0x30200073, 0x13, 0x13, 0x00000073]

/-- The `ecall` is taken in user mode and enters machine mode. -/
theorem userConfined_trap : UserConfined (fed userEcall 7) (feed [] 7) ∧
    excNO ((fed userEcall 7).wires (feed [] 7)).executeUnit.csrIn.ex = ecallU ∧
    (fed userEcall 8).csrfile.regMode = Privilege.m := by
  refine ⟨?_, by decide +kernel, by decide +kernel⟩
  exact (userConfined_iff (fed_reach _ _) (feed [] 7) rfl (by decide +kernel)).mpr
    fun h => absurd h.2.2 (by decide +kernel)

/-- `mret` twice: the second one is executed in user mode and is no illegal instruction. -/
theorem user_mret_not_confined : ¬ ∀ s, coreMachine.Reach s → ∀ i : CoreIn,
    i.interrupt = .low → s.csrfile.regMode = Privilege.u → UserConfined s i := by
  intro h
  have hc := h (fed [0x13, 0x13, 0x30200073, 0x13, 0x13, 0x30200073] 7) (fed_reach _ _)
    (feed [] 7) rfl (by decide +kernel)
  have hill := hc.mret (by decide +kernel) ⟨by decide +kernel, by decide +kernel⟩
  exact absurd hill (by decide +kernel)

end HduCpu
