import HduCpu.Isa.Words
import HduCpu.Ref.Confine

/-!
# The reference and the machine of the instruction set

The reference on its memory makes the steps of the machine, as long as the cycle counter has not
come to the limit of a test, and ends the simulation where the machine ends.  A `jalr` from an odd
register is no step of the machine, so that nothing is said about it.

* `Stands`                 a state of the reference that stands for a state of the machine;
* `Instr.exec_executes`    an instruction, from the decoding on;
* `Stands.next`, `Stands.ends`   a step, and the end of a program;
* `refRun_stands`, `refRun_ends`   whole runs.
-/

namespace HduCpu
open BitPat

/-! ## an instruction -/

/-- The reference does with the word what leads the machine to `s`. -/
def Executes (flags : Flags) (c : RvCore MmioMem) (w : BitVec 32) (s : Isa) : Prop :=
  ∃ e, c.decodeExec flags w = .ok e ∧ e.ri = false ∧ e.core.priv = c.priv ∧ e.core.GPR = s.regs ∧
    e.core.bus.devices = [ramEntry s.mem] ∧
      (if e.newPc then e.core.pc else e.core.pc + 4) = s.pc

theorem read_encode' (i : Instr) : i.mnemonic.format.read i.encode = i.operands :=
  read_encode i.operands

/-- No instruction is a compressed one. -/
theorem isRvc_encode (i : Instr) : RvCore.isRvc i.encode = false := by
  have hm : ∀ k < 2, i.mnemonic.format.pat.mask.getLsbD k = true ∧
      i.mnemonic.format.pat.value.getLsbD k = true := by
    cases i.mnemonic <;> decide
  have hlow : (RvInstr.opcode i.encode).extractLsb' 0 2 = 0b11 := by
    apply BitVec.eq_of_getLsbD_eq
    intro k hk
    obtain ⟨h₁, h₂⟩ := hm k hk
    have hb := (hit_bit i.hit h₁).trans h₂
    have hop : (RvInstr.opcode i.encode).extractLsb' 0 2 = i.encode.extractLsb' 0 2 :=
      extract_extract i.encode (by decide)
    rw [hop, BitVec.getLsbD_extractLsb', Nat.zero_add, hb, decide_eq_true hk]
    interval_cases k <;> rfl
  rw [RvCore.isRvc, hlow]
  rfl

section
variable {t : Text} {i : Instr} {s s' : Isa} {c : RvCore MmioMem} (flags : Flags) (hpc : c.pc = s.pc)
  (hregs : c.GPR = s.regs) (hmem : c.bus.devices = [ramEntry s.mem])
include hpc hregs hmem

omit hpc hmem in
theorem setGPR_put (pc : BitVec 64) (rd : BitVec 5) (v : BitVec 64) (inst : BitVec 32) :
    ({ c with debugInst := inst }.setGPR rd v).GPR = (s.put pc rd v).regs := by
  show (if rd != 0 then Function.update c.GPR rd v else c.GPR) = if rd = 0 then _ else _
  rw [hregs]
  by_cases h : rd = 0
  · rw [if_pos h, if_neg (by rw [h]; decide)]
  · rw [if_neg h, if_pos (bne_iff_ne.mpr h)]

omit hpc in
/-- an instruction that writes a register and goes on -/
theorem executes_put {w : BitVec 32} {rd : BitVec 5} {v : BitVec 64}
    (h : c.decodeExec flags w = ({ c with debugInst := w }.setGPR rd v).done) :
    Executes flags c w (s.put (c.pc + 4) rd v) :=
  ⟨_, h, rfl, rfl, setGPR_put hregs _ rd v w, hmem, rfl⟩

omit hpc in
/-- an instruction that only goes on -/
theorem executes_skip {w : BitVec 32} (h : c.decodeExec flags w = { c with debugInst := w }.done) :
    Executes flags c w (s.put (c.pc + 4) 0 0) :=
  ⟨_, h, rfl, rfl, hregs, hmem, rfl⟩

/-- a jump to an aligned target -/
theorem executes_jump {w : BitVec 32} {rd : BitVec 5} {target : BitVec 64}
    (h : c.decodeExec flags w = { c with debugInst := w }.jumpLink rd target)
    (hj : s.jump rd target = .ok s') : Executes flags c w s' := by
  unfold Isa.jump at hj
  split_ifs at hj with hal
  obtain rfl := Except.ok.inj hj
  have hal' : ¬ (target % 4 != 0) = true := by simpa using hal
  unfold RvCore.jumpLink at h
  rw [if_neg hal'] at h
  refine ⟨_, h, rfl, rfl, ?_, hmem, rfl⟩
  rw [← hpc]
  exact setGPR_put (c := { c with debugIsBranch := true }) hregs target rd (c.pc + 4) w

/-- **An instruction of the machine is executed by the reference.** -/
theorem Instr.exec_executes (hs : c.priv.satp = 0) (h : i.exec t s = .ok s') :
    Executes flags c i.encode s' := by
  have hr := read_encode' i
  have hw := i.hit
  unfold Instr.exec at h
  dsimp only at h
  rw [← hregs, ← hpc] at h
  split at h
  case h_1 op op32 imm ha =>
    have hd := does_compute c flags hw ha
    rw [hr] at hd
    obtain rfl := Except.ok.inj h
    exact executes_put flags hregs hmem hd
  case h_2 ha =>
    have hd := does_lui c flags hw ha
    rw [hr] at hd
    obtain rfl := Except.ok.inj h
    exact executes_put flags hregs hmem hd
  case h_3 ha =>
    have hd := does_auipc c flags hw ha
    rw [hr] at hd
    obtain rfl := Except.ok.inj h
    exact executes_put flags hregs hmem hd
  case h_4 ha =>
    have hd := does_jal c flags hw ha
    rw [hr] at hd
    exact executes_jump flags hpc hregs hmem hd h
  case h_5 ha =>
    split_ifs at h with heven
    have hd := does_jalr c flags hw ha (by rw [hr]; exact Bool.eq_false_of_not_eq_true heven)
    rw [hr] at hd
    exact executes_jump flags hpc hregs hmem hd h
  case h_6 cond ha =>
    have hd := does_branch c flags hw ha
    rw [hr] at hd
    dsimp only at hd
    split_ifs at h with hc
    · unfold Isa.jump at h
      split_ifs at h with hal
      obtain rfl := Except.ok.inj h
      have hal' : ¬ ((c.pc + i.operands.imm) % 4 != 0) = true := by simpa using hal
      rw [if_pos hc, if_neg hal'] at hd
      exact ⟨_, hd, rfl, rfl, hregs, hmem, rfl⟩
    · obtain rfl := Except.ok.inj h
      rw [if_neg hc] at hd
      exact executes_skip flags hregs hmem hd
  case h_7 bytes signed ha =>
    obtain ⟨hacc, rfl⟩ := load_eq h
    have hd := does_load c flags hw hs hmem ha (by rw [hr]; exact hacc)
    rw [hr] at hd
    rw [← hpc]
    exact executes_put flags hregs hmem hd
  case h_8 bytes ha =>
    obtain ⟨hx, hacc, hnext, hsame, hstored⟩ := store_eq h
    have hd := does_store c flags hw hs hmem ha (by rw [hr]; exact hacc) (by rw [hr]; exact hx)
    rw [hr] at hd
    obtain ⟨bus, hd, hdev⟩ := hd
    refine ⟨_, hd, rfl, rfl, hregs.trans hsame.symm, ?_, ?_⟩
    · rw [hstored]
      exact hdev
    · rw [hnext, ← hpc]
      rfl
  case h_9 ha =>
    obtain rfl := Except.ok.inj h
    exact executes_skip flags hregs hmem (does_skip c flags hw ha)
  all_goals cases h

end

/-- **Where the machine ends, the reference ends the simulation.** -/
theorem Instr.exec_exits {t : Text} {i : Instr} {s : Isa} {c : RvCore MmioMem}
    (hregs : c.GPR = s.regs) (hs : c.priv.satp = 0) (flags : Flags)
    (hflags : flags.runRiscvTest = true) {code : ℕ} (h : i.exec t s = .error (.exit code)) :
    c.decodeExec flags i.encode = .error (.exit code) := by
  have hr := read_encode' i
  have hw := i.hit
  unfold Instr.exec at h
  dsimp only at h
  rw [← hregs] at h
  split at h
  case h_4 =>
    unfold Isa.jump at h
    split_ifs at h
    cases h
  case h_5 =>
    unfold Isa.jump at h
    split_ifs at h <;> cases h
  case h_6 =>
    unfold Isa.jump at h
    split_ifs at h
    cases h
  case h_7 =>
    unfold Isa.load at h
    split_ifs at h
    cases h
  case h_8 bytes ha =>
    unfold Isa.store at h
    split_ifs at h with hx
    · cases h
      exact does_tohost c flags hw hs hflags ha (by rw [hr]; exact hx)
    · cases h
  case h_10 ha =>
    by_cases h17 : c.GPR 17 = 93
    · rw [if_pos h17] at h
      obtain rfl := Stop.exit.inj (Except.error.inj h)
      exact does_ecall c flags hw ha hflags h17
    · rw [if_neg h17] at h
      cases h
  case h_11 ha =>
    split_ifs at h with h10
    · cases h
      exact does_ebreak c flags hw ha hflags h10
    · cases h
  all_goals cases h

/-! ## the designs agree on it -/

/-- the opcode that the pattern of an instruction fixes -/
def Mnemonic.opcode (m : Mnemonic) : BitVec 7 := m.format.pat.value.extractLsb' 0 7

theorem opcodeOf_encode (i : Instr) : opcodeOf i.encode = i.mnemonic.opcode := by
  have hm : ∀ k < 7, i.mnemonic.format.pat.mask.getLsbD k = true := by
    cases i.mnemonic <;> decide
  apply BitVec.eq_of_getLsbD_eq
  intro k hk
  rw [opcodeOf, Mnemonic.opcode, BitVec.getLsbD_extractLsb', BitVec.getLsbD_extractLsb', Nat.zero_add,
    hit_bit i.hit (hm k hk)]

open Opcode in
/-- the opcodes of the instructions that ask for it -/
def Action.opcodes : Action → List (BitVec 7)
  | .compute .. | .lui | .auipc => computeOpcodes
  | .jal => [JAL]
  | .jalr => [JALR]
  | .branch _ => [BRANCH]
  | .load .. => [LOAD]
  | .store _ => [STORE]
  | .skip => [FENCE, SYSTEM]
  | .ecall | .ebreak | .system => [SYSTEM]

theorem Mnemonic.opcode_mem (m : Mnemonic) : m.opcode ∈ m.action.opcodes := by
  cases m <;> decide

section
variable {t : Text} {i : Instr} {s s' : Isa} {c : RvCore MmioMem}

/-- address and size of a load -/
theorem load_encode {bytes : ℕ} {signed : Bool} (h : i.mnemonic.action = .load bytes signed) :
    opcodeOf i.encode = Opcode.LOAD ∧ accessSize i.encode = BitVec.ofNat 64 bytes ∧
      c.accessAddr i.encode = c.GPR (i.operands.rs1.getD 0) + i.operands.imm ∧
      bytes ∈ [1, 2, 4, 8] := by
  have hw := i.hit
  rw [← read_encode' i, imm_read hw]
  obtain ⟨f3, conv, hf, -, hb, hsize, -⟩ := i.mnemonic.load_row h
  rw [hf] at hw ⊢
  obtain ⟨h3, ho⟩ := hit_i hw
  refine ⟨ho, by rw [accessSize, h3, hsize], ?_, hb⟩
  rw [RvCore.accessAddr, if_neg (by rw [ho]; decide), ← immOf_I]
  rfl

/-- address and size of a store, and what it stores -/
theorem store_encode {bytes : ℕ} (h : i.mnemonic.action = .store bytes) :
    opcodeOf i.encode = Opcode.STORE ∧ accessSize i.encode = BitVec.ofNat 64 bytes ∧
      c.accessAddr i.encode = c.GPR (i.operands.rs1.getD 0) + i.operands.imm ∧
      RvInstr.rs2 i.encode = i.operands.rs2.getD 0 ∧ bytes ∈ [1, 2, 4, 8] := by
  have hw := i.hit
  rw [← read_encode' i, imm_read hw]
  obtain ⟨f3, hf, -, hb, hsize⟩ := i.mnemonic.store_row h
  rw [hf] at hw ⊢
  obtain ⟨h3, ho⟩ := hit_i hw
  refine ⟨ho, by rw [accessSize, h3, hsize], ?_, rfl, hb⟩
  rw [RvCore.accessAddr, if_pos ho, ← immOf_S]
  rfl

/-- **An instruction of the machine is one on which the designs agree.** -/
theorem Instr.exec_agreeing (hregs : c.GPR = s.regs) (flags : Flags) (h : i.exec t s = .ok s') :
    Agreeing flags c i.encode := by
  have hv : (decoder i.encode).valid = true := (conforms_encode i).valid
  have hop := opcodeOf_encode i
  have hkind := i.mnemonic.opcode_mem
  unfold Instr.exec at h
  dsimp only at h
  rw [← hregs] at h
  split at h
  case h_1 ha | h_2 ha | h_3 ha =>
    rw [ha, ← hop] at hkind
    exact .compute hkind hv
  case h_4 ha | h_6 ha =>
    rw [ha, ← hop] at hkind
    have ho := List.mem_singleton.mp hkind
    refine .transfer (by rw [ho]; decide) hv fun hj => ?_
    exact absurd (ho.symm.trans hj.1) (by decide)
  case h_5 ha =>
    rw [ha, ← hop] at hkind
    split_ifs at h with heven
    refine .transfer (by rw [List.mem_singleton.mp hkind]; decide) hv fun hj => heven ?_
    have hrs : RvInstr.rs1 i.encode = i.operands.rs1.getD 0 := by
      rw [← read_encode' i]
      obtain ⟨m, o⟩ := i
      cases m <;> cases ha
      rfl
    rw [← hrs]
    exact hj.2
  case h_7 bytes signed ha =>
    obtain ⟨ho, hsize, haddr, hb⟩ := @load_encode i c bytes signed ha
    obtain ⟨hal, hin, -⟩ := (load_eq h).1.ram hb
    rw [← haddr, ← hsize] at hal hin
    exact .access (by rw [ho]; decide) hv hal hin fun hx =>
      absurd (ho.symm.trans hx.1) (by decide)
  case h_8 bytes ha =>
    obtain ⟨ho, hsize, haddr, hrs, hb⟩ := @store_encode i c bytes ha
    obtain ⟨hx, hacc, -⟩ := store_eq h
    obtain ⟨hal, hin, -⟩ := hacc.ram hb
    rw [← haddr, ← hsize] at hal hin
    refine .access (by rw [ho]; decide) hv hal hin fun hend => hx ⟨?_, ?_⟩
    · rw [← haddr]
      exact hend.2.2.1
    · rw [← hrs]
      exact hend.2.2.2
  case h_9 ha =>
    have hw := i.hit
    obtain ⟨m, o⟩ := i
    cases m <;> cases ha
    · exact .fence hw
    · exact .wfi ((encode_read hw).symm.trans rfl)
  all_goals cases h

end

/-! ## a step -/

/-- **A state of the reference that stands for a state of the machine** after `k` steps: the pc, the
registers and the memory, and no interrupt is enabled. -/
structure Stands (k : ℕ) (s : Isa) (c : RvCore MmioMem) : Prop where
  pc : c.pc = s.pc
  regs : c.GPR = s.regs
  mem : c.bus.devices = [ramEntry s.mem]
  inside : Inside OneRam c
  ie : c.priv.ie = 0
  count : c.priv.mcycle = BitVec.ofNat 64 k

/-- Without an enabled interrupt none is taken. -/
theorem finalIntIndex_quiet {p : RvPriv} (h : p.ie = 0) : p.finalIntIndex = RvExcCode.customOk := by
  have hb : p.ip &&& p.ie = 0 := by rw [h]; exact BitVec.and_zero
  have hz : (0 : BitVec 64) &&& ~~~p.mideleg = 0 := BitVec.zero_and
  have hn : RvPriv.int2index 0 = RvExcCode.customOk := by decide
  unfold RvPriv.finalIntIndex
  simp only [hb, hz, hn, bne_self_eq_false, Bool.false_and, Bool.false_eq_true, ite_self]

theorem RvCore.retire_ok {δ : Type} {c : RvCore δ} (h : Mstatus.blank c.priv.status = true) :
    c.retire = .ok { c with priv := { c.priv with
      minstret := if c.priv.curNeedTrap then c.priv.minstret else c.priv.minstret + 1
      curNeedTrap := false } } := by
  unfold retire RvPriv.postExec
  rw [h]
  rfl

section
variable {t : Text} {k : ℕ} {s : Isa} {c : RvCore MmioMem} (h : Stands k s c) (hk : k < 2000000)
  (hin : t.In s.mem) {i : Instr} (hf : t.fetch s.pc = some i)
include h

theorem Stands.priv : (c.atFetch .low).priv = c.priv.entered .low := by
  have hq : (c.priv.entered .low).finalIntIndex = RvExcCode.customOk := finalIntIndex_quiet h.ie
  show (if (c.priv.entered .low).finalIntIndex != RvExcCode.customOk then _ else _) = _
  rw [hq, bne_self_eq_false, if_neg Bool.false_ne_true]

include hin hf

theorem Stands.word : ramWord s.mem c.pc = i.encode ∧ c.pc % 4 = 0 ∧ InRam c.pc 4 := by
  obtain ⟨hal, hr, hw⟩ := fetch_word hf
  rw [h.pc]
  exact ⟨hw s.mem hin, hal, hr⟩

include hk

/-- The reference fetches the word of the instruction. -/
theorem Stands.fetches : i.encode ∈ c.fetches testFlags .low := by
  obtain ⟨hw, hal, hr⟩ := h.word hin hf
  have htime : ¬ (testFlags.runRiscvTest && 2000000#64 ≤ c.priv.mcycle) = true := by
    rw [h.count, Bool.and_eq_true, decide_eq_true_eq, BitVec.le_def, BitVec.toNat_ofNat]
    show ¬ (_ ∧ 2000000 ≤ k % 2 ^ 64)
    omega
  have hq : (c.priv.entered .low).finalIntIndex = RvExcCode.customOk := finalIntIndex_quiet h.ie
  refine RvCore.mem_fetches.mpr ⟨htime, ?_, hal, ?_, ?_⟩
  · rw [hq, bne_self_eq_false]
    exact Bool.false_ne_true
  · rw [paRead_ram hr h.mem]
  · rw [← hw, ← wordAt_ram h.mem hr]
    rfl

/-- a step of the reference, from the decoding on -/
theorem Stands.exec_decode : c.exec testFlags false false false false =
    (c.atFetch .low).decodeExec testFlags i.encode >>= fun e =>
      e.settle i.encode false >>= RvCore.retire := by
  obtain ⟨htime, -, hal, hok, hbuf⟩ := RvCore.mem_fetches.mp (h.fetches hk hin hf)
  have hpriv := h.priv
  have hsatp : (c.atFetch .low).priv.satp = 0 := by
    rw [hpriv]
    exact h.inside.env.satp
  have hflag : (c.atFetch .low).priv.curNeedTrap = false := by
    rw [hpriv]
    rfl
  have hbus : { c.atFetch .low with bus := (c.bus.paRead c.pc 4 0).bus } = c.atFetch .low := by
    rw [paRead_bus h.mem]
    rfl
  have hfetch := RvCore.fetchExec_word hsatp hflag hal hok hbuf testFlags
  rw [isRvc_encode] at hfetch
  refine (RvCore.exec_eq h.inside.env h.inside.plain testFlags .low).trans ?_
  rw [if_neg htime, hfetch]
  show ({ c.atFetch .low with bus := (c.bus.paRead c.pc 4 0).bus }.decodeExec testFlags i.encode >>=
    fun e => e.settle i.encode false) >>= RvCore.retire = _
  rw [hbus]
  cases (c.atFetch .low).decodeExec testFlags i.encode <;> rfl

/-- **A step of the machine is a step of the reference.** -/
theorem Stands.next {s' : Isa} (he : i.exec t s = .ok s') :
    ∃ c', c.exec testFlags false false false false = .ok c' ∧ Stands (k + 1) s' c' := by
  have hpriv := h.priv
  have hsatp : (c.atFetch .low).priv.satp = 0 := by
    rw [hpriv]
    exact h.inside.env.satp
  obtain ⟨e, hd, hri, hp, hregs, hmem, hpc⟩ :=
    @Instr.exec_executes t i s s' (c.atFetch .low) testFlags h.pc h.regs h.mem hsatp he
  have hflag : e.core.priv.curNeedTrap = false := by
    rw [hp, hpriv]
    rfl
  have hexec := h.exec_decode hk hin hf
  rw [hd] at hexec
  have hexec : c.exec testFlags false false false false =
      e.settle i.encode false >>= RvCore.retire := hexec
  rw [settle_quiet hri i.encode false hflag] at hexec
  have hblank : Mstatus.blank e.core.priv.status = true := by
    rw [hp, hpriv]
    exact h.inside.env.status.blank
  have hcore := hexec.trans (RvCore.retire_ok (c := { e.core with
    pc := if e.newPc then e.core.pc else e.core.pc + 4 }) hblank)
  refine ⟨_, hcore, hpc, hregs, hmem, ?_, ?_, ?_⟩
  · exact (RvCore.exec_ends kept_ram h.inside testFlags .low).ok hcore
  · show e.core.priv.ie = 0
    rw [hp, hpriv]
    exact h.ie
  · show e.core.priv.mcycle = _
    rw [hp, hpriv]
    show c.priv.mcycle + 1 = _
    rw [h.count, BitVec.ofNat_add]
    rfl

/-- **The end of a program** ends the simulation. -/
theorem Stands.ends {code : ℕ} (he : i.exec t s = .error (.exit code)) :
    c.exec testFlags false false false false = .error (.exit code) := by
  have hsatp : (c.atFetch .low).priv.satp = 0 := by
    rw [h.priv]
    exact h.inside.env.satp
  have hd := @Instr.exec_exits t i s (c.atFetch .low) h.regs hsatp testFlags rfl code he
  rw [h.exec_decode hk hin hf, hd]
  rfl

end

/-! ## runs -/

theorem stands_start (mem : Bytes) :
    Stands 0 (.start mem) (.boot testFlags mem RAM_START fun _ => 0) where
  pc := rfl
  regs := rfl
  mem := rfl
  inside := (refMachine_inside testFlags).base _ ⟨_, RvCore.boot_boot testFlags mem RAM_START _, rfl⟩
  ie := rfl
  count := rfl

section
variable {t : Text} {mem : Bytes} (hin : t.In mem) {k : ℕ} {s : Isa}
include hin

/-- **A run of the machine is a run of the reference.** -/
theorem refRun_stands (hk : k ≤ 2000000) (h : isaRun t mem k = .ok s) :
    ∃ c, refRun mem k = .ok c ∧ Stands k s c := by
  induction k generalizing s with
  | zero =>
    obtain rfl := Except.ok.inj h
    exact ⟨_, rfl, stands_start mem⟩
  | succ k ih =>
    obtain ⟨p, hp⟩ := isaRun_prev (Nat.le_succ k) h
    rw [isaRun_succ hp] at h
    obtain ⟨i, hf, he⟩ := step_exec h
    obtain ⟨c, hc, hst⟩ := ih (Nat.le_of_succ_le hk) hp
    obtain ⟨c', hexec, hst'⟩ := hst.next hk (isaRun_holds hin hp) hf he
    exact ⟨c', (refRun_succ mem hc).trans hexec, hst'⟩

/-- Where the machine ends, so does the reference. -/
theorem refRun_ends (hk : k < 2000000) (h : isaRun t mem k = .ok s) {code : ℕ}
    (hx : s.step t = .error (.exit code)) : refRun mem (k + 1) = .error (.exit code) := by
  obtain ⟨c, hc, hst⟩ := refRun_stands hin hk.le h
  unfold Isa.step at hx
  cases hf : t.fetch s.pc with
  | none =>
    rw [hf] at hx
    cases hx
  | some i =>
    rw [hf] at hx
    exact (refRun_succ mem hc).trans (hst.ends hk (isaRun_holds hin h) hf hx)

/-- **The designs agree on the steps of the machine**, and no word of the text changes. -/
theorem conforming_isa (hk : k ≤ 2000000) (h : isaRun t mem k = .ok s) : Conforming mem k := by
  intro j hj
  obtain ⟨p, hp⟩ := isaRun_prev hj.le h
  obtain ⟨p', hp'⟩ := isaRun_prev (Nat.succ_le_of_lt hj) h
  rw [isaRun_succ hp] at hp'
  obtain ⟨i, hf, he⟩ := step_exec hp'
  obtain ⟨c, hc, hst⟩ := refRun_stands hin (hj.le.trans hk) hp
  have htext := isaRun_holds hin hp
  obtain ⟨-, -, hr⟩ := hst.word htext hf
  refine ⟨c, i.encode, hc, ⟨hst.fetches (lt_of_lt_of_le hj hk) htext hf, hr, ?_⟩, ?_⟩
  · exact @Instr.exec_agreeing t i p p' (c.atFetch .low) hst.regs testFlags he
  · intro l hl c' hc'
    obtain ⟨q, hq⟩ := isaRun_prev (hl.trans hj.le) h
    obtain ⟨c₁, hc₁, hst₁⟩ := refRun_stands hin ((hl.trans hj.le).trans hk) hq
    obtain rfl := Except.ok.inj (hc₁.symm.trans hc')
    rw [wordAt_ram hst₁.mem hr, hst.pc]
    exact (fetch_word hf).2.2 _ (isaRun_holds hin hq)

end

end HduCpu
