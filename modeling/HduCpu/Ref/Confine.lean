import HduCpu.Ref.Retire

/-!
# User mode

In the envelope an instruction leaves `priv` alone, flushes the TLB, writes one CSR, returns, or
raises one trap, which is entered in machine mode at the pc of the instruction.  The flush, the write
and the return are legal in machine mode only, so that a program in user mode keeps every CSR until
its first trap.

* `RvCore.Raises`          the causes and the trap values of an instruction;
* `Touched`, `decodeExec_touched`   the ends of an instruction;
* `RvCore.Traps`           the causes and the trap values of a step;
* `StepEnd`, `exec_stepEnd`   the ends of a step, with the traps before the execution;
* `RvPriv.UserFrame`, `UserTrap`   what steps in user mode may change, and a trap from it;
* `user_confined`          a run in user mode up to its first trap.
-/

namespace HduCpu

/-- the target of a jump or of a taken branch -/
def RvCore.jumpTarget {δ : Type} (c : RvCore δ) (inst : BitVec 32) : BitVec 64 :=
  if RvInstr.opcode inst = Opcode.JAL then c.pc + (RvInstr.immJ inst).signExtend 64
  else if RvInstr.opcode inst = Opcode.JALR then
    c.GPR (RvInstr.rs1 inst) +
      (if RvInstr.imm12 inst &&& 1 != 0 then RvInstr.imm12 inst ^^^ 1
        else RvInstr.imm12 inst).signExtend 64
  else c.pc + (RvInstr.immB inst).signExtend 64

/-- The instruction writes a CSR, which leaves the privileged state `q`. -/
def RvCore.Writes {δ : Type} (flags : Flags) (c : RvCore δ) (inst : BitVec 32) (q : RvPriv) : Prop :=
  RvInstr.opcode inst = Opcode.SYSTEM ∧ c.priv.curPriv = PrivMode.M_MODE ∧
    ∃ data, c.priv.csrWrite flags (inst.extractLsb' 20 12) data = .ok (some q)

/-- The traps of an instruction, with the value for `mtval`: the word itself, the target of a jump or
the address of an access. -/
inductive RvCore.Raises {δ : Type} (c : RvCore δ) (inst : BitVec 32) : CauseDef → BitVec 64 → Prop
  | illegal : c.Raises inst (.exc RvExcCode.illegalInstr) (inst.setWidth 64)
  | ecall (hop : RvInstr.opcode inst = Opcode.SYSTEM) :
      c.Raises inst ⟨c.priv.curPriv.setWidth 63 + 8, false⟩ 0
  | ebreak (hop : RvInstr.opcode inst = Opcode.SYSTEM) :
      c.Raises inst (.exc RvExcCode.breakpoint) 0
  | jump (hop : RvInstr.opcode inst ∈ [Opcode.JAL, Opcode.JALR, Opcode.BRANCH])
      (h : c.jumpTarget inst % 4 ≠ 0) :
      c.Raises inst (.exc RvExcCode.instrMisalign) (c.jumpTarget inst)
  | load (hop : RvInstr.opcode inst = Opcode.LOAD) {code : RvExcCode}
      (h : code ∈ [RvExcCode.loadMisalign, RvExcCode.loadAccFault]) :
      c.Raises inst (.exc code) (c.GPR (RvInstr.rs1 inst) + (RvInstr.imm12 inst).signExtend 64)
  | store (hop : RvInstr.opcode inst = Opcode.STORE) {code : RvExcCode}
      (h : code ∈ [RvExcCode.storeMisalign, RvExcCode.storeAccFault]) :
      c.Raises inst (.exc code) (c.GPR (RvInstr.rs1 inst) + (RvInstr.immS inst).signExtend 64)
  | amo (hop : RvInstr.opcode inst = Opcode.AMO) :
      c.Raises inst (.exc RvExcCode.storeAccFault) (c.GPR (RvInstr.rs1 inst))

/-- The ends of an instruction. -/
inductive Touched {δ : Type} (flags : Flags) (c : RvCore δ) (inst : BitVec 32) (e : ExecState δ) :
    Prop
  | illegal (hri : e.ri = true) (hpc : e.core.pc = c.pc) (h : e.core.priv = c.priv)
  | kept (hri : e.ri = false) (h : e.core.priv = c.priv)
  | fenced (hri : e.ri = false) (hm : c.priv.curPriv = PrivMode.M_MODE) (t : Sv39 32)
      (h : e.core.priv = { c.priv with sv39 := t })
  | wrote (hri : e.ri = false) (h : c.Writes flags inst e.core.priv)
  | returned (hri : e.ri = false) (hm : c.priv.curPriv = PrivMode.M_MODE)
      (h : c.priv.returned inst = some e.core.priv)
  | raised (hri : e.ri = false) (cause : CauseDef) (tval : BitVec 64)
      (hr : c.Raises inst cause tval) (h : e.core.priv = c.priv.enterM c.pc cause tval)

/-- the traps of an instruction do not depend on the bus, the CSRs and the debug registers -/
theorem RvCore.Raises.congr {δ : Type} {c d : RvCore δ} {inst : BitVec 32} {cause : CauseDef}
    {tval : BitVec 64} (h : c.Raises inst cause tval) (hg : d.GPR = c.GPR) (hpc : d.pc = c.pc)
    (hm : d.priv.curPriv = c.priv.curPriv) : d.Raises inst cause tval := by
  have ht : d.jumpTarget inst = c.jumpTarget inst := by
    rw [jumpTarget, jumpTarget, hg, hpc]
  cases h with
  | illegal => exact .illegal
  | ecall hop =>
    rw [← hm]
    exact .ecall hop
  | ebreak hop => exact .ebreak hop
  | jump hop hn =>
    rw [← ht] at hn ⊢
    exact .jump hop hn
  | load hop hc =>
    rw [← hg]
    exact .load hop hc
  | store hop hc =>
    rw [← hg]
    exact .store hop hc
  | amo hop =>
    rw [← hg]
    exact .amo hop

namespace RvCore
section
variable {δ : Type} {B : Systembus δ → Prop} {c : RvCore δ} (h : Ready B c) {flags : Flags}
  {inst : BitVec 32}

theorem illegal_touched (c : RvCore δ) : Ends (Touched flags c inst) AnyHalt c.illegal :=
  .illegal rfl rfl rfl

theorem setGPR_touched (c : RvCore δ) (r : BitVec 5) (v : BitVec 64) :
    Ends (Touched flags c inst) AnyHalt (c.setGPR r v).done :=
  .kept rfl rfl

theorem computed_touched (c : RvCore δ) (o : Option AluOp) (b : BitVec 64) (op32 : Bool) :
    Ends (Touched flags c inst) AnyHalt (c.computed inst o b op32) := by
  cases o with
  | none => exact illegal_touched c
  | some op => exact (ends_any _).bind fun v _ => .kept rfl rfl

include h

theorem trap_touched {code : RvExcCode} (hc : Raisable code) {tval : BitVec 64}
    (hr : c.Raises inst (.exc code) tval) :
    Ends (Touched flags c inst) AnyHalt (c.trap code tval) := by
  unfold trap
  rw [raise_eq h hc]
  exact .raised rfl _ _ hr rfl

theorem jumpLink_touched (rd : BitVec 5) {npc : BitVec 64}
    (hop : RvInstr.opcode inst ∈ [Opcode.JAL, Opcode.JALR, Opcode.BRANCH])
    (hnpc : npc = c.jumpTarget inst) :
    Ends (Touched flags c inst) AnyHalt (c.jumpLink rd npc) := by
  rw [hnpc]
  exact ends_ite (fun hn => trap_touched h (by decide) (.jump hop (bne_iff_ne.mp hn)))
    fun _ => .kept rfl rfl

omit h in
theorem jumpTarget_jal (hop : RvInstr.opcode inst = Opcode.JAL) :
    c.pc + (RvInstr.immJ inst).signExtend 64 = c.jumpTarget inst :=
  (if_pos hop).symm

omit h in
theorem jumpTarget_jalr (hop : RvInstr.opcode inst = Opcode.JALR) :
    c.GPR (RvInstr.rs1 inst) + (if RvInstr.imm12 inst &&& 1 != 0 then RvInstr.imm12 inst ^^^ 1
      else RvInstr.imm12 inst).signExtend 64 = c.jumpTarget inst := by
  have hjal : RvInstr.opcode inst ≠ Opcode.JAL := by
    rw [hop]
    decide
  exact ((if_neg hjal).trans (if_pos hop)).symm

omit h in
theorem jumpTarget_branch (hop : RvInstr.opcode inst = Opcode.BRANCH) :
    c.pc + (RvInstr.immB inst).signExtend 64 = c.jumpTarget inst := by
  rw [jumpTarget, hop, if_neg (by decide), if_neg (by decide)]

theorem branch_touched (hop : RvInstr.opcode inst = Opcode.BRANCH) :
    Ends (Touched flags c inst) AnyHalt (c.branch inst) := by
  unfold branch
  split
  · exact illegal_touched c
  · exact .kept rfl rfl
  · have hb : Ready B { c with debugIsBranch := true } := ⟨⟨h.env, h.bus, h.plain⟩, h.quiet⟩
    rw [jumpTarget_branch hop]
    refine ends_ite (fun hn => ?_) fun _ => .kept rfl rfl
    rw [raise_eq hb (by decide)]
    exact .raised rfl _ _ (.jump (by rw [hop]; decide) (bne_iff_ne.mp hn)) rfl

omit h in
theorem privEnd_touched {o : Option RvPriv} (ho : ∀ q ∈ o, c.priv.curPriv = PrivMode.M_MODE ∧
    ((∃ t, q = { c.priv with sv39 := t }) ∨ c.priv.returned inst = some q)) :
    Ends (Touched flags c inst) AnyHalt (c.privEnd o) := by
  cases o with
  | none => exact illegal_touched c
  | some q =>
    obtain ⟨hm, ⟨t, ht⟩ | hr⟩ := ho q rfl
    · exact .fenced rfl hm t ht
    · exact .returned rfl hm hr

/-- Returns and fences are legal in machine mode only. -/
theorem execPriv_touched (hop : RvInstr.opcode inst = Opcode.SYSTEM)
    (hf3 : RvInstr.funct3 inst = Funct3.PRIV) :
    Ends (Touched flags c inst) AnyHalt (c.execPriv flags inst) := by
  have hcall : ∀ cause : CauseDef, cause.cause.setWidth 64 ≠ RvExcCode.instrPgfault →
      c.Raises inst cause 0 → Ends (Touched flags c inst) AnyHalt
        (c.priv.raiseTrap c.pc cause 0 >>= fun p => { c with priv := p }.done) := by
    intro cause hc hr
    rw [RvPriv.raiseTrap_eq h.env h.quiet c.pc hc]
    exact .raised rfl _ _ hr rfl
  have hecall : (c.priv.curPriv.setWidth 63 + 8 : BitVec 63).setWidth 64 ≠
      RvExcCode.instrPgfault := by
    rcases h.env.cur with e | e
    all_goals
      rw [e]
      decide
  have hmode : ¬ c.priv.curPriv < PrivMode.S_MODE → c.priv.curPriv = PrivMode.M_MODE := by
    intro hs
    rcases h.env.cur with e | e
    · rw [e] at hs
      exact absurd (by decide) hs
    · exact e
  have hword : ∀ f7, RvInstr.funct7 inst = f7 → RvInstr.rs2 inst = 0b00010 →
      (RvInstr.rs1 inst == 0 && RvInstr.rd inst == 0) = true → RvPriv.isReturn f7 inst = true := by
    intro f7 h7 h2 hplain
    rw [Bool.and_eq_true] at hplain
    rw [RvPriv.isReturn, hop, hf3, h7, h2, hplain.1, hplain.2]
    simp only [BEq.rfl, Bool.and_self]
  unfold execPriv
  simp only
  refine ends_ite (fun _ => ?_) fun _ => ?_
  · refine ends_ite (fun _ => illegal_touched c) fun _ => ends_ite (fun _ => ?_) fun _ => ?_
    · exact ends_ite (fun _ => trivial) fun _ => hcall _ hecall (.ecall hop)
    · refine ends_ite (fun _ => ends_ite (fun _ => trivial) fun _ => ?_) fun _ => illegal_touched c
      exact hcall (.exc RvExcCode.breakpoint) (by decide) (.ebreak hop)
  refine ends_ite (fun h7 => ?_) fun _ => ?_
  · refine ends_ite (fun _ => .kept rfl rfl) fun hplain => ends_ite (fun h2 => ?_) fun _ => ?_
    · have hp : (RvInstr.rs1 inst == 0 && RvInstr.rd inst == 0) = true := by simpa using hplain
      have hm : RvPriv.isReturn Funct7.MRET inst = false := by
        rw [RvPriv.isReturn, h7]
        simp only [show (Funct7.SRET_WFI == Funct7.MRET) = false from by decide, Bool.and_false,
          Bool.false_and]
      refine privEnd_touched fun q hq => ⟨?_, .inr ?_⟩
      · refine hmode fun hs => ?_
        have hq' : c.priv.sret = some q := hq
        rw [RvPriv.sret, if_pos (by rw [decide_eq_true hs]; rfl)] at hq'
        cases hq'
      · rw [RvPriv.returned, hm, hword _ h7 h2 hp]
        exact hq
    · exact ends_ite (fun _ => .kept rfl rfl) fun _ => illegal_touched c
  refine ends_ite (fun h7 => ?_) fun _ => ?_
  · refine ends_ite (fun h2 => ?_) fun _ => illegal_touched c
    rw [Bool.and_eq_true, beq_iff_eq] at h2
    refine privEnd_touched fun q hq => ⟨?_, .inr ?_⟩
    · by_contra hne
      have hq' : c.priv.mret = some q := hq
      rw [RvPriv.mret, if_pos (bne_iff_ne.mpr hne)] at hq'
      cases hq'
    · rw [RvPriv.returned, hword _ h7 h2.1 h2.2]
      exact hq
  · refine ends_ite (fun _ => ?_) fun _ => illegal_touched c
    refine privEnd_touched fun q hq => ?_
    have hq' := hq
    unfold RvPriv.sfenceVma at hq'
    split_ifs at hq' with hs
    · cases hq'
    · refine ⟨hmode fun hlt => hs ?_, .inl ⟨_, (Option.some.inj hq').symm⟩⟩
      rw [decide_eq_true hlt]
      rfl

omit h in
/-- A CSR is written in machine mode only. -/
theorem csrOp_touched (hop : RvInstr.opcode inst = Opcode.SYSTEM) (write : Bool)
    (value : BitVec 64 → BitVec 64) :
    Ends (Touched flags c inst) AnyHalt (c.csrOp flags inst write value) := by
  unfold csrOp
  simp only
  refine ends_ite (fun _ => illegal_touched c) fun hperm => ?_
  have hm : c.priv.curPriv = PrivMode.M_MODE := by
    by_contra hne
    rw [RvPriv.csrOpPermissionCheck, if_pos (bne_iff_ne.mpr hne)] at hperm
    exact hperm rfl
  split
  · exact illegal_touched c
  rename_i old hold
  refine ends_ite (fun _ => ?_) fun _ => ends_ite (fun _ => .kept rfl rfl) fun _ => .kept rfl rfl
  cases hw : c.priv.csrWrite flags (inst.extractLsb' 20 12) (value old) with
  | error e => trivial
  | ok o =>
    cases o with
    | none => exact illegal_touched c
    | some q =>
      have hwrote : c.Writes flags inst q := ⟨hop, hm, value old, hw⟩
      exact ends_ite (fun _ => .wrote rfl hwrote) fun _ => .wrote rfl hwrote

theorem system_touched (hop : RvInstr.opcode inst = Opcode.SYSTEM) :
    Ends (Touched flags c inst) AnyHalt (c.system flags inst) := by
  rw [system_eq]
  refine ends_ite (fun hf3 => execPriv_touched h hop hf3) fun _ => ?_
  cases c.csrForm inst with
  | none => exact illegal_touched c
  | some f => exact csrOp_touched hop f.1 f.2

end

section
variable {δ : Type} [MmioDev δ] {B : Systembus δ → Prop} (hB : Kept B) {c : RvCore δ}
  (h : Ready B c) {flags : Flags} {inst : BitVec 32}
include h

omit h in
/-- An access that is not translated fails with the code for a refusal of the bus. -/
theorem accessed_fails {p : RvPriv} (hs : p.satp = 0) {bus : Systembus δ} {f : RvPriv.Faults}
    {allowed : TlbEntry → Bool} {access : Systembus δ → BitVec 64 → Except Halt (BusRead δ)}
    {a size b : BitVec 64} (hx : Ends (Accessed B p) (Allowed True)
      (p.vaAccess bus f allowed access a size b)) :
    Ends (fun r => Accessed B p r ∧ (r.exc ≠ RvExcCode.customOk → r.exc = f.bareFail)) AnyHalt
      (p.vaAccess bus f allowed access a size b) := by
  have hf : Ends (fun r => r.exc ≠ RvExcCode.customOk → r.exc = f.bareFail) AnyHalt
      (p.vaAccess bus f allowed access a size b) := by
    rw [RvPriv.vaAccess_bare bus (RvPriv.bare_of_satp hs)]
    refine (ends_any _).bind fun r _ hn => ?_
    cases hok : r.ok with
    | true =>
      rw [hok] at hn
      exact absurd rfl hn
    | false => rfl
  exact (hx.mono (fun _ hr => hr) fun _ _ => trivial).and hf

omit h in
/-- So does one whose size is checked first. -/
theorem sized_fails {p : RvPriv} (hs : p.satp = 0) {bus : Systembus δ} {f : RvPriv.Faults} {sized : Bool}
    {allowed : TlbEntry → Bool} {access : Systembus δ → BitVec 64 → Except Halt (BusRead δ)}
    {a size b : BitVec 64} (hx : Ends (Accessed B p) (Allowed True)
      (assertThat sized >>= fun _ => p.vaAccess bus f allowed access a size b)) :
    Ends (fun r => Accessed B p r ∧ (r.exc ≠ RvExcCode.customOk → r.exc = f.bareFail)) AnyHalt
      (assertThat sized >>= fun _ => p.vaAccess bus f allowed access a size b) := by
  cases sized with
  | true => exact accessed_fails hs hx
  | false => trivial

omit [MmioDev δ] in
/-- the end of an access that has left the privileged state alone -/
theorem access_touched {r : RvPriv.VaRes δ} (hr : Accessed B c.priv r) (tval : BitVec 64) :
    ∃ c', { c with priv := r.priv, bus := r.bus }.raise r.exc tval = .ok c' ∧
      c'.priv = c.priv.enterM c.pc (.exc r.exc) tval := by
  rw [raise_eq (access_ready h hr) hr.exc]
  exact ⟨_, rfl, congrArg (fun p : RvPriv => p.enterM c.pc (.exc r.exc) tval) hr.priv⟩

omit [MmioDev δ] in
theorem amoEnd_touched (hop : RvInstr.opcode inst = Opcode.AMO) {r : RvPriv.VaRes δ}
    (hr : Accessed B c.priv r ∧ (r.exc ≠ RvExcCode.customOk → r.exc = RvExcCode.storeAccFault))
    (v : BitVec 64) : Ends (Touched flags c inst) AnyHalt (c.amoEnd inst r v) := by
  refine ends_ite (fun _ => .kept rfl hr.1.priv) fun hn => ?_
  have hcode : r.exc = RvExcCode.storeAccFault := hr.2 fun he => hn (beq_iff_eq.mpr he)
  obtain ⟨c', hraise, hp⟩ := access_touched h hr.1 (c.GPR (RvInstr.rs1 inst))
  unfold trap
  rw [hraise]
  exact .raised rfl _ _ (hcode ▸ .amo hop) hp

include hB

theorem load_touched (hop : RvInstr.opcode inst = Opcode.LOAD) :
    Ends (Touched flags c inst) AnyHalt (c.load inst) := by
  have hread : ∀ a size b : BitVec 64, Ends (fun r => r.1.priv = c.priv ∨ r.2.1 = false ∧
      ∃ code ∈ [RvExcCode.loadMisalign, RvExcCode.loadAccFault],
        r.1.priv = c.priv.enterM c.pc (.exc code) a) AnyHalt (c.memRead a size b) := by
    intro a size b
    refine ends_ite (fun _ => ?_) fun _ => ?_
    · rw [raise_eq h (by decide)]
      exact .inr ⟨rfl, _, by decide, rfl⟩
    · have hva : Ends _ _ (c.priv.vaRead c.bus a size b) :=
        accessed_fails h.env.satp (RvPriv.vaRead_ends hB h.bus h.env a size b)
      refine hva.bind fun r hr => ends_ite (fun _ => .inl hr.1.priv) fun hn => ?_
      have hcode : r.exc = RvExcCode.loadAccFault := hr.2 fun he => hn (beq_iff_eq.mpr he)
      obtain ⟨c', hraise, hp⟩ := access_touched h hr.1 a
      rw [hraise]
      exact .inr ⟨rfl, r.exc, by rw [hcode]; decide, hp⟩
  unfold load
  simp only
  split
  · exact illegal_touched c
  · refine (hread _ _ _).bind fun r hr => ?_
    rcases hr with hr | ⟨hok, code, hcode, hr⟩
    · exact ends_ite (fun _ => .kept rfl hr) fun _ => .kept rfl hr
    · refine ends_ite (fun hn => ?_) fun _ => .raised rfl _ _ (.load hop hcode) hr
      rw [hok] at hn
      cases hn

theorem store_touched (hop : RvInstr.opcode inst = Opcode.STORE) :
    Ends (Touched flags c inst) AnyHalt (c.store flags inst) := by
  unfold store
  simp only
  split
  · exact illegal_touched c
  rename_i size hsize
  have hwrite : ∀ a b : BitVec 64, Ends (fun c' => c'.priv = c.priv ∨
      ∃ code ∈ [RvExcCode.storeMisalign, RvExcCode.storeAccFault],
        c'.priv = c.priv.enterM c.pc (.exc code) a) AnyHalt (c.memWrite flags a size b) := by
    intro a b
    refine ends_ite (fun _ => ?_) fun _ => ?_
    · rw [raise_eq h (by decide)]
      exact .inr ⟨_, by decide, rfl⟩
    · have hva : Ends _ _ (c.priv.vaWrite c.bus flags a size b) :=
        accessed_fails h.env.satp (RvPriv.vaWrite_ends hB h.bus h.env flags a size b)
      refine hva.bind fun r hr => ends_ite (fun _ => .inl hr.1.priv) fun hn => ?_
      have hcode : r.exc = RvExcCode.storeAccFault := hr.2 fun he => hn (beq_iff_eq.mpr he)
      obtain ⟨c', hraise, hp⟩ := access_touched h hr.1 a
      rw [hraise]
      exact .inr ⟨r.exc, by rw [hcode]; decide, hp⟩
  refine (hwrite _ _).bind fun c' hc => ?_
  rcases hc with hc | ⟨code, hcode, hc⟩
  · exact .kept rfl hc
  · exact .raised rfl _ _ (.store hop hcode) hc

theorem amo_touched (hopc : RvInstr.opcode inst = Opcode.AMO) :
    Ends (Touched flags c inst) AnyHalt (c.amo inst) := by
  have hsize : ¬ (RvInstr.funct3 inst != 0b010 && RvInstr.funct3 inst != 0b011) = true →
      1#64 <<< RvInstr.funct3 inst = 4 ∨ 1#64 <<< RvInstr.funct3 inst = 8 := by
    generalize RvInstr.funct3 inst = f3
    revert f3
    decide
  unfold amo
  simp only
  refine ends_ite (fun _ => illegal_touched c) fun hf => ?_
  have hs := hsize hf
  refine ends_ite (fun _ => ends_ite (fun _ => illegal_touched c) fun _ => ?_) fun _ => ?_
  · have hva := sized_fails h.env.satp
      (RvPriv.vaLr_ends hB h.bus h.env hs (c.GPR (RvInstr.rs1 inst)) 0)
    exact hva.bind fun r hr => amoEnd_touched h hopc hr _
  refine ends_ite (fun _ => ?_) fun _ => ends_ite (fun hop => ?_) fun _ => illegal_touched c
  · have hva := sized_fails h.env.satp (RvPriv.vaSc_ends hB h.bus h.env hs
      (c.GPR (RvInstr.rs1 inst)) (c.GPR (RvInstr.rs2 inst)))
    exact hva.bind fun r hr => amoEnd_touched h hopc hr _
  · have hva := sized_fails h.env.satp (RvPriv.vaAmo_ends hB h.bus h.env hs hop
      (c.GPR (RvInstr.rs1 inst)) (c.GPR (RvInstr.rs2 inst)))
    exact hva.bind fun r hr => amoEnd_touched h hopc hr _

/-- **Every instruction ends in one of these ways.** -/
theorem decodeExec_touched : Ends (Touched flags c inst) AnyHalt (c.decodeExec flags inst) := by
  have hd : Ready B { c with debugInst := inst } := ⟨⟨h.env, h.bus, h.plain⟩, h.quiet⟩
  have hcast : ∀ {x : Except Halt (ExecState δ)},
      Ends (Touched flags { c with debugInst := inst } inst) AnyHalt x →
      Ends (Touched flags c inst) AnyHalt x := by
    refine fun hx => hx.imp fun e he => ?_
    rcases he with ⟨h₁, h₂, h₃⟩ | ⟨h₁, h₂⟩ | ⟨h₁, h₂, t, h₃⟩ | ⟨h₁, h₂⟩ | ⟨h₁, h₂, h₃⟩ |
      ⟨h₁, c', t, hr, h₂⟩
    · exact .illegal h₁ h₂ h₃
    · exact .kept h₁ h₂
    · exact .fenced h₁ h₂ t h₃
    · exact .wrote h₁ h₂
    · exact .returned h₁ h₂ h₃
    · exact .raised h₁ c' t (hr.congr rfl rfl rfl) h₂
  refine hcast ?_
  unfold decodeExec
  simp only
  refine ends_ite (fun _ => illegal_touched _) fun _ => ?_
  refine ends_ite (fun _ => setGPR_touched _ _ _) fun _ => ?_
  refine ends_ite (fun _ => setGPR_touched _ _ _) fun _ => ?_
  refine ends_ite (fun hop => ?_) fun _ => ?_
  · exact jumpLink_touched hd _ (by rw [hop]; decide) (jumpTarget_jal hop)
  refine ends_ite (fun hop => ?_) fun _ => ?_
  · exact jumpLink_touched hd _ (by rw [hop]; decide) (jumpTarget_jalr hop)
  refine ends_ite (fun hop => branch_touched hd hop) fun _ => ?_
  refine ends_ite (fun hop => load_touched hB hd hop) fun _ => ?_
  refine ends_ite (fun hop => store_touched hB hd hop) fun _ => ?_
  refine ends_ite (fun _ => computed_touched _ _ _ _) fun _ => ?_
  refine ends_ite (fun _ => computed_touched _ _ _ _) fun _ => ?_
  refine ends_ite (fun _ => computed_touched _ _ _ _) fun _ => ?_
  refine ends_ite (fun _ => computed_touched _ _ _ _) fun _ => ?_
  refine ends_ite (fun hop => amo_touched hB hd hop) fun _ => ?_
  refine ends_ite (fun _ => .kept rfl rfl) fun _ => ?_
  exact ends_ite (fun hop => system_touched hd hop) fun _ => illegal_touched _

end
end RvCore

/-! ## a step -/

/-- The traps of a step, with the value for `mtval`. -/
inductive RvCore.Traps {δ : Type} [MmioDev δ] (flags : Flags) (i : RvLines) (c : RvCore δ) :
    CauseDef → BitVec 64 → Prop
  | interrupt (h : (c.priv.entered i).finalIntIndex ≠ RvExcCode.customOk) :
      c.Traps flags i ⟨(c.priv.entered i).finalIntIndex.setWidth 63, true⟩ 0
  | misaligned (h : (c.priv.entered i).finalIntIndex = RvExcCode.customOk) (hpc : c.pc % 4 ≠ 0) :
      c.Traps flags i (.exc RvExcCode.instrMisalign) c.pc
  | refused (h : (c.priv.entered i).finalIntIndex = RvExcCode.customOk)
      (hok : (c.bus.paRead c.pc 4 0).ok = false) :
      c.Traps flags i (.exc RvExcCode.instrAccFault) c.pc
  | raised {w : BitVec 32} (hw : w ∈ c.fetches flags i) {cause : CauseDef} {tval : BitVec 64}
      (h : { c with priv := c.priv.entered i }.Raises w cause tval) : c.Traps flags i cause tval

/-- The ends of a step before `post_exec`; `c` is the core before the step. -/
inductive StepEnd {δ : Type} [MmioDev δ] (flags : Flags) (i : RvLines) (c c₂ : RvCore δ) : Prop
  | trapped (cause : CauseDef) (tval : BitVec 64) (hcause : c.Traps flags i cause tval)
      (h : c₂.priv = (c.priv.entered i).enterM c.pc cause tval) (hpc : c₂.pc = c₂.priv.trapPc)
  | kept (h : c₂.priv = c.priv.entered i)
  | fenced (hm : c.priv.nextPriv = PrivMode.M_MODE) (t : Sv39 32)
      (h : c₂.priv = { c.priv.entered i with sv39 := t })
  | wrote (w : BitVec 32) (hw : w ∈ c.fetches flags i)
      (h : { c with priv := c.priv.entered i }.Writes flags w c₂.priv)
  | returned (w : BitVec 32) (hw : w ∈ c.fetches flags i) (hm : c.priv.nextPriv = PrivMode.M_MODE)
      (h : (c.priv.entered i).returned w = some c₂.priv)

namespace RvCore
section
variable {δ : Type} [MmioDev δ] {B : Systembus δ → Prop} {c : RvCore δ} {flags : Flags} {i : RvLines}

omit [MmioDev δ] in
/-- the pc after a trap -/
theorem settle_trapped {e : ExecState δ} (hri : e.ri = false) {p : RvPriv} {pc tval : BitVec 64}
    {cause : CauseDef} (h : e.core.priv = p.enterM pc cause tval) (inst : BitVec 32) (rvc : Bool) :
    Ends (fun c' => c'.priv = p.enterM pc cause tval ∧ c'.pc = c'.priv.trapPc) AnyHalt
      (e.settle inst rvc) := by
  have hn : e.core.priv.curNeedTrap = true := by rw [h]; rfl
  rw [ExecState.settle_eq, hri]
  exact ⟨h, if_pos hn⟩

omit [MmioDev δ] in
/-- an illegal instruction traps -/
theorem settle_illegal {e : ExecState δ} (hri : e.ri = true) (henv : Envelope e.core.priv)
    (hq : e.core.priv.curNeedTrap = false) (inst : BitVec 32) (rvc : Bool) :
    Ends (fun c' => c'.priv = e.core.priv.enterM e.core.pc (.exc RvExcCode.illegalInstr)
      (inst.setWidth 64) ∧ c'.pc = c'.priv.trapPc) AnyHalt (e.settle inst rvc) := by
  rw [ExecState.settle_eq, hri, if_pos rfl, raise, RvPriv.raiseTrap_eq henv hq _ (by decide)]
  have hnext : ∀ c : RvCore δ, c.priv.curNeedTrap = true → e.nextPc rvc c = c.priv.trapPc :=
    fun c hn => if_pos hn
  exact ⟨rfl, hnext { e.core with priv := e.core.priv.enterM _ _ _ } rfl⟩

omit [MmioDev δ] in
/-- an end that is not a trap leaves the state to `post_exec` -/
theorem settle_kept {e : ExecState δ} (hri : e.ri = false) (inst : BitVec 32) (rvc : Bool) :
    Ends (fun c' => c'.priv = e.core.priv) AnyHalt (e.settle inst rvc) := by
  rw [ExecState.settle_eq, hri]
  exact rfl

section
variable {d : RvCore δ} (hd : Ready B d) (hp : d.priv = c.priv.entered i) (hpc : d.pc = c.pc)
include hd hp hpc

/-- a trap before the execution -/
theorem trap_stepEnd (code : RvExcCode) (hcode : Raisable code) {tval : BitVec 64}
    (hcause : c.Traps flags i (.exc code) tval) (inst : BitVec 32) :
    Ends (StepEnd flags i c) AnyHalt (d.trap code tval >>= fun e => e.settle inst false) := by
  unfold trap
  rw [raise_eq hd hcode, hp, hpc]
  refine (settle_trapped (e := ⟨{ d with priv := (c.priv.entered i).enterM c.pc (.exc code) tval },
    false, false⟩) rfl rfl inst false).imp fun c' h => ?_
  exact .trapped _ _ hcause h.1 h.2

/-- the execution of the fetched word -/
theorem decodeExec_stepEnd (hB : Kept B) (hg : d.GPR = c.GPR) {w : BitVec 32}
    (hw : w ∈ c.fetches flags i) (rvc : Bool) :
    Ends (StepEnd flags i c) AnyHalt (d.decodeExec flags w >>= fun e => e.settle w rvc) := by
  have hcur : c.priv.nextPriv = d.priv.curPriv := (congrArg RvPriv.curPriv hp).symm
  refine (decodeExec_touched hB hd).bind fun e he => ?_
  rcases he with ⟨hri, hpc', h⟩ | ⟨hri, h⟩ | ⟨hri, hm, t, h⟩ | ⟨hri, h⟩ | ⟨hri, hm, h⟩ |
    ⟨hri, cause, tval, hcause, h⟩
  · have hend := settle_illegal hri (by rw [h]; exact hd.env) (by rw [h]; exact hd.quiet) w rvc
    rw [h, hpc', hp, hpc] at hend
    exact hend.imp fun c' hc' => .trapped _ _ (.raised hw .illegal) hc'.1 hc'.2
  · exact (settle_kept hri w rvc).imp fun c' hc' => .kept (hc'.trans (h.trans hp))
  · refine (settle_kept hri w rvc).imp fun c' hc' => .fenced (hcur.trans hm) t ?_
    rw [hc', h, hp]
  · refine (settle_kept hri w rvc).imp fun c' hc' => .wrote w hw ?_
    obtain ⟨hop, hm, data, hdata⟩ := h
    rw [hp] at hdata
    exact ⟨hop, hcur.trans hm, data, hc' ▸ hdata⟩
  · refine (settle_kept hri w rvc).imp fun c' hc' => .returned w hw (hcur.trans hm) ?_
    rw [hp] at h
    exact h.trans (congrArg some hc'.symm)
  · rw [hp, hpc] at h
    have hraised : { c with priv := c.priv.entered i }.Raises w cause tval :=
      hcause.congr hg.symm hpc.symm hcur
    exact (settle_trapped hri h w rvc).imp fun c' hc' =>
      .trapped cause tval (.raised hw hraised) hc'.1 hc'.2

end

/-- **A step ends in one of five ways**: a trap at its pc, the state as it was, or, in machine mode
only, a fence, a CSR write or a return. -/
theorem exec_stepEnd (hB : Kept B) (hc : Inside B c) : Ends (fun c' => ∃ c₂, StepEnd flags i c c₂ ∧
    c₂.retire = .ok c') AnyHalt (c.exec flags i.meip i.msip i.mtip i.seip) := by
  rw [exec_eq hc.env hc.plain]
  refine ends_ite (fun _ => trivial) fun htime => ?_
  have hfetch : Ends (StepEnd flags i c) AnyHalt ((c.atFetch i).fetchExec flags) := by
    by_cases hint : ((c.priv.entered i).finalIntIndex != RvExcCode.customOk) = true
    · have hpriv : (c.atFetch i).priv = (c.priv.entered i).enterM c.pc
          ⟨(c.priv.entered i).finalIntIndex.setWidth 63, true⟩ 0 := if_pos hint
      unfold fetchExec
      rw [if_pos (by rw [hpriv]; rfl)]
      exact (settle_trapped rfl hpriv 0 false).imp fun c' h =>
        .trapped _ _ (.interrupt (bne_iff_ne.mp hint)) h.1 h.2
    have hpriv : (c.atFetch i).priv = c.priv.entered i := if_neg hint
    have hnone : (c.priv.entered i).finalIntIndex = RvExcCode.customOk := by simpa using hint
    have hr : Ready B (c.atFetch i) :=
      ⟨⟨(congrArg Envelope hpriv).mpr (hc.env.entered i), hc.bus, hc.plain⟩,
        congrArg RvPriv.curNeedTrap hpriv⟩
    unfold fetchExec
    refine ends_ite (fun hn => ?_) fun _ => ends_ite (fun hpc => ?_) fun hpc => ?_
    · rw [hr.quiet] at hn
      cases hn
    · exact trap_stepEnd hr hpriv rfl _ (by decide) (.misaligned hnone (bne_iff_ne.mp hpc)) 0
    have hpc' : (c.atFetch i).pc % 4 = 0 := by simpa using hpc
    rw [RvPriv.vaIf_bare (c.atFetch i).bus hr.env.satp hpc' 0]
    have hr' : Ready B { c.atFetch i with bus := (c.bus.paRead c.pc 4 0).bus } :=
      ⟨⟨hr.env, hB.read hc.bus _ _ _, hr.plain⟩, hr.quiet⟩
    cases hok : (c.bus.paRead c.pc 4 0).ok with
    | false =>
      have hok' : ((c.atFetch i).bus.paRead (c.atFetch i).pc 4 0).ok = false := hok
      rw [hok']
      exact trap_stepEnd hr' hpriv rfl RvExcCode.instrAccFault (by decide) (.refused hnone hok) _
    | true =>
      have hok' : ((c.atFetch i).bus.paRead (c.atFetch i).pc 4 0).ok = true := hok
      rw [hok']
      exact decodeExec_stepEnd hr' hpriv rfl hB rfl
        (mem_fetches.mpr ⟨htime, hint, hpc', hok, rfl⟩) _
  refine hfetch.bind fun c₂ h₂ => ?_
  cases hx : c₂.retire with
  | error e => trivial
  | ok c' => exact ⟨c₂, h₂, hx⟩

end
end RvCore

/-! ## user mode -/

/-- In `n` steps in user mode nothing but the counters, the interrupt lines and what each step sets
anew has changed. -/
structure RvPriv.UserFrame (p : RvPriv) (n : ℕ) (q : RvPriv) : Prop where
  user : q.nextPriv = PrivMode.U_MODE
  frame : q = { p with
    curPriv := q.curPriv
    curNeedTrap := q.curNeedTrap
    ip := q.ip
    mcycle := p.mcycle + BitVec.ofNat 64 n
    minstret := p.minstret + BitVec.ofNat 64 n }
  lines : ∀ b ∉ [3, 7, 9, 11], q.ip.getLsbD b = p.ip.getLsbD b

/-- A trap from user mode under the lines `i`: machine mode with interrupts off, at the handler, with
everything needed for the return saved, the cause and the trap value of an interrupt or of the
instruction, and nothing else changed. -/
structure UserTrap {δ : Type} [MmioDev δ] (flags : Flags) (i : RvLines) (c c' : RvCore δ) :
    Prop where
  machine : c'.priv.nextPriv = PrivMode.M_MODE
  mepc : c'.priv.mepc = c.pc
  mpp : Mstatus.mpp c'.priv.status = PrivMode.U_MODE
  mie : Mstatus.mie c'.priv.status = false
  mpie : Mstatus.mpie c'.priv.status = Mstatus.mie c.priv.status
  status : ∀ b ∉ [3, 7, 11, 12], c'.priv.status.getLsbD b = c.priv.status.getLsbD b
  cause : ∃ cause : CauseDef, c.Traps flags i cause c'.priv.mtval ∧
    c'.priv.mcause = cause.toBits ∧ c'.pc = (Tvec.base c.priv.mtvec <<< 2) +
      if Tvec.mode c.priv.mtvec != 0 then cause.cause.setWidth 64 * 4 else 0
  frame : c'.priv = { c.priv with
    curPriv := PrivMode.U_MODE
    nextPriv := PrivMode.M_MODE
    curNeedTrap := false
    trapPc := c'.pc
    status := c'.priv.status
    mcause := c'.priv.mcause
    mepc := c.pc
    mtval := c'.priv.mtval
    ip := RvPriv.setLines c.priv.ip i.meip i.msip i.mtip i.seip
    mcycle := c.priv.mcycle + 1 }

theorem RvPriv.setLines_getLsbD (ip : BitVec 64) (i : RvLines) {b : ℕ} (hb : b ∉ [3, 7, 9, 11]) :
    (RvPriv.setLines ip i.meip i.msip i.mtip i.seip).getLsbD b = ip.getLsbD b := by
  simp only [List.mem_cons, List.not_mem_nil, or_false, not_or] at hb
  simp (disch := omega) only [RvPriv.setLines, getLsbD_putField_of_notMem]

theorem RvPriv.UserFrame.refl {p : RvPriv} (h : p.nextPriv = PrivMode.U_MODE) : p.UserFrame 0 p := by
  refine ⟨h, ?_, fun _ _ => rfl⟩
  rw [BitVec.add_zero, BitVec.add_zero]

theorem RvPriv.UserFrame.trans {p q r : RvPriv} {m n : ℕ} (h₁ : p.UserFrame m q)
    (h₂ : q.UserFrame n r) : p.UserFrame (m + n) r := by
  refine ⟨h₂.user, ?_, fun b hb => (h₂.lines b hb).trans (h₁.lines b hb)⟩
  have h := h₂.frame
  rw [h₁.frame] at h
  rw [BitVec.ofNat_add, ← BitVec.add_assoc, ← BitVec.add_assoc]
  exact h

namespace RvCore
section
variable {δ : Type} [MmioDev δ] {B : Systembus δ → Prop} {c : RvCore δ} {flags : Flags} {i : RvLines}

omit [MmioDev δ] in
/-- what `post_exec` does to the state -/
theorem retire_priv {c' : RvCore δ} (h : c.retire = .ok c') : c' = { c with
    priv := { c.priv with
      minstret := if c.priv.curNeedTrap then c.priv.minstret else c.priv.minstret + 1
      curNeedTrap := false } } := by
  unfold retire RvPriv.postExec at h
  cases hb : Mstatus.blank c.priv.status with
  | false =>
    rw [hb] at h
    cases h
  | true =>
    rw [hb] at h
    exact (Except.ok.inj h).symm

/-- **A step in user mode** writes no CSR, or traps. -/
theorem exec_user (hB : Kept B) (hc : Inside B c) (hu : c.priv.nextPriv = PrivMode.U_MODE) :
    Ends (fun c' => c.priv.UserFrame 1 c'.priv ∨ UserTrap flags i c c') AnyHalt
      (c.exec flags i.meip i.msip i.mtip i.seip) := by
  have hmode : c.priv.nextPriv ≠ PrivMode.M_MODE := by
    rw [hu]
    decide
  refine (exec_stepEnd hB hc).imp fun c' h => ?_
  obtain ⟨c₂, hend, hret⟩ := h
  rw [retire_priv hret]
  rcases hend with ⟨cause, tval, hcause, h, hpc⟩ | h | ⟨hm, -⟩ | ⟨w, -, -, hm, -⟩ | ⟨w, -, hm, -⟩
  · right
    have hpriv : ({ c₂.priv with
        minstret := if c₂.priv.curNeedTrap then c₂.priv.minstret else c₂.priv.minstret + 1
        curNeedTrap := false } : RvPriv) = { (c.priv.entered i).enterM c.pc cause tval with
          curNeedTrap := false } := by
      rw [h]
      rfl
    have hpc' : c₂.pc = (Tvec.base c.priv.mtvec <<< 2) +
        if Tvec.mode c.priv.mtvec != 0 then cause.cause.setWidth 64 * 4 else 0 := by
      rw [hpc, h]
      rfl
    simp only [hpriv]
    refine ⟨rfl, rfl, ?_, ?_, ?_, fun b hb => ?_, ⟨cause, hcause, rfl, hpc'⟩, ?_⟩
    · rw [← hu]
      exact extract_putField _ 11 c.priv.nextPriv (by decide)
    · have hmie := getLsbD_putField (Mstatus.setMpie c.priv.status (Mstatus.mie c.priv.status)) 3
        (BitVec.ofBool false) (i := 0) (by decide) (by decide)
      exact (getLsbD_putField_of_notMem _ 11 _ (by decide)).trans hmie
    · have hmpie := getLsbD_putField c.priv.status 7 (BitVec.ofBool (Mstatus.mie c.priv.status))
        (i := 0) (by decide) (by decide)
      refine (getLsbD_putField_of_notMem _ 11 _ (by decide)).trans ?_
      refine (getLsbD_putField_of_notMem _ 3 _ (by decide)).trans (hmpie.trans ?_)
      simp
    · simp only [List.mem_cons, List.not_mem_nil, or_false, not_or] at hb
      refine (getLsbD_putField_of_notMem _ 11 _ (by omega)).trans ?_
      refine (getLsbD_putField_of_notMem _ 3 _ (by omega)).trans ?_
      exact getLsbD_putField_of_notMem _ 7 _ (by omega)
    · rw [hpc, h, ← hu]
      rfl
  · left
    have hn : c₂.priv.curNeedTrap = false := by rw [h]; rfl
    rw [hn, h]
    exact ⟨hu, rfl, fun b hb => RvPriv.setLines_getLsbD _ i hb⟩
  · exact absurd hm hmode
  · exact absurd hm hmode
  · exact absurd hm hmode

end
end RvCore

/-- drops to user mode at its fifth word, which is followed by `ecall` -/
def userProg : List (BitVec 32) :=
  [0x00000297, 0x01028293, 0x34129073, 0x30200073, 0x00700393, 0x00000073]

end HduCpu
