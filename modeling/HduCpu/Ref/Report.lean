import HduCpu.Ref.Envelope

/-!
# What a step of the reference reports

`exec` clears `debug_reg_num` and `debug_reg_wdata`, and only `set_GPR` writes them and the
registers.  No instruction calls it twice, so that after a step the two fields tell exactly what has
become of the registers.

* `Untouched`              no register has been written yet;
* `Reported`               the fields tell of the one write, register 0 standing for none;
* `RvCore.decodeExec_reported`, `exec_reported`   an instruction and a step.
-/

namespace HduCpu

section
variable {δ : Type} (regs : BitVec 5 → BitVec 64)

/-- no register has been written since `exec` began -/
structure Untouched (c : RvCore δ) : Prop where
  regNum : c.debugRegNum = 0
  gpr : c.GPR = regs

/-- the debug fields tell what has become of the registers -/
def Reported (c : RvCore δ) : Prop :=
  ∃ r : BitVec 5, c.debugRegNum = r.setWidth 64 ∧
    c.GPR = if r != 0 then Function.update regs r c.debugRegWdata else regs

/-- any error at all -/
def AnyHalt : Halt → Prop := fun _ => True

variable {regs}

theorem Untouched.reported {c : RvCore δ} (h : Untouched regs c) : Reported regs c :=
  ⟨0, h.regNum, h.gpr⟩

/-- An access touches neither the registers nor the debug fields. -/
theorem Untouched.access {c : RvCore δ} (h : Untouched regs c) (priv : RvPriv) (bus : Systembus δ) :
    Untouched regs { c with priv := priv, bus := bus } :=
  ⟨h.regNum, h.gpr⟩

theorem ends_any {α : Type} (x : Except Halt α) : Ends (fun _ => True) AnyHalt x := by
  cases x <;> trivial

end

namespace RvCore
section
variable {δ : Type} {regs : BitVec 5 → BitVec 64} {c : RvCore δ} (h : Untouched regs c)
include h

theorem setGPR_reported (r : BitVec 5) (v : BitVec 64) : Reported regs (c.setGPR r v) := by
  refine ⟨r, rfl, ?_⟩
  show (if r != 0 then Function.update c.GPR r v else c.GPR) = _
  rw [h.gpr]
  rfl

theorem raise_untouched (code : RvExcCode) (tval : BitVec 64) :
    Ends (Untouched regs) AnyHalt (c.raise code tval) :=
  (ends_any _).bind fun _ _ => ⟨h.regNum, h.gpr⟩

theorem trap_untouched (code : RvExcCode) (tval : BitVec 64) :
    Ends (fun e => Untouched regs e.core) AnyHalt (c.trap code tval) :=
  (raise_untouched h code tval).bind fun _ hc => hc

theorem jumpLink_reported (rd : BitVec 5) (npc : BitVec 64) :
    Ends (fun e => Reported regs e.core) AnyHalt (c.jumpLink rd npc) :=
  ends_ite (fun _ => (trap_untouched h _ _).imp fun _ he => he.reported)
    fun _ => setGPR_reported ⟨h.regNum, h.gpr⟩ rd (c.pc + 4)

theorem branch_reported (inst : BitVec 32) :
    Ends (fun e => Reported regs e.core) AnyHalt (c.branch inst) := by
  unfold branch
  split
  · exact h.reported
  · exact h.reported
  · have hb : Untouched regs { c with debugIsBranch := true } := ⟨h.regNum, h.gpr⟩
    refine ends_ite (fun _ => ?_) fun _ => hb.reported
    exact (raise_untouched hb _ _).bind fun _ hc => hc.reported

theorem computed_reported (inst : BitVec 32) (o : Option AluOp) (b : BitVec 64) (op32 : Bool) :
    Ends (fun e => Reported regs e.core) AnyHalt (c.computed inst o b op32) := by
  cases o with
  | none => exact h.reported
  | some op => exact (ends_any _).bind fun v _ => setGPR_reported h _ v

theorem amoEnd_reported (inst : BitVec 32) (r : RvPriv.VaRes δ) (v : BitVec 64) :
    Ends (fun e => Reported regs e.core) AnyHalt (c.amoEnd inst r v) := by
  have h' := h.access r.priv r.bus
  exact ends_ite (fun _ => setGPR_reported h' _ v)
    fun _ => (trap_untouched h' _ _).imp fun _ he => he.reported

theorem privEnd_reported (o : Option RvPriv) :
    Ends (fun e => Reported regs e.core) AnyHalt (c.privEnd o) := by
  cases o with
  | none => exact h.reported
  | some p => exact (h.access p c.bus).reported

theorem execPriv_reported (flags : Flags) (inst : BitVec 32) :
    Ends (fun e => Reported regs e.core) AnyHalt (c.execPriv flags inst) := by
  have hset : ∀ x : Except Halt RvPriv, Ends (fun e => Reported regs e.core) AnyHalt
      (x >>= fun p => { c with priv := p }.done) := fun x =>
    (ends_any x).bind fun p _ => (h.access p c.bus).reported
  unfold execPriv
  simp only
  refine ends_ite (fun _ => ?_) fun _ => ?_
  · refine ends_ite (fun _ => h.reported) fun _ => ends_ite (fun _ => ?_) fun _ => ?_
    · exact ends_ite (fun _ => trivial) fun _ => hset _
    · exact ends_ite (fun _ => ends_ite (fun _ => trivial) fun _ => hset _) fun _ => h.reported
  refine ends_ite (fun _ => ?_) fun _ => ?_
  · refine ends_ite (fun _ => h.reported) fun _ => ends_ite (fun _ => privEnd_reported h _) fun _ => ?_
    exact ends_ite (fun _ => h.reported) fun _ => h.reported
  refine ends_ite (fun _ => ?_) fun _ => ?_
  · exact ends_ite (fun _ => privEnd_reported h _) fun _ => h.reported
  · exact ends_ite (fun _ => privEnd_reported h _) fun _ => h.reported

theorem csrOp_reported (flags : Flags) (inst : BitVec 32) (write : Bool)
    (value : BitVec 64 → BitVec 64) :
    Ends (fun e => Reported regs e.core) AnyHalt (c.csrOp flags inst write value) := by
  unfold csrOp
  simp only
  refine ends_ite (fun _ => h.reported) fun _ => ?_
  split
  · exact h.reported
  rename_i old hold
  have hsome : ∀ p : RvPriv, Ends (fun e => Reported regs e.core) AnyHalt
      (if RvInstr.rd inst != 0 then ({ c with priv := p }.setGPR (RvInstr.rd inst) old).done
        else { c with priv := p }.done) := fun p =>
    ends_ite (fun _ => setGPR_reported (h.access p c.bus) _ _) fun _ => (h.access p c.bus).reported
  refine ends_ite (fun _ => (ends_any _).bind fun o _ => ?_) fun _ => hsome c.priv
  cases o with
  | none => exact h.reported
  | some p => exact hsome p

theorem system_reported (flags : Flags) (inst : BitVec 32) :
    Ends (fun e => Reported regs e.core) AnyHalt (c.system flags inst) := by
  rw [system_eq]
  refine ends_ite (fun _ => execPriv_reported h flags inst) fun _ => ?_
  cases c.csrForm inst with
  | none => exact h.reported
  | some f => exact csrOp_reported h flags inst f.1 f.2

variable [MmioDev δ]

theorem load_reported (inst : BitVec 32) :
    Ends (fun e => Reported regs e.core) AnyHalt (c.load inst) := by
  have hread : ∀ a size b : BitVec 64,
      Ends (fun r => Untouched regs r.1) AnyHalt (c.memRead a size b) := by
    intro a size b
    refine ends_ite (fun _ => (raise_untouched h _ _).bind fun _ hc => hc) fun _ => ?_
    refine (ends_any _).bind fun r _ => ?_
    have h' := h.access r.priv r.bus
    exact ends_ite (fun _ => h') fun _ => (raise_untouched h' _ _).bind fun _ hc => hc
  unfold load
  simp only
  split
  · exact h.reported
  · exact (hread _ _ _).bind fun r hr =>
      ends_ite (fun _ => setGPR_reported hr _ _) fun _ => hr.reported

theorem store_reported (flags : Flags) (inst : BitVec 32) :
    Ends (fun e => Reported regs e.core) AnyHalt (c.store flags inst) := by
  have hwrite : ∀ a size b : BitVec 64,
      Ends (Untouched regs) AnyHalt (c.memWrite flags a size b) := by
    intro a size b
    refine ends_ite (fun _ => raise_untouched h _ _) fun _ => (ends_any _).bind fun r _ => ?_
    have h' := h.access r.priv r.bus
    exact ends_ite (fun _ => h') fun _ => raise_untouched h' _ _
  unfold store
  simp only
  split
  · exact h.reported
  · exact (hwrite _ _ _).bind fun _ hc => hc.reported

theorem amo_reported (inst : BitVec 32) :
    Ends (fun e => Reported regs e.core) AnyHalt (c.amo inst) := by
  unfold amo
  simp only
  refine ends_ite (fun _ => h.reported) fun _ => ends_ite (fun _ => ?_) fun _ => ?_
  · exact ends_ite (fun _ => h.reported) fun _ => (ends_any _).bind fun r _ => amoEnd_reported h _ r _
  refine ends_ite (fun _ => ?_) fun _ => ends_ite (fun _ => ?_) fun _ => h.reported
  · exact (ends_any _).bind fun r _ => amoEnd_reported h _ r _
  · exact (ends_any _).bind fun r _ => amoEnd_reported h _ r _

/-- **An instruction reports what it does to the registers.** -/
theorem decodeExec_reported (flags : Flags) (inst : BitVec 32) :
    Ends (fun e => Reported regs e.core) AnyHalt (c.decodeExec flags inst) := by
  have hd : Untouched regs { c with debugInst := inst } := ⟨h.regNum, h.gpr⟩
  unfold decodeExec
  simp only
  refine ends_ite (fun _ => hd.reported) fun _ => ?_
  refine ends_ite (fun _ => setGPR_reported hd _ _) fun _ => ?_
  refine ends_ite (fun _ => setGPR_reported hd _ _) fun _ => ?_
  refine ends_ite (fun _ => jumpLink_reported hd _ _) fun _ => ?_
  refine ends_ite (fun _ => jumpLink_reported hd _ _) fun _ => ?_
  refine ends_ite (fun _ => branch_reported hd inst) fun _ => ?_
  refine ends_ite (fun _ => load_reported hd inst) fun _ => ?_
  refine ends_ite (fun _ => store_reported hd flags inst) fun _ => ?_
  refine ends_ite (fun _ => computed_reported hd inst _ _ _) fun _ => ?_
  refine ends_ite (fun _ => computed_reported hd inst _ _ _) fun _ => ?_
  refine ends_ite (fun _ => computed_reported hd inst _ _ _) fun _ => ?_
  refine ends_ite (fun _ => computed_reported hd inst _ _ _) fun _ => ?_
  refine ends_ite (fun _ => amo_reported hd inst) fun _ => ?_
  refine ends_ite (fun _ => hd.reported) fun _ => ?_
  exact ends_ite (fun _ => system_reported hd flags inst) fun _ => hd.reported

end

section
variable {δ : Type} {regs : BitVec 5 → BitVec 64}

theorem settle_reported {e : ExecState δ} (h : Reported regs e.core) (inst : BitVec 32)
    (rvc : Bool) : Ends (Reported regs) AnyHalt (e.settle inst rvc) := by
  rw [ExecState.settle_eq]
  have hraise : Ends (Reported regs) AnyHalt (if e.ri then
      e.core.raise RvExcCode.illegalInstr (inst.setWidth 64) else .ok e.core) :=
    ends_ite (fun _ => (ends_any _).bind fun _ _ => h) fun _ => h
  exact hraise.bind fun _ hc => hc

variable [MmioDev δ] {c : RvCore δ}

theorem fetchExec_reported (h : Untouched regs c) (flags : Flags) :
    Ends (Reported regs) AnyHalt (c.fetchExec flags) := by
  unfold fetchExec
  refine ends_ite (fun _ => settle_reported h.reported _ _) fun _ => ?_
  refine ends_ite (fun _ => ?_) fun _ => ?_
  · exact (trap_untouched h _ _).bind fun e he => settle_reported he.reported _ _
  refine (ends_any _).bind fun r _ => ?_
  have h' := h.access r.1.priv r.1.bus
  refine ends_ite (fun _ => ?_) fun _ => ?_
  · exact (trap_untouched h' _ _).bind fun e he => settle_reported he.reported _ _
  · exact (decodeExec_reported h' flags _).bind fun e he => settle_reported he _ _

/-- **A step reports what it does to the registers.** -/
theorem exec_reported (c : RvCore δ) (flags : Flags) (i : RvLines) :
    Ends (Reported c.GPR) AnyHalt (c.exec flags i.meip i.msip i.mtip i.seip) := by
  unfold exec
  refine ends_ite (fun _ => trivial) fun _ => ?_
  have hint : Ends (Untouched c.GPR) AnyHalt (RvCore.interrupts { c with
      debugPc := c.pc, debugIsBranch := false, debugRegNum := 0, debugRegWdata := 0 }
        i.meip i.msip i.mtip i.seip) := by
    unfold interrupts
    refine ends_ite (fun _ => (ends_any _).bind fun _ _ => ⟨rfl, rfl⟩) fun _ => ?_
    exact ends_ite (fun _ => (ends_any _).bind fun _ _ => ⟨rfl, rfl⟩) fun _ => ⟨rfl, rfl⟩
  refine hint.bind fun c₁ h₁ => (fetchExec_reported h₁ flags).bind fun c₂ h₂ => ?_
  exact (ends_any _).bind fun _ _ => h₂

end
end RvCore

end HduCpu
