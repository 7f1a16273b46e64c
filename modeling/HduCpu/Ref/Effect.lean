import HduCpu.Ref.Report

/-!
# What an instruction and a step do to the privileged state

`exec` from any state of the core.  An instruction that raises no trap changes `priv` by one CSR
write, one fence or one look-up of the TLB, or not at all; a trap is raised once, after that; `mret`
and `sret` change it by their own functions.

* `RvPriv.Quiet`, `Raised`, `returned`   the three ways, and what they keep;
* `RvCore.decodeExec_effect`   every instruction ends in one of them (`Effect`);
* `RvCore.issue`, `outcome`    the word with which a step comes to `decode_exec`, and how it ends;
* `RvPriv.Moves`           all changes of `priv` in a step before `post_exec`;
* `RvCore.exec_step`       what a step does to `priv`, and how its outcome and the flag agree.
-/

namespace HduCpu

namespace RvPriv

/-- the changes of `priv` that raise no trap -/
inductive Quiet (p : RvPriv) : RvPriv → Prop
  | same : Quiet p p
  | csr {flags : Flags} {a : BitVec 12} {data : BitVec 64} {q : RvPriv}
      (h : p.csrWrite flags a data = .ok (some q)) : Quiet p q
  | fence {vaddr asid : BitVec 64} {q : RvPriv} (h : p.sfenceVma vaddr asid = some q) : Quiet p q
  | tlb {δ : Type} [MmioDev δ] {bus bus' : Systembus δ} {satp va : BitVec 64}
      {e : Option TlbEntry} {t : Sv39 32}
      (h : p.sv39.localTlbeGet bus satp va = .ok (e, t, bus')) : Quiet p { p with sv39 := t }

/-- a trap raised after such a change -/
def Raised (p q : RvPriv) : Prop :=
  ∃ p' pc cause tval, p.Quiet p' ∧ p'.raiseTrap pc cause tval = .ok q

/-- the words of `mret` and `sret`, which differ in `funct7` -/
def isReturn (f7 : BitVec 7) (inst : BitVec 32) : Bool :=
  RvInstr.opcode inst == Opcode.SYSTEM && RvInstr.funct3 inst == Funct3.PRIV &&
    RvInstr.funct7 inst == f7 && RvInstr.rs2 inst == 0b00010 && RvInstr.rs1 inst == 0 &&
      RvInstr.rd inst == 0

/-- the state that `mret` or `sret` leaves, when the word is one of them and legal -/
def returned (p : RvPriv) (inst : BitVec 32) : Option RvPriv :=
  if isReturn Funct7.MRET inst then p.mret
  else if isReturn Funct7.SRET_WFI inst then p.sret
  else none

end RvPriv

/-- how an instruction ends, seen from `priv` -/
inductive Effect {δ : Type} (p : RvPriv) (inst : BitVec 32) (e : ExecState δ) : Prop
  | quiet (h : p.Quiet e.core.priv)
  | raised (hri : e.ri = false) (h : p.Raised e.core.priv)
  | returned (hri : e.ri = false) (h : p.returned inst = some e.core.priv)

/-! ## what they keep -/

namespace RvPriv
section
variable {p q : RvPriv}

/-- No CSR write reaches `minstret`, the flag of a trap or the TLB. -/
theorem csrWrite_keeps {flags : Flags} {a : BitVec 12} {data : BitVec 64}
    (h : p.csrWrite flags a data = .ok (some q)) :
    q.minstret = p.minstret ∧ q.curNeedTrap = p.curNeedTrap ∧ q.sv39 = p.sv39 := by
  have hall : Ends (fun o => ∀ q ∈ o, q.minstret = p.minstret ∧ q.curNeedTrap = p.curNeedTrap ∧
      q.sv39 = p.sv39) AnyHalt (p.csrWrite flags a data) := by
    have hsome : ∀ q : RvPriv, q.minstret = p.minstret → q.curNeedTrap = p.curNeedTrap →
        q.sv39 = p.sv39 → ∀ q' ∈ some q, q'.minstret = p.minstret ∧
          q'.curNeedTrap = p.curNeedTrap ∧ q'.sv39 = p.sv39 := by
      rintro q h₁ h₂ h₃ _ ⟨⟩
      exact ⟨h₁, h₂, h₃⟩
    unfold csrWrite
    repeat' refine ends_ite (fun _ => ?_) fun _ => ?_
    all_goals first
      | exact hsome _ rfl rfl rfl
      | exact (ends_any _).bind fun _ _ => hsome _ rfl rfl rfl
      | exact fun q hq => absurd hq (Option.not_mem_none q)
  exact hall.ok h q rfl

/-- **Without a trap** the counter and the flag stay as they are. -/
theorem Quiet.keeps (h : p.Quiet q) : q.minstret = p.minstret ∧ q.curNeedTrap = p.curNeedTrap := by
  cases h with
  | same => exact ⟨rfl, rfl⟩
  | csr h => exact ⟨(csrWrite_keeps h).1, (csrWrite_keeps h).2.1⟩
  | fence h =>
    unfold sfenceVma at h
    split at h
    · cases h
    · cases h
      exact ⟨rfl, rfl⟩
  | tlb h => exact ⟨rfl, rfl⟩

/-- A trap is entered in S mode or in M mode, and none has been raised before. -/
theorem raiseTrap_cases {pc : BitVec 64} {cause : CauseDef} {tval : BitVec 64}
    (h : p.raiseTrap pc cause tval = .ok q) :
    p.curNeedTrap = false ∧ (q = p.enterS pc cause tval ∨ q = p.enterM pc cause tval) := by
  have hall : Ends (fun q => p.curNeedTrap = false ∧ (q = p.enterS pc cause tval ∨
      q = p.enterM pc cause tval)) AnyHalt (p.raiseTrap pc cause tval) := by
    cases hn : p.curNeedTrap with
    | true =>
      unfold raiseTrap
      rw [hn]
      trivial
    | false =>
      refine (ends_any _).bind fun _ _ => (ends_any _).bind fun _ _ => ⟨rfl, ?_⟩
      cases p.trapToS cause with
      | true => exact .inl rfl
      | false => exact .inr rfl
  exact hall.ok h

/-- A trap sets the flag, which has been clear. -/
theorem raiseTrap_keeps {pc : BitVec 64} {cause : CauseDef} {tval : BitVec 64}
    (h : p.raiseTrap pc cause tval = .ok q) :
    q.minstret = p.minstret ∧ q.curNeedTrap = true ∧ q.sv39 = p.sv39 := by
  rcases (raiseTrap_cases h).2 with rfl | rfl
  · exact ⟨rfl, rfl, rfl⟩
  · exact ⟨rfl, rfl, rfl⟩

/-- A return is an `mret` or an `sret` that its function accepts. -/
theorem returned_cases {inst : BitVec 32} (h : p.returned inst = some q) :
    (isReturn Funct7.MRET inst = true ∧ p.mret = some q) ∨
      (isReturn Funct7.SRET_WFI inst = true ∧ p.sret = some q) := by
  unfold returned at h
  split_ifs at h with hm hs
  · exact .inl ⟨hm, h⟩
  · exact .inr ⟨hs, h⟩

/-- `mret` and `sret` set the flag as a trap does. -/
theorem returned_keeps {inst : BitVec 32} (h : p.returned inst = some q) :
    q.minstret = p.minstret ∧ q.curNeedTrap = true ∧ q.sv39 = p.sv39 := by
  rcases returned_cases h with ⟨-, h⟩ | ⟨-, h⟩
  · unfold mret at h
    split at h
    · cases h
    · cases h
      exact ⟨rfl, rfl, rfl⟩
  · unfold sret at h
    split at h
    · cases h
    · cases h
      exact ⟨rfl, rfl, rfl⟩

end
end RvPriv

/-! ## memory -/

namespace RvPriv
section
variable {δ : Type} [MmioDev δ] (p : RvPriv) (bus : Systembus δ)

theorem vaAccess_quiet (f : Faults) (allowed : TlbEntry → Bool)
    (access : Systembus δ → BitVec 64 → Except Halt (BusRead δ)) (a size b : BitVec 64) :
    Ends (fun r => p.Quiet r.priv) AnyHalt (p.vaAccess bus f allowed access a size b) := by
  unfold vaAccess
  refine ends_ite (fun _ => (ends_any _).bind fun _ _ => .same) fun _ => ?_
  refine ends_ite (fun _ => .same) fun _ => ?_
  cases h : p.sv39.localTlbeGet bus p.satp a with
  | error e => trivial
  | ok v =>
    obtain ⟨entry, t, bus'⟩ := v
    cases entry with
    | none => exact .tlb h
    | some e =>
      refine ends_ite (fun _ => .tlb h) fun _ => ends_ite (fun _ => .tlb h) fun _ => ?_
      exact ends_ite (fun _ => .tlb h) fun _ => (ends_any _).bind fun _ _ => .tlb h

/-- The fetch of a word at a multiple of four is one access. -/
theorem vaIf_quiet {a : BitVec 64} (ha : a % 4 = 0) (b : BitVec 64) :
    Ends (fun r => p.Quiet r.1.priv) AnyHalt (p.vaIf bus a 4 b) := by
  have hs : ¬ ((4#64 == 4#64) && a % 4 == 2) = true := by
    rw [ha]
    decide
  have hone : Ends (fun r : VaRes δ => p.Quiet r.priv) AnyHalt (p.vaIfOne bus a 4 b) := by
    unfold vaIfOne
    refine ends_ite (fun _ => .same) fun _ => ends_ite (fun _ => .same) fun _ => ?_
    cases h : p.sv39.localTlbeGet bus p.satp a with
    | error e => trivial
    | ok v =>
      obtain ⟨entry, t, bus'⟩ := v
      cases entry with
      | none => exact .tlb h
      | some e =>
        refine ends_ite (fun _ => .tlb h) fun _ => ?_
        exact ends_ite (fun _ => .tlb h) fun _ => .tlb h
  exact ends_ite (fun h => absurd h hs) fun _ => hone.bind fun _ hr => hr

end
end RvPriv

/-! ## an instruction -/

namespace RvCore
section
variable {δ : Type} {p : RvPriv} {inst : BitVec 32} {c : RvCore δ}

theorem raise_raised (h : p.Quiet c.priv) (code : RvExcCode) (tval : BitVec 64) :
    Ends (fun c' => p.Raised c'.priv) AnyHalt (c.raise code tval) := by
  unfold raise
  cases hq : c.priv.raiseTrap c.pc (.exc code) tval with
  | error e => trivial
  | ok q => exact ⟨c.priv, c.pc, _, tval, h, hq⟩

theorem trap_effect (h : p.Quiet c.priv) (code : RvExcCode) (tval : BitVec 64) :
    Ends (Effect p inst) AnyHalt (c.trap code tval) :=
  (raise_raised h code tval).bind fun _ hc => .raised rfl hc

theorem jumpLink_effect (c : RvCore δ) (rd : BitVec 5) (npc : BitVec 64) :
    Ends (Effect c.priv inst) AnyHalt (c.jumpLink rd npc) :=
  ends_ite (fun _ => trap_effect .same _ _) fun _ => .quiet .same

theorem branch_effect (c : RvCore δ) : Ends (Effect c.priv inst) AnyHalt (c.branch inst) := by
  have hraise : ∀ code tval, Ends (fun c' : RvCore δ => c.priv.Raised c'.priv) AnyHalt
      ({ c with debugIsBranch := true }.raise code tval) := fun _ _ => raise_raised .same _ _
  unfold branch
  split
  · exact .quiet .same
  · exact .quiet .same
  · exact ends_ite (fun _ => (hraise _ _).bind fun _ hc => .raised rfl hc) fun _ => .quiet .same

theorem computed_effect (c : RvCore δ) (o : Option AluOp) (b : BitVec 64) (op32 : Bool) :
    Ends (Effect c.priv inst) AnyHalt (c.computed inst o b op32) := by
  cases o with
  | none => exact .quiet .same
  | some op => exact (ends_any _).bind fun v _ => .quiet .same

theorem amoEnd_effect {r : RvPriv.VaRes δ} (h : p.Quiet r.priv) (v : BitVec 64) :
    Ends (Effect p inst) AnyHalt (c.amoEnd inst r v) := by
  unfold amoEnd
  exact ends_ite (fun _ => .quiet h) fun _ => trap_effect h _ _

theorem execPriv_effect (c : RvCore δ) (flags : Flags) (hop : RvInstr.opcode inst = Opcode.SYSTEM)
    (hf3 : RvInstr.funct3 inst = Funct3.PRIV) :
    Ends (Effect c.priv inst) AnyHalt (c.execPriv flags inst) := by
  have hcall : ∀ cause tval, Ends (Effect c.priv inst) AnyHalt
      (c.priv.raiseTrap c.pc cause tval >>= fun q => { c with priv := q }.done) := by
    intro cause tval
    cases hq : c.priv.raiseTrap c.pc cause tval with
    | error e => trivial
    | ok q => exact .raised rfl ⟨c.priv, c.pc, cause, tval, .same, hq⟩
  have hret : ∀ o : Option RvPriv, (∀ q, o = some q → c.priv.returned inst = some q) →
      Ends (Effect c.priv inst) AnyHalt (c.privEnd o) := by
    intro o ho
    cases o with
    | none => exact .quiet .same
    | some q => exact .returned rfl (ho q rfl)
  have hword : ∀ f7, RvInstr.funct7 inst = f7 → RvInstr.rs2 inst = 0b00010 →
      (RvInstr.rs1 inst == 0 && RvInstr.rd inst == 0) = true → RvPriv.isReturn f7 inst = true := by
    intro f7 h7 h2 hplain
    rw [Bool.and_eq_true] at hplain
    rw [RvPriv.isReturn, hop, hf3, h7, h2, hplain.1, hplain.2]
    simp only [BEq.rfl, Bool.and_self]
  unfold execPriv
  simp only
  refine ends_ite (fun _ => ?_) fun _ => ?_
  · refine ends_ite (fun _ => .quiet .same) fun _ => ends_ite (fun _ => ?_) fun _ => ?_
    · exact ends_ite (fun _ => trivial) fun _ => hcall _ _
    · exact ends_ite (fun _ => ends_ite (fun _ => trivial) fun _ => hcall _ _) fun _ => .quiet .same
  refine ends_ite (fun h7 => ?_) fun _ => ?_
  · refine ends_ite (fun _ => .quiet .same) fun hplain => ends_ite (fun h2 => ?_) fun _ => ?_
    · have hp : (RvInstr.rs1 inst == 0 && RvInstr.rd inst == 0) = true := by simpa using hplain
      have hm : RvPriv.isReturn Funct7.MRET inst = false := by
        rw [RvPriv.isReturn, h7]
        simp only [show (Funct7.SRET_WFI == Funct7.MRET) = false from by decide, Bool.and_false,
          Bool.false_and]
      refine hret _ fun q hq => ?_
      rw [RvPriv.returned, hm, hword _ h7 h2 hp]
      exact hq
    · exact ends_ite (fun _ => .quiet .same) fun _ => .quiet .same
  refine ends_ite (fun h7 => ?_) fun _ => ?_
  · refine ends_ite (fun h2 => ?_) fun _ => .quiet .same
    rw [Bool.and_eq_true, beq_iff_eq] at h2
    refine hret _ fun q hq => ?_
    rw [RvPriv.returned, hword _ h7 h2.1 h2.2]
    exact hq
  · refine ends_ite (fun _ => ?_) fun _ => .quiet .same
    cases hq : c.priv.sfenceVma (c.GPR (RvInstr.rs1 inst)) (c.GPR (RvInstr.rs2 inst) &&& 0xffff#64)
      with
    | none => exact .quiet .same
    | some q => exact .quiet (.fence hq)

theorem csrOp_effect (c : RvCore δ) (flags : Flags) (write : Bool) (value : BitVec 64 → BitVec 64) :
    Ends (Effect c.priv inst) AnyHalt (c.csrOp flags inst write value) := by
  unfold csrOp
  simp only
  refine ends_ite (fun _ => .quiet .same) fun _ => ?_
  split
  · exact .quiet .same
  rename_i old hold
  have hsome : ∀ q : RvPriv, c.priv.Quiet q → Ends (Effect c.priv inst) AnyHalt
      (if RvInstr.rd inst != 0 then ({ c with priv := q }.setGPR (RvInstr.rd inst) old).done
        else { c with priv := q }.done) := fun q hq =>
    ends_ite (fun _ => .quiet hq) fun _ => .quiet hq
  refine ends_ite (fun _ => ?_) fun _ => hsome c.priv .same
  cases hw : c.priv.csrWrite flags (inst.extractLsb' 20 12) (value old) with
  | error e => trivial
  | ok o =>
    cases o with
    | none => exact .quiet .same
    | some q => exact hsome q (.csr hw)

theorem system_effect (c : RvCore δ) (flags : Flags) (hop : RvInstr.opcode inst = Opcode.SYSTEM) :
    Ends (Effect c.priv inst) AnyHalt (c.system flags inst) := by
  rw [system_eq]
  refine ends_ite (fun hf3 => execPriv_effect c flags hop hf3) fun _ => ?_
  cases c.csrForm inst with
  | none => exact .quiet .same
  | some f => exact csrOp_effect c flags f.1 f.2

variable [MmioDev δ]

theorem load_effect (c : RvCore δ) : Ends (Effect c.priv inst) AnyHalt (c.load inst) := by
  have hread : ∀ a size b : BitVec 64, Ends (fun r => (c.priv.Quiet r.1.priv) ∨
      r.2.1 = false ∧ c.priv.Raised r.1.priv) AnyHalt (c.memRead a size b) := by
    intro a size b
    refine ends_ite (fun _ => (raise_raised .same _ _).bind fun _ hc => .inr ⟨rfl, hc⟩) fun _ => ?_
    refine (RvPriv.vaAccess_quiet _ _ _ _ _ _ _ _).bind fun r hr => ?_
    refine ends_ite (fun _ => .inl hr) fun _ => ?_
    have hraise : Ends (fun c' : RvCore δ => c.priv.Raised c'.priv) AnyHalt
        ({ c with priv := r.priv, bus := r.bus }.raise r.exc a) := raise_raised hr _ _
    exact hraise.bind fun _ hc => .inr ⟨rfl, hc⟩
  unfold load
  simp only
  split
  · exact .quiet .same
  · refine (hread _ _ _).bind fun r hr => ?_
    rcases hr with hr | ⟨hok, hr⟩
    · exact ends_ite (fun _ => .quiet hr) fun _ => .quiet hr
    · exact ends_ite (fun h => by rw [hok] at h; cases h) fun _ => .raised rfl hr

theorem store_effect (c : RvCore δ) (flags : Flags) :
    Ends (Effect c.priv inst) AnyHalt (c.store flags inst) := by
  unfold store
  simp only
  split
  · exact .quiet .same
  rename_i size hsize
  have hwrite : ∀ a b : BitVec 64, Ends (fun c' => c.priv.Quiet c'.priv ∨ c.priv.Raised c'.priv)
      AnyHalt (c.memWrite flags a size b) := by
    intro a b
    refine ends_ite (fun _ => (raise_raised .same _ _).imp fun _ hc => .inr hc) fun _ => ?_
    refine (RvPriv.vaAccess_quiet _ _ _ _ _ _ _ _).bind fun r hr => ?_
    refine ends_ite (fun _ => .inl hr) fun _ => ?_
    have hraise : Ends (fun c' : RvCore δ => c.priv.Raised c'.priv) AnyHalt
        ({ c with priv := r.priv, bus := r.bus }.raise r.exc a) := raise_raised hr _ _
    exact hraise.imp fun _ hc => .inr hc
  refine (hwrite _ _).bind fun c' hc => ?_
  rcases hc with hc | hc
  · exact .quiet hc
  · exact .raised rfl hc

theorem amo_effect (c : RvCore δ) : Ends (Effect c.priv inst) AnyHalt (c.amo inst) := by
  have hend : ∀ {aligned : Except Halt Unit} {x : Except Halt (RvPriv.VaRes δ)}
      {value : RvPriv.VaRes δ → BitVec 64}, Ends (fun r => c.priv.Quiet r.priv) AnyHalt x →
      Ends (Effect c.priv inst) AnyHalt
        ((aligned >>= fun _ => x) >>= fun r => c.amoEnd inst r (value r)) := fun hx =>
    ((ends_any _).bind fun _ _ => hx).bind fun r hr => amoEnd_effect hr _
  unfold amo
  simp only
  refine ends_ite (fun _ => .quiet .same) fun _ => ends_ite (fun _ => ?_) fun _ => ?_
  · exact ends_ite (fun _ => .quiet .same) fun _ => hend (RvPriv.vaAccess_quiet _ _ _ _ _ _ _ _)
  refine ends_ite (fun _ => ?_) fun _ => ends_ite (fun _ => ?_) fun _ => .quiet .same
  · exact hend (RvPriv.vaAccess_quiet _ _ _ _ _ _ _ _)
  · exact hend (RvPriv.vaAccess_quiet _ _ _ _ _ _ _ _)

/-- **Every instruction ends quietly, with one trap, or as a legal `mret` or `sret`.** -/
theorem decodeExec_effect (c : RvCore δ) (flags : Flags) (inst : BitVec 32) :
    Ends (Effect c.priv inst) AnyHalt (c.decodeExec flags inst) := by
  unfold decodeExec
  simp only
  refine ends_ite (fun _ => .quiet .same) fun _ => ?_
  refine ends_ite (fun _ => .quiet .same) fun _ => ?_
  refine ends_ite (fun _ => .quiet .same) fun _ => ?_
  refine ends_ite (fun _ => jumpLink_effect { c with debugInst := inst } _ _) fun _ => ?_
  refine ends_ite (fun _ => jumpLink_effect { c with debugInst := inst } _ _) fun _ => ?_
  refine ends_ite (fun _ => branch_effect { c with debugInst := inst }) fun _ => ?_
  refine ends_ite (fun _ => load_effect { c with debugInst := inst }) fun _ => ?_
  refine ends_ite (fun _ => store_effect { c with debugInst := inst } flags) fun _ => ?_
  refine ends_ite (fun _ => computed_effect { c with debugInst := inst } _ _ _) fun _ => ?_
  refine ends_ite (fun _ => computed_effect { c with debugInst := inst } _ _ _) fun _ => ?_
  refine ends_ite (fun _ => computed_effect { c with debugInst := inst } _ _ _) fun _ => ?_
  refine ends_ite (fun _ => computed_effect { c with debugInst := inst } _ _ _) fun _ => ?_
  refine ends_ite (fun _ => amo_effect { c with debugInst := inst }) fun _ => ?_
  refine ends_ite (fun _ => .quiet .same) fun _ => ?_
  exact ends_ite (fun hop => system_effect { c with debugInst := inst } flags hop)
    fun _ => .quiet .same

end
end RvCore

/-! ## a step -/

/-- how a step ends: with a trap, with `mret` or `sret`, or with any other instruction completed -/
inductive Outcome where
  | trapped | returned | completed
deriving DecidableEq

namespace RvCore
section
variable {δ : Type} [MmioDev δ] (c : RvCore δ) (flags : Flags)

/-- the word that is fetched, with the core after it; `none` when there is a trap instead -/
def fetchWord : Except Halt (Option (RvCore δ × BitVec 32)) :=
  if c.priv.curNeedTrap then .ok none
  else if c.pc % 4 != 0 then .ok none
  else do
    let r ← c.priv.vaIf c.bus c.pc 4 0
    if r.1.exc != RvExcCode.customOk then .ok none
    else .ok (some ({ c with priv := r.1.priv, bus := r.1.bus }, r.1.buffer.setWidth 32))

/-- the word with which a step comes to `decode_exec`, and the core there -/
def issue (i : RvLines) : Except Halt (Option (RvCore δ × BitVec 32)) :=
  let c := { c with
    debugPc := c.pc, debugIsBranch := false, debugRegNum := 0, debugRegWdata := 0 }
  if flags.runRiscvTest && 2000000#64 ≤ c.priv.mcycle then .error (.exit 1)
  else do
    let c ← c.interrupts i.meip i.msip i.mtip i.seip
    c.fetchWord

omit [MmioDev δ] in
/-- the outcome of an instruction, from the state before it and its end -/
def outcomeOf (inst : BitVec 32) (e : ExecState δ) : Outcome :=
  if e.ri then .trapped
  else if (c.priv.returned inst).isSome then .returned
  else if e.core.priv.curNeedTrap then .trapped
  else .completed

/-- the outcome of a step -/
def outcome (i : RvLines) : Except Halt Outcome := do
  let o ← c.issue flags i
  o.elim (.ok .trapped) fun r => do
    let e ← r.1.decodeExec flags r.2
    .ok (r.1.outcomeOf r.2 e)

end
end RvCore

namespace RvPriv

/-- one change of `priv` in a step before `post_exec` -/
inductive Move (p : RvPriv) : RvPriv → Prop
  | entered (i : RvLines) : Move p (p.entered i)
  | quiet {q : RvPriv} (h : p.Quiet q) : Move p q
  | raised {pc : BitVec 64} {cause : CauseDef} {tval : BitVec 64} {q : RvPriv}
      (h : p.raiseTrap pc cause tval = .ok q) : Move p q
  | returned {inst : BitVec 32} {q : RvPriv} (h : p.returned inst = some q) : Move p q

/-- any number of them -/
abbrev Moves : RvPriv → RvPriv → Prop := Relation.ReflTransGen Move

/-- a trap has been raised -/
def Trapped (q : RvPriv) : Prop := ∃ p pc cause tval, raiseTrap p pc cause tval = .ok q

theorem Raised.trapped {p q : RvPriv} (h : p.Raised q) : q.Trapped := by
  obtain ⟨p', pc, cause, tval, -, hq⟩ := h
  exact ⟨p', pc, cause, tval, hq⟩

theorem Raised.moves {p q : RvPriv} (h : p.Raised q) : p.Moves q := by
  obtain ⟨p', pc, cause, tval, hp, hq⟩ := h
  exact .tail (.single (.quiet hp)) (.raised hq)

theorem Trapped.flag {q : RvPriv} (h : q.Trapped) : q.curNeedTrap = true := by
  obtain ⟨p, pc, cause, tval, hq⟩ := h
  exact (raiseTrap_keeps hq).2.1

theorem Moves.minstret {p q : RvPriv} (h : p.Moves q) : q.minstret = p.minstret := by
  induction h with
  | refl => rfl
  | tail _ hm ih =>
    refine Eq.trans ?_ ih
    cases hm with
    | entered i => rfl
    | quiet h => exact h.keeps.1
    | raised h => exact (raiseTrap_keeps h).1
    | returned h => exact (returned_keeps h).1

end RvPriv

namespace RvCore
section
variable {δ : Type} {c : RvCore δ}

/-- The interrupt check: in machine mode it raises a trap or leaves the flag clear. -/
theorem interrupts_moves (c : RvCore δ) (i : RvLines) :
    Ends (fun c' => c.priv.Moves c'.priv ∧
      (c.difftestMode = false → c'.priv.curNeedTrap = true → c'.priv.Trapped)) AnyHalt
      (c.interrupts i.meip i.msip i.mtip i.seip) := by
  have hcheck : ∀ p : RvPriv, Ends (fun q => q = p ∨ p.Move q ∧ q.Trapped) AnyHalt
      (p.checkAndRaiseInt c.pc) := by
    intro p
    refine ends_ite (fun _ => ?_) fun _ => .inl rfl
    cases hq : p.raiseTrap c.pc ⟨p.finalIntIndex.setWidth 63, true⟩ 0 with
    | error e => trivial
    | ok q => exact .inr ⟨.raised hq, _, _, _, _, hq⟩
  refine ends_ite (fun _ => ?_) fun hd => ends_ite (fun _ => ?_) fun _ => ?_
  · refine (hcheck (c.priv.entered i)).bind fun q hq => ?_
    rcases hq with rfl | ⟨hm, ht⟩
    · exact ⟨.single (.entered i), fun _ hn => absurd hn Bool.false_ne_true⟩
    · exact ⟨.tail (.single (.entered i)) hm, fun _ _ => ht⟩
  · refine (hcheck c.priv).bind fun q hq => ⟨?_, fun h => ?_⟩
    · rcases hq with rfl | ⟨hm, -⟩
      · exact .refl
      · exact .single hm
    · rw [h] at hd
      exact absurd rfl hd
  · refine ⟨.refl, fun h => ?_⟩
    rw [h] at hd
    exact absurd rfl hd

/-- The end of an instruction raises the trap of an illegal one, and nothing else. -/
theorem settle_moves (e : ExecState δ) (inst : BitVec 32) (rvc : Bool) :
    Ends (fun c => e.core.priv.Moves c.priv ∧ (if e.ri then c.priv.Trapped else c.priv = e.core.priv))
      AnyHalt (e.settle inst rvc) := by
  rw [ExecState.settle_eq]
  cases e.ri with
  | true =>
    have hraise : Ends (fun c : RvCore δ => e.core.priv.Moves c.priv ∧ c.priv.Trapped) AnyHalt
        (e.core.raise RvExcCode.illegalInstr (inst.setWidth 64)) :=
      (raise_raised .same _ _).imp fun _ h => ⟨h.moves, h.trapped⟩
    exact hraise.bind fun c hc => hc
  | false => exact ⟨.refl, rfl⟩

variable [MmioDev δ]

/-- The fetch: it traps, or what follows is the execution of the word. -/
theorem fetchExec_cases (c : RvCore δ) (flags : Flags) :
    Ends (fun o => o.elim
        (Ends (fun c' => c.priv.Moves c'.priv ∧ c'.priv.curNeedTrap = true ∧
          (c'.priv = c.priv ∨ c'.priv.Trapped)) AnyHalt (c.fetchExec flags))
        fun r => c.priv.Quiet r.1.priv ∧ r.1.priv.curNeedTrap = false ∧
          c.fetchExec flags = r.1.decodeExec flags r.2 >>= fun e => e.settle r.2 (isRvc r.2))
      (fun e => c.fetchExec flags = .error e) c.fetchWord := by
  have htrap : ∀ (d : RvCore δ) (inst : BitVec 32) (code : RvExcCode) (tval : BitVec 64),
      c.priv.Quiet d.priv → Ends (fun c' : RvCore δ => c.priv.Moves c'.priv ∧
        c'.priv.curNeedTrap = true ∧ (c'.priv = c.priv ∨ c'.priv.Trapped)) AnyHalt
        (d.trap code tval >>= fun e => e.settle inst false) := by
    intro d inst code tval hq
    have hr : Ends (fun e : ExecState δ => e.ri = false ∧ c.priv.Raised e.core.priv) AnyHalt
        (d.trap code tval) := (raise_raised hq code tval).bind fun _ h => ⟨rfl, h⟩
    refine hr.bind fun e he => (settle_moves e inst false).imp fun c' hc => ?_
    obtain ⟨-, hc⟩ := hc
    rw [he.1] at hc
    have hp : c'.priv = e.core.priv := hc
    rw [hp]
    exact ⟨he.2.moves, he.2.trapped.flag, .inr he.2.trapped⟩
  cases hn : c.priv.curNeedTrap with
  | true =>
    unfold fetchWord fetchExec
    rw [hn]
    refine (settle_moves ⟨c, false, false⟩ 0 false).imp fun c' hc => ?_
    have hp : c'.priv = c.priv := hc.2
    rw [hp]
    exact ⟨.refl, hn, .inl rfl⟩
  | false =>
    cases hpc : c.pc % 4 != 0 with
    | true =>
      unfold fetchWord fetchExec
      rw [hn, hpc]
      exact htrap c 0 _ _ .same
    | false =>
      have hpc' : c.pc % 4 = 0 := by simpa using hpc
      have hif := c.priv.vaIf_quiet c.bus hpc' 0
      unfold fetchWord fetchExec
      rw [hn, hpc]
      cases hv : c.priv.vaIf c.bus c.pc 4 0 with
      | error e => rfl
      | ok v =>
        have hq := hif.ok hv
        obtain ⟨r, badVa⟩ := v
        show Ends _ _ (if r.exc != RvExcCode.customOk then _ else _)
        cases hexc : r.exc != RvExcCode.customOk with
        | true =>
          have h := htrap { c with priv := r.priv, bus := r.bus } (r.buffer.setWidth 32) r.exc badVa hq
          show Ends _ _ (if r.exc != RvExcCode.customOk then _ else _)
          rw [hexc]
          exact h
        | false =>
          refine ⟨hq, hq.keeps.2.trans hn, ?_⟩
          show (if r.exc != RvExcCode.customOk then _ else _) = _
          rw [hexc]
          rfl

/-- A legal `mret` or `sret` does what its function does, and nothing else. -/
theorem decodeExec_returned (c : RvCore δ) (flags : Flags) {inst : BitVec 32} {q : RvPriv}
    (h : c.priv.returned inst = some q) :
    c.decodeExec flags inst = .ok ⟨{ c with debugInst := inst, priv := q }, false, false⟩ := by
  have hfields : ∀ {f7}, RvPriv.isReturn f7 inst = true → RvInstr.opcode inst = Opcode.SYSTEM ∧
      RvInstr.funct3 inst = Funct3.PRIV ∧ RvInstr.funct7 inst = f7 ∧ RvInstr.rs2 inst = 0b00010 ∧
        (RvInstr.rs1 inst == 0 && RvInstr.rd inst == 0) = true := by
    intro f7 hw
    simp only [RvPriv.isReturn, Bool.and_eq_true, beq_iff_eq] at hw
    obtain ⟨⟨⟨⟨⟨h₁, h₂⟩, h₃⟩, h₄⟩, h₅⟩, h₆⟩ := hw
    exact ⟨h₁, h₂, h₃, h₄, by rw [h₅, h₆]; rfl⟩
  have hsys : RvInstr.opcode inst = Opcode.SYSTEM → RvInstr.funct3 inst = Funct3.PRIV →
      c.decodeExec flags inst = { c with debugInst := inst }.execPriv flags inst := by
    intro hop hf3
    have hs : c.decodeExec flags inst = { c with debugInst := inst }.system flags inst := by
      simp only [decodeExec, isRvc, hop]
      rfl
    rw [hs, system_eq, if_pos hf3]
  rcases RvPriv.returned_cases h with ⟨hw, h⟩ | ⟨hw, h⟩
  all_goals
    obtain ⟨hop, hf3, hf7, hrs2, hplain⟩ := hfields hw
    rw [hsys hop hf3]
    unfold execPriv
    simp only [hf7, hrs2, hplain, privEnd, h]
    rfl

/-- **The end of an instruction agrees with its outcome**: the flag is set unless it has completed,
and for an outcome that is a trap one has been raised. -/
theorem settle_outcome {c : RvCore δ} (hn : c.priv.curNeedTrap = false) {flags : Flags}
    {inst : BitVec 32} {e : ExecState δ} (he : c.decodeExec flags inst = .ok e) (rvc : Bool) :
    Ends (fun c' => c.priv.Moves c'.priv ∧
        (c'.priv.curNeedTrap = true ↔ c.outcomeOf inst e ≠ .completed) ∧
        (c.outcomeOf inst e = .trapped → c'.priv.Trapped)) AnyHalt (e.settle inst rvc) := by
  refine (settle_moves e inst rvc).imp fun c' hc => ?_
  obtain ⟨hm, hend⟩ := hc
  cases hret : c.priv.returned inst with
  | some q =>
    have hdec := Except.ok.inj ((decodeExec_returned c flags hret).symm.trans he)
    subst hdec
    have hp : c'.priv = q := hend
    have ho : c.outcomeOf inst ⟨{ c with debugInst := inst, priv := q }, false, false⟩ = .returned := by
      rw [outcomeOf, hret]
      rfl
    rw [hp, ho]
    refine ⟨.single (.returned hret), iff_of_true (RvPriv.returned_keeps hret).2.1 nofun, nofun⟩
  | none =>
    rcases (decodeExec_effect c flags inst).ok he with h | ⟨hri, h⟩ | ⟨-, h⟩
    · have hmoves : c.priv.Moves c'.priv := .head (.quiet h) hm
      have hflag : e.core.priv.curNeedTrap = false := h.keeps.2.trans hn
      cases hri : e.ri with
      | true =>
        rw [hri] at hend
        have ht : c'.priv.Trapped := hend
        have ho : c.outcomeOf inst e = .trapped := by
          rw [outcomeOf, hri]
          rfl
        rw [ho]
        exact ⟨hmoves, iff_of_true ht.flag nofun, fun _ => ht⟩
      | false =>
        rw [hri] at hend
        have hp : c'.priv = e.core.priv := hend
        have ho : c.outcomeOf inst e = .completed := by
          rw [outcomeOf, hri, hret, hflag]
          rfl
        rw [ho]
        refine ⟨hmoves, iff_of_false ?_ (not_not_intro rfl), nofun⟩
        rw [hp, hflag]
        exact Bool.false_ne_true
    · rw [hri] at hend
      have hp : c'.priv = e.core.priv := hend
      have ho : c.outcomeOf inst e = .trapped := by
        rw [outcomeOf, hri, hret, h.trapped.flag]
        rfl
      rw [ho, hp]
      exact ⟨h.moves, iff_of_true h.trapped.flag nofun, fun _ => h.trapped⟩
    · rw [hret] at h
      cases h

/-- A step up to `decode_exec`: it comes there with a word, or ends with a trap. -/
theorem issue_cases (c : RvCore δ) (flags : Flags) (i : RvLines) :
    Ends (fun o => o.elim
        (∃ x, c.exec flags i.meip i.msip i.mtip i.seip = x >>= retire ∧
          Ends (fun c' => c.priv.Moves c'.priv ∧ c'.priv.curNeedTrap = true ∧
            (c.difftestMode = false → c'.priv.Trapped)) AnyHalt x)
        fun r => c.priv.Moves r.1.priv ∧ r.1.priv.curNeedTrap = false ∧
          c.exec flags i.meip i.msip i.mtip i.seip =
            (r.1.decodeExec flags r.2 >>= fun e => e.settle r.2 (isRvc r.2)) >>= retire)
      (fun e => c.exec flags i.meip i.msip i.mtip i.seip = .error e) (c.issue flags i) := by
  have hint := interrupts_moves { c with
    debugPc := c.pc, debugIsBranch := false, debugRegNum := 0, debugRegWdata := 0 } i
  unfold issue exec
  simp only
  cases flags.runRiscvTest && decide (2000000#64 ≤ c.priv.mcycle) with
  | true => rfl
  | false =>
    simp only [Bool.false_eq_true, if_false]
    cases hi : interrupts { c with
        debugPc := c.pc, debugIsBranch := false, debugRegNum := 0, debugRegWdata := 0 }
        i.meip i.msip i.mtip i.seip with
    | error e => rfl
    | ok c₁ =>
      obtain ⟨hm, ht⟩ := hint.ok hi
      show Ends (fun o => Option.elim o
        (∃ x, c₁.fetchExec flags >>= retire = x >>= retire ∧ _) fun r => _ ∧ _ ∧
          c₁.fetchExec flags >>= retire = _) (fun e => c₁.fetchExec flags >>= retire = .error e)
        c₁.fetchWord
      have hf := fetchExec_cases c₁ flags
      cases hw : c₁.fetchWord with
      | error e =>
        rw [hw] at hf
        have hx : c₁.fetchExec flags = .error e := hf
        rw [hx]
        rfl
      | ok o =>
        rw [hw] at hf
        cases o with
        | none =>
          refine ⟨_, rfl, Ends.imp hf fun c' hc => ⟨hm.trans hc.1, hc.2.1, fun hd => ?_⟩⟩
          rcases hc.2.2 with hp | hp
          · rw [hp]
            exact ht hd (hp ▸ hc.2.1)
          · exact hp
        | some r =>
          obtain ⟨hq, hn, hx⟩ := hf
          refine ⟨.tail hm (.quiet hq), hn, ?_⟩
          rw [hx]

/-- **A step** changes `priv` by moves up to `post_exec`, which finds the flag set unless the step has
completed an instruction; outside the difftest mode a trap has been raised when it has trapped. -/
theorem exec_step (c : RvCore δ) (flags : Flags) (i : RvLines) :
    Ends (fun c' => ∃ q o, c.priv.Moves q ∧ q.postExec = .ok c'.priv ∧
        c.outcome flags i = .ok o ∧ (q.curNeedTrap = true ↔ o ≠ .completed) ∧
        (c.difftestMode = false → o = .trapped → q.Trapped)) AnyHalt
      (c.exec flags i.meip i.msip i.mtip i.seip) := by
  have hretire : ∀ {c' : RvCore δ} {o : Outcome}, c.priv.Moves c'.priv → c.outcome flags i = .ok o →
      (c'.priv.curNeedTrap = true ↔ o ≠ .completed) →
      (c.difftestMode = false → o = .trapped → c'.priv.Trapped) →
      Ends (fun c' => ∃ q o, c.priv.Moves q ∧ q.postExec = .ok c'.priv ∧
        c.outcome flags i = .ok o ∧ (q.curNeedTrap = true ↔ o ≠ .completed) ∧
        (c.difftestMode = false → o = .trapped → q.Trapped)) AnyHalt c'.retire := by
    intro c' o hm ho hf ht
    unfold retire
    cases hq : c'.priv.postExec with
    | error e => trivial
    | ok q => exact ⟨c'.priv, o, hm, hq, ho, hf, ht⟩
  have hc := issue_cases c flags i
  unfold outcome at hretire ⊢
  cases hi : c.issue flags i with
  | error e =>
    rw [hi] at hc
    have hx : c.exec flags i.meip i.msip i.mtip i.seip = .error e := hc
    rw [hx]
    trivial
  | ok o =>
    rw [hi] at hc hretire
    cases o with
    | none =>
      obtain ⟨x, hx, hend⟩ := hc
      rw [hx]
      exact hend.bind fun c' h => hretire h.1 rfl (iff_of_true h.2.1 nofun) fun hd _ => h.2.2 hd
    | some r =>
      obtain ⟨hm, hn, hx⟩ := hc
      rw [hx]
      cases hd : r.1.decodeExec flags r.2 with
      | error e => trivial
      | ok e =>
        refine (settle_outcome hn hd _).bind fun c' h => ?_
        refine hretire (hm.trans h.1) ?_ h.2.1 fun _ => h.2.2
        show (r.1.decodeExec flags r.2 >>= _) = _
        rw [hd]
        rfl

end
end RvCore

end HduCpu
