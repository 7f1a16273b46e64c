import HduCpu.Lib.Machine
import HduCpu.Lib.Outcome
import HduCpu.Ref.RvCore

/-!
# What a step of the reference keeps

The privileged state stays in machine and user mode, with translation and delegation off
(`Envelope`).  `exec` is followed once, function by function, from a state in which no trap has
been raised (`Ready`) to the end of the instruction (`Executed`); an assertion can only fail where
`mtvec` is written with a mode above 1 (`TvecTrip`).

* `Envelope`, `StatusWF`   the invariant, `envelope_init` at reset;
* `Kept`                   a property of the bus that no access changes;
* `csrWrite_ends`, `vaAccess_ends`, …   one lemma for each operation;
* `RvCore.decodeExec_ends`, `exec_ends`   an instruction and a step;
* `rvMachine`              `step` under arbitrary interrupt lines, on any bus.
-/

namespace HduCpu

/-! ## the status register -/

structure StatusWF (s : BitVec 64) : Prop where
  mpp : Mstatus.mpp s = PrivMode.U_MODE ∨ Mstatus.mpp s = PrivMode.M_MODE
  spp : Mstatus.spp s = false
  blank : Mstatus.blank s = true

section
variable {s : BitVec 64} (h : StatusWF s)
include h

/-- `sie`, `mie`, `spie`, `mpie` and `mprv` may have any value. -/
theorem StatusWF.setBit {k : ℕ} (hk : k ∈ [1, 3, 5, 7, 17]) (b : Bool) :
    StatusWF (putField s k (BitVec.ofBool b)) := by
  obtain ⟨hm, hs, hb⟩ := h
  simp only [Mstatus.mpp, Mstatus.spp, Mstatus.blank] at hm hs hb
  simp only [List.mem_cons, List.not_mem_nil, or_false] at hk
  rcases hk with rfl | rfl | rfl | rfl | rfl
  all_goals
    constructor
    all_goals
      simp (disch := omega) only [Mstatus.mpp, Mstatus.spp, Mstatus.blank,
        getLsbD_putField_of_notMem, extract_putField_of_disjoint]
      assumption

theorem StatusWF.setMpp {m : BitVec 2} (hm : m = PrivMode.U_MODE ∨ m = PrivMode.M_MODE) :
    StatusWF (Mstatus.setMpp s m) := by
  have hmpp : Mstatus.mpp (Mstatus.setMpp s m) = m := extract_putField s 11 m (by decide)
  obtain ⟨-, hs, hb⟩ := h
  refine ⟨by rwa [hmpp], ?_, ?_⟩
  · rw [Mstatus.spp, Mstatus.setMpp, getLsbD_putField_of_notMem _ _ _ (by omega)]
    exact hs
  · simp (disch := omega) only [Mstatus.blank, Mstatus.setMpp, getLsbD_putField_of_notMem,
      extract_putField_of_disjoint]
    exact hb

theorem StatusWF.clearSpp : StatusWF (Mstatus.setSpp s false) := by
  obtain ⟨hm, -, hb⟩ := h
  refine ⟨?_, getLsbD_putField s 8 (BitVec.ofBool false) (i := 0) (by decide) (by decide), ?_⟩
  · rw [Mstatus.mpp, Mstatus.setSpp, extract_putField_of_disjoint _ _ (by omega)]
    exact hm
  · simp (disch := omega) only [Mstatus.blank, Mstatus.setSpp, getLsbD_putField_of_notMem,
      extract_putField_of_disjoint]
    exact hb

end

/-! ## the invariant -/

/-- Machine and user mode only, no translation, no delegation. -/
structure Envelope (p : RvPriv) : Prop where
  cur : p.curPriv = PrivMode.U_MODE ∨ p.curPriv = PrivMode.M_MODE
  next : p.nextPriv = PrivMode.U_MODE ∨ p.nextPriv = PrivMode.M_MODE
  status : StatusWF p.status
  satp : p.satp = 0
  medeleg : p.medeleg = 0
  mideleg : p.mideleg = 0

theorem envelope_init (flags : Flags) (hartId : BitVec 64) (sv39 : Sv39 32) (ext0 : BitVec 26) :
    Envelope (.init flags hartId sv39 ext0) where
  cur := .inr rfl
  next := .inr rfl
  status := by
    have key : ∀ r o : Bool, StatusWF (if r then if o then Mstatus.setMpp 0 PrivMode.M_MODE
        else Mstatus.setUxl 0 2 else 0) := by
      rintro (_ | _) (_ | _)
      all_goals exact ⟨by decide, by decide, by decide⟩
    exact key _ _
  satp := rfl
  medeleg := rfl
  mideleg := rfl

/-! ## operations on the privileged state -/

/-- an exception code that is not the one a second assertion of `raise_trap` watches for -/
def Raisable (code : RvExcCode) : Prop := (code.setWidth 63).setWidth 64 ≠ RvExcCode.instrPgfault

instance (code : RvExcCode) : Decidable (Raisable code) := inferInstanceAs (Decidable (_ ≠ _))

namespace RvPriv
section
variable {p : RvPriv} (h : Envelope p)
include h

theorem trapToS_envelope (cause : CauseDef) : p.trapToS cause = false := by
  rw [trapToS, h.medeleg, h.mideleg]
  cases cause.interrupt <;> simp

theorem enterM_envelope (pc : BitVec 64) (cause : CauseDef) (tval : BitVec 64) :
    Envelope (p.enterM pc cause tval) where
  cur := h.cur
  next := .inr rfl
  status := ((h.status.setBit (by decide) _).setBit (by decide) _).setMpp h.cur
  satp := h.satp
  medeleg := h.medeleg
  mideleg := h.mideleg

/-- **A first trap is entered in machine mode.** -/
theorem raiseTrap_eq (hn : p.curNeedTrap = false) (pc : BitVec 64) {cause : CauseDef}
    (hc : cause.cause.setWidth 64 ≠ RvExcCode.instrPgfault) (tval : BitVec 64) :
    p.raiseTrap pc cause tval = .ok (p.enterM pc cause tval) := by
  have hne : (cause.cause.setWidth 64 == RvExcCode.instrPgfault) = false :=
    beq_eq_false_iff_ne.mpr hc
  simp only [raiseTrap, hn, trapToS_envelope h, hne, Bool.false_and, Bool.false_eq_true, if_false]
  rfl

end

/-- The number of an interrupt is not that of an instruction page fault. -/
theorem finalIntIndex_ne (p : RvPriv) :
    (p.finalIntIndex.setWidth 63).setWidth 64 ≠ RvExcCode.instrPgfault := by
  have hint : ∀ m, (int2index m).toNat ≠ 12 ∧ (int2index m).toNat < 2 ^ 63 := by
    intro m
    unfold int2index
    split_ifs <;> decide
  have hok : RvExcCode.customOk.toNat ≠ 12 ∧ RvExcCode.customOk.toNat < 2 ^ 63 := by decide
  have hidx : p.finalIntIndex.toNat ≠ 12 ∧ p.finalIntIndex.toNat < 2 ^ 63 := by
    unfold finalIntIndex
    simp only
    split_ifs
    all_goals first
      | exact hint _
      | exact hok
  intro e
  have ht := congrArg BitVec.toNat e
  rw [BitVec.toNat_setWidth, BitVec.toNat_setWidth, Nat.mod_eq_of_lt hidx.2,
    Nat.mod_eq_of_lt (hidx.2.trans (by decide))] at ht
  exact hidx.1 ht

section
variable {p : RvPriv} (h : Envelope p)
include h

theorem checkAndRaiseInt_eq (hn : p.curNeedTrap = false) (pc : BitVec 64) :
    p.checkAndRaiseInt pc = .ok (if p.finalIntIndex != RvExcCode.customOk then
      p.enterM pc ⟨p.finalIntIndex.setWidth 63, true⟩ 0 else p) := by
  unfold checkAndRaiseInt
  split
  · exact raiseTrap_eq h hn pc p.finalIntIndex_ne 0
  · rfl

theorem writeMstatus_wf (flags : Flags) (data : BitVec 64) :
    StatusWF (p.writeMstatus flags data) := by
  have hmpp : ∀ m : BitVec 2, (if m = 3 || m = 0 then m else Mstatus.mpp p.status) =
      PrivMode.U_MODE ∨ (if m = 3 || m = 0 then m else Mstatus.mpp p.status) = PrivMode.M_MODE := by
    intro m
    split
    · rename_i hm
      revert m
      decide
    · exact h.status.mpp
  have hs := (h.status.setBit (k := 3) (by decide) (Mstatus.mie data)).setBit (k := 7) (by decide)
    (Mstatus.mpie data)
  unfold writeMstatus
  simp only
  split
  · exact hs
  · exact (hs.setMpp (hmpp _)).setBit (by decide) _

/-- Only `mtvec` has a value that cannot be written. -/
theorem csrWrite_ends (flags : Flags) (a : BitVec 12) (data : BitVec 64) :
    Ends (fun o => ∀ q ∈ o, Envelope q ∧ q.curNeedTrap = p.curNeedTrap)
      (fun _ => a = RvCsrAddr.mtvec ∧ 1 < Tvec.mode data) (p.csrWrite flags a data) := by
  have hsome : ∀ q : RvPriv, Envelope q → q.curNeedTrap = p.curNeedTrap →
      ∀ q' ∈ some q, Envelope q' ∧ q'.curNeedTrap = p.curNeedTrap := by
    rintro q h₁ h₂ _ ⟨⟩
    exact ⟨h₁, h₂⟩
  obtain ⟨hcur, hnext, hst, hsatp, hmed, hmid⟩ := h
  have hp : Envelope p := ⟨hcur, hnext, hst, hsatp, hmed, hmid⟩
  unfold csrWrite
  refine ends_ite (fun _ => hsome _ hp rfl) fun _ => ?_
  refine ends_ite (fun _ => hsome _ ⟨hcur, hnext, writeMstatus_wf hp flags data, hsatp, hmed, hmid⟩
    rfl) fun _ => ?_
  refine ends_ite (fun _ => hsome _ ⟨hcur, hnext, hst, hsatp, hmed, hmid⟩ rfl) fun _ => ?_
  refine ends_ite (fun ha => ?_) fun _ => ?_
  · have hassert : Ends (fun _ => True) (fun _ => a = RvCsrAddr.mtvec ∧ 1 < Tvec.mode data)
        (assertThat (Tvec.mode data ≤ 1)) := by
      unfold assertThat
      refine ends_ite (fun _ => trivial) fun hm => ⟨ha, ?_⟩
      rw [← BitVec.not_le]
      simpa using hm
    exact hassert.bind fun _ _ => hsome _ ⟨hcur, hnext, hst, hsatp, hmed, hmid⟩ rfl
  repeat' refine ends_ite (fun _ => ?_) fun _ => ?_
  all_goals first
    | exact hsome _ ⟨hcur, hnext, hst, hsatp, hmed, hmid⟩ rfl
    | exact fun q hq => absurd hq (Option.not_mem_none q)

theorem mret_envelope : ∀ q ∈ p.mret, Envelope q := by
  intro q hq
  unfold mret at hq
  split at hq
  · cases hq
  · cases hq
    have hs := (h.status.setBit (k := 3) (by decide) (Mstatus.mpie p.status)).setBit (k := 7)
      (by decide) true
    refine ⟨h.cur, h.status.mpp, StatusWF.setMpp ?_ (.inl rfl), h.satp, h.medeleg, h.mideleg⟩
    split
    · exact hs.setBit (by decide) false
    · exact hs

theorem sret_envelope : ∀ q ∈ p.sret, Envelope q := by
  intro q hq
  unfold sret at hq
  split at hq
  · cases hq
  · cases hq
    have hs := ((h.status.setBit (k := 1) (by decide) (Mstatus.spie p.status)).setBit (k := 5)
      (by decide) true).setBit (k := 17) (by decide) false
    refine ⟨h.cur, .inl ?_, hs.clearSpp, h.satp, h.medeleg, h.mideleg⟩
    rw [h.status.spp]
    rfl

theorem sfenceVma_envelope (vaddr asid : BitVec 64) : ∀ q ∈ p.sfenceVma vaddr asid, Envelope q := by
  intro q hq
  unfold sfenceVma at hq
  split at hq
  · cases hq
  · cases hq
    exact ⟨h.cur, h.next, h.status, h.satp, h.medeleg, h.mideleg⟩

end

/-! ## address translation stays off -/

theorem bare_of_satp {p : RvPriv} (h : p.satp = 0) : p.bare = true := by
  rw [bare, h]
  exact Bool.or_true _

section
variable {δ : Type} [MmioDev δ] {p : RvPriv} (bus : Systembus δ)

/-- A data access without translation is made at its own address. -/
theorem vaAccess_bare (h : p.bare = true) (f : Faults) (allowed : TlbEntry → Bool)
    (access : Systembus δ → BitVec 64 → Except Halt (BusRead δ)) (a size b : BitVec 64) :
    p.vaAccess bus f allowed access a size b = (do
      let r ← access bus a
      .ok ⟨if r.ok then RvExcCode.customOk else f.bareFail, r.buffer, p, r.bus⟩) := by
  unfold vaAccess
  rw [if_pos h]

/-- So is a fetch. -/
theorem vaIfOne_bare (h : p.satp = 0) (a size b : BitVec 64) : p.vaIfOne bus a size b =
    .ok ⟨if (bus.paRead a size b).ok then RvExcCode.customOk else RvExcCode.instrAccFault,
      (bus.paRead a size b).buffer, p, (bus.paRead a size b).bus⟩ := by
  have hs : (p.curPriv == PrivMode.M_MODE || Satp.mode p.satp == 0) = true := by
    rw [h]
    exact Bool.or_true _
  unfold vaIfOne
  rw [if_pos hs]

/-- the fetch of an aligned word -/
theorem vaIf_bare (h : p.satp = 0) {a : BitVec 64} (ha : a % 4 = 0) (b : BitVec 64) :
    p.vaIf bus a 4 b =
      .ok (⟨if (bus.paRead a 4 b).ok then RvExcCode.customOk else RvExcCode.instrAccFault,
        (bus.paRead a 4 b).buffer, p, (bus.paRead a 4 b).bus⟩, a) := by
  have hs : ¬ ((4#64 == 4#64) && a % 4 == 2) = true := by
    rw [ha]
    decide
  refine (if_neg hs).trans ?_
  rw [vaIfOne_bare bus h]
  rfl

end
end RvPriv

/-! ## accesses -/

/-- an end of the simulation: `exit`, and a failed assertion only if `trip` -/
def Allowed (trip : Prop) : Halt → Prop
  | .assertFailed => trip
  | .exit _ => True

/-- a property of the bus that no access changes -/
structure Kept {δ : Type} [MmioDev δ] (B : Systembus δ → Prop) : Prop where
  read : ∀ {s}, B s → ∀ a size b, B (s.paRead a size b).bus
  write : ∀ {s}, B s → ∀ a size b, B (s.paWrite a size b).bus
  reserve : ∀ {s}, B s → ∀ pa size hart valid, B ⟨pa, size, hart, valid, s.devices⟩

theorem kept_true {δ : Type} [MmioDev δ] : Kept fun _ : Systembus δ => True :=
  ⟨fun _ _ _ _ => trivial, fun _ _ _ _ => trivial, fun _ _ _ _ _ => trivial⟩

section
variable {δ : Type} [MmioDev δ] {B : Systembus δ → Prop} (hB : Kept B) {bus : Systembus δ}
  (hb : B bus) {trip : Prop}
include hB hb

theorem Kept.paLr (a size b hart : BitVec 64) : B (bus.paLr a size b hart).bus :=
  hB.read (hB.reserve hb _ _ _ _) _ _ _

theorem Kept.paSc (a size b hart : BitVec 64) : B (bus.paSc a size b hart).bus := by
  unfold Systembus.paSc
  split
  · show B (if _ then _ else _)
    split
    · exact hB.reserve hb _ _ _ _
    · exact hb
  · exact hB.write (hB.reserve hb _ _ _ _) _ _ _

/-- the operations with a case in `pa_amo_op` -/
def amoOps : List (BitVec 5) := [AmoFunct.SWAP, AmoFunct.ADD, AmoFunct.XOR, AmoFunct.AND, AmoFunct.OR,
  AmoFunct.MIN, AmoFunct.MAX, AmoFunct.MINU, AmoFunct.MAXU]

omit [MmioDev δ] hB hb in
theorem amoResult_ok {op : BitVec 5} (hop : op ∈ amoOps) (src res : BitVec 64) :
    ∃ v, Systembus.amoResult op src res = .ok v := by
  simp only [amoOps, List.mem_cons, List.not_mem_nil, or_false] at hop
  rcases hop with rfl | rfl | rfl | rfl | rfl | rfl | rfl | rfl | rfl
  all_goals exact ⟨_, rfl⟩

theorem Kept.paAmoOp {op : BitVec 5} (hop : op ∈ amoOps) (a size src dst : BitVec 64) :
    Ends (fun r => B r.bus) (Allowed trip) (bus.paAmoOp a size op src dst) := by
  unfold Systembus.paAmoOp
  simp only
  split
  · exact hB.read hb _ _ _
  · obtain ⟨v, hv⟩ := amoResult_ok hop src (if size = 4 then
      ((bus.paRead a size 0).buffer.setWidth 32).signExtend 64 else (bus.paRead a size 0).buffer)
    rw [hv]
    exact hB.write (hB.read hb _ _ _) _ _ _

end

/-- What an access has left: the privileged state as it was, and a result that may be raised. -/
structure Accessed {δ : Type} (B : Systembus δ → Prop) (p : RvPriv) (r : RvPriv.VaRes δ) :
    Prop where
  priv : r.priv = p
  bus : B r.bus
  exc : Raisable r.exc

theorem raisable_ite (b : Bool) {code : RvExcCode} (h : Raisable code) :
    Raisable (if b then RvExcCode.customOk else code) := by
  cases b with
  | true => exact (by decide : Raisable RvExcCode.customOk)
  | false => exact h

namespace RvPriv
section
variable {δ : Type} [MmioDev δ] {B : Systembus δ → Prop} (hB : Kept B) {bus : Systembus δ}
  (hb : B bus) {trip : Prop} {p : RvPriv} (h : Envelope p)
include hB hb h

omit hB hb in
theorem vaAccess_ends {f : Faults} (hf : Raisable f.bareFail) (allowed : TlbEntry → Bool)
    {access : Systembus δ → BitVec 64 → Except Halt (BusRead δ)} {a : BitVec 64} (size b : BitVec 64)
    (ha : Ends (fun r => B r.bus) (Allowed trip) (access bus a)) :
    Ends (Accessed B p) (Allowed trip) (p.vaAccess bus f allowed access a size b) := by
  rw [vaAccess_bare bus (bare_of_satp h.satp)]
  exact ha.bind fun r hr => ⟨rfl, hr, raisable_ite _ hf⟩

theorem vaRead_ends (a size b : BitVec 64) :
    Ends (Accessed B p) (Allowed trip) (p.vaRead bus a size b) :=
  vaAccess_ends h (by decide) _ _ _ (hB.read hb _ _ _)

theorem vaWrite_ends (flags : Flags) (a size b : BitVec 64) :
    Ends (Accessed B p) (Allowed trip) (p.vaWrite bus flags a size b) := by
  refine vaAccess_ends h (by decide) _ _ _ ?_
  exact ends_ite (fun _ => trivial) fun _ => hB.write hb _ _ _

omit hB hb h in
/-- The size of an atomic is that of a word or of a double word. -/
theorem assertSize_ends {size : BitVec 64} (hs : size = 4 ∨ size = 8) :
    Ends (fun _ => True) (Allowed trip) (assertThat (size == 4 || size == 8)) := by
  rcases hs with rfl | rfl
  all_goals trivial

variable {size : BitVec 64} (hs : size = 4 ∨ size = 8)
include hs

theorem vaLr_ends (a b : BitVec 64) :
    Ends (Accessed B p) (Allowed trip) (p.vaLr bus a size b) :=
  (assertSize_ends hs).bind fun _ _ => vaAccess_ends h (by decide) _ _ _ (hB.paLr hb _ _ _ _)

theorem vaSc_ends (a b : BitVec 64) :
    Ends (Accessed B p) (Allowed trip) (p.vaSc bus a size b) :=
  (assertSize_ends hs).bind fun _ _ => vaAccess_ends h (by decide) _ _ _ (hB.paSc hb _ _ _ _)

theorem vaAmo_ends {op : BitVec 5} (hop : op ∈ amoOps) (a src : BitVec 64) :
    Ends (Accessed B p) (Allowed trip) (p.vaAmo bus op a size src) :=
  (assertSize_ends hs).bind fun _ _ => vaAccess_ends h (by decide) _ _ _
    ((hB.paAmoOp hb hop _ _ _ _).bind fun _ hr => hr)

omit hs in
theorem vaIf_ends (a b : BitVec 64) :
    Ends (fun r => Accessed B p r.1) (Allowed trip) (p.vaIf bus a 4 b) := by
  have hone : ∀ {bus : Systembus δ}, B bus → ∀ a size b : BitVec 64,
      Ends (Accessed B p) (Allowed trip) (p.vaIfOne bus a size b) := by
    intro bus hb a size b
    rw [vaIfOne_bare bus h.satp]
    exact ⟨rfl, hB.read hb _ _ _, raisable_ite _ (by decide)⟩
  unfold vaIf
  refine ends_ite (fun _ => ?_) fun _ => ?_
  · refine (hone hb a 2 b).bind fun r hr => ends_ite (fun _ => hr) fun _ => ?_
    rw [hr.priv]
    exact (hone hr.bus _ _ _).bind fun _ hr' => ⟨hr'.priv, hr'.bus, hr'.exc⟩
  · exact (hone hb a 4 b).bind fun _ hr => hr

end
end RvPriv

/-! ## one instruction -/

/-- What holds of the core before, in and after an instruction. -/
structure Inside {δ : Type} (B : Systembus δ → Prop) (c : RvCore δ) : Prop where
  env : Envelope c.priv
  bus : B c.bus
  plain : c.difftestMode = false

/-- No trap has been raised yet. -/
structure Ready {δ : Type} (B : Systembus δ → Prop) (c : RvCore δ) : Prop extends Inside B c where
  quiet : c.priv.curNeedTrap = false

/-- The end of an instruction; an illegal one has raised no trap before. -/
structure Executed {δ : Type} (B : Systembus δ → Prop) (e : ExecState δ) : Prop where
  inside : Inside B e.core
  quiet : e.ri = true → e.core.priv.curNeedTrap = false

theorem Inside.executed {δ : Type} {B : Systembus δ → Prop} {c : RvCore δ} (h : Inside B c)
    (newPc : Bool) : Executed B ⟨c, false, newPc⟩ :=
  ⟨h, fun hri => by cases hri⟩

namespace RvCore
section
variable {δ : Type} {B : Systembus δ → Prop} {c : RvCore δ} (h : Ready B c) {trip : Prop}
include h

theorem raise_eq {code : RvExcCode} (hc : Raisable code) (tval : BitVec 64) :
    c.raise code tval = .ok { c with priv := c.priv.enterM c.pc (.exc code) tval } := by
  have hc' : (CauseDef.exc code).cause.setWidth 64 ≠ RvExcCode.instrPgfault := hc
  unfold raise
  rw [RvPriv.raiseTrap_eq h.env h.quiet c.pc hc' tval]
  rfl

theorem raise_ends {code : RvExcCode} (hc : Raisable code) (tval : BitVec 64) :
    Ends (Inside B) (Allowed trip) (c.raise code tval) := by
  rw [raise_eq h hc]
  exact ⟨RvPriv.enterM_envelope h.env _ _ _, h.bus, h.plain⟩

theorem done_ends : Ends (Executed B) (Allowed trip) c.done := h.executed false

theorem illegal_ends : Ends (Executed B) (Allowed trip) c.illegal := ⟨h.toInside, fun _ => h.quiet⟩

theorem setGPR_ends (r : BitVec 5) (v : BitVec 64) :
    Ends (Executed B) (Allowed trip) (c.setGPR r v).done :=
  ⟨⟨h.env, h.bus, h.plain⟩, fun hri => by cases hri⟩

theorem trap_ends {code : RvExcCode} (hc : Raisable code) (tval : BitVec 64) :
    Ends (Executed B) (Allowed trip) (c.trap code tval) :=
  (raise_ends h hc tval).bind fun _ hc' => hc'.executed false

theorem jumpLink_ends (rd : BitVec 5) (npc : BitVec 64) :
    Ends (Executed B) (Allowed trip) (c.jumpLink rd npc) :=
  ends_ite (fun _ => trap_ends h (by decide) _) fun _ =>
    ⟨⟨h.env, h.bus, h.plain⟩, fun hri => by cases hri⟩

theorem branch_ends (inst : BitVec 32) : Ends (Executed B) (Allowed trip) (c.branch inst) := by
  unfold branch
  split
  · exact illegal_ends h
  · exact done_ends h
  · have hb : Ready B { c with debugIsBranch := true } := ⟨⟨h.env, h.bus, h.plain⟩, h.quiet⟩
    refine ends_ite (fun _ => ?_) fun _ => ⟨⟨h.env, h.bus, h.plain⟩, fun hri => by cases hri⟩
    exact (raise_ends hb (by decide) _).bind fun _ hc' => hc'.executed true

end

/-! ### the opcodes with a memory access or an operation of `alu_exec` -/

section
variable {δ : Type} [MmioDev δ] {B : Systembus δ → Prop} (hB : Kept B) {c : RvCore δ}
  (h : Ready B c) {trip : Prop}
include hB h

omit [MmioDev δ] hB in
theorem access_ready {r : RvPriv.VaRes δ} (hr : Accessed B c.priv r) :
    Ready B { c with priv := r.priv, bus := r.bus } :=
  ⟨⟨(congrArg Envelope hr.priv).mpr h.env, hr.bus, h.plain⟩, (congrArg _ hr.priv).trans h.quiet⟩

theorem load_ends (inst : BitVec 32) : Ends (Executed B) (Allowed trip) (c.load inst) := by
  have hread : ∀ a size b : BitVec 64, Ends (fun r => Inside B r.1) (Allowed trip)
      (c.memRead a size b) := by
    intro a size b
    refine ends_ite (fun _ => ?_) fun _ => ?_
    · exact (raise_ends h (by decide) _).bind fun _ hc => hc
    · refine (RvPriv.vaRead_ends hB h.bus h.env a size b).bind fun r hr => ?_
      have hr' := access_ready h hr
      refine ends_ite (fun _ => hr'.toInside) fun _ => ?_
      exact (raise_ends hr' hr.exc _).bind fun _ hc => hc
  unfold load
  simp only
  split
  · exact illegal_ends h
  · refine (hread _ _ _).bind fun r hr => ?_
    obtain ⟨c', ok, buf⟩ := r
    refine ends_ite (fun _ => ?_) fun _ => hr.executed false
    exact ⟨⟨hr.env, hr.bus, hr.plain⟩, fun hri => by cases hri⟩

theorem store_ends (flags : Flags) (inst : BitVec 32) :
    Ends (Executed B) (Allowed trip) (c.store flags inst) := by
  have hwrite : ∀ a size b : BitVec 64, Ends (Inside B) (Allowed trip)
      (c.memWrite flags a size b) := by
    intro a size b
    refine ends_ite (fun _ => raise_ends h (by decide) _) fun _ => ?_
    refine (RvPriv.vaWrite_ends hB h.bus h.env flags a size b).bind fun r hr => ?_
    have hr' := access_ready h hr
    exact ends_ite (fun _ => hr'.toInside) fun _ => raise_ends hr' hr.exc _
  unfold store
  simp only
  split
  · exact illegal_ends h
  · exact (hwrite _ _ _).bind fun _ hc => hc.executed false

omit [MmioDev δ] hB h in
theorem aluExec_ok {op : AluOp} (hop : op ≠ .nop) (a b : BitVec 64) (op32 : Bool) :
    ∃ v, aluExec a b op op32 = .ok v := by
  have hsw : ∀ a b, ∃ v, aluSwitch a b op op32 = .ok v := by
    intro a b
    cases op
    case nop => exact absurd rfl hop
    case div | divu | rem | remu =>
      simp only [aluSwitch]
      split_ifs
      all_goals exact ⟨_, rfl⟩
    all_goals exact ⟨_, rfl⟩
  obtain ⟨v, hv⟩ := hsw (if op32 then sext32 a else a) (if op32 then sext32 b else b)
  refine ⟨if op32 then sext32 v else v, ?_⟩
  unfold aluExec
  rw [hv]
  rfl

omit [MmioDev δ] hB in
theorem computed_ends (inst : BitVec 32) {o : Option AluOp} (ho : o ≠ some .nop) (b : BitVec 64)
    (op32 : Bool) : Ends (Executed B) (Allowed trip) (c.computed inst o b op32) := by
  cases o with
  | none => exact illegal_ends h
  | some op =>
    have hop : op ≠ .nop := fun e => ho (congrArg some e)
    obtain ⟨v, hv⟩ := aluExec_ok hop (c.GPR (RvInstr.rs1 inst)) b op32
    unfold computed
    simp only
    rw [hv]
    exact setGPR_ends h _ _

omit [MmioDev δ] hB in
theorem amoEnd_ends {inst : BitVec 32} {r : RvPriv.VaRes δ} (hr : Accessed B c.priv r)
    (v : BitVec 64) : Ends (Executed B) (Allowed trip) (c.amoEnd inst r v) := by
  have hr' := access_ready h hr
  exact ends_ite (fun _ => setGPR_ends hr' _ _) fun _ => trap_ends hr' hr.exc _

theorem amo_ends (inst : BitVec 32) : Ends (Executed B) (Allowed trip) (c.amo inst) := by
  have hsize : ¬ (RvInstr.funct3 inst != 0b010 && RvInstr.funct3 inst != 0b011) = true →
      1#64 <<< RvInstr.funct3 inst = 4 ∨ 1#64 <<< RvInstr.funct3 inst = 8 := by
    generalize RvInstr.funct3 inst = f3
    revert f3
    decide
  unfold amo
  simp only
  refine ends_ite (fun _ => illegal_ends h) fun hf => ?_
  have hs := hsize hf
  refine ends_ite (fun _ => ?_) fun _ => ?_
  · refine ends_ite (fun _ => illegal_ends h) fun _ => ?_
    exact (RvPriv.vaLr_ends hB h.bus h.env hs _ _).bind fun r hr => amoEnd_ends h hr _
  refine ends_ite (fun _ => ?_) fun _ => ?_
  · exact (RvPriv.vaSc_ends hB h.bus h.env hs _ _).bind fun r hr => amoEnd_ends h hr _
  refine ends_ite (fun hop => ?_) fun _ => illegal_ends h
  exact (RvPriv.vaAmo_ends hB h.bus h.env hs hop _ _).bind fun r hr => amoEnd_ends h hr _

end

/-! ### system instructions -/

section
variable {δ : Type} {B : Systembus δ → Prop} {c : RvCore δ} (h : Ready B c) {trip : Prop}
include h

theorem privEnd_ends {o : Option RvPriv} (ho : ∀ q ∈ o, Envelope q) :
    Ends (Executed B) (Allowed trip) (c.privEnd o) := by
  cases o with
  | none => exact illegal_ends h
  | some p => exact ⟨⟨ho p rfl, h.bus, h.plain⟩, fun hri => by cases hri⟩

theorem ecall_ends : Ends Envelope (Allowed trip) (c.priv.ecall c.pc) := by
  have hc : (c.priv.curPriv.setWidth 63 + 8 : BitVec 63).setWidth 64 ≠ RvExcCode.instrPgfault := by
    rcases h.env.cur with e | e
    all_goals
      rw [e]
      decide
  unfold RvPriv.ecall
  rw [RvPriv.raiseTrap_eq h.env h.quiet c.pc hc 0]
  exact RvPriv.enterM_envelope h.env _ _ _

theorem ebreak_ends : Ends Envelope (Allowed trip) (c.priv.ebreak c.pc) := by
  have hc : (CauseDef.exc RvExcCode.breakpoint).cause.setWidth 64 ≠ RvExcCode.instrPgfault := by
    decide
  unfold RvPriv.ebreak
  rw [RvPriv.raiseTrap_eq h.env h.quiet c.pc hc 0]
  exact RvPriv.enterM_envelope h.env _ _ _

theorem execPriv_ends (flags : Flags) (inst : BitVec 32) :
    Ends (Executed B) (Allowed trip) (c.execPriv flags inst) := by
  have hcall : Ends (Executed B) (Allowed trip) (c.execEcall flags) :=
    ends_ite (fun _ => trivial) fun _ =>
      (ecall_ends h).bind fun _ hp => ⟨⟨hp, h.bus, h.plain⟩, fun hri => by cases hri⟩
  have hbreak : Ends (Executed B) (Allowed trip) (c.execEbreak flags) :=
    ends_ite (fun _ => trivial) fun _ =>
      (ebreak_ends h).bind fun _ hp => ⟨⟨hp, h.bus, h.plain⟩, fun hri => by cases hri⟩
  unfold execPriv
  simp only
  refine ends_ite (fun _ => ?_) fun _ => ?_
  · refine ends_ite (fun _ => illegal_ends h) fun _ => ends_ite (fun _ => hcall) fun _ => ?_
    exact ends_ite (fun _ => hbreak) fun _ => illegal_ends h
  refine ends_ite (fun _ => ?_) fun _ => ?_
  · refine ends_ite (fun _ => done_ends h) fun _ => ?_
    refine ends_ite (fun _ => privEnd_ends h (RvPriv.sret_envelope h.env)) fun _ => ?_
    exact ends_ite (fun _ => done_ends h) fun _ => illegal_ends h
  refine ends_ite (fun _ => ?_) fun _ => ?_
  · exact ends_ite (fun _ => privEnd_ends h (RvPriv.mret_envelope h.env)) fun _ => illegal_ends h
  · exact ends_ite (fun _ => privEnd_ends h (RvPriv.sfenceVma_envelope h.env _ _)) fun _ =>
      illegal_ends h

omit h in
/-- does a CSR instruction write, and which value for the old one; `none` for another `funct3` -/
def csrForm (c : RvCore δ) (inst : BitVec 32) : Option (Bool × (BitVec 64 → BitVec 64)) :=
  let f3 := RvInstr.funct3 inst
  let rs1 := RvInstr.rs1 inst
  let a := c.GPR rs1
  let zimm : BitVec 64 := rs1.setWidth 64
  if f3 = Funct3.CSRRW then some (true, fun _ => a)
  else if f3 = Funct3.CSRRS then some (rs1 != 0, fun old => old ||| a)
  else if f3 = Funct3.CSRRC then some (rs1 != 0, fun old => old &&& ~~~a)
  else if f3 = Funct3.CSRRWI then some (true, fun _ => zimm)
  else if f3 = Funct3.CSRRSI then some (rs1 != 0, fun old => old ||| zimm)
  else if f3 = Funct3.CSRRCI then some (rs1 != 0, fun old => old &&& ~~~zimm)
  else none

omit h in
/-- the case of `decode_exec` for SYSTEM, by the form of the CSR instruction -/
theorem system_eq (c : RvCore δ) (flags : Flags) (inst : BitVec 32) : c.system flags inst =
    if RvInstr.funct3 inst = Funct3.PRIV then c.execPriv flags inst
    else (c.csrForm inst).elim c.illegal fun f => c.csrOp flags inst f.1 f.2 := by
  unfold system csrForm
  simp only
  split_ifs <;> rfl

omit h in
/-- The instruction writes `mtvec` with a mode above 1. -/
def TvecTrip (c : RvCore δ) (inst : BitVec 32) : Prop :=
  RvInstr.opcode inst = Opcode.SYSTEM ∧ inst.extractLsb' 20 12 = RvCsrAddr.mtvec ∧
    RvInstr.funct3 inst ≠ Funct3.PRIV ∧ c.priv.curPriv = PrivMode.M_MODE ∧
    ∃ f ∈ c.csrForm inst, f.1 = true ∧ 1 < Tvec.mode (f.2 c.priv.mtvec)

theorem csrOp_ends (flags : Flags) (inst : BitVec 32) {write : Bool} {value : BitVec 64 → BitVec 64}
    (ht : inst.extractLsb' 20 12 = RvCsrAddr.mtvec → c.priv.curPriv = PrivMode.M_MODE →
      write = true → 1 < Tvec.mode (value c.priv.mtvec) → trip) :
    Ends (Executed B) (Allowed trip) (c.csrOp flags inst write value) := by
  unfold csrOp
  simp only
  refine ends_ite (fun _ => illegal_ends h) fun hperm => ?_
  have hm : c.priv.curPriv = PrivMode.M_MODE := by
    by_contra hne
    rw [RvPriv.csrOpPermissionCheck, if_pos (bne_iff_ne.mpr hne)] at hperm
    exact hperm rfl
  split
  · exact illegal_ends h
  rename_i old hold
  have hsome : ∀ p : RvPriv, Envelope p ∧ p.curNeedTrap = c.priv.curNeedTrap →
      Ends (Executed B) (Allowed trip)
        (if RvInstr.rd inst != 0 then ({ c with priv := p }.setGPR (RvInstr.rd inst) old).done
          else { c with priv := p }.done) := by
    intro p hp
    have hp' : Ready B { c with priv := p } := ⟨⟨hp.1, h.bus, h.plain⟩, hp.2.trans h.quiet⟩
    exact ends_ite (fun _ => setGPR_ends hp' _ _) fun _ => done_ends hp'
  refine ends_ite (fun hw => ?_) fun _ => hsome c.priv ⟨h.env, rfl⟩
  refine ((RvPriv.csrWrite_ends h.env flags _ (value old)).mono (fun _ ho => ho) ?_).bind
    fun o ho => ?_
  · rintro (_ | _) ⟨ha, hmode⟩
    · have he : old = c.priv.mtvec := by
        rw [ha] at hold
        exact (Option.some.inj hold).symm
      exact ht ha hm hw (he ▸ hmode)
    · trivial
  · cases o with
    | none => exact illegal_ends h
    | some p => exact hsome p (ho p rfl)

theorem system_ends (flags : Flags) {inst : BitVec 32} (hop : RvInstr.opcode inst = Opcode.SYSTEM) :
    Ends (Executed B) (Allowed (c.TvecTrip inst)) (c.system flags inst) := by
  rw [system_eq]
  refine ends_ite (fun _ => execPriv_ends h flags inst) fun h₀ => ?_
  cases hf : c.csrForm inst with
  | none => exact illegal_ends h
  | some f => exact csrOp_ends h flags inst fun ha hm hw hmode => ⟨hop, ha, h₀, hm, f, hf, hw, hmode⟩

end

/-! ### the operations of `alu_exec` -/

theorem ite_ne {α : Type} {p : Prop} [Decidable p] {x y z : α} (hx : x ≠ z) (hy : y ≠ z) :
    (if p then x else y) ≠ z := by
  by_cases hp : p
  · rwa [if_pos hp]
  · rwa [if_neg hp]

/-- the right shifts, which differ in one bit of the word -/
theorem shiftRight_ne_nop (p : Prop) [Decidable p] :
    some (if p then AluOp.sra else .srl) ≠ some .nop :=
  fun h => absurd (Option.some.inj h) (ite_ne (by decide) (by decide))

theorem opImmKind_ne_nop (inst : BitVec 32) : (opImmKind inst).1 ≠ some .nop := by
  unfold opImmKind
  simp only [apply_ite Prod.fst]
  repeat' apply ite_ne
  all_goals first | exact shiftRight_ne_nop _ | nofun

theorem opImm32Kind_ne_nop (inst : BitVec 32) : (opImm32Kind inst).1 ≠ some .nop := by
  unfold opImm32Kind
  simp only [apply_ite Prod.fst]
  repeat' apply ite_ne
  all_goals first | exact shiftRight_ne_nop _ | nofun

theorem opKind_ne_nop (f7 : BitVec 7) (f3 : BitVec 3) : opKind f7 f3 ≠ some .nop := by
  unfold opKind
  repeat' apply ite_ne
  all_goals nofun

theorem op32Kind_ne_nop (f7 : BitVec 7) (f3 : BitVec 3) : op32Kind f7 f3 ≠ some .nop := by
  unfold op32Kind
  repeat' apply ite_ne
  all_goals nofun

/-! ### a step -/

section
variable {δ : Type} [MmioDev δ] {B : Systembus δ → Prop} (hB : Kept B)
include hB

/-- **An instruction stays in the envelope and fails no assertion but that on `mtvec`.** -/
theorem decodeExec_ends {c : RvCore δ} (h : Ready B c) (flags : Flags) (inst : BitVec 32) :
    Ends (Executed B) (Allowed (c.TvecTrip inst)) (c.decodeExec flags inst) := by
  have hd : Ready B { c with debugInst := inst } := ⟨⟨h.env, h.bus, h.plain⟩, h.quiet⟩
  unfold decodeExec
  simp only
  refine ends_ite (fun _ => illegal_ends hd) fun _ => ?_
  refine ends_ite (fun _ => setGPR_ends hd _ _) fun _ => ?_
  refine ends_ite (fun _ => setGPR_ends hd _ _) fun _ => ?_
  refine ends_ite (fun _ => jumpLink_ends hd _ _) fun _ => ?_
  refine ends_ite (fun _ => jumpLink_ends hd _ _) fun _ => ?_
  refine ends_ite (fun _ => branch_ends hd inst) fun _ => ?_
  refine ends_ite (fun _ => load_ends hB hd inst) fun _ => ?_
  refine ends_ite (fun _ => store_ends hB hd flags inst) fun _ => ?_
  refine ends_ite (fun _ => computed_ends hd inst (opImmKind_ne_nop inst) _ _) fun _ => ?_
  refine ends_ite (fun _ => computed_ends hd inst (opImm32Kind_ne_nop inst) _ _) fun _ => ?_
  refine ends_ite (fun _ => computed_ends hd inst (opKind_ne_nop _ _) _ _) fun _ => ?_
  refine ends_ite (fun _ => computed_ends hd inst (op32Kind_ne_nop _ _) _ _) fun _ => ?_
  refine ends_ite (fun _ => amo_ends hB hd inst) fun _ => ?_
  refine ends_ite (fun _ => done_ends hd) fun _ => ?_
  exact ends_ite (fun hop => system_ends hd flags hop) fun _ => illegal_ends hd

omit [MmioDev δ] hB in
theorem settle_ends {e : ExecState δ} (h : Executed B e) {trip : Prop} (inst : BitVec 32)
    (rvc : Bool) : Ends (Inside B) (Allowed trip) (e.settle inst rvc) := by
  rw [ExecState.settle_eq]
  have hraise : Ends (Inside B) (Allowed trip) (if e.ri then
      e.core.raise RvExcCode.illegalInstr (inst.setWidth 64) else .ok e.core) :=
    ends_ite (fun hri => raise_ends ⟨h.inside, h.quiet hri⟩ (by decide) _) fun _ => h.inside
  exact hraise.bind fun c hc => ⟨hc.env, hc.bus, hc.plain⟩

end
end RvCore

/-! ## runs -/

/-- the interrupt lines of one step -/
structure RvLines where
  meip : Bool
  msip : Bool
  mtip : Bool
  seip : Bool

/-- the privileged state in which a step looks for interrupts, fetches and executes -/
def RvPriv.entered (p : RvPriv) (i : RvLines) : RvPriv :=
  { p with
    mcycle := p.mcycle + 1
    ip := setLines p.ip i.meip i.msip i.mtip i.seip
    curNeedTrap := false
    curPriv := p.nextPriv }

theorem Envelope.entered {p : RvPriv} (h : Envelope p) (i : RvLines) : Envelope (p.entered i) :=
  ⟨h.next, h.next, h.status, h.satp, h.medeleg, h.mideleg⟩

namespace RvCore
section
variable {δ : Type}

/-- The reference after its constructors.  The debug fields and `int_allow`, which are not
initialised, are zero here. -/
def init (flags : Flags) (hartId : BitVec 64) (sv39 : Sv39 32) (ext0 : BitVec 26)
    (bus : Systembus δ) : RvCore δ where
  debugPc := 0
  debugRegNum := 0
  debugRegWdata := 0
  debugInst := 0
  debugIsBranch := false
  intAllow := false
  difftestMode := false
  pc := 0
  priv := .init flags hartId sv39 ext0
  bus := bus
  GPR := fun _ => 0

end

variable {δ : Type} [MmioDev δ]

/-- The word that a step executes: none at the time limit, when an interrupt is taken or when the
fetch traps. -/
def fetches (flags : Flags) (i : RvLines) (c : RvCore δ) : Option (BitVec 32) :=
  if flags.runRiscvTest && 2000000#64 ≤ c.priv.mcycle then none
  else if (c.priv.entered i).finalIntIndex != RvExcCode.customOk then none
  else if c.pc % 4 != 0 then none
  else if (c.bus.paRead c.pc 4 0).ok then some ((c.bus.paRead c.pc 4 0).buffer.setWidth 32)
  else none

theorem mem_fetches {flags : Flags} {i : RvLines} {c : RvCore δ} {w : BitVec 32} :
    w ∈ c.fetches flags i ↔
      ¬ (flags.runRiscvTest && 2000000#64 ≤ c.priv.mcycle) = true ∧
      ¬ ((c.priv.entered i).finalIntIndex != RvExcCode.customOk) = true ∧ c.pc % 4 = 0 ∧
      (c.bus.paRead c.pc 4 0).ok = true ∧ w = (c.bus.paRead c.pc 4 0).buffer.setWidth 32 := by
  have hpc : ¬ (c.pc % 4 != 0) = true ↔ c.pc % 4 = 0 := by
    rw [bne_iff_ne, not_not]
  rw [fetches, Option.mem_ite_none_left, Option.mem_ite_none_left, Option.mem_ite_none_left,
    Option.mem_ite_none_right, hpc, Option.mem_some, @eq_comm _ w]

/-- The step writes `mtvec` with a mode above 1. -/
def StepTrips (flags : Flags) (i : RvLines) (c : RvCore δ) : Prop :=
  ∃ w ∈ c.fetches flags i, TvecTrip { c with priv := c.priv.entered i } w

omit [MmioDev δ] in
/-- the start of a step: an interrupt is taken, or nothing happens -/
theorem interrupts_eq {c : RvCore δ} (h : Envelope c.priv) (hp : c.difftestMode = false)
    (i : RvLines) : c.interrupts i.meip i.msip i.mtip i.seip = .ok { c with
      priv := if (c.priv.entered i).finalIntIndex != RvExcCode.customOk then
        (c.priv.entered i).enterM c.pc ⟨(c.priv.entered i).finalIntIndex.setWidth 63, true⟩ 0
        else c.priv.entered i } := by
  have hpre : c.priv.preExec c.pc i.meip i.msip i.mtip i.seip = _ :=
    RvPriv.checkAndRaiseInt_eq (h.entered i) rfl c.pc
  unfold interrupts
  rw [if_pos (by rw [hp]; rfl), hpre]
  rfl

/-- the core when `exec` comes to the fetch -/
def atFetch (c : RvCore δ) (i : RvLines) : RvCore δ :=
  { c with
    debugPc := c.pc
    debugIsBranch := false
    debugRegNum := 0
    debugRegWdata := 0
    priv := if (c.priv.entered i).finalIntIndex != RvExcCode.customOk then
      (c.priv.entered i).enterM c.pc ⟨(c.priv.entered i).finalIntIndex.setWidth 63, true⟩ 0
      else c.priv.entered i }

theorem exec_eq {c : RvCore δ} (h : Envelope c.priv) (hp : c.difftestMode = false) (flags : Flags)
    (i : RvLines) : c.exec flags i.meip i.msip i.mtip i.seip =
      if flags.runRiscvTest && 2000000#64 ≤ c.priv.mcycle then .error (.exit 1)
      else (c.atFetch i).fetchExec flags >>= retire := by
  unfold exec
  simp only
  split
  · rfl
  · have hI := fun d n v b => interrupts_eq
      (c := { c with debugPc := d, debugRegNum := n, debugRegWdata := v, debugIsBranch := b }) h hp i
    rw [hI]
    rfl

/-- the fetch of a word and its execution -/
theorem fetchExec_word {c : RvCore δ} (hs : c.priv.satp = 0) (hn : c.priv.curNeedTrap = false)
    (hpc : c.pc % 4 = 0) (hok : (c.bus.paRead c.pc 4 0).ok = true) {w : BitVec 32}
    (hw : w = (c.bus.paRead c.pc 4 0).buffer.setWidth 32) (flags : Flags) :
    c.fetchExec flags = ({ c with bus := (c.bus.paRead c.pc 4 0).bus }.decodeExec flags w >>=
      fun e => e.settle w (isRvc w)) := by
  have hpc' : ¬ (c.pc % 4 != 0) = true := by simpa using hpc
  subst hw
  unfold fetchExec
  rw [hn, if_neg Bool.false_ne_true, if_neg hpc', RvPriv.vaIf_bare c.bus hs hpc 0, hok]
  rfl

section
variable {B : Systembus δ → Prop} (hB : Kept B)
include hB

theorem fetchExec_ends {c : RvCore δ} (h : Ready B c) (flags : Flags) {trip : Prop}
    (ht : c.pc % 4 = 0 → (c.bus.paRead c.pc 4 0).ok = true →
      c.TvecTrip ((c.bus.paRead c.pc 4 0).buffer.setWidth 32) → trip) :
    Ends (Inside B) (Allowed trip) (c.fetchExec flags) := by
  unfold fetchExec
  refine ends_ite (fun hn => ?_) fun _ => ?_
  · rw [h.quiet] at hn
    cases hn
  refine ends_ite (fun _ => ?_) fun hpc => ?_
  · exact (trap_ends h (by decide) _).bind fun e he => settle_ends he 0 false
  have hpc' : c.pc % 4 = 0 := by simpa using hpc
  rw [RvPriv.vaIf_bare c.bus h.env.satp hpc' 0]
  have hr : Ready B { c with priv := c.priv, bus := (c.bus.paRead c.pc 4 0).bus } :=
    ⟨⟨h.env, hB.read h.bus _ _ _, h.plain⟩, h.quiet⟩
  refine ends_ite (fun hexc => ?_) fun hexc => ?_
  · exact (trap_ends hr (raisable_ite _ (by decide)) _).bind fun e he => settle_ends he _ _
  · have hok : (c.bus.paRead c.pc 4 0).ok = true := by
      by_contra hn
      rw [Bool.not_eq_true] at hn
      simp only [hn, Bool.false_eq_true, if_false] at hexc
      exact hexc (by decide)
    refine ((decodeExec_ends hB hr flags _).mono (fun _ he => he) ?_).bind
      fun e he => settle_ends he _ _
    rintro (_ | _) hq
    · exact ht hpc' hok hq
    · trivial

/-- **A step stays in the envelope and fails no assertion but that on `mtvec`.** -/
theorem exec_ends {c : RvCore δ} (h : Inside B c) (flags : Flags) (i : RvLines) :
    Ends (Inside B) (Allowed (c.StepTrips flags i))
      (c.exec flags i.meip i.msip i.mtip i.seip) := by
  have hretire : ∀ {c' : RvCore δ} {trip : Prop}, Inside B c' →
      Ends (Inside B) (Allowed trip) c'.retire := by
    intro c' trip hc
    unfold retire RvPriv.postExec
    rw [hc.env.status.blank]
    exact ⟨⟨hc.env.cur, hc.env.next, hc.env.status, hc.env.satp, hc.env.medeleg, hc.env.mideleg⟩,
      hc.bus, hc.plain⟩
  have hent := h.env.entered i
  rw [exec_eq h.env h.plain]
  refine ends_ite (fun _ => trivial) fun htime => ?_
  refine Ends.bind ?_ fun _ hc => hretire hc
  by_cases hint : ((c.priv.entered i).finalIntIndex != RvExcCode.customOk) = true
  · have hpriv : (c.atFetch i).priv = (c.priv.entered i).enterM c.pc
        ⟨(c.priv.entered i).finalIntIndex.setWidth 63, true⟩ 0 := if_pos hint
    have hc : Inside B (c.atFetch i) :=
      ⟨(congrArg Envelope hpriv).mpr (RvPriv.enterM_envelope hent _ _ _), h.bus, h.plain⟩
    refine ends_ite (fun _ => settle_ends (hc.executed false) 0 false) fun hn => ?_
    rw [hpriv] at hn
    exact absurd rfl hn
  · have hpriv : (c.atFetch i).priv = c.priv.entered i := if_neg hint
    have hr : Ready B (c.atFetch i) :=
      ⟨⟨(congrArg Envelope hpriv).mpr hent, h.bus, h.plain⟩, congrArg RvPriv.curNeedTrap hpriv⟩
    refine fetchExec_ends hB hr flags fun hpc hok htrip =>
      ⟨_, mem_fetches.mpr ⟨htime, hint, hpc, hok, rfl⟩, ?_⟩
    · obtain ⟨hop, ha, hf3, hm, f, hf, hw, hv⟩ := htrip
      rw [hpriv] at hm hv
      exact ⟨hop, ha, hf3, hm, f, hf, hw, hv⟩

end
end RvCore

/-- `step` under arbitrary interrupt lines, until the simulation ends; the core is one after its
constructor, with any bus, pc and registers. -/
def rvMachine (δ : Type) [MmioDev δ] (flags : Flags) :
    Clocked (Except Halt (RvCore δ)) RvLines where
  init s := ∃ hartId sv39 ext0 bus pc regs,
    s = .ok { RvCore.init flags hartId sv39 ext0 bus with pc := pc, GPR := regs }
  next i s := do
    let c ← s
    c.exec flags i.meip i.msip i.mtip i.seip

end HduCpu
