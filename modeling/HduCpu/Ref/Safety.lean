import HduCpu.Ref.Ram

/-!
# What no run of the reference does

The walk over `exec` in `HduCpu.Ref.Envelope`, applied to whole runs from the state after the
constructor, under any program and any interrupt lines.

* `reach_envelope`         no run leaves machine and user mode, translates or delegates;
* `RvCore.exec_trips`      the one assertion that a program can fail;
* `assertFailed_iff`       a run fails an assertion exactly when a step writes `mtvec` with a mode
                           above 1.
-/

namespace HduCpu

/-! ## the envelope -/

theorem rvMachine_inside (δ : Type) [MmioDev δ] (flags : Flags) : (rvMachine δ flags).Invariant
    (Ends (Inside fun _ => True) fun _ => True) where
  base := by
    rintro s ⟨hartId, sv39, ext0, bus, pc, regs, rfl⟩
    exact ⟨envelope_init flags hartId sv39 ext0, trivial, rfl⟩
  step i s hs := hs.bind fun c hc =>
    (RvCore.exec_ends kept_true hc flags i).mono (fun _ h => h) fun _ _ => trivial

/-- **No run leaves machine and user mode, translates an address or delegates a trap**, whatever
the program and the interrupt lines.  `p` is the privileged state in which the next step looks for
interrupts (`interrupts`), fetches (`vaIf`) and executes: each of its traps is entered in machine
mode, and each of its accesses is one access to the bus, at its own address, without the TLB. -/
theorem reach_envelope {δ : Type} [MmioDev δ] {flags : Flags} {c : RvCore δ}
    (h : (rvMachine δ flags).Reach (.ok c)) :
    (c.priv.curPriv = PrivMode.U_MODE ∨ c.priv.curPriv = PrivMode.M_MODE) ∧
    (c.priv.nextPriv = PrivMode.U_MODE ∨ c.priv.nextPriv = PrivMode.M_MODE) ∧
    (Mstatus.mpp c.priv.status = PrivMode.U_MODE ∨ Mstatus.mpp c.priv.status = PrivMode.M_MODE) ∧
    c.priv.satp = 0 ∧ c.priv.medeleg = 0 ∧ c.priv.mideleg = 0 ∧
    Mstatus.spp c.priv.status = false ∧
    ∀ i p, p = c.priv.entered i →
      c.interrupts i.meip i.msip i.mtip i.seip = .ok { c with
        priv := if p.finalIntIndex != RvExcCode.customOk then
          p.enterM c.pc ⟨p.finalIntIndex.setWidth 63, true⟩ 0 else p } ∧
      (∀ pc cause tval q, p.raiseTrap pc cause tval = .ok q → q = p.enterM pc cause tval) ∧
      (∀ (bus : Systembus δ) f allowed access a size b,
        p.vaAccess bus f allowed access a size b = (do
          let r ← access bus a
          .ok ⟨if r.ok then RvExcCode.customOk else f.bareFail, r.buffer, p, r.bus⟩)) ∧
      (∀ (bus : Systembus δ) a size b, p.vaIfOne bus a size b =
        .ok ⟨if (bus.paRead a size b).ok then RvExcCode.customOk else RvExcCode.instrAccFault,
          (bus.paRead a size b).buffer, p, (bus.paRead a size b).bus⟩) ∧
      ∀ (bus : Systembus δ) a b r, p.vaIf bus a 4 b = .ok r → r.1.priv = p := by
  have hc : Inside (fun _ => True) c := (rvMachine_inside δ flags).reach h
  refine ⟨hc.env.cur, hc.env.next, hc.env.status.mpp, hc.env.satp, hc.env.medeleg, hc.env.mideleg,
    hc.env.status.spp, ?_⟩
  rintro i p rfl
  have hp := hc.env.entered i
  refine ⟨RvCore.interrupts_eq hc.env hc.plain i, fun pc cause tval q hq => ?_,
    fun bus => RvPriv.vaAccess_bare bus (RvPriv.bare_of_satp hp.satp),
    fun bus => RvPriv.vaIfOne_bare bus hp.satp, fun bus a b r hr => ?_⟩
  · unfold RvPriv.raiseTrap at hq
    rw [RvPriv.trapToS_envelope hp] at hq
    by_cases hpf : (!(cause.cause.setWidth 64 == RvExcCode.instrPgfault &&
        tval == ((c.priv.entered i).enterM pc cause tval).trapPc)) = true
    · simp only [Bool.false_eq_true, if_false, hpf] at hq
      exact (Except.ok.inj hq).symm
    · simp only [Bool.false_eq_true, if_false, hpf] at hq
      cases hq
  · have hif : Ends (fun r => Accessed (fun _ => True) (c.priv.entered i) r.1) (Allowed True)
        ((c.priv.entered i).vaIf bus a 4 b) := RvPriv.vaIf_ends kept_true trivial hp a b
    exact (hif.ok hr).priv

/-- `mret` in machine mode, the old mode being user mode: the envelope holds in the state after it -/
theorem reach_envelope_mret : ∃ c : RvCore MmioMem,
    (rvMachine MmioMem testFlags).Reach (.ok c) ∧ c.priv.nextPriv = PrivMode.U_MODE ∧
      c.priv.satp = 0 ∧ Mstatus.spp c.priv.status = false := by
  have h₀ : (rvMachine MmioMem testFlags).Reach (.ok (.boots [0x30200073])) :=
    .init ⟨_, _, _, _, _, _, rfl⟩
  obtain ⟨c, hc⟩ : ∃ c, (rvMachine MmioMem testFlags).next .low (.ok (.boots [0x30200073])) =
      .ok c := ⟨_, rfl⟩
  have hr := h₀.next RvLines.low
  rw [hc] at hr
  obtain ⟨-, -, -, hsatp, -, -, hspp, -⟩ := reach_envelope hr
  refine ⟨c, hr, ?_, hsatp, hspp⟩
  cases hc
  rfl

/-! ## assertions -/

namespace RvCore
section
variable {δ : Type} {c : RvCore δ} {inst : BitVec 32}

theorem csrOp_trips (flags : Flags) {value : BitVec 64 → BitVec 64}
    (ha : inst.extractLsb' 20 12 = RvCsrAddr.mtvec) (hm : c.priv.curPriv = PrivMode.M_MODE)
    (hv : 1 < Tvec.mode (value c.priv.mtvec)) :
    c.csrOp flags inst true value = .error .assertFailed := by
  have hperm : c.priv.csrOpPermissionCheck RvCsrAddr.mtvec true = true := by
    rw [RvPriv.csrOpPermissionCheck, hm]
    rfl
  have hread : c.priv.csrRead RvCsrAddr.mtvec = some c.priv.mtvec := rfl
  have hassert : assertThat (Tvec.mode (value c.priv.mtvec) ≤ 1) = .error .assertFailed := by
    rw [assertThat, if_neg]
    simpa using hv
  have hwrite : c.priv.csrWrite flags RvCsrAddr.mtvec (value c.priv.mtvec) =
      .error .assertFailed := by
    show (assertThat (Tvec.mode (value c.priv.mtvec) ≤ 1) >>= fun _ => _) = _
    rw [hassert]
    rfl
  unfold csrOp
  simp only [ha, hperm, hread, hwrite]
  rfl

variable [MmioDev δ]

theorem decodeExec_trips (flags : Flags) (h : c.TvecTrip inst) :
    c.decodeExec flags inst = .error .assertFailed := by
  obtain ⟨hop, ha, hf3, hm, f, hf, hw, hv⟩ := h
  have hs : c.decodeExec flags inst = { c with debugInst := inst }.system flags inst := by
    simp only [decodeExec, isRvc, hop]
    rfl
  have hf' : { c with debugInst := inst }.csrForm inst = some f := hf
  rw [hs, system_eq, if_neg hf3, hf', Option.elim_some, hw]
  exact csrOp_trips flags ha hm hv

/-- A step that writes `mtvec` with a mode above 1 fails the assertion. -/
theorem exec_trips {B : Systembus δ → Prop} (h : Inside B c) {flags : Flags} {i : RvLines}
    (ht : c.StepTrips flags i) :
    c.exec flags i.meip i.msip i.mtip i.seip = .error .assertFailed := by
  obtain ⟨w, hw, htrip⟩ := ht
  obtain ⟨htime, hint, hpc, hok, hbuf⟩ := mem_fetches.mp hw
  have hpriv : (c.atFetch i).priv = c.priv.entered i := if_neg hint
  rw [exec_eq h.env h.plain, if_neg htime]
  have htrip' : ∀ bus : Systembus δ, TvecTrip { c.atFetch i with bus := bus } w := by
    intro bus
    obtain ⟨hop, ha, hf3, hm, f, hf, hwr, hv⟩ := htrip
    refine ⟨hop, ha, hf3, ?_, f, hf, hwr, ?_⟩
    · rw [hpriv]
      exact hm
    · rw [hpriv]
      exact hv
  have hsatp : (c.atFetch i).priv.satp = 0 := by
    rw [hpriv]
    exact h.env.satp
  rw [fetchExec_word hsatp (by rw [hpriv]; rfl) hpc hok hbuf, decodeExec_trips flags (htrip' _)]
  rfl

end
end RvCore

/-- **A run fails an assertion exactly when one of its steps writes `mtvec` with a mode above 1.**
No other assertion can fail: a second trap in one step, an operation without a case, reserved bits
of `mstatus` and a non-canonical address for the TLB are all excluded, whatever the program, the
bus and the interrupt lines. -/
theorem assertFailed_iff {δ : Type} [MmioDev δ] (flags : Flags) (hartId : BitVec 64)
    (sv39 : Sv39 32) (ext0 : BitVec 26) (bus : Systembus δ) (pc : BitVec 64)
    (regs : BitVec 5 → BitVec 64) (inp : ℕ → RvLines) (n : ℕ) :
    let s₀ : Except Halt (RvCore δ) :=
      .ok { RvCore.init flags hartId sv39 ext0 bus with pc := pc, GPR := regs }
    (rvMachine δ flags).run inp s₀ n = .error .assertFailed ↔
      ∃ m < n, ∃ c, (rvMachine δ flags).run inp s₀ m = .ok c ∧ c.StepTrips flags (inp m) := by
  intro s₀
  have hin : ∀ n, Ends (Inside fun _ => True) (fun _ => True)
      ((rvMachine δ flags).run inp s₀ n) :=
    (rvMachine_inside δ flags).run inp ⟨hartId, sv39, ext0, bus, pc, regs, rfl⟩
  induction n with
  | zero =>
    refine ⟨fun h => (by cases h), ?_⟩
    rintro ⟨m, hm, -⟩
    exact absurd hm (Nat.not_lt_zero m)
  | succ n ih =>
    have hstep : (rvMachine δ flags).run inp s₀ (n + 1) = ((rvMachine δ flags).run inp s₀ n >>=
        fun c => c.exec flags (inp n).meip (inp n).msip (inp n).mtip (inp n).seip) := rfl
    have hn := hin n
    constructor
    · intro h
      rw [hstep] at h
      cases hr : (rvMachine δ flags).run inp s₀ n with
      | error e =>
        rw [hr] at h
        obtain ⟨m, hm, hc⟩ := ih.mp (hr.trans h)
        exact ⟨m, Nat.lt_succ_of_lt hm, hc⟩
      | ok c =>
        rw [hr] at h hn
        exact ⟨n, Nat.lt_succ_self n, c, hr, (RvCore.exec_ends kept_true hn flags (inp n)).error h⟩
    · rintro ⟨m, hm, c, hr, ht⟩
      rw [hstep]
      rcases Nat.lt_succ_iff_lt_or_eq.mp hm with hlt | rfl
      · rw [ih.mpr ⟨m, hlt, c, hr, ht⟩]
        rfl
      · rw [hr] at hn ⊢
        exact RvCore.exec_trips hn ht

/-- `csrrwi x0, mtvec, 2` -/
theorem mtvec_write_asserts : ¬ ∀ (prog : List (BitVec 32)) (inp : ℕ → RvLines) (n : ℕ),
    (rvMachine MmioMem testFlags).run inp (.ok (.boots prog)) n ≠ .error .assertFailed := by
  intro h
  exact h [0x30515073] (fun _ => .low) 1 rfl

end HduCpu
