import HduCpu.Ref.Effect
import HduCpu.Ref.Safety

/-!
# What `minstret` counts

`post_exec` counts a step when the flag of a trap is clear.  `mret` and `sret` set the same flag to
redirect the pc, so that `minstret` misses them, and nothing else.

* `Outcome.retired`        the steps whose instruction completes;
* `RvCore.exec_minstret`, `exec_trapped`   what a step counts, and why it does not;
* `StepReturns`            the step executes a legal `mret` or `sret`;
* `minstret_completed`     what a run counts;
* `minstret_retired_iff`   `minstret` is the number of retired instructions exactly in the runs
                           without such a step.
-/

namespace HduCpu

/-- the instruction of the step has completed -/
def Outcome.retired : Outcome → Bool
  | .trapped => false
  | .returned => true
  | .completed => true

section
variable {δ : Type} [MmioDev δ] (flags : Flags) (i : RvLines)

/-- the outcome of the next step of a run, if there is one -/
def stepOutcome (s : Except Halt (RvCore δ)) : Option Outcome :=
  (s >>= fun c => c.outcome flags i).toOption

end

/-! ## a step -/

namespace RvCore
section
variable {δ : Type} [MmioDev δ]

/-- **A step counts** when it has completed an instruction other than `mret` and `sret`. -/
theorem exec_minstret (c : RvCore δ) (flags : Flags) (i : RvLines) :
    Ends (fun c' => ∃ o, c.outcome flags i = .ok o ∧
        c'.priv.minstret = if o = .completed then c.priv.minstret + 1 else c.priv.minstret) AnyHalt
      (c.exec flags i.meip i.msip i.mtip i.seip) := by
  refine (exec_step c flags i).imp fun c' hc => ?_
  obtain ⟨q, o, hm, hq, ho, hf, -⟩ := hc
  have hpost : Ends (fun p => p.minstret = if q.curNeedTrap then q.minstret else q.minstret + 1)
      AnyHalt q.postExec := (ends_any _).bind fun _ _ => rfl
  refine ⟨o, ho, ?_⟩
  rw [hpost.ok hq, hm.minstret]
  by_cases h : o = .completed
  · rw [if_pos h, if_neg fun hn => hf.mp hn h]
  · rw [if_neg h, if_pos (hf.mpr h)]

/-- **A step that retires nothing** has raised a trap, an exception or an interrupt. -/
theorem exec_trapped {c : RvCore δ} (hp : c.difftestMode = false) {flags : Flags} {i : RvLines}
    (ho : c.outcome flags i = .ok .trapped) :
    Ends (fun c' => ∃ q : RvPriv, q.Trapped ∧ c'.priv = { q with curNeedTrap := false }) AnyHalt
      (c.exec flags i.meip i.msip i.mtip i.seip) := by
  refine (exec_step c flags i).imp fun c' hc => ?_
  obtain ⟨q, o, -, hq, ho', -, ht⟩ := hc
  have htrap : q.Trapped := ht hp (Except.ok.inj (ho'.symm.trans ho))
  have hpost : Ends (fun p => p = { q with curNeedTrap := false }) AnyHalt q.postExec := by
    refine (ends_any _).bind fun _ _ => ?_
    show { q with
      minstret := if q.curNeedTrap then q.minstret else q.minstret + 1
      curNeedTrap := false } = { q with curNeedTrap := false }
    rw [htrap.flag]
    rfl
  exact ⟨q, htrap, hpost.ok hq⟩

/-- The step executes an `mret` or `sret` that is legal. -/
def StepReturns (flags : Flags) (i : RvLines) (c : RvCore δ) : Prop :=
  ∃ w ∈ c.fetches flags i, ((c.priv.entered i).returned w).isSome = true

/-- In the envelope a step comes to `decode_exec` with the word of `fetches`, in the state in which
it looks for interrupts. -/
theorem issue_fetches {c : RvCore δ} (h : Envelope c.priv) (hp : c.difftestMode = false)
    (flags : Flags) (i : RvLines) :
    Ends (fun o => o.map (fun r => (r.1.priv, r.2)) =
        (c.fetches flags i).map fun w => (c.priv.entered i, w))
      (fun _ => c.fetches flags i = none) (c.issue flags i) := by
  have hint := interrupts_eq (c := { c with
    debugPc := c.pc, debugIsBranch := false, debugRegNum := 0, debugRegWdata := 0 }) h hp i
  have hword : Ends (fun o => o.map (fun r => (r.1.priv, r.2)) =
      (if (c.priv.entered i).finalIntIndex != RvExcCode.customOk then none
        else if c.pc % 4 != 0 then none
        else if (c.bus.paRead c.pc 4 0).ok then some ((c.bus.paRead c.pc 4 0).buffer.setWidth 32)
        else none).map fun w => (c.priv.entered i, w)) (fun _ => False) (c.atFetch i).fetchWord := by
    unfold fetchWord
    cases hf : (c.priv.entered i).finalIntIndex != RvExcCode.customOk with
    | true =>
      have hpriv : (c.atFetch i).priv = (c.priv.entered i).enterM c.pc
          ⟨(c.priv.entered i).finalIntIndex.setWidth 63, true⟩ 0 := if_pos hf
      rw [hpriv]
      rfl
    | false =>
      have hpriv : (c.atFetch i).priv = c.priv.entered i :=
        if_neg (ne_true_of_eq_false hf)
      rw [hpriv]
      show Ends _ _ (if c.pc % 4 != 0 then _ else (c.priv.entered i).vaIf c.bus c.pc 4 0 >>= _)
      cases h4 : c.pc % 4 != 0 with
      | true => rfl
      | false =>
        have h4' : c.pc % 4 = 0 := by simpa using h4
        rw [RvPriv.vaIf_bare c.bus (p := c.priv.entered i) h.satp h4' 0]
        cases hok : (c.bus.paRead c.pc 4 0).ok with
        | true => rfl
        | false => rfl
  unfold issue fetches
  simp only
  cases flags.runRiscvTest && decide (2000000#64 ≤ c.priv.mcycle) with
  | true => rfl
  | false =>
    simp only [Bool.false_eq_true, if_false]
    rw [hint]
    exact hword.mono (fun _ ho => ho) fun _ hno => hno.elim

/-- **Such a step** does not fail, and its outcome is that of a return. -/
theorem exec_returned {c : RvCore δ} (h : Envelope c.priv) (hp : c.difftestMode = false)
    {flags : Flags} {i : RvLines} (hr : c.StepReturns flags i) :
    c.outcome flags i = .ok .returned ∧
      ∃ c', c.exec flags i.meip i.msip i.mtip i.seip = .ok c' := by
  obtain ⟨w, hw, hsome⟩ := hr
  obtain ⟨q, hret⟩ := Option.isSome_iff_exists.mp hsome
  have hw' : c.fetches flags i = some w := hw
  have hf := issue_fetches h hp flags i
  have hc := issue_cases c flags i
  unfold outcome
  cases hi : c.issue flags i with
  | error e =>
    rw [hi] at hf
    cases hw'.symm.trans hf
  | ok o =>
    rw [hi, hw'] at hf
    obtain ⟨⟨c₁, inst⟩, rfl, he⟩ := Option.map_eq_some_iff.mp hf
    obtain ⟨hpriv, rfl⟩ := Prod.mk.inj he
    rw [hi] at hc
    obtain ⟨-, -, hx⟩ := hc
    have hpriv' : c₁.priv = c.priv.entered i := hpriv
    rw [← hpriv'] at hret
    have henv : Envelope q := by
      rw [hpriv'] at hret
      rcases RvPriv.returned_cases hret with ⟨-, hq⟩ | ⟨-, hq⟩
      · exact RvPriv.mret_envelope (h.entered i) q hq
      · exact RvPriv.sret_envelope (h.entered i) q hq
    have hdec := decodeExec_returned c₁ flags hret
    have hsettle : (c₁.decodeExec flags inst >>= fun e => e.settle inst (isRvc inst)) =
        .ok { c₁ with debugInst := inst, priv := q, pc := q.trapPc } := by
      rw [hdec]
      exact if_pos (RvPriv.returned_keeps hret).2.1
    have hretire : ∀ c₂ : RvCore δ, c₂.priv = q → ∃ c', c₂.retire = .ok c' := by
      intro c₂ hq
      unfold retire RvPriv.postExec
      rw [hq, henv.status.blank]
      exact ⟨_, rfl⟩
    constructor
    · show (c₁.decodeExec flags inst >>= fun e => .ok (c₁.outcomeOf inst e)) = _
      rw [hdec]
      show Except.ok (c₁.outcomeOf inst _) = _
      rw [outcomeOf, hret]
      rfl
    · rw [hx]
      show ∃ c', (c₁.decodeExec flags inst >>= fun e => e.settle inst (isRvc inst)) >>= retire = .ok c'
      rw [hsettle]
      exact hretire _ rfl

/-- No other step has the outcome of a return. -/
theorem stepReturns_of_outcome {c : RvCore δ} (h : Envelope c.priv) (hp : c.difftestMode = false)
    {flags : Flags} {i : RvLines} (ho : c.outcome flags i = .ok .returned) :
    c.StepReturns flags i := by
  have hf := issue_fetches h hp flags i
  unfold outcome at ho
  cases hi : c.issue flags i with
  | error e =>
    rw [hi] at ho
    cases ho
  | ok o =>
    rw [hi] at hf ho
    cases o with
    | none => cases ho
    | some r =>
      obtain ⟨c₁, inst⟩ := r
      obtain ⟨w, hw, he⟩ := Option.map_eq_some_iff.mp hf.symm
      obtain ⟨hpriv, rfl⟩ := Prod.mk.inj he
      refine ⟨w, hw, ?_⟩
      have hpriv' : c.priv.entered i = c₁.priv := hpriv
      rw [hpriv']
      cases hret : c₁.priv.returned w with
      | some q => rfl
      | none =>
        have hno : ∀ e : ExecState δ, c₁.outcomeOf w e ≠ .returned := by
          intro e
          rw [outcomeOf, hret]
          cases e.ri <;> cases e.core.priv.curNeedTrap <;> decide
        have ho' : (c₁.decodeExec flags w >>= fun e => .ok (c₁.outcomeOf w e)) =
          .ok Outcome.returned := ho
        cases hd : c₁.decodeExec flags w with
        | error e =>
          rw [hd] at ho'
          cases ho'
        | ok e =>
          rw [hd] at ho'
          exact absurd (Except.ok.inj ho') (hno e)

end
end RvCore

/-! ## runs -/

section
variable {δ : Type} [MmioDev δ] {flags : Flags} {s₀ : Except Halt (RvCore δ)} {inp : ℕ → RvLines}

/-- the outcome of step `k` of a run -/
abbrev outcomeAt (flags : Flags) (s₀ : Except Halt (RvCore δ)) (inp : ℕ → RvLines) (k : ℕ) :
    Option Outcome :=
  stepOutcome flags (inp k) ((rvMachine δ flags).run inp s₀ k)

/-- A step of a run has not failed, from the state before it. -/
theorem run_succ_ok {n : ℕ} {c' : RvCore δ} : (rvMachine δ flags).run inp s₀ (n + 1) = .ok c' ↔
    ∃ c, (rvMachine δ flags).run inp s₀ n = .ok c ∧
      c.exec flags (inp n).meip (inp n).msip (inp n).mtip (inp n).seip = .ok c' := by
  have hstep : (rvMachine δ flags).run inp s₀ (n + 1) = ((rvMachine δ flags).run inp s₀ n >>=
    fun c => c.exec flags (inp n).meip (inp n).msip (inp n).mtip (inp n).seip) := rfl
  rw [hstep]
  cases (rvMachine δ flags).run inp s₀ n with
  | error e => exact iff_of_false nofun fun ⟨_, h, _⟩ => nomatch h
  | ok c =>
    refine ⟨fun h => ⟨c, rfl, h⟩, ?_⟩
    rintro ⟨_, ⟨⟩, h⟩
    exact h

theorem outcomeAt_eq_some {n : ℕ} {o : Outcome} : outcomeAt flags s₀ inp n = some o ↔
    ∃ c, (rvMachine δ flags).run inp s₀ n = .ok c ∧ c.outcome flags (inp n) = .ok o := by
  rw [outcomeAt, stepOutcome]
  cases (rvMachine δ flags).run inp s₀ n with
  | error e => exact iff_of_false nofun fun ⟨_, h, _⟩ => nomatch h
  | ok c =>
    show (c.outcome flags (inp n)).toOption = some o ↔ _
    cases ho : c.outcome flags (inp n) with
    | error e =>
      refine iff_of_false nofun ?_
      rintro ⟨_, ⟨⟩, h⟩
      exact nomatch ho.symm.trans h
    | ok o' =>
      refine ⟨fun h => ⟨c, rfl, ho.trans (congrArg Except.ok (Option.some.inj h))⟩, ?_⟩
      rintro ⟨_, ⟨⟩, h⟩
      exact congrArg some (Except.ok.inj (ho.symm.trans h))

/-- **A run counts** the steps that complete an instruction other than `mret` and `sret`. -/
theorem minstret_completed (h₀ : (rvMachine δ flags).init s₀) (n : ℕ) (c : RvCore δ)
    (hc : (rvMachine δ flags).run inp s₀ n = .ok c) : c.priv.minstret =
      BitVec.ofNat 64 (Nat.count (fun k => outcomeAt flags s₀ inp k = some .completed) n) := by
  induction n generalizing c with
  | zero =>
    obtain ⟨hartId, sv39, ext0, bus, pc, regs, rfl⟩ := h₀
    obtain rfl := Except.ok.inj hc
    rfl
  | succ n ih =>
    obtain ⟨c₀, hr, hx⟩ := run_succ_ok.mp hc
    obtain ⟨o, ho, hm⟩ := (RvCore.exec_minstret c₀ flags (inp n)).ok hx
    have hat : outcomeAt flags s₀ inp n = some o := outcomeAt_eq_some.mpr ⟨c₀, hr, ho⟩
    rw [hm, ih c₀ hr, Nat.count_succ, hat]
    by_cases h : o = .completed
    · rw [if_pos h, if_pos (congrArg some h), BitVec.ofNat_add]
      rfl
    · rw [if_neg h, if_neg fun he => h (Option.some.inj he), Nat.add_zero]

/-- A step has the outcome of a return when it executes one. -/
theorem outcomeAt_returned_iff (h₀ : (rvMachine δ flags).init s₀) {n : ℕ} :
    outcomeAt flags s₀ inp n = some .returned ↔
      ∃ c, (rvMachine δ flags).run inp s₀ n = .ok c ∧ c.StepReturns flags (inp n) := by
  rw [outcomeAt_eq_some]
  refine exists_congr fun c => and_congr_right fun hc => ?_
  have hin : Inside (fun _ => True) c := ((rvMachine_inside δ flags).run inp h₀ n).ok hc
  exact ⟨RvCore.stepReturns_of_outcome hin.env hin.plain,
    fun h => (RvCore.exec_returned hin.env hin.plain h).1⟩

end

/-- Without a return the steps that count are those that retire. -/
theorem completed_iff_retired {o : Option Outcome} (h : o ≠ some .returned) :
    o = some .completed ↔ o.any Outcome.retired = true := by
  rcases o with _ | _ | _ | _
  · exact iff_of_false nofun nofun
  · exact iff_of_false nofun nofun
  · exact absurd rfl h
  · exact iff_of_true rfl rfl

/-- **`minstret` counts the retired instructions in exactly the runs in which no `mret` or `sret`
completes**: from reset, for any program, bus and interrupt lines, up to any step. -/
theorem minstret_retired_iff {δ : Type} [MmioDev δ] (flags : Flags) (hartId : BitVec 64)
    (sv39 : Sv39 32) (ext0 : BitVec 26) (bus : Systembus δ) (pc : BitVec 64)
    (regs : BitVec 5 → BitVec 64) (inp : ℕ → RvLines) (n : ℕ) :
    let s₀ : Except Halt (RvCore δ) :=
      .ok { RvCore.init flags hartId sv39 ext0 bus with pc := pc, GPR := regs }
    (∀ m ≤ n, ∀ c, (rvMachine δ flags).run inp s₀ m = .ok c → c.priv.minstret =
        BitVec.ofNat 64 (Nat.count (fun k => (outcomeAt flags s₀ inp k).any Outcome.retired = true) m)) ↔
      ∀ m < n, ∀ c, (rvMachine δ flags).run inp s₀ m = .ok c → ¬ c.StepReturns flags (inp m) := by
  intro s₀
  have h₀ : (rvMachine δ flags).init s₀ := ⟨hartId, sv39, ext0, bus, pc, regs, rfl⟩
  constructor
  · -- a return is a step that retires and does not count
    have hne : ∀ x : BitVec 64, x ≠ x + BitVec.ofNat 64 1 := by
      intro x hx
      bv_omega
    intro h m hm c hc hret
    have hin : Inside (fun _ => True) c := ((rvMachine_inside δ flags).run inp h₀ m).ok hc
    have hat : outcomeAt flags s₀ inp m = some .returned :=
      (outcomeAt_returned_iff h₀).mpr ⟨c, hc, hret⟩
    obtain ⟨c', hx⟩ := (RvCore.exec_returned hin.env hin.plain hret).2
    have hc' : (rvMachine δ flags).run inp s₀ (m + 1) = .ok c' := run_succ_ok.mpr ⟨c, hc, hx⟩
    have hcounts : (some Outcome.returned).any Outcome.retired = true := rfl
    have hkeep : c'.priv.minstret = c.priv.minstret := by
      rw [minstret_completed h₀ (m + 1) c' hc', minstret_completed h₀ m c hc, Nat.count_succ, hat,
        if_neg (by decide), Nat.add_zero]
    have hnext := h (m + 1) hm c' hc'
    rw [hkeep, h m hm.le c hc, Nat.count_succ, hat, if_pos hcounts, BitVec.ofNat_add] at hnext
    exact hne _ hnext
  · intro h m hm c hc
    have hno : ∀ k < m, outcomeAt flags s₀ inp k ≠ some .returned := by
      intro k hk hret
      obtain ⟨c', hc', hs⟩ := (outcomeAt_returned_iff h₀).mp hret
      exact h k (hk.trans_le hm) c' hc' hs
    rw [minstret_completed h₀ m c hc]
    exact congrArg _ (le_antisymm
      (Nat.count_mono_left fun k hk => (completed_iff_retired (hno k hk)).mp)
      (Nat.count_mono_left fun k hk => (completed_iff_retired (hno k hk)).mpr))

/-- `mret` as the first instruction -/
theorem minstret_mret : ¬ ∀ (prog : List (BitVec 32)) (inp : ℕ → RvLines) (n : ℕ) (c : RvCore MmioMem),
    (rvMachine MmioMem testFlags).run inp (.ok (.boots prog)) n = .ok c → c.priv.minstret =
      BitVec.ofNat 64 (Nat.count (fun k =>
        (outcomeAt testFlags (.ok (.boots prog)) inp k).any Outcome.retired = true) n) := by
  intro h
  obtain ⟨c, hc⟩ : ∃ c, (rvMachine MmioMem testFlags).run (fun _ => .low)
      (.ok (.boots [0x30200073])) 1 = .ok c := ⟨_, rfl⟩
  have h₁ := h [0x30200073] (fun _ => .low) 1 c hc
  cases hc
  exact absurd h₁ (by decide +kernel)

end HduCpu
