import HduCpu.Cpu.Stages
import HduCpu.Ref.Report
import HduCpu.Ref.Sram

/-!
# The differential test

`riscv_test_run` of `sim_mycpu.cpp`, without `-hasdelayslot` and `-trace`: the core is clocked with
its memory, at each commit the reference makes a step, and pc, register number and value are
compared.  Neither the write enable of the core nor the registers themselves are looked at, and no
register is compared when the reference wrote none.

* `Soc`                    the core with the memory of the simulator;
* `TestRun`, `TestRun.cycle`   the loop, one round for each clock cycle;
* `testStart`, `testRun`   its runs;
* `WriteSeen`              the port tells what the commit does to the registers;
* `sameRegs_cycle`, `sameRegs_run`   the registers over a round, and over a run;
* `difftest_sound_iff`     in a run without mismatch the registers are the same exactly as long as
                           every commit is `WriteSeen`.
-/

namespace HduCpu

/-! ## the core and its memory -/

structure Soc where
  core : Core
  mmio : SramXbar MmioMem
  instRdata : BitVec 32
  dataRdata : BitVec 64

/-- a rising edge, and `beat` with the ports as they were before it -/
def Soc.next (s : Soc) (ext : ExtInterrupt) : Soc :=
  let i : CoreIn := ⟨ext, s.instRdata, s.dataRdata⟩
  let inst := s.mmio.instChannel (s.core.wires i).instSram s.instRdata
  let data := inst.xbar.dataChannel (s.core.wires i).executeUnit.dataSram s.dataRdata
  { core := s.core.next i
    mmio := data.xbar
    instRdata := inst.buffer.setWidth 32
    dataRdata := data.buffer }

/-! ## the loop -/

/-- `-delay` and `-pc`, which say what follows a mismatch.  The loop also reads `-hasdelayslot`, with
which it steps the reference at some commits only, and `-trace`, with which `sim_time` ends it; both
are off here. -/
structure SimOpts where
  shouldDelay : Bool
  dumpPcHistory : Bool

structure TestRun where
  soc : Soc
  cemu : RvCore MmioMem
  running : Bool
  ticks : ℕ
  lastCommit : ℕ
  delay : ℤ

/-- the comparison at a commit finds a difference -/
def differs {δ : Type} (top : Debug) (cemu : RvCore δ) : Bool :=
  top.pc != cemu.debugPc ||
    (cemu.debugRegNum != 0 &&
      (top.rfWnum.setWidth 64 != cemu.debugRegNum || top.rfWdata != cemu.debugRegWdata))

def commitTimeout : ℕ := 3000

namespace TestRun
variable (s : TestRun)

/-- after `Error!` the loop ends at once, or some mismatches later with `-delay` -/
def mismatch (o : SimOpts) : TestRun :=
  if !o.shouldDelay then { s with running := false }
  else
    let delay := if o.dumpPcHistory then s.delay - 1 else s.delay
    if o.dumpPcHistory && s.delay == 10 then { s with delay := delay }
    else { s with running := s.running && delay != 0, delay := delay - 1 }

/-- the end of a round: the loop gives up when nothing has been committed for too long -/
def tick : TestRun :=
  let ticks := s.ticks + 1
  { s with ticks := ticks, running := s.running && decide (ticks - s.lastCommit < commitTimeout) }

/-- The rising edge of a clock cycle, and the falling edge, at which nothing is looked at.  The
branches for `has_delayslot` and `trace_on` are left out. -/
def cycle (o : SimOpts) (flags : Flags) : Except Halt TestRun :=
  if !s.running then .ok s
  else do
    let s := { s with soc := s.soc.next .low }
    let s ← if s.soc.core.debug.commit then do
        let cemu ← s.cemu.exec flags false false false false
        let s := { s with cemu := cemu, lastCommit := s.ticks }
        .ok (if differs s.soc.core.debug cemu then s.mismatch o else s)
      else .ok s
    let s := s.tick
    .ok (if s.running then s.tick else s)

end TestRun

/-- `riscv_test_run` with a memory image, once the ten ticks of reset are over -/
def testStart (flags : Flags) (mem : Bytes) (regs : BitVec 5 → BitVec 64) : TestRun where
  soc := ⟨.reset, sramOf mem, 0, 0⟩
  cemu := .boot flags mem RAM_START regs
  running := true
  ticks := 10
  lastCommit := 0
  delay := 1500

/-- the state after `n` clock cycles, or the end of the simulation before -/
def testRun (o : SimOpts) (flags : Flags) (s₀ : TestRun) : ℕ → Except Halt TestRun
  | 0 => .ok s₀
  | n + 1 => do
    let s ← testRun o flags s₀ n
    s.cycle o flags

/-! ## what the comparison sees -/

namespace TestRun
section
variable (s : TestRun)

def Commits : Prop := s.soc.core.debug.commit = true

/-- `ARegFile` once the instruction in WriteBack has written -/
def regs : ARegFile := writeBackUnit s.soc.core.regfile s.soc.core.writeBackStage

/-- x1 to x31 are the same on both sides -/
def SameRegs : Prop := ∀ r, r ≠ 0 → s.regs r = s.cemu.GPR r

/-- no mismatch is reported in this cycle -/
def Passes : Prop := s.Commits → differs s.soc.core.debug s.cemu = false

/-- The register on the port is written on the CPU exactly when the reference has written one, or
it held the value on the port before. -/
def WriteSeen : Prop :=
  (s.soc.core.writeBackStage.info.regWen && s.soc.core.debug.rfWnum != 0) =
      (s.cemu.debugRegNum != 0) ∨
    s.soc.core.regfile s.soc.core.debug.rfWnum = s.soc.core.debug.rfWdata

theorem mismatch_soc (o : SimOpts) : (s.mismatch o).soc = s.soc ∧ (s.mismatch o).cemu = s.cemu := by
  unfold mismatch
  simp only
  split_ifs <;> exact ⟨rfl, rfl⟩

end

section
variable {s s' : TestRun} {o : SimOpts} {flags : Flags}

/-- **A round of the loop**: nothing, a clock cycle without commit, or one with a commit and a step
of the reference. -/
theorem cycle_cases (h : s.cycle o flags = .ok s') : s' = s ∨ (s'.soc = s.soc.next .low ∧
    ((¬ s'.Commits ∧ s'.cemu = s.cemu) ∨ (s'.Commits ∧ Reported s.cemu.GPR s'.cemu))) := by
  have hend : ∀ t : TestRun, (if t.tick.running then t.tick.tick else t.tick).soc = t.soc ∧
      (if t.tick.running then t.tick.tick else t.tick).cemu = t.cemu := by
    intro t
    split_ifs <;> exact ⟨rfl, rfl⟩
  have hcompare : ∀ (t : TestRun) (b : Bool), (if b then t.mismatch o else t).soc = t.soc ∧
      (if b then t.mismatch o else t).cemu = t.cemu := by
    intro t b
    cases b with
    | true => exact t.mismatch_soc o
    | false => exact ⟨rfl, rfl⟩
  unfold cycle at h
  by_cases hr : s.running = true
  · rw [if_neg (by simp [hr])] at h
    right
    by_cases hc : (s.soc.next .low).core.debug.commit = true
    · simp only [hc, if_true] at h
      cases hx : s.cemu.exec flags false false false false with
      | error e =>
        rw [hx] at h
        cases h
      | ok cemu =>
        rw [hx] at h
        have h' := Except.ok.inj h
        have hsoc : s'.soc = s.soc.next .low := by
          rw [← h', (hend _).1, (hcompare _ _).1]
        have hcemu : s'.cemu = cemu := by
          rw [← h', (hend _).2, (hcompare _ _).2]
        have hrep := (RvCore.exec_reported s.cemu flags .low).ok hx
        refine ⟨hsoc, .inr ⟨?_, hcemu ▸ hrep⟩⟩
        rw [Commits, hsoc]
        exact hc
    · simp only [hc] at h
      have h' := Except.ok.inj h
      have hsoc : s'.soc = s.soc.next .low := by
        rw [← h', (hend _).1]
      refine ⟨hsoc, .inl ⟨?_, by rw [← h', (hend _).2]⟩⟩
      rw [Commits, hsoc]
      exact hc
  · rw [if_pos (by simp [hr])] at h
    exact .inl (Except.ok.inj h).symm

/-- Without a commit the registers stay as they are. -/
theorem sameRegs_idle (hsoc : s'.soc = s.soc.next .low) (hc : ¬ s'.Commits) (hcemu : s'.cemu = s.cemu)
    (h : s.SameRegs) : s'.SameRegs := by
  intro r hr
  have hv : s'.soc.core.writeBackStage.info.valid = false := Bool.eq_false_of_not_eq_true hc
  have hregs : s'.regs = s.regs := by
    rw [regs, writeBackUnit_bubble _ hv, hsoc]
    rfl
  rw [hregs, hcemu]
  exact h r hr

/-- Two writes of one value to one register, each of them made or not. -/
theorem writes_agree_iff {ρ : Type} [DecidableEq ρ] {α : Type} (f : ρ → α) {z a : ρ} (v : α)
    {p q : Bool} (hp : p = true → a ≠ z) (hq : q = true → a ≠ z) :
    (∀ r, r ≠ z → (if p && decide (r = a) then v else f r) =
      if q && decide (r = a) then v else f r) ↔ p = q ∨ f a = v := by
  constructor
  · intro h
    by_contra hn
    obtain ⟨hpq, hv⟩ := not_or.mp hn
    have haz : a ≠ z := by
      cases p with
      | true => exact hp rfl
      | false =>
        cases q with
        | true => exact hq rfl
        | false => exact absurd rfl hpq
    have ha := h a haz
    cases p <;> cases q <;> simp_all
  · rintro (rfl | hv) r -
    · rfl
    · by_cases hr : r = a
      · subst hr
        simp [hv]
      · simp [hr]

/-- **A commit that passes the comparison** keeps the registers the same exactly when it is
`WriteSeen`. -/
theorem sameRegs_commit (hsoc : s'.soc = s.soc.next .low) (hc : s'.Commits)
    (hrep : Reported s.cemu.GPR s'.cemu) (hpass : s'.Passes) (h : s.SameRegs) :
    s'.SameRegs ↔ s'.WriteSeen := by
  obtain ⟨n, hnum, hgpr⟩ := hrep
  have hn : (s'.cemu.debugRegNum != 0) = (n != 0) := by
    have key : ∀ n : BitVec 5, (n.setWidth 64 != 0#64) = (n != 0) := by decide
    rw [hnum]
    exact key n
  -- what the comparison has made sure of
  have hmatch : (n != 0) = true → s'.soc.core.debug.rfWnum = n ∧
      s'.soc.core.debug.rfWdata = s'.cemu.debugRegWdata := by
    intro hne
    have key : ∀ a b : BitVec 5, a.setWidth 64 = b.setWidth 64 → a = b := by decide
    have hd := hpass hc
    rw [differs, hn, hne, hnum] at hd
    simp only [Bool.true_and, Bool.or_eq_false_iff, bne_eq_false_iff_eq] at hd
    exact ⟨key _ _ hd.2.1, hd.2.2⟩
  have hfile : s'.soc.core.regfile = s.regs := by
    rw [hsoc]
    rfl
  have hcpu : ∀ r, s'.regs r = if (s'.soc.core.writeBackStage.info.regWen &&
      s'.soc.core.debug.rfWnum != 0) && decide (r = s'.soc.core.debug.rfWnum)
      then s'.soc.core.debug.rfWdata else s.regs r := by
    intro r
    have hv : s'.soc.core.writeBackStage.info.valid = true := hc
    rw [regs, writeBackUnit_apply, writes, hv, hfile, Bool.true_and]
    rfl
  have href : ∀ r, r ≠ 0 → s'.cemu.GPR r = if (n != 0) && decide (r = s'.soc.core.debug.rfWnum)
      then s'.soc.core.debug.rfWdata else s.regs r := by
    intro r hr
    rw [hgpr, h r hr]
    cases hq : n != 0 with
    | false => rfl
    | true =>
      obtain ⟨hnum', hdata⟩ := hmatch hq
      rw [hnum', hdata]
      by_cases hrn : r = n
      · simp [hrn]
      · simp [hrn]
  have hall : s'.SameRegs ↔ ∀ r, r ≠ 0 →
      (if (s'.soc.core.writeBackStage.info.regWen && s'.soc.core.debug.rfWnum != 0) &&
        decide (r = s'.soc.core.debug.rfWnum) then s'.soc.core.debug.rfWdata else s.regs r) =
      if (n != 0) && decide (r = s'.soc.core.debug.rfWnum) then s'.soc.core.debug.rfWdata
        else s.regs r :=
    forall₂_congr fun r hr => by rw [hcpu r, href r hr]
  rw [hall, WriteSeen, hn, hfile]
  refine writes_agree_iff s.regs _ (fun hp => ?_) fun hq => ?_
  · exact bne_iff_ne.mp (Bool.and_eq_true_iff.mp hp).2
  · rw [(hmatch hq).1]
    exact bne_iff_ne.mp hq

/-- What a round that passes the comparison makes of equal registers. -/
theorem sameRegs_cycle (hcycle : s.cycle o flags = .ok s') (hpass : s'.Passes) (h : s.SameRegs) :
    s' = s ∨ (s'.SameRegs ↔ (s'.Commits → s'.WriteSeen)) := by
  rcases cycle_cases hcycle with e | ⟨hsoc, ⟨hc, hcemu⟩ | ⟨hc, hrep⟩⟩
  · exact .inl e
  · exact .inr (iff_of_true (sameRegs_idle hsoc hc hcemu h) fun hc' => absurd hc' hc)
  · right
    rw [sameRegs_commit hsoc hc hrep hpass h]
    exact ⟨fun hw _ => hw, fun hw => hw hc⟩

end
end TestRun

/-! ## runs -/

section
variable {o : SimOpts} {flags : Flags} {s₀ : TestRun} {run : ℕ → TestRun} {n : ℕ}
  (hrun : ∀ k ≤ n, testRun o flags s₀ k = .ok (run k))
include hrun

theorem run_zero_eq : run 0 = s₀ := (Except.ok.inj (hrun 0 (Nat.zero_le n))).symm

theorem run_cycle {k : ℕ} (hk : k + 1 ≤ n) : (run k).cycle o flags = .ok (run (k + 1)) := by
  have h := hrun (k + 1) hk
  rw [testRun, hrun k (by omega)] at h
  exact h

variable (hreset : s₀.soc.core = .reset) (h₀ : s₀.SameRegs) (hpass : ∀ k ≤ n, (run k).Passes)
include hreset h₀ hpass

/-- When each commit keeps the registers the same or is seen, it does both, and the registers are the
same at every cycle. -/
theorem sameRegs_run (h : ∀ k ≤ n, (run k).Commits → (run k).SameRegs ∨ (run k).WriteSeen) :
    ∀ k ≤ n, (run k).SameRegs ∧ ((run k).Commits → (run k).WriteSeen) := by
  intro k
  induction k with
  | zero =>
    intro _
    rw [run_zero_eq hrun]
    refine ⟨h₀, fun hc => absurd hc ?_⟩
    rw [TestRun.Commits, hreset]
    decide
  | succ k ih =>
    intro hk
    have hprev := ih (by omega)
    rcases TestRun.sameRegs_cycle (run_cycle hrun hk) (hpass _ hk) hprev.1 with e | hiff
    · rw [e]
      exact hprev
    · by_cases hc : (run (k + 1)).Commits
      · rcases h _ hk hc with hsame | hseen
        · exact ⟨hsame, hiff.mp hsame⟩
        · exact ⟨hiff.mpr fun _ => hseen, fun _ => hseen⟩
      · exact ⟨hiff.mpr fun hc' => absurd hc' hc, fun hc' => absurd hc' hc⟩

/-- **The differential check** is sound for the general registers as long as the debug port tells
whether a register is written. -/
theorem difftest_sound_iff : (∀ k ≤ n, (run k).Commits → (run k).SameRegs) ↔
    ∀ k ≤ n, (run k).Commits → (run k).WriteSeen := by
  constructor
  · intro h k hk
    exact (sameRegs_run hrun hreset h₀ hpass (fun i hi hc => .inl (h i hi hc)) k hk).2
  · intro h k hk _
    exact (sameRegs_run hrun hreset h₀ hpass (fun i hi hc => .inr (h i hi hc)) k hk).1

end

/-- the simulator about to run a program -/
def diffStart (prog : List (BitVec 32)) : TestRun :=
  testStart testFlags (progBytes prog) fun _ => 0

/-- a run of the program with the options of a riscv-test -/
def diffRun (prog : List (BitVec 32)) (n : ℕ) : TestRun :=
  match testRun ⟨false, false⟩ testFlags (diffStart prog) n with
  | .ok s => s
  | .error _ => diffStart prog

theorem diffRun_eq {prog : List (BitVec 32)} {n : ℕ}
    (h : (testRun ⟨false, false⟩ testFlags (diffStart prog) n).isOk = true) :
    testRun ⟨false, false⟩ testFlags (diffStart prog) n = .ok (diffRun prog n) := by
  unfold diffRun
  cases hx : testRun ⟨false, false⟩ testFlags (diffStart prog) n with
  | ok s => rfl
  | error e =>
    rw [hx] at h
    exact absurd h Bool.false_ne_true

/-- `addi x1, x0, 1` is compared and seen -/
theorem difftest_sound_addi :
    (diffRun [0x00100093] 6).Commits ∧ (diffRun [0x00100093] 6).SameRegs := by
  have hok : ∀ k ≤ 6, (testRun ⟨false, false⟩ testFlags (diffStart [0x00100093]) k).isOk = true := by
    decide +kernel
  have hcommit : (diffRun [0x00100093] 6).Commits := by
    unfold TestRun.Commits
    decide +kernel
  refine ⟨hcommit, (difftest_sound_iff (fun k hk => diffRun_eq (hok k hk)) rfl (fun _ _ => rfl)
    ?_).mpr ?_ 6 le_rfl hcommit⟩
  · unfold TestRun.Passes TestRun.Commits
    decide +kernel
  · unfold TestRun.Commits TestRun.WriteSeen
    decide +kernel

/-- `ld x1, 0(x0)`: the reference has an access fault and writes nothing, the CPU writes `x1`, and no
mismatch is reported at this commit. -/
theorem silent_write_passes : ¬ ∀ (o : SimOpts) (flags : Flags) (mem : Bytes)
    (regs : BitVec 5 → BitVec 64) (run : ℕ → TestRun) (n : ℕ),
    (∀ k ≤ n, testRun o flags (testStart flags mem regs) k = .ok (run k)) →
    (testStart flags mem regs).SameRegs → (∀ k ≤ n, (run k).Passes) →
    ∀ k ≤ n, (run k).Commits → (run k).SameRegs := by
  intro h
  have hok : ∀ k ≤ 6, (testRun ⟨false, false⟩ testFlags (diffStart [0x00003083]) k).isOk = true := by
    decide +kernel
  have hpass : ∀ k ≤ 6, (diffRun [0x00003083] k).Passes := by
    unfold TestRun.Passes TestRun.Commits
    decide +kernel
  have hsame := h _ _ _ _ (diffRun [0x00003083]) 6 (fun k hk => diffRun_eq (hok k hk))
    (fun _ _ => rfl) hpass 6 le_rfl (by unfold TestRun.Commits; decide +kernel) 1 (by decide)
  exact absurd hsame (by decide +kernel)

end HduCpu
