import HduCpu.Lockstep.Run

/-!
# What stops the differential test

Without `-hasdelayslot` and `-trace` the loop of `riscv_test_run` ends by a mismatch, by `CPU stuck`
when nothing has been committed for 3000 ticks, or with the reference.  The second never happens,
and on a program whose steps agree the first does not happen either.

* `TestRun.cycle_commit`, `cycle_idle`, `cycle_halt`   the rounds without a mismatch;
* `loopStart`              the loop with any number of mismatches allowed by `-delay`;
* `OnTime`                 ticks, and the last commit, after `n` clock cycles;
* `stop_mismatch`          the loop stops by itself only after a mismatch;
* `testRun_silent`         on agreeing steps it goes on, with the same registers on both sides;
* `testRun_exits`          and it ends with the reference.
-/

namespace HduCpu

/-! ## a round -/

namespace TestRun

/-- the rest of a round, after the comparison -/
def rest (t : TestRun) : TestRun := if t.tick.running then t.tick.tick else t.tick

theorem rest_soc (t : TestRun) : t.rest.soc = t.soc ∧ t.rest.cemu = t.cemu := by
  unfold rest
  split_ifs <;> exact ⟨rfl, rfl⟩

/-- two ticks, unless the loop gives up -/
theorem rest_eq {t : TestRun} (hr : t.running = true)
    (ht : t.ticks + 2 - t.lastCommit < commitTimeout) :
    t.rest = { t with ticks := t.ticks + 2 } := by
  have htick : ∀ u : TestRun, u.ticks + 1 - u.lastCommit < commitTimeout →
      u.tick = { u with ticks := u.ticks + 1 } := by
    intro u hlt
    show TestRun.mk _ _ (u.running && decide (u.ticks + 1 - u.lastCommit < commitTimeout)) _ _ _ = _
    rw [decide_eq_true hlt, Bool.and_true]
  have h₁ := htick t (by omega)
  have hrun : t.tick.running = true := by
    rw [h₁]
    exact hr
  rw [rest, if_pos hrun, htick t.tick (by rw [h₁]; exact ht), h₁]

/-- a loop that has stopped does not go on -/
theorem rest_running {t : TestRun} (h : t.rest.running = true) : t.running = true := by
  have htick : ∀ u : TestRun, u.tick.running = true → u.running = true := fun u hu =>
    (Bool.and_eq_true_iff.mp hu).1
  by_cases ht : t.tick.running = true
  · exact htick t ht
  · rw [rest, if_neg ht] at h
    exact htick t h

section
variable {s : TestRun} {o : SimOpts} {flags : Flags} (hr : s.running = true)
include hr

/-- a round of the running loop -/
theorem cycle_eq : s.cycle o flags =
    if (s.soc.next .low).core.debug.commit then
      s.cemu.exec flags false false false false >>= fun c =>
        let t : TestRun := { s with soc := s.soc.next .low, cemu := c, lastCommit := s.ticks }
        .ok (if differs (s.soc.next .low).core.debug c then t.mismatch o else t).rest
    else .ok { s with soc := s.soc.next .low }.rest := by
  unfold cycle
  rw [if_neg (by simp [hr])]
  by_cases hc : (s.soc.next .low).core.debug.commit = true
  · simp only [hc, if_true]
    cases s.cemu.exec flags false false false false <;> rfl
  · simp only [hc]
    rfl

theorem cycle_halt (hc : (s.soc.next .low).core.debug.commit = true) {e : Halt}
    (he : s.cemu.exec flags false false false false = .error e) : s.cycle o flags = .error e := by
  rw [cycle_eq hr, if_pos hc, he]
  rfl

theorem cycle_idle (hc : (s.soc.next .low).core.debug.commit = false)
    (ht : s.ticks + 2 - s.lastCommit < commitTimeout) : s.cycle o flags = .ok { s with
      soc := s.soc.next .low, ticks := s.ticks + 2 } := by
  have hrest : { s with soc := s.soc.next .low }.rest =
      { s with soc := s.soc.next .low, ticks := s.ticks + 2 } := rest_eq hr ht
  rw [cycle_eq hr, if_neg (by rw [hc]; exact Bool.false_ne_true), hrest]

theorem cycle_commit (hc : (s.soc.next .low).core.debug.commit = true) {c : RvCore MmioMem}
    (he : s.cemu.exec flags false false false false = .ok c)
    (hd : differs (s.soc.next .low).core.debug c = false) : s.cycle o flags = .ok { s with
      soc := s.soc.next .low, cemu := c, ticks := s.ticks + 2, lastCommit := s.ticks } := by
  have ht : s.ticks + 2 - s.ticks < 3000 := by omega
  have hrest : { s with soc := s.soc.next .low, cemu := c, lastCommit := s.ticks }.rest =
      { s with soc := s.soc.next .low, cemu := c, ticks := s.ticks + 2, lastCommit := s.ticks } :=
    rest_eq hr ht
  rw [cycle_eq hr, if_pos hc, he]
  show Except.ok (TestRun.rest (if _ then _ else _)) = _
  rw [hd, if_neg Bool.false_ne_true, hrest]

/-- A round with a step of the reference, whatever the comparison says. -/
theorem cycle_step (hc : (s.soc.next .low).core.debug.commit = true) {c : RvCore MmioMem}
    (he : s.cemu.exec flags false false false false = .ok c) :
    ∃ s', s.cycle o flags = .ok s' ∧ s'.soc = s.soc.next .low ∧ s'.cemu = c := by
  refine ⟨_, by rw [cycle_eq hr, if_pos hc, he]; rfl, (rest_soc _).1.trans ?_,
    (rest_soc _).2.trans ?_⟩
  · cases differs (s.soc.next .low).core.debug c with
    | true => exact (mismatch_soc _ o).1
    | false => rfl
  · cases differs (s.soc.next .low).core.debug c with
    | true => exact (mismatch_soc _ o).2
    | false => rfl

/-- After a mismatch the loop goes on only with its time kept. -/
theorem cycle_mismatch (hc : (s.soc.next .low).core.debug.commit = true) {c : RvCore MmioMem}
    (he : s.cemu.exec flags false false false false = .ok c)
    (hd : differs (s.soc.next .low).core.debug c = true) : ∃ s', s.cycle o flags = .ok s' ∧
      ¬ s'.Passes ∧ (s'.running = true →
        s'.soc = s.soc.next .low ∧ s'.ticks = s.ticks + 2 ∧ s'.lastCommit = s.ticks) := by
  let t : TestRun := { s with soc := s.soc.next .low, cemu := c, lastCommit := s.ticks }
  have hkeep : (t.mismatch o).ticks = s.ticks ∧ (t.mismatch o).lastCommit = s.ticks := by
    unfold mismatch
    simp only
    split_ifs <;> exact ⟨rfl, rfl⟩
  have hsoc : (t.mismatch o).rest.soc = s.soc.next .low :=
    (rest_soc _).1.trans (t.mismatch_soc o).1
  have hcemu : (t.mismatch o).rest.cemu = c := (rest_soc _).2.trans (t.mismatch_soc o).2
  refine ⟨(t.mismatch o).rest, ?_, fun hp => ?_, fun hrun => ⟨hsoc, ?_⟩⟩
  · rw [cycle_eq hr, if_pos hc, he]
    show Except.ok (TestRun.rest (if _ then _ else _)) = _
    rw [hd, if_pos rfl]
  · have hpass := hp (by rw [Commits, hsoc]; exact hc)
    rw [hsoc, hcemu, hd] at hpass
    exact Bool.noConfusion hpass
  · have ht : (t.mismatch o).ticks + 2 - (t.mismatch o).lastCommit < 3000 := by
      rw [hkeep.1, hkeep.2]
      omega
    rw [rest_eq (rest_running hrun) ht]
    exact ⟨congrArg (· + 2) hkeep.1, hkeep.2⟩

end
end TestRun

/-! ## the clock -/

/-- After `n` clock cycles the core is in its run, and no commit is later than `last_commit`. -/
structure OnTime (mem : Bytes) (n : ℕ) (s : TestRun) : Prop where
  soc : s.soc = socRun mem n
  ticks : s.ticks = 10 + 2 * n
  recent : ∀ m < n, (socRun mem (m + 1)).core.debug.commit = true → 10 + 2 * m ≤ s.lastCommit

section
variable (mem : Bytes)

theorem socIn_low (n : ℕ) : (socIn mem n).interrupt = .low := rfl

/-- the first commit is six cycles after reset -/
theorem commit_six : (socRun mem 6).core.debug.commit = true := by
  rw [socRun_core]
  exact (Core.debug_commit (socIn mem 4) (socIn mem 5)).trans
    (first_in_execute (socIn mem) (socIn_low mem))

/-- from then on there is one in every three cycles -/
theorem commit_recent {n : ℕ} (hn : 6 ≤ n) :
    ∃ m ≤ 2, (socRun mem (n + m)).core.debug.commit = true := by
  have h6 := commit_six mem
  rw [socRun_core] at h6
  obtain ⟨m, hm, h⟩ := commit_within_three (socIn mem) (socIn_low mem) h6 hn
  refine ⟨m, hm, ?_⟩
  rw [socRun_core]
  exact h

end

namespace OnTime
section
variable {mem : Bytes} {n : ℕ} {s s' : TestRun} (h : OnTime mem n s)
include h

theorem next (hsoc : s'.soc = s.soc.next .low) (ht : s'.ticks = s.ticks + 2)
    (hlast : s'.lastCommit = if (s.soc.next .low).core.debug.commit then s.ticks
      else s.lastCommit) : OnTime mem (n + 1) s' := by
  have hrun : s.soc.next .low = socRun mem (n + 1) := by
    rw [h.soc]
    rfl
  refine ⟨hsoc.trans hrun, by rw [ht, h.ticks]; ring, fun m hm hc => ?_⟩
  rw [hlast, hrun, h.ticks]
  by_cases hn : (socRun mem (n + 1)).core.debug.commit = true
  · rw [if_pos hn]
    omega
  · have hlt : m < n := by
      refine lt_of_le_of_ne (Nat.le_of_lt_succ hm) fun e => hn ?_
      rw [← e]
      exact hc
    rw [if_neg hn]
    exact h.recent m hlt hc

/-- **The loop never waits long for a commit.** -/
theorem slack (hc : (s.soc.next .low).core.debug.commit = false) :
    s.ticks + 2 - s.lastCommit < commitTimeout := by
  have hrun : s.soc.next .low = socRun mem (n + 1) := by
    rw [h.soc]
    rfl
  rw [hrun] at hc
  have hticks := h.ticks
  show s.ticks + 2 - s.lastCommit < 3000
  by_cases hn : n < 6
  · omega
  by_cases h6 : n = 6
  · have hlast := h.recent 5 (by omega) (commit_six mem)
    omega
  obtain ⟨k, rfl⟩ : ∃ k, n = k + 2 := ⟨n - 2, by omega⟩
  obtain ⟨m, hm, hk⟩ := commit_recent mem (show 6 ≤ k + 1 by omega)
  have hne : m ≠ 2 := by
    rintro rfl
    rw [show k + 1 + 2 = k + 2 + 1 by omega, hc] at hk
    exact Bool.noConfusion hk
  have hlast := h.recent (k + m) (by omega) (by
    rw [show k + m + 1 = k + 1 + m by omega]
    exact hk)
  omega

end
end OnTime

/-- the start of `riscv_test_run`, with another `delay` -/
def loopStart (flags : Flags) (mem : Bytes) (regs : BitVec 5 → BitVec 64) (delay : ℤ) : TestRun :=
  { testStart flags mem regs with delay := delay }

theorem onTime_start (flags : Flags) (mem : Bytes) (regs : BitVec 5 → BitVec 64) (delay : ℤ) :
    OnTime mem 0 (loopStart flags mem regs delay) :=
  ⟨rfl, rfl, fun _ hm => absurd hm (Nat.not_lt_zero _)⟩

/-! ## the end of the loop -/

section
variable {o : SimOpts} {flags : Flags} {mem : Bytes} {n : ℕ} {s s' : TestRun}

/-- A round on time keeps the time, or there is a mismatch. -/
theorem cycle_onTime (h : OnTime mem n s) (hr : s.running = true)
    (hcycle : s.cycle o flags = .ok s') :
    (s'.running = true → OnTime mem (n + 1) s') ∧ (s'.running = false → ¬ s'.Passes) := by
  have hstop : ∀ {t : TestRun}, t.running = true → t.running = false → ¬ t.Passes := by
    intro t ht hn
    rw [ht] at hn
    exact Bool.noConfusion hn
  cases hc : (s.soc.next .low).core.debug.commit with
  | false =>
    rw [TestRun.cycle_idle hr hc (h.slack hc)] at hcycle
    obtain rfl := Except.ok.inj hcycle
    exact ⟨fun _ => h.next rfl rfl (by rw [hc]; rfl), hstop hr⟩
  | true =>
    cases he : s.cemu.exec flags false false false false with
    | error e =>
      rw [TestRun.cycle_halt hr hc he] at hcycle
      cases hcycle
    | ok c =>
      cases hd : differs (s.soc.next .low).core.debug c with
      | false =>
        rw [TestRun.cycle_commit hr hc he hd] at hcycle
        obtain rfl := Except.ok.inj hcycle
        exact ⟨fun _ => h.next rfl rfl (by rw [hc]; rfl), hstop hr⟩
      | true =>
        obtain ⟨s₁, hs₁, hfail, hgo⟩ := TestRun.cycle_mismatch (o := o) hr hc he hd
        obtain rfl := Except.ok.inj (hs₁.symm.trans hcycle)
        refine ⟨fun hrun => ?_, fun _ => hfail⟩
        obtain ⟨hsoc, ht, hlast⟩ := hgo hrun
        exact h.next hsoc ht (by rw [hc]; exact hlast)

variable {regs : BitVec 5 → BitVec 64} {d : ℤ}

/-- The loop is on time, or it has stopped after a mismatch. -/
theorem testRun_onTime (h : testRun o flags (loopStart flags mem regs d) n = .ok s) :
    (s.running = true → OnTime mem n s) ∧ (s.running = false →
      ∃ m ≤ n, ∃ t, testRun o flags (loopStart flags mem regs d) m = .ok t ∧ ¬ t.Passes) := by
  induction n generalizing s with
  | zero =>
    obtain rfl := Except.ok.inj h
    refine ⟨fun _ => onTime_start flags mem regs d, fun hn => ?_⟩
    exact Bool.noConfusion hn
  | succ n ih =>
    cases hp : testRun o flags (loopStart flags mem regs d) n with
    | error e =>
      rw [testRun, hp] at h
      cases h
    | ok p =>
      have hcycle : p.cycle o flags = .ok s := by
        rw [testRun, hp] at h
        exact h
      obtain ⟨htime, hmis⟩ := ih hp
      cases hr : p.running with
      | false =>
        have hsp : s = p := by
          unfold TestRun.cycle at hcycle
          rw [if_pos (by rw [hr]; rfl)] at hcycle
          exact (Except.ok.inj hcycle).symm
        obtain ⟨m, hm, t, ht⟩ := hmis hr
        refine ⟨fun hs => ?_, fun _ => ⟨m, hm.trans (Nat.le_succ n), t, ht⟩⟩
        rw [hsp, hr] at hs
        exact Bool.noConfusion hs
      | true =>
        obtain ⟨hgo, hstop⟩ := cycle_onTime (htime hr) hr hcycle
        exact ⟨hgo, fun hs => ⟨n + 1, le_rfl, s, h, hstop hs⟩⟩

/-- **The processor is never reported as stuck.**  Whatever is in the memory and whatever the
reference does, the loop stops by itself only after a mismatch (with `-trace` also by its time). -/
theorem stop_mismatch (h : testRun o flags (testStart flags mem regs) n = .ok s)
    (hs : s.running = false) :
    ∃ m ≤ n, ∃ t, testRun o flags (testStart flags mem regs) m = .ok t ∧ ¬ t.Passes :=
  (testRun_onTime (d := 1500) h).2 hs

/-- `csrr x1, cycle`: the counters of the two sides differ, and the loop stops after its commit -/
theorem stop_mismatch_cycle : ∃ m ≤ 6, ∃ t, testRun ⟨false, false⟩ testFlags
    (testStart testFlags (progBytes [0xC00020F3]) fun _ => 0) m = .ok t ∧ ¬ t.Passes :=
  stop_mismatch (diffRun_eq (n := 6) (by decide +kernel)) (by decide +kernel)

end

/-! ## programs on which the designs agree -/

section
variable (mem : Bytes)

/-- the instruction in Memory has been counted last -/
theorem socExecuted_memory (n : ℕ) : socExecuted mem n = socExecuted mem (n - 1) +
    if (socRun mem n).core.memoryStage.info.valid then 1 else 0 := by
  cases n with
  | zero => rfl
  | succ n =>
    have hv : (socRun mem (n + 1)).core.memoryStage.info.valid =
        (socRun mem n).core.executeStage.info.valid := by
      show ((socRun mem n).core.next (socRun mem n).coreIn).memoryStage.info.valid = _
      rw [Core.next_memoryStage, Core.exe, executeUnit_valid]
    rw [hv, Nat.add_sub_cancel]
    exact Nat.count_succ _ _

/-- The commit of a round is that of the instruction in Memory. -/
theorem OnTime.executed {mem : Bytes} {n : ℕ} {s : TestRun} (h : OnTime mem n s) :
    socExecuted mem n = socExecuted mem (n - 1) +
      if (s.soc.next .low).core.debug.commit then 1 else 0 := by
  have hcommit : (s.soc.next .low).core.debug.commit =
      (socRun mem n).core.memoryStage.info.valid := by
    rw [h.soc, Soc.next_debug]
    rfl
  rw [hcommit]
  exact socExecuted_memory mem n

theorem socExecuted_mono {n n' : ℕ} (h : n ≤ n') : socExecuted mem n ≤ socExecuted mem n' :=
  Nat.count_monotone _ h

/-- In three cycles at least one instruction is executed. -/
theorem socExecuted_ge (k : ℕ) : k + 1 ≤ socExecuted mem (3 * k + 5) := by
  have hfires : ∀ n, socFires mem n ↔ (coreRun (socIn mem) n).executeStage.info.valid = true := by
    intro n
    rw [socFires, socRun_core]
  have hcount : ∀ n, socFires mem n → socExecuted mem (n + 1) = socExecuted mem n + 1 := by
    intro n hn
    exact (Nat.count_succ _ _).trans (by rw [if_pos hn]; rfl)
  have h4 := first_in_execute (socIn mem) (socIn_low mem)
  induction k with
  | zero => exact (hcount 4 ((hfires 4).mpr h4)).symm ▸ Nat.le_add_left 1 _
  | succ k ih =>
    obtain ⟨m, hm, hv⟩ := busy_within_three (socIn mem) (socIn_low mem) h4
      (show 4 ≤ 3 * k + 5 by omega)
    have hstep := hcount _ ((hfires _).mpr hv)
    have hle := socExecuted_mono mem (show 3 * k + 5 ≤ 3 * k + 5 + m by omega)
    have hge := socExecuted_mono mem (show 3 * k + 5 + m + 1 ≤ 3 * (k + 1) + 5 by omega)
    omega

/-- The loop after `n` cycles without an alarm: the reference has made the steps of the
instructions that have been committed. -/
structure Silent (n : ℕ) (s : TestRun) : Prop where
  running : s.running = true
  time : OnTime mem n s
  cemu : refRun mem (socExecuted mem (n - 1)) = .ok s.cemu
  passes : s.Passes
  same : s.SameRegs

end

section
variable {mem : Bytes} {K : ℕ} (hconf : Conforming mem K) {o : SimOpts}
include hconf

/-- A round that commits an agreeing instruction, or none. -/
theorem Silent.next {n : ℕ} {s : TestRun} (h : Silent mem n s) (hE : socExecuted mem n ≤ K) :
    ∃ s', s.cycle o testFlags = .ok s' ∧ Silent mem (n + 1) s' := by
  obtain ⟨c, hc, hfol, hdiff⟩ := follows_run hconf n hE
  have hE := socExecuted_memory mem n
  have hsoc := h.time.soc
  have hdebug : (s.soc.next .low).core.debug = (socRun mem n).nextDebug := by
    rw [hsoc, Soc.next_debug]
  have hcommit : (s.soc.next .low).core.debug.commit =
      (socRun mem n).core.memoryStage.info.valid := congrArg Debug.commit hdebug
  -- what WriteBack is about to write is what Memory and WriteBack had left
  have hregs : ∀ t : TestRun, t.soc = s.soc.next .low → t.cemu = c → t.SameRegs := by
    intro t ht htc r _
    have hdrain : t.regs = (socRun mem n).core.drained (socRun mem n).dataRdata := by
      rw [TestRun.regs, ht, hsoc, Soc.next_core, Core.next_regfile, Core.next_writeBackStage]
      rfl
    rw [hdrain, htc]
    exact congrFun hfol.meets.regs r
  cases hv : (socRun mem n).core.memoryStage.info.valid with
  | true =>
    rw [hv, if_pos rfl] at hE
    rw [hE, refRun_succ mem h.cemu] at hc
    have hd : differs (s.soc.next .low).core.debug c = false := by
      rw [hdebug]
      exact hdiff hv
    refine ⟨_, TestRun.cycle_commit h.running (hcommit.trans hv) hc hd, h.running,
      h.time.next rfl rfl (by rw [hcommit, hv]; rfl), ?_, fun _ => hd, hregs _ rfl rfl⟩
    rw [Nat.add_sub_cancel, hE, refRun_succ mem h.cemu, hc]
  | false =>
    rw [hv, if_neg Bool.false_ne_true, Nat.add_zero] at hE
    rw [hE, h.cemu] at hc
    obtain rfl := Except.ok.inj hc
    have hcv := hcommit.trans hv
    refine ⟨_, TestRun.cycle_idle h.running hcv (h.time.slack hcv), h.running,
      h.time.next rfl rfl (by rw [hcv]; rfl), ?_, fun hn => ?_, hregs _ rfl rfl⟩
    · rw [Nat.add_sub_cancel, hE, h.cemu]
    · exact absurd (hcv.symm.trans hn) Bool.false_ne_true

/-- **On agreeing steps there is no alarm**, and after each cycle the registers are the same. -/
theorem testRun_silent (d : ℤ) (n : ℕ) (hE : socExecuted mem (n - 1) ≤ K) :
    ∃ s, testRun o testFlags (loopStart testFlags mem (fun _ => 0) d) n = .ok s ∧
      Silent mem n s := by
  induction n with
  | zero =>
    refine ⟨_, rfl, rfl, onTime_start testFlags mem _ d, rfl, fun hn => ?_, fun r _ => ?_⟩
    · exact absurd hn Bool.false_ne_true
    · rfl
  | succ n ih =>
    rw [Nat.add_sub_cancel] at hE
    obtain ⟨s, hs, hsil⟩ := ih ((socExecuted_mono mem (Nat.sub_le n 1)).trans hE)
    obtain ⟨s', hcycle, hsil'⟩ := hsil.next hconf (o := o) hE
    refine ⟨s', ?_, hsil'⟩
    rw [testRun, hs]
    exact hcycle

omit hconf in
/-- The cycle in which the reference ends the simulation: the instructions before have been
committed, and the loop has made no alarm. -/
theorem testRun_last {e : Halt} (hend : refRun mem (K + 1) = .error e) :
    ∃ N ≤ 3 * K + 5, (∀ n ≤ N, socExecuted mem (n - 1) ≤ K) ∧ socExecuted mem (N - 1) = K ∧
      ∀ s : TestRun, Silent mem N s → s.cycle o testFlags = .error e := by
  classical
  -- the first cycle before which instruction `K` has been executed
  have hex : ∃ n, K + 1 ≤ socExecuted mem n := ⟨_, socExecuted_ge mem K⟩
  obtain ⟨N, hN, hmin⟩ : ∃ N, K + 1 ≤ socExecuted mem N ∧
      ∀ n < N, socExecuted mem n ≤ K :=
    ⟨Nat.find hex, Nat.find_spec hex, fun n hn => Nat.le_of_lt_succ (not_le.mp (Nat.find_min hex hn))⟩
  have hle : N ≤ 3 * K + 5 := by
    by_contra hn
    have hk := hmin _ (not_le.mp hn)
    have hge := socExecuted_ge mem K
    omega
  have hpos : 0 < N := by
    rcases Nat.eq_zero_or_pos N with rfl | hpos
    · exact absurd hN (Nat.not_succ_le_zero K)
    · exact hpos
  have hprev := hmin (N - 1) (Nat.sub_lt hpos Nat.one_pos)
  have hcount := socExecuted_memory mem N
  have hv : (socRun mem N).core.memoryStage.info.valid = true := by
    by_contra hn
    rw [if_neg hn] at hcount
    omega
  rw [hv, if_pos rfl] at hcount
  have hK : socExecuted mem (N - 1) = K := by omega
  refine ⟨N, hle, fun n hn => (socExecuted_mono mem (by omega)).trans hprev, hK, fun s hsil => ?_⟩
  have hcemu := hsil.cemu
  rw [hK] at hcemu
  have hcommit : (s.soc.next .low).core.debug.commit = true := by
    rw [hsil.time.soc, Soc.next_debug]
    exact hv
  have hexec : s.cemu.exec testFlags false false false false = .error e := by
    rw [← refRun_succ mem hcemu]
    exact hend
  exact TestRun.cycle_halt hsil.running hcommit hexec

/-- Up to the end of the simulation no round makes an alarm. -/
theorem testRun_through {e : Halt} (hend : refRun mem (K + 1) = .error e) :
    ∃ N ≤ 3 * K + 6, testRun o testFlags (testStart testFlags mem fun _ => 0) N = .error e ∧
      ∀ n < N, socExecuted mem (n - 1) ≤ K ∧
        ∃ s, testRun o testFlags (testStart testFlags mem fun _ => 0) n = .ok s ∧ Silent mem n s := by
  obtain ⟨N, hle, hE, -, hlast⟩ := testRun_last (o := o) hend
  have hrun : ∀ n ≤ N, ∃ s, testRun o testFlags (testStart testFlags mem fun _ => 0) n = .ok s ∧
      Silent mem n s := fun n hn => testRun_silent hconf 1500 n (hE n hn)
  refine ⟨N + 1, by omega, ?_, fun n hn => ?_⟩
  · obtain ⟨s, hs, hsil⟩ := hrun N le_rfl
    rw [testRun, hs]
    exact hlast s hsil
  · have hle := Nat.le_of_lt_succ hn
    exact ⟨hE n hle, hrun n hle⟩

/-- **A program whose steps agree is tested to its end.**  When the reference alone makes `K` steps
on which the designs agree and ends the simulation with the next one, then so does the differential
test, at most three cycles a step later; before that no comparison fails, the loop never stops and
the registers are the same after every cycle. -/
theorem testRun_exits {e : Halt} (hend : refRun mem (K + 1) = .error e) :
    ∃ N ≤ 3 * K + 6, testRun o testFlags (testStart testFlags mem fun _ => 0) N = .error e ∧
      ∀ n < N, ∃ s, testRun o testFlags (testStart testFlags mem fun _ => 0) n = .ok s ∧
        s.running = true ∧ s.Passes ∧ s.SameRegs := by
  obtain ⟨N, hle, hN, hrun⟩ := testRun_through hconf hend
  refine ⟨N, hle, hN, fun n hn => ?_⟩
  obtain ⟨-, s, hs, hsil⟩ := hrun n hn
  exact ⟨s, hs, hsil.running, hsil.passes, hsil.same⟩

end

/-- stores 7 behind the program, loads it again and ends the test -/
def storeProg : List (BitVec 32) :=
  [0x00000297, 0x00700313, 0x0462B023, 0x0402B383, 0x05D00893, 0x00000073]

/-- the reference after `k` steps of it -/
def storeState (k : ℕ) : RvCore MmioMem :=
  (refRun (progBytes storeProg) k).toOption.getD (.boots storeProg)

theorem conforming_store : Conforming (progBytes storeProg) 5 := by
  have hrun : ∀ k ≤ 5, refRun (progBytes storeProg) k = .ok (storeState k) := by
    have hok : ∀ k ≤ 5, (refRun (progBytes storeProg) k).isOk = true := by decide +kernel
    intro k hk
    have h := hok k hk
    unfold storeState
    cases hx : refRun (progBytes storeProg) k with
    | ok c => rfl
    | error e =>
      rw [hx] at h
      exact absurd h Bool.false_ne_true
  have hfetch : ∀ k < 5, (storeState k).fetches testFlags .low = storeProg[k]? := by decide +kernel
  have hram : ∀ k < 5, InRam (storeState k).pc 4 := by
    unfold InRam
    decide +kernel
  have hword : ∀ k < 5, ∀ j ≤ k, some ((storeState j).wordAt (storeState k).pc) = storeProg[k]? := by
    decide +kernel
  intro k hk
  obtain ⟨w, hw⟩ : ∃ w, storeProg[k]? = some w :=
    ⟨_, List.getElem?_eq_getElem (l := storeProg) (Nat.lt_succ_of_lt hk)⟩
  refine ⟨storeState k, w, hrun k hk.le, ⟨(hfetch k hk).trans hw, hram k hk, ?_⟩, fun j hj c' hc' => ?_⟩
  · interval_cases k
    all_goals obtain rfl := Option.some.inj hw
    · exact .compute (by decide) (by decide +kernel)
    · exact .compute (by decide) (by decide +kernel)
    · exact .access (by decide) (by decide +kernel) (by decide +kernel) (by unfold InRam; decide +kernel)
        (by unfold RvCore.endsTest; decide +kernel)
    · exact .access (by decide) (by decide +kernel) (by decide +kernel) (by unfold InRam; decide +kernel)
        (by unfold RvCore.endsTest; decide +kernel)
    · exact .compute (by decide) (by decide +kernel)
  · obtain rfl := Except.ok.inj ((hrun j (by omega)).symm.trans hc')
    exact Option.some.inj ((hword k hk j hj).trans hw)

theorem testRun_exits_store : ∃ N ≤ 21, testRun ⟨false, false⟩ testFlags
    (testStart testFlags (progBytes storeProg) fun _ => 0) N = .error (.exit 0) ∧
      ∀ n < N, ∃ s, testRun ⟨false, false⟩ testFlags
        (testStart testFlags (progBytes storeProg) fun _ => 0) n = .ok s ∧
        s.running = true ∧ s.Passes ∧ s.SameRegs :=
  testRun_exits conforming_store rfl

end HduCpu
