import HduCpu.Cpu.Pipeline

/-!
# Stalls and bubbles

How long the Execute slot can stay empty while the interrupt lines are low.

* `Core.stall_not_flush`, `Core.stall_once`   a load-use stall comes with a load in Execute, and
                           leaves a bubble behind it;
* `Core.refill`            an empty slot is filled from Decode, and Decode from Fetch;
* `Core.debug_commit`      an instruction commits two cycles after it was in Execute;
* `first_in_execute`       the first instruction is in Execute four cycles after reset;
* `bubbles_bounded`        the bounds, over every run.
-/

namespace HduCpu

namespace Core
section
variable {s : Core} (i : CoreIn)

/-- A trap or return clears `reg_wen` of the instruction in Execute, and a load does not redirect
Fetch: a stall never meets a flush. -/
theorem stall_not_flush (h : s.stall i = true) : s.flush i = false := by
  have hl : ((s.exe i).memoryStage.info.regWen && ((s.exe i).memoryStage.info.fusel == .lsu)) =
      true := by
    simp only [stall, loadUse, Bool.and_eq_true] at h ⊢
    exact ⟨h.1.1.1.1.2, h.1.1.2⟩
  obtain ⟨hw, hf⟩ := Bool.and_eq_true_iff.mp hl
  rw [exe, executeUnit_info] at hw hf
  by_cases hc : (HduCpu.executeUnit s.csrfile i.interrupt s.executeStage).csrFtc.flush = true
  · rw [if_pos hc] at hw
    exact Bool.noConfusion hw
  · rw [if_neg hc] at hf
    have hfu : (fu s.csrfile s.executeStage).ftcInfo.flush = false := by
      rw [fu, eq_of_beq hf]
      rfl
    change (if (HduCpu.executeUnit s.csrfile i.interrupt s.executeStage).csrFtc.flush then
      (HduCpu.executeUnit s.csrfile i.interrupt s.executeStage).csrFtc
      else (fu s.csrfile s.executeStage).ftcInfo).flush = false
    rw [if_neg hc, hfu]

/-- The bubble that a stall sends to Execute stalls nothing. -/
theorem stall_once (h : s.stall i = true) (j : CoreIn) : (s.next i).stall j = false :=
  stall_bubble j (next_execute_bubble s i (.inr h))

/-- With an empty Execute slot and the lines low the front of the pipeline moves on. -/
theorem refill (hlow : i.interrupt = .low) (hv : s.executeStage.info.valid = false) :
    (s.next i).executeStage.info.valid = s.decodeStage.valid ∧
      (s.next i).decodeStage.valid = (s.fetch.state == .receive) := by
  have hf : s.flush i = false := by
    rw [flush_bubble i hv, hlow]
    exact takesInt_low _
  have hs := stall_bubble i hv
  rw [next_execute_go s i hf hs, next_decode_go s i hf hs]
  exact ⟨rfl, rfl⟩

/-- Once instructions arrive, one of three consecutive cycles has an instruction in Execute. -/
theorem refill_two (j : CoreIn) (hi : i.interrupt = .low) (hj : j.interrupt = .low)
    (hr : s.fetch.state = .receive) (h₀ : s.executeStage.info.valid = false)
    (h₁ : (s.next i).executeStage.info.valid = false) :
    ((s.next i).next j).executeStage.info.valid = true := by
  rw [(refill j hj h₁).1, (refill i hi h₀).2, hr]
  rfl

/-- An instruction in Execute commits two cycles later, whatever happens to it. -/
theorem debug_commit (j : CoreIn) :
    ((s.next i).next j).debug.commit = s.executeStage.info.valid := by
  change ((s.next i).next j).writeBackStage.info.valid = _
  rw [next_writeBackStage]
  change (s.next i).memoryStage.info.valid = _
  rw [next_memoryStage, exe, executeUnit_valid]

end
end Core

/-! ## runs -/

/-- the run from reset -/
def coreRun (inp : ℕ → CoreIn) : ℕ → Core := coreMachine.run inp .reset

section
variable (inp : ℕ → CoreIn)

theorem coreRun_succ (n : ℕ) : coreRun inp (n + 1) = (coreRun inp n).next (inp n) := rfl

theorem coreRun_coherent (n : ℕ) : Coherent (coreRun inp n) :=
  coherent.run inp rfl n

/-- Fetch receives instructions from the cycle on in which it first does. -/
theorem receive_mono {k n : ℕ} (hk : (coreRun inp k).fetch.state = .receive) (hkn : k ≤ n) :
    (coreRun inp n).fetch.state = .receive := by
  induction n, hkn using Nat.le_induction with
  | base => exact hk
  | succ n _ ih =>
    rw [coreRun_succ]
    refine Core.next_fetch_receive (inp n) ?_
    rw [ih]
    decide

theorem receive_of_valid {k : ℕ} (hk : (coreRun inp k).executeStage.info.valid = true) :
    (coreRun inp k).fetch.state = .receive :=
  (coreRun_coherent inp k).receive ((coreRun_coherent inp k).front hk)

/-- the two cycles after reset in which nothing is committed -/
theorem no_early_commit {k : ℕ} (hk : (coreRun inp k).debug.commit = true) : 2 ≤ k := by
  rcases k with _ | _ | k
  · change false = true at hk
    exact Bool.noConfusion hk
  · have hw : (coreRun inp 1).debug.commit = false := by
      change (Core.reset.next (inp 0)).writeBackStage.info.valid = false
      rw [Core.next_writeBackStage]
      rfl
    rw [hw] at hk
    exact Bool.noConfusion hk
  · omega

variable (hlow : ∀ n, (inp n).interrupt = .low)
include hlow

/-- **The first instruction is in Execute four cycles after reset.** -/
theorem first_in_execute : (coreRun inp 4).executeStage.info.valid = true := by
  have h₀ : (coreRun inp 0).executeStage.info.valid = false := rfl
  obtain ⟨v₁, d₁⟩ := Core.refill (inp 0) (hlow 0) h₀
  obtain ⟨v₂, d₂⟩ := Core.refill (s := coreRun inp 1) (inp 1) (hlow 1) v₁
  have f₁ : (coreRun inp 1).fetch.state = .send := by
    rw [coreRun_succ, Core.next_fetch]
    rfl
  have v₂' : (coreRun inp 2).executeStage.info.valid = false := v₂.trans d₁
  have f₂ : (coreRun inp 2).fetch.state = .receive := by
    rw [coreRun_succ]
    exact Core.next_fetch_receive _ (by rw [f₁]; decide)
  obtain ⟨v₃, -⟩ := Core.refill (inp 2) (hlow 2) v₂'
  refine Core.refill_two (inp 2) (inp 3) (hlow 2) (hlow 3) f₂ v₂' (v₃.trans (d₂.trans ?_))
  rw [f₁]
  rfl

/-- From the first valid Execute slot on, every third cycle at least has one. -/
theorem busy_within_three {k n : ℕ} (hk : (coreRun inp k).executeStage.info.valid = true)
    (hkn : k ≤ n) : ∃ m ≤ 2, (coreRun inp (n + m)).executeStage.info.valid = true := by
  have hr := receive_mono inp (receive_of_valid inp hk) hkn
  by_cases h₀ : (coreRun inp n).executeStage.info.valid = true
  · exact ⟨0, by omega, h₀⟩
  by_cases h₁ : (coreRun inp (n + 1)).executeStage.info.valid = true
  · exact ⟨1, by omega, h₁⟩
  exact ⟨2, le_rfl, Core.refill_two (inp n) (inp (n + 1)) (hlow n) (hlow (n + 1)) hr
    (Bool.eq_false_of_not_eq_true h₀) (Bool.eq_false_of_not_eq_true h₁)⟩

/-- From the first commit on, every third cycle at least has one. -/
theorem commit_within_three {k n : ℕ} (hk : (coreRun inp k).debug.commit = true) (hkn : k ≤ n) :
    ∃ m ≤ 2, (coreRun inp (n + m)).debug.commit = true := by
  obtain ⟨k, rfl⟩ := Nat.exists_eq_add_of_le' (no_early_commit inp hk)
  obtain ⟨n, rfl⟩ := Nat.exists_eq_add_of_le' (le_trans (Nat.le_add_left 2 k) hkn)
  have hv : (coreRun inp k).executeStage.info.valid = true := by
    rw [← hk]
    exact (Core.debug_commit (inp k) (inp (k + 1))).symm
  obtain ⟨m, hm, h⟩ := busy_within_three inp hlow hv (by omega : k ≤ n)
  refine ⟨m, hm, ?_⟩
  have he : n + 2 + m = n + m + 2 := by omega
  rw [he, ← h]
  exact Core.debug_commit (inp (n + m)) (inp (n + m + 1))

/-- **Stalls and bubbles are bounded.** -/
theorem bubbles_bounded :
    (∀ n, ¬ ((coreRun inp n).stall (inp n) = true ∧
      (coreRun inp (n + 1)).stall (inp (n + 1)) = true)) ∧
    (∀ n, ¬ ((coreRun inp n).stall (inp n) = true ∧ (coreRun inp n).flush (inp n) = true)) ∧
    (∀ k n, (coreRun inp k).executeStage.info.valid = true → k ≤ n →
      ∃ m ≤ 2, (coreRun inp (n + m)).executeStage.info.valid = true) ∧
    (∀ k n, (coreRun inp k).debug.commit = true → k ≤ n →
      ∃ m ≤ 2, (coreRun inp (n + m)).debug.commit = true) := by
  refine ⟨?_, ?_, fun k n => busy_within_three inp hlow, fun k n => commit_within_three inp hlow⟩
  · rintro n ⟨h₀, h₁⟩
    rw [coreRun_succ, Core.stall_once (inp n) h₀] at h₁
    exact Bool.noConfusion h₁
  · rintro n ⟨h₀, h₁⟩
    rw [Core.stall_not_flush (inp n) h₀] at h₁
    exact Bool.noConfusion h₁

end

/-- `ld x1, 0(x0)` and `jalr x0, 0(x1)` among `addi x0, x0, 0`; the load reads `0x80000000` -/
def loadJump (n : ℕ) : CoreIn :=
  ⟨.low, if n = 2 then 0x00003083 else if n = 3 then 0x00008067 else 0x00000013, 0x80000000⟩

/-- The jump waits for the load and flushes what follows it: Execute is empty once, and then twice. -/
theorem bubbles_bounded_loadJump : ((coreRun loadJump 4).stall (loadJump 4) = true ∧
      (coreRun loadJump 6).flush (loadJump 6) = true ∧
      ∀ n ∈ [5, 7, 8], (coreRun loadJump n).executeStage.info.valid = false) ∧
    (∀ n, 4 ≤ n → ∃ m ≤ 2, (coreRun loadJump (n + m)).executeStage.info.valid = true) ∧
    ∀ n, 6 ≤ n → ∃ m ≤ 2, (coreRun loadJump (n + m)).debug.commit = true := by
  have hrun : ((coreRun loadJump 4).stall (loadJump 4) = true ∧
      (coreRun loadJump 6).flush (loadJump 6) = true ∧
      ∀ n ∈ [5, 7, 8], (coreRun loadJump n).executeStage.info.valid = false) ∧
      (coreRun loadJump 6).debug.commit = true := by decide +kernel
  obtain ⟨-, -, hvalid, hcommit⟩ := bubbles_bounded loadJump fun _ => rfl
  exact ⟨hrun.1, fun n => hvalid 4 n (first_in_execute loadJump fun _ => rfl),
    fun n => hcommit 6 n hrun.2⟩

end HduCpu
