import Mathlib

/-!
# Clocked machines: reachable states, runs, logs and lockstep refinement

A `Clocked` machine has a set of reset states and a next-state function of the inputs of one
clock cycle.  Nothing here names a particular circuit.

* `Clocked.Reach`          the states some input sequence leads to;
* `Clocked.run`            the run under a given input sequence, `reach_run` connects the two;
* `Clocked.Invariant`      the induction rule, packaged once (`Invariant.reach`,
                           `Invariant.run`);
* `log`                    what a run has emitted before cycle `n`, one list a cycle;
* `log_buffered`           a run that emits late what another emits at once has emitted
                           everything but what it still holds;
* `stutter`                a relation kept by idle cycles, and by the others against one move of a
                           second run, relates the runs;
* `log_collapse`           the log of a run that emits nothing in idle cycles.
-/

/-- A synchronous circuit: its states at reset and the state after one clock edge. -/
structure Clocked (σ ι : Type*) where
  init : σ → Prop
  next : ι → σ → σ

namespace Clocked
section
variable {σ ι : Type*} (M : Clocked σ ι)

/-- The states that some sequence of inputs leads to. -/
inductive Reach : σ → Prop
  | init {s : σ} (h : M.init s) : Reach s
  | next {s : σ} (i : ι) (h : Reach s) : Reach (M.next i s)

/-- The run from `s` under the inputs `inp`. -/
def run (inp : ℕ → ι) (s : σ) : ℕ → σ
  | 0 => s
  | n + 1 => M.next (inp n) (run inp s n)

@[simp] theorem run_zero (inp : ℕ → ι) (s : σ) : M.run inp s 0 = s := rfl

theorem run_succ (inp : ℕ → ι) (s : σ) (n : ℕ) :
    M.run inp s (n + 1) = M.next (inp n) (M.run inp s n) := rfl

theorem reach_run (inp : ℕ → ι) {s : σ} (hs : M.init s) (n : ℕ) : M.Reach (M.run inp s n) := by
  induction n with
  | zero => exact .init hs
  | succ n ih => exact .next _ ih

/-- A property of every reset state that every clock edge keeps. -/
structure Invariant (P : σ → Prop) : Prop where
  base : ∀ s, M.init s → P s
  step : ∀ i s, P s → P (M.next i s)

variable {M}

theorem Invariant.reach {P : σ → Prop} (h : M.Invariant P) {s : σ} (hs : M.Reach s) : P s := by
  induction hs with
  | init h₀ => exact h.base _ h₀
  | next i _ ih => exact h.step i _ ih

theorem Invariant.run {P : σ → Prop} (h : M.Invariant P) (inp : ℕ → ι) {s : σ} (hs : M.init s)
    (n : ℕ) : P (M.run inp s n) :=
  h.reach (M.reach_run inp hs n)

end
end Clocked

/-! ## logs -/

section
variable {α : Type*}

/-- What was emitted before cycle `n`, when cycle `k` emits the list `f k`. -/
def log (f : ℕ → List α) (n : ℕ) : List α := (List.range n).flatMap f

@[simp] theorem log_zero (f : ℕ → List α) : log f 0 = [] := rfl

theorem log_succ (f : ℕ → List α) (n : ℕ) : log f (n + 1) = log f n ++ f n := by
  simp [log, List.range_succ, List.flatMap_append]

/-- **Late emission.**  `f` emits in order, and possibly some cycles later, what `g` emits; `p n`
is what has been taken over but not yet emitted at cycle `n`. -/
theorem log_buffered {f g p : ℕ → List α} (h₀ : p 0 = [])
    (h : ∀ n, f n ++ p (n + 1) = p n ++ g n) (n : ℕ) : log f n ++ p n = log g n := by
  induction n with
  | zero => simpa using h₀
  | succ n ih => rw [log_succ, log_succ, List.append_assoc, h n, ← List.append_assoc, ih]

end

/-! ## idle cycles -/

section
variable {σ α : Type*}

/-- **Lockstep with idle cycles.**  A relation that survives the idle cycles of a run, and the
others together with one move of a second run, relates the two runs, the second one read at the
number of cycles that were not idle. -/
theorem stutter {τ : Type*} {R : σ → τ → Prop} {fires : ℕ → Prop} [DecidablePred fires]
    {a : ℕ → σ} {b : ℕ → τ} (h₀ : R (a 0) (b 0))
    (hfire : ∀ n, fires n → R (a n) (b (Nat.count fires n)) →
      R (a (n + 1)) (b (Nat.count fires n + 1)))
    (hidle : ∀ n, ¬ fires n → R (a n) (b (Nat.count fires n)) →
      R (a (n + 1)) (b (Nat.count fires n))) (n : ℕ) : R (a n) (b (Nat.count fires n)) := by
  induction n with
  | zero => exact h₀
  | succ n ih =>
    rw [Nat.count_succ]
    by_cases hf : fires n
    · rw [if_pos hf]
      exact hfire n hf ih
    · rw [if_neg hf]
      exact hidle n hf ih

/-- The log of a run that emits only in the cycles where `fires` holds is the log of its moves. -/
theorem log_collapse {fires : ℕ → Prop} [DecidablePred fires] {f g : ℕ → List α}
    (h : ∀ n, f n = if fires n then g (Nat.count fires n) else []) (n : ℕ) :
    log f n = log g (Nat.count fires n) := by
  induction n with
  | zero => simp
  | succ n ih =>
    rw [log_succ, Nat.count_succ, h n, ih]
    by_cases hf : fires n
    · rw [if_pos hf, if_pos hf, log_succ]
    · rw [if_neg hf, if_neg hf, List.append_nil, Nat.add_zero]

end
