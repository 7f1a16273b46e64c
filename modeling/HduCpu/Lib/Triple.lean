import Mathlib

/-!
# Total correctness of a machine

A machine has a step that may fail.  `Leads step Q n s`: from `s` it comes to a state of `Q` in at
most `n` steps.  A triple with precondition `P` is `∀ s, P s → Leads step Q n s`.

* `Leads.here`, `Leads.next`   the end, and a step;
* `Leads.mono`, `Leads.imp`, `Leads.trans`   the bound, the consequence rule and sequencing;
* `Leads.rounds`           a loop whose invariant counts the rounds;
* `Leads.iterate`          the run of the machine comes to the state.
-/

universe u v

section
variable {σ : Type u} {ε : Type v} (step : σ → Except ε σ)

/-- In at most `n` steps the machine comes to a state of `Q`. -/
def Leads (Q : σ → Prop) : ℕ → σ → Prop
  | 0, s => Q s
  | n + 1, s => Q s ∨ ∃ s', step s = .ok s' ∧ Leads Q n s'

/-- the state after `n` steps -/
def iterate (s : σ) : ℕ → Except ε σ
  | 0 => .ok s
  | n + 1 => iterate s n >>= step

variable {step} {P Q : σ → Prop} {m n : ℕ} {s s' : σ}

theorem Leads.here (h : Q s) : Leads step Q n s := by
  cases n with
  | zero => exact h
  | succ n => exact .inl h

theorem Leads.next (hs : step s = .ok s') (h : Leads step Q n s') : Leads step Q (n + 1) s :=
  .inr ⟨s', hs, h⟩

theorem Leads.mono (h : Leads step Q m s) (hmn : m ≤ n) : Leads step Q n s := by
  induction m generalizing s n with
  | zero => exact .here h
  | succ m ih =>
    obtain ⟨k, rfl⟩ : ∃ k, n = k + 1 := ⟨n - 1, by omega⟩
    rcases h with h | ⟨s', hs, h⟩
    · exact .here h
    · exact .next hs (ih h (by omega))

/-- The consequence rule. -/
theorem Leads.imp (h : Leads step P n s) (hPQ : ∀ s', P s' → Q s') : Leads step Q n s := by
  induction n generalizing s with
  | zero => exact hPQ s h
  | succ n ih =>
    rcases h with h | ⟨s', hs, h⟩
    · exact .here (hPQ s h)
    · exact .next hs (ih h)

/-- **Sequencing.** -/
theorem Leads.trans (h : Leads step P m s) (hP : ∀ s', P s' → Leads step Q n s') :
    Leads step Q (m + n) s := by
  induction m generalizing s with
  | zero => exact (hP s h).mono (by omega)
  | succ m ih =>
    rcases h with h | ⟨s', hs, h⟩
    · exact (hP s h).mono (by omega)
    · rw [Nat.succ_add]
      exact .next hs (ih h)

/-- **A loop**: `I k` holds after `k` rounds, and a round takes at most `n` steps. -/
theorem Leads.rounds {I : ℕ → σ → Prop} (h : ∀ k s, k < m → I k s → Leads step (I (k + 1)) n s)
    (h₀ : I 0 s) : Leads step (I m) (n * m) s := by
  have key : ∀ k ≤ m, Leads step (I k) (n * k) s := by
    intro k hk
    induction k with
    | zero => exact .here h₀
    | succ k ih => exact (ih (by omega)).trans fun s' hs' => h k s' (by omega) hs'
  exact key m le_rfl

/-! ## runs -/

theorem iterate_next (hs : step s = .ok s') (n : ℕ) :
    iterate step s (n + 1) = iterate step s' n := by
  induction n with
  | zero => exact hs
  | succ n ih => rw [iterate, ih, iterate]

/-- What the machine is led to is a state of its run. -/
theorem Leads.iterate (h : Leads step Q n s) : ∃ k ≤ n, ∃ s', iterate step s k = .ok s' ∧ Q s' := by
  induction n generalizing s with
  | zero => exact ⟨0, le_rfl, s, rfl, h⟩
  | succ n ih =>
    rcases h with h | ⟨p, hs, h⟩
    · exact ⟨0, Nat.zero_le _, s, rfl, h⟩
    · obtain ⟨k, hk, s', hit, hq⟩ := ih h
      exact ⟨k + 1, by omega, s', by rw [iterate_next hs, hit], hq⟩

end
