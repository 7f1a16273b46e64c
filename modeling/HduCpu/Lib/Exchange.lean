import Mathlib

/-!
# Sorting by exchanges

An array is a function on the indices.  A sweep puts each value and its right neighbour in order,
one after the other; sweeps over fewer and fewer indices sort the array.

* `exchange`, `sweep`, `bubble`   one exchange, a sweep, and the sort;
* `Rearranged n f g`       `g` has the values of `f`, in another order of the indices up to `n`;
* `sweep_max`              a sweep moves the maximum to its end;
* `bubble_rearranged`, `bubble_monotone`   the sort (`Rearranged.perm`, `bubble_pairwise` as lists).
-/

section
variable {α : Type*} [LinearOrder α] (f : ℕ → α)

/-- the values at `k` and `k + 1` in order -/
def exchange (k : ℕ) : ℕ → α := if f (k + 1) < f k then f ∘ Equiv.swap k (k + 1) else f

/-- the first `k` exchanges of a sweep -/
def sweep : ℕ → ℕ → α
  | 0 => f
  | k + 1 => exchange (sweep k) k

/-- a sweep up to index `n`, then up to `n - 1`, and so on -/
def bubble : ℕ → (ℕ → α) → ℕ → α
  | 0, f => f
  | n + 1, f => bubble n (sweep f (n + 1))

end

/-! ## the values stay -/

section
variable {α : Type*} {n m : ℕ} {f g h : ℕ → α}

/-- `g` has the values of `f`; only indices up to `n` have changed places. -/
def Rearranged (n : ℕ) (f g : ℕ → α) : Prop :=
  ∃ p : Equiv.Perm ℕ, (∀ k, n < k → p k = k) ∧ g = f ∘ p

theorem Rearranged.refl (n : ℕ) (f : ℕ → α) : Rearranged n f f := ⟨1, fun _ _ => rfl, rfl⟩

theorem Rearranged.trans (h₁ : Rearranged n f g) (h₂ : Rearranged n g h) : Rearranged n f h := by
  obtain ⟨p, hp, rfl⟩ := h₁
  obtain ⟨q, hq, rfl⟩ := h₂
  refine ⟨p * q, fun k hk => ?_, rfl⟩
  rw [Equiv.Perm.mul_apply, hq k hk, hp k hk]

theorem Rearranged.mono (h : Rearranged n f g) (hnm : n ≤ m) : Rearranged m f g := by
  obtain ⟨p, hp, hg⟩ := h
  exact ⟨p, fun k hk => hp k (by omega), hg⟩

/-- Behind the indices nothing has changed. -/
theorem Rearranged.outside (h : Rearranged n f g) {k : ℕ} (hk : n < k) : g k = f k := by
  obtain ⟨p, hp, rfl⟩ := h
  rw [Function.comp_apply, hp k hk]

/-- The indices up to `n` stay among themselves. -/
theorem Rearranged.eq_comp (h : Rearranged n f g) :
    ∃ p : Equiv.Perm ℕ, (∀ k, p k ≤ n ↔ k ≤ n) ∧ g = f ∘ p := by
  obtain ⟨p, hp, hg⟩ := h
  refine ⟨p, fun k => ⟨fun hk => ?_, fun hk => ?_⟩, hg⟩
  · by_contra hlt
    rw [hp k (by omega)] at hk
    exact hlt hk
  · by_contra hlt
    -- an index behind `n` is its own image only
    have hpk : p k = k := p.injective (hp _ (by omega))
    omega

theorem Rearranged.perm (h : Rearranged n f g) :
    ((List.range (n + 1)).map g).Perm ((List.range (n + 1)).map f) := by
  obtain ⟨p, hp, rfl⟩ := h.eq_comp
  have hperm : ((List.range (n + 1)).map p).Perm (List.range (n + 1)) := by
    refine (List.perm_ext_iff_of_nodup (List.nodup_range.map p.injective) List.nodup_range).mpr
      fun k => ?_
    rw [List.mem_map, List.mem_range]
    constructor
    · rintro ⟨j, hj, rfl⟩
      rw [List.mem_range] at hj
      exact Nat.lt_succ_of_le ((hp j).mpr (Nat.le_of_lt_succ hj))
    · intro hk
      have hle : p (p.symm k) ≤ n := by
        rw [Equiv.apply_symm_apply]
        exact Nat.le_of_lt_succ hk
      refine ⟨p.symm k, ?_, p.apply_symm_apply k⟩
      rw [List.mem_range]
      exact Nat.lt_succ_of_le ((hp _).mp hle)
  rw [← List.map_map]
  exact hperm.map f

end

section
variable {α : Type*} [LinearOrder α] (f : ℕ → α)

theorem exchange_rearranged {n k : ℕ} (hk : k < n) : Rearranged n f (exchange f k) := by
  unfold exchange
  split_ifs
  · refine ⟨Equiv.swap k (k + 1), fun j hj => ?_, rfl⟩
    exact Equiv.swap_apply_of_ne_of_ne (by omega) (by omega)
  · exact .refl n f

theorem sweep_rearranged {n k : ℕ} (hk : k ≤ n) : Rearranged n f (sweep f k) := by
  induction k with
  | zero => exact .refl n f
  | succ k ih => exact (ih (by omega)).trans (exchange_rearranged _ (by omega))

theorem bubble_rearranged (n : ℕ) : Rearranged n f (bubble n f) := by
  induction n generalizing f with
  | zero => exact .refl 0 f
  | succ n ih => exact (sweep_rearranged f le_rfl).trans ((ih _).mono (Nat.le_succ n))

/-! ## the order -/

/-- A sweep moves the maximum to its end. -/
theorem sweep_max {j k : ℕ} (hj : j ≤ k) : sweep f k j ≤ sweep f k k := by
  induction k generalizing j with
  | zero => rw [Nat.le_zero.mp hj]
  | succ k ih =>
    rw [sweep, exchange]
    split_ifs with hlt
    · -- the maximum so far goes on to `k + 1`
      rw [Function.comp_apply, Function.comp_apply, Equiv.swap_apply_right]
      rcases Nat.lt_or_eq_of_le hj with hj' | rfl
      · rcases Nat.lt_or_eq_of_le (Nat.le_of_lt_succ hj') with hj'' | rfl
        · rw [Equiv.swap_apply_of_ne_of_ne (by omega) (by omega)]
          exact ih hj''.le
        · rw [Equiv.swap_apply_left]
          exact hlt.le
      · rw [Equiv.swap_apply_right]
    · rcases Nat.lt_or_eq_of_le hj with hj' | rfl
      · exact (ih (Nat.le_of_lt_succ hj')).trans (not_lt.mp hlt)
      · exact le_rfl

/-- **The sort sorts.** -/
theorem bubble_monotone (n : ℕ) {i j : ℕ} (hij : i ≤ j) (hj : j ≤ n) :
    bubble n f i ≤ bubble n f j := by
  induction n generalizing f i j with
  | zero =>
    obtain rfl : i = j := by omega
    exact le_rfl
  | succ n ih =>
    rcases Nat.lt_or_eq_of_le hj with hj' | rfl
    · exact ih _ hij (Nat.le_of_lt_succ hj')
    · -- the last place has the maximum of the first sweep, and the other sweeps leave it there
      have hrest := bubble_rearranged (sweep f (n + 1)) n
      have hlast : bubble (n + 1) f (n + 1) = sweep f (n + 1) (n + 1) :=
        hrest.outside (Nat.lt_succ_self n)
      obtain ⟨p, hp, hg⟩ := (hrest.mono (Nat.le_succ n)).eq_comp
      rw [hlast, bubble, hg]
      exact sweep_max f ((hp i).mpr hij)

/-- A sorted array stays. -/
theorem bubble_eq_self {n : ℕ} (h : ∀ k < n, f k ≤ f (k + 1)) : bubble n f = f := by
  have hsweep : ∀ k ≤ n, sweep f k = f := by
    intro k hk
    induction k with
    | zero => rfl
    | succ k ih => rw [sweep, ih (by omega), exchange, if_neg (not_lt.mpr (h k (by omega)))]
  induction n with
  | zero => rfl
  | succ n ih =>
    rw [bubble, hsweep (n + 1) le_rfl]
    exact ih (fun k hk => h k (by omega)) fun k hk => hsweep k (by omega)

theorem bubble_pairwise (n : ℕ) : ((List.range (n + 1)).map (bubble n f)).Pairwise (· ≤ ·) := by
  rw [List.pairwise_map]
  refine List.pairwise_lt_range.imp_of_mem fun _ hj hlt => ?_
  exact bubble_monotone f n hlt.le (Nat.le_of_lt_succ (List.mem_range.mp hj))

end
