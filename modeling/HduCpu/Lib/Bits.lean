import Mathlib

/-!
# Bit fields of a machine word

Read-modify-write of a field: clear it with a mask, or the new value shifted into place.

* `Within k x`             every bit of `x` lies in `k` (`within_or`, `within_and_left`);
* `fieldMask`, `putField`  the field of `n` bits at `lo`; `extract_putField` and
                           `extract_putField_of_disjoint` read this field and another one;
                           `putField_eq_self_iff` and `or_field_eq_self_iff` say when an update
                           changes nothing;
* `signExtend_shift_or`    a sign-extended number put together from its fields;
* `bitAt`                  one bit at a given position;
* `merge_eq_self_iff`      when a masked write changes nothing.
-/

section
variable {w n : ℕ}

/-! ## words confined to a mask -/

def Within (k x : BitVec w) : Prop := x &&& ~~~k = 0#w

instance (k x : BitVec w) : Decidable (Within k x) :=
  inferInstanceAs (Decidable (x &&& ~~~k = 0#w))

theorem within_or {k x y : BitVec w} (hx : Within k x) (hy : Within k y) : Within k (x ||| y) := by
  unfold Within at *
  rw [BitVec.and_or_distrib_right, hx, hy, BitVec.or_zero]

theorem within_and_left {k x : BitVec w} (hx : Within k x) (m : BitVec w) : Within k (x &&& m) := by
  unfold Within at *
  rw [BitVec.and_assoc, BitVec.and_comm m, ← BitVec.and_assoc, hx, BitVec.zero_and]

theorem Within.getLsbD {k x : BitVec w} (hx : Within k x) {i : ℕ} (hi : k.getLsbD i = false) :
    x.getLsbD i = false := by
  have h : (x &&& ~~~k).getLsbD i = false := by rw [show x &&& ~~~k = 0#w from hx]; simp
  by_cases hw : i < w
  · rw [BitVec.getLsbD_and, BitVec.getLsbD_not, hi] at h
    simpa only [hw, decide_true, Bool.not_false, Bool.and_true] using h
  · exact BitVec.getLsbD_of_ge x i (by omega)

/-! ## fields -/

/-- the mask of the `n` bits from `lo` on -/
def fieldMask (w lo n : ℕ) : BitVec w := (BitVec.allOnes n).setWidth w <<< lo

/-- the word `x` with the field at `lo` replaced by `v` -/
def putField (x : BitVec w) (lo : ℕ) (v : BitVec n) : BitVec w :=
  (x &&& ~~~fieldMask w lo n) ||| (v.setWidth w <<< lo)

theorem getLsbD_field (lo : ℕ) (v : BitVec n) {i : ℕ} (hi : i < w) :
    (v.setWidth w <<< lo).getLsbD i = (decide (lo ≤ i) && v.getLsbD (i - lo)) := by
  by_cases h : lo ≤ i
  · simp [hi, h, Nat.not_lt.mpr h]
  · simp [hi, h, Nat.lt_of_not_le h]

theorem getLsbD_fieldMask (lo : ℕ) {i : ℕ} (hi : i < w) :
    (fieldMask w lo n).getLsbD i = (decide (lo ≤ i) && decide (i < lo + n)) := by
  rw [fieldMask, getLsbD_field lo _ hi, BitVec.getLsbD_allOnes]
  by_cases h : lo ≤ i
  · have e : i - lo < n ↔ i < lo + n := by omega
    simp [h, e]
  · simp [h]

theorem extract_field (lo : ℕ) (v : BitVec n) (h : lo + n ≤ w) :
    (v.setWidth w <<< lo).extractLsb' lo n = v := by
  ext i hi
  rw [BitVec.getElem_extractLsb', getLsbD_field lo v (by omega), Nat.add_sub_cancel_left,
    BitVec.getLsbD_eq_getElem hi]
  simp

theorem extract_putField (x : BitVec w) (lo : ℕ) (v : BitVec n) (h : lo + n ≤ w) :
    (putField x lo v).extractLsb' lo n = v := by
  rw [putField, BitVec.extractLsb'_or, extract_field lo v h, BitVec.extractLsb'_and]
  have hz : (~~~fieldMask w lo n).extractLsb' lo n = 0#n := by
    ext i hi
    have hw : lo + i < w := by omega
    rw [BitVec.getElem_extractLsb', BitVec.getLsbD_not, getLsbD_fieldMask lo hw]
    simp [hw, hi]
  rw [hz, BitVec.and_zero, BitVec.zero_or]

/-- A bit outside the field keeps its value. -/
theorem getLsbD_putField_of_notMem (x : BitVec w) (lo : ℕ) (v : BitVec n) {i : ℕ}
    (h : i < lo ∨ lo + n ≤ i) : (putField x lo v).getLsbD i = x.getLsbD i := by
  by_cases hi : i < w
  swap
  · rw [BitVec.getLsbD_of_ge _ i (by omega), BitVec.getLsbD_of_ge _ i (by omega)]
  have hv : (decide (lo ≤ i) && v.getLsbD (i - lo)) = false := by
    rcases h with h | h
    · simp [Nat.not_le.mpr h]
    · rw [BitVec.getLsbD_of_ge v _ (by omega), Bool.and_false]
  have hm : (decide (lo ≤ i) && decide (i < lo + n)) = false := by
    rcases h with h | h
    · simp [Nat.not_le.mpr h]
    · simp [Nat.not_lt.mpr h]
  rw [putField, BitVec.getLsbD_or, getLsbD_field lo v hi, hv, BitVec.getLsbD_and, BitVec.getLsbD_not,
    getLsbD_fieldMask lo hi, hm]
  simp [hi]

theorem getLsbD_putField (x : BitVec w) (lo : ℕ) (v : BitVec n) {i : ℕ} (hi : i < n)
    (h : lo + n ≤ w) : (putField x lo v).getLsbD (lo + i) = v.getLsbD i := by
  have he := congrArg (fun y : BitVec n => y.getLsbD i) (extract_putField x lo v h)
  simpa [BitVec.getLsbD_extractLsb', hi] using he

/-- Another field keeps its value. -/
theorem extract_putField_of_disjoint {m : ℕ} (x : BitVec w) {lo lo' : ℕ} (v : BitVec n)
    (h : lo' + m ≤ lo ∨ lo + n ≤ lo') :
    (putField x lo v).extractLsb' lo' m = x.extractLsb' lo' m := by
  ext i hi
  rw [BitVec.getElem_extractLsb', BitVec.getElem_extractLsb',
    getLsbD_putField_of_notMem x lo v (by omega)]

/-- Replacing a field by itself changes nothing, and by nothing else does it. -/
theorem putField_eq_self_iff (x : BitVec w) (lo : ℕ) (v : BitVec n) (h : lo + n ≤ w) :
    putField x lo v = x ↔ v = x.extractLsb' lo n := by
  constructor
  · intro e
    rw [← e, extract_putField x lo v h]
  · rintro rfl
    apply BitVec.eq_of_getLsbD_eq
    intro i hi
    rw [putField, BitVec.getLsbD_or, getLsbD_field lo _ hi, BitVec.getLsbD_and, BitVec.getLsbD_not,
      getLsbD_fieldMask lo hi, BitVec.getLsbD_extractLsb']
    by_cases hl : lo ≤ i
    · have e : lo + (i - lo) = i := by omega
      by_cases hu : i < lo + n
      · have hn : i - lo < n := by omega
        simp [hl, hu, hn, e, hi]
      · have hn : ¬ i - lo < n := by omega
        simp [hl, hu, hn, hi]
    · simp [hl, hi]

/-- Setting bits of a field changes nothing when they are all set already. -/
theorem or_field_eq_self_iff (x : BitVec w) (lo : ℕ) (v : BitVec n) (h : lo + n ≤ w) :
    (v.setWidth w <<< lo) ||| x = x ↔ v &&& ~~~x.extractLsb' lo n = 0#n := by
  constructor
  · intro e
    have hv := congrArg (BitVec.extractLsb' lo n) e
    rw [BitVec.extractLsb'_or, extract_field lo v h] at hv
    rw [← hv]
    ext i hi
    simp only [BitVec.getElem_and, BitVec.getElem_not, BitVec.getElem_or, BitVec.getElem_zero]
    cases v[i] <;> simp
  · intro e
    apply BitVec.eq_of_getLsbD_eq
    intro i hi
    rw [BitVec.getLsbD_or, getLsbD_field lo v hi]
    by_cases hl : lo ≤ i ∧ i - lo < n
    · have hb := congrArg (fun z => z.getLsbD (i - lo)) e
      have ei : lo + (i - lo) = i := by omega
      simp only [BitVec.getLsbD_and, BitVec.getLsbD_not, BitVec.getLsbD_extractLsb', hl.2, ei,
        decide_true, Bool.true_and, BitVec.getLsbD_zero] at hb
      cases hx : x.getLsbD i <;> simp_all
    · by_cases h1 : lo ≤ i
      · have h2 : ¬ i - lo < n := fun h2 => hl ⟨h1, h2⟩
        simp [BitVec.getLsbD_of_ge v (i - lo) (by omega)]
      · simp [h1]

/-- A sign-extended field next to a zero-extended one is the sign extension of both together. -/
theorem signExtend_shift_or {m : ℕ} (x : BitVec m) (y : BitVec n) (k : ℕ) (hm : 0 < m) :
    (x.signExtend w <<< (n + k)) ||| (y.setWidth w <<< k) = (x ++ y).signExtend w <<< k := by
  apply BitVec.eq_of_getLsbD_eq
  intro i hi
  have hmsb : (x ++ y).msb = x.msb := by
    rw [BitVec.msb_append, if_neg (by omega)]
  simp only [BitVec.getLsbD_or, BitVec.getLsbD_shiftLeft, BitVec.getLsbD_signExtend,
    BitVec.getLsbD_setWidth, BitVec.getLsbD_append, hmsb, hi, decide_true, Bool.true_and]
  by_cases hk : i < k
  · simp [hk]
    omega
  · by_cases hn : i - k < n
    · have h1 : i < n + k := by omega
      have h2 : i - k < w := by omega
      have h3 : i - k < m + n := by omega
      simp [hk, hn, h1, h2, h3]
    · have h1 : ¬ i < n + k := by omega
      have h2 : i - k < w := by omega
      have h4 : i - (n + k) < w := by omega
      have h5 : i - (n + k) = i - k - n := by omega
      have h6 : i - k - n < m ↔ i - k < m + n := by omega
      have hy : y.getLsbD (i - k) = false := BitVec.getLsbD_of_ge _ _ (by omega)
      simp [hk, hn, h1, h2, h5, h6, hy]
      intro; omega

/-- A sign-extended field moved left is a sign-extended concatenation. -/
theorem signExtend_shift {m : ℕ} (x : BitVec m) (k : ℕ) (hm : 0 < m) :
    x.signExtend w <<< k = (x ++ 0#k).signExtend w := by
  have h := signExtend_shift_or (w := w) x (0#k) 0 hm
  simpa using h

/-- A write through a mask changes nothing when the data agrees on the mask. -/
theorem merge_eq_self_iff (d x m : BitVec w) :
    (d &&& m) ||| (x &&& ~~~m) = x ↔ d &&& m = x &&& m := by
  constructor
  · intro e
    have h := congrArg (· &&& m) e
    simp only [BitVec.and_or_distrib_right, BitVec.and_assoc] at h
    have hz : ~~~m &&& m = 0#w := by
      ext i hi
      simp
    rwa [hz, BitVec.and_zero, BitVec.or_zero, BitVec.and_self] at h
  · intro e
    rw [e]
    ext i hi
    simp only [BitVec.getElem_or, BitVec.getElem_and, BitVec.getElem_not]
    cases x[i] <;> cases m[i] <;> rfl

end

/-! ## single bits -/

/-- the bit `b` moved to position `i` of a 64-bit word -/
def bitAt (b : Bool) (i : ℕ) : BitVec 64 := (BitVec.ofBool b).setWidth 64 <<< i

@[simp] theorem bitAt_false (i : ℕ) : bitAt false i = 0#64 := by
  simp [bitAt]

theorem getLsbD_bitAt (b : Bool) (i j : ℕ) (hj : j < 64) :
    (bitAt b i).getLsbD j = (decide (j = i) && b) := by
  rw [bitAt, getLsbD_field i _ hj, BitVec.getLsbD_ofBool]
  by_cases h : j = i
  · subst h
    simp
  · have h' : ¬ (i ≤ j ∧ j - i = 0) := by omega
    by_cases h1 : i ≤ j
    · have h2 : j - i ≠ 0 := fun h2 => h' ⟨h1, h2⟩
      simp [h, h1, h2]
    · simp [h, h1]
