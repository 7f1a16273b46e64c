import Mathlib

/-!
# Disjoint ranges in ascending order

A list of things `e` that each take up the half-open range from `lo e` to `hi e`.

* `Ascending`              each range ends before the next one starts, and none is empty;
* `Overlap`                two ranges have a common point;
* `Ascending.insertIdx`    a range that overlaps neither neighbour can be put between them, and
                           then overlaps no other one (`Ascending.overlap_neighbour`);
* `Ascending.takeWhile_of_mem`, `Ascending.le_of_takeWhile`   the range around a point is the last
                           one that starts before it.
-/

section
variable {ι α : Type*} [LinearOrder α] {lo hi : ι → α} {l : List ι}

/-! ## ranges -/

/-- the ranges of two things have a common point -/
def Overlap (lo hi : ι → α) (a b : ι) : Prop := lo a < hi b ∧ lo b < hi a

theorem Overlap.symm {a b : ι} (h : Overlap lo hi a b) : Overlap lo hi b a := ⟨h.2, h.1⟩

theorem overlap_iff {a b : ι} (ha : lo a < hi a) (hb : lo b < hi b) :
    Overlap lo hi a b ↔ max (lo a) (lo b) < min (hi a) (hi b) := by
  rw [max_lt_iff, lt_min_iff, lt_min_iff]
  exact ⟨fun h => ⟨⟨ha, h.1⟩, h.2, hb⟩, fun h => ⟨h.1.2, h.2.1⟩⟩

/-- No range is empty, and each ends before the next one starts. -/
structure Ascending (lo hi : ι → α) (l : List ι) : Prop where
  sorted : l.Pairwise fun a b => hi a ≤ lo b
  lt : ∀ a ∈ l, lo a < hi a

theorem ascending_nil : Ascending lo hi [] := ⟨.nil, fun _ h => absurd h List.not_mem_nil⟩

theorem Ascending.disjoint (h : Ascending lo hi l) : l.Pairwise fun a b => ¬ Overlap lo hi a b :=
  h.sorted.imp fun hle ho => absurd ho.2 (not_lt.mpr hle)

/-! ## insertion -/

theorem insertIdx_append (A B : List ι) (x : ι) : (A ++ B).insertIdx A.length x = A ++ x :: B := by
  induction A with
  | nil => rfl
  | cons a A ih =>
    rw [List.cons_append, List.length_cons, List.insertIdx_succ_cons, ih, List.cons_append]

theorem insertIdx_takeWhile (l : List ι) (p : ι → Bool) (x : ι) :
    l.insertIdx (l.takeWhile p).length x = l.takeWhile p ++ x :: l.dropWhile p := by
  have h := insertIdx_append (l.takeWhile p) (l.dropWhile p) x
  rwa [List.takeWhile_append_dropWhile] at h

theorem getElem?_length_takeWhile (l : List ι) (p : ι → Bool) :
    l[(l.takeWhile p).length]? = (l.dropWhile p).head? := by
  induction l with
  | nil => rfl
  | cons a l ih =>
    by_cases hp : p a = true
    · simp [hp, ih]
    · simp [hp]

theorem getElem?_pred_takeWhile {l : List ι} {p : ι → Bool} (h : (l.takeWhile p).length ≠ 0) :
    l[(l.takeWhile p).length - 1]? = (l.takeWhile p).getLast? := by
  have hlt : (l.takeWhile p).length - 1 < (l.takeWhile p).length := by omega
  have hpre := List.takeWhile_prefix (l := l) p
  rw [List.getLast?_eq_getElem?, List.getElem?_eq_getElem hlt, hpre.getElem hlt,
    List.getElem?_eq_getElem]

section
variable (h : Ascending lo hi l) {x : ι} (hx : lo x < hi x) {p : ι → Bool}
  (hp : ∀ a, p a = true → lo a ≤ lo x) (hq : ∀ a, p a = false → lo x ≤ lo a)
  (hprev : ∀ a, (l.takeWhile p).getLast? = some a → ¬ Overlap lo hi a x)
  (hnext : ∀ a, (l.dropWhile p).head? = some a → ¬ Overlap lo hi a x)
include h hx hp hq hprev hnext

omit hq hnext in
/-- If the last range that starts before `x` does not overlap it, all of them end before `x`. -/
theorem Ascending.before : ∀ a ∈ l.takeWhile p, hi a ≤ lo x := by
  have hs : (l.takeWhile p).Pairwise fun a b => hi a ≤ lo b :=
    h.sorted.sublist (List.takeWhile_sublist p)
  rcases List.eq_nil_or_concat (l.takeWhile p) with e | ⟨A, z, e⟩
  · rw [e]
    exact fun a ha => absurd ha List.not_mem_nil
  · have hz : z ∈ l.takeWhile p := by simp [e]
    have hzx : hi z ≤ lo x := by
      have hlo : lo z ≤ lo x := hp z (List.mem_takeWhile_imp hz)
      have hno := hprev z (by simp [e])
      by_contra hlt
      exact hno ⟨lt_of_le_of_lt hlo hx, not_le.mp hlt⟩
    intro a ha
    have ha' := ha
    rw [e, List.concat_eq_append, List.mem_append, List.mem_singleton] at ha'
    rcases ha' with hm | rfl
    · rw [e, List.concat_eq_append, List.pairwise_append] at hs
      have haz := hs.2.2 a hm z (List.mem_singleton_self z)
      exact haz.trans ((h.lt z (List.takeWhile_sublist p |>.mem hz)).le.trans hzx)
    · exact hzx

omit hx hp hprev in
/-- If the first range that starts after `x` does not overlap it, all of them start after its end. -/
theorem Ascending.after : ∀ a ∈ l.dropWhile p, hi x ≤ lo a := by
  have hs : (l.dropWhile p).Pairwise fun a b => hi a ≤ lo b :=
    h.sorted.sublist (List.dropWhile_sublist p)
  cases e : l.dropWhile p with
  | nil => exact fun a ha => absurd ha List.not_mem_nil
  | cons y B =>
    have hy : y ∈ l := List.dropWhile_sublist p |>.mem (by rw [e]; exact List.mem_cons_self)
    have hyx : hi x ≤ lo y := by
      have hpy : p y = false := by
        have hne : l.dropWhile p ≠ [] := by rw [e]; exact List.cons_ne_nil y B
        have hd := List.head_dropWhile_not p hne
        simpa [e] using hd
      have hno := hnext y (by rw [e]; rfl)
      by_contra hlt
      exact hno ⟨not_le.mp hlt, lt_of_le_of_lt (hq y hpy) (h.lt y hy)⟩
    rw [e] at hs
    intro a ha
    rcases List.mem_cons.mp ha with rfl | hm
    · exact hyx
    · exact hyx.trans ((h.lt y hy).le.trans (List.rel_of_pairwise_cons hs hm))

/-- **A range that overlaps neither neighbour can be put between them.** -/
theorem Ascending.insertIdx : Ascending lo hi (l.insertIdx (l.takeWhile p).length x) := by
  have hbefore := h.before hx hp hprev
  have hafter := h.after hq hnext
  have hmem : ∀ a, a ∈ l.takeWhile p ∨ a ∈ l.dropWhile p → a ∈ l := by
    rintro a (ha | ha)
    · exact (List.takeWhile_sublist p).mem ha
    · exact (List.dropWhile_sublist p).mem ha
  rw [insertIdx_takeWhile]
  constructor
  · rw [List.pairwise_append, List.pairwise_cons]
    refine ⟨h.sorted.sublist (List.takeWhile_sublist p), ⟨hafter,
      h.sorted.sublist (List.dropWhile_sublist p)⟩, fun a ha b hb => ?_⟩
    rcases List.mem_cons.mp hb with rfl | hb
    · exact hbefore a ha
    · exact (hbefore a ha).trans (hx.le.trans (hafter b hb))
  · intro a ha
    rw [List.mem_append, List.mem_cons] at ha
    rcases ha with ha | rfl | ha
    · exact h.lt a (hmem a (.inl ha))
    · exact hx
    · exact h.lt a (hmem a (.inr ha))

/-- A range that overlaps neither neighbour overlaps nothing. -/
theorem Ascending.overlap_neighbour : ∀ a ∈ l, ¬ Overlap lo hi a x := by
  intro a ha ho
  rw [← @List.takeWhile_append_dropWhile _ p l, List.mem_append] at ha
  rcases ha with ha | ha
  · exact absurd ho.2 (not_lt.mpr (h.before hx hp hprev a ha))
  · exact absurd ho.1 (not_lt.mpr (h.after hq hnext a ha))

end

/-! ## look-up -/

/-- How far a predicate holds that holds of everything before what it holds of. -/
theorem lt_length_takeWhile {p : ι → Bool} (h : l.Pairwise fun a b => p b = true → p a = true)
    {i : ℕ} {a : ι} (ha : l[i]? = some a) : i < (l.takeWhile p).length ↔ p a = true := by
  induction l generalizing i with
  | nil => simp at ha
  | cons b l ih =>
    obtain ⟨hb, hl⟩ := List.pairwise_cons.mp h
    rw [List.takeWhile_cons]
    cases i with
    | zero =>
      obtain rfl : b = a := by simpa using ha
      by_cases hp : p b = true
      · simp [hp]
      · simp [hp]
    | succ i =>
      have ha' : l[i]? = some a := by simpa using ha
      by_cases hp : p b = true
      · rw [if_pos hp, List.length_cons, Nat.succ_lt_succ_iff, ih hl ha']
      · have hna : ¬ p a = true := fun hpa => hp (hb a (List.mem_of_getElem? ha') hpa)
        simp [hp, hna]

theorem Ascending.starts_mono (h : Ascending lo hi l) (y : α) :
    l.Pairwise fun a b => decide (lo b ≤ y) = true → decide (lo a ≤ y) = true := by
  refine List.Pairwise.imp_of_mem ?_ h.sorted
  intro a b ha _ hab hb
  rw [decide_eq_true_eq] at hb ⊢
  exact ((h.lt a ha).le.trans hab).trans hb

/-- The look-up finds a range that starts before the point if no later one does. -/
theorem Ascending.takeWhile_of_next (h : Ascending lo hi l) {i : ℕ} {a : ι} (ha : l[i]? = some a)
    {y : α} (hlo : lo a ≤ y) (hnext : ∀ b ∈ l, hi a ≤ lo b → y < lo b) :
    (l.takeWhile fun e => decide (lo e ≤ y)).length = i + 1 := by
  have h₁ : i < (l.takeWhile fun e => decide (lo e ≤ y)).length :=
    (lt_length_takeWhile (h.starts_mono y) ha).mpr (decide_eq_true hlo)
  refine le_antisymm (not_lt.mp fun h₂ => ?_) h₁
  have hlen : i + 1 < l.length := lt_of_lt_of_le h₂ (List.takeWhile_sublist _).length_le
  have hle := (lt_length_takeWhile (h.starts_mono y) (List.getElem?_eq_getElem hlen)).mp h₂
  rw [decide_eq_true_eq] at hle
  obtain ⟨hi', rfl⟩ := List.getElem?_eq_some_iff.mp ha
  have hsort := List.pairwise_iff_getElem.mp h.sorted i (i + 1) hi' hlen (Nat.lt_succ_self i)
  exact absurd hle (not_le.mpr (hnext _ (List.getElem_mem hlen) hsort))

/-- **The range around a point is the last one that starts before it.** -/
theorem Ascending.takeWhile_of_mem (h : Ascending lo hi l) {i : ℕ} {a : ι} (ha : l[i]? = some a)
    {y : α} (hlo : lo a ≤ y) (hhi : y < hi a) :
    (l.takeWhile fun e => decide (lo e ≤ y)).length = i + 1 :=
  h.takeWhile_of_next ha hlo fun _ _ hle => lt_of_lt_of_le hhi hle

/-- What the look-up finds starts last of all that start before the point. -/
theorem Ascending.le_of_takeWhile (h : Ascending lo hi l) {y : α} {n : ℕ} {a : ι}
    (ha : l[n]? = some a) (hn : (l.takeWhile fun e => decide (lo e ≤ y)).length = n + 1) :
    ∀ b ∈ l, lo b ≤ y → lo b ≤ lo a := by
  intro b hb hby
  obtain ⟨j, hj, rfl⟩ := List.getElem_of_mem hb
  have hlt := (lt_length_takeWhile (h.starts_mono y) (List.getElem?_eq_getElem hj)).mpr
    (decide_eq_true hby)
  obtain ⟨hn', rfl⟩ := List.getElem?_eq_some_iff.mp ha
  rcases Nat.lt_or_eq_of_le (Nat.lt_succ_iff.mp (hn ▸ hlt)) with hjn | rfl
  · exact (h.lt _ hb).le.trans (List.pairwise_iff_getElem.mp h.sorted j n hj hn' hjn)
  · exact le_rfl

/-- What the look-up finds starts before the point. -/
theorem lo_le_of_takeWhile {y : α} {n : ℕ} {a : ι} (ha : l[n]? = some a)
    (hn : (l.takeWhile fun e => decide (lo e ≤ y)).length = n + 1) : lo a ≤ y := by
  have hlt : n < (l.takeWhile fun e => decide (lo e ≤ y)).length := by omega
  have hpre := List.takeWhile_prefix (l := l) fun e => decide (lo e ≤ y)
  obtain ⟨hn', rfl⟩ := List.getElem?_eq_some_iff.mp ha
  have hget := hpre.getElem hlt
  have hm := List.mem_takeWhile_imp (List.getElem_mem hlt)
  rw [decide_eq_true_eq, hget] at hm
  exact hm

end
