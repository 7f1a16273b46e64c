import Mathlib

/-!
# Best elements

The elements with a property are ranked by an injective function into a linear order; the best one
is that of maximal rank (`MaximalFor`).  Nothing here names a particular arbiter.

* `maximalFor_iff`, `maximalFor_unique`   being best, and that there is at most one;
* `maximalFor_agree_iff`   two properties have the same best element exactly when every element on
                           which they differ is outranked by one that has both;
* `firstMax`               a scan that keeps the first strict maximum of a key;
* `keyRank`                the order by key and then by the earlier element;
* `maxStep_bestOf`         one step of the scan;
* `firstMax_iff`           the scan finds the best element in that order.
-/

section
variable {ι α : Type*} [LinearOrder α] {rank : ι → α} {P Q : ι → Prop} {i j : ι}

theorem maximalFor_iff : MaximalFor P rank i ↔ P i ∧ ∀ j, P j → rank j ≤ rank i := by
  refine ⟨fun h => ⟨h.1, fun j hj => ?_⟩, fun h => ⟨h.1, fun j hj _ => h.2 j hj⟩⟩
  rcases le_total (rank j) (rank i) with hji | hij
  · exact hji
  · exact h.2 hj hij

variable (hr : Function.Injective rank)
include hr

theorem maximalFor_unique (hi : MaximalFor P rank i) (hj : MaximalFor P rank j) : i = j := by
  rw [maximalFor_iff] at hi hj
  exact hr (le_antisymm (hj.2 i hi.1) (hi.2 j hj.1))

/-- **Two properties have the same best element** exactly when every element that has one of them
alone is outranked by an element that has both. -/
theorem maximalFor_agree_iff (hP : Set.Finite {i | P i}) (hQ : Set.Finite {i | Q i}) :
    (∀ i, MaximalFor P rank i ↔ MaximalFor Q rank i) ↔
      ∀ i, (P i ↔ Q i) ∨ ∃ j, P j ∧ Q j ∧ rank i < rank j := by
  constructor
  · intro h i
    by_cases hno : P i ↔ Q i
    · exact .inl hno
    -- the best element of the property that `i` has is best for both, and is not `i`
    have hex : ∃ j, MaximalFor P rank j := by
      rcases not_iff.mp hno with hd
      by_cases hi : P i
      · exact hP.exists_maximalFor rank _ ⟨i, hi⟩
      · obtain ⟨j, hj⟩ := hQ.exists_maximalFor rank _ ⟨i, hd.mp hi⟩
        exact ⟨j, (h j).mpr hj⟩
    obtain ⟨j, hj⟩ := hex
    have hjP := maximalFor_iff.mp hj
    have hjQ := maximalFor_iff.mp ((h j).mp hj)
    refine .inr ⟨j, hjP.1, hjQ.1, lt_of_le_of_ne ?_ fun he => ?_⟩
    · by_cases hi : P i
      · exact hjP.2 i hi
      · exact hjQ.2 i ((not_iff.mp hno).mp hi)
    · obtain rfl := hr he
      exact hno (iff_of_true hjP.1 hjQ.1)
  · intro h
    have key : ∀ {R S : ι → Prop}, (∀ i, (R i ↔ S i) ∨ ∃ j, R j ∧ S j ∧ rank i < rank j) →
        ∀ i, MaximalFor R rank i → MaximalFor S rank i := by
      intro R S h i hi
      rw [maximalFor_iff] at hi ⊢
      have hi' : S i := by
        rcases h i with hiff | ⟨j, hj, -, hlt⟩
        · exact hiff.mp hi.1
        · exact absurd (hi.2 j hj) (not_le_of_gt hlt)
      refine ⟨hi', fun j hj => ?_⟩
      rcases h j with hiff | ⟨k, hk, -, hlt⟩
      · exact hi.2 j (hiff.mpr hj)
      · exact hlt.le.trans (hi.2 k hk)
    refine fun i => ⟨key h i, key (fun i => ?_) i⟩
    rcases h i with hiff | ⟨j, hj, hj', hlt⟩
    · exact .inl hiff.symm
    · exact .inr ⟨j, hj', hj, hlt⟩

end

/-! ## the scan -/

section
variable {ι β : Type*} [LinearOrder ι] [LinearOrder β] (p : ι → Bool) (key : ι → β)

/-- one step: the element, when its key is above that of the best so far -/
def maxStep (best : Option ι) (i : ι) : Option ι :=
  if p i && best.all (fun j => decide (key j < key i)) then some i else best

/-- the first element of the list with the highest key among those that `p` admits -/
def firstMax (l : List ι) : Option ι := l.foldl (maxStep p key) none

/-- by key, and then by the earlier element -/
def keyRank (i : ι) : β ×ₗ ιᵒᵈ := toLex (key i, OrderDual.toDual i)

variable {p key} {i j : ι}

theorem keyRank_le_iff : keyRank key j ≤ keyRank key i ↔ key j < key i ∨ key j = key i ∧ i ≤ j := by
  rw [keyRank, keyRank, Prod.Lex.toLex_le_toLex]
  exact Iff.rfl

theorem keyRank_lt_iff : keyRank key j < keyRank key i ↔ key j < key i ∨ key j = key i ∧ i < j := by
  rw [keyRank, keyRank, Prod.Lex.toLex_lt_toLex]
  exact Iff.rfl

omit [LinearOrder ι] [LinearOrder β] in
theorem keyRank_injective : Function.Injective (keyRank key) := by
  intro i j h
  exact OrderDual.toDual.injective (congrArg (fun x => (ofLex x).2) h)

/-- `b` is the best element of the list that `p` admits, `none` when it admits none. -/
def BestOf (p : ι → Bool) (key : ι → β) (l : List ι) (b : Option ι) : Prop :=
  b.elim (∀ j ∈ l, p j = false) (MaximalFor (fun j => j ∈ l ∧ p j = true) (keyRank key))

theorem bestOf_some {l : List ι} : BestOf p key l (some i) ↔
    (i ∈ l ∧ p i = true) ∧ ∀ j ∈ l, p j = true → keyRank key j ≤ keyRank key i := by
  show MaximalFor (fun j => j ∈ l ∧ p j = true) (keyRank key) i ↔ _
  rw [maximalFor_iff]
  exact and_congr_right fun _ => ⟨fun h j hj hp => h j ⟨hj, hp⟩, fun h j hj => h j hj.1 hj.2⟩

/-- One step of the scan keeps up with the list when the new element comes last. -/
theorem maxStep_bestOf {l : List ι} {a : ι} (hlast : ∀ j ∈ l, j < a) {b : Option ι}
    (hb : BestOf p key l b) : BestOf p key (l ++ [a]) (maxStep p key b a) := by
  have hmem : ∀ {j}, j ∈ l ++ [a] → j ∈ l ∨ j = a := fun hj =>
    (List.mem_append.mp hj).imp_right List.mem_singleton.mp
  have hself : a ∈ l ++ [a] := List.mem_append_right _ (List.mem_singleton_self a)
  -- the best element so far stays it when the new one is not admitted or not above it
  have hstays : ∀ {i}, BestOf p key l (some i) →
      (p a = true → keyRank key a ≤ keyRank key i) → BestOf p key (l ++ [a]) (some i) := by
    intro i hi ha
    rw [bestOf_some] at hi ⊢
    refine ⟨⟨List.mem_append_left _ hi.1.1, hi.1.2⟩, fun j hj hpj => ?_⟩
    rcases hmem hj with hj | rfl
    · exact hi.2 j hj hpj
    · exact ha hpj
  have htakes : p a = true → (∀ j ∈ l, p j = true → keyRank key j ≤ keyRank key a) →
      BestOf p key (l ++ [a]) (some a) := by
    intro ha hle
    refine bestOf_some.mpr ⟨⟨hself, ha⟩, fun j hj hpj => ?_⟩
    rcases hmem hj with hj | rfl
    · exact hle j hj hpj
    · exact le_refl _
  cases hp : p a with
  | false =>
    have hkeep : maxStep p key b a = b := by
      rw [maxStep, hp]
      rfl
    rw [hkeep]
    cases b with
    | none =>
      intro j hj
      rcases hmem hj with hj | rfl
      · exact hb j hj
      · exact hp
    | some i => exact hstays hb fun ha => absurd (hp.symm.trans ha) Bool.false_ne_true
  | true =>
    cases b with
    | none =>
      have hnew : maxStep p key none a = some a := by
        rw [maxStep, hp]
        rfl
      rw [hnew]
      exact htakes hp fun j hj hpj => absurd ((hb j hj).symm.trans hpj) Bool.false_ne_true
    | some i =>
      by_cases hlt : key i < key a
      · have hnew : maxStep p key (some i) a = some a := by
          rw [maxStep, hp, Option.all_some, decide_eq_true hlt]
          rfl
        rw [hnew]
        refine htakes hp fun j hj hpj => ?_
        exact ((bestOf_some.mp hb).2 j hj hpj).trans (keyRank_lt_iff.mpr (.inl hlt)).le
      · have hkeep : maxStep p key (some i) a = some i := by
          rw [maxStep, hp, Option.all_some, decide_eq_false hlt]
          rfl
        rw [hkeep]
        refine hstays hb fun _ => keyRank_le_iff.mpr ?_
        exact (lt_or_eq_of_le (not_lt.mp hlt)).imp id fun he => ⟨he, (hlast i hb.1.1).le⟩

theorem firstMax_bestOf (p : ι → Bool) (key : ι → β) {l : List ι} (hl : l.Pairwise (· < ·)) :
    BestOf p key l (firstMax p key l) := by
  induction l using List.reverseRecOn with
  | nil => exact fun j hj => absurd hj List.not_mem_nil
  | append_singleton l a ih =>
    obtain ⟨hl', -, hla⟩ := List.pairwise_append.mp hl
    rw [firstMax, List.foldl_append]
    exact maxStep_bestOf (fun j hj => hla j hj a List.mem_cons_self) (ih hl')

/-- **The scan of an ascending list** finds the best of its elements that `p` admits. -/
theorem firstMax_iff {l : List ι} (hl : l.Pairwise (· < ·)) : firstMax p key l = some i ↔
    MaximalFor (fun j => j ∈ l ∧ p j = true) (keyRank key) i := by
  have hinj : Function.Injective (keyRank key) := keyRank_injective
  have hbest := firstMax_bestOf p key hl
  cases hb : firstMax p key l with
  | none =>
    rw [hb] at hbest
    exact iff_of_false nofun fun h => absurd ((hbest i h.1.1).symm.trans h.1.2) Bool.false_ne_true
  | some j =>
    rw [hb] at hbest
    have hj : MaximalFor (fun j => j ∈ l ∧ p j = true) (keyRank key) j := hbest
    refine ⟨fun h => ?_, fun h => congrArg some (maximalFor_unique hinj hj h)⟩
    obtain rfl := Option.some.inj h
    exact hj

end
