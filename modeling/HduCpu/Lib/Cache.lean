import Mathlib

/-!
# Fully associative caches

A cache of a partial function `f` from keys to values is a family of entries, each of which hits
some keys.  Nothing here names a particular cache.

* `Truthful`               an entry agrees with `f` at all keys that it hits;
* `Sound`                  all entries are truthful, and no key is hit by two of them;
* `Sound.silence`          entries may be invalidated in any way;
* `Sound.update`           a missing key may be filled in, at any position;
* `findOnly`               the look-up that fails when it finds a second entry, which it does not in
                           a sound cache (`Sound.lookup`).
-/

section
variable {α ε : Type*}

/-- one element of the search -/
def findStep (err : ε) (p : α → Bool) (res : Option α) (a : α) : Except ε (Option α) :=
  if p a then if res.isNone then .ok (some a) else .error err else .ok res

/-- the element of the list with property `p`, a second one being an error -/
def findOnly (err : ε) (p : α → Bool) (l : List α) : Except ε (Option α) :=
  l.foldlM (findStep err p) none

variable {err : ε} {p : α → Bool} {l : List α}

theorem foldlM_noHit (h : ∀ a ∈ l, p a = false) (res : Option α) :
    l.foldlM (findStep err p) res = .ok res := by
  induction l with
  | nil => rfl
  | cons a l ih =>
    have ha : findStep err p res a = .ok res := by
      rw [findStep, h a List.mem_cons_self]
      rfl
    rw [List.foldlM_cons, ha]
    exact ih fun b hb => h b (List.mem_cons_of_mem a hb)

theorem findOnly_none (h : ∀ a ∈ l, p a = false) : findOnly err p l = .ok none := foldlM_noHit h none

theorem findOnly_some {a : α} (hl : l.Nodup) (ha : a ∈ l) (hp : p a = true)
    (h : ∀ b ∈ l, p b = true → b = a) : findOnly err p l = .ok (some a) := by
  obtain ⟨l₁, l₂, rfl⟩ := List.append_of_mem ha
  have hne : ∀ b ∈ l₁ ++ l₂, b ≠ a := by
    rintro b hb rfl
    have := (List.nodup_middle.mp hl).notMem
    exact this hb
  have hno : ∀ b ∈ l₁ ++ l₂, p b = false := by
    intro b hb
    have hmem : b ∈ l₁ ++ a :: l₂ := by
      rcases List.mem_append.mp hb with hb | hb
      · exact List.mem_append_left _ hb
      · exact List.mem_append_right _ (List.mem_cons_of_mem a hb)
    exact Bool.eq_false_iff.mpr fun hpb => hne b hb (h b hmem hpb)
  have hfound : findStep err p none a = .ok (some a) := by
    rw [findStep, hp]
    rfl
  rw [findOnly, List.foldlM_append, foldlM_noHit fun b hb => hno b (List.mem_append_left _ hb)]
  show List.foldlM (findStep err p) none (a :: l₂) = _
  rw [List.foldlM_cons, hfound]
  exact foldlM_noHit (fun b hb => hno b (List.mem_append_right _ hb)) (some a)

/-- The element found has the property. -/
theorem findOnly_hit {a : α} (h : findOnly err p l = .ok (some a)) : p a = true := by
  have key : ∀ (l : List α) (res : Option α), (∀ b, res = some b → p b = true) →
      l.foldlM (findStep err p) res = .ok (some a) → p a = true := by
    intro l
    induction l with
    | nil =>
      intro res hres h
      exact hres a (Except.ok.inj h)
    | cons b l ih =>
      intro res hres h
      rw [List.foldlM_cons, findStep] at h
      by_cases hb : p b = true
      · rw [if_pos hb] at h
        cases hn : res.isNone with
        | true =>
          rw [hn] at h
          refine ih (some b) (fun b' hb' => ?_) h
          obtain rfl := Option.some.inj hb'
          exact hb
        | false =>
          rw [hn] at h
          cases h
      · rw [if_neg hb] at h
        exact ih res hres h
  exact key l none (fun b hb => by cases hb) h

end

section
variable {K E V : Type*} {n : ℕ} (hit : K → E → Bool) (R : E → V → Prop)

/-- The entry agrees with `f` at all keys that it hits; `R` tells when it stands for a value. -/
def Truthful (f : K → Option V) (e : E) : Prop :=
  ∀ k, hit k e = true → ∃ v, f k = some v ∧ R e v

/-- All entries are truthful, and no key is hit twice. -/
structure Sound (f : K → Option V) (t : Fin n → E) : Prop where
  truthful : ∀ i, Truthful hit R f (t i)
  unique : ∀ k i j, hit k (t i) = true → hit k (t j) = true → i = j

variable {hit R} {f : K → Option V} {t t' : Fin n → E}

/-- a cache without valid entries -/
theorem Sound.of_silent (h : ∀ i k, hit k (t i) = false) : Sound hit R f t where
  truthful i k hk := absurd ((h i k).symm.trans hk) Bool.false_ne_true
  unique k i _ hi := absurd ((h i k).symm.trans hi) Bool.false_ne_true

/-- **Invalidation.**  Entries may be made to hit nothing. -/
theorem Sound.silence (h : Sound hit R f t) (ht : ∀ i, t' i = t i ∨ ∀ k, hit k (t' i) = false) :
    Sound hit R f t' := by
  have hold : ∀ i k, hit k (t' i) = true → t' i = t i := by
    intro i k hk
    rcases ht i with he | hno
    · exact he
    · exact absurd ((hno k).symm.trans hk) Bool.false_ne_true
  refine ⟨fun i k hk => ?_, fun k i j hi hj => ?_⟩
  · have he := hold i k hk
    rw [he] at hk ⊢
    exact h.truthful i k hk
  · refine h.unique k i j ?_ ?_
    · rw [← hold i k hi]
      exact hi
    · rw [← hold j k hj]
      exact hj

/-- **Refill.**  After a miss at `k` a truthful entry may take any position, provided a truthful
entry with which it shares a key would have hit `k`. -/
theorem Sound.update (h : Sound hit R f t) {k : K} (hmiss : ∀ i, hit k (t i) = false) {e : E}
    (he : Truthful hit R f e)
    (hsep : ∀ d, Truthful hit R f d → ∀ k', hit k' e = true → hit k' d = true → hit k d = true)
    (r : Fin n) : Sound hit R f (Function.update t r e) := by
  have hclash : ∀ k' i, hit k' e = true → hit k' (t i) = true → False := fun k' i h₁ h₂ =>
    absurd ((hmiss i).symm.trans (hsep (t i) (h.truthful i) k' h₁ h₂)) Bool.false_ne_true
  constructor
  · intro i
    by_cases hi : i = r
    · rw [hi, Function.update_self]
      exact he
    · rw [Function.update_of_ne hi]
      exact h.truthful i
  · intro k' i j h₁ h₂
    by_cases hi : i = r
    · by_cases hj : j = r
      · rw [hi, hj]
      · rw [hi, Function.update_self] at h₁
        rw [Function.update_of_ne hj] at h₂
        exact (hclash k' j h₁ h₂).elim
    · rw [Function.update_of_ne hi] at h₁
      by_cases hj : j = r
      · rw [hj, Function.update_self] at h₂
        exact (hclash k' i h₂ h₁).elim
      · rw [Function.update_of_ne hj] at h₂
        exact h.unique k' i j h₁ h₂

/-- **Look-up** in a sound cache does not fail: it finds the one entry that hits, if there is. -/
theorem Sound.lookup {ε : Type*} (h : Sound hit R f t) (err : ε) (k : K) :
    ((∀ i, hit k (t i) = false) ∧
      findOnly err (fun i => hit k (t i)) (List.finRange n) = .ok none) ∨
    ∃ i, hit k (t i) = true ∧
      findOnly err (fun i => hit k (t i)) (List.finRange n) = .ok (some i) := by
  by_cases hex : ∃ i, hit k (t i) = true
  · obtain ⟨i, hi⟩ := hex
    exact .inr ⟨i, hi, findOnly_some (List.nodup_finRange n) (List.mem_finRange i) hi
      fun j _ hj => h.unique k j i hj hi⟩
  · have hno : ∀ i, hit k (t i) = false := fun i => Bool.eq_false_iff.mpr fun hi => hex ⟨i, hi⟩
    exact .inl ⟨hno, findOnly_none fun i _ => hno i⟩

end
