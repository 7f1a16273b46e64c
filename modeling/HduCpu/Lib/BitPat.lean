import Mathlib

/-!
# Bit patterns with don't-care bits

A `BitPat w` matches the words whose cared-for bits have given values.  Patterns are written as
they are read, most significant segment first: `any 12 ++ (any 5 ++ (lit f ++ ...))`.

* `BitPat.hit`             does a word match;
* `hit_append`, `hit_lit`, `hit_any`   a pattern matches when each segment does;
* `BitPat.apart`           a decidable test that no word matches two patterns (`apart_sound`,
                           `countP_hit_le_one`);
* `listLookup`             the value of the first pattern that matches, as a priority chain of
                           multiplexers (`listLookup_cases`, `listLookup_eq_default`,
                           `listLookup_filter`, `listLookup_of_mem`).
-/

/-- The words `x` with `x &&& mask = value`. -/
structure BitPat (w : ℕ) where
  mask : BitVec w
  value : BitVec w
deriving DecidableEq

namespace BitPat
section
variable {w m n : ℕ}

/-- `n` don't-care bits. -/
def any (n : ℕ) : BitPat n := ⟨0#n, 0#n⟩

/-- A literal without don't-care bits. -/
def lit (v : BitVec n) : BitPat n := ⟨BitVec.allOnes n, v⟩

instance : HAppend (BitPat m) (BitPat n) (BitPat (m + n)) :=
  ⟨fun p q => ⟨p.mask ++ q.mask, p.value ++ q.value⟩⟩

def hit (p : BitPat w) (x : BitVec w) : Bool := x &&& p.mask == p.value

@[simp] theorem hit_any (x : BitVec n) : (any n).hit x = true := by
  simp [hit, any]

@[simp] theorem hit_lit (v x : BitVec n) : (lit v).hit x = (x == v) := by
  simp [hit, lit]

theorem split_append (x : BitVec (m + n)) : x = x.extractLsb' n m ++ x.extractLsb' 0 n := by
  rw [BitVec.extractLsb'_append_extractLsb'_eq_extractLsb' (by omega)]
  simp

theorem append_inj {a c : BitVec m} {b d : BitVec n} : a ++ b = c ++ d ↔ a = c ∧ b = d := by
  constructor
  · intro h
    have hl := congrArg (BitVec.extractLsb' n m) h
    have hr := congrArg (BitVec.extractLsb' 0 n) h
    rw [BitVec.extractLsb'_append_eq_left, BitVec.extractLsb'_append_eq_left] at hl
    rw [BitVec.extractLsb'_append_eq_right, BitVec.extractLsb'_append_eq_right] at hr
    exact ⟨hl, hr⟩
  · rintro ⟨rfl, rfl⟩
    rfl

theorem extract_extract (x : BitVec w) {s l s' l' : ℕ} (h : s + l ≤ l') :
    (x.extractLsb' s' l').extractLsb' s l = x.extractLsb' (s' + s) l := by
  ext i hi
  have : s + i < l' := by omega
  simp [this, Nat.add_assoc]

theorem hit_append (p : BitPat m) (q : BitPat n) (x : BitVec (m + n)) :
    (p ++ q).hit x = (p.hit (x.extractLsb' n m) && q.hit (x.extractLsb' 0 n)) := by
  have hx : x &&& (p.mask ++ q.mask)
      = (x.extractLsb' n m &&& p.mask) ++ (x.extractLsb' 0 n &&& q.mask) := by
    conv_lhs => rw [split_append x]
    exact BitVec.and_append
  show (x &&& (p.mask ++ q.mask) == p.value ++ q.value) = _
  rw [hx, Bool.eq_iff_iff, beq_iff_eq, append_inj, Bool.and_eq_true]
  simp [hit]

/-- The two patterns ask for different values of a bit that both care about. -/
def apart (p q : BitPat w) : Bool := p.mask &&& q.mask &&& (p.value ^^^ q.value) != 0#w

theorem apart_comm (p q : BitPat w) : p.apart q = q.apart p := by
  rw [apart, apart, BitVec.and_comm p.mask, BitVec.xor_comm]

/-- A bit that the pattern cares about has the pattern's value. -/
theorem hit_bit {p : BitPat w} {x : BitVec w} {i : ℕ} (h : p.hit x = true)
    (hm : p.mask.getLsbD i = true) : x.getLsbD i = p.value.getLsbD i := by
  have e : x &&& p.mask = p.value := eq_of_beq h
  rw [← e, BitVec.getLsbD_and, hm, Bool.and_true]

/-- No word matches two patterns that are `apart`. -/
theorem apart_sound {p q : BitPat w} (h : p.apart q = true) {x : BitVec w} (hp : p.hit x = true) :
    q.hit x = false := by
  by_contra hq
  have hq' : q.hit x = true := by simpa using hq
  have e₁ : x &&& p.mask = p.value := by simpa [hit] using hp
  have e₂ : x &&& q.mask = q.value := by simpa [hit] using hq'
  have hz : p.mask &&& q.mask &&& (p.value ^^^ q.value) = 0#w := by
    rw [← e₁, ← e₂]
    ext i hi
    simp only [BitVec.getElem_and, BitVec.getElem_xor, BitVec.getElem_zero]
    cases x[i] <;> cases p.mask[i] <;> cases q.mask[i] <;> rfl
  simp [apart, hz] at h

end
end BitPat

/-! ## lookup -/

section
variable {w : ℕ} {α : Type*}

/-- Priority lookup: the value of the first pattern of the table that matches. -/
def listLookup (x : BitVec w) (default : α) (table : List (BitPat w × α)) : α :=
  table.foldr (fun e rest => if e.1.hit x then e.2 else rest) default

@[simp] theorem listLookup_nil (x : BitVec w) (d : α) : listLookup x d [] = d := rfl

@[simp] theorem listLookup_cons (x : BitVec w) (d : α) (e : BitPat w × α)
    (t : List (BitPat w × α)) :
    listLookup x d (e :: t) = if e.1.hit x then e.2 else listLookup x d t := rfl

/-- The lookup gives the value of an entry that matches, or the default when none does. -/
theorem listLookup_cases (x : BitVec w) (d : α) (t : List (BitPat w × α)) :
    (∃ e ∈ t, e.1.hit x = true ∧ listLookup x d t = e.2) ∨
      ((∀ e ∈ t, e.1.hit x = false) ∧ listLookup x d t = d) := by
  induction t with
  | nil => exact .inr ⟨fun _ h => absurd h (by simp), rfl⟩
  | cons e t ih =>
    rw [listLookup_cons]
    by_cases he : e.1.hit x = true
    · exact .inl ⟨e, List.mem_cons_self, he, if_pos he⟩
    · rw [if_neg he]
      rcases ih with ⟨e', hm, hh, hl⟩ | ⟨hn, hl⟩
      · exact .inl ⟨e', List.mem_cons_of_mem _ hm, hh, hl⟩
      · refine .inr ⟨fun e' hm => ?_, hl⟩
        rcases List.mem_cons.mp hm with rfl | hm
        · simpa using he
        · exact hn e' hm

/-- Entries apart from a pattern that matches are never found. -/
theorem listLookup_filter {x : BitVec w} {p : BitPat w} (h : p.hit x = true) (d : α)
    (t : List (BitPat w × α)) :
    listLookup x d t = listLookup x d (t.filter fun e => !p.apart e.1) := by
  induction t with
  | nil => rfl
  | cons e t ih =>
    rw [listLookup_cons, List.filter_cons]
    cases ha : p.apart e.1 with
    | true =>
      rw [BitPat.apart_sound ha h, if_neg Bool.false_ne_true, ih]
      rfl
    | false =>
      rw [ih]
      rfl

/-- Of pairwise `apart` patterns a word matches one at most. -/
theorem countP_hit_le_one (x : BitVec w) {t : List (BitPat w × α)}
    (ht : t.Pairwise fun e e' => e.1.apart e'.1 = true) : t.countP (fun e => e.1.hit x) ≤ 1 := by
  induction t with
  | nil => exact Nat.zero_le _
  | cons e t ih =>
    obtain ⟨h₀, ht'⟩ := List.pairwise_cons.mp ht
    by_cases he : e.1.hit x = true
    · have hz : t.countP (fun e => e.1.hit x) = 0 := by
        rw [List.countP_eq_zero]
        intro e' hm hh
        rw [BitPat.apart_sound (h₀ e' hm) he] at hh
        exact Bool.false_ne_true hh
      rw [List.countP_cons, hz, if_pos he]
    · rw [List.countP_cons, if_neg he]
      exact ih ht'

/-- With pairwise `apart` patterns the order of the table does not matter. -/
theorem listLookup_of_mem {x : BitVec w} {d : α} {t : List (BitPat w × α)}
    (ht : t.Pairwise fun e e' => e.1.apart e'.1 = true) {e : BitPat w × α} (hm : e ∈ t)
    (hh : e.1.hit x = true) : listLookup x d t = e.2 := by
  induction t with
  | nil => exact absurd hm (by simp)
  | cons e₀ t ih =>
    obtain ⟨h₀, ht'⟩ := List.pairwise_cons.mp ht
    rw [listLookup_cons]
    rcases List.mem_cons.mp hm with rfl | hm
    · rw [if_pos hh]
    · by_cases hc : e₀.1.hit x = true
      · have := BitPat.apart_sound (h₀ e hm) hc
        rw [this] at hh
        exact absurd hh Bool.false_ne_true
      · rw [if_neg hc, ih ht' hm]

end
