import Mathlib

/-!
# Width-inferring hardware arithmetic

Operators of a hardware description language whose result widths follow from the operand widths:
a product is as wide as both factors together, a signed quotient is one bit wider than the
dividend, a remainder as narrow as the narrower operand.  Signed operands are the same bits read
in two's complement.

* `fill`, `cat_fill_msb`           replicated bits; the usual spelling of sign extension;
* `mulU`, `mulS`, `mulSU`, `divS`, `subS`, `remS`, `divU`, `remU`   the operators;
* `mulS_eq`, `setWidth_divS`, `setWidth_subS_mulS`, …   cut back to the operand width, they are
                           multiplication, division and remainder of that width;
* `muxCase`                        a priority multiplexer (`muxCase_find`, `muxCase_eq_default`,
                                   `muxCase_cases`).
-/

section
variable {m n w : ℕ}

/-- `n` copies of the bit `b`. -/
def fill (n : ℕ) (b : Bool) : BitVec n := if b then BitVec.allOnes n else 0#n

theorem getLsbD_fill (n : ℕ) (b : Bool) (i : ℕ) : (fill n b).getLsbD i = (decide (i < n) && b) := by
  cases b <;> simp [fill]

/-- Sign extension as it is written with a fill and a concatenation. -/
theorem cat_fill_msb (k : ℕ) (x : BitVec w) : fill k x.msb ++ x = x.signExtend (k + w) := by
  ext i hi
  rw [← BitVec.getLsbD_eq_getElem, ← BitVec.getLsbD_eq_getElem, BitVec.getLsbD_append,
    getLsbD_fill, BitVec.getLsbD_signExtend]
  by_cases h : i < w
  · simp [h, hi]
  · have hk : i - w < k := by omega
    simp [h, hi, hk]

/-- The low bits of an integer do not depend on the width it was cut to first. -/
theorem setWidth_ofInt {v : ℕ} (h : v ≤ w) (z : ℤ) :
    (BitVec.ofInt w z).setWidth v = BitVec.ofInt v z := by
  rw [← BitVec.signExtend_eq_setWidth_of_le _ h]
  apply BitVec.eq_of_toInt_eq
  rw [BitVec.toInt_signExtend_eq_toInt_bmod_of_le _ h, BitVec.toInt_ofInt, BitVec.toInt_ofInt,
    Int.bmod_bmod_of_dvd (pow_dvd_pow 2 h)]

theorem emod_mul_ediv {a b : ℤ} (ha : 0 < a) (z : ℤ) : z % (a * b) / a = z / a % b := by
  have hq : z / (a * b) = z / a / b := (Int.ediv_ediv_of_nonneg (le_of_lt ha)).symm
  have hd : z % (a * b) = z + a * (-(b * (z / a / b))) := by
    rw [Int.emod_def, hq]
    ring
  rw [hd, Int.add_mul_ediv_left _ _ (ne_of_gt ha), Int.emod_def (z / a) b]
  ring

/-- The high bits of an integer are those of its quotient. -/
theorem extract_ofInt_high (m n : ℕ) (z : ℤ) :
    (BitVec.ofInt (m + n) z).extractLsb' m n = BitVec.ofInt n (z / 2 ^ m) := by
  have hm : (0 : ℤ) < 2 ^ m := by positivity
  have hz : (0 : ℤ) ≤ z % 2 ^ (m + n) := Int.emod_nonneg _ (by positivity)
  apply BitVec.eq_of_toNat_eq
  rw [BitVec.extractLsb'_toNat, BitVec.toNat_ofInt, BitVec.toNat_ofInt, Nat.shiftRight_eq_div_pow]
  apply Int.natCast_inj.mp
  push_cast
  rw [Int.toNat_of_nonneg hz, Int.toNat_of_nonneg (Int.emod_nonneg _ (by positivity)), pow_add,
    emod_mul_ediv hm, Int.emod_emod]

/-! ## operators -/

def mulU (a : BitVec m) (b : BitVec n) : BitVec (m + n) := BitVec.ofNat _ (a.toNat * b.toNat)

def mulS (a : BitVec m) (b : BitVec n) : BitVec (m + n) := BitVec.ofInt _ (a.toInt * b.toInt)

/-- signed times unsigned -/
def mulSU (a : BitVec m) (b : BitVec n) : BitVec (m + n) := BitVec.ofInt _ (a.toInt * b.toNat)

/-- The quotient is rounded towards zero. -/
def divS (a : BitVec m) (b : BitVec n) : BitVec (m + 1) :=
  BitVec.ofInt _ (a.toInt.tdiv b.toInt)

def subS (a : BitVec m) (b : BitVec n) : BitVec (max m n) := BitVec.ofInt _ (a.toInt - b.toInt)

/-- The remainder has the sign of the dividend. -/
def remS (a : BitVec m) (b : BitVec n) : BitVec (min m n) :=
  BitVec.ofInt _ (a.toInt.tmod b.toInt)

def divU (a : BitVec m) (b : BitVec n) : BitVec m := BitVec.ofNat _ (a.toNat / b.toNat)

def remU (a : BitVec m) (b : BitVec n) : BitVec (min m n) := BitVec.ofNat _ (a.toNat % b.toNat)

theorem mulU_eq (a : BitVec m) (b : BitVec n) :
    mulU a b = a.setWidth (m + n) * b.setWidth (m + n) := by
  apply BitVec.eq_of_toNat_eq
  simp [mulU, BitVec.toNat_mul]

theorem mulS_eq (a : BitVec m) (b : BitVec n) :
    mulS a b = a.signExtend (m + n) * b.signExtend (m + n) :=
  BitVec.ofInt_mul _ _

theorem mulSU_eq (a : BitVec m) (b : BitVec n) :
    mulSU a b = a.signExtend (m + n) * b.setWidth (m + n) := by
  have hb : b.setWidth (m + n) = BitVec.ofInt (m + n) b.toNat := by
    rw [BitVec.ofInt_natCast, BitVec.ofNat_toNat]
  rw [hb]
  exact BitVec.ofInt_mul _ _

theorem sdiv_eq_ofInt (a b : BitVec w) : a.sdiv b = BitVec.ofInt w (a.toInt.tdiv b.toInt) := by
  apply BitVec.eq_of_toInt_eq
  rw [BitVec.toInt_sdiv, BitVec.toInt_ofInt]

theorem srem_eq_ofInt (a b : BitVec w) : a.srem b = BitVec.ofInt w (a.toInt.tmod b.toInt) := by
  rw [← BitVec.toInt_srem, BitVec.ofInt_toInt]

theorem setWidth_divS (a b : BitVec w) : (divS a b).setWidth w = a.sdiv b := by
  rw [divS, setWidth_ofInt (by omega), sdiv_eq_ofInt]

theorem divU_eq (a b : BitVec w) : divU a b = a / b := by
  apply BitVec.eq_of_toNat_eq
  rw [divU, BitVec.toNat_ofNat, BitVec.toNat_udiv]
  exact Nat.mod_eq_of_lt (lt_of_le_of_lt (Nat.div_le_self _ _) a.isLt)

theorem setWidth_remS (a b : BitVec w) : (remS a b).setWidth w = a.srem b := by
  rw [remS, setWidth_ofInt (by omega), srem_eq_ofInt]

theorem setWidth_remU (a b : BitVec w) : (remU a b).setWidth w = a % b := by
  apply BitVec.eq_of_toNat_eq
  rw [remU, BitVec.setWidth_ofNat_of_le (by omega), BitVec.toNat_ofNat, BitVec.toNat_umod]
  exact Nat.mod_eq_of_lt (lt_of_le_of_lt (Nat.mod_le _ _) a.isLt)

theorem ofInt_toInt_ofInt {v : ℕ} (h : v ≤ w) (z : ℤ) :
    BitVec.ofInt v (BitVec.ofInt w z).toInt = BitVec.ofInt v z := by
  have hs : BitVec.ofInt v (BitVec.ofInt w z).toInt = (BitVec.ofInt w z).signExtend v := rfl
  rw [hs, BitVec.signExtend_eq_setWidth_of_le _ h, setWidth_ofInt h]

theorem ofInt_sub (x y : ℤ) : BitVec.ofInt w (x - y) = BitVec.ofInt w x - BitVec.ofInt w y := by
  rw [eq_sub_iff_add_eq, ← BitVec.ofInt_add, sub_add_cancel]

/-- The remainder as dividend minus divisor times quotient. -/
theorem setWidth_subS_mulS (a b : BitVec w) :
    (subS a (mulS b (divS a b))).setWidth w = a.srem b := by
  have hq : BitVec.ofInt w (divS a b).toInt = BitVec.ofInt w (a.toInt.tdiv b.toInt) :=
    ofInt_toInt_ofInt (by omega) _
  have hp : BitVec.ofInt w (mulS b (divS a b)).toInt =
      BitVec.ofInt w b.toInt * BitVec.ofInt w (a.toInt.tdiv b.toInt) := by
    rw [mulS, ofInt_toInt_ofInt (by omega), BitVec.ofInt_mul, hq]
  rw [subS, setWidth_ofInt (by omega), srem_eq_ofInt, ofInt_sub, hp, ← BitVec.ofInt_mul,
    ← ofInt_sub]
  rw [← Int.tmod_def]

end

/-! ## multiplexers -/

section
variable {α : Type*}

/-- The value of the first case whose condition holds. -/
def muxCase (default : α) (cases : List (Bool × α)) : α :=
  cases.foldr (fun c rest => if c.1 then c.2 else rest) default

@[simp] theorem muxCase_nil (d : α) : muxCase d [] = d := rfl

@[simp] theorem muxCase_cons (d : α) (c : Bool × α) (cs : List (Bool × α)) :
    muxCase d (c :: cs) = if c.1 then c.2 else muxCase d cs := rfl

/-- A multiplexer over a list of values gives the first with the property. -/
theorem muxCase_find (d : α) (p : α → Bool) (l : List α) :
    muxCase d (l.map fun v => (p v, v)) = (l.find? p).getD d := by
  induction l with
  | nil => rfl
  | cons v l ih =>
    rw [List.map_cons, muxCase_cons, List.find?_cons, ih]
    cases p v <;> rfl

/-- The first with a property, if it also has a second one, is the first with both. -/
theorem find?_and {p q : α → Bool} {l : List α} {a : α} (h : l.find? p = some a) (hq : q a = true) :
    (l.find? fun x => q x && p x) = some a := by
  obtain ⟨hp, l₁, l₂, rfl, hno⟩ := List.find?_eq_some_iff_append.mp h
  refine List.find?_eq_some_iff_append.mpr ⟨by rw [hq, hp]; rfl, l₁, l₂, rfl, fun b hb => ?_⟩
  have := hno b hb
  simp only [Bool.not_eq_true'] at this ⊢
  rw [this, Bool.and_false]

/-- A multiplexer gives the value of a case that holds, or the default when none does. -/
theorem muxCase_cases (d : α) (cs : List (Bool × α)) :
    (∃ c ∈ cs, c.1 = true ∧ muxCase d cs = c.2) ∨
      ((∀ c ∈ cs, c.1 = false) ∧ muxCase d cs = d) := by
  induction cs with
  | nil => exact .inr ⟨fun _ h => absurd h (by simp), rfl⟩
  | cons c cs ih =>
    rw [muxCase_cons]
    by_cases hc : c.1 = true
    · exact .inl ⟨c, List.mem_cons_self, hc, if_pos hc⟩
    · rw [if_neg hc]
      rcases ih with ⟨c', hm, hh, hl⟩ | ⟨hn, hl⟩
      · exact .inl ⟨c', List.mem_cons_of_mem _ hm, hh, hl⟩
      · refine .inr ⟨fun c' hm => ?_, hl⟩
        rcases List.mem_cons.mp hm with rfl | hm
        · simpa using hc
        · exact hn c' hm

theorem muxCase_eq_default {d : α} {cs : List (Bool × α)} (h : ∀ c ∈ cs, c.1 = false) :
    muxCase d cs = d := by
  rcases muxCase_cases d cs with ⟨c, hm, hc, _⟩ | ⟨_, hl⟩
  · rw [h c hm] at hc
    exact absurd hc Bool.false_ne_true
  · exact hl

end
