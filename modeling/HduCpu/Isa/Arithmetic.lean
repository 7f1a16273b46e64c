import HduCpu.Lockstep.Integer

/-!
# The arithmetic of the instruction set

What an integer operation is on numbers, for words of any width, and that `alu_exec` and the
functional units compute it, on 64 bits and on the low 32.

* `AluOp.value`            the result as an integer, before it is cut to a word;
* `AluOp.result`, `AluOp.resultW`   the word, and the 32-bit form;
* `result_add`, …          the operations on words with these results;
* `aluExec_result`, `aluExec_resultW`   the reference computes them;
* `computes`               so do both designs;
* `product_halves`, `quotient_remainder`   how two results of the same operands fit together.
-/

namespace HduCpu

namespace AluOp
section
variable {n : ℕ} (op : AluOp) (a b : BitVec n)

/-- The result as an integer.  A shift takes its amount modulo the width; `mulh` and its variants
are rounded down, as `sra` is; a quotient is rounded towards zero, and division by zero gives -1 and
leaves the dividend as the remainder. -/
def value : ℤ :=
  match op with
  | .add => a.toInt + b.toInt
  | .sub => a.toInt - b.toInt
  | .sll => a.toInt * 2 ^ (b.toNat % n)
  | .slt => if a.toInt < b.toInt then 1 else 0
  | .sltu => if a.toNat < b.toNat then 1 else 0
  | .xor => (a ^^^ b).toInt
  | .srl => a.toNat / 2 ^ (b.toNat % n)
  | .sra => a.toInt / 2 ^ (b.toNat % n)
  | .or => (a ||| b).toInt
  | .and => (a &&& b).toInt
  | .mul => a.toInt * b.toInt
  | .mulh => a.toInt * b.toInt / 2 ^ n
  | .mulhu => a.toNat * b.toNat / 2 ^ n
  | .mulhsu => a.toInt * b.toNat / 2 ^ n
  | .div => if b.toInt = 0 then -1 else a.toInt.tdiv b.toInt
  | .divu => if b.toNat = 0 then -1 else a.toNat / b.toNat
  | .rem => if b.toInt = 0 then a.toInt else a.toInt.tmod b.toInt
  | .remu => if b.toNat = 0 then a.toNat else a.toNat % b.toNat
  | .nop => 0

/-- the word that is written -/
def result : BitVec n := BitVec.ofInt n (op.value a b)

end

/-- the 32-bit form: the low words, and the sign extension of the result -/
def resultW (op : AluOp) (a b : BitVec 64) : BitVec 64 :=
  (op.result (a.setWidth 32) (b.setWidth 32)).signExtend 64

/-! ## operations on words -/

section
variable {n : ℕ} (a b : BitVec n)

theorem ofInt_nat (k : ℕ) (z : ℤ) (h : z = k) : BitVec.ofInt n z = BitVec.ofNat n k := by
  rw [h, BitVec.ofInt_natCast]

theorem result_add : add.result a b = a + b := by
  show BitVec.ofInt n (a.toInt + b.toInt) = a + b
  rw [BitVec.ofInt_add, BitVec.ofInt_toInt, BitVec.ofInt_toInt]

theorem result_sub : sub.result a b = a - b := by
  show BitVec.ofInt n (a.toInt - b.toInt) = a - b
  rw [ofInt_sub, BitVec.ofInt_toInt, BitVec.ofInt_toInt]

theorem result_mul : mul.result a b = a * b := by
  show BitVec.ofInt n (a.toInt * b.toInt) = a * b
  rw [BitVec.ofInt_mul, BitVec.ofInt_toInt, BitVec.ofInt_toInt]

theorem result_sll : sll.result a b = a <<< (b.toNat % n) := by
  have hp : BitVec.ofInt n (2 ^ (b.toNat % n)) = BitVec.twoPow n (b.toNat % n) := by
    rw [ofInt_nat (2 ^ (b.toNat % n)) _ (by push_cast; rfl)]
    apply BitVec.eq_of_toNat_eq
    rw [BitVec.toNat_twoPow, BitVec.toNat_ofNat]
  show BitVec.ofInt n (a.toInt * 2 ^ (b.toNat % n)) = a <<< (b.toNat % n)
  rw [BitVec.ofInt_mul, BitVec.ofInt_toInt, hp, BitVec.mul_twoPow_eq_shiftLeft]

theorem ofInt_ite (p : Prop) [Decidable p] (c : Bool) (h : c = true ↔ p) :
    BitVec.ofInt n (if p then 1 else 0) = (BitVec.ofBool c).setWidth n := by
  by_cases hp : p
  · rw [if_pos hp, h.mpr hp, ofInt_nat 1 1 rfl]
    apply BitVec.eq_of_toNat_eq
    simp
  · have hc : c = false := Bool.eq_false_iff.mpr fun hc => hp (h.mp hc)
    rw [if_neg hp, hc, ofInt_nat 0 0 rfl]
    simp

theorem result_slt : slt.result a b = (BitVec.ofBool (a.slt b)).setWidth n :=
  ofInt_ite _ _ BitVec.slt_iff_toInt_lt

theorem result_sltu : sltu.result a b = (BitVec.ofBool (a.ult b)).setWidth n :=
  ofInt_ite _ _ (by rw [BitVec.ult, decide_eq_true_iff])

theorem result_xor : xor.result a b = a ^^^ b := BitVec.ofInt_toInt

theorem result_or : or.result a b = a ||| b := BitVec.ofInt_toInt

theorem result_and : and.result a b = a &&& b := BitVec.ofInt_toInt

theorem result_srl : srl.result a b = a >>> (b.toNat % n) := by
  show BitVec.ofInt n (a.toNat / 2 ^ (b.toNat % n)) = a >>> (b.toNat % n)
  rw [ofInt_nat (a.toNat / 2 ^ (b.toNat % n)) _ (by push_cast; rfl)]
  apply BitVec.eq_of_toNat_eq
  rw [BitVec.toNat_ofNat, BitVec.toNat_ushiftRight, Nat.shiftRight_eq_div_pow]
  exact Nat.mod_eq_of_lt (lt_of_le_of_lt (Nat.div_le_self _ _) a.isLt)

theorem result_sra : sra.result a b = a.sshiftRight (b.toNat % n) := by
  have hs : a.sshiftRight (b.toNat % n) = BitVec.ofInt n (a.toInt >>> (b.toNat % n)) := rfl
  rw [hs, Int.shiftRight_eq_div_pow]
  push_cast
  rfl

theorem result_mulh : mulh.result a b = (mulS a b).extractLsb' n n :=
  (extract_ofInt_high n n _).symm

theorem result_mulhsu : mulhsu.result a b = (mulSU a b).extractLsb' n n :=
  (extract_ofInt_high n n _).symm

theorem result_mulhu : mulhu.result a b = (mulU a b).extractLsb' n n := by
  have h : mulU a b = BitVec.ofInt (n + n) (a.toNat * b.toNat) :=
    (ofInt_nat (a.toNat * b.toNat) _ (by push_cast; rfl)).symm
  rw [h, extract_ofInt_high]
  rfl

theorem ofInt_neg_one : BitVec.ofInt n (-1) = -1 := by
  rw [BitVec.ofInt_neg, ofInt_nat 1 1 rfl]
  rfl

theorem toInt_eq_zero_iff : b.toInt = 0 ↔ b = 0 := by
  rw [← BitVec.toInt_zero (w := n), BitVec.toInt_inj]
  rfl

theorem toNat_eq_zero_iff : b.toNat = 0 ↔ b = 0 := by
  rw [← BitVec.toNat_inj]
  rfl

theorem result_div : div.result a b = if b = 0 then -1 else a.sdiv b := by
  show BitVec.ofInt n (if b.toInt = 0 then -1 else a.toInt.tdiv b.toInt) = _
  by_cases h : b = 0
  · rw [if_pos ((toInt_eq_zero_iff b).mpr h), if_pos h, ofInt_neg_one]
  · rw [if_neg (mt (toInt_eq_zero_iff b).mp h), if_neg h, sdiv_eq_ofInt]

theorem result_rem : rem.result a b = if b = 0 then a else a.srem b := by
  show BitVec.ofInt n (if b.toInt = 0 then a.toInt else a.toInt.tmod b.toInt) = _
  by_cases h : b = 0
  · rw [if_pos ((toInt_eq_zero_iff b).mpr h), if_pos h, BitVec.ofInt_toInt]
  · rw [if_neg (mt (toInt_eq_zero_iff b).mp h), if_neg h, srem_eq_ofInt]

theorem result_divu : divu.result a b = if b = 0 then -1 else a / b := by
  show BitVec.ofInt n (if b.toNat = 0 then -1 else a.toNat / b.toNat) = _
  by_cases h : b = 0
  · rw [if_pos ((toNat_eq_zero_iff b).mpr h), if_pos h, ofInt_neg_one]
  · rw [if_neg (mt (toNat_eq_zero_iff b).mp h), if_neg h,
      ofInt_nat (a.toNat / b.toNat) _ (by push_cast; rfl), ← divU_eq]
    rfl

theorem result_remu : remu.result a b = if b = 0 then a else a % b := by
  show BitVec.ofInt n (if b.toNat = 0 then a.toNat else a.toNat % b.toNat) = _
  by_cases h : b = 0
  · rw [if_pos ((toNat_eq_zero_iff b).mpr h), if_pos h, ofInt_nat a.toNat _ rfl]
    rw [BitVec.ofNat_toNat, BitVec.setWidth_eq]
  · rw [if_neg (mt (toNat_eq_zero_iff b).mp h), if_neg h,
      ofInt_nat (a.toNat % b.toNat) _ (by push_cast; rfl)]
    apply BitVec.eq_of_toNat_eq
    rw [BitVec.toNat_ofNat, BitVec.toNat_umod]
    exact Nat.mod_eq_of_lt (lt_of_le_of_lt (Nat.mod_le _ _) a.isLt)

/-! ## laws -/

section
variable {m : ℤ} (hm : (2 : ℤ) ^ n = 2 * m)
include hm

theorem bmod_small {z : ℤ} (h₁ : -m ≤ z) (h₂ : z < m) : z.bmod (2 ^ n) = z := by
  refine Int.bmod_eq_of_le_mul_two ?_ ?_
  · push_cast
    rw [hm]
    omega
  · push_cast
    rw [hm]
    omega

theorem ediv_half (hpos : 0 < m) {z : ℤ} (h₁ : -m * (2 * m) ≤ z) (h₂ : z < m * (2 * m)) :
    (BitVec.ofInt n (z / 2 ^ n)).toInt = z / 2 ^ n := by
  rw [BitVec.toInt_ofInt]
  refine bmod_small hm ?_ ?_
  · rw [hm]
    exact Int.le_ediv_of_mul_le (by omega) h₁
  · rw [hm]
    exact Int.ediv_lt_of_lt_mul (by omega) h₂

theorem toInt_bounds : -m ≤ a.toInt ∧ a.toInt < m := by
  have h₁ := BitVec.two_mul_toInt_lt (x := a)
  have h₂ := BitVec.le_two_mul_toInt (x := a)
  rw [hm] at h₁ h₂
  omega

end

/-- half of the number of words -/
theorem exists_half (hn : 0 < n) : ∃ m : ℤ, (2 : ℤ) ^ n = 2 * m ∧ 0 < m := by
  obtain ⟨k, rfl⟩ : ∃ k, n = k + 1 := ⟨n - 1, by omega⟩
  exact ⟨2 ^ k, by rw [pow_succ, mul_comm], by positivity⟩

theorem low_half (z : ℤ) : ((BitVec.ofInt n z).toNat : ℤ) = z % 2 ^ n := by
  rw [BitVec.toNat_ofInt]
  push_cast
  exact Int.toNat_of_nonneg (Int.emod_nonneg _ (by positivity))

/-- **The two halves of a product**: signed, signed by unsigned, and unsigned. -/
theorem product_halves (hn : 0 < n) :
    (mulh.result a b).toInt * 2 ^ n + (mul.result a b).toNat = a.toInt * b.toInt ∧
    (mulhsu.result a b).toInt * 2 ^ n + (mul.result a b).toNat = a.toInt * b.toNat ∧
    (mulhu.result a b).toNat * 2 ^ n + (mul.result a b).toNat = a.toNat * b.toNat := by
  obtain ⟨m, hm, hpos⟩ := exists_half hn
  obtain ⟨ha₁, ha₂⟩ := toInt_bounds a hm
  obtain ⟨hb₁, hb₂⟩ := toInt_bounds b hm
  have hbn : (b.toNat : ℤ) < 2 * m := by
    rw [← hm]
    exact_mod_cast b.isLt
  have hb₀ : (0 : ℤ) ≤ b.toNat := Int.natCast_nonneg _
  have hmul : ((mul.result a b).toNat : ℤ) = a.toInt * b.toInt % 2 ^ n := low_half _
  -- the low half does not depend on how the factors are read
  have hcong : a.toInt * b.toNat % 2 ^ n = a.toInt * b.toInt % 2 ^ n := by
    have hb : (b.toNat : ℤ) % 2 ^ n = b.toInt % 2 ^ n := by
      rw [BitVec.toInt_eq_toNat_bmod]
      exact_mod_cast (Int.bmod_emod (x := (b.toNat : ℤ)) (m := 2 ^ n)).symm
    rw [Int.mul_emod, hb, ← Int.mul_emod]
  refine ⟨?_, ?_, ?_⟩
  · have hh : (mulh.result a b).toInt = a.toInt * b.toInt / 2 ^ n :=
      ediv_half hm hpos (by nlinarith) (by nlinarith)
    rw [hh, hmul]
    exact Int.ediv_mul_add_emod _ _
  · have hh : (mulhsu.result a b).toInt = a.toInt * b.toNat / 2 ^ n :=
      ediv_half hm hpos (by nlinarith) (by nlinarith)
    rw [hh, hmul, ← hcong]
    exact Int.ediv_mul_add_emod _ _
  · have hh : mulhu.result a b = BitVec.ofNat n (a.toNat * b.toNat / 2 ^ n) :=
      ofInt_nat _ _ (by push_cast; rfl)
    have hl : mul.result a b = BitVec.ofNat n (a.toNat * b.toNat) := by
      rw [result_mul]
      apply BitVec.eq_of_toNat_eq
      rw [BitVec.toNat_mul, BitVec.toNat_ofNat]
    have hlt : a.toNat * b.toNat / 2 ^ n < 2 ^ n :=
      Nat.div_lt_of_lt_mul (Nat.mul_lt_mul'' a.isLt b.isLt)
    rw [hh, hl, BitVec.toNat_ofNat, BitVec.toNat_ofNat, Nat.mod_eq_of_lt hlt, mul_comm]
    exact Nat.div_add_mod _ _

/-- **Quotient and remainder** give the dividend back, also for the divisor 0 and where the quotient
overflows; the remainder is smaller than the divisor, with the sign of the dividend. -/
theorem quotient_remainder :
    div.result a b * b + rem.result a b = a ∧
    (b ≠ 0 → (rem.result a b).toInt.natAbs < b.toInt.natAbs) ∧
    (0 ≤ a.toInt → 0 ≤ (rem.result a b).toInt) ∧ (a.toInt ≤ 0 → (rem.result a b).toInt ≤ 0) ∧
    divu.result a b * b + remu.result a b = a ∧
    (b ≠ 0 → (remu.result a b).toNat < b.toNat) := by
  by_cases hb : b = 0
  · subst hb
    rw [result_div, result_rem, result_divu, result_remu, if_pos rfl, if_pos rfl, if_pos rfl,
      if_pos rfl]
    simp
  · have hbi : b.toInt ≠ 0 := mt (toInt_eq_zero_iff b).mp hb
    have hbn : 0 < b.toNat := Nat.pos_of_ne_zero (mt (toNat_eq_zero_iff b).mp hb)
    rw [result_div, result_rem, result_divu, result_remu, if_neg hb, if_neg hb, if_neg hb, if_neg hb]
    refine ⟨?_, fun _ => ?_, fun ha => ?_, fun ha => ?_, ?_, fun _ => ?_⟩
    · have hsum : a.toInt.tdiv b.toInt * b.toInt + a.toInt.tmod b.toInt = a.toInt := by
        rw [mul_comm]
        exact Int.mul_tdiv_add_tmod _ _
      calc a.sdiv b * b + a.srem b
          = BitVec.ofInt n (a.toInt.tdiv b.toInt) * BitVec.ofInt n b.toInt +
              BitVec.ofInt n (a.toInt.tmod b.toInt) := by
            rw [sdiv_eq_ofInt, srem_eq_ofInt, BitVec.ofInt_toInt]
        _ = BitVec.ofInt n (a.toInt.tdiv b.toInt * b.toInt + a.toInt.tmod b.toInt) := by
            rw [BitVec.ofInt_add, BitVec.ofInt_mul]
        _ = a := by rw [hsum, BitVec.ofInt_toInt]
    · rw [BitVec.toInt_srem, Int.natAbs_tmod]
      exact Nat.mod_lt _ (Int.natAbs_pos.mpr hbi)
    · rw [BitVec.toInt_srem]
      exact Int.tmod_nonneg _ ha
    · rw [BitVec.toInt_srem]
      have h := Int.tmod_nonneg b.toInt (neg_nonneg.mpr ha)
      rw [Int.neg_tmod] at h
      exact neg_nonneg.mp h
    · apply BitVec.eq_of_toNat_eq
      rw [BitVec.toNat_add, BitVec.toNat_mul, BitVec.toNat_udiv, BitVec.toNat_umod, Nat.mod_add_mod,
        Nat.div_add_mod', Nat.mod_eq_of_lt a.isLt]
    · rw [BitVec.toNat_umod]
      exact Nat.mod_lt _ hbn

end
end AluOp

/-! ## the reference -/

section
variable (a b : BitVec 64)

theorem shamt_six : (b &&& 0x3f#64).toNat = b.toNat % 64 := by
  rw [BitVec.toNat_and]
  exact Nat.and_two_pow_sub_one_eq_mod b.toNat 6

theorem shamt_five : (sext32 b &&& 0x1f#64).toNat = (b.setWidth 32).toNat % 32 := by
  have h : (b.setWidth 32).toNat % 32 = b.toNat % 32 := by
    rw [BitVec.toNat_setWidth]
    exact Nat.mod_mod_of_dvd _ (by decide)
  rw [shamt_sext32, BitVec.extractLsb'_toNat, h]
  rfl

/-- **A 64-bit operation of `alu_exec` is the operation on numbers.** -/
theorem aluExec_result {op : AluOp} (hop : op ≠ .nop) :
    aluExec a b op false = .ok (op.result a b) := by
  rw [aluExec_wide]
  cases op
  case nop => exact absurd rfl hop
  case add => rw [AluOp.result_add]; rfl
  case sub => rw [AluOp.result_sub]; rfl
  case sll =>
    rw [AluOp.result_sll, ← shamt_six]
    rfl
  case slt => rw [AluOp.result_slt]; rfl
  case sltu => rw [AluOp.result_sltu]; rfl
  case xor => rw [AluOp.result_xor]; rfl
  case srl =>
    rw [AluOp.result_srl, ← shamt_six]
    rfl
  case sra =>
    rw [AluOp.result_sra, ← shamt_six]
    rfl
  case or => rw [AluOp.result_or]; rfl
  case and => rw [AluOp.result_and]; rfl
  case mul => rw [AluOp.result_mul]; rfl
  case mulh =>
    rw [AluOp.result_mulh, mulS_eq]
    rfl
  case mulhu =>
    rw [AluOp.result_mulhu, mulU_eq]
    rfl
  case mulhsu =>
    rw [AluOp.result_mulhsu, mulSU_eq]
    rfl
  case div =>
    rw [AluOp.result_div, aluSwitch_div]
    rfl
  case divu =>
    rw [AluOp.result_divu, aluSwitch_divu]
    rfl
  case rem => rw [AluOp.result_rem, aluSwitch_rem]
  case remu => rw [AluOp.result_remu, aluSwitch_remu]

section
variable {a b}

/-- Only the low word of what the `switch` gives is looked at. -/
theorem aluExec_low {op : AluOp} {x : BitVec 64}
    (hx : aluSwitch (sext32 a) (sext32 b) op true = .ok x)
    (h : x.setWidth 32 = op.result (a.setWidth 32) (b.setWidth 32)) :
    aluExec a b op true = .ok (op.resultW a b) := by
  rw [aluExec_narrow, hx, AluOp.resultW, ← h]
  rfl

/-- the word of a result that is a constant for a zero divisor -/
theorem setWidth_ite {x y : BitVec 64} {u v : BitVec 32} (hx : x.setWidth 32 = u)
    (hy : y.setWidth 32 = v) : (if sext32 b = 0 then x else y).setWidth 32 =
      if b.setWidth 32 = 0 then u else v := by
  have hz : sext32 b = 0 ↔ b.setWidth 32 = 0 := by rw [sext32_eq_zero, extract_low]
  by_cases h : sext32 b = 0
  · rw [if_pos h, if_pos (hz.mp h), hx]
  · rw [if_neg h, if_neg (mt hz.mpr h), hy]

end

/-- **A 32-bit operation of `alu_exec` is the operation on the low words.** -/
theorem aluExec_resultW {op : AluOp} (hop : op.hasW = true) :
    aluExec a b op true = .ok (op.resultW a b) := by
  have hneg : (0xffffffffffffffff : BitVec 64).setWidth 32 = -1 := by decide
  cases op
  case add =>
    refine aluExec_low rfl ?_
    rw [AluOp.result_add, BitVec.setWidth_add _ _ (by decide), low_sext32, low_sext32]
  case sub =>
    refine aluExec_low rfl ?_
    rw [AluOp.result_sub, low_sub, low_sext32, low_sext32]
  case mul =>
    refine aluExec_low rfl ?_
    rw [AluOp.result_mul, BitVec.setWidth_mul _ _ (by decide), low_sext32, low_sext32]
  case sll =>
    refine aluExec_low (x := sext32 a <<< (sext32 b &&& 0x1f#64).toNat) rfl ?_
    rw [AluOp.result_sll, BitVec.setWidth_shiftLeft_of_le (by decide), low_sext32, shamt_five]
  case srl =>
    refine aluExec_low (x := (sext32 a &&& 0xffffffff#64) >>> (sext32 b &&& 0x1f#64).toNat) rfl ?_
    rw [AluOp.result_srl, low_srl, shamt_five]
  case sra =>
    refine aluExec_low (x := (sext32 a).sshiftRight (sext32 b &&& 0x1f#64).toNat) rfl ?_
    rw [AluOp.result_sra, low_sra, shamt_five]
  case div =>
    refine aluExec_low (aluSwitch_div _ _ _) ?_
    rw [AluOp.result_div]
    exact setWidth_ite hneg (low_sdiv a b)
  case rem =>
    refine aluExec_low (aluSwitch_rem _ _ _) ?_
    rw [AluOp.result_rem]
    exact setWidth_ite (low_sext32 a) (low_srem a b)
  case divu =>
    refine aluExec_low (x := if sext32 b = 0 then 0xffffffffffffffff else
      zext32 (sext32 a) / zext32 (sext32 b)) ?_ ?_
    · show (if sext32 b = 0 then _ else Except.ok (zext32 (sext32 a) / zext32 (sext32 b))) = _
      split_ifs <;> rfl
    · rw [AluOp.result_divu]
      exact setWidth_ite hneg (low_udiv a b)
  case remu =>
    refine aluExec_low (x := if sext32 b = 0 then sext32 a else
      zext32 (sext32 a) % zext32 (sext32 b)) ?_ ?_
    · show (if sext32 b = 0 then _ else Except.ok (zext32 (sext32 a) % zext32 (sext32 b))) = _
      split_ifs <;> rfl
    · rw [AluOp.result_remu]
      exact setWidth_ite (low_sext32 a) (low_umod a b)
  all_goals exact absurd hop (by decide)

end

/-! ## both designs -/

/-- the operation has the form: 64 bits wide, or 32 -/
def AluOp.hasForm (op : AluOp) (op32 : Bool) : Bool := if op32 then op.hasW else op != .nop

/-- the unit of the processor for a form of the operation -/
def AluOp.formUnit (op : AluOp) (op32 : Bool) : FuType × BitVec 5 := if op32 then op.unitW else op.unit

/-- the word that a form of the operation is to write -/
def AluOp.formResult (op : AluOp) (op32 : Bool) (a b : BitVec 64) : BitVec 64 :=
  if op32 then op.resultW a b else op.result a b

/-- `alu_exec`, and the functional units for every instruction that names the operation, give `x`. -/
def AluOp.Computed (op : AluOp) (op32 : Bool) (a b x : BitVec 64) : Prop :=
  aluExec a b op op32 = .ok x ∧ ∀ (file : CSRRegFile) (d : IdExeData), d.info.valid = true →
    (d.info.fusel, d.info.op) = op.formUnit op32 → d.srcInfo = ⟨a, b⟩ → (fu file d).wdata = x

theorem aluExec_form {op : AluOp} {op32 : Bool} (h : op.hasForm op32 = true) (a b : BitVec 64) :
    aluExec a b op op32 = .ok (op.formResult op32 a b) := by
  cases op32 with
  | false => exact aluExec_result a b (bne_iff_ne.mp h)
  | true => exact aluExec_resultW a b h

theorem computed_form (op : AluOp) (op32 : Bool) (h : op.hasForm op32 = true) (a b : BitVec 64) :
    op.Computed op32 a b (op.formResult op32 a b) := by
  have hx := aluExec_form h a b
  refine ⟨hx, fun file d hv hu hs => ?_⟩
  have hd : aluExec d.srcInfo.src1Data d.srcInfo.src2Data op op32 = .ok (fu file d).wdata := by
    cases op32 with
    | false => exact aluExec_unit (bne_iff_ne.mp h) file hv hu
    | true => exact aluExec_unitW h file hv hu
  rw [hs] at hd
  exact (Except.ok.inj (hx.symm.trans hd)).symm

/-- **Both designs compute the operations of the instruction set**, on 64 bits and on the low 32: the
word is the number of `AluOp.value`, cut to the width. -/
theorem computes_value (op : AluOp) (op32 : Bool) (h : op.hasForm op32 = true) (a b : BitVec 64) :
    op.Computed op32 a b (if op32 then
      (BitVec.ofInt 32 (op.value (a.setWidth 32) (b.setWidth 32))).signExtend 64
    else BitVec.ofInt 64 (op.value a b)) :=
  computed_form op op32 h a b

/-- `mulhsu` of -1 and `2 ^ 64 - 1`; `divw` of `- 2 ^ 31` and -1 -/
theorem computes_value_edges :
    AluOp.mulhsu.Computed false (-1) 0xffffffffffffffff (-1) ∧
      AluOp.div.Computed true 0x80000000 0xffffffff 0xffffffff80000000 :=
  ⟨computes_value .mulhsu false rfl _ _, computes_value .div true rfl _ _⟩

/-- **Two results of the same operands fit together**, on both designs: the halves of the products
are the whole product, and a quotient and its remainder give the dividend back, whatever the divisor,
on 64 bits and on the low words, where the signed remainder has the sign of the dividend too. -/
theorem computes_laws (a b : BitVec 64) :
    (∃ hi su u lo, AluOp.mulh.Computed false a b hi ∧ AluOp.mulhsu.Computed false a b su ∧
      AluOp.mulhu.Computed false a b u ∧ AluOp.mul.Computed false a b lo ∧
      hi.toInt * 2 ^ 64 + lo.toNat = a.toInt * b.toInt ∧
      su.toInt * 2 ^ 64 + lo.toNat = a.toInt * b.toNat ∧
      u.toNat * 2 ^ 64 + lo.toNat = a.toNat * b.toNat) ∧
    (∃ q r, AluOp.div.Computed false a b q ∧ AluOp.rem.Computed false a b r ∧ q * b + r = a ∧
      (b ≠ 0 → r.toInt.natAbs < b.toInt.natAbs) ∧ (0 ≤ a.toInt → 0 ≤ r.toInt) ∧
      (a.toInt ≤ 0 → r.toInt ≤ 0)) ∧
    (∃ q r, AluOp.divu.Computed false a b q ∧ AluOp.remu.Computed false a b r ∧ q * b + r = a ∧
      (b ≠ 0 → r.toNat < b.toNat)) ∧
    (∃ q r : BitVec 32, AluOp.div.Computed true a b (q.signExtend 64) ∧
      AluOp.rem.Computed true a b (r.signExtend 64) ∧ q * b.setWidth 32 + r = a.setWidth 32 ∧
      (b.setWidth 32 ≠ 0 → r.toInt.natAbs < (b.setWidth 32).toInt.natAbs) ∧
      (0 ≤ (a.setWidth 32).toInt → 0 ≤ r.toInt) ∧ ((a.setWidth 32).toInt ≤ 0 → r.toInt ≤ 0)) ∧
    ∃ q r : BitVec 32, AluOp.divu.Computed true a b (q.signExtend 64) ∧
      AluOp.remu.Computed true a b (r.signExtend 64) ∧ q * b.setWidth 32 + r = a.setWidth 32 ∧
      (b.setWidth 32 ≠ 0 → r.toNat < (b.setWidth 32).toNat) := by
  obtain ⟨h₁, h₂, h₃⟩ := AluOp.product_halves a b (by decide)
  obtain ⟨hs, hlt, hp, hn, hu, hult⟩ := AluOp.quotient_remainder a b
  obtain ⟨hsW, hltW, hpW, hnW, huW, hultW⟩ :=
    AluOp.quotient_remainder (a.setWidth 32) (b.setWidth 32)
  refine ⟨⟨_, _, _, _, computed_form .mulh false rfl a b,
      computed_form .mulhsu false rfl a b,
      computed_form .mulhu false rfl a b,
      computed_form .mul false rfl a b, h₁, h₂, h₃⟩,
    ⟨_, _, computed_form .div false rfl a b,
      computed_form .rem false rfl a b, hs, hlt, hp, hn⟩,
    ⟨_, _, computed_form .divu false rfl a b,
      computed_form .remu false rfl a b, hu, hult⟩,
    ⟨_, _, computed_form .div true rfl a b,
      computed_form .rem true rfl a b, hsW, hltW, hpW, hnW⟩,
    ⟨_, _, computed_form .divu true rfl a b,
      computed_form .remu true rfl a b, huW, hultW⟩⟩

end HduCpu
