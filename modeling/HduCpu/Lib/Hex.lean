import Mathlib

/-!
# Numbers in hexadecimal

The digits that `printf` writes for `%0wx`, and a reader for them.

* `lowDigits c n`          the last `c` digits;
* `hexPad w n`             all digits, with leading zeros up to the width `w`;
* `readHex`                the number in front of a text, and what follows it;
* `readHex_hexPad`         a number is read back, whatever its width.
-/

/-- the last `c` digits of `n` -/
def lowDigits : ℕ → ℕ → List Char
  | 0, _ => []
  | c + 1, n => lowDigits c (n / 16) ++ [Nat.digitChar (n % 16)]

/-- at least `w` digits, and as many as `n` has -/
def hexPad (w n : ℕ) : List Char := lowDigits (max w (Nat.log 16 n + 1)) n

/-- the value of a digit -/
def hexValue (c : Char) : Option ℕ :=
  if 48 ≤ c.toNat ∧ c.toNat ≤ 57 then some (c.toNat - 48)
  else if 97 ≤ c.toNat ∧ c.toNat ≤ 102 then some (c.toNat - 87)
  else none

/-- reads digits behind the number `n` -/
def readHex (n : ℕ) : List Char → ℕ × List Char
  | [] => (n, [])
  | c :: cs => (hexValue c).elim (n, c :: cs) fun d => readHex (16 * n + d) cs

/-- no digit is in front -/
def Ended (cs : List Char) : Prop := ∀ c ∈ cs.head?, hexValue c = none

theorem hexValue_digitChar : ∀ {d : ℕ}, d < 16 → hexValue (Nat.digitChar d) = some d := by
  decide

theorem readHex_ended (n : ℕ) {cs : List Char} (h : Ended cs) : readHex n cs = (n, cs) := by
  cases cs with
  | nil => rfl
  | cons c cs => rw [readHex, h c rfl, Option.elim_none]

/-- The digits are read one after the other. -/
theorem readHex_append (m : ℕ) (c n : ℕ) (cs : List Char) :
    readHex m (lowDigits c n ++ cs) = readHex (16 ^ c * m + n % 16 ^ c) cs := by
  induction c generalizing n cs with
  | zero => simp only [lowDigits, List.nil_append, pow_zero, Nat.mod_one, one_mul, add_zero]
  | succ c ih =>
    have hd : n % 16 < 16 := Nat.mod_lt n (by decide)
    have hn : 16 * (16 ^ c * m + n / 16 % 16 ^ c) + n % 16 = 16 ^ (c + 1) * m + n % 16 ^ (c + 1) := by
      rw [pow_succ, Nat.mul_comm (16 ^ c) 16, Nat.mod_mul, Nat.mul_add]
      ring
    rw [lowDigits, List.append_assoc, ih]
    show readHex _ (Nat.digitChar (n % 16) :: cs) = _
    rw [readHex, hexValue_digitChar hd, Option.elim_some, hn]

/-- **A number is read back**, with the text behind it. -/
theorem readHex_hexPad (w n : ℕ) {cs : List Char} (h : Ended cs) :
    readHex 0 (hexPad w n ++ cs) = (n, cs) := by
  have hlt : n < 16 ^ max w (Nat.log 16 n + 1) :=
    lt_of_lt_of_le (Nat.lt_pow_succ_log_self (by decide) n)
      (Nat.pow_le_pow_right (by decide) (le_max_right w _))
  rw [hexPad, readHex_append, Nat.mul_zero, Nat.zero_add, Nat.mod_eq_of_lt hlt, readHex_ended n h]
