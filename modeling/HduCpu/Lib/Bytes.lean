import HduCpu.Lib.Bits

/-!
# Byte memories

A memory is a function from byte addresses to bytes; words are little-endian.

* `peek mem a n`           the `n` bytes from `a` on, as a 64-bit value (`getLsbD_peek`);
* `poke mem a n v`         the low `n` bytes of `v` written at `a`;
* `peek_congr`             only the `n` bytes are read;
* `copyLow`                a buffer after `n` bytes were copied to its start;
* `peek_poke`, `poke_outside`   a write is read back, and its frame;
* `poke_congr`             only the low `n` bytes of the value are written;
* `pokeStrb`               the bytes of a double word that a strobe selects: `foldl_poke` writes
                           them range by range, `pokeStrb_run` is the case of one range;
* `setWidth_peek_shift`    part of a double word, shifted down.
-/

section

abbrev Bytes := ℕ → BitVec 8

/-- the bytes `a`, …, `a + n - 1` as a little-endian value -/
def peek (mem : Bytes) (a : ℕ) : ℕ → BitVec 64
  | 0 => 0
  | n + 1 => (mem a).setWidth 64 ||| (peek mem (a + 1) n <<< 8)

/-- the low `n` bytes of `v` stored from `a` on -/
def poke (mem : Bytes) (a n : ℕ) (v : BitVec 64) : Bytes :=
  fun x => if a ≤ x ∧ x < a + n then v.extractLsb' (8 * (x - a)) 8 else mem x

/-- a buffer whose first `n` bytes were overwritten -/
def copyLow (buffer : BitVec 64) (n : ℕ) (v : BitVec 64) : BitVec 64 :=
  putField buffer 0 (v.setWidth (8 * n))

theorem getLsbD_peek (mem : Bytes) (a n : ℕ) {i : ℕ} (hi : i < 64) :
    (peek mem a n).getLsbD i = (decide (i < 8 * n) && (mem (a + i / 8)).getLsbD (i % 8)) := by
  induction n generalizing a i with
  | zero => simp [peek]
  | succ n ih =>
    rw [peek, BitVec.getLsbD_or, BitVec.getLsbD_setWidth, BitVec.getLsbD_shiftLeft]
    by_cases h8 : i < 8
    · have hd : i / 8 = 0 := by omega
      have hm : i % 8 = i := by omega
      have hn : i < 8 * (n + 1) := by omega
      simp [hi, h8, hd, hm, hn]
    · have hb : (mem a).getLsbD i = false := BitVec.getLsbD_of_ge _ _ (by omega)
      have hd : a + 1 + (i - 8) / 8 = a + i / 8 := by omega
      have hm : (i - 8) % 8 = i % 8 := by omega
      have hn : i - 8 < 8 * n ↔ i < 8 * (n + 1) := by omega
      rw [ih (a + 1) (by omega), hd, hm, hb]
      simp [hi, h8, hn]

/-- Reading depends on the bytes that are read only. -/
theorem peek_congr {mem mem' : Bytes} {a n : ℕ} (h : ∀ x, a ≤ x → x < a + n → mem x = mem' x) :
    peek mem a n = peek mem' a n := by
  induction n generalizing a with
  | zero => rfl
  | succ n ih =>
    rw [peek, peek, h a (le_refl a) (by omega), ih fun x h₁ h₂ => h x (by omega) (by omega)]

theorem getLsbD_copyLow (b v : BitVec 64) (n : ℕ) {i : ℕ} (hi : i < 64) :
    (copyLow b n v).getLsbD i = if i < 8 * n then v.getLsbD i else b.getLsbD i := by
  have hf : ((v.setWidth (8 * n)).setWidth 64 <<< 0).getLsbD i =
      (decide (i < 8 * n) && v.getLsbD i) := by
    rw [getLsbD_field 0 _ hi, BitVec.getLsbD_setWidth]
    simp
  have hm := getLsbD_fieldMask (w := 64) (n := 8 * n) 0 hi
  rw [copyLow, putField, BitVec.getLsbD_or, BitVec.getLsbD_and, BitVec.getLsbD_not, hf, hm]
  by_cases h : i < 8 * n <;> simp [h, hi]

theorem poke_outside (mem : Bytes) {a n : ℕ} (v : BitVec 64) {x : ℕ} (h : x < a ∨ a + n ≤ x) :
    poke mem a n v x = mem x := by
  rw [poke, if_neg (by omega)]

/-- What was stored is read back. -/
theorem peek_poke (mem : Bytes) (a : ℕ) {n : ℕ} (hn : n ≤ 8) (v : BitVec 64) :
    (peek (poke mem a n v) a n).setWidth (8 * n) = v.setWidth (8 * n) := by
  apply BitVec.eq_of_getLsbD_eq
  intro i hi
  have h64 : i < 64 := by omega
  have hbyte : a ≤ a + i / 8 ∧ a + i / 8 < a + n := by omega
  have hoff : 8 * (a + i / 8 - a) + i % 8 = i := by omega
  rw [BitVec.getLsbD_setWidth, BitVec.getLsbD_setWidth, getLsbD_peek _ _ _ h64, poke, if_pos hbyte,
    BitVec.getLsbD_extractLsb', hoff, decide_eq_true hi, decide_eq_true (Nat.mod_lt i (by decide)),
    Bool.true_and, Bool.true_and]

/-- Other bytes are read as before. -/
theorem peek_poke_outside (mem : Bytes) {a n b m : ℕ} (v : BitVec 64) (h : b + m ≤ a ∨ a + n ≤ b) :
    peek (poke mem a n v) b m = peek mem b m :=
  peek_congr fun _ _ _ => poke_outside mem v (by omega)

/-- Two values with the same low bytes are stored alike. -/
theorem poke_congr (mem : Bytes) (a n : ℕ) {v w : BitVec 64}
    (h : ∀ i, i < 8 * n → i < 64 → v.getLsbD i = w.getLsbD i) : poke mem a n v = poke mem a n w := by
  funext x
  by_cases hx : a ≤ x ∧ x < a + n
  · rw [poke, poke, if_pos hx, if_pos hx]
    apply BitVec.eq_of_getLsbD_eq
    intro i hi
    simp only [BitVec.getLsbD_extractLsb', hi, decide_true, Bool.true_and]
    by_cases h64 : 8 * (x - a) + i < 64
    · exact h _ (by omega) h64
    · rw [BitVec.getLsbD_of_ge _ _ (by omega), BitVec.getLsbD_of_ge _ _ (by omega)]
  · rw [poke, poke, if_neg hx, if_neg hx]

/-! ## strobes -/

/-- the bytes of `v` that the strobe selects, stored at their offset from `a` -/
def pokeStrb (mem : Bytes) (a : ℕ) (strb : BitVec 8) (v : BitVec 64) : Bytes :=
  fun x => if a ≤ x ∧ strb.getLsbD (x - a) = true then v.extractLsb' (8 * (x - a)) 8 else mem x

theorem pokeStrb_zero (mem : Bytes) (a : ℕ) (v : BitVec 64) : pokeStrb mem a 0 v = mem := by
  funext x
  simp [pokeStrb]

/-- is the offset in the range -/
def inRange (i : ℕ) (r : ℕ × ℕ) : Bool := r.1 ≤ i && i < r.1 + r.2

/-- One range of offsets, taken from the same double word. -/
theorem poke_range (mem : Bytes) (a : ℕ) (v : BitVec 64) (r : ℕ × ℕ) (x : ℕ) :
    poke mem (a + r.1) r.2 (v >>> (8 * r.1)) x =
      if a ≤ x ∧ inRange (x - a) r = true then v.extractLsb' (8 * (x - a)) 8 else mem x := by
  have hiff : a + r.1 ≤ x ∧ x < a + r.1 + r.2 ↔ a ≤ x ∧ inRange (x - a) r = true := by
    rw [inRange, Bool.and_eq_true, decide_eq_true_iff, decide_eq_true_iff]
    omega
  by_cases h : a + r.1 ≤ x ∧ x < a + r.1 + r.2
  · have e : 8 * r.1 + 8 * (x - (a + r.1)) = 8 * (x - a) := by omega
    rw [poke, if_pos h, if_pos (hiff.mp h)]
    apply BitVec.eq_of_getLsbD_eq
    intro i hi
    rw [BitVec.getLsbD_extractLsb', BitVec.getLsbD_extractLsb', BitVec.getLsbD_ushiftRight,
      ← Nat.add_assoc, e]
  · rw [poke, if_neg h, if_neg (hiff.not.mp h)]

/-- Writing the ranges of a strobe one after the other writes the bytes that it selects. -/
theorem foldl_poke (mem : Bytes) (a : ℕ) {strb : BitVec 8} (v : BitVec 64)
    {ranges : List (ℕ × ℕ)} (h : ∀ i, ranges.any (inRange i) = strb.getLsbD i) :
    ranges.foldl (fun m r => poke m (a + r.1) r.2 (v >>> (8 * r.1))) mem =
      pokeStrb mem a strb v := by
  have key : ∀ (l : List (ℕ × ℕ)) (m : Bytes) (x : ℕ),
      l.foldl (fun m r => poke m (a + r.1) r.2 (v >>> (8 * r.1))) m x =
        if a ≤ x ∧ l.any (inRange (x - a)) = true then v.extractLsb' (8 * (x - a)) 8 else m x := by
    intro l
    induction l with
    | nil => intro m x; simp
    | cons r l ih =>
      intro m x
      rw [List.foldl_cons, ih, poke_range, List.any_cons]
      cases hl : l.any (inRange (x - a)) with
      | false => simp
      | true =>
        by_cases ha : a ≤ x
        · rw [if_pos ⟨ha, rfl⟩, if_pos ⟨ha, Bool.or_true _⟩]
        · rw [if_neg fun h => ha h.1, if_neg fun h => ha h.1, if_neg fun h => ha h.1]
  funext x
  rw [key, h, pokeStrb]

/-- A strobe of `n` ones from `off` on is a store of `n` bytes. -/
theorem pokeStrb_run (mem : Bytes) (a off n : ℕ) {strb : BitVec 8} {v w : BitVec 64}
    (hs : ∀ i, strb.getLsbD i = inRange i (off, n))
    (hv : ∀ i, i < 8 * n → v.getLsbD (8 * off + i) = w.getLsbD i) :
    pokeStrb mem a strb v = poke mem (a + off) n w := by
  have h₁ : poke mem (a + off) n (v >>> (8 * off)) = pokeStrb mem a strb v := by
    funext x
    rw [poke_range mem a v (off, n), pokeStrb, hs]
  rw [← h₁]
  refine poke_congr mem _ n fun i hi _ => ?_
  rw [BitVec.getLsbD_ushiftRight, hv i hi]

/-- The low bytes of a double word that was shifted down are those at the offset. -/
theorem setWidth_peek_shift (mem : Bytes) (a : ℕ) {off n : ℕ} (h : off + n ≤ 8) :
    (peek mem a 8 >>> (8 * off)).setWidth (8 * n) = (peek mem (a + off) n).setWidth (8 * n) := by
  apply BitVec.eq_of_getLsbD_eq
  intro i hi
  have e₁ : a + (8 * off + i) / 8 = a + off + i / 8 := by omega
  have e₂ : (8 * off + i) % 8 = i % 8 := by omega
  have h64 : 8 * off + i < 8 * 8 := by omega
  rw [BitVec.getLsbD_setWidth, BitVec.getLsbD_setWidth, BitVec.getLsbD_ushiftRight,
    getLsbD_peek _ _ _ (by omega), getLsbD_peek _ _ _ (by omega), e₁, e₂]
  simp [hi, h64]

theorem setWidth_copyLow (b v : BitVec 64) {n : ℕ} (h : n ≤ 8) :
    (copyLow b n v).setWidth (8 * n) = v.setWidth (8 * n) := by
  apply BitVec.eq_of_getLsbD_eq
  intro i hi
  rw [BitVec.getLsbD_setWidth, BitVec.getLsbD_setWidth, getLsbD_copyLow _ _ _ (by omega), if_pos hi]

theorem copyLow_zero (b v : BitVec 64) : copyLow b 0 v = b := by
  apply BitVec.eq_of_getLsbD_eq
  intro i hi
  rw [getLsbD_copyLow _ _ _ hi, if_neg (by omega)]

theorem copyLow_eight (b v : BitVec 64) : copyLow b 8 v = v := by
  apply BitVec.eq_of_getLsbD_eq
  intro i hi
  rw [getLsbD_copyLow _ _ _ hi, if_pos (by omega)]

/-- Bytes that are taken out of a buffer and put back. -/
theorem copyLow_shift (v : BitVec 64) (n : ℕ) : copyLow (v >>> (8 * n) <<< (8 * n)) n v = v := by
  apply BitVec.eq_of_getLsbD_eq
  intro i hi
  rw [getLsbD_copyLow _ _ _ hi, BitVec.getLsbD_shiftLeft, BitVec.getLsbD_ushiftRight]
  by_cases h : i < 8 * n
  · rw [if_pos h]
  · have e : 8 * n + (i - 8 * n) = i := by omega
    rw [if_neg h, e]
    simp [h, hi]

end
