import HduCpu.Ref.Reserve
import HduCpu.Ref.Envelope

/-!
# Atomic operations on words

`pa_amo_op` sign-extends the word it has read and works on 64 bits throughout; the register operand
is not cut to a word.  The low half of the result is that of the 32-bit operation except for the
comparisons, where the upper half of the register decides.

* `amoSpec`                the operations on operands of any width;
* `AmoExact`               what `pa_amo_op` has to do to the memory and to `dst`;
* `KeepsOrder`             the register and the extended word compare as their low halves do;
* `amo_exact_iff`          the two coincide;
* `keepsOrder_signExtend`  a sign-extended register compares as its low half.
-/

namespace HduCpu

/-! ## the operations -/

/-- the new value of a memory operand `m` and a register operand `src` of the same width -/
def amoSpec {w : ℕ} (op : BitVec 5) (m src : BitVec w) : BitVec w :=
  if op = AmoFunct.SWAP then src
  else if op = AmoFunct.ADD then m + src
  else if op = AmoFunct.AND then m &&& src
  else if op = AmoFunct.OR then m ||| src
  else if op = AmoFunct.XOR then m ^^^ src
  else if op = AmoFunct.MAX then if m.toInt < src.toInt then src else m
  else if op = AmoFunct.MIN then if m.toInt < src.toInt then m else src
  else if op = AmoFunct.MAXU then if m.toNat < src.toNat then src else m
  else if m.toNat < src.toNat then m else src

/-- The register and the sign-extended operand compare as the low part and the operand do. -/
def KeepsOrder {w : ℕ} (op : BitVec 5) (m : BitVec w) (src : BitVec 64) : Prop :=
  if op = AmoFunct.MAX ∨ op = AmoFunct.MIN then
    m.toInt < src.toInt ↔ m.toInt < (src.setWidth w).toInt
  else if op = AmoFunct.MAXU ∨ op = AmoFunct.MINU then
    (m.signExtend 64).toNat < src.toNat ↔ m.toNat < (src.setWidth w).toNat
  else True

/-! ## the low part of the result -/

theorem ite_eq_ite_iff_or {α : Type*} {p q : Prop} [Decidable p] [Decidable q] {x y : α} :
    (if p then x else y) = (if q then x else y) ↔ x = y ∨ (p ↔ q) := by
  by_cases hp : p
  · by_cases hq : q
    · simp [hp, hq]
    · simp [hp, hq]
  · by_cases hq : q
    · simp [hp, hq, eq_comm]
    · simp [hp, hq]

/-- Two choices by opposite comparisons, which differ only where the values do not. -/
theorem ite_opposite {α : Type*} {p q : Prop} [Decidable p] [Decidable q] {x y : α}
    (h : ¬ (p ∧ q)) (ht : ¬ p → ¬ q → x = y) : (if p then x else y) = if q then y else x := by
  by_cases hp : p
  · have hq : ¬ q := fun hq => h ⟨hp, hq⟩
    rw [if_pos hp, if_neg hq]
  · by_cases hq : q
    · rw [if_neg hp, if_pos hq]
    · rw [if_neg hp, if_neg hq, ht hp hq]

section
variable {w : ℕ} (hw : w ≤ 64) (m : BitVec w) (src : BitVec 64)
include hw

theorem setWidth_signExtend_self : (m.signExtend 64).setWidth w = m := by
  rw [← BitVec.signExtend_eq_setWidth_of_le _ hw]
  apply BitVec.eq_of_toInt_eq
  rw [BitVec.toInt_signExtend_eq_toInt_bmod_of_le _ hw, BitVec.toInt_signExtend_of_le hw]
  exact BitVec.toInt_bmod_cancel m

/-- A register that is the extended operand has the operand as its low part. -/
theorem low_of_toInt (h : src.toInt = m.toInt) : src.setWidth w = m := by
  have hs : src = m.signExtend 64 := by
    apply BitVec.eq_of_toInt_eq
    rw [h, BitVec.toInt_signExtend_of_le hw]
  rw [hs, setWidth_signExtend_self hw]

theorem low_of_toNat (h : src.toNat = (m.signExtend 64).toNat) : src.setWidth w = m := by
  rw [BitVec.eq_of_toNat_eq h, setWidth_signExtend_self hw]

omit hw in
/-- An operand of 64 bits compares with the register as it is. -/
theorem keepsOrder_double (op : BitVec 5) (m src : BitVec 64) : KeepsOrder op m src := by
  unfold KeepsOrder
  rw [BitVec.setWidth_eq, BitVec.signExtend_eq]
  split_ifs
  · rfl
  · rfl

variable {m src}

/-- **The low part of the value that is written**, against the operation on the operand's width. -/
theorem amoResult_low_iff {op : BitVec 5} (hop : op ∈ amoOps) {v : BitVec 64}
    (hv : Systembus.amoResult op src (m.signExtend 64) = .ok v) :
    v.setWidth w = amoSpec op m (src.setWidth w) ↔
      src.setWidth w = m ∨ KeepsOrder op m src := by
  have hm := setWidth_signExtend_self hw m
  have hi : (m.signExtend 64).toInt = m.toInt := BitVec.toInt_signExtend_of_le hw
  simp only [amoOps, List.mem_cons, List.not_mem_nil, or_false] at hop
  rcases hop with rfl | rfl | rfl | rfl | rfl | rfl | rfl | rfl | rfl
  all_goals obtain rfl := Except.ok.inj hv
  · exact iff_of_true rfl (.inr trivial)
  · refine iff_of_true ?_ (.inr trivial)
    change (src + m.signExtend 64).setWidth w = m + src.setWidth w
    rw [BitVec.setWidth_add _ _ hw, hm, BitVec.add_comm]
  · refine iff_of_true ?_ (.inr trivial)
    change (src ^^^ m.signExtend 64).setWidth w = m ^^^ src.setWidth w
    rw [BitVec.setWidth_xor, hm, BitVec.xor_comm]
  · refine iff_of_true ?_ (.inr trivial)
    change (src &&& m.signExtend 64).setWidth w = m &&& src.setWidth w
    rw [BitVec.setWidth_and, hm, BitVec.and_comm]
  · refine iff_of_true ?_ (.inr trivial)
    change (src ||| m.signExtend 64).setWidth w = m ||| src.setWidth w
    rw [BitVec.setWidth_or, hm, BitVec.or_comm]
  · -- MIN
    change (if (m.signExtend 64).slt src then m.signExtend 64 else src).setWidth w =
      (if m.toInt < (src.setWidth w).toInt then m else src.setWidth w) ↔
        src.setWidth w = m ∨ (m.toInt < src.toInt ↔ m.toInt < (src.setWidth w).toInt)
    rw [apply_ite (BitVec.setWidth w), hm, ite_eq_ite_iff_or, BitVec.slt_iff_toInt_lt, hi, eq_comm]
  · -- MAX
    change (if src.slt (m.signExtend 64) then m.signExtend 64 else src).setWidth w =
      (if m.toInt < (src.setWidth w).toInt then src.setWidth w else m) ↔
        src.setWidth w = m ∨ (m.toInt < src.toInt ↔ m.toInt < (src.setWidth w).toInt)
    have hc : (if src.slt (m.signExtend 64) then m else src.setWidth w) =
        if m.toInt < src.toInt then src.setWidth w else m := by
      refine ite_opposite ?_ fun h₁ h₂ => (low_of_toInt hw m src ?_).symm
      · rw [BitVec.slt_iff_toInt_lt]
        omega
      · rw [BitVec.slt_iff_toInt_lt] at h₁
        omega
    rw [apply_ite (BitVec.setWidth w), hm, hc, ite_eq_ite_iff_or, eq_comm]
  · -- MINU
    change (if m.signExtend 64 < src then m.signExtend 64 else src).setWidth w =
      (if m.toNat < (src.setWidth w).toNat then m else src.setWidth w) ↔
        src.setWidth w = m ∨
          ((m.signExtend 64).toNat < src.toNat ↔ m.toNat < (src.setWidth w).toNat)
    rw [apply_ite (BitVec.setWidth w), hm, ite_eq_ite_iff_or, BitVec.lt_def, eq_comm]
  · -- MAXU
    change (if src < m.signExtend 64 then m.signExtend 64 else src).setWidth w =
      (if m.toNat < (src.setWidth w).toNat then src.setWidth w else m) ↔
        src.setWidth w = m ∨
          ((m.signExtend 64).toNat < src.toNat ↔ m.toNat < (src.setWidth w).toNat)
    have hc : (if src < m.signExtend 64 then m else src.setWidth w) =
        if (m.signExtend 64).toNat < src.toNat then src.setWidth w else m := by
      refine ite_opposite ?_ fun h₁ h₂ => (low_of_toNat hw m src ?_).symm
      · rw [BitVec.lt_def]
        omega
      · rw [BitVec.lt_def] at h₁
        omega
    rw [apply_ite (BitVec.setWidth w), hm, hc, ite_eq_ite_iff_or]

end

/-! ## memory -/

/-- the memory operand of `n` bytes -/
def Systembus.operand (s : Systembus MmioMem) (t : ℕ × ℕ) (n : ℕ) : BitVec (8 * n) :=
  (peek (s.bytesAt t.1) t.2 n).setWidth (8 * n)

/-- The operand `m` of `n` bytes at `t` was replaced by `v`, and nothing else was written. -/
structure AmoDone (s : Systembus MmioMem) (t : ℕ × ℕ) {n : ℕ} (m v : BitVec (8 * n))
    (r : BusAmo MmioMem) : Prop where
  ok : r.ok = true
  dst : r.dst = m.signExtend 64
  operand : r.bus.operand t n = v
  frame : ∀ k x, ¬ (k = t.1 ∧ t.2 ≤ x ∧ x < t.2 + n) → r.bus.bytesAt k x = s.bytesAt k x

/-- The operation on operands of `size` bytes; when the read fails nothing is written. -/
def AmoExact (s : Systembus MmioMem) (a size : BitVec 64) (op : BitVec 5) (src dst : BitVec 64) :
    Prop :=
  ∃ r, s.paAmoOp a size op src dst = .ok r ∧
    (s.cells a size).elim (r.ok = false ∧ r.bus = s) fun t =>
      AmoDone s t (s.operand t size.toNat)
        (amoSpec op (s.operand t size.toNat) (src.setWidth (8 * size.toNat))) r

section
variable {s : Systembus MmioMem} {a size : BitVec 64} {op : BitVec 5} (src dst : BitVec 64)

theorem paAmoOp_none (h : s.cells a size = none) :
    s.paAmoOp a size op src dst = .ok ⟨false, dst, s⟩ := by
  have hr : s.paRead a size 0 = ⟨false, 0, s⟩ := by
    rw [Systembus.paRead_cells, h, Option.elim_none]
  rw [Systembus.paAmoOp, hr]
  rfl

variable (hs : size = 4 ∨ size = 8)
include hs

/-- The old value is the sign-extended operand in both sizes. -/
theorem extended_operand {t : ℕ × ℕ} (h : s.cells a size = some t) :
    (if size = 4 then ((s.paRead a size 0).buffer.setWidth 32).signExtend 64
      else (s.paRead a size 0).buffer) = (s.operand t size.toNat).signExtend 64 := by
  rw [Systembus.paRead_cells, h, Option.elim_some]
  rcases hs with rfl | rfl
  · rw [if_pos rfl]
    exact congrArg (BitVec.signExtend 64) (setWidth_copyLow 0 _ (n := 4) (by decide))
  · rw [if_neg (by decide)]
    change copyLow 0 8 (peek _ _ 8) = ((peek _ _ 8).setWidth 64).signExtend 64
    rw [copyLow_eight, BitVec.setWidth_eq, BitVec.signExtend_eq]

theorem paAmoOp_some {t : ℕ × ℕ} (h : s.cells a size = some t) {v : BitVec 64}
    (hv : Systembus.amoResult op src ((s.operand t size.toNat).signExtend 64) = .ok v) :
    s.paAmoOp a size op src dst = .ok ⟨true, (s.operand t size.toNat).signExtend 64,
      (s.breakLr a size).setBytes t.1 (poke (s.bytesAt t.1) t.2 size.toNat v)⟩ := by
  have hok : (s.paRead a size 0).ok = true := by
    rw [Systembus.paRead_cells, h, Option.elim_some]
  have hw : s.paWrite a size v = ⟨true, (s.breakLr a size).setBytes t.1
      (poke (s.bytesAt t.1) t.2 size.toNat v)⟩ := by
    rw [Systembus.paWrite_cells, h, Option.elim_some]
  rw [Systembus.paAmoOp, extended_operand hs h, hok, paRead_bus_mem, hv]
  change Except.ok (BusAmo.mk (s.paWrite a size v).ok _ (s.paWrite a size v).bus) = _
  rw [hw]

/-- The write is exact when the low part of the written value is. -/
theorem amoDone_iff {t : ℕ × ℕ} (h : s.cells a size = some t) (v : BitVec 64)
    (w : BitVec (8 * size.toNat)) :
    AmoDone s t (s.operand t size.toNat) w ⟨true, (s.operand t size.toNat).signExtend 64,
      (s.breakLr a size).setBytes t.1 (poke (s.bytesAt t.1) t.2 size.toNat v)⟩ ↔
      v.setWidth (8 * size.toNat) = w := by
  have hn : size.toNat ≤ 8 := by rcases hs with rfl | rfl <;> decide
  obtain ⟨e, he⟩ := Systembus.entry_of_cells a size h
  have he' : (s.breakLr a size).devices[t.1]? = some e := by
    rw [← he]
    unfold Systembus.breakLr
    split_ifs <;> rfl
  have hb : (s.breakLr a size).bytesAt = s.bytesAt := by
    unfold Systembus.breakLr
    split_ifs <;> rfl
  have hop : ((s.breakLr a size).setBytes t.1 (poke (s.bytesAt t.1) t.2 size.toNat v)).operand t
      size.toNat = v.setWidth (8 * size.toNat) := by
    rw [Systembus.operand, Systembus.bytesAt_setBytes _ he', if_pos rfl]
    exact peek_poke _ _ hn v
  refine ⟨fun hd => hop.symm.trans hd.operand, fun hw => ⟨rfl, rfl, hop.trans hw, ?_⟩⟩
  intro k x hx
  change ((s.breakLr a size).setBytes t.1 _).bytesAt k x = _
  rw [Systembus.bytesAt_setBytes _ he', hb]
  by_cases hk : k = t.1
  · rw [if_pos hk, hk]
    exact poke_outside _ _ (by omega)
  · rw [if_neg hk]

theorem amo_exact_iff_keepsOrder (hop : op ∈ amoOps) : AmoExact s a size op src dst ↔
    ∀ t, s.cells a size = some t → src.setWidth (8 * size.toNat) = s.operand t size.toNat ∨
      KeepsOrder op (s.operand t size.toNat) src := by
  have hw : 8 * size.toNat ≤ 64 := by rcases hs with rfl | rfl <;> decide
  unfold AmoExact
  cases h : s.cells a size with
  | none => exact iff_of_true ⟨_, paAmoOp_none src dst h, rfl, rfl⟩ fun t ht => by cases ht
  | some t =>
    obtain ⟨v, hv⟩ := amoResult_ok hop src ((s.operand t size.toNat).signExtend 64)
    have hr := paAmoOp_some src dst hs h hv
    have hlow := amoResult_low_iff hw hop hv
    have hdone := amoDone_iff hs h v
      (amoSpec op (s.operand t size.toNat) (src.setWidth (8 * size.toNat)))
    constructor
    · rintro ⟨r, hr', hd⟩ t' ht'
      obtain rfl := Option.some.inj ht'
      obtain rfl := Except.ok.inj (hr.symm.trans hr')
      exact hlow.mp (hdone.mp hd)
    · intro hk
      exact ⟨_, hr, hdone.mpr (hlow.mpr (hk t rfl))⟩

/-- **When an atomic operation works on operands of its size**: always with 64 bits; with 32 bits
unless it is a minimum or maximum, the low half of the register is not the word already, and the
register compares with the extended word differently. -/
theorem amo_exact_iff (hop : op ∈ amoOps) : AmoExact s a size op src dst ↔
    ∀ t, size = 4 → s.cells a size = some t → src.setWidth 32 = s.operand t 4 ∨
      KeepsOrder (w := 32) op (s.operand t 4) src := by
  rw [amo_exact_iff_keepsOrder src dst hs hop]
  rcases hs with rfl | rfl
  · exact ⟨fun h t _ ht => h t ht, fun h t ht => h t rfl ht⟩
  · refine ⟨fun _ t h8 => absurd h8 (by decide), fun _ t _ => .inr ?_⟩
    exact keepsOrder_double op _ src

end

/-! ## registers that compiled code holds -/

theorem toNat_signExtend_word (x : BitVec 32) :
    (x.toNat < 2 ^ 31 ∧ (x.signExtend 64).toNat = x.toNat) ∨
      (2 ^ 31 ≤ x.toNat ∧ (x.signExtend 64).toNat = x.toNat + (2 ^ 64 - 2 ^ 32)) := by
  rw [BitVec.toNat_signExtend, BitVec.toNat_setWidth_of_le (by decide), BitVec.msb_eq_decide]
  by_cases h : 2 ^ 31 ≤ x.toNat
  · exact .inr ⟨h, by rw [decide_eq_true h, if_pos rfl]⟩
  · exact .inl ⟨by omega, by rw [decide_eq_false h, if_neg Bool.false_ne_true, Nat.add_zero]⟩

/-- A register that is the sign extension of its low half compares as its low half does. -/
theorem keepsOrder_signExtend (op : BitVec 5) (m x : BitVec 32) :
    KeepsOrder op m (x.signExtend 64) := by
  have hx : (x.signExtend 64).setWidth 32 = x := setWidth_signExtend_self (by decide) x
  have hi : (x.signExtend 64).toInt = x.toInt := BitVec.toInt_signExtend_of_le (by decide)
  have hm := m.isLt
  have hlt := x.isLt
  have hm' := toNat_signExtend_word m
  have hx' := toNat_signExtend_word x
  unfold KeepsOrder
  rw [hx, hi]
  split_ifs
  · rfl
  · omega

/-! ## a register that is not sign-extended -/

/-- the bus of a single memory that holds 5 in its first word -/
def fiveBus : Systembus MmioMem :=
  ⟨0, 0, 0, false, [⟨RAM_START, RAM_START + 0x1000, ⟨poke (fun _ => 0) 0 4 5, 0x1000, false⟩, false⟩]⟩

theorem amo_exact_iff_add : AmoExact fiveBus RAM_START 4 AmoFunct.ADD 0x100000001 0 :=
  (amo_exact_iff 0x100000001 0 (.inl rfl) (by decide)).mpr fun _ _ _ => .inr trivial

/-- `amomax.w` of 2³² and the word 5 stores 0. -/
theorem amomax_wide : ¬ ∀ (s : Systembus MmioMem) (a size src dst : BitVec 64) (op : BitVec 5),
    size = 4 ∨ size = 8 → op ∈ amoOps → AmoExact s a size op src dst := by
  intro h
  have hx := h fiveBus RAM_START 4 0x100000000 0 AmoFunct.MAX (.inl rfl) (by decide)
  have hm : fiveBus.operand (0, 0) 4 = 5 := by decide
  have hc : fiveBus.cells RAM_START 4 = some (0, 0) := by decide +kernel
  have hk := (amo_exact_iff_keepsOrder _ _ (.inl rfl) (by decide)).mp hx (0, 0) hc
  change (0x100000000#64).setWidth 32 = fiveBus.operand (0, 0) 4 ∨
    KeepsOrder AmoFunct.MAX (fiveBus.operand (0, 0) 4) (0x100000000#64) at hk
  rw [hm] at hk
  revert hk
  unfold KeepsOrder
  decide

end HduCpu
