import HduCpu.Lib.Machine
import HduCpu.Ref.Cells

/-!
# Load-reserved and store-conditional

Runs of calls of the system bus by any harts.  A write clears the reservation when it passes the
comparison of `pa_write`, which it does when it starts at the reserved address; a write that only
overlaps the reserved bytes from the side does not.

* `BusOp`, `busMachine`    the calls and their runs;
* `stores`                 the addresses that a call has written;
* `busStep_lr`             what a call that is not `pa_lr` leaves of a valid reservation;
* `Caught`                 a write to the reserved bytes clears a valid reservation;
* `reserved`               behind a valid reservation stands the `pa_lr` that made it, and no write
                           to its bytes since;
* `busStep_devices`        what a call does to memories;
* `sc_atomic`              a successful `pa_sc`, in runs whose writes are all caught.
-/

namespace HduCpu

/-! ## calls -/

/-- the calls of the bus with their arguments -/
inductive BusOp
  | read (pa size buffer : BitVec 64)
  | write (pa size buffer : BitVec 64)
  | lr (pa size buffer hart : BitVec 64)
  | sc (pa size buffer hart : BitVec 64)
  | amo (pa size : BitVec 64) (op : BitVec 5) (src dst : BitVec 64)

section
variable {δ : Type} [MmioDev δ]

/-- The bus after a call.  An atomic operation that fails its assertion ends the run. -/
def busStep : BusOp → Systembus δ → Systembus δ
  | .read pa size buffer, s => (s.paRead pa size buffer).bus
  | .write pa size buffer, s => (s.paWrite pa size buffer).bus
  | .lr pa size buffer hart, s => (s.paLr pa size buffer hart).bus
  | .sc pa size buffer hart, s => (s.paSc pa size buffer hart).bus
  | .amo pa size op src dst, s =>
    (s.paAmoOp pa size op src dst).toOption.elim s BusAmo.bus

/-- the span that a call writes, when it does -/
def stores : BusOp → Systembus δ → Option Span
  | .read _ _ _, _ => none
  | .write pa size buffer, s => if (s.paWrite pa size buffer).ok then some (pa, size) else none
  | .lr _ _ _ _, _ => none
  | .sc pa size buffer hart, s =>
    if (s.paSc pa size buffer hart).ok && !(s.paSc pa size buffer hart).scFail then some (pa, size)
    else none
  | .amo pa size op src dst, s =>
    if (s.paAmoOp pa size op src dst).toOption.any BusAmo.ok then some (pa, size) else none

/-- the hart that a `pa_lr` is for -/
def BusOp.lrBy : BusOp → Option (BitVec 64)
  | .lr _ _ _ hart => some hart
  | _ => none

/-- the runs of the bus, with no reservation at the start -/
def busMachine : Clocked (Systembus δ) BusOp where
  init s := s.lrValid = false
  next := busStep

/-! ## the reservation -/

namespace Systembus
variable (s : Systembus δ)

/-- the reserved bytes -/
def reservation : Span := (s.lrPa, s.lrSize)

/-- the comparison of `pa_write` -/
def breaks (w : Span) : Bool := w.1 ≤ s.lrPa && s.lrPa + w.2 ≤ w.1 + w.2

/-- the fields of the reservation but for `lr_valid` -/
def lrKey : BitVec 64 × BitVec 64 × BitVec 64 := (s.lrPa, s.lrSize, s.lrHart)

omit [MmioDev δ] in
/-- Without wrap-around the comparison asks for the same start. -/
theorem breaks_iff {w : Span} (hw : w.1.toNat + w.2.toNat < 2 ^ 64)
    (hl : s.lrPa.toNat + w.2.toNat < 2 ^ 64) : s.breaks w = true ↔ w.1 = s.lrPa := by
  rw [breaks, Bool.and_eq_true, decide_eq_true_eq, decide_eq_true_eq, BitVec.le_def, BitVec.le_def,
    BitVec.toNat_add, BitVec.toNat_add, Nat.mod_eq_of_lt hw, Nat.mod_eq_of_lt hl]
  constructor
  · rintro ⟨h₁, h₂⟩
    exact BitVec.eq_of_toNat_eq (le_antisymm h₁ (Nat.le_of_add_le_add_right h₂))
  · intro h
    rw [h]
    exact ⟨le_refl _, le_refl _⟩

variable (a size buffer : BitVec 64)

theorem paRead_lrKey : (s.paRead a size buffer).bus.lrKey = s.lrKey ∧
    (s.paRead a size buffer).bus.lrValid = s.lrValid := by
  rw [paRead_call]
  cases s.paCall a size <;> exact ⟨rfl, rfl⟩

theorem paWrite_lrKey : (s.paWrite a size buffer).bus.lrKey = s.lrKey ∧
    (s.paWrite a size buffer).bus.lrValid = (s.lrValid && !s.breaks (a, size)) := by
  have hb : (s.breakLr a size).lrKey = s.lrKey ∧
      (s.breakLr a size).lrValid = (s.lrValid && !s.breaks (a, size)) := by
    show (if s.breaks (a, size) then { s with lrValid := false } else s).lrKey = _ ∧
      (if s.breaks (a, size) then { s with lrValid := false } else s).lrValid = _
    cases s.breaks (a, size) with
    | true => exact ⟨rfl, (Bool.and_false _).symm⟩
    | false => exact ⟨rfl, (Bool.and_true _).symm⟩
  rw [paWrite_call]
  cases s.paCall a size <;> exact hb

/-- What an atomic operation does to the bus: a read, and a write when the read has succeeded. -/
theorem paAmoOp_cases (op : BitVec 5) (src dst : BitVec 64) :
    (∃ e, s.paAmoOp a size op src dst = .error e) ∨
    (s.paAmoOp a size op src dst = .ok ⟨false, dst, (s.paRead a size 0).bus⟩) ∨
    ∃ v res, s.paAmoOp a size op src dst =
      .ok ⟨((s.paRead a size 0).bus.paWrite a size v).ok, res,
        ((s.paRead a size 0).bus.paWrite a size v).bus⟩ := by
  unfold paAmoOp
  simp only
  split
  · exact .inr (.inl rfl)
  · cases amoResult op src (if size = 4 then ((s.paRead a size 0).buffer.setWidth 32).signExtend 64
      else (s.paRead a size 0).buffer) with
    | error e => exact .inl ⟨e, rfl⟩
    | ok v => exact .inr (.inr ⟨v, _, rfl⟩)

/-- A `pa_sc` fails without a write, or writes after it has cleared the reservation. -/
theorem paSc_cases (hart : BitVec 64) :
    (s.paSc a size buffer hart =
      ⟨true, true, if hart == s.lrHart then { s with lrValid := false } else s⟩) ∨
    (s.lrValid = true ∧ s.lrKey = (a, size, hart) ∧ s.paSc a size buffer hart =
      ⟨({ s with lrValid := false }.paWrite a size buffer).ok, false,
        ({ s with lrValid := false }.paWrite a size buffer).bus⟩) := by
  unfold paSc
  by_cases h : (!s.lrValid || s.lrPa != a || s.lrSize != size || s.lrHart != hart) = true
  · rw [if_pos h]
    exact .inl rfl
  · rw [if_neg h]
    simp only [Bool.or_eq_true, Bool.not_eq_true', bne_iff_ne, not_or, not_not,
      Bool.not_eq_false] at h
    obtain ⟨⟨⟨hv, ha⟩, hs⟩, hh⟩ := h
    exact .inr ⟨hv, by rw [lrKey, ha, hs, hh], rfl⟩

end Systembus

/-- **A call other than `pa_lr` that leaves a reservation valid** has found it valid, left it as it
was, and has not written what would clear it. -/
theorem busStep_lr {op : BusOp} (hop : op.lrBy = none) {s : Systembus δ}
    (hv : (busStep op s).lrValid = true) :
    s.lrValid = true ∧ (busStep op s).lrKey = s.lrKey ∧
      ∀ w, stores op s = some w → s.breaks w = false := by
  have hwrite : ∀ {t : Systembus δ} {a n v}, (t.paWrite a n v).bus.lrValid = true →
      t.lrValid = true ∧ (t.paWrite a n v).bus.lrKey = t.lrKey ∧ t.breaks (a, n) = false := by
    intro t a n v h
    obtain ⟨hk, hl⟩ := t.paWrite_lrKey a n v
    rw [hl, Bool.and_eq_true, Bool.not_eq_true'] at h
    exact ⟨h.1, hk, h.2⟩
  cases op with
  | read a n b =>
    obtain ⟨hk, hl⟩ := s.paRead_lrKey a n b
    exact ⟨hl ▸ hv, hk, fun w hw => by cases hw⟩
  | write a n b =>
    obtain ⟨h₁, h₂, h₃⟩ := hwrite hv
    refine ⟨h₁, h₂, fun w hw => ?_⟩
    rw [stores, Option.ite_none_right_eq_some] at hw
    obtain rfl := Option.some.inj hw.2
    exact h₃
  | lr a n b hart => cases hop
  | sc a n b hart =>
    simp only [busStep, stores] at hv ⊢
    rcases s.paSc_cases a n b hart with h | ⟨-, -, h⟩
    · rw [h] at hv ⊢
      by_cases hh : (hart == s.lrHart) = true
      · rw [if_pos hh] at hv
        cases hv
      · rw [if_neg hh] at hv ⊢
        exact ⟨hv, rfl, fun w hw => by cases hw⟩
    · rw [h] at hv
      exact absurd (hwrite hv).1 Bool.false_ne_true
  | amo a n op src dst =>
    simp only [busStep, stores] at hv ⊢
    obtain ⟨hk, hl⟩ := s.paRead_lrKey a n 0
    rcases s.paAmoOp_cases a n op src dst with ⟨e, h⟩ | h | ⟨v, res, h⟩
    · rw [h] at hv ⊢
      exact ⟨hv, rfl, fun w hw => by cases hw⟩
    · rw [h] at hv ⊢
      exact ⟨hl ▸ hv, hk, fun w hw => by cases hw⟩
    · rw [h] at hv ⊢
      obtain ⟨h₁, h₂, h₃⟩ := hwrite hv
      refine ⟨hl ▸ h₁, h₂.trans hk, fun w hw => ?_⟩
      rw [Option.ite_none_right_eq_some] at hw
      obtain rfl := Option.some.inj hw.2
      have hpa : (s.paRead a n 0).bus.lrPa = s.lrPa := congrArg Prod.fst hk
      rwa [Systembus.breaks, hpa] at h₃

/-! ## runs -/

section
variable (T : Systembus δ → Span → Span → Prop) (s₀ : Systembus δ) (ops : ℕ → BusOp)

/-- the bus before call `k` -/
abbrev busAt (k : ℕ) : Systembus δ := busMachine.run ops s₀ k

/-- Call `j` is the last `pa_lr` of the hart before call `k`, and it is for the span `r`. -/
def LastLr (hart : BitVec 64) (r : Span) (j k : ℕ) : Prop :=
  j < k ∧ (∃ b, ops j = .lr r.1 r.2 b hart) ∧ ∀ i, j < i → i < k → (ops i).lrBy ≠ some hart

/-- No call between `j` and `k` has written to `r`, in the sense of `T`. -/
def Unwritten (r : Span) (j k : ℕ) : Prop :=
  ∀ i, j < i → i < k → ∀ w, stores (ops i) (busAt s₀ ops i) = some w → ¬ T (busAt s₀ ops i) w r

/-- A write to the reserved bytes clears a valid reservation. -/
def Caught (s : Systembus δ) (op : BusOp) : Prop :=
  s.lrValid = true → ∀ w, stores op s = some w → T s w s.reservation → s.breaks w = true

variable {T s₀ ops}

omit [MmioDev δ] in
/-- A write that starts at the reserved address passes the comparison. -/
theorem breaks_start {s : Systembus δ} {w : Span} (h : w.1 = s.lrPa) : s.breaks w = true := by
  rw [Systembus.breaks, h, Bool.and_eq_true, decide_eq_true_eq, decide_eq_true_eq]
  exact ⟨BitVec.le_refl _, BitVec.le_refl _⟩

/-- A `pa_sc` that writes is always caught. -/
theorem caught_sc (s : Systembus δ) (a size b hart : BitVec 64) : Caught T s (.sc a size b hart) := by
  intro _ w hw _
  simp only [stores] at hw
  rcases s.paSc_cases a size b hart with h | ⟨-, hk, -⟩
  · rw [h] at hw
    cases hw
  · rw [Option.ite_none_right_eq_some] at hw
    obtain rfl := Option.some.inj hw.2
    exact breaks_start (congrArg Prod.fst hk).symm

/-- **Behind a valid reservation** stands the last `pa_lr`, and its bytes have not been written
since. -/
theorem reserved (h₀ : s₀.lrValid = false) (hc : ∀ k, Caught T (busAt s₀ ops k) (ops k)) (k : ℕ)
    (hv : (busAt s₀ ops k).lrValid = true) :
    ∃ j, LastLr ops (busAt s₀ ops k).lrHart (busAt s₀ ops k).reservation j k ∧
      Unwritten T s₀ ops (busAt s₀ ops k).reservation j k := by
  induction k with
  | zero => exact absurd (h₀.symm.trans hv) Bool.false_ne_true
  | succ k ih =>
    cases hop : (ops k).lrBy with
    | some hart =>
      obtain ⟨pa, size, b, hlr⟩ : ∃ pa size b, ops k = .lr pa size b hart := by
        cases h : ops k <;> rw [h] at hop <;> cases hop
        exact ⟨_, _, _, rfl⟩
      have hkey : (busAt s₀ ops (k + 1)).lrKey = (pa, size, hart) := by
        rw [busAt, Clocked.run_succ, hlr]
        exact (Systembus.paRead_lrKey _ pa size b).1
      simp only [Systembus.lrKey, Prod.mk.injEq] at hkey
      obtain ⟨h₁, h₂, h₃⟩ := hkey
      rw [Systembus.reservation, h₁, h₂, h₃]
      exact ⟨k, ⟨Nat.lt_succ_self k, ⟨b, hlr⟩, fun i h h' => by omega⟩, fun i h h' => by omega⟩
    | none =>
      obtain ⟨hk, hkey, hw⟩ := busStep_lr hop hv
      have hkey' : (busAt s₀ ops (k + 1)).lrKey = (busAt s₀ ops k).lrKey := hkey
      simp only [Systembus.lrKey, Prod.mk.injEq] at hkey'
      obtain ⟨h₁, h₂, h₃⟩ := hkey'
      obtain ⟨j, ⟨hj, hlr, hlast⟩, hun⟩ := ih hk
      rw [Systembus.reservation, h₁, h₂, h₃]
      refine ⟨j, ⟨hj.trans (Nat.lt_succ_self k), hlr, fun i hi hik => ?_⟩,
        fun i hi hik w hs hT => ?_⟩
      · rcases Nat.lt_succ_iff_lt_or_eq.mp hik with hlt | rfl
        · exact hlast i hi hlt
        · rw [hop]
          exact fun h => by cases h
      · rcases Nat.lt_succ_iff_lt_or_eq.mp hik with hlt | rfl
        · exact hun i hi hlt w hs hT
        · exact absurd ((hw w hs).symm.trans (hc i hk w hs hT)) Bool.false_ne_true

end

end

/-! ## memories -/

/-- **What a call does to the devices**: nothing, or the write that `stores` tells. -/
theorem busStep_devices (op : BusOp) (s : Systembus MmioMem) :
    (busStep op s).devices = s.devices ∨ ∃ w t v, stores op s = some w ∧
      s.cells w.1 w.2 = some t ∧ (busStep op s).devices =
        (s.setBytes t.1 (poke (s.bytesAt t.1) t.2 w.2.toNat v)).devices := by
  cases op with
  | read a n b => exact .inl (congrArg _ (paRead_bus_mem s a n b))
  | write a n b =>
    rcases paWrite_effect s a n b with h | ⟨t, hok, ht, h⟩
    · exact .inl h
    · exact .inr ⟨(a, n), t, b, if_pos hok, ht, h⟩
  | lr a n b hart => exact .inl (paLr_effect s a n b hart).1
  | sc a n b hart =>
    simp only [busStep, stores]
    rcases s.paSc_cases a n b hart with h | ⟨-, -, h⟩
    · rw [h]
      left
      show (if hart == s.lrHart then { s with lrValid := false } else s).devices = _
      split_ifs <;> rfl
    · rw [h]
      rcases paWrite_effect { s with lrValid := false } a n b with hd | ⟨t, hok, ht, hd⟩
      · exact .inl hd
      · exact .inr ⟨(a, n), t, b, if_pos (by rw [hok]; rfl), ht, hd⟩
  | amo a n op src dst =>
    simp only [busStep, stores]
    rcases s.paAmoOp_cases a n op src dst with ⟨e, h⟩ | h | ⟨v, res, h⟩
    · rw [h]
      exact .inl rfl
    · rw [h]
      exact .inl (congrArg _ (paRead_bus_mem s a n 0))
    · rw [h, paRead_bus_mem]
      rcases paWrite_effect s a n v with hd | ⟨t, hok, ht, hd⟩
      · exact .inl hd
      · exact .inr ⟨(a, n), t, v, if_pos hok, ht, hd⟩

/-- **The frame of a call**: bytes that it does not write read as before. -/
theorem busStep_frame {op : BusOp} {s : Systembus MmioMem} {r : Span}
    (h : ∀ w, stores op s = some w → ¬ Reaches s w r) (b : BitVec 64) :
    ((busStep op s).paRead r.1 r.2 b).buffer = (s.paRead r.1 r.2 b).buffer := by
  rcases busStep_devices op s with hd | ⟨w, t, v, hw, ht, hd⟩
  · exact paRead_congr hd _ _ _
  · exact (paRead_congr hd _ _ _).trans (paRead_setBytes ht (h w hw) v b)

/-- Bytes that no call writes read as they did after call `j`. -/
theorem paRead_unwritten {s₀ : Systembus MmioMem} {ops : ℕ → BusOp} {r : Span} {j k : ℕ} (hjk : j < k)
    (h : Unwritten TouchesMem s₀ ops r j k) (b : BitVec 64) :
    ((busAt s₀ ops k).paRead r.1 r.2 b).buffer =
      ((busAt s₀ ops (j + 1)).paRead r.1 r.2 b).buffer := by
  induction k with
  | zero => cases hjk
  | succ k ih =>
    rcases Nat.lt_succ_iff_lt_or_eq.mp hjk with hlt | rfl
    · rw [← ih hlt fun i h₁ h₂ => h i h₁ (h₂.trans (Nat.lt_succ_self k))]
      exact busStep_frame (fun w hw hr => h k hlt (Nat.lt_succ_self k) w hw (.inr hr)) b
    · rfl

/-! ## store-conditional -/

/-- The `pa_sc` succeeds. -/
def ScDone {δ : Type} [MmioDev δ] (s : Systembus δ) (r : Span) (src hart : BitVec 64) : Prop :=
  (s.paSc r.1 r.2 src hart).ok = true ∧ (s.paSc r.1 r.2 src hart).scFail = false

/-- A successful `pa_sc` has found the reservation of its hart for the same bytes. -/
theorem lrKey_of_scDone {δ : Type} [MmioDev δ] {s : Systembus δ} {r : Span} {src hart : BitVec 64}
    (h : ScDone s r src hart) : s.lrValid = true ∧ s.reservation = r ∧ s.lrHart = hart := by
  rcases s.paSc_cases r.1 r.2 src hart with he | ⟨hv, hk, -⟩
  · have := h.2
    rw [he] at this
    cases this
  · simp only [Systembus.lrKey, Prod.mk.injEq] at hk
    exact ⟨hv, Prod.ext hk.1 hk.2.1, hk.2.2⟩

/-- **A successful `pa_sc` comes after the last `pa_lr` of its hart, for the same bytes, which no
call has written since**, when every write to reserved bytes clears the reservation; in memories
the bytes then hold what the `pa_lr` has read. -/
theorem sc_atomic {ops : ℕ → BusOp} {k : ℕ} {r : Span} {src hart : BitVec 64}
    (hop : ops k = .sc r.1 r.2 src hart) :
    (∀ {δ : Type} [MmioDev δ] (s₀ : Systembus δ), s₀.lrValid = false →
      (∀ i, Caught (fun _ => Touches) (busAt s₀ ops i) (ops i)) →
      ScDone (busAt s₀ ops k) r src hart →
        ∃ j, LastLr ops hart r j k ∧ Unwritten (fun _ => Touches) s₀ ops r j k) ∧
    (∀ s₀ : Systembus MmioMem, s₀.lrValid = false →
      (∀ i, Caught TouchesMem (busAt s₀ ops i) (ops i)) →
      ScDone (busAt s₀ ops k) r src hart →
        ∃ j, LastLr ops hart r j k ∧ Unwritten (fun _ => Touches) s₀ ops r j k ∧
          ∀ b, ((busAt s₀ ops k).paRead r.1 r.2 b).buffer =
            ((busAt s₀ ops j).paLr r.1 r.2 b hart).buffer) := by
  constructor
  · intro δ _ s₀ h₀ hc hsc
    obtain ⟨hv, rfl, rfl⟩ := lrKey_of_scDone hsc
    exact reserved h₀ hc k hv
  · intro s₀ h₀ hc hsc
    obtain ⟨hv, rfl, rfl⟩ := lrKey_of_scDone hsc
    obtain ⟨j, hlr, hun⟩ := reserved h₀ hc k hv
    refine ⟨j, hlr, fun i h₁ h₂ w hw ht => hun i h₁ h₂ w hw (.inl ht), fun b => ?_⟩
    obtain ⟨hjk, ⟨b', hj⟩, -⟩ := hlr
    have hdev : (busAt s₀ ops (j + 1)).devices = (busAt s₀ ops j).devices := by
      rw [busAt, Clocked.run_succ, hj]
      exact (paLr_effect _ _ _ b' _).1
    rw [(paLr_effect _ _ _ b _).2]
    exact (paRead_unwritten hjk hun b).trans (paRead_congr hdev _ _ _)

/-- the memory of `riscv_test_run` -/
def ramBus : Systembus MmioMem := ramCalls.foldl Systembus.tryAdd (.empty 0 0 0)

/-- a word written to the reserved address before the `pa_sc` of another hart -/
def sameStart : ℕ → BusOp
  | 0 => .lr 0x80000000 8 0 0
  | 1 => .sc 0x80000000 8 5 0
  | 2 => .lr 0x80000000 8 0 1
  | 3 => .write 0x80000000 4 7
  | _ => .sc 0x80000000 8 9 1

theorem sc_atomic_sameStart : ∃ j, LastLr sameStart 0 (0x80000000, 8) j 1 ∧
    Unwritten (fun _ => Touches) ramBus sameStart (0x80000000, 8) j 1 ∧
    ∀ b, ((busAt ramBus sameStart 1).paRead 0x80000000 8 b).buffer =
      ((busAt ramBus sameStart j).paLr 0x80000000 8 b 0).buffer := by
  have hop : sameStart 1 = .sc (0x80000000, 8).1 (0x80000000, 8).2 5 0 := rfl
  refine (sc_atomic hop).2 ramBus rfl (fun k => ?_) ⟨rfl, rfl⟩
  rcases k with _ | _ | _ | _ | k
  · exact fun _ w hw => by cases hw
  · exact caught_sc _ _ _ _ _
  · exact fun _ w hw => by cases hw
  · exact fun _ w hw _ => by cases hw; rfl
  · exact caught_sc _ _ _ _ _

/-- the addresses of a call -/
def BusOp.span : BusOp → Span
  | .read pa size _ => (pa, size)
  | .write pa size _ => (pa, size)
  | .lr pa size _ _ => (pa, size)
  | .sc pa size _ _ => (pa, size)
  | .amo pa size _ _ _ => (pa, size)

/-- a write to the upper half of the reserved double word -/
def upperHalf : ℕ → BusOp
  | 0 => .lr 0x80000000 8 0 0
  | 1 => .write 0x80000004 4 7
  | _ => .sc 0x80000000 8 9 0

/-- A word stored into the upper half of a reserved double word is missed. -/
theorem upperHalf_missed : ¬ ∀ ops : ℕ → BusOp,
    (∀ k, (∃ e ∈ ramBus.devices, Covers e (ops k).span.1 (ops k).span.2) ∧
      (ops k).span.2 ∈ [1#64, 2#64, 4#64, 8#64]) →
    ∀ k r src hart, ops k = .sc r.1 r.2 src hart → ScDone (busAt ramBus ops k) r src hart →
      ∃ j, LastLr ops hart r j k ∧ Unwritten (fun _ => Touches) ramBus ops r j k := by
  intro h
  have hcov : ∀ a size : BitVec 64, 0 < size.toNat → 0x80000000 ≤ a.toNat →
      a.toNat + size.toNat ≤ 0x100000000 → ∃ e ∈ ramBus.devices, Covers e a size := by
    intro a size hs h₁ h₂
    exact ⟨_, List.mem_singleton.mpr rfl, (covers_iff _ a hs).mpr ⟨h₁, h₂⟩⟩
  obtain ⟨j, ⟨hj, ⟨b, hlr⟩, -⟩, hun⟩ := h upperHalf (fun k => by
    rcases k with _ | _ | k
    · exact ⟨hcov _ _ (by decide) (by decide) (by decide), by decide⟩
    · exact ⟨hcov _ _ (by decide) (by decide) (by decide), by decide⟩
    · exact ⟨hcov 0x80000000 8 (by decide) (by decide) (by decide),
        (by decide : 8#64 ∈ [1#64, 2#64, 4#64, 8#64])⟩) 2 (0x80000000, 8) 9 0 rfl
    ⟨rfl, rfl⟩
  have h0 : j = 0 := by
    rcases j with _ | _ | j
    · rfl
    · cases hlr
    · omega
  subst h0
  exact hun 1 (by decide) (by decide) (0x80000004, 4) rfl ⟨0x80000004, by decide, by decide⟩

end HduCpu
