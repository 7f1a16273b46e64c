import HduCpu.Lib.Ranges
import HduCpu.Ref.Ram

/-!
# Which device an access reaches

The map of `rv_systembus` as ranges in ascending order.  `add_dev` looks at the two neighbours of
a new range only, which is enough; `pa_read` and `pa_write` compare the end of the access after it
has been added up in 64 bits, which is not.

* `Ranged`                 the invariant: the ranges are `Ascending`, and each starts at a multiple
                           of its length;
* `addDev_isNone_iff`      a range is refused exactly when it is misaligned or overlaps;
* `Systembus.paCall`       the device that an access calls, and the address it is given;
* `IsCall`                 the call that the access should make;
* `dispatch_exact_iff`     the two agree unless the access wraps around into a range.
-/

namespace HduCpu

section
variable {δ : Type}

/-! ## ranges -/

namespace BusEntry

def lo (e : BusEntry δ) : ℕ := e.first.toNat

def hi (e : BusEntry δ) : ℕ := e.second.toNat

end BusEntry

/-- The ranges of a bus are disjoint, in ascending order, and aligned to their length. -/
structure Ranged (s : Systembus δ) : Prop where
  ascending : Ascending BusEntry.lo BusEntry.hi s.devices
  aligned : ∀ e ∈ s.devices, e.first % (e.second - e.first) = 0

/-- all bytes of the access, without wrap-around, lie in the range of the entry -/
def Covers (e : BusEntry δ) (a size : BitVec 64) : Prop :=
  ∀ k < size.toNat, e.lo ≤ a.toNat + k ∧ a.toNat + k < e.hi

theorem covers_iff (e : BusEntry δ) (a : BitVec 64) {size : BitVec 64} (hs : 0 < size.toNat) :
    Covers e a size ↔ e.lo ≤ a.toNat ∧ a.toNat + size.toNat ≤ e.hi := by
  constructor
  · intro h
    have h₀ := h 0 hs
    have h₁ := h (size.toNat - 1) (by omega)
    omega
  · intro h k hk
    omega

/-! ## add_dev -/

namespace Systembus
variable (s : Systembus δ)

/-- `upper_bound` counts the entries with a key up to the given one. -/
def keyUpTo (key : BitVec 64 × BitVec 64) (e : BusEntry δ) : Bool := !keyLt key (e.first, e.second)

theorem keyUpTo_lo {start second : BitVec 64} {e : BusEntry δ}
    (h : keyUpTo (start, second) e = true) : e.lo ≤ start.toNat := by
  simp only [keyUpTo, keyLt, Bool.not_eq_true', Bool.or_eq_false_iff, decide_eq_false_iff_not] at h
  exact BitVec.le_def.mp (BitVec.not_lt.mp h.1)

theorem lo_of_keyUpTo {start second : BitVec 64} {e : BusEntry δ}
    (h : keyUpTo (start, second) e = false) : start.toNat ≤ e.lo := by
  simp only [keyUpTo, keyLt, Bool.not_eq_false', Bool.or_eq_true, decide_eq_true_eq,
    Bool.and_eq_true, beq_iff_eq] at h
  rcases h with h | ⟨h, -⟩
  · exact (BitVec.lt_def.mp h).le
  · exact (congrArg BitVec.toNat h).le

/-- With the largest second component only the starts are compared. -/
theorem keyUpTo_max (a : BitVec 64) :
    keyUpTo (δ := δ) (a, ulongMax) = fun e => decide (e.lo ≤ a.toNat) := by
  funext e
  have hm : (ulongMax < e.second) = False := by
    rw [eq_iff_iff, iff_false, BitVec.not_lt, BitVec.le_def]
    have := e.second.isLt
    have he : ulongMax.toNat = 2 ^ 64 - 1 := by decide
    omega
  simp only [keyUpTo, keyLt, hm, decide_false, Bool.and_false, Bool.or_false]
  rw [← decide_not]
  exact decide_eq_decide.mpr (BitVec.not_lt.trans BitVec.le_def)

variable {s} (h : Ranged s) {start length : BitVec 64} (hl : 0 < length.toNat)
  (hw : start.toNat + length.toNat < 2 ^ 64) (dev : δ) (rawAddr : Bool)

/-- the entry that `add_dev` is about to put into the map -/
def newEntry (start length : BitVec 64) (dev : δ) (rawAddr : Bool) : BusEntry δ :=
  ⟨start, start + length, dev, rawAddr⟩

include hw in
theorem newEntry_hi : (newEntry start length dev rawAddr).hi = start.toNat + length.toNat := by
  show (start + length).toNat = _
  rw [BitVec.toNat_add, Nat.mod_eq_of_lt hw]

include hl hw in
theorem newEntry_lt : (newEntry start length dev rawAddr).lo < (newEntry start length dev rawAddr).hi := by
  rw [newEntry_hi hw]
  exact Nat.lt_add_of_pos_right hl

include h hl hw in
/-- the check against one entry -/
theorem overlaps_iff {e : BusEntry δ} (he : e ∈ s.devices) :
    overlaps e start (start + length) = true ↔
      Overlap BusEntry.lo BusEntry.hi e (newEntry start length dev rawAddr) := by
  have hmax : (if e.first < start then start else e.first).toNat =
      max e.first.toNat start.toNat := by
    by_cases hc : e.first < start
    · rw [if_pos hc, max_eq_right (BitVec.lt_def.mp hc).le]
    · rw [if_neg hc, max_eq_left (BitVec.le_def.mp (BitVec.not_lt.mp hc))]
  have hmin : (if start + length < e.second then start + length else e.second).toNat =
      min e.second.toNat (start + length).toNat := by
    by_cases hc : start + length < e.second
    · rw [if_pos hc, min_eq_right (BitVec.lt_def.mp hc).le]
    · rw [if_neg hc, min_eq_left (BitVec.le_def.mp (BitVec.not_lt.mp hc))]
  rw [overlap_iff (h.ascending.lt e he) (newEntry_lt hl hw dev rawAddr), overlaps, decide_eq_true_eq,
    BitVec.lt_def, hmax, hmin]
  exact Iff.rfl

/-- the entries before and after the place of a new key -/
def below (s : Systembus δ) (start length : BitVec 64) : List (BusEntry δ) :=
  s.devices.takeWhile (keyUpTo (start, start + length))

def above (s : Systembus δ) (start length : BitVec 64) : List (BusEntry δ) :=
  s.devices.dropWhile (keyUpTo (start, start + length))

/-- `add_dev` by the two neighbours -/
theorem addDev_eq (s : Systembus δ) : s.addDev start length dev rawAddr =
    if start % length != 0 then none
    else if (s.above start length).head?.any fun e => overlaps e start (start + length) then none
    else if (s.below start length).getLast?.any fun e => overlaps e start (start + length) then none
    else some { s with
      devices := s.devices.insertIdx (s.below start length).length
        (newEntry start length dev rawAddr) } := by
  have hn : s.upperBound (start, start + length) = (s.below start length).length := rfl
  have hlast : ((s.below start length).length != 0 &&
      (s.devices[(s.below start length).length - 1]?).any fun e => overlaps e start (start + length)) =
      (s.below start length).getLast?.any fun e => overlaps e start (start + length) := by
    by_cases h0 : (s.below start length).length = 0
    · rw [h0, List.length_eq_zero_iff.mp h0]
      rfl
    · rw [bne_iff_ne.mpr h0, Bool.true_and, below, getElem?_pred_takeWhile h0]
  unfold addDev
  simp only [hn, hlast]
  rw [below, getElem?_length_takeWhile]
  rfl

theorem mem_of_head (s : Systembus δ) {e : BusEntry δ}
    (he : e ∈ (s.above start length).head?) : e ∈ s.devices :=
  (List.dropWhile_sublist _).mem (List.mem_of_mem_head? he)

theorem mem_of_last (s : Systembus δ) {e : BusEntry δ}
    (he : e ∈ (s.below start length).getLast?) : e ∈ s.devices :=
  (List.takeWhile_sublist _).mem (List.mem_of_mem_getLast? he)

section
include h hl hw

theorem any_overlaps_iff {o : Option (BusEntry δ)} (ho : ∀ e ∈ o, e ∈ s.devices) :
    (o.any fun e => overlaps e start (start + length)) = true ↔
      ∃ e ∈ o, Overlap BusEntry.lo BusEntry.hi e (newEntry start length dev rawAddr) := by
  cases o with
  | none => simp
  | some e => simp [overlaps_iff h hl hw dev rawAddr (ho e rfl)]

/-- the two comparisons of `add_dev` -/
theorem neighbours_overlap_iff :
    (((s.above start length).head?.any fun e => overlaps e start (start + length)) = true ↔
      ∃ e ∈ (s.above start length).head?,
        Overlap BusEntry.lo BusEntry.hi e (newEntry start length dev rawAddr)) ∧
    (((s.below start length).getLast?.any fun e => overlaps e start (start + length)) = true ↔
      ∃ e ∈ (s.below start length).getLast?,
        Overlap BusEntry.lo BusEntry.hi e (newEntry start length dev rawAddr)) :=
  ⟨any_overlaps_iff h hl hw dev rawAddr fun _ he => mem_of_head s he,
    any_overlaps_iff h hl hw dev rawAddr fun _ he => mem_of_last s he⟩

/-- **A range is refused exactly when it is misaligned or overlaps an accepted one**, although only
its two neighbours are looked at. -/
theorem addDev_isNone_iff : s.addDev start length dev rawAddr = none ↔ start % length ≠ 0 ∨
    ∃ e ∈ s.devices, Overlap BusEntry.lo BusEntry.hi e (newEntry start length dev rawAddr) := by
  obtain ⟨hhead, hlast⟩ := neighbours_overlap_iff h hl hw dev rawAddr
  rw [addDev_eq]
  split_ifs with h₁ h₂ h₃
  · simpa using .inl (bne_iff_ne.mp h₁)
  · obtain ⟨e, he, ho⟩ := hhead.mp h₂
    simpa using .inr ⟨e, mem_of_head s he, ho⟩
  · obtain ⟨e, he, ho⟩ := hlast.mp h₃
    simpa using .inr ⟨e, mem_of_last s he, ho⟩
  · refine iff_of_false id ?_
    rintro (hal | ⟨e, he, ho⟩)
    · exact h₁ (bne_iff_ne.mpr hal)
    · refine h.ascending.overlap_neighbour (newEntry_lt hl hw dev rawAddr)
        (p := keyUpTo (start, start + length)) (fun _ => keyUpTo_lo) (fun _ => lo_of_keyUpTo)
        (fun a ha hao => ?_) (fun a ha hao => ?_) e he ho
      · exact h₃ (hlast.mpr ⟨a, ha, hao⟩)
      · exact h₂ (hhead.mpr ⟨a, ha, hao⟩)

/-- A new device leaves the ranges disjoint, in order and aligned. -/
theorem ranged_addDev {s' : Systembus δ} (hs : s.addDev start length dev rawAddr = some s') :
    Ranged s' := by
  obtain ⟨hhead, hlast⟩ := neighbours_overlap_iff h hl hw dev rawAddr
  rw [addDev_eq] at hs
  split_ifs at hs with h₁ h₂ h₃
  obtain rfl := Option.some.inj hs
  refine ⟨?_, fun e he => ?_⟩
  · refine h.ascending.insertIdx (newEntry_lt hl hw dev rawAddr)
      (p := keyUpTo (start, start + length)) (fun _ => keyUpTo_lo) (fun _ => lo_of_keyUpTo)
      (fun a ha hao => ?_) (fun a ha hao => ?_)
    · exact h₃ (hlast.mpr ⟨a, ha, hao⟩)
    · exact h₂ (hhead.mpr ⟨a, ha, hao⟩)
  · have hle : (s.below start length).length ≤ s.devices.length :=
      (List.takeWhile_sublist _).length_le
    rcases (List.mem_insertIdx hle).mp he with rfl | he
    · have hsub : start + length - start = length := by rw [BitVec.add_comm, BitVec.add_sub_cancel]
      show start % (start + length - start) = 0
      rw [hsub]
      simpa using h₁
    · exact h.aligned e he

end
end Systembus

/-! ## pa_read and pa_write -/

/-- a call of a device: its position, its entry and the address it is given -/
structure DevCall (δ : Type) where
  pos : ℕ
  entry : BusEntry δ
  addr : BitVec 64

namespace Systembus
variable (s : Systembus δ) (a size : BitVec 64)

/-- the device that an access calls -/
def paCall : Option (DevCall δ) :=
  (s.locate a).bind fun t =>
    if holds t.2 a size then some ⟨t.1, t.2, devAddr t.2 a⟩ else none

/-- the bus after the called device has changed -/
def callDev (c : DevCall δ) (dev : δ) : Systembus δ := s.setDev c.pos c.entry dev

variable [MmioDev δ] (buffer : BitVec 64)

theorem paRead_call : s.paRead a size buffer =
    (s.paCall a size).elim ⟨false, buffer, s⟩ fun c =>
      ⟨(MmioDev.doRead c.entry.dev c.addr size buffer).ok,
        (MmioDev.doRead c.entry.dev c.addr size buffer).buffer,
        s.callDev c (MmioDev.doRead c.entry.dev c.addr size buffer).dev⟩ := by
  unfold paRead paCall
  cases s.locate a with
  | none => rfl
  | some t =>
    obtain ⟨n, e⟩ := t
    simp only [Option.bind_some]
    by_cases hh : holds e a size = true
    · rw [if_pos hh, if_pos hh]
      rfl
    · rw [if_neg hh, if_neg hh]
      rfl

omit [MmioDev δ] in
theorem paCall_breakLr (a' size' : BitVec 64) : (s.breakLr a' size').paCall a size = s.paCall a size := by
  unfold breakLr
  split <;> rfl

theorem paWrite_call : s.paWrite a size buffer =
    (s.paCall a size).elim ⟨false, s.breakLr a size⟩ fun c =>
      ⟨(MmioDev.doWrite c.entry.dev c.addr size buffer).ok,
        (s.breakLr a size).callDev c (MmioDev.doWrite c.entry.dev c.addr size buffer).dev⟩ := by
  rw [← s.paCall_breakLr a size a size]
  unfold paWrite paCall
  simp only
  cases (s.breakLr a size).locate a with
  | none => rfl
  | some t =>
    obtain ⟨n, e⟩ := t
    simp only [Option.bind_some]
    by_cases hh : holds e a size = true
    · rw [if_pos hh, if_pos hh]
      rfl
    · rw [if_neg hh, if_neg hh]
      rfl

end Systembus

/-- the call that the access should make -/
structure IsCall (s : Systembus δ) (a size : BitVec 64) (c : DevCall δ) : Prop where
  entry : s.devices[c.pos]? = some c.entry
  covers : Covers c.entry a size
  addr : c.addr = if c.entry.rawAddr then a else a - c.entry.first

/-- The end of the access wraps around, to an address up to the end of the last range that starts
at or below the access. -/
def WrapsInto (s : Systembus δ) (a size : BitVec 64) : Prop :=
  2 ^ 64 ≤ a.toNat + size.toNat ∧ ∃ e ∈ s.devices, e.lo ≤ a.toNat ∧
    (∀ e' ∈ s.devices, e'.lo ≤ a.toNat → e'.lo ≤ e.lo) ∧ a.toNat + size.toNat - 2 ^ 64 ≤ e.hi

theorem locate_iff (s : Systembus δ) (a : BitVec 64) (n : ℕ) (e : BusEntry δ) :
    s.locate a = some (n, e) ↔ s.devices[n]? = some e ∧
      (s.devices.takeWhile fun e => decide (e.lo ≤ a.toNat)).length = n + 1 := by
  have hu : s.upperBound (a, ulongMax) =
      (s.devices.takeWhile fun e => decide (e.lo ≤ a.toNat)).length :=
    congrArg (fun p => (s.devices.takeWhile p).length) (Systembus.keyUpTo_max a)
  unfold Systembus.locate
  rw [hu]
  cases hl : (s.devices.takeWhile fun e => decide (e.lo ≤ a.toNat)).length with
  | zero => simp
  | succ m =>
    simp only [Option.map_eq_some_iff, Prod.mk.injEq, Nat.succ.injEq]
    constructor
    · rintro ⟨e', he, rfl, rfl⟩
      exact ⟨he, rfl⟩
    · rintro ⟨he, rfl⟩
      exact ⟨e, he, rfl, rfl⟩

theorem holds_iff (e : BusEntry δ) (a size : BitVec 64) : Systembus.holds e a size = true ↔
    e.lo ≤ a.toNat ∧ (a.toNat + size.toNat) % 2 ^ 64 ≤ e.hi := by
  rw [Systembus.holds, Bool.and_eq_true, decide_eq_true_eq, decide_eq_true_eq, BitVec.le_def,
    BitVec.le_def, BitVec.toNat_add]
  rfl

theorem paCall_eq_some (s : Systembus δ) (a size : BitVec 64) (c : DevCall δ) :
    s.paCall a size = some c ↔ s.locate a = some (c.pos, c.entry) ∧
      Systembus.holds c.entry a size = true ∧ c.addr = Systembus.devAddr c.entry a := by
  unfold Systembus.paCall
  constructor
  · intro hc
    obtain ⟨t, ht, hif⟩ := Option.bind_eq_some_iff.mp hc
    split_ifs at hif with hh
    obtain rfl := Option.some.inj hif
    exact ⟨ht, hh, rfl⟩
  · rintro ⟨hl, hh, hd⟩
    rw [hl, Option.bind_some, if_pos hh, ← hd]

section
variable {s : Systembus δ} (h : Ranged s) {a size : BitVec 64}
include h

theorem locate_of_last {n : ℕ} {e : BusEntry δ} (he : s.devices[n]? = some e)
    (hlo : e.lo ≤ a.toNat) (hlast : ∀ e' ∈ s.devices, e'.lo ≤ a.toNat → e'.lo ≤ e.lo) :
    s.locate a = some (n, e) := by
  refine (locate_iff s a n e).mpr ⟨he, h.ascending.takeWhile_of_next he hlo fun b hb hle => ?_⟩
  by_contra hn
  have hlt := h.ascending.lt e (List.mem_of_getElem? he)
  have := hlast b hb (not_lt.mp hn)
  omega

theorem last_of_locate {n : ℕ} {e : BusEntry δ} (hl : s.locate a = some (n, e)) :
    s.devices[n]? = some e ∧ e.lo ≤ a.toNat ∧
      ∀ e' ∈ s.devices, e'.lo ≤ a.toNat → e'.lo ≤ e.lo := by
  obtain ⟨he, hn⟩ := (locate_iff s a n e).mp hl
  exact ⟨he, lo_le_of_takeWhile he hn, h.ascending.le_of_takeWhile he hn⟩

/-- The remainder by the length is the distance from the start, which is a multiple of it. -/
theorem devAddr_eq {e : BusEntry δ} (he : e ∈ s.devices) (hlo : e.lo ≤ a.toNat)
    (hhi : a.toNat < e.hi) :
    Systembus.devAddr e a = if e.rawAddr then a else a - e.first := by
  have hle : e.first.toNat ≤ e.second.toNat := (h.ascending.lt e he).le
  have hlen : (e.second - e.first).toNat = e.second.toNat - e.first.toNat :=
    BitVec.toNat_sub_of_le (BitVec.le_def.mpr hle)
  have hal : e.first.toNat % (e.second.toNat - e.first.toNat) = 0 := by
    have h0 := congrArg BitVec.toNat (h.aligned e he)
    rwa [BitVec.toNat_umod, hlen] at h0
  have hmod : a % (e.second - e.first) = a - e.first := by
    apply BitVec.eq_of_toNat_eq
    obtain ⟨q, hq⟩ := Nat.dvd_of_mod_eq_zero hal
    have hd : a.toNat = (a.toNat - e.first.toNat) + (e.second.toNat - e.first.toNat) * q := by
      rw [← hq]
      exact (Nat.sub_add_cancel hlo).symm
    rw [BitVec.toNat_umod, hlen, BitVec.toNat_sub_of_le (BitVec.le_def.mpr hlo), hd,
      Nat.add_mul_mod_self_left, ← hd, Nat.mod_eq_of_lt]
    exact Nat.sub_lt_sub_right hlo hhi
  unfold Systembus.devAddr
  rw [hmod]

/-- Without wrap-around the comparison of the ends is exact. -/
theorem isCall_of_paCall (hs : 1 ≤ size.toNat) (hw : ¬ WrapsInto s a size) {c : DevCall δ}
    (hc : s.paCall a size = some c) : IsCall s a size c := by
  obtain ⟨hl, hh, hd⟩ := (paCall_eq_some s a size c).mp hc
  obtain ⟨he, hlo, hlast⟩ := last_of_locate h hl
  have hmem := List.mem_of_getElem? he
  have hend := ((holds_iff _ _ _).mp hh).2
  have hnw : a.toNat + size.toNat < 2 ^ 64 := by
    by_contra hge
    have hsize := size.isLt
    have ha := a.isLt
    have hmod : (a.toNat + size.toNat) % 2 ^ 64 = a.toNat + size.toNat - 2 ^ 64 := by omega
    exact hw ⟨not_lt.mp hge, c.entry, hmem, hlo, hlast, hmod ▸ hend⟩
  rw [Nat.mod_eq_of_lt hnw] at hend
  refine ⟨he, (covers_iff _ _ hs).mpr ⟨hlo, hend⟩, ?_⟩
  rw [hd, devAddr_eq h hmem hlo (by omega)]

theorem paCall_of_isCall (hs : 1 ≤ size.toNat) {c : DevCall δ} (hc : IsCall s a size c) :
    s.paCall a size = some c := by
  obtain ⟨he, hcov, hd⟩ := hc
  obtain ⟨hlo, hend⟩ := (covers_iff _ _ hs).mp hcov
  have hmem := List.mem_of_getElem? he
  have hhi : c.entry.hi < 2 ^ 64 := c.entry.second.isLt
  have hin : a.toNat < c.entry.hi := by omega
  refine (paCall_eq_some s a size c).mpr ⟨(locate_iff s a _ _).mpr ⟨he, ?_⟩, ?_, ?_⟩
  · exact h.ascending.takeWhile_of_mem he hlo hin
  · rw [holds_iff, Nat.mod_eq_of_lt (by omega)]
    exact ⟨hlo, hend⟩
  · rw [hd, devAddr_eq h hmem hlo hin]

/-- **An access calls the device whose range holds all its bytes, and no other, unless it wraps
around into a range.** -/
theorem paCall_iff (hs : 1 ≤ size.toNat) :
    (∀ c, s.paCall a size = some c ↔ IsCall s a size c) ↔ ¬ WrapsInto s a size := by
  constructor
  · rintro hall ⟨hge, e, hmem, hlo, hlast, hend⟩
    obtain ⟨n, he⟩ := List.getElem?_of_mem hmem
    have hsize := size.isLt
    have ha := a.isLt
    have hh : Systembus.holds e a size = true := by
      rw [holds_iff]
      exact ⟨hlo, by omega⟩
    have hc := (hall ⟨n, e, Systembus.devAddr e a⟩).mp ((paCall_eq_some s a size _).mpr
      ⟨locate_of_last h he hlo hlast, hh, rfl⟩)
    have hcov := ((covers_iff _ _ hs).mp hc.covers).2
    have hhi : e.hi < 2 ^ 64 := e.second.isLt
    exact absurd (hcov.trans_lt hhi) (not_lt.mpr hge)
  · exact fun hw c => ⟨isCall_of_paCall h hs hw, paCall_of_isCall h hs⟩

end

/-! ## sequences of add_dev -/

/-- the arguments of `add_dev` -/
structure AddCall (δ : Type) where
  startAddr : BitVec 64
  length : BitVec 64
  dev : δ
  rawAddr : Bool

/-- a range that is not empty and does not wrap around -/
def AddCall.Fits (c : AddCall δ) : Prop :=
  0 < c.length.toNat ∧ c.startAddr.toNat + c.length.toNat ≤ 2 ^ 64 - 1

/-- `add_dev`, which leaves the map alone when it returns `false` -/
def Systembus.tryAdd (s : Systembus δ) (c : AddCall δ) : Systembus δ :=
  (s.addDev c.startAddr c.length c.dev c.rawAddr).getD s

theorem ranged_tryAdd {s : Systembus δ} (h : Ranged s) {c : AddCall δ} (hc : c.Fits) :
    Ranged (s.tryAdd c) := by
  have hw : c.startAddr.toNat + c.length.toNat < 2 ^ 64 := by
    have := hc.2
    omega
  unfold Systembus.tryAdd
  cases hs : s.addDev c.startAddr c.length c.dev c.rawAddr with
  | none => exact h
  | some s' => exact Systembus.ranged_addDev h hc.1 hw _ _ hs

theorem ranged_calls {calls : List (AddCall δ)} (hc : ∀ c ∈ calls, c.Fits) {s : Systembus δ}
    (h : Ranged s) : Ranged (calls.foldl Systembus.tryAdd s) := by
  induction calls generalizing s with
  | nil => exact h
  | cons c calls ih =>
    exact ih (fun c' hc' => hc c' (List.mem_cons_of_mem c hc'))
      (ranged_tryAdd h (hc c List.mem_cons_self))

/-- an address in the range of the entry -/
def BusEntry.Has (e : BusEntry δ) (x : ℕ) : Prop := e.lo ≤ x ∧ x < e.hi

variable [MmioDev δ]

end

/-- the `add_dev` of `riscv_test_run` -/
def ramCalls : List (AddCall MmioMem) := [⟨RAM_START, RAM_LENGTH, ramDev fun _ => 0, false⟩]

theorem ramCalls_fit : ∀ c ∈ ramCalls, c.Fits := by
  simp only [ramCalls, List.mem_singleton, forall_eq]
  exact ⟨by decide, by decide⟩

end HduCpu
