import HduCpu.Ref.Dispatch

/-!
# Bytes of the memories behind the bus

Where an access of the bus falls when all devices are memories, and that accesses to different
bytes do not disturb each other.

* `Touches`                common addresses of two accesses;
* `MmioMem.place`, `Systembus.cells`   the memory and the offset that an access falls on;
* `paRead_cells`, `paWrite_cells`      `pa_read` and `pa_write` on them;
* `Reaches`                common bytes of a memory, which may wrap around;
* `paRead_setBytes`        the frame of a write.
-/

namespace HduCpu

/-- a range of addresses: its start and its length -/
abbrev Span := BitVec 64 × BitVec 64

/-- the spans have a byte in common -/
def Touches (w r : Span) : Prop :=
  ∃ x, (w.1.toNat ≤ x ∧ x < w.1.toNat + w.2.toNat) ∧ r.1.toNat ≤ x ∧ x < r.1.toNat + r.2.toNat

/-! ## memories -/

/-- the offset at which an access falls in the memory -/
def MmioMem.place (m : MmioMem) (a size : BitVec 64) : Option ℕ :=
  if a + size ≤ m.memSize then some a.toNat
  else if m.allowWarp then
    if a % m.memSize + size ≤ m.memSize then some (a % m.memSize).toNat else none
  else none

namespace MmioMem
variable (m : MmioMem) (a size b : BitVec 64)

theorem doRead_place : MmioDev.doRead m a size b = (m.place a size).elim ⟨false, b, m⟩
    fun o => ⟨true, copyLow b size.toNat (peek m.mem o size.toNat), m⟩ := by
  show m.doRead a size b = _
  simp only [doRead, place]
  split_ifs <;> rfl

theorem doWrite_place : MmioDev.doWrite m a size b = (m.place a size).elim ⟨false, m⟩
    fun o => ⟨true, { m with mem := poke m.mem o size.toNat b }⟩ := by
  show m.doWrite a size b = _
  simp only [doWrite, place]
  split_ifs <;> rfl

end MmioMem

/-- the offset of an access in the memory of the entry -/
def BusEntry.place (e : BusEntry MmioMem) (a size : BitVec 64) : Option ℕ :=
  if Systembus.holds e a size then e.dev.place (Systembus.devAddr e a) size else none

/-- the entry with other contents of its memory -/
def BusEntry.setMem (mem : Bytes) (e : BusEntry MmioMem) : BusEntry MmioMem :=
  { e with dev := { e.dev with mem := mem } }

namespace Systembus
variable (s : Systembus MmioMem) (a size b : BitVec 64)

/-- the memory that an access falls in, by its position, and the offset there -/
def cells : Option (ℕ × ℕ) :=
  (s.locate a).bind fun t => (t.2.place a size).map fun o => (t.1, o)

/-- the contents of the memory at position `n` -/
def bytesAt (n : ℕ) : Bytes := (s.devices[n]?).elim (fun _ => 0) fun e => e.dev.mem

def setBytes (n : ℕ) (mem : Bytes) : Systembus MmioMem :=
  { s with devices := s.devices.modify n (BusEntry.setMem mem) }

theorem paCall_cells : s.cells a size =
    (s.paCall a size).bind fun c => (c.entry.dev.place c.addr size).map fun o => (c.pos, o) := by
  unfold cells paCall
  cases s.locate a with
  | none => rfl
  | some t =>
    rw [Option.bind_some, Option.bind_some, BusEntry.place]
    split_ifs <;> rfl

theorem setDev_eq {n : ℕ} {e : BusEntry MmioMem} (he : s.devices[n]? = some e) (mem : Bytes) :
    s.setDev n e { e.dev with mem := mem } = s.setBytes n mem := by
  unfold setDev setBytes
  congr 1
  apply List.ext_getElem?
  intro i
  rw [List.getElem?_set, List.getElem?_modify]
  by_cases hi : n = i
  · subst hi
    have hn := (List.getElem?_eq_some_iff.mp he).1
    rw [if_pos rfl, if_pos hn, he]
    simp [BusEntry.setMem]
  · rw [if_neg hi]
    simp [hi]

theorem setBytes_self {n : ℕ} {e : BusEntry MmioMem} (he : s.devices[n]? = some e) :
    s.setBytes n e.dev.mem = s := by
  unfold setBytes
  congr 1
  apply List.ext_getElem?
  intro i
  rw [List.getElem?_modify]
  by_cases hi : n = i
  · subst hi
    rw [he]
    simp [BusEntry.setMem]
  · simp [hi]

theorem paRead_cells : s.paRead a size b = (s.cells a size).elim ⟨false, b, s⟩ fun t =>
    ⟨true, copyLow b size.toNat (peek (s.bytesAt t.1) t.2 size.toNat), s⟩ := by
  rw [paRead_call, paCall_cells]
  cases hc : s.paCall a size with
  | none => rfl
  | some c =>
    have he := ((locate_iff s a _ _).mp ((paCall_eq_some s a size c).mp hc).1).1
    have hself : s.callDev c c.entry.dev = s :=
      (s.setDev_eq he c.entry.dev.mem).trans (s.setBytes_self he)
    have hbytes : s.bytesAt c.pos = c.entry.dev.mem := by
      rw [bytesAt, he]
      rfl
    rw [Option.elim_some, Option.bind_some, MmioMem.doRead_place]
    cases c.entry.dev.place c.addr size with
    | none => exact congrArg _ hself
    | some o =>
      simp only [Option.elim_some, Option.map_some, hself, hbytes]

theorem paWrite_cells : s.paWrite a size b =
    (s.cells a size).elim ⟨false, s.breakLr a size⟩ fun t =>
      ⟨true, (s.breakLr a size).setBytes t.1 (poke (s.bytesAt t.1) t.2 size.toNat b)⟩ := by
  rw [paWrite_call, paCall_cells]
  cases hc : s.paCall a size with
  | none => rfl
  | some c =>
    have he := ((locate_iff s a _ _).mp ((paCall_eq_some s a size c).mp hc).1).1
    have he' : (s.breakLr a size).devices[c.pos]? = some c.entry := by
      rw [← he]
      unfold breakLr
      split_ifs <;> rfl
    have hself : (s.breakLr a size).callDev c c.entry.dev = s.breakLr a size :=
      (setDev_eq _ he' c.entry.dev.mem).trans (setBytes_self _ he')
    have hbytes : s.bytesAt c.pos = c.entry.dev.mem := by
      rw [bytesAt, he]
      rfl
    rw [Option.elim_some, Option.bind_some, MmioMem.doWrite_place]
    cases c.entry.dev.place c.addr size with
    | none => exact congrArg _ hself
    | some o =>
      simp only [Option.elim_some, Option.map_some, hbytes]
      exact congrArg _ (setDev_eq _ he' _)

/-! ## frames -/

theorem locate_setBytes (n : ℕ) (mem : Bytes) : (s.setBytes n mem).locate a =
    (s.locate a).map fun t => (t.1, if t.1 = n then t.2.setMem mem else t.2) := by
  have hkeys : (s.devices.modify n (BusEntry.setMem mem)).map (fun e => (e.first, e.second)) =
      s.devices.map fun e => (e.first, e.second) := by
    apply List.ext_getElem?
    intro i
    rw [List.getElem?_map, List.getElem?_map, List.getElem?_modify]
    cases s.devices[i]? with
    | none => rfl
    | some e =>
      by_cases hi : n = i
      · simp [hi, BusEntry.setMem]
      · simp [hi]
  have hupper : ∀ key, (s.setBytes n mem).upperBound key = s.upperBound key := by
    intro key
    have hmap : ∀ l : List (BusEntry MmioMem),
        (l.takeWhile fun e => !keyLt key (e.first, e.second)).length =
          ((l.map fun e => (e.first, e.second)).takeWhile fun k => !keyLt key k).length := by
      intro l
      rw [List.takeWhile_map, List.length_map]
      rfl
    exact (hmap _).trans ((congrArg _ (congrArg _ hkeys)).trans (hmap _).symm)
  unfold locate
  rw [hupper]
  cases s.upperBound (a, ulongMax) with
  | zero => rfl
  | succ m =>
    simp only [setBytes, List.getElem?_modify]
    cases s.devices[m]? with
    | none => rfl
    | some e =>
      by_cases hi : n = m
      · simp [hi]
      · simp [hi, Ne.symm hi]

/-- Positions and offsets do not depend on the contents of the memories. -/
theorem cells_setBytes (n : ℕ) (mem : Bytes) : (s.setBytes n mem).cells a size = s.cells a size := by
  unfold cells
  rw [locate_setBytes]
  cases s.locate a with
  | none => rfl
  | some t =>
    rw [Option.map_some, Option.bind_some, Option.bind_some]
    by_cases ht : t.1 = n
    · rw [if_pos ht]
      rfl
    · rw [if_neg ht]

theorem bytesAt_setBytes {n : ℕ} {e : BusEntry MmioMem} (he : s.devices[n]? = some e) (i : ℕ)
    (mem : Bytes) : (s.setBytes n mem).bytesAt i = if i = n then mem else s.bytesAt i := by
  simp only [bytesAt, setBytes, List.getElem?_modify]
  by_cases hi : i = n
  · subst hi
    rw [he, if_pos rfl]
    simp [BusEntry.setMem]
  · simp [hi, Ne.symm hi]

variable {s} in
theorem entry_of_cells {t : ℕ × ℕ} (h : s.cells a size = some t) :
    ∃ e, s.devices[t.1]? = some e := by
  obtain ⟨u, hu, hm⟩ := Option.bind_eq_some_iff.mp h
  obtain ⟨o, -, rfl⟩ := Option.map_eq_some_iff.mp hm
  exact ⟨u.2, ((locate_iff s a u.1 u.2).mp hu).1⟩

end Systembus

/-- the write falls on a byte of the memory in which `r` falls -/
def Reaches (s : Systembus MmioMem) (w r : Span) : Prop :=
  ∃ n o o' x, s.cells w.1 w.2 = some (n, o) ∧ s.cells r.1 r.2 = some (n, o') ∧
    (o ≤ x ∧ x < o + w.2.toNat) ∧ o' ≤ x ∧ x < o' + r.2.toNat

/-- common addresses, or common bytes of a memory that wraps around -/
def TouchesMem (s : Systembus MmioMem) (w r : Span) : Prop := Touches w r ∨ Reaches s w r

/-- **A write elsewhere leaves the bytes as they are.** -/
theorem paRead_setBytes {s : Systembus MmioMem} {w r : Span} {t : ℕ × ℕ}
    (hw : s.cells w.1 w.2 = some t) (hr : ¬ Reaches s w r) (v b : BitVec 64) :
    ((s.setBytes t.1 (poke (s.bytesAt t.1) t.2 w.2.toNat v)).paRead r.1 r.2 b).buffer =
      (s.paRead r.1 r.2 b).buffer := by
  obtain ⟨e, he⟩ := Systembus.entry_of_cells _ _ hw
  rw [Systembus.paRead_cells, Systembus.paRead_cells, Systembus.cells_setBytes]
  cases hc : s.cells r.1 r.2 with
  | none => rw [Option.elim_none, Option.elim_none]
  | some u =>
    rw [Option.elim_some, Option.elim_some]
    simp only
    rw [peek_congr fun x h₁ h₂ => ?_]
    rw [s.bytesAt_setBytes he]
    by_cases hu : u.1 = t.1
    · rw [if_pos hu, hu]
      refine poke_outside _ _ ?_
      by_contra hx
      obtain ⟨hx₁, hx₂⟩ := not_or.mp hx
      exact hr ⟨t.1, t.2, u.2, x, hw, hu ▸ hc, ⟨not_lt.mp hx₁, not_le.mp hx₂⟩, h₁, h₂⟩
    · rw [if_neg hu]

/-- What is read depends on the devices only. -/
theorem paRead_congr {s s' : Systembus MmioMem} (h : s'.devices = s.devices) (a size b : BitVec 64) :
    (s'.paRead a size b).buffer = (s.paRead a size b).buffer := by
  obtain ⟨p, z, hart, v, devices⟩ := s
  obtain ⟨p', z', hart', v', devices'⟩ := s'
  obtain rfl : devices = devices' := h.symm
  have hc : Systembus.cells ⟨p', z', hart', v', devices⟩ a size =
    Systembus.cells ⟨p, z, hart, v, devices⟩ a size := rfl
  rw [Systembus.paRead_cells, Systembus.paRead_cells, hc]
  cases Systembus.cells ⟨p, z, hart, v, devices⟩ a size <;> rfl

/-- What a write does to the devices. -/
theorem paWrite_effect (s : Systembus MmioMem) (a size v : BitVec 64) :
    (s.paWrite a size v).bus.devices = s.devices ∨ ∃ t, (s.paWrite a size v).ok = true ∧
      s.cells a size = some t ∧ (s.paWrite a size v).bus.devices =
        (s.setBytes t.1 (poke (s.bytesAt t.1) t.2 size.toNat v)).devices := by
  have hb : (s.breakLr a size).devices = s.devices := by
    unfold Systembus.breakLr
    split_ifs <;> rfl
  rw [Systembus.paWrite_cells]
  cases s.cells a size with
  | none => exact .inl hb
  | some t =>
    refine .inr ⟨t, rfl, rfl, ?_⟩
    rw [Option.elim_some]
    simp only [Systembus.setBytes, hb]

theorem paRead_bus_mem (s : Systembus MmioMem) (a size b : BitVec 64) :
    (s.paRead a size b).bus = s := by
  rw [Systembus.paRead_cells]
  cases s.cells a size with
  | none => rw [Option.elim_none]
  | some t => rw [Option.elim_some]

/-- A `pa_lr` reads, and leaves the devices as they are. -/
theorem paLr_effect (s : Systembus MmioMem) (a size b hart : BitVec 64) :
    (s.paLr a size b hart).bus.devices = s.devices ∧
      (s.paLr a size b hart).buffer = (s.paRead a size b).buffer := by
  unfold Systembus.paLr
  have hd : { s with lrPa := a, lrSize := size, lrValid := true, lrHart := hart }.devices =
    s.devices := rfl
  refine ⟨?_, paRead_congr hd a size b⟩
  rw [paRead_bus_mem]

end HduCpu
