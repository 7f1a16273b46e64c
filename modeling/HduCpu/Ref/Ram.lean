import HduCpu.Ref.Envelope

/-!
# The reference with one memory

`riscv_test_run` of `sim_mycpu.cpp` gives the reference a single device, 128 MB of memory mapped
at `0x80000000`, and starts it there.

* `ramEntry`, `OnRam`      the only device; `satp` is zero;
* `paRead_ram`, `paWrite_ram`   accesses inside the memory;
* `RvCore.boots`, `refMachine`   a program loaded at the start, run under arbitrary interrupt lines;
* `reach_onRam`            in every run `satp` stays zero, so that data accesses are never
                           translated, and the bus keeps its only device.
-/

namespace HduCpu

/-! ## one device -/

/-- the first address of the memory -/
def RAM_START : BitVec 64 := 0x80000000

/-- the length of the range it is mapped to -/
def RAM_LENGTH : BitVec 64 := 0x80000000

/-- `128 * 1024 * 1024` -/
def RAM_SIZE : BitVec 64 := 0x8000000

def ramDev (mem : Bytes) : MmioMem := ⟨mem, RAM_SIZE, false⟩

def ramEntry (mem : Bytes) : BusEntry MmioMem :=
  ⟨RAM_START, RAM_START + RAM_LENGTH, ramDev mem, false⟩

@[simp] theorem ramEntry_mem (mem : Bytes) : (ramEntry mem).dev.mem = mem := rfl

/-- The registers of the reservation are not initialised but for `lr_valid`. -/
def Systembus.empty (lrPa lrSize lrHart : BitVec 64) : Systembus MmioMem :=
  ⟨lrPa, lrSize, lrHart, false, []⟩

theorem addDev_ram (mem : Bytes) (lrPa lrSize lrHart : BitVec 64) :
    (Systembus.empty lrPa lrSize lrHart).addDev RAM_START RAM_LENGTH (ramDev mem) false =
      some ⟨lrPa, lrSize, lrHart, false, [ramEntry mem]⟩ := rfl

/-- an access inside the memory -/
def InRam (a size : BitVec 64) : Prop :=
  RAM_START ≤ a ∧ a.toNat + size.toNat ≤ (RAM_START + RAM_SIZE).toNat

/-- the position in the memory -/
def ramIndex (a : BitVec 64) : ℕ := a.toNat - RAM_START.toNat

section
variable {bus : Systembus MmioMem} {mem : Bytes} (h : bus.devices = [ramEntry mem])
include h

theorem locate_ram (a : BitVec 64) :
    bus.locate a = if RAM_START ≤ a then some (0, ramEntry mem) else none := by
  have hk : keyLt (a, ulongMax) (RAM_START, RAM_START + RAM_LENGTH) = !decide (RAM_START ≤ a) := by
    have hu : (ulongMax < RAM_START + RAM_LENGTH) = False := by decide
    simp only [keyLt, hu, decide_false, Bool.and_false, Bool.or_false]
    rw [← decide_not]
    exact decide_eq_decide.mpr BitVec.not_le.symm
  unfold Systembus.locate Systembus.upperBound
  rw [h]
  by_cases ha : RAM_START ≤ a
  · simp [List.takeWhile, ramEntry, hk, ha]
  · simp [List.takeWhile, ramEntry, hk, ha]

theorem setDev_ram (mem' : Bytes) :
    (bus.setDev 0 (ramEntry mem) (ramDev mem')).devices = [ramEntry mem'] := by
  simp [Systembus.setDev, h, ramEntry]

theorem setDev_ram_self : bus.setDev 0 (ramEntry mem) (ramDev mem) = bus := by
  unfold Systembus.setDev
  rw [h]
  cases bus
  simp_all [ramEntry]

/-- Reading leaves the memory as it is. -/
theorem paRead_bus (a size b : BitVec 64) : (bus.paRead a size b).bus = bus := by
  have hdev : ∀ x, (MmioDev.doRead (ramDev mem) x size b).dev = ramDev mem := by
    intro x
    show (MmioMem.doRead _ x size b).dev = _
    simp only [MmioMem.doRead]
    split_ifs <;> rfl
  unfold Systembus.paRead
  rw [locate_ram h]
  by_cases ha : RAM_START ≤ a
  · rw [if_pos ha]
    show (if _ then _ else _ : BusRead MmioMem).bus = bus
    split_ifs
    · exact (congrArg _ (hdev _)).trans (setDev_ram_self h)
    · rfl
  · rw [if_neg ha]

/-- Writing changes only the contents of the memory. -/
theorem paWrite_devices (a size b : BitVec 64) :
    ∃ mem', (bus.paWrite a size b).bus.devices = [ramEntry mem'] := by
  have hdev : ∀ x, ∃ mem', (MmioDev.doWrite (ramDev mem) x size b).dev = ramDev mem' := by
    intro x
    show ∃ mem', (MmioMem.doWrite _ x size b).dev = _
    simp only [MmioMem.doWrite]
    split_ifs
    all_goals exact ⟨_, rfl⟩
  have hb : (bus.breakLr a size).devices = [ramEntry mem] := by
    unfold Systembus.breakLr
    split_ifs <;> exact h
  unfold Systembus.paWrite
  simp only [locate_ram hb]
  by_cases ha : RAM_START ≤ a
  · rw [if_pos ha]
    simp only
    split_ifs
    · obtain ⟨mem', hm⟩ := hdev (Systembus.devAddr (ramEntry mem) a)
      exact ⟨mem', (congrArg (fun d => (Systembus.setDev _ 0 _ d).devices) hm).trans
        (setDev_ram hb mem')⟩
    · exact ⟨mem, hb⟩
  · rw [if_neg ha]
    exact ⟨mem, hb⟩

end

/-! ## accesses inside the memory -/

section
variable {a size : BitVec 64} (hr : InRam a size)
include hr

theorem InRam.holds (mem : Bytes) : Systembus.holds (ramEntry mem) a size = true := by
  obtain ⟨h₁, h₂⟩ := hr
  have e : (RAM_START + RAM_SIZE).toNat = 0x88000000 := by decide
  have e' : (RAM_START + RAM_LENGTH).toNat = 0x100000000 := by decide
  rw [e] at h₂
  have h₃ : a + size ≤ RAM_START + RAM_LENGTH := by
    rw [BitVec.le_def, e', BitVec.toNat_add]
    omega
  simp [Systembus.holds, ramEntry, h₁, h₃]

theorem InRam.devAddr (mem : Bytes) :
    (Systembus.devAddr (ramEntry mem) a).toNat = ramIndex a := by
  obtain ⟨h₁, h₂⟩ := hr
  have e : (RAM_START + RAM_SIZE).toNat = 0x88000000 := by decide
  have e' : (RAM_START + RAM_LENGTH - RAM_START).toNat = 0x80000000 := by decide
  have e'' : RAM_START.toNat = 0x80000000 := by decide
  rw [e] at h₂
  rw [BitVec.le_def, e''] at h₁
  show (a % (RAM_START + RAM_LENGTH - RAM_START)).toNat = _
  rw [BitVec.toNat_umod, e', ramIndex, e'']
  omega

theorem InRam.inside (mem : Bytes) :
    Systembus.devAddr (ramEntry mem) a + size ≤ (ramDev mem).memSize := by
  have hd := hr.devAddr mem
  obtain ⟨h₁, h₂⟩ := hr
  have e : (RAM_START + RAM_SIZE).toNat = 0x88000000 := by decide
  have e' : (ramDev mem).memSize.toNat = 0x8000000 := by rfl
  have e'' : RAM_START.toNat = 0x80000000 := by decide
  rw [e] at h₂
  rw [BitVec.le_def, e''] at h₁
  rw [ramIndex, e''] at hd
  rw [BitVec.le_def, e', BitVec.toNat_add, hd]
  omega

theorem paRead_ram {bus : Systembus MmioMem} {mem : Bytes} (h : bus.devices = [ramEntry mem])
    (b : BitVec 64) : bus.paRead a size b =
      ⟨true, copyLow b size.toNat (peek mem (ramIndex a) size.toNat), bus⟩ := by
  have hread : MmioDev.doRead (ramDev mem) (Systembus.devAddr (ramEntry mem) a) size b =
      ⟨true, copyLow b size.toNat (peek mem (ramIndex a) size.toNat), ramDev mem⟩ := by
    show MmioMem.doRead _ _ _ _ = _
    simp only [MmioMem.doRead, hr.inside mem, if_true, hr.devAddr mem]
    rfl
  have hl : bus.locate a = some (0, ramEntry mem) := by rw [locate_ram h, if_pos hr.1]
  unfold Systembus.paRead
  simp only [hl, hr.holds mem, if_true]
  rw [show (ramEntry mem).dev = ramDev mem from rfl, hread, setDev_ram_self h]

theorem paWrite_ram {bus : Systembus MmioMem} {mem : Bytes} (h : bus.devices = [ramEntry mem])
    (b : BitVec 64) : (bus.paWrite a size b).ok = true ∧
      (bus.paWrite a size b).bus.devices = [ramEntry (poke mem (ramIndex a) size.toNat b)] := by
  have hwrite : MmioDev.doWrite (ramDev mem) (Systembus.devAddr (ramEntry mem) a) size b =
      ⟨true, ramDev (poke mem (ramIndex a) size.toNat b)⟩ := by
    show MmioMem.doWrite _ _ _ _ = _
    simp only [MmioMem.doWrite, hr.inside mem, if_true, hr.devAddr mem]
    rfl
  have hb : (bus.breakLr a size).devices = [ramEntry mem] := by
    unfold Systembus.breakLr
    split_ifs <;> exact h
  have hl : (bus.breakLr a size).locate a = some (0, ramEntry mem) := by
    rw [locate_ram hb, if_pos hr.1]
  unfold Systembus.paWrite
  simp only [hl, hr.holds mem, if_true]
  rw [show (ramEntry mem).dev = ramDev mem from rfl, hwrite]
  exact ⟨rfl, setDev_ram hb _⟩

end

/-! ## address translation stays off -/

section
variable {δ : Type} [MmioDev δ] {p : RvPriv} (h : p.bare = true) (bus : Systembus δ)
include h

theorem RvPriv.vaRead_bare (a size b : BitVec 64) : p.vaRead bus a size b =
    .ok ⟨if (bus.paRead a size b).ok then RvExcCode.customOk else RvExcCode.loadAccFault,
      (bus.paRead a size b).buffer, p, (bus.paRead a size b).bus⟩ := by
  unfold RvPriv.vaRead
  rw [RvPriv.vaAccess_bare bus h]
  rfl

theorem RvPriv.vaWrite_bare (flags : Flags) (a size b : BitVec 64) :
    p.vaWrite bus flags a size b = (do
      let r ← RvPriv.storeOrExit flags size b bus a
      .ok ⟨if r.ok then RvExcCode.customOk else RvExcCode.storeAccFault, r.buffer, p, r.bus⟩) := by
  unfold RvPriv.vaWrite
  rw [RvPriv.vaAccess_bare bus h]

end

/-- `satp` is zero and the memory is the only device. -/
def OnRam (p : RvPriv) (bus : Systembus MmioMem) : Prop :=
  p.satp = 0 ∧ ∃ mem, bus.devices = [ramEntry mem]

/-- No access changes the range or the size of the memory. -/
theorem kept_ram : Kept fun bus : Systembus MmioMem => ∃ mem, bus.devices = [ramEntry mem] where
  read := by
    rintro s ⟨mem, hm⟩ a size b
    exact ⟨mem, (congrArg _ (paRead_bus hm a size b)).trans hm⟩
  write := by
    rintro s ⟨mem, hm⟩ a size b
    exact paWrite_devices hm a size b
  reserve := fun h _ _ _ _ => h

/-! ## runs -/

namespace RvCore

/-- A core that is set up with one memory; `jump` and `set_GPR` choose the pc and the registers. -/
def Boot (flags : Flags) (c : RvCore MmioMem) : Prop :=
  ∃ hartId sv39 ext0 bus mem pc regs, bus.devices = [ramEntry mem] ∧
    c = { init flags hartId sv39 ext0 bus with pc := pc, GPR := regs }

/-- the reference as `riscv_test_run` sets it up, what is not initialised being zero -/
def boot (flags : Flags) (mem : Bytes) (pc : BitVec 64) (regs : BitVec 5 → BitVec 64) :
    RvCore MmioMem :=
  { init flags 0 ⟨⟨0, Nat.zero_lt_succ 31⟩,
        fun _ => ⟨0, 0, 0, 0, false, false, false, false, false, false, false⟩⟩ 0
      ⟨0, 0, 0, false, [ramEntry mem]⟩ with pc := pc, GPR := regs }

theorem boot_boot (flags : Flags) (mem : Bytes) (pc : BitVec 64) (regs : BitVec 5 → BitVec 64) :
    Boot flags (boot flags mem pc regs) :=
  ⟨_, _, _, _, mem, pc, regs, rfl, rfl⟩

end RvCore

/-- the flags of a riscv-test, with user mode -/
def testFlags : Flags := ⟨true, false⟩

def RvLines.low : RvLines := ⟨false, false, false, false⟩

/-- a program at the start of the memory -/
def progBytes (prog : List (BitVec 32)) : Bytes := fun k =>
  (prog.getD (k / 4) 0).extractLsb' (8 * (k % 4)) 8

/-- the reference about to execute the program -/
def RvCore.boots (prog : List (BitVec 32)) : RvCore MmioMem :=
  .boot testFlags (progBytes prog) RAM_START fun _ => 0

/-- `step` under arbitrary interrupt lines, until the simulation ends -/
def refMachine (flags : Flags) : Clocked (Except Halt (RvCore MmioMem)) RvLines where
  init s := ∃ c, RvCore.Boot flags c ∧ s = .ok c
  next i s := do
    let c ← s
    c.exec flags i.meip i.msip i.mtip i.seip

theorem refMachine_inside (flags : Flags) : (refMachine flags).Invariant
    (Ends (Inside fun bus => ∃ mem, bus.devices = [ramEntry mem]) fun _ => True) where
  base := by
    rintro s ⟨c, ⟨hartId, sv39, ext0, bus, mem, pc, regs, hb, rfl⟩, rfl⟩
    exact ⟨envelope_init flags hartId sv39 ext0, ⟨mem, hb⟩, rfl⟩
  step i s hs := hs.bind fun c hc =>
    (RvCore.exec_ends kept_ram hc flags i).mono (fun _ h => h) fun _ _ => trivial

/-- **No run of the reference leaves the untranslated mode or loses its memory.** -/
theorem reach_onRam {flags : Flags} {c : RvCore MmioMem} (h : (refMachine flags).Reach (.ok c)) :
    OnRam c.priv c.bus := by
  have hi := (refMachine_inside flags).reach h
  exact ⟨hi.env.satp, hi.bus⟩

end HduCpu
