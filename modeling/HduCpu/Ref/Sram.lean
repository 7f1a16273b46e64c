import HduCpu.Cpu.Defines
import HduCpu.Ref.Ram

/-!
# The SRAM of the processor

`nscscc_sram_slave.hpp` and `nscscc_sram_xbar.hpp`: the memory behind the two ports.

* `strbToRange`            the ranges of ones of a strobe;
* `SramXbar.doRead`, `doWrite`   one transfer with the device that `locate` finds; where there is
                           none, the first four bytes of the buffer become `0xdec0dee3`;
* `SramXbar.instChannel`, `dataChannel`   the fetch, and the writes and the read, of one cycle;
* `sramOf`                 the one memory of `riscv_test_run`;
* `dataChannel_sram`       inside it the selected bytes are written and the double word is read.
-/

namespace HduCpu

/-! ## strobes -/

/-- the end of the run of ones that `r` is in; the first argument is fuel -/
def strbRunEnd (wen : BitVec 8) : ℕ → ℕ → ℕ
  | 0, r => r
  | fuel + 1, r => if wen.getLsbD r && r < 8 then strbRunEnd wen fuel (r + 1) else r

/-- the loop of `strb_to_range` from `l` on -/
def strbToRangeFrom (wen : BitVec 8) : ℕ → ℕ → List (ℕ × ℕ)
  | 0, _ => []
  | fuel + 1, l =>
    if l < 8 then
      if wen.getLsbD l then
        let r := strbRunEnd wen 8 l
        (l, r - l) :: strbToRangeFrom wen fuel (r + 1)
      else strbToRangeFrom wen fuel (l + 1)
    else []

/-- first bit and length of each run of ones; both loops advance at most eight times -/
def strbToRange (wen : BitVec 8) : List (ℕ × ℕ) := strbToRangeFrom wen 8 0

theorem strbToRange_fits {wen : BitVec 8} {r : ℕ × ℕ} (h : r ∈ strbToRange wen) : r.1 + r.2 ≤ 8 := by
  have key : ∀ w : BitVec 8, ∀ r ∈ strbToRange w, r.1 + r.2 ≤ 8 := by decide +kernel
  exact key wen r h

/-- **The ranges of a strobe cover exactly its ones.** -/
theorem strbToRange_any (wen : BitVec 8) (i : ℕ) :
    (strbToRange wen).any (inRange i) = wen.getLsbD i := by
  by_cases hi : i < 8
  · have key : ∀ (w : BitVec 8) (j : Fin 8), (strbToRange w).any (inRange j) = w.getLsbD j := by
      decide +kernel
    exact key wen ⟨i, hi⟩
  · rw [BitVec.getLsbD_of_ge _ _ (by omega), List.any_eq_false]
    intro r hr
    have hfit := strbToRange_fits hr
    simp only [inRange, Bool.and_eq_true, decide_eq_true_iff]
    omega

/-! ## devices -/

/-- one entry of `devices`: the key `(first, second, byteMode)` and the device -/
structure XbarEntry (δ : Type) where
  first : BitVec 64
  second : BitVec 64
  byteMode : Bool
  dev : δ

/-- the order of the keys -/
def xbarKeyLt (a b : BitVec 64 × BitVec 64 × Bool) : Bool :=
  a.1 < b.1 || (a.1 == b.1 && (a.2.1 < b.2.1 || (a.2.1 == b.2.1 && !a.2.2 && b.2.2)))

structure SramXbar (δ : Type) where
  addressMask : BitVec 32
  devices : List (XbarEntry δ)

/-- what a transfer leaves in the buffer, and the devices -/
structure XbarResult (δ : Type) where
  buffer : BitVec 64
  xbar : SramXbar δ

namespace SramXbar
section
variable {δ : Type} (s : SramXbar δ)

def empty : SramXbar δ := ⟨0xffffffff, []⟩

/-- how many entries have a key up to `key`: the position of `upper_bound(key)` -/
def upperBound (key : BitVec 64 × BitVec 64 × Bool) : ℕ :=
  (s.devices.takeWhile fun e => !xbarKeyLt key (e.first, e.second, e.byteMode)).length

/-- the entry before `upper_bound(startAddr, ULONG_MAX, true)` and its position -/
def locate (startAddr : BitVec 64) : Option (ℕ × XbarEntry δ) :=
  match s.upperBound (startAddr, ulongMax, true) with
  | 0 => none
  | n + 1 => (s.devices[n]?).map fun e => (n, e)

/-- two address ranges with a common address -/
def overlaps (e : XbarEntry δ) (first second : BitVec 64) : Bool :=
  (if e.first < first then first else e.first) < (if second < e.second then second else e.second)

/-- the xbar with a new device, `none` when `add_dev` returns `false` -/
def addDev (startAddr length : BitVec 64) (dev : δ) (byteMode : Bool) : Option (SramXbar δ) :=
  let second := startAddr + length
  let n := s.upperBound (startAddr, second, byteMode)
  if startAddr % length != 0 then none
  else if (s.devices[n]?).any fun e => overlaps e startAddr second then none
  else if n != 0 && (s.devices[n - 1]?).any fun e => overlaps e startAddr second then none
  else some { s with devices := s.devices.insertIdx n ⟨startAddr, second, byteMode, dev⟩ }

/-- the xbar after the device at position `n` has changed -/
def setDev (n : ℕ) (e : XbarEntry δ) (dev : δ) : SramXbar δ :=
  { s with devices := s.devices.set n { e with dev := dev } }

/-- `*((uint32_t *)buffer) = 0xdec0dee3` -/
def undecoded (buffer : BitVec 64) : BitVec 64 := copyLow buffer 4 0xdec0dee3

variable [MmioDev δ]

/-- Only the first byte has to be in the range; the device is read at a multiple of the size. -/
def doRead (startAddr size buffer : BitVec 64) : XbarResult δ :=
  match s.locate startAddr with
  | none => ⟨undecoded buffer, s⟩
  | some (n, e) =>
    if e.first ≤ startAddr && startAddr + 1 ≤ e.second then
      let devSize := e.second - e.first
      let a := if e.byteMode then startAddr else startAddr - (startAddr &&& (size - 1))
      let size := if e.byteMode then 1 else size
      -- the bytes of the buffer from `a % size` on
      let off := (a % size).toNat
      let r := MmioDev.doRead e.dev (a % devSize) size (buffer >>> (8 * off))
      ⟨copyLow (r.buffer <<< (8 * off)) off buffer, s.setDev n e r.dev⟩
    else ⟨undecoded buffer, s⟩

/-- A write that no device takes overwrites what it was to write. -/
def doWrite (startAddr size buffer : BitVec 64) : XbarResult δ :=
  match s.locate startAddr with
  | none => ⟨undecoded buffer, s⟩
  | some (n, e) =>
    if e.first ≤ startAddr && startAddr + size ≤ e.second then
      let devSize := e.second - e.first
      let r := MmioDev.doWrite e.dev (startAddr % devSize) size buffer
      ⟨buffer, s.setDev n e r.dev⟩
    else ⟨undecoded buffer, s⟩

/-! ## the two channels -/

/-- `inst_channel`; the result holds `inst_sram_rdata` -/
def instChannel (pin : InstSram) (rdata : BitVec 32) : XbarResult δ :=
  if pin.en then s.doRead ((pin.addr &&& s.addressMask).setWidth 64) 4 (rdata.setWidth 64)
  else ⟨rdata.setWidth 64, s⟩

/-- one range of the strobe, written from its place in `data_sram_wdata` -/
def writeRange (addr : BitVec 32) (s : XbarResult δ) (r : ℕ × ℕ) : XbarResult δ :=
  let base := addr &&& s.xbar.addressMask &&& 0xfffffff8#32
  let w := s.xbar.doWrite ((base + BitVec.ofNat 32 r.1).setWidth 64) (BitVec.ofNat 64 r.2)
    (s.buffer >>> (8 * r.1))
  ⟨copyLow (w.buffer <<< (8 * r.1)) r.1 s.buffer, w.xbar⟩

/-- `data_channel`; the result holds `data_sram_rdata`.  What missed writes leave in
`data_sram_wdata` is overwritten by the next `update_input`. -/
def dataChannel (pin : DataSram) (rdata : BitVec 64) : XbarResult δ :=
  if pin.en then
    let x := if pin.wen != 0 then
      ((strbToRange pin.wen).foldl (writeRange pin.addr) ⟨pin.wdata, s⟩).xbar else s
    x.doRead ((pin.addr &&& x.addressMask).setWidth 64) 8 rdata
  else ⟨rdata, s⟩

end
end SramXbar

/-! ## one memory -/

def xbarRam (mem : Bytes) : XbarEntry MmioMem :=
  ⟨RAM_START, RAM_START + RAM_LENGTH, false, ramDev mem⟩

/-- the xbar of `riscv_test_run` -/
def sramOf (mem : Bytes) : SramXbar MmioMem := ⟨0xffffffff, [xbarRam mem]⟩

theorem addDev_sram (mem : Bytes) :
    SramXbar.empty.addDev RAM_START RAM_LENGTH (ramDev mem) false = some (sramOf mem) := rfl

namespace SramXbar
section
variable (mem : Bytes)

theorem locate_sram (a : BitVec 64) :
    (sramOf mem).locate a = if RAM_START ≤ a then some (0, xbarRam mem) else none := by
  have hk : xbarKeyLt (a, ulongMax, true) (RAM_START, RAM_START + RAM_LENGTH, false) =
      !decide (RAM_START ≤ a) := by
    have hu : (ulongMax < RAM_START + RAM_LENGTH) = False := by decide
    simp only [xbarKeyLt, hu, decide_false, Bool.and_false, Bool.or_false]
    rw [← decide_not]
    exact decide_eq_decide.mpr BitVec.not_le.symm
  unfold locate upperBound sramOf
  by_cases ha : RAM_START ≤ a
  · simp [List.takeWhile, xbarRam, hk, ha]
  · simp [List.takeWhile, xbarRam, hk, ha]

/-- Reading leaves the memory as it is. -/
theorem doRead_sram (a size b : BitVec 64) : ((sramOf mem).doRead a size b).xbar = sramOf mem := by
  have hdev : ∀ x size b, (MmioDev.doRead (ramDev mem) x size b).dev = ramDev mem := by
    intro x size b
    show (MmioMem.doRead _ x size b).dev = _
    simp only [MmioMem.doRead]
    split_ifs <;> rfl
  unfold doRead
  rw [locate_sram]
  by_cases ha : RAM_START ≤ a
  · rw [if_pos ha]
    refine (apply_ite XbarResult.xbar _ _ _).trans (ite_eq_iff'.mpr ⟨fun _ => ?_, fun _ => rfl⟩)
    exact congrArg ((sramOf mem).setDev 0 (xbarRam mem)) (hdev _ _ _)
  · rw [if_neg ha]

theorem doWrite_sram {a size : BitVec 64} (hr : InRam a size) (b : BitVec 64) :
    (sramOf mem).doWrite a size b = ⟨b, sramOf (poke mem (ramIndex a) size.toNat b)⟩ := by
  have hl : (sramOf mem).locate a = some (0, xbarRam mem) := by rw [locate_sram, if_pos hr.1]
  have hwrite : MmioDev.doWrite (ramDev mem) (a % (RAM_START + RAM_LENGTH - RAM_START)) size b =
      ⟨true, ramDev (poke mem (ramIndex a) size.toNat b)⟩ := by
    show MmioMem.doWrite _ (Systembus.devAddr (ramEntry mem) a) _ _ = _
    simp only [MmioMem.doWrite, hr.inside mem, if_true, hr.devAddr mem]
    rfl
  have hh : (decide (RAM_START ≤ a) && decide (a + size ≤ RAM_START + RAM_LENGTH)) = true :=
    hr.holds mem
  simp only [doWrite, hl, xbarRam, hh, if_true, hwrite]
  rfl

/-- the address of the double word around `a` -/
theorem toNat_align (a : BitVec 64) : (a - (a &&& (8 - 1))).toNat = a.toNat / 8 * 8 := by
  have h : (a &&& (8 - 1)).toNat = a.toNat % 8 := by
    rw [BitVec.toNat_and]
    exact Nat.and_two_pow_sub_one_eq_mod a.toNat 3
  have hle : a &&& (8 - 1) ≤ a := by
    rw [BitVec.le_def, h]
    exact Nat.mod_le _ _
  rw [BitVec.toNat_sub_of_le hle, h]
  omega

theorem doRead_dword {a : BitVec 64} (hr : InRam a 1) (b : BitVec 64) :
    (sramOf mem).doRead a 8 b = ⟨peek mem (ramIndex a / 8 * 8) 8, sramOf mem⟩ := by
  have e : (RAM_START + RAM_SIZE).toNat = 0x88000000 := by decide
  have e' : RAM_START.toNat = 0x80000000 := by decide
  have hl : (sramOf mem).locate a = some (0, xbarRam mem) := by rw [locate_sram, if_pos hr.1]
  have hal := toNat_align a
  have hr' : InRam (a - (a &&& (8 - 1))) 8 := by
    obtain ⟨h₁, h₂⟩ := hr
    rw [BitVec.le_def, e'] at h₁
    rw [e, show (1 : BitVec 64).toNat = 1 from rfl] at h₂
    refine ⟨?_, ?_⟩
    · rw [BitVec.le_def, e', hal]
      omega
    · rw [e, show (8 : BitVec 64).toNat = 8 from rfl, hal]
      omega
  have hi : ramIndex (a - (a &&& (8 - 1))) = ramIndex a / 8 * 8 := by
    have h₁ := hr.1
    rw [BitVec.le_def, e'] at h₁
    rw [ramIndex, ramIndex, hal, e']
    omega
  have hoff : ((a - (a &&& (8 - 1))) % 8).toNat = 0 := by
    rw [BitVec.toNat_umod, hal]
    exact Nat.mul_mod_left _ _
  have hread : ∀ c, MmioDev.doRead (ramDev mem)
      ((a - (a &&& (8 - 1))) % (RAM_START + RAM_LENGTH - RAM_START)) 8 c =
      ⟨true, copyLow c 8 (peek mem (ramIndex a / 8 * 8) 8), ramDev mem⟩ := by
    intro c
    show MmioMem.doRead _ (Systembus.devAddr (ramEntry mem) _) _ _ = _
    simp only [MmioMem.doRead, hr'.inside mem, if_true, hr'.devAddr mem, hi]
    rfl
  have hh : (decide (RAM_START ≤ a) && decide (a + 1 ≤ RAM_START + RAM_LENGTH)) = true :=
    hr.holds mem
  simp only [doRead, hl, xbarRam, hh, if_true, Bool.false_eq_true, if_false, hread,
    hoff, copyLow_zero, copyLow_eight, Nat.mul_zero, BitVec.shiftLeft_zero]
  rfl

/-- the address of the double word, on 32 bits -/
theorem toNat_mask (a : BitVec 32) : (a &&& 0xfffffff8#32).toNat = a.toNat / 8 * 8 := by
  have hb : ∀ i : Fin 32, (0xfffffff8#32).getLsbD i = decide (3 ≤ i.val) := by decide
  have h : a &&& 0xfffffff8#32 = a >>> 3 <<< 3 := by
    apply BitVec.eq_of_getLsbD_eq
    intro i hi
    rw [BitVec.getLsbD_and, hb ⟨i, hi⟩, BitVec.getLsbD_shiftLeft, BitVec.getLsbD_ushiftRight]
    by_cases h3 : 3 ≤ i
    · have e : 3 + (i - 3) = i := by omega
      simp [h3, e, hi]
    · simp [h3]
  rw [h, BitVec.toNat_shiftLeft, BitVec.toNat_ushiftRight, Nat.shiftRight_eq_div_pow,
    Nat.shiftLeft_eq]
  have := a.isLt
  omega

section
variable {addr : BitVec 32} (hr : InRam (addr.setWidth 64) 1)
include hr

theorem writeRange_sram (v : BitVec 64) {r : ℕ × ℕ} (hf : r.1 + r.2 ≤ 8) :
    writeRange addr ⟨v, sramOf mem⟩ r = ⟨v, sramOf (poke mem
      (ramIndex (addr.setWidth 64) / 8 * 8 + r.1) r.2 (v >>> (8 * r.1)))⟩ := by
  have e : (RAM_START + RAM_SIZE).toNat = 0x88000000 := by decide
  have e' : RAM_START.toNat = 0x80000000 := by decide
  have hw : (addr.setWidth 64).toNat = addr.toNat := BitVec.toNat_setWidth_of_le (by decide)
  have hmask : addr &&& 0xffffffff#32 = addr := BitVec.and_allOnes
  have hsize : (BitVec.ofNat 64 r.2).toNat = r.2 := by
    rw [BitVec.toNat_ofNat]
    exact Nat.mod_eq_of_lt (by omega)
  obtain ⟨h₁, h₂⟩ := hr
  rw [BitVec.le_def, e', hw] at h₁
  rw [e, hw, show (1 : BitVec 64).toNat = 1 from rfl] at h₂
  have haddr : (((addr &&& 0xfffffff8#32) + BitVec.ofNat 32 r.1).setWidth 64).toNat =
      addr.toNat / 8 * 8 + r.1 := by
    rw [BitVec.toNat_setWidth_of_le (by decide), BitVec.toNat_add, toNat_mask, BitVec.toNat_ofNat]
    omega
  have hin : InRam (((addr &&& 0xfffffff8#32) + BitVec.ofNat 32 r.1).setWidth 64)
      (BitVec.ofNat 64 r.2) := by
    refine ⟨?_, ?_⟩
    · rw [BitVec.le_def, e', haddr]
      omega
    · rw [e, haddr, hsize]
      omega
  have hi : ramIndex (((addr &&& 0xfffffff8#32) + BitVec.ofNat 32 r.1).setWidth 64) =
      ramIndex (addr.setWidth 64) / 8 * 8 + r.1 := by
    rw [ramIndex, ramIndex, haddr, hw, e']
    omega
  have hx : (sramOf mem).addressMask = 0xffffffff#32 := rfl
  simp only [writeRange, hx, hmask, doWrite_sram mem hin, hi, hsize, copyLow_shift]

/-- **Inside the memory a cycle writes the bytes that the strobe selects and reads the double word
around the address.** -/
theorem dataChannel_sram {pin : DataSram} (hen : pin.en = true) (ha : pin.addr = addr)
    (rdata : BitVec 64) : (sramOf mem).dataChannel pin rdata =
      ⟨peek (pokeStrb mem (ramIndex (addr.setWidth 64) / 8 * 8) pin.wen pin.wdata)
        (ramIndex (addr.setWidth 64) / 8 * 8) 8,
        sramOf (pokeStrb mem (ramIndex (addr.setWidth 64) / 8 * 8) pin.wen pin.wdata)⟩ := by
  obtain ⟨en, addr', wdata, wen⟩ := pin
  obtain rfl : en = true := hen
  obtain rfl : addr' = addr := ha
  have hfold : ∀ (l : List (ℕ × ℕ)) (m : Bytes), (∀ r ∈ l, r.1 + r.2 ≤ 8) →
      l.foldl (writeRange addr') ⟨wdata, sramOf m⟩ = ⟨wdata, sramOf (l.foldl (fun m r =>
        poke m (ramIndex (addr'.setWidth 64) / 8 * 8 + r.1) r.2 (wdata >>> (8 * r.1))) m)⟩ := by
    intro l
    induction l with
    | nil => intro m _; rfl
    | cons r l ih =>
      intro m hl
      rw [List.foldl_cons, writeRange_sram m hr wdata (hl r List.mem_cons_self),
        ih _ fun q hq => hl q (List.mem_cons_of_mem _ hq)]
      rfl
  have hx : (if wen != 0 then
      ((strbToRange wen).foldl (writeRange addr') ⟨wdata, sramOf mem⟩).xbar else sramOf mem) =
      sramOf (pokeStrb mem (ramIndex (addr'.setWidth 64) / 8 * 8) wen wdata) := by
    by_cases h0 : wen = 0
    · rw [h0, pokeStrb_zero]
      rfl
    · rw [if_pos (bne_iff_ne.mpr h0), hfold _ _ fun r => strbToRange_fits,
        foldl_poke mem _ wdata (strbToRange_any wen)]
  have hm : ∀ m, (sramOf m).addressMask = 0xffffffff#32 := fun _ => rfl
  have hmask : addr' &&& 0xffffffff#32 = addr' := BitVec.and_allOnes
  simp only [dataChannel, if_true, hx, hm, hmask, doRead_dword _ hr]

end

/-- Without a strobe nothing is written, wherever the address is. -/
theorem dataChannel_quiet {pin : DataSram} (hw : pin.wen = 0) (rdata : BitVec 64) :
    ((sramOf mem).dataChannel pin rdata).xbar = sramOf mem := by
  obtain ⟨en, addr, wdata, wen⟩ := pin
  obtain rfl : wen = 0 := hw
  cases en
  · rfl
  · exact doRead_sram mem _ _ _

end
end SramXbar

end HduCpu
