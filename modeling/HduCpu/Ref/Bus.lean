import HduCpu.Ref.RvCommon

/-!
# Devices and the system bus

`mmio_dev.hpp`, `mmio_mem.hpp` and `rv_systembus.hpp`.  A `uint8_t*` buffer of at most eight bytes
is a 64-bit value of which a transfer uses the low bytes.  A `std::map` is the list of its entries
in ascending order of their keys.

* `MmioDev`                the interface of a device, `MmioMem` a memory;
* `Systembus.locate`       the entry before `upper_bound`;
* `Systembus.paRead`, `paWrite`, `paLr`, `paSc`, `paAmoOp`   accesses to physical addresses;
* `Systembus.addDev`       a new device, unless its range overlaps.
-/

namespace HduCpu

/-! ## devices -/

/-- what `do_read` leaves: its result, the buffer and the device -/
structure DevRead (δ : Type) where
  ok : Bool
  buffer : BitVec 64
  dev : δ

structure DevWrite (δ : Type) where
  ok : Bool
  dev : δ

class MmioDev (δ : Type) where
  doRead : δ → (startAddr size buffer : BitVec 64) → DevRead δ
  doWrite : δ → (startAddr size buffer : BitVec 64) → DevWrite δ

/-- `mmio_mem` without the comparison memory of `set_diff_mem`, which nothing sets -/
structure MmioMem where
  mem : Bytes
  memSize : BitVec 64
  allowWarp : Bool

namespace MmioMem
variable (m : MmioMem) (startAddr size buffer : BitVec 64)

def doRead : DevRead MmioMem :=
  let copied (a : BitVec 64) := copyLow buffer size.toNat (peek m.mem a.toNat size.toNat)
  if startAddr + size ≤ m.memSize then ⟨true, copied startAddr, m⟩
  else if m.allowWarp then
    let a := startAddr % m.memSize
    if a + size ≤ m.memSize then ⟨true, copied a, m⟩ else ⟨false, buffer, m⟩
  else ⟨false, buffer, m⟩

def doWrite : DevWrite MmioMem :=
  let stored (a : BitVec 64) := { m with mem := poke m.mem a.toNat size.toNat buffer }
  if startAddr + size ≤ m.memSize then ⟨true, stored startAddr⟩
  else if m.allowWarp then
    let a := startAddr % m.memSize
    if a + size ≤ m.memSize then ⟨true, stored a⟩ else ⟨false, m⟩
  else ⟨false, m⟩

end MmioMem

instance : MmioDev MmioMem := ⟨MmioMem.doRead, MmioMem.doWrite⟩

/-! ## system bus -/

/-- one entry of `devices`: the key `(first, second)` and the device with its `raw_addr` -/
structure BusEntry (δ : Type) where
  first : BitVec 64
  second : BitVec 64
  dev : δ
  rawAddr : Bool

/-- the order of the keys -/
def keyLt (a b : BitVec 64 × BitVec 64) : Bool := a.1 < b.1 || (a.1 == b.1 && a.2 < b.2)

/-- `ULONG_MAX` -/
def ulongMax : BitVec 64 := 0xFFFFFFFFFFFFFFFF#64

structure Systembus (δ : Type) where
  lrPa : BitVec 64
  lrSize : BitVec 64
  lrHart : BitVec 64
  lrValid : Bool
  devices : List (BusEntry δ)

structure BusRead (δ : Type) where
  ok : Bool
  buffer : BitVec 64
  bus : Systembus δ

structure BusWrite (δ : Type) where
  ok : Bool
  bus : Systembus δ

structure BusSc (δ : Type) where
  ok : Bool
  scFail : Bool
  bus : Systembus δ

structure BusAmo (δ : Type) where
  ok : Bool
  dst : BitVec 64
  bus : Systembus δ

namespace Systembus
section
variable {δ : Type} (s : Systembus δ)

/-- how many entries have a key up to `key`: the position of `upper_bound(key)` -/
def upperBound (key : BitVec 64 × BitVec 64) : ℕ :=
  (s.devices.takeWhile fun e => !keyLt key (e.first, e.second)).length

/-- the entry before `upper_bound(startAddr, ULONG_MAX)` and its position -/
def locate (startAddr : BitVec 64) : Option (ℕ × BusEntry δ) :=
  match s.upperBound (startAddr, ulongMax) with
  | 0 => none
  | n + 1 => (s.devices[n]?).map fun e => (n, e)

/-- the whole access lies in the range of the entry -/
def holds (e : BusEntry δ) (startAddr size : BitVec 64) : Bool :=
  e.first ≤ startAddr && startAddr + size ≤ e.second

/-- the address that the device is given -/
def devAddr (e : BusEntry δ) (startAddr : BitVec 64) : BitVec 64 :=
  if e.rawAddr then startAddr else startAddr % (e.second - e.first)

/-- the bus after the device at position `n` has changed -/
def setDev (n : ℕ) (e : BusEntry δ) (dev : δ) : Systembus δ :=
  { s with devices := s.devices.set n { e with dev := dev } }

variable [MmioDev δ] (startAddr size buffer : BitVec 64)

def paRead : BusRead δ :=
  match s.locate startAddr with
  | none => ⟨false, buffer, s⟩
  | some (n, e) =>
    if holds e startAddr size then
      let r := MmioDev.doRead e.dev (devAddr e startAddr) size buffer
      ⟨r.ok, r.buffer, s.setDev n e r.dev⟩
    else ⟨false, buffer, s⟩

/-- A write that passes the comparison clears the reservation.  Both bounds have the size of the write,
so that without overflow it passes exactly when it starts at the reserved address. -/
def breakLr : Systembus δ :=
  if startAddr ≤ s.lrPa && s.lrPa + size ≤ startAddr + size then { s with lrValid := false } else s

def paWrite : BusWrite δ :=
  let s := s.breakLr startAddr size
  match s.locate startAddr with
  | none => ⟨false, s⟩
  | some (n, e) =>
    if holds e startAddr size then
      let r := MmioDev.doWrite e.dev (devAddr e startAddr) size buffer
      ⟨r.ok, s.setDev n e r.dev⟩
    else ⟨false, s⟩

def paLr (hartId : BitVec 64) : BusRead δ :=
  { s with lrPa := startAddr, lrSize := size, lrValid := true, lrHart := hartId }.paRead
    startAddr size buffer

def paSc (hartId : BitVec 64) : BusSc δ :=
  if !s.lrValid || s.lrPa != startAddr || s.lrSize != size || s.lrHart != hartId then
    ⟨true, true, if hartId == s.lrHart then { s with lrValid := false } else s⟩
  else
    let r := { s with lrValid := false }.paWrite startAddr size buffer
    ⟨r.ok, false, r.bus⟩

/-- `to_write`; an operation without case fails the assertion -/
def amoResult (op : BitVec 5) (src res : BitVec 64) : Except Halt (BitVec 64) :=
  if op = AmoFunct.SWAP then .ok src
  else if op = AmoFunct.ADD then .ok (src + res)
  else if op = AmoFunct.AND then .ok (src &&& res)
  else if op = AmoFunct.OR then .ok (src ||| res)
  else if op = AmoFunct.XOR then .ok (src ^^^ res)
  else if op = AmoFunct.MAX then .ok (if src.slt res then res else src)
  else if op = AmoFunct.MIN then .ok (if res.slt src then res else src)
  else if op = AmoFunct.MAXU then .ok (if src < res then res else src)
  else if op = AmoFunct.MINU then .ok (if res < src then res else src)
  else .error .assertFailed

/-- Both the old value and the one to be written have 64 bits, the old one sign-extended. -/
def paAmoOp (op : BitVec 5) (src dst : BitVec 64) : Except Halt (BusAmo δ) := do
  let r := s.paRead startAddr size 0
  let res := if size = 4 then (r.buffer.setWidth 32).signExtend 64 else r.buffer
  if !r.ok then
    .ok ⟨false, dst, r.bus⟩
  else
    let toWrite ← amoResult op src res
    let w := r.bus.paWrite startAddr size toWrite
    .ok ⟨w.ok, res, w.bus⟩

end

section
variable {δ : Type} (s : Systembus δ)

/-- two address ranges with a common address -/
def overlaps (e : BusEntry δ) (first second : BitVec 64) : Bool :=
  (if e.first < first then first else e.first) < (if second < e.second then second else e.second)

/-- the bus with a new device, `none` when `add_dev` returns `false` -/
def addDev (startAddr length : BitVec 64) (dev : δ) (rawAddr : Bool) : Option (Systembus δ) :=
  let second := startAddr + length
  let n := s.upperBound (startAddr, second)
  if startAddr % length != 0 then none
  else if (s.devices[n]?).any fun e => overlaps e startAddr second then none
  else if n != 0 && (s.devices[n - 1]?).any fun e => overlaps e startAddr second then none
  else some { s with devices := s.devices.insertIdx n ⟨startAddr, second, dev, rawAddr⟩ }

end
end Systembus

end HduCpu
