import HduCpu.Ref.Bus

/-!
# Sv39 translation

`rv_sv39.hpp` without the checks of `MM_SANITIZER`, which is not defined.

* `TlbEntry`, `Sv39`       the translation look-aside buffer of `n` entries;
* `Sv39.localTlbGet`       look-up, two hits being an assertion failure;
* `Sv39.ptw`               the page-table walk, three levels;
* `Sv39.localTlbeGet`      look-up, walk and refill;
* `Sv39.sfenceVma`         invalidation.
-/

namespace HduCpu

/-- `sv39_tlb_entry`; `pagesize` 0 is an invalid entry, 1 is 4 KB, 2 is 2 MB, 3 is 1 GB -/
structure TlbEntry where
  ppa : BitVec 64
  vpa : BitVec 64
  asid : BitVec 16
  pagesize : BitVec 8
  R : Bool
  W : Bool
  X : Bool
  U : Bool
  G : Bool
  A : Bool
  D : Bool

/-- the first address of the page of `2 ^ bits` bytes around `va` -/
def pageOf (bits : ℕ) (va : BitVec 64) : BitVec 64 := va &&& -(1#64 <<< bits)

/-- the number of offset bits of a valid page size -/
def pageBits (pagesize : BitVec 8) : Option ℕ :=
  if pagesize = 1 then some 12 else if pagesize = 2 then some 21
  else if pagesize = 3 then some 30 else none

structure Sv39 (n : ℕ) where
  random : Fin n
  tlb : Fin n → TlbEntry

namespace Sv39
variable {n : ℕ} (t : Sv39 n)

/-- does the entry translate `va` -/
def hit (satp va : BitVec 64) (e : TlbEntry) : Bool :=
  (e.asid == Satp.asid satp || e.G) &&
    match pageBits e.pagesize with
    | some bits => pageOf bits va == e.vpa
    | none => false

/-- `local_tlb_get`: the position of the entry that hits; a second one fails the assertion -/
def localTlbGet (satp va : BitVec 64) : Except Halt (Option (Fin n)) :=
  (List.finRange n).foldlM (fun res i =>
    if hit satp va (t.tlb i) then
      if res.isNone then .ok (some i) else .error .assertFailed
    else .ok res) none

/-- a page-table entry that the walk goes on with -/
def pteOk (pte : BitVec 64) : Bool :=
  !(!Pte.V pte || (!Pte.R pte && Pte.W pte) || Pte.reserved pte != 0 || Pte.PBMT pte != 0)

/-- a superpage whose low page numbers are not zero -/
def misalignedSuperpage (level : ℕ) (pte : BitVec 64) : Bool :=
  (level == 2 && (Pte.PPN1 pte != 0 || Pte.PPN0 pte != 0)) || (level == 1 && Pte.PPN0 pte != 0)

/-- the virtual page number of a level -/
def vpn (level : ℕ) (va : BitVec 64) : BitVec 64 :=
  (if level = 2 then Va.vpn2 va else if level = 1 then Va.vpn1 va else Va.vpn0 va).setWidth 64

/-- what the walk returns: the leaf and its level, and the bus after the reads -/
structure Walk (δ : Type) where
  leaf : Option (BitVec 64 × ℕ)
  bus : Systembus δ

section
variable {δ : Type} [MmioDev δ]

/-- The levels `level`, …, 0 of the walk, from the table at `ptAddr` on. -/
def ptwFrom (va : BitVec 64) : ℕ → BitVec 64 → Systembus δ → Walk δ
  | level, ptAddr, bus =>
    let r := bus.paRead (ptAddr + vpn level va * 8) 8 0
    let pte := r.buffer
    if !r.ok then ⟨none, r.bus⟩
    else if !pteOk pte then ⟨none, r.bus⟩
    else if Pte.R pte || Pte.X pte then
      if misalignedSuperpage level pte then ⟨none, r.bus⟩ else ⟨some (pte, level), r.bus⟩
    else match level with
      | 0 => ⟨none, r.bus⟩
      | level + 1 => ptwFrom va level (Pte.ppa pte) r.bus

def ptw (bus : Systembus δ) (satp va : BitVec 64) : Walk δ :=
  if Satp.mode satp != 8 then ⟨none, bus⟩ else ptwFrom va 2 (Satp.ppn satp <<< 12) bus

/-- the entry for a leaf found at `level` -/
def entryOf (satp va pte : BitVec 64) (level : ℕ) : TlbEntry :=
  let bits := 12 + 9 * level
  { ppa := Pte.ppa pte
    vpa := va - va % (1#64 <<< bits)
    asid := Satp.asid satp
    pagesize := BitVec.ofNat 8 (level + 1)
    R := Pte.R pte
    W := Pte.W pte
    X := Pte.X pte
    U := Pte.U pte
    G := Pte.G pte
    A := Pte.A pte
    D := Pte.D pte }

/-- `local_tlbe_get`: the entry, if the address is mapped, the buffer and the bus after it -/
def localTlbeGet [NeZero n] (bus : Systembus δ) (satp va : BitVec 64) :
    Except Halt (Option TlbEntry × Sv39 n × Systembus δ) := do
  assertThat ((Va.blank va == BitVec.allOnes 25 && (Va.vpn2 va).msb) ||
    (Va.blank va == 0 && !(Va.vpn2 va).msb))
  match ← t.localTlbGet satp va with
  | some i => .ok (some (t.tlb i), t, bus)
  | none =>
    let walk := ptw bus satp va
    match walk.leaf with
    | none => .ok (none, t, walk.bus)
    | some (pte, level) =>
      let entry := entryOf satp va pte level
      let t' : Sv39 n := ⟨t.random + 1, Function.update t.tlb t.random entry⟩
      assertThat ((← t'.localTlbGet satp va) == some t.random)
      .ok (some entry, t', walk.bus)

end

/-- the entry after `sfence_vma` -/
def fence (vaddr asid : BitVec 64) (e : TlbEntry) : TlbEntry :=
  if e.asid.setWidth 64 == asid || asid == 0 then
    if vaddr = 0 then { e with pagesize := 0 }
    else match pageBits e.pagesize with
      | some bits => if pageOf bits e.vpa = pageOf bits vaddr then { e with pagesize := 0 } else e
      | none => e
  else e

def sfenceVma (vaddr asid : BitVec 64) : Sv39 n :=
  { t with tlb := fun i => fence vaddr asid (t.tlb i) }

end Sv39

end HduCpu
