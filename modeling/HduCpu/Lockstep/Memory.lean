import HduCpu.Cpu.Exception
import HduCpu.Lockstep.Transfer
import HduCpu.Ref.Sram

/-!
# Loads and stores

The processor moves aligned double words under a strobe, the reference moves exactly the bytes.

* `Access`                 how a load or a store ends: a trap, the memories and the registers;
* `cpuAccess`              Decoder to Lsu, the data channel, MemoryUnit and WriteBackUnit;
* `RvCore.access`          what the reference makes of the word;
* `store_strobe`, `loadValue_conv`   strobes and shifts, operation by operation;
* `memory_lockstep`        both end alike, with the trap of a misaligned address and the frame of an
                           aligned one.
-/

namespace HduCpu

/-- the end of a load or a store: cause and value of its trap, the contents of the memories and the
registers -/
structure Access where
  trap : Option (BitVec 64 × BitVec 64)
  mems : List Bytes
  regs : ARegFile

/-- The word in Execute, the data channel in the same cycle, and the stages after it. -/
def cpuAccess (a : Arch) (x : SramXbar MmioMem) (rdata : BitVec 64) (w : BitVec 32) : Access :=
  let exe := a.execute .low w
  let out := x.dataChannel exe.dataSram rdata
  { trap := if a.csr.traps exe.csrIn then
      some ((a.csr.next exe.csrIn).regs .mcause, (a.csr.next exe.csrIn).regs .mtval) else none
    mems := out.xbar.devices.map fun e => e.dev.mem
    regs := writeBackUnit a.regs (a.result .low w out.buffer) }

/-- the end of an instruction of the reference; `none` when the simulation ends -/
def accessEnd (w : BitVec 32) : Except Halt (ExecState MmioMem) → Option Access
  | .error _ => none
  | .ok e => match e.settle w (RvCore.isRvc w) with
    | .error _ => none
    | .ok c => some ⟨c.priv.trapTaken, c.bus.devices.map fun e => e.dev.mem, c.GPR⟩

def RvCore.access (c : RvCore MmioMem) (flags : Flags) (w : BitVec 32) : Option Access :=
  accessEnd w (c.decodeExec flags w)

/-- the opcodes of loads and stores -/
def memoryOpcodes : List (BitVec 7) := [Opcode.LOAD, Opcode.STORE]

/-- the effective address -/
def RvCore.accessAddr {δ : Type} (c : RvCore δ) (w : BitVec 32) : BitVec 64 :=
  c.GPR (RvInstr.rs1 w) +
    (if opcodeOf w = Opcode.STORE then RvInstr.immS w else RvInstr.imm12 w).signExtend 64

/-- the number of bytes, whose logarithm is in the low bits of `funct3` -/
def accessSize (w : BitVec 32) : BitVec 64 := 1#64 <<< (funct3Of w).extractLsb' 0 2

/-- the cause of the trap for a misaligned address -/
def misalignCause (w : BitVec 32) : BitVec 64 :=
  if opcodeOf w = Opcode.STORE then RvExcCode.storeMisalign else RvExcCode.loadMisalign

/-- the store of 1 that ends a riscv-test -/
def RvCore.endsTest {δ : Type} (c : RvCore δ) (flags : Flags) (w : BitVec 32) : Prop :=
  opcodeOf w = Opcode.STORE ∧ flags.runRiscvTest = true ∧ c.accessAddr w = 0x80001000#64 ∧
    c.GPR (RvInstr.rs2 w) = 1

/-! ## strobes and shifts -/

theorem umod_shift (x : BitVec 64) (k : ℕ) (hk : k < 32) :
    x % (1#64 <<< k) = 0 ↔ (x.extractLsb' 0 k).setWidth 32 = 0 := by
  have h₁ : (1#64 <<< k).toNat = 2 ^ k := by
    rw [BitVec.toNat_shiftLeft, Nat.shiftLeft_eq, Nat.mod_eq_of_lt]
    · exact Nat.one_mul _
    · exact (Nat.one_mul _).trans_lt (Nat.pow_lt_pow_right (by decide) (by omega))
  rw [← BitVec.toNat_inj, ← BitVec.toNat_inj, BitVec.toNat_umod, h₁,
    BitVec.toNat_setWidth_of_le (by omega), BitVec.extractLsb'_toNat]
  rfl

/-- The Lsu looks at the bits that the remainder is made of. -/
theorem lsuBit_eq_zero (op : BitVec 5) (addr : BitVec 64) :
    lsuBit op addr = 0 ↔ addr % (1#64 <<< LSUOpType.exBit op) = 0 := by
  have key : ∀ k : BitVec 2, (if k = LSUOpType.b then 0
      else if k = LSUOpType.h then (addr.extractLsb' 0 1).setWidth 32
      else if k = LSUOpType.w then (addr.extractLsb' 0 2).setWidth 32
      else (addr.extractLsb' 0 3).setWidth 32 : BitVec 32) = 0 ↔ addr % (1#64 <<< k) = 0 := by
    intro k
    rw [BitVec.shiftLeft_eq', umod_shift _ _ (by have := k.isLt; omega)]
    obtain rfl | rfl | rfl | rfl : k = 0 ∨ k = 1 ∨ k = 2 ∨ k = 3 := by
      revert k
      decide
    · simp [LSUOpType.b]
    · rfl
    · rfl
    · rfl
  exact key _

/-- length and strobe, at offset 0, of the stores -/
def strobeRows : List (ℕ × BitVec 8) := [(1, 0b1), (2, 0b11), (4, 0b1111), (8, 0b11111111)]

/-- At a multiple of its length the strobe of a store stays in the double word. -/
theorem strobe_run {row : ℕ × BitVec 8} (h : row ∈ strobeRows) {o : BitVec 3}
    (ho : o.toNat % row.1 = 0) (i : ℕ) : (row.2 <<< o).getLsbD i = inRange i (o.toNat, row.1) := by
  by_cases hi : i < 8
  · have key : ∀ r ∈ strobeRows, ∀ o : BitVec 3, o.toNat % r.1 = 0 → ∀ j : Fin 8,
        (r.2 <<< o).getLsbD j = inRange j (o.toNat, r.1) := by decide
    exact key row h o ho ⟨i, hi⟩
  · have key : ∀ r ∈ strobeRows, ∀ o : BitVec 3, o.toNat % r.1 = 0 → o.toNat + r.1 ≤ 8 := by decide
    have := key row h o ho
    rw [BitVec.getLsbD_of_ge _ _ (by omega), inRange]
    simp only [Bool.false_eq, Bool.and_eq_false_iff, decide_eq_false_iff_not]
    omega

/-- strobe and data of a store of `n` bytes -/
structure StoresAt (op : BitVec 5) (addr : BitVec 64) (n : ℕ) : Prop where
  strobe : ∀ i, (lsuWen op addr).getLsbD i = inRange i (addr.toNat % 8, n)
  data : ∀ rt i, i < 8 * n → (lsuWdata op rt).getLsbD (8 * (addr.toNat % 8) + i) = rt.getLsbD i

theorem storesAt_row {op : BitVec 5} {addr : BitVec 64} {row : ℕ × BitVec 8} (h : row ∈ strobeRows)
    (hal : addr.toNat % row.1 = 0) (hwen : lsuWen op addr = row.2 <<< addr.extractLsb' 0 3)
    (hdata : ∀ rt i, (lsuWdata op rt).getLsbD i =
      (decide (i < 64) && rt.getLsbD (i % (8 * row.1)))) : StoresAt op addr row.1 := by
  have hoff : (addr.extractLsb' 0 3).toNat = addr.toNat % 8 := BitVec.extractLsb'_toNat 0 3 _
  have key : ∀ r ∈ strobeRows, r.1 ∣ 8 ∧ ∀ o < 8, o % r.1 = 0 → o + r.1 ≤ 8 := by decide
  have hrow := key row h
  have ho : addr.toNat % 8 % row.1 = 0 := by rw [Nat.mod_mod_of_dvd _ hrow.1, hal]
  refine ⟨fun i => ?_, fun rt i hi => ?_⟩
  · rw [hwen, strobe_run h (by rw [hoff, ho]), hoff]
  · have hfit := hrow.2 (addr.toNat % 8) (Nat.mod_lt _ (by decide)) ho
    obtain ⟨k, hk⟩ := Nat.dvd_of_mod_eq_zero ho
    have hmod : (8 * (addr.toNat % 8) + i) % (8 * row.1) = i := by
      rw [hk, ← Nat.mul_assoc, Nat.mul_add_mod, Nat.mod_eq_of_lt hi]
    have h64 : 8 * (addr.toNat % 8) + i < 64 := by omega
    rw [hdata, hmod, decide_eq_true h64, Bool.true_and]

theorem storeOp_cases {f3 : BitVec 3} {op : BitVec 5} (h : storeOp f3 = some op) :
    (f3 = 0 ∧ op = LSUOpType.sb) ∨ (f3 = 1 ∧ op = LSUOpType.sh) ∨ (f3 = 2 ∧ op = LSUOpType.sw) ∨
      (f3 = 3 ∧ op = LSUOpType.sd) := by
  revert f3 op
  decide

theorem storeSize_eq {f3 : BitVec 3} {op : BitVec 5} (h : storeOp f3 = some op) :
    RvCore.storeSize f3 = some (1#64 <<< LSUOpType.exBit op) := by
  rcases storeOp_cases h with ⟨rfl, rfl⟩ | ⟨rfl, rfl⟩ | ⟨rfl, rfl⟩ | ⟨rfl, rfl⟩ <;> rfl

theorem getLsbD_repeat (rt : BitVec 64) (m k i : ℕ) (hm : 0 < m) :
    ((rt.extractLsb' 0 m).replicate k).getLsbD i = (decide (i < m * k) && rt.getLsbD (i % m)) := by
  rw [BitVec.getLsbD_replicate, BitVec.getLsbD_extractLsb', decide_eq_true (Nat.mod_lt i hm),
    Bool.true_and, Nat.zero_add]

/-- **The strobe of an aligned store selects its bytes, and they are the low bytes of `rs2`.** -/
theorem store_strobe {f3 : BitVec 3} {op : BitVec 5} (ho : storeOp f3 = some op)
    {addr : BitVec 64} (hal : addr % (1#64 <<< LSUOpType.exBit op) = 0) :
    StoresAt op addr (1#64 <<< LSUOpType.exBit op).toNat := by
  have hmod : ∀ k : BitVec 64, addr % k = 0 → addr.toNat % k.toNat = 0 := by
    intro k hk
    rw [← BitVec.toNat_umod, hk]
    rfl
  have hnat := hmod _ hal
  rcases storeOp_cases ho with ⟨rfl, rfl⟩ | ⟨rfl, rfl⟩ | ⟨rfl, rfl⟩ | ⟨rfl, rfl⟩
  · exact @storesAt_row _ _ (1, 0b1) (by decide) hnat rfl fun rt i =>
      getLsbD_repeat rt 8 8 i (by decide)
  · exact @storesAt_row _ _ (2, 0b11) (by decide) hnat rfl fun rt i =>
      getLsbD_repeat rt 16 4 i (by decide)
  · exact @storesAt_row _ _ (4, 0b1111) (by decide) hnat rfl fun rt i =>
      getLsbD_repeat rt 32 2 i (by decide)
  · refine @storesAt_row _ _ (8, 0b11111111) (by decide) hnat rfl fun rt i => ?_
    show rt.getLsbD i = (decide (i < 64) && rt.getLsbD (i % 64))
    by_cases hi : i < 64
    · rw [decide_eq_true hi, Nat.mod_eq_of_lt hi, Bool.true_and]
    · rw [decide_eq_false hi, BitVec.getLsbD_of_ge _ _ (by omega), Bool.false_and]

theorem loadOp_cases {f3 : BitVec 3} {op : BitVec 5} (h : loadOp f3 = some op) :
    f3 ≠ 7 ∧ op = f3.setWidth 5 := by
  revert f3 op
  decide

/-- **The value of a load is that of the bytes shifted down to the bottom.** -/
theorem loadValue_conv {f3 : BitVec 3} {op : BitVec 5} (ho : loadOp f3 = some op)
    (addr ld other : BitVec 64) : ∃ conv,
      RvCore.loadKind f3 = some (1#64 <<< LSUOpType.exBit op, conv) ∧
      loadValue op addr ld other = conv (ld >>> (8 * (addr.toNat % 8))) ∧
      ∀ x y : BitVec 64, x.setWidth (8 * (1#64 <<< LSUOpType.exBit op).toNat) =
        y.setWidth (8 * (1#64 <<< LSUOpType.exBit op).toNat) → conv x = conv y := by
  have hsh : ld >>> ((addr.extractLsb' 0 3).setWidth 7 * 8 : BitVec 7) =
      ld >>> (8 * (addr.toNat % 8)) := by
    rw [BitVec.ushiftRight_eq', BitVec.toNat_mul, BitVec.toNat_setWidth_of_le (by decide),
      BitVec.extractLsb'_toNat]
    congr 1
    show addr.toNat % 8 * 8 % 128 = _
    omega
  have hsx : ∀ (n : ℕ) (x : BitVec 64), 0 < n → n ≤ 64 →
      fill (64 - n) (x.getLsbD (n - 1)) ++ x.extractLsb' 0 n =
        ((x.setWidth n).signExtend (64 - n + n)) := by
    intro n x h0 hn
    have he : x.extractLsb' 0 n = x.setWidth n := (BitVec.setWidth_eq_extractLsb' hn).symm
    have hm : (x.setWidth n).msb = x.getLsbD (n - 1) := by
      rw [BitVec.msb_eq_getLsbD_last, BitVec.getLsbD_setWidth]
      simp [h0]
    rw [he, ← hm, cat_fill_msb]
  have hzx : ∀ (n : ℕ) (x : BitVec 64), n ≤ 64 →
      (x.extractLsb' 0 n).setWidth 64 = (x.setWidth n).setWidth 64 := fun n x hn =>
    congrArg (BitVec.setWidth 64) (BitVec.setWidth_eq_extractLsb' hn).symm
  obtain ⟨h7, rfl⟩ := loadOp_cases ho
  obtain rfl | rfl | rfl | rfl | rfl | rfl | rfl : f3 = 0 ∨ f3 = 1 ∨ f3 = 2 ∨ f3 = 3 ∨ f3 = 4 ∨
      f3 = 5 ∨ f3 = 6 := by
    revert f3
    decide
  · exact ⟨_, rfl, (congrArg (fun r : BitVec 64 => fill 56 (r.getLsbD 7) ++ r.extractLsb' 0 8)
      hsh).trans (hsx 8 _ (by decide) (by decide)), fun _ _ h =>
        congrArg (fun z : BitVec 8 => z.signExtend 64) h⟩
  · exact ⟨_, rfl, (congrArg (fun r : BitVec 64 => fill 48 (r.getLsbD 15) ++ r.extractLsb' 0 16)
      hsh).trans (hsx 16 _ (by decide) (by decide)), fun _ _ h =>
        congrArg (fun z : BitVec 16 => z.signExtend 64) h⟩
  · exact ⟨_, rfl, (congrArg (fun r : BitVec 64 => fill 32 (r.getLsbD 31) ++ r.extractLsb' 0 32)
      hsh).trans (hsx 32 _ (by decide) (by decide)), fun _ _ h =>
        congrArg (fun z : BitVec 32 => z.signExtend 64) h⟩
  · refine ⟨_, rfl, hsh, fun x y h => ?_⟩
    have h' : x.setWidth 64 = y.setWidth 64 := h
    rwa [BitVec.setWidth_eq, BitVec.setWidth_eq] at h'
  · exact ⟨_, rfl, (congrArg (fun r : BitVec 64 => (r.extractLsb' 0 8).setWidth 64) hsh).trans
      (hzx 8 _ (by decide)), fun _ _ h => congrArg (fun z : BitVec 8 => z.setWidth 64) h⟩
  · exact ⟨_, rfl, (congrArg (fun r : BitVec 64 => (r.extractLsb' 0 16).setWidth 64) hsh).trans
      (hzx 16 _ (by decide)), fun _ _ h => congrArg (fun z : BitVec 16 => z.setWidth 64) h⟩
  · exact ⟨_, rfl, (congrArg (fun r : BitVec 64 => (r.extractLsb' 0 32).setWidth 64) hsh).trans
      (hzx 32 _ (by decide)), fun _ _ h => congrArg (fun z : BitVec 32 => z.setWidth 64) h⟩

/-! ## the processor -/

section
variable (a : Arch) {w : BitVec 32} {t : InstrType} {op : BitVec 5}
  (hd : decodeOf w = (t, .lsu, op)) (ht : (t != .U && t != .J) = true)
include hd

/-- the trap of a misaligned address -/
def misalignNo (op : BitVec 5) : Fin 16 :=
  if LSUOpType.isStore op then storeAddrMisaligned else loadAddrMisaligned

include ht in
theorem slot_addr : (a.slot w).srcInfo.src1Data + (a.slot w).info.imm =
    a.regs (RvInstr.rs1 w) + immOf t w := by
  rw [a.slot_src1 hd (by decide), if_pos ht, a.slot_imm hd]

include ht in
theorem fu_slot (hv : (decoder w).valid = true) (hp : a.pc.extractLsb' 0 2 = 0) :
    fu a.csr (a.slot w) =
      { FuOut.quiet 0 .none with
        dataSram :=
          { en := true
            addr := (a.regs (RvInstr.rs1 w) + immOf t w).setWidth 32
            wdata := lsuWdata op (a.slot w).srcInfo.src2Data
            wen := if lsuBit op (a.regs (RvInstr.rs1 w) + immOf t w) == 0 then
              lsuWen op (a.regs (RvInstr.rs1 w) + immOf t w) else 0 }
        newEx := lsuEx op (a.regs (RvInstr.rs1 w) + immOf t w) .none } := by
  unfold fu
  rw [a.slot_fusel hd]
  simp only [lsu, slot_addr a hd ht, a.slot_op hd, a.slot_valid, a.slot_ex hv hp, Bool.true_and,
    if_true]

section
variable (hv : (decoder w).valid = true) (hp : a.pc.extractLsb' 0 2 = 0)
include ht hv hp

theorem execute_csrIn : (a.execute .low w).csrIn =
    ⟨⟨false, 0, 0⟩, .low, lsuEx op (a.regs (RvInstr.rs1 w) + immOf t w) .none, false, a.pc⟩ := by
  unfold Arch.execute executeUnit
  rw [fu_slot a hd ht hv hp]
  rfl

theorem execute_port : (a.execute .low w).dataSram =
    { en := true
      addr := (a.regs (RvInstr.rs1 w) + immOf t w).setWidth 32
      wdata := lsuWdata op (a.slot w).srcInfo.src2Data
      wen := if lsuBit op (a.regs (RvInstr.rs1 w) + immOf t w) == 0 then
        lsuWen op (a.regs (RvInstr.rs1 w) + immOf t w) else 0 } := by
  unfold Arch.execute executeUnit
  rw [fu_slot a hd ht hv hp]

/-- **A misaligned address is trapped with its cause, and nothing is written.** -/
theorem cpuAccess_misaligned (mem : Bytes) (rdata : BitVec 64)
    (hb : lsuBit op (a.regs (RvInstr.rs1 w) + immOf t w) ≠ 0) :
    cpuAccess a (sramOf mem) rdata w = ⟨some (BitVec.ofNat 64 (misalignNo op),
      a.regs (RvInstr.rs1 w) + immOf t w), [mem], a.regs⟩ := by
  have hex : lsuEx op (a.regs (RvInstr.rs1 w) + immOf t w) .none =
      ExceptionInfo.none.raise (misalignNo op) (a.regs (RvInstr.rs1 w) + immOf t w) := by
    rw [lsuEx, if_pos (bne_iff_ne.mpr hb), misalignNo]
    split <;> rfl
  have hin := execute_csrIn a hd ht hv hp
  rw [hex] at hin
  have hno : excNO (a.execute .low w).csrIn.ex = misalignNo op := by
    rw [hin, misalignNo]
    split <;> rfl
  have hne : misalignNo op ≠ noException := by
    rw [misalignNo]
    split <;> decide
  have hint : a.csr.isInt (a.execute .low w).csrIn = false := by
    rw [hin, a.csr.isInt_eq rfl, takesInt_low]
  have htr : a.csr.traps (a.execute .low w).csrIn = true := by
    rw [CSRRegFile.traps, hno, bne_iff_ne.mpr hne, Bool.or_true]
  have hent := a.csr.trapEntered_next (congrArg CsrIn.extInt hin) hint (hno ▸ hne)
    (congrArg CsrIn.mret hin) fun r _ => by rw [hin]; rfl
  have htval : (a.execute .low w).csrIn.ex.tval (misalignNo op) =
      a.regs (RvInstr.rs1 w) + immOf t w := by
    rw [hin]
    exact Function.update_self _ _ _
  have hport : (a.execute .low w).dataSram.wen = 0 := by
    rw [execute_port a hd ht hv hp]
    exact if_neg fun h => hb (eq_of_beq h)
  have hwen : ∀ d, (a.result .low w d).info.regWen = false := by
    intro d
    have hf : (a.execute .low w).csrFtc.flush = true := by
      show ((a.execute .low w).csrIn.mret || a.csr.traps (a.execute .low w).csrIn) = true
      rw [htr, Bool.or_true]
    show (if (a.execute .low w).csrFtc.flush then { (a.slot w).info with regWen := false }
      else (a.slot w).info).regWen = false
    rw [if_pos hf]
  have hregs : ∀ d, writeBackUnit a.regs (a.result .low w d) = a.regs := by
    intro d
    rw [writeBackUnit, hwen, Bool.and_false]
    rfl
  unfold cpuAccess
  simp only [htr, if_true, hent.mcause, hent.mtval, hno, htval, hregs,
    SramXbar.dataChannel_quiet mem hport]
  rfl

/-- An aligned address inside the memory is accessed, without a trap. -/
theorem cpuAccess_aligned (mem : Bytes) (rdata : BitVec 64)
    (hb : lsuBit op (a.regs (RvInstr.rs1 w) + immOf t w) = 0)
    (hr : InRam (a.regs (RvInstr.rs1 w) + immOf t w) 1) :
    let addr := a.regs (RvInstr.rs1 w) + immOf t w
    let base := ramIndex addr / 8 * 8
    let mem' := pokeStrb mem base (lsuWen op addr) (lsuWdata op (a.slot w).srcInfo.src2Data)
    cpuAccess a (sramOf mem) rdata w = ⟨none, [mem'], a.regs.write (a.slot w).info.regWen
      (RvInstr.rd w)
      (if LSUOpType.isLoad op then loadValue op addr (peek mem' base 8) 0 else 0)⟩ := by
  intro addr base mem'
  have hin := execute_csrIn a hd ht hv hp
  have hex : lsuEx op addr .none = .none := by
    have hb' : (lsuBit op addr != 0) = false := bne_eq_false_iff_eq.mpr hb
    rw [lsuEx, hb', if_neg Bool.false_ne_true]
  have htr : a.csr.traps (a.execute .low w).csrIn = false := by
    rw [hin, show lsuEx op (a.regs (RvInstr.rs1 w) + immOf t w) .none = .none from hex,
      CSRRegFile.traps, a.csr.isInt_eq rfl, takesInt_low, excNO_none]
    rfl
  have hmem : (a.execute .low w).memoryStage = ⟨a.pc, (a.slot w).info, 0, (a.slot w).srcInfo⟩ := by
    have hf : (a.execute .low w).csrFtc.flush = false := by
      show ((a.execute .low w).csrIn.mret || a.csr.traps (a.execute .low w).csrIn) = false
      rw [htr, hin]
      rfl
    show (⟨a.pc, if (a.execute .low w).csrFtc.flush then { (a.slot w).info with regWen := false }
      else (a.slot w).info, (fu a.csr (a.slot w)).wdata, (a.slot w).srcInfo⟩ : ExeMemData) = _
    rw [hf, if_neg Bool.false_ne_true, fu_slot a hd ht hv hp]
    rfl
  have hw : (addr.setWidth 32).setWidth 64 = addr := by
    have e : (RAM_START + RAM_SIZE).toNat = 0x88000000 := by decide
    have h₂ := hr.2
    rw [e] at h₂
    apply BitVec.eq_of_toNat_eq
    rw [BitVec.toNat_setWidth_of_le (by decide), BitVec.toNat_setWidth]
    have : addr.toNat + 1 ≤ 0x88000000 := h₂
    omega
  have hch : (sramOf mem).dataChannel (a.execute .low w).dataSram rdata =
      ⟨peek mem' base 8, sramOf mem'⟩ := by
    have hr' : InRam ((addr.setWidth 32).setWidth 64) 1 := hw.symm ▸ hr
    have hport := execute_port a hd ht hv hp
    rw [if_pos (beq_iff_eq.mpr hb)] at hport
    have h := SramXbar.dataChannel_sram mem hr' (congrArg DataSram.en hport)
      (congrArg DataSram.addr hport) rdata
    rw [hw, hport] at h
    rw [hport]
    exact h
  have hres : ∀ d, (a.result .low w d).rdWdata =
      if LSUOpType.isLoad op then loadValue op addr d 0 else 0 := by
    intro d
    simp only [Arch.result, memoryUnit, hmem, a.slot_valid, a.slot_fusel hd, a.slot_op hd,
      slot_addr a hd ht, beq_self_eq_true, Bool.true_and]
    rfl
  have hinfo : ∀ d, (a.result .low w d).info = (a.slot w).info := fun d =>
    congrArg ExeMemData.info hmem
  unfold cpuAccess
  simp only [htr, hch, writeBackUnit, hres, hinfo, a.slot_valid, a.slot_rd, Bool.true_and,
    Bool.false_eq_true, if_false]
  rfl

end

end

/-! ## the reference -/

section
variable {e : ExecState MmioMem} (hri : e.ri = false) (w : BitVec 32)
include hri

theorem accessEnd_trap {x : BitVec 64 × BitVec 64} (hp : e.core.priv.trapTaken = some x) :
    accessEnd w (.ok e) =
      some ⟨some x, e.core.bus.devices.map fun d => d.dev.mem, e.core.GPR⟩ := by
  have ht : e.core.priv.curNeedTrap = true := by
    unfold RvPriv.trapTaken at hp
    split at hp
    · assumption
    · cases hp
  unfold accessEnd
  simp only [settle_trap hri w _ ht, hp]

theorem accessEnd_quiet (ht : e.core.priv.curNeedTrap = false) :
    accessEnd w (.ok e) =
      some ⟨none, e.core.bus.devices.map fun d => d.dev.mem, e.core.GPR⟩ := by
  have hp : e.core.priv.trapTaken = none := by
    rw [RvPriv.trapTaken, ht]
    rfl
  unfold accessEnd
  simp only [settle_quiet hri w _ ht, hp]

end

section
variable {c : RvCore MmioMem} {w : BitVec 32} {mem : Bytes} {addr size : BitVec 64}
  (hn : c.priv.curNeedTrap = false) (hb : c.bus.devices = [ramEntry mem])
include hn hb

/-- an instruction that ends in a trap -/
theorem accessEnd_raise {code : RvExcCode} (hc : code ≠ RvExcCode.instrPgfault)
    (hcode : code.getLsbD 63 = false) {x : Except Halt (ExecState MmioMem)}
    (hx : ∀ p, c.raise code addr = .ok { c with priv := p } →
      x = .ok ⟨{ c with priv := p }, false, false⟩) :
    accessEnd w x = some ⟨some (code, addr), [mem], c.GPR⟩ := by
  obtain ⟨p, hp, ht⟩ := raise_taken hn code hc hcode addr
  have h := @accessEnd_trap ⟨{ c with priv := p }, false, false⟩ rfl w _ ht
  simp only [hb] at h
  rw [hx p hp]
  exact h

theorem accessEnd_load_misaligned {conv : BitVec 64 → BitVec 64}
    (hk : RvCore.loadKind (RvInstr.funct3 w) = some (size, conv))
    (ha : c.GPR (RvInstr.rs1 w) + (RvInstr.imm12 w).signExtend 64 = addr) (hm : addr % size ≠ 0) :
    accessEnd w (c.load w) = some ⟨some (RvExcCode.loadMisalign, addr), [mem], c.GPR⟩ := by
  refine accessEnd_raise hn hb (by decide) (by decide) fun p hp => ?_
  unfold RvCore.load RvCore.memRead
  simp only [hk, ha, if_pos (bne_iff_ne.mpr hm), hp]
  rfl

theorem accessEnd_store_misaligned (flags : Flags)
    (hk : RvCore.storeSize (RvInstr.funct3 w) = some size)
    (ha : c.GPR (RvInstr.rs1 w) + (RvInstr.immS w).signExtend 64 = addr) (hm : addr % size ≠ 0) :
    accessEnd w (c.store flags w) =
      some ⟨some (RvExcCode.storeMisalign, addr), [mem], c.GPR⟩ := by
  refine accessEnd_raise hn hb (by decide) (by decide) fun p hp => ?_
  unfold RvCore.store RvCore.memWrite
  simp only [hk, ha, if_pos (bne_iff_ne.mpr hm), hp]
  rfl

variable (hs : c.priv.satp = 0) (hm : addr % size = 0) (hr : InRam addr size)
include hs hm hr

theorem accessEnd_load {conv : BitVec 64 → BitVec 64}
    (hk : RvCore.loadKind (RvInstr.funct3 w) = some (size, conv))
    (ha : c.GPR (RvInstr.rs1 w) + (RvInstr.imm12 w).signExtend 64 = addr) :
    accessEnd w (c.load w) = some ⟨none, [mem], ARegFile.write c.GPR true (RvInstr.rd w)
      (conv (copyLow 0 size.toNat (peek mem (ramIndex addr) size.toNat)))⟩ := by
  have hm' : (addr % size != 0) = false := bne_eq_false_iff_eq.mpr hm
  have hl : c.load w = (c.setGPR (RvInstr.rd w)
      (conv (copyLow 0 size.toNat (peek mem (ramIndex addr) size.toNat)))).done := by
    unfold RvCore.load RvCore.memRead
    simp only [hk, ha, hm', Bool.false_eq_true, if_false,
      RvPriv.vaRead_bare (RvPriv.bare_of_satp hs), paRead_ram hr hb]
    rfl
  have h := @accessEnd_quiet ⟨c.setGPR (RvInstr.rd w)
    (conv (copyLow 0 size.toNat (peek mem (ramIndex addr) size.toNat))), false, false⟩ rfl w hn
  simp only [RvCore.setGPR, hb] at h
  rw [hl]
  exact h

theorem accessEnd_store {flags : Flags} (hk : RvCore.storeSize (RvInstr.funct3 w) = some size)
    (ha : c.GPR (RvInstr.rs1 w) + (RvInstr.immS w).signExtend 64 = addr)
    (hx : ¬ (flags.runRiscvTest = true ∧ addr = 0x80001000#64 ∧ c.GPR (RvInstr.rs2 w) = 1)) :
    accessEnd w (c.store flags w) = some ⟨none,
      [poke mem (ramIndex addr) size.toNat (c.GPR (RvInstr.rs2 w))], c.GPR⟩ := by
  have hm' : (addr % size != 0) = false := bne_eq_false_iff_eq.mpr hm
  have hexit : (flags.runRiscvTest && addr == 0x80001000#64 && c.GPR (RvInstr.rs2 w) == 1) =
      false := by
    rw [← Bool.not_eq_true, Bool.and_eq_true, Bool.and_eq_true, beq_iff_eq, beq_iff_eq, and_assoc]
    exact hx
  obtain ⟨hok, hdev⟩ := paWrite_ram hr hb (c.GPR (RvInstr.rs2 w))
  have hl : c.store flags w =
      ({ c with bus := (c.bus.paWrite addr size (c.GPR (RvInstr.rs2 w))).bus }).done := by
    unfold RvCore.store RvCore.memWrite
    simp only [hk, ha, hm', Bool.false_eq_true, if_false,
      RvPriv.vaWrite_bare (RvPriv.bare_of_satp hs), RvPriv.storeOrExit, hexit, hok]
    rfl
  have h := @accessEnd_quiet ⟨{ c with bus :=
    (c.bus.paWrite addr size (c.GPR (RvInstr.rs2 w))).bus }, false, false⟩ rfl w hn
  simp only [hdev, List.map_cons, List.map_nil, ramEntry_mem] at h
  rw [hl]
  exact h

end

/-! ## lockstep -/

theorem exBit_loadOp {f3 : BitVec 3} {op : BitVec 5} (h : loadOp f3 = some op) :
    LSUOpType.exBit op = f3.extractLsb' 0 2 ∧ LSUOpType.isStore op = false := by
  revert f3 op
  decide

theorem exBit_storeOp {f3 : BitVec 3} {op : BitVec 5} (h : storeOp f3 = some op) :
    LSUOpType.exBit op = f3.extractLsb' 0 2 ∧ LSUOpType.isStore op = true := by
  revert f3 op
  decide

/-- An aligned access lies in one double word. -/
theorem access_offset {addr : BitVec 64} {k : BitVec 2} (hr : InRam addr (1#64 <<< k))
    (hm : addr % (1#64 <<< k) = 0) : addr.toNat % 8 + (1#64 <<< k).toNat ≤ 8 ∧
      ramIndex addr / 8 * 8 + addr.toNat % 8 = ramIndex addr ∧ InRam addr 1 := by
  have key : ∀ k : BitVec 2, (1#64 <<< k).toNat ∈ [1, 2, 4, 8] := by decide
  have hk := key k
  simp only [List.mem_cons, List.not_mem_nil, or_false] at hk
  have hmod : addr.toNat % (1#64 <<< k).toNat = 0 := by
    rw [← BitVec.toNat_umod, hm]
    rfl
  have e : RAM_START.toNat = 0x80000000 := by decide
  obtain ⟨h₁, h₂⟩ := hr
  have h₁' := h₁
  rw [BitVec.le_def, e] at h₁'
  refine ⟨?_, ?_, h₁, ?_⟩
  · rcases hk with hk | hk | hk | hk <;> rw [hk] at hmod ⊢ <;> omega
  · rw [ramIndex, e]
    omega
  · have h1 : (1 : BitVec 64).toNat = 1 := rfl
    rw [h1]
    omega

/-- **The two sides of a load or a store agree**: in the trap of a misaligned address, which
changes nothing, and in the memory and the registers after an access inside the memory. -/
structure MemoryAgree (c : RvCore MmioMem) (file : CSRRegFile) (flags : Flags) (w : BitVec 32)
    (mem : Bytes) (rdata : BitVec 64) : Prop where
  misaligned : c.accessAddr w % accessSize w ≠ 0 →
    c.access flags w = some ⟨some (misalignCause w, c.accessAddr w), [mem], c.GPR⟩ ∧
      cpuAccess (c.toArch file) (sramOf mem) rdata w =
        ⟨some (misalignCause w, c.accessAddr w), [mem], c.GPR⟩
  aligned : c.accessAddr w % accessSize w = 0 → InRam (c.accessAddr w) (accessSize w) →
    ¬ c.endsTest flags w → ∃ mem' regs', c.access flags w = some ⟨none, [mem'], regs'⟩ ∧
      cpuAccess (c.toArch file) (sramOf mem) rdata w = ⟨none, [mem'], regs'⟩ ∧
      ∀ i, i < ramIndex (c.accessAddr w) ∨
        ramIndex (c.accessAddr w) + (accessSize w).toNat ≤ i → mem' i = mem i

section
variable {c : RvCore MmioMem} (file : CSRRegFile) (flags : Flags) {w : BitVec 32} {mem : Bytes}
  (hv : (decoder w).valid = true) (hp : c.pc.extractLsb' 0 2 = 0)
  (hn : c.priv.curNeedTrap = false) (hs : c.priv.satp = 0) (hb : c.bus.devices = [ramEntry mem])
  (rdata : BitVec 64)

include hv hp in
/-- the trap of the processor, for the address and the size that the word asks for -/
theorem cpu_misaligned {t : InstrType} {op : BitVec 5} (hd : decodeOf w = (t, .lsu, op))
    (ht : (t != .U && t != .J) = true)
    (ha : (c.toArch file).regs (RvInstr.rs1 w) + immOf t w = c.accessAddr w)
    (hsize : accessSize w = 1#64 <<< LSUOpType.exBit op)
    (hcause : misalignCause w = BitVec.ofNat 64 (misalignNo op))
    (hm : c.accessAddr w % accessSize w ≠ 0) : cpuAccess (c.toArch file) (sramOf mem) rdata w =
      ⟨some (misalignCause w, c.accessAddr w), [mem], c.GPR⟩ := by
  have hl : lsuBit op (c.accessAddr w) ≠ 0 := by
    intro h0
    rw [hsize] at hm
    exact hm ((lsuBit_eq_zero op _).mp h0)
  rw [← ha] at hl
  rw [cpuAccess_misaligned (c.toArch file) hd ht hv hp mem rdata hl, ha, hcause]
  rfl

include hv hp hn hs hb

theorem memory_load (h : opcodeOf w = Opcode.LOAD) : MemoryAgree c file flags w mem rdata := by
  obtain ⟨u, hu⟩ := row_of_valid (decodeOf_load h) hv
  obtain ⟨op, ho, rfl⟩ := Option.map_eq_some_iff.mp hu
  have hd : decodeOf w = (.I, .lsu, op) := by rw [decodeOf_load h, hu]; rfl
  obtain ⟨hbit, hst⟩ := exBit_loadOp ho
  have hns : opcodeOf w ≠ Opcode.STORE := by rw [h]; decide
  have ha : c.GPR (RvInstr.rs1 w) + (RvInstr.imm12 w).signExtend 64 = c.accessAddr w := by
    rw [RvCore.accessAddr, if_neg hns]
  have ha' : (c.toArch file).regs (RvInstr.rs1 w) + immOf .I w = c.accessAddr w := by
    rw [immOf_I]
    exact ha
  have hsize : accessSize w = 1#64 <<< LSUOpType.exBit op := by rw [accessSize, hbit]
  have hcause : misalignCause w = RvExcCode.loadMisalign := if_neg hns
  have hload : c.access flags w = accessEnd w ({ c with debugInst := w }.load w) := by
    rw [RvCore.access, decodeExec_load c flags h]
  obtain ⟨conv, hk, hval, hlow⟩ := loadValue_conv ho (c.accessAddr w)
    (peek mem (ramIndex (c.accessAddr w) / 8 * 8) 8) 0
  rw [← hsize] at hk
  refine ⟨fun hm => ⟨?_, ?_⟩, fun hm hr _ => ?_⟩
  · rw [hload, hcause]
    exact @accessEnd_load_misaligned { c with debugInst := w } w mem _ _ hn hb _ hk ha hm
  · refine cpu_misaligned file hv hp rdata hd (by decide) ha' hsize ?_ hm
    rw [hcause, misalignNo, hst]
    rfl
  · have hl : lsuBit op (c.accessAddr w) = 0 := (lsuBit_eq_zero op _).mpr (hsize ▸ hm)
    obtain ⟨hfit, hbase, hr1⟩ := access_offset (hsize ▸ hr) (hsize ▸ hm)
    have hcpu := cpuAccess_aligned (c.toArch file) hd (by decide) hv hp mem rdata (ha'.symm ▸ hl)
      (ha'.symm ▸ hr1)
    have hwen : ((c.toArch file).slot w).info.regWen = true := by
      rw [(c.toArch file).slot_regWen hd]
      rfl
    have hld : LSUOpType.isLoad op = true := by
      rw [LSUOpType.isLoad, ← LSUOpType.isStore, hst]
      rfl
    have hbytes : conv (peek mem (ramIndex (c.accessAddr w) / 8 * 8) 8 >>>
        (8 * ((c.accessAddr w).toNat % 8))) = conv (copyLow 0 (accessSize w).toNat
          (peek mem (ramIndex (c.accessAddr w)) (accessSize w).toNat)) := by
      refine hlow _ _ ?_
      rw [hsize, setWidth_peek_shift mem _ hfit, hbase, setWidth_copyLow _ _ (by omega)]
    simp only [ha', lsuWen_load hst, pokeStrb_zero, hwen, hld, if_true, hval, hbytes] at hcpu
    refine ⟨mem, _, ?_, hcpu, fun _ _ => rfl⟩
    rw [hload]
    exact @accessEnd_load { c with debugInst := w } w mem _ _ hn hb hs hm hr _ hk ha

theorem memory_store (h : opcodeOf w = Opcode.STORE) : MemoryAgree c file flags w mem rdata := by
  obtain ⟨u, hu⟩ := row_of_valid (decodeOf_store h) hv
  obtain ⟨op, ho, rfl⟩ := Option.map_eq_some_iff.mp hu
  have hd : decodeOf w = (.S, .lsu, op) := by rw [decodeOf_store h, hu]; rfl
  obtain ⟨hbit, hst⟩ := exBit_storeOp ho
  have ha : c.GPR (RvInstr.rs1 w) + (RvInstr.immS w).signExtend 64 = c.accessAddr w := by
    rw [RvCore.accessAddr, if_pos h]
  have ha' : (c.toArch file).regs (RvInstr.rs1 w) + immOf .S w = c.accessAddr w := by
    rw [immOf_S]
    exact ha
  have hsize : accessSize w = 1#64 <<< LSUOpType.exBit op := by rw [accessSize, hbit]
  have hcause : misalignCause w = RvExcCode.storeMisalign := if_pos h
  have hstore : c.access flags w = accessEnd w ({ c with debugInst := w }.store flags w) := by
    rw [RvCore.access, decodeExec_store c flags h]
  have hk : RvCore.storeSize (funct3Of w) = some (accessSize w) := by
    rw [hsize]
    exact storeSize_eq ho
  refine ⟨fun hm => ⟨?_, ?_⟩, fun hm hr hx => ?_⟩
  · rw [hstore, hcause]
    exact @accessEnd_store_misaligned { c with debugInst := w } w mem _ _ hn hb flags hk ha hm
  · refine cpu_misaligned file hv hp rdata hd (by decide) ha' hsize ?_ hm
    rw [hcause, misalignNo, hst]
    rfl
  · have hl : lsuBit op (c.accessAddr w) = 0 := (lsuBit_eq_zero op _).mpr (hsize ▸ hm)
    obtain ⟨hfit, hbase, hr1⟩ := access_offset (hsize ▸ hr) (hsize ▸ hm)
    have hcpu := cpuAccess_aligned (c.toArch file) hd (by decide) hv hp mem rdata (ha'.symm ▸ hl)
      (ha'.symm ▸ hr1)
    have hwen : ((c.toArch file).slot w).info.regWen = false := (c.toArch file).slot_regWen hd
    have hsrc : ((c.toArch file).slot w).srcInfo.src2Data = c.GPR (RvInstr.rs2 w) :=
      (c.toArch file).slot_src2 hd
    have hat : StoresAt op (c.accessAddr w) (accessSize w).toNat := by
      rw [hsize]
      exact store_strobe ho (hsize ▸ hm)
    have hpoke := pokeStrb_run mem (ramIndex (c.accessAddr w) / 8 * 8) ((c.accessAddr w).toNat % 8)
      (accessSize w).toNat hat.strobe (hat.data (c.GPR (RvInstr.rs2 w)))
    rw [hbase] at hpoke
    simp only [ha', hsrc, hpoke, hwen] at hcpu
    refine ⟨_, c.GPR, ?_, hcpu, fun i hi => poke_outside mem _ hi⟩
    rw [hstore]
    exact @accessEnd_store { c with debugInst := w } w mem _ _ hn hb hs hm hr flags hk ha
      fun hx' => hx ⟨h, hx'⟩

/-- **Loads and stores agree, but for the store that ends a riscv-test.** -/
theorem memory_lockstep (h : opcodeOf w ∈ memoryOpcodes) :
    MemoryAgree c file flags w mem rdata := by
  simp only [memoryOpcodes, List.mem_cons, List.not_mem_nil, or_false] at h
  rcases h with h | h
  · exact memory_load file flags hv hp hn hs hb rdata h
  · exact memory_store file flags hv hp hn hs hb rdata h

end

/-- `sd x1, 0(x2)` at an aligned address -/
theorem memory_lockstep_sd :
    let c := freshCore fun r => if r = 2 then 0x80000010 else 1
    ∃ mem' regs', c.access plainFlags 0x00113023 = some ⟨none, [mem'], regs'⟩ ∧
      cpuAccess (c.toArch .reset) (sramOf fun _ => 0) 0 0x00113023 = ⟨none, [mem'], regs'⟩ ∧
      ∀ i, i < 0x10 ∨ 0x18 ≤ i → mem' i = 0 :=
  (memory_lockstep .reset plainFlags (by decide +kernel) (by decide) (by decide) rfl rfl 0
    (by decide)).aligned (by decide) (by unfold InRam; decide) fun h => Bool.noConfusion h.2.1

/-- `sd x1, 0(x2)` of the value 1 to `0x80001000`: the reference ends the simulation, the processor
stores. -/
theorem tohost_store_differs :
    let c := freshCore fun r => if r = 2 then 0x80001000 else 1
    (decoder 0x00113023).valid = true ∧ c.accessAddr 0x00113023 % accessSize 0x00113023 = 0 ∧
      InRam (c.accessAddr 0x00113023) (accessSize 0x00113023) ∧
      c.access testFlags 0x00113023 ≠
        some (cpuAccess (c.toArch .reset) (sramOf fun _ => 0) 0 0x00113023) := by
  refine ⟨by decide +kernel, by decide, by unfold InRam; decide, fun h => ?_⟩
  have hn : RvCore.access (freshCore fun r => if r = 2 then 0x80001000 else 1) testFlags 0x00113023 =
      none := rfl
  cases hn.symm.trans h

end HduCpu
