import HduCpu.Isa.Program
import HduCpu.Lib.Exchange
import HduCpu.Ref.Amo

/-!
# The sort of the bubble-sort test

The program of the test `bubble-sort`, and its routine `bubble_sort` on every array.

* `bubbleSort`, `bubbleCode`   the words of the program, and as it is disassembled;
* `value`                  the entries of the array `a` in the memory;
* `Aside`                  what the routine leaves alone;
* `sort_exchange`, `Sweeping.round`   the inner loop;
* `Passing.next`           the outer loop;
* `bubble_sort_returns`    the routine.
-/

namespace HduCpu

/-! ## the program -/

/-- the instructions of `04-bubble-sort.bin` -/
def bubbleSort : List (BitVec 32) :=
  [0x00000413, 0x00009117, 0xFFC10113, 0x11C000EF, 0x00050463, 0x00008067, 0xFF010113,
   0x00100513, 0x00113423, 0x0F8000EF, 0x01300793, 0x00000517, 0x12850513, 0x04078063,
   0xFFF7859B, 0x02059793, 0x01E7D613, 0x00A60633, 0x00000797, 0x10878793, 0x0007A703,
   0x0047A683, 0x00E6D663, 0x00D7A023, 0x00E7A223, 0x00478793, 0xFEC794E3, 0x0005879B,
   0xFC0794E3, 0x00008067, 0xFD010113, 0x00913C23, 0x00000497, 0x0D048493, 0x02813023,
   0x01213823, 0x01313423, 0x02113423, 0x00048913, 0xF8DFF0EF, 0x00000413, 0x01400993,
   0x00092503, 0x00490913, 0x40850533, 0x00153513, 0x0014041B, 0xF55FF0EF, 0xFF3414E3,
   0x00100513, 0xF49FF0EF, 0x00000413, 0xF59FF0EF, 0x01400913, 0x0004A503, 0x00448493,
   0x40850533, 0x00153513, 0x0014041B, 0xF25FF0EF, 0xFF2414E3, 0x00100513, 0xF19FF0EF,
   0x02813083, 0x02013403, 0x01813483, 0x01013903, 0x00813983, 0x00000513, 0x03010113,
   0x00008067, 0x00050513, 0x00100073, 0x0000006F, 0xFF010113, 0x00000517, 0x01C50513,
   0x00113423, 0xF41FF0EF, 0x00050513, 0x00100073, 0x0000006F]

/-- the same in the words of the disassembler -/
def bubbleCode : List Instr := [
  -- _start
  ⟨.addi, .i 8 0 0⟩,
  ⟨.auipc, .u 2 9⟩,
  ⟨.addi, .i 2 2 (-4)⟩,
  ⟨.jal, .j 1 142⟩,
  -- check
  ⟨.beq, .b 10 0 4⟩,
  ⟨.jalr, .i 0 1 0⟩,
  ⟨.addi, .i 2 2 (-16)⟩,
  ⟨.addi, .i 10 0 1⟩,
  ⟨.sd, .s 2 1 8⟩,
  ⟨.jal, .j 1 124⟩,
  -- bubble_sort
  ⟨.addi, .i 15 0 19⟩,
  ⟨.auipc, .u 10 0⟩,
  ⟨.addi, .i 10 10 296⟩,
  ⟨.beq, .b 15 0 32⟩,
  ⟨.addiw, .i 11 15 (-1)⟩,
  ⟨.slli, .shift 15 11 32⟩,
  ⟨.srli, .shift 12 15 30⟩,
  ⟨.add, .r 12 12 10⟩,
  ⟨.auipc, .u 15 0⟩,
  ⟨.addi, .i 15 15 264⟩,
  ⟨.lw, .i 14 15 0⟩,
  ⟨.lw, .i 13 15 4⟩,
  ⟨.bge, .b 13 14 6⟩,
  ⟨.sw, .s 15 13 0⟩,
  ⟨.sw, .s 15 14 4⟩,
  ⟨.addi, .i 15 15 4⟩,
  ⟨.bne, .b 15 12 (-12)⟩,
  ⟨.addiw, .i 15 11 0⟩,
  ⟨.bne, .b 15 0 (-28)⟩,
  ⟨.jalr, .i 0 1 0⟩,
  -- main
  ⟨.addi, .i 2 2 (-48)⟩,
  ⟨.sd, .s 2 9 24⟩,
  ⟨.auipc, .u 9 0⟩,
  ⟨.addi, .i 9 9 208⟩,
  ⟨.sd, .s 2 8 32⟩,
  ⟨.sd, .s 2 18 16⟩,
  ⟨.sd, .s 2 19 8⟩,
  ⟨.sd, .s 2 1 40⟩,
  ⟨.addi, .i 18 9 0⟩,
  ⟨.jal, .j 1 (-58)⟩,
  ⟨.addi, .i 8 0 0⟩,
  ⟨.addi, .i 19 0 20⟩,
  ⟨.lw, .i 10 18 0⟩,
  ⟨.addi, .i 18 18 4⟩,
  ⟨.sub, .r 10 10 8⟩,
  ⟨.sltiu, .i 10 10 1⟩,
  ⟨.addiw, .i 8 8 1⟩,
  ⟨.jal, .j 1 (-86)⟩,
  ⟨.bne, .b 8 19 (-12)⟩,
  ⟨.addi, .i 10 0 1⟩,
  ⟨.jal, .j 1 (-92)⟩,
  ⟨.addi, .i 8 0 0⟩,
  ⟨.jal, .j 1 (-84)⟩,
  ⟨.addi, .i 18 0 20⟩,
  ⟨.lw, .i 10 9 0⟩,
  ⟨.addi, .i 9 9 4⟩,
  ⟨.sub, .r 10 10 8⟩,
  ⟨.sltiu, .i 10 10 1⟩,
  ⟨.addiw, .i 8 8 1⟩,
  ⟨.jal, .j 1 (-110)⟩,
  ⟨.bne, .b 8 18 (-12)⟩,
  ⟨.addi, .i 10 0 1⟩,
  ⟨.jal, .j 1 (-116)⟩,
  ⟨.ld, .i 1 2 40⟩,
  ⟨.ld, .i 8 2 32⟩,
  ⟨.ld, .i 9 2 24⟩,
  ⟨.ld, .i 18 2 16⟩,
  ⟨.ld, .i 19 2 8⟩,
  ⟨.addi, .i 10 0 0⟩,
  ⟨.addi, .i 2 2 48⟩,
  ⟨.jalr, .i 0 1 0⟩,
  -- halt
  ⟨.addi, .i 10 10 0⟩,
  ⟨.ebreak, .env⟩,
  ⟨.jal, .j 0 0⟩,
  -- _trm_init
  ⟨.addi, .i 2 2 (-16)⟩,
  ⟨.auipc, .u 10 0⟩,
  ⟨.addi, .i 10 10 28⟩,
  ⟨.sd, .s 2 1 8⟩,
  ⟨.jal, .j 1 (-96)⟩,
  ⟨.addi, .i 10 10 0⟩,
  ⟨.ebreak, .env⟩,
  ⟨.jal, .j 0 0⟩]

theorem bubbleCode_encode : bubbleCode.map Instr.encode = bubbleSort := by rfl

theorem bubbleSort_fits : 4 * bubbleSort.length ≤ RAM_SIZE.toNat := by decide

def bubbleText : Text := ⟨bubbleSort, bubbleSort_fits⟩

/-- the data of `04-bubble-sort.bin`: two words of padding, and `a` -/
def bubbleData : List (BitVec 32) :=
  [0, 0, 2, 12, 14, 6, 13, 15, 16, 10, 0, 18, 11, 19, 9, 1, 7, 5, 4, 3, 8, 17]

def bubbleImage : Bytes := progBytes (bubbleSort ++ bubbleData)

/-- the `k`-th instruction -/
theorem bubble_at (k : ℕ) {i : Instr} (hk : bubbleCode[k]? = some i) :
    bubbleText.fetch (RAM_START + BitVec.ofNat 64 (4 * k)) = some i :=
  fetch_code bubbleCode_encode hk

/-! ## the array -/

/-- where `a` starts in the memory -/
def arrayBase : ℕ := 0x150

/-- the address of an entry -/
def cell (k : ℕ) : BitVec 64 := RAM_START + BitVec.ofNat 64 (arrayBase + 4 * k)

def entry (mem : Bytes) (k : ℕ) : BitVec 32 := (peek mem (arrayBase + 4 * k) 4).setWidth 32

/-- an entry as a number -/
def value (mem : Bytes) (k : ℕ) : ℤ := (entry mem k).toInt

theorem cell_next (k : ℕ) : cell k + 4 = cell (k + 1) := by
  rw [cell, cell, BitVec.add_assoc, show (4 : BitVec 64) = BitVec.ofNat 64 4 from rfl,
    ← BitVec.ofNat_add]
  rfl

theorem toNat_cell {k : ℕ} (hk : k < 20) :
    (cell k).toNat = RAM_START.toNat + (arrayBase + 4 * k) := by
  have hs : RAM_START.toNat = 0x80000000 := rfl
  have hb : arrayBase = 0x150 := rfl
  rw [cell, BitVec.toNat_add, BitVec.toNat_ofNat, hs, hb]
  omega

theorem ramIndex_cell {k : ℕ} (hk : k < 20) : ramIndex (cell k) = arrayBase + 4 * k := by
  rw [ramIndex, toNat_cell hk, Nat.add_sub_cancel_left]

theorem accessible_cell {k : ℕ} (hk : k < 20) :
    Accessible (4 * bubbleText.words.length) (cell k) 4 := by
  have hs : RAM_START.toNat = 0x80000000 := rfl
  have hb : arrayBase = 0x150 := rfl
  have hl : 4 * bubbleText.words.length = 0x148 := rfl
  have hz : RAM_SIZE.toNat = 0x8000000 := rfl
  rw [Accessible, toNat_cell hk, hs, hb, hl, hz]
  omega

theorem Accessible.mono {lo lo' : ℕ} {a : BitVec 64} {bytes : ℕ} (h : Accessible lo a bytes)
    (hlo : lo' ≤ lo) : Accessible lo' a bytes := by
  obtain ⟨h₁, h₂, h₃⟩ := h
  exact ⟨h₁, by omega, h₃⟩

theorem cell_ne_tohost {k : ℕ} (hk : k < 20) : cell k ≠ tohost := by
  intro h
  have ht := congrArg BitVec.toNat h
  have hs : RAM_START.toNat = 0x80000000 := rfl
  have hb : arrayBase = 0x150 := rfl
  have hh : tohost.toNat = 0x80001000 := rfl
  rw [toNat_cell hk, hs, hb, hh] at ht
  omega

/-- `lw` on an entry -/
theorem loaded_cell (s : Isa) {k : ℕ} (hk : k < 20) :
    s.loaded (cell k) 4 true = (entry s.mem k).signExtend 64 := by
  rw [Isa.loaded, ramIndex_cell hk]
  rfl

/-- `sw` into an entry -/
theorem entry_poke (mem : Bytes) (j k : ℕ) (v : BitVec 64) :
    entry (poke mem (arrayBase + 4 * j) 4 v) k = if k = j then v.setWidth 32 else entry mem k := by
  split_ifs with h
  · rw [h]
    exact peek_poke mem (arrayBase + 4 * j) (n := 4) (by decide) v
  · rw [entry, peek_poke_outside _ _ (by omega), entry]

/-- The comparison of two entries in registers is that of the numbers. -/
theorem slt_entries (mem : Bytes) (j k : ℕ) :
    ((entry mem j).signExtend 64).slt ((entry mem k).signExtend 64) =
      decide (value mem j < value mem k) := by
  rw [BitVec.slt, BitVec.toInt_signExtend_of_le (by decide),
    BitVec.toInt_signExtend_of_le (by decide)]
  rfl

/-- two neighbours changed over -/
theorem value_swap (mem : Bytes) (k : ℕ) :
    value (poke (poke mem (arrayBase + 4 * k) 4 ((entry mem (k + 1)).signExtend 64))
      (arrayBase + 4 * (k + 1)) 4 ((entry mem k).signExtend 64)) =
      value mem ∘ Equiv.swap k (k + 1) := by
  have hw : ∀ w : BitVec 32, (w.signExtend 64).setWidth 32 = w :=
    setWidth_signExtend_self (by decide)
  funext j
  rw [value, entry_poke, entry_poke, hw, hw, Function.comp_apply, Equiv.swap_apply_def]
  by_cases h₁ : j = k + 1
  · rw [if_pos h₁, if_neg (by omega), if_pos h₁]
    rfl
  · by_cases h₀ : j = k
    · rw [if_neg h₁, if_pos h₀, if_pos h₀]
      rfl
    · rw [if_neg h₁, if_neg h₀, if_neg h₀, if_neg h₁]
      rfl

/-! ## the inner loop -/

/-- From `s₀` to `s` the routine has touched the registers `x10`, …, `x15` and the array only. -/
structure Aside (s₀ s : Isa) : Prop where
  regs : ∀ r : BitVec 5, r.toNat < 10 ∨ 15 < r.toNat → s.regs r = s₀.regs r
  mem : ∀ x, x < arrayBase ∨ arrayBase + 80 ≤ x → s.mem x = s₀.mem x

section
variable {s₀ s : Isa}

theorem Aside.put (h : Aside s₀ s) (pc : BitVec 64) {rd : BitVec 5}
    (hd : rd = 0 ∨ 10 ≤ rd.toNat ∧ rd.toNat ≤ 15) (v : BitVec 64) : Aside s₀ (s.put pc rd v) := by
  refine ⟨fun r hr => ?_, h.mem⟩
  rw [put_regs, if_neg, h.regs r hr]
  rintro ⟨hd0, rfl⟩
  rcases hd with hd | hd
  · exact hd0 hd
  · omega

theorem Aside.written (h : Aside s₀ s) (pc : BitVec 64) {k : ℕ} (hk : k < 20) (v : BitVec 64) :
    Aside s₀ (s.written pc (poke s.mem (ramIndex (cell k)) 4 v)) := by
  refine ⟨h.regs, fun x hx => ?_⟩
  rw [written_mem, poke_outside _ _ (by rw [ramIndex_cell hk]; omega), h.mem x hx]

/-- the exchange of two neighbours, up to the end of the round -/
theorem sort_exchange (h : Aside s₀ s) {k : ℕ} (hk : k < 19) (hpc : s.pc = 0x80000050)
    (h15 : s.regs 15 = cell k) :
    bubbleText.Arrives (fun s' => Aside s₀ s' ∧ s'.pc = 0x80000064 ∧ s'.regs 15 = cell k ∧
      s'.regs 12 = s.regs 12 ∧ s'.regs 11 = s.regs 11 ∧ s'.regs 10 = s.regs 10 ∧
      value s'.mem = exchange (value s.mem) k) 5 s := by
  have hk0 : k < 20 := by omega
  have hk1 : k + 1 < 20 := by omega
  have hacc : ∀ j < 20, Accessible 0 (cell j) 4 :=
    fun j hj => (accessible_cell hj).mono (Nat.zero_le _)
  have ha0 : s.regs 15 + 0 = cell k := (BitVec.add_zero _).trans h15
  have ha1 : s.regs 15 + 4 = cell (k + 1) := by rw [h15, cell_next]
  have hc : Cond.ge.holds ((entry s.mem (k + 1)).signExtend 64) ((entry s.mem k).signExtend 64) =
      !decide (value s.mem (k + 1) < value s.mem k) := by
    rw [Cond.holds, slt_entries]
  refine arrives_load (bubble_at 20 rfl) hpc rfl rfl rfl ha0 (hacc k hk0) (loaded_cell s hk0) ?_
  refine arrives_load (bubble_at 21 rfl) rfl rfl rfl rfl ha1 (hacc _ hk1) (loaded_cell _ hk1) ?_
  by_cases hlt : value s.mem (k + 1) < value s.mem k
  · rw [decide_eq_true hlt] at hc
    refine arrives_fall (bubble_at 22 rfl) rfl rfl rfl rfl hc ?_
    refine arrives_store (v := (entry s.mem (k + 1)).signExtend 64) (bubble_at 23 rfl) rfl rfl rfl
      rfl ha0 (cell_ne_tohost hk0) (accessible_cell hk0) rfl ?_
    refine arrives_store (v := (entry s.mem k).signExtend 64) (bubble_at 24 rfl) rfl rfl rfl rfl
      ha1 (cell_ne_tohost hk1) (accessible_cell hk1) rfl ?_
    refine .here ⟨?_, rfl, h15, rfl, rfl, rfl, ?_⟩
    · exact ((((h.put _ (by decide) _).put _ (by decide) _).put _ (by decide) _).written
        _ hk0 _).written _ hk1 _
    · rw [written_mem, written_mem, put_mem, put_mem, put_mem, ramIndex_cell hk0, ramIndex_cell hk1,
        value_swap, exchange, if_pos hlt]
  · rw [decide_eq_false hlt] at hc
    refine arrives_taken (bubble_at 22 rfl) rfl rfl rfl rfl hc rfl rfl ?_
    refine .here ⟨?_, rfl, h15, rfl, rfl, rfl, ?_⟩
    · exact ((h.put _ (by decide) _).put _ (by decide) _).put _ (by decide) _
    · exact (if_neg hlt).symm

/-- `k` exchanges of the sweep up to index `n` are done. -/
structure Sweeping (s₀ : Isa) (n : ℕ) (f : ℕ → ℤ) (k : ℕ) (s : Isa) : Prop where
  aside : Aside s₀ s
  pc : s.pc = if k < n then 0x80000050 else 0x8000006c
  x15 : s.regs 15 = cell k
  x12 : s.regs 12 = cell n
  x11 : s.regs 11 = BitVec.ofNat 64 (n - 1)
  x10 : s.regs 10 = cell 1
  array : value s.mem = sweep f k

theorem cell_inj {j k : ℕ} (hj : j < 20) (hk : k < 20) (h : cell j = cell k) : j = k := by
  have ht := congrArg BitVec.toNat h
  rw [toNat_cell hj, toNat_cell hk] at ht
  omega

theorem Sweeping.round {n k : ℕ} {f : ℕ → ℤ} (h : Sweeping s₀ n f k s) (hn : n < 20) (hk : k < n) :
    bubbleText.Arrives (Sweeping s₀ n f (k + 1)) 7 s := by
  have hpc := h.pc
  rw [if_pos hk] at hpc
  refine Leads.trans (n := 2) (sort_exchange h.aside (by omega) hpc h.x15)
    fun p ⟨ha, hpc, h15, h12, h11, h10, harr⟩ => ?_
  have hv : AluOp.formResult .add false (p.regs 15) 4 = cell (k + 1) := by
    rw [h15]
    exact (AluOp.result_add _ _).trans (cell_next k)
  have h12' : p.regs 12 = cell n := h12.trans h.x12
  have harr' : value p.mem = sweep f (k + 1) := by rw [harr, h.array, sweep]
  have hdone : ∀ pc pc' v, pc' = (if k + 1 < n then 0x80000050 else 0x8000006c) →
      Sweeping s₀ n f (k + 1) ((p.put pc 15 (cell (k + 1))).put pc' 0 v) := by
    intro pc pc' v hpc'
    exact ⟨(ha.put _ (by decide) _).put _ (by decide) _, hpc', rfl, h12', h11.trans h.x11,
      h10.trans h.x10, by rw [put_mem, put_mem, harr']⟩
  refine arrives_compute (bubble_at 25 rfl) hpc rfl rfl rfl hv ?_
  by_cases hlast : k + 1 < n
  · have hc : Cond.ne.holds (cell (k + 1)) (p.regs 12) = true := by
      rw [h12']
      refine bne_iff_ne.mpr fun he => ?_
      have hkn := cell_inj (by omega) hn he
      omega
    refine arrives_taken (bubble_at 26 rfl) rfl rfl rfl rfl hc rfl rfl (.here ?_)
    exact hdone _ _ _ (if_pos hlast).symm
  · obtain rfl : k + 1 = n := by omega
    have hc : Cond.ne.holds (cell (k + 1)) (p.regs 12) = false := by
      rw [h12']
      exact bne_eq_false_iff_eq.mpr rfl
    refine arrives_fall (bubble_at 26 rfl) rfl rfl rfl rfl hc (.here ?_)
    exact hdone _ _ _ (if_neg hlast).symm

/-! ## the outer loop -/

/-- The sweeps up to `n`, `n - 1`, …, 1 are left. -/
structure Passing (s₀ : Isa) (f : ℕ → ℤ) (n : ℕ) (s : Isa) : Prop where
  aside : Aside s₀ s
  pc : s.pc = if n = 0 then 0x80000074 else 0x80000038
  x15 : s.regs 15 = BitVec.ofNat 64 n
  x10 : s.regs 10 = cell 1
  array : bubble n (value s.mem) = f

/-- the bounds of the next sweep -/
theorem Passing.enter {n : ℕ} {f : ℕ → ℤ} (h : Passing s₀ f (n + 1) s) (hn : n < 19) :
    bubbleText.Arrives (Sweeping s₀ (n + 1) (value s.mem) 0) 6 s := by
  have hdec : AluOp.formResult .add true (s.regs 15) (-1) = BitVec.ofNat 64 n := by
    rw [h.x15]
    interval_cases n <;> rfl
  have hshift : AluOp.formResult .srl false
      (AluOp.formResult .sll false (BitVec.ofNat 64 n) 32) 30 = BitVec.ofNat 64 (4 * n) := by
    interval_cases n <;> rfl
  have hend : AluOp.formResult .add false (BitVec.ofNat 64 (4 * n)) (s.regs 10) = cell (n + 1) := by
    rw [h.x10]
    interval_cases n <;> rfl
  refine arrives_compute (bubble_at 14 rfl) h.pc rfl rfl rfl hdec ?_
  refine arrives_compute (bubble_at 15 rfl) rfl rfl rfl rfl rfl ?_
  refine arrives_compute (bubble_at 16 rfl) rfl rfl rfl rfl hshift ?_
  refine arrives_compute (bubble_at 17 rfl) rfl rfl rfl rfl hend ?_
  refine arrives_auipc (bubble_at 18 rfl) rfl rfl rfl rfl ?_
  refine arrives_compute (v := cell 0) (bubble_at 19 rfl) rfl rfl rfl rfl rfl (.here ?_)
  refine ⟨?_, (if_pos (Nat.succ_pos n)).symm, rfl, rfl, rfl, h.x10, ?_⟩
  · exact (((((h.aside.put _ (by decide) _).put _ (by decide) _).put _ (by decide) _).put _
      (by decide) _).put _ (by decide) _).put _ (by decide) _
  · simp only [put_mem, sweep]

/-- the end of a sweep -/
theorem Sweeping.leave {n : ℕ} {f g : ℕ → ℤ} (h : Sweeping s₀ (n + 1) g (n + 1) s) (hn : n < 19)
    (hf : bubble (n + 1) g = f) : bubbleText.Arrives (Passing s₀ f n) 2 s := by
  have hpc := h.pc
  rw [if_neg (Nat.lt_irrefl _)] at hpc
  have hv : AluOp.formResult .add true (s.regs 11) 0 = BitVec.ofNat 64 n := by
    rw [h.x11]
    interval_cases n <;> rfl
  have hc : Cond.ne.holds (BitVec.ofNat 64 n) (s.regs 0) = !decide (n = 0) := by
    rw [s.zero]
    interval_cases n <;> rfl
  have harr : bubble n (value s.mem) = f := by rw [h.array, ← hf, bubble]
  have hdone : ∀ pc pc' v, pc' = (if n = 0 then 0x80000074 else 0x80000038) →
      Passing s₀ f n ((s.put pc 15 (BitVec.ofNat 64 n)).put pc' 0 v) := by
    intro pc pc' v hpc'
    exact ⟨(h.aside.put _ (by decide) _).put _ (by decide) _, hpc', rfl, h.x10,
      by rw [put_mem, put_mem, harr]⟩
  refine arrives_compute (bubble_at 27 rfl) hpc rfl rfl rfl hv ?_
  by_cases h0 : n = 0
  · rw [decide_eq_true h0] at hc
    refine arrives_fall (bubble_at 28 rfl) rfl rfl rfl rfl hc (.here ?_)
    exact hdone _ _ _ (if_pos h0).symm
  · rw [decide_eq_false h0] at hc
    refine arrives_taken (bubble_at 28 rfl) rfl rfl rfl rfl hc rfl rfl (.here ?_)
    exact hdone _ _ _ (if_neg h0).symm

theorem Passing.next {n : ℕ} {f : ℕ → ℤ} (h : Passing s₀ f (n + 1) s) (hn : n < 19) :
    bubbleText.Arrives (Passing s₀ f n) 141 s := by
  refine Leads.trans (m := 6) (n := 135) (h.enter hn) fun p hp => ?_
  have hsweep : bubbleText.Arrives (Sweeping s₀ (n + 1) (value s.mem) (n + 1)) 133 p :=
    (Leads.rounds (fun k s hk hs => hs.round (by omega) hk) hp).mono (by omega)
  exact Leads.trans (n := 2) hsweep fun q hq => hq.leave hn h.array

/-- `bubble_sort` returns to `ra`, with the array sorted. -/
theorem bubble_sort_returns {ra : BitVec 64} (hpc : s.pc = 0x80000028) (h4 : ra % 4 = 0)
    (hra : s.regs 1 = ra) :
    bubbleText.Arrives (fun s' => s'.pc = ra ∧ Aside s s' ∧
      value s'.mem = bubble 19 (value s.mem)) 2684 s := by
  have hc : Cond.eq.holds 19 (s.regs 0) = false := by
    rw [s.zero]
    rfl
  refine arrives_compute (bubble_at 10 rfl) hpc rfl rfl rfl (load_const s 19) ?_
  refine arrives_auipc (bubble_at 11 rfl) rfl rfl rfl rfl ?_
  refine arrives_compute (v := cell 1) (bubble_at 12 rfl) rfl rfl rfl rfl rfl ?_
  refine arrives_fall (bubble_at 13 rfl) rfl rfl rfl rfl hc ?_
  refine Leads.trans (m := 2679) (n := 1) (Leads.rounds (m := 19) (n := 141)
    (I := fun k => Passing s (bubble 19 (value s.mem)) (19 - k)) (fun k p hk hp => ?_) ?_)
    fun p hp => ?_
  · have hn : 19 - k = 19 - (k + 1) + 1 := by omega
    rw [hn] at hp
    exact hp.next (by omega)
  · have h₀ : Aside s s := ⟨fun _ _ => rfl, fun _ _ => rfl⟩
    refine ⟨?_, rfl, rfl, rfl, by rw [put_mem, put_mem, put_mem, put_mem]⟩
    exact (((h₀.put _ (by decide) _).put _ (by decide) _).put _ (by decide) _).put _ (by decide) _
  · have h1 : p.regs 1 = ra := (hp.aside.regs 1 (by decide)).trans hra
    have heven : (p.regs 1).getLsbD 0 = false := aligned_low (h1 ▸ h4)
    have ht : p.regs 1 + 0 = ra := (BitVec.add_zero _).trans h1
    refine arrives_jalr (bubble_at 29 rfl) hp.pc rfl rfl rfl heven ht h4 (.here ?_)
    exact ⟨rfl, hp.aside.put _ (by decide) _, by rw [put_mem, ← hp.array, Nat.sub_self, bubble]⟩

end

/-! ## the array as a list -/

def array (mem : Bytes) : List ℤ := (List.range 20).map (value mem)

theorem array_congr {mem mem' : Bytes} (h : ∀ k < 20, value mem k = value mem' k) :
    array mem = array mem' :=
  List.map_congr_left fun k hk => h k (List.mem_range.mp hk)

theorem array_sorted {mem mem' : Bytes} (h : value mem' = bubble 19 (value mem)) :
    (array mem').Pairwise (· ≤ ·) ∧ (array mem').Perm (array mem) := by
  rw [array, h]
  exact ⟨bubble_pairwise _ 19, (bubble_rearranged _ 19).perm⟩

/-- **`bubble_sort` sorts every array**: from every state at its start it comes back to the address
in `x1`, with the entries in order and the rest of the memory and all registers but `x10`, …, `x15`
as they were. -/
theorem bubble_sort_sorts (s : Isa) (hpc : s.pc = 0x80000028) (hra : s.regs 1 % 4 = 0) :
    ∃ k ≤ 2684, ∃ s', iterate (Isa.step bubbleText) s k = .ok s' ∧ s'.pc = s.regs 1 ∧
      (array s'.mem).Pairwise (· ≤ ·) ∧ (array s'.mem).Perm (array s.mem) ∧ Aside s s' := by
  obtain ⟨k, hk, s', hs, hpc', ha, hv⟩ := (bubble_sort_returns hpc hra rfl).iterate
  exact ⟨k, hk, s', hs, hpc', (array_sorted hv).1, (array_sorted hv).2, ha⟩

/-- the array of the test, which is not in order before -/
theorem bubble_sort_sorts_image : ¬ (array bubbleImage).Pairwise (· ≤ ·) ∧
    ∃ k ≤ 2684, ∃ s', iterate (Isa.step bubbleText) ⟨0x80000028, fun _ => 0, bubbleImage, rfl⟩ k =
      .ok s' ∧ s'.pc = 0 ∧ (array s'.mem).Pairwise (· ≤ ·) ∧
        (array s'.mem).Perm (array bubbleImage) := by
  obtain ⟨k, hk, s', hs, hpc, hsorted, hperm, -⟩ :=
    bubble_sort_sorts ⟨0x80000028, fun _ => 0, bubbleImage, rfl⟩ rfl rfl
  exact ⟨by decide +kernel, k, hk, s', hs, hpc, hsorted, hperm⟩

end HduCpu
