import HduCpu.Isa.BubbleSort

/-!
# The bubble-sort test

The whole program on every array: it sorts, it checks its own result, and what the processor and the
differential test make of it.

* `check_returns`          the routine `check`;
* `Checking`, `check_array`   a loop that compares the array with 0, …, 19;
* `bubble_enters`, `bubble_sorts`   up to the first call of `bubble_sort`, and to its return;
* `bubble_runs`            the whole program;
* `processor_sorts`        the processor sorts;
* `testRun_bubbleSort`     the outcome of the test.
-/

namespace HduCpu

/-- the stack of `main` -/
def mainStack : BitVec 64 := 0x80008fc0

/-- `halt` has been called with 1. -/
structure Failed (s : Isa) : Prop where
  pc : s.pc = 0x80000120
  x10 : s.regs 10 = 1

section
variable {s : Isa}

/-- **`check`** returns, or it halts the program when its argument is 0. -/
theorem check_returns {ra : BitVec 64} (hpc : s.pc = 0x80000010) (h4 : ra % 4 = 0)
    (hra : s.regs 1 = ra) (hsp : s.regs 2 = mainStack) :
    bubbleText.Arrives (fun s' => if s.regs 10 = 0 then Failed s' else
      s'.pc = ra ∧ s'.regs = s.regs ∧ s'.mem = s.mem) 6 s := by
  by_cases h0 : s.regs 10 = 0
  · have hc : Cond.eq.holds (s.regs 10) (s.regs 0) = true := by
      rw [h0, s.zero]
      rfl
    have hsp' : AluOp.formResult .add false (s.regs 2) (-16) = mainStack - 16 := by
      rw [hsp]
      rfl
    simp only [if_pos h0]
    refine arrives_taken (bubble_at 4 rfl) hpc rfl rfl rfl hc rfl rfl ?_
    refine arrives_compute (bubble_at 6 rfl) rfl rfl rfl rfl hsp' ?_
    refine arrives_compute (bubble_at 7 rfl) rfl rfl rfl rfl (load_const s 1) ?_
    have ha : mainStack - 16 + 8 = mainStack - 8 := rfl
    refine arrives_store (bubble_at 8 rfl) rfl rfl rfl rfl ha (by decide) (by decide) rfl ?_
    refine arrives_jal (bubble_at 9 rfl) rfl rfl rfl rfl rfl ?_
    refine arrives_compute (v := 1) (bubble_at 71 rfl) rfl rfl rfl rfl rfl ?_
    exact .here ⟨rfl, rfl⟩
  · have hc : Cond.eq.holds (s.regs 10) (s.regs 0) = false := by
      rw [s.zero]
      exact beq_eq_false_iff_ne.mpr h0
    simp only [if_neg h0]
    refine arrives_fall (bubble_at 4 rfl) hpc rfl rfl rfl hc ?_
    have heven : (s.regs 1).getLsbD 0 = false := aligned_low (hra ▸ h4)
    have ht : s.regs 1 + 0 = ra := (BitVec.add_zero _).trans hra
    refine arrives_jalr (bubble_at 5 rfl) rfl rfl rfl rfl heven ht h4 (.here ?_)
    exact ⟨rfl, rfl, rfl⟩

theorem check_passes {ra : BitVec 64} (hpc : s.pc = 0x80000010) (h4 : ra % 4 = 0)
    (hra : s.regs 1 = ra) (hsp : s.regs 2 = mainStack) (h10 : s.regs 10 ≠ 0) :
    bubbleText.Arrives (fun s' => s'.pc = ra ∧ s'.regs = s.regs ∧ s'.mem = s.mem) 6 s := by
  refine (check_returns hpc h4 hra hsp).imp fun s' hs' => ?_
  rwa [if_neg h10] at hs'

end

/-! ## the loops that compare -/

/-- the two loops of `main`: the first instruction, the pointer and the limit -/
inductive CheckLoop where
  | first | second
deriving DecidableEq

namespace CheckLoop

def index : CheckLoop → ℕ
  | first => 42
  | second => 54

def pointer : CheckLoop → BitVec 5
  | first => 18
  | second => 9

def limit : CheckLoop → BitVec 5
  | first => 19
  | second => 18

/-- the jump to `check`, in units of two bytes -/
def callOffset : CheckLoop → BitVec 20
  | first => -86
  | second => -110

def code (l : CheckLoop) : List Instr := [
  ⟨.lw, .i 10 l.pointer 0⟩,
  ⟨.addi, .i l.pointer l.pointer 4⟩,
  ⟨.sub, .r 10 10 8⟩,
  ⟨.sltiu, .i 10 10 1⟩,
  ⟨.addiw, .i 8 8 1⟩,
  ⟨.jal, .j 1 l.callOffset⟩,
  ⟨.bne, .b 8 l.limit (-12)⟩]

theorem fetch_at (l : CheckLoop) (j : ℕ) {i : Instr} (hj : l.code[j]? = some i) :
    bubbleText.fetch (RAM_START + BitVec.ofNat 64 (4 * (l.index + j))) = some i := by
  obtain ⟨hlt, -⟩ := List.getElem?_eq_some_iff.mp hj
  have hlt7 : j < 7 := hlt
  have hcode : bubbleCode[l.index + j]? = l.code[j]? := by
    cases l <;> interval_cases j <;> rfl
  exact bubble_at _ (hcode.trans hj)

end CheckLoop

/-- The first `k` entries have been compared. -/
structure Checking (l : CheckLoop) (M : Bytes) (k : ℕ) (s : Isa) : Prop where
  pc : s.pc = RAM_START + BitVec.ofNat 64 (4 * if k < 20 then l.index else l.index + 7)
  pointer : s.regs l.pointer = cell k
  x8 : s.regs 8 = BitVec.ofNat 64 k
  limit : s.regs l.limit = 20
  sp : s.regs 2 = mainStack
  x9 : l = .first → s.regs 9 = cell 0
  mem : s.mem = M
  passed : ∀ j < k, value M j = j

/-- what `sub` and `sltiu` make of an entry and a number -/
theorem compare_eq_zero (w : BitVec 32) {k : ℕ} (hk : k < 20) :
    AluOp.formResult .sltu false
      (AluOp.formResult .sub false (w.signExtend 64) (BitVec.ofNat 64 k)) 1 = 0 ↔ w.toInt ≠ k := by
  have hsub : AluOp.formResult .sub false (w.signExtend 64) (BitVec.ofNat 64 k) =
      w.signExtend 64 - BitVec.ofNat 64 k := AluOp.result_sub _ _
  have hlt : ∀ x : BitVec 64, AluOp.formResult .sltu false x 1 = 0 ↔ x ≠ 0 := by
    intro x
    show AluOp.sltu.result x 1 = 0 ↔ x ≠ 0
    rw [AluOp.result_sltu]
    by_cases hx : x = 0
    · rw [hx]
      decide
    · have hpos : ¬ x.toNat < 1 := fun h => hx (BitVec.eq_of_toNat_eq (by simpa using h))
      have hult : x.ult 1 = false := decide_eq_false hpos
      rw [hult]
      exact iff_of_true rfl hx
  have hint : (BitVec.ofNat 64 k).toInt = k := by
    interval_cases k <;> rfl
  rw [hsub, hlt, ne_eq, sub_eq_zero, ← BitVec.toInt_inj, hint,
    BitVec.toInt_signExtend_of_le (by decide)]

section
variable {s : Isa} {l : CheckLoop} {M : Bytes}

/-- an entry is compared, up to the call of `check` -/
theorem Checking.call {k : ℕ} (h : Checking l M k s) (hk : k < 20) :
    bubbleText.Arrives (fun p => p.pc = 0x80000010 ∧
      p.regs 1 = RAM_START + BitVec.ofNat 64 (4 * (l.index + 6)) ∧
      (p.regs 10 = 0 ↔ value M k ≠ k) ∧ p.regs l.pointer = cell (k + 1) ∧
      p.regs 8 = BitVec.ofNat 64 (k + 1) ∧ p.regs l.limit = 20 ∧ p.regs 2 = mainStack ∧
      (l = .first → p.regs 9 = cell 0) ∧ p.mem = M) 6 s := by
  obtain ⟨hpc, hptr, hx8, hlim, hsp, hx9, rfl, hpassed⟩ := h
  rw [if_pos hk] at hpc
  have hacc : Accessible 0 (cell k) 4 := (accessible_cell hk).mono (Nat.zero_le _)
  have ha : s.regs l.pointer + 0 = cell k := (BitVec.add_zero _).trans hptr
  have hnext : AluOp.formResult .add false (s.regs l.pointer) 4 = cell (k + 1) := by
    rw [hptr]
    exact (AluOp.result_add _ _).trans (cell_next k)
  obtain ⟨d, x, hsub, hslt, hx⟩ : ∃ d x,
      AluOp.formResult .sub false ((entry s.mem k).signExtend 64) (s.regs 8) = d ∧
      AluOp.formResult .sltu false d 1 = x ∧ (x = 0 ↔ value s.mem k ≠ k) := by
    rw [hx8]
    exact ⟨_, _, rfl, rfl, compare_eq_zero _ hk⟩
  have h8 : AluOp.formResult .add true (s.regs 8) 1 = BitVec.ofNat 64 (k + 1) := by
    rw [hx8]
    interval_cases k <;> rfl
  have hcode : ∀ (j : ℕ) {i : Instr}, l.code[j]? = some i → _ := l.fetch_at
  cases l
  case first | second =>
    refine arrives_load (hcode 0 rfl) hpc rfl rfl rfl ha hacc (loaded_cell s hk) ?_
    refine arrives_compute (hcode 1 rfl) rfl rfl rfl rfl hnext ?_
    refine arrives_compute (hcode 2 rfl) rfl rfl rfl rfl hsub ?_
    refine arrives_compute (hcode 3 rfl) rfl rfl rfl rfl hslt ?_
    refine arrives_compute (hcode 4 rfl) rfl rfl rfl rfl h8 ?_
    refine arrives_jal (hcode 5 rfl) rfl rfl rfl rfl rfl (.here ?_)
    refine ⟨rfl, rfl, hx, rfl, rfl, hlim, hsp, fun hl => ?_, by repeat rw [put_mem]⟩
    first
    | exact hx9 hl
    | cases hl

theorem Checking.round {k : ℕ} (h : Checking l M k s) (hk : k < 20) :
    bubbleText.Arrives (fun s' => Checking l M (k + 1) s' ∨ Failed s' ∧ value M k ≠ k) 13 s := by
  refine Leads.trans (m := 6) (n := 7) (h.call hk)
    fun p ⟨hpc, hra, hcmp, hptr, hx8, hlim, hsp, hx9, hmem⟩ => ?_
  have h4 : (RAM_START + BitVec.ofNat 64 (4 * (l.index + 6))) % 4 = 0 := by
    cases l <;> rfl
  refine Leads.trans (m := 6) (n := 1) (check_returns hpc h4 hra hsp) fun q hq => ?_
  split at hq
  case isTrue h0 => exact .here (.inr ⟨hq, hcmp.mp h0⟩)
  case isFalse h0 =>
    obtain ⟨hpc, hregs, hmem'⟩ := hq
    have hv : value M k = k := by_contra fun hv => h0 (hcmp.mpr hv)
    have hne : Cond.ne.holds (q.regs 8) (q.regs l.limit) = decide (k + 1 < 20) := by
      rw [hregs, hx8, hlim]
      interval_cases k <;> rfl
    have hpassed : ∀ j < k + 1, value M j = j := by
      intro j hj
      rcases Nat.lt_succ_iff_lt_or_eq.mp hj with hj | rfl
      · exact h.passed j hj
      · exact hv
    have hhead : (RAM_START + BitVec.ofNat 64 (4 * l.index)) % 4 = 0 := by
      cases l <;> rfl
    have hback : RAM_START + BitVec.ofNat 64 (4 * (l.index + 6)) + 0xffffffffffffffe8 =
        RAM_START + BitVec.ofNat 64 (4 * l.index) := by
      cases l <;> rfl
    have hon : RAM_START + BitVec.ofNat 64 (4 * (l.index + 6)) + 4 =
        RAM_START + BitVec.ofNat 64 (4 * (l.index + 7)) := by
      cases l <;> rfl
    have hdone : ∀ pc v, pc = RAM_START + BitVec.ofNat 64
        (4 * if k + 1 < 20 then l.index else l.index + 7) →
        Checking l M (k + 1) (q.put pc 0 v) := by
      intro pc v hpc
      exact ⟨hpc, (congrFun hregs _).trans hptr, (congrFun hregs _).trans hx8,
        (congrFun hregs _).trans hlim, (congrFun hregs _).trans hsp,
        fun hl => (congrFun hregs _).trans (hx9 hl), hmem'.trans hmem, hpassed⟩
    by_cases hlast : k + 1 < 20
    · rw [decide_eq_true hlast] at hne
      refine arrives_taken (l.fetch_at 6 rfl) hpc rfl rfl rfl hne hback hhead (.here (.inl ?_))
      exact hdone _ _ (by rw [if_pos hlast])
    · rw [decide_eq_false hlast] at hne
      refine arrives_fall (l.fetch_at 6 rfl) hpc rfl rfl rfl hne (.here (.inl ?_))
      exact hdone _ _ (by rw [if_neg hlast, hon])

/-- **A loop passes an array with 0, …, 19 and halts the program on another one.** -/
theorem check_array (h : Checking l M 0 s) :
    bubbleText.Arrives
      (fun s' => Checking l M 20 s' ∨ Failed s' ∧ ∃ j < 20, value M j ≠ j) 260 s := by
  refine Leads.rounds (m := 20) (n := 13)
    (I := fun k s' => Checking l M k s' ∨ Failed s' ∧ ∃ j < 20, value M j ≠ j) ?_ (.inl h)
  rintro k s' hk (hs | hs)
  · refine (hs.round hk).imp fun p hp => hp.imp_right fun ⟨hf, hv⟩ => ⟨hf, k, hk, hv⟩
  · exact .here (.inr hs)

end

/-! ## the beginning and the end -/

/-- Outside the stack of the program the memory is as it was. -/
def OnStack (M : Bytes) (s : Isa) : Prop := ∀ x, x < 0x8fc0 ∨ 0x9000 ≤ x → s.mem x = M x

section
variable {M : Bytes} {s : Isa}

theorem OnStack.put (h : OnStack M s) (pc : BitVec 64) (rd : BitVec 5) (v : BitVec 64) :
    OnStack M (s.put pc rd v) := h

theorem OnStack.written (h : OnStack M s) (pc : BitVec 64) {a : BitVec 64} (v : BitVec 64)
    (ha : 0x8fc0 ≤ ramIndex a ∧ ramIndex a + 8 ≤ 0x9000) :
    OnStack M (s.written pc (poke s.mem (ramIndex a) 8 v)) := by
  intro x hx
  rw [written_mem, poke_outside _ _ (by omega)]
  exact h x hx

end

/-- `main` has saved its registers and calls `bubble_sort`. -/
structure Entered (mem : Bytes) (s : Isa) : Prop where
  pc : s.pc = 0x80000028
  x1 : s.regs 1 = 0x800000a0
  sp : s.regs 2 = mainStack
  x9 : s.regs 9 = cell 0
  x18 : s.regs 18 = cell 0
  frame : OnStack mem s
  saved : peek s.mem 0x8fe8 8 = 0x8000013c

theorem bubble_enters (mem : Bytes) : bubbleText.Arrives (Entered mem) 19 (.start mem) := by
  refine arrives_compute (bubble_at 0 rfl) rfl rfl rfl rfl rfl ?_
  refine arrives_auipc (bubble_at 1 rfl) rfl rfl rfl rfl ?_
  refine arrives_compute (v := 0x80009000) (bubble_at 2 rfl) rfl rfl rfl rfl rfl ?_
  refine arrives_jal (bubble_at 3 rfl) rfl rfl rfl rfl rfl ?_
  refine arrives_compute (v := 0x80008ff0) (bubble_at 74 rfl) rfl rfl rfl rfl rfl ?_
  refine arrives_auipc (bubble_at 75 rfl) rfl rfl rfl rfl ?_
  refine arrives_compute (bubble_at 76 rfl) rfl rfl rfl rfl rfl ?_
  have h₀ : (0x80008ff0 : BitVec 64) + 8 = 0x80008ff8 := rfl
  refine arrives_store (v := 0x80000010) (bubble_at 77 rfl) rfl rfl rfl rfl h₀ (by decide)
    (by decide) rfl ?_
  refine arrives_jal (bubble_at 78 rfl) rfl rfl rfl rfl rfl ?_
  refine arrives_compute (v := mainStack) (bubble_at 30 rfl) rfl rfl rfl rfl rfl ?_
  have h₁ : mainStack + 24 = 0x80008fd8 := rfl
  have h₂ : mainStack + 32 = 0x80008fe0 := rfl
  have h₃ : mainStack + 16 = 0x80008fd0 := rfl
  have h₄ : mainStack + 8 = 0x80008fc8 := rfl
  have h₅ : mainStack + 40 = 0x80008fe8 := rfl
  refine arrives_store (v := 0) (bubble_at 31 rfl) rfl rfl rfl rfl h₁ (by decide) (by decide) rfl ?_
  refine arrives_auipc (bubble_at 32 rfl) rfl rfl rfl rfl ?_
  refine arrives_compute (v := cell 0) (bubble_at 33 rfl) rfl rfl rfl rfl rfl ?_
  refine arrives_store (v := 0) (bubble_at 34 rfl) rfl rfl rfl rfl h₂ (by decide) (by decide) rfl ?_
  refine arrives_store (v := 0) (bubble_at 35 rfl) rfl rfl rfl rfl h₃ (by decide) (by decide) rfl ?_
  refine arrives_store (v := 0) (bubble_at 36 rfl) rfl rfl rfl rfl h₄ (by decide) (by decide) rfl ?_
  refine arrives_store (v := 0x8000013c) (bubble_at 37 rfl) rfl rfl rfl rfl h₅ (by decide)
    (by decide) rfl ?_
  refine arrives_compute (v := cell 0) (bubble_at 38 rfl) rfl rfl rfl rfl rfl ?_
  refine arrives_jal (bubble_at 39 rfl) rfl rfl rfl rfl rfl (.here ?_)
  refine ⟨rfl, rfl, rfl, rfl, rfl, ?_, ?_⟩
  · have hm : OnStack mem (.start mem) := fun _ _ => rfl
    refine .put (.put (.written ?_ _ _ (by decide)) _ _ _) _ _ _
    refine .written (.written (.written ?_ _ _ (by decide)) _ _ (by decide)) _ _ (by decide)
    refine .put (.put (.written ?_ _ _ (by decide)) _ _ _) _ _ _
    refine .put (.put (.written ?_ _ _ (by decide)) _ _ _) _ _ _
    exact ((((((hm.put _ _ _).put _ _ _).put _ _ _).put _ _ _).put _ _ _).put _ _ _).put _ _ _
  · have hix : ramIndex 0x80008fe8 = 0x8fe8 := rfl
    rw [put_mem, put_mem, written_mem, hix]
    have hp := fun m => peek_poke m 0x8fe8 (n := 8) (by decide) 0x8000013c
    simp only [Nat.reduceMul, BitVec.setWidth_eq] at hp
    rw [hp]

/-- The program is about to end with 0. -/
structure Passed (s : Isa) : Prop where
  pc : s.pc = 0x80000140
  x10 : s.regs 10 = 0

section
variable {s s₀ : Isa} {M : Bytes}

/-- after the first call of `bubble_sort` -/
theorem Entered.checks (h : Entered M s₀) (hpc : s.pc = 0x800000a0) (ha : Aside s₀ s) :
    bubbleText.Arrives (Checking .first s.mem 0) 2 s := by
  have hsp : s.regs 2 = mainStack := (ha.regs 2 (by decide)).trans h.sp
  have hx9 : s.regs 9 = cell 0 := (ha.regs 9 (by decide)).trans h.x9
  have hx18 : s.regs 18 = cell 0 := (ha.regs 18 (by decide)).trans h.x18
  refine arrives_compute (bubble_at 40 rfl) hpc rfl rfl rfl (load_const s 0) ?_
  refine arrives_compute (bubble_at 41 rfl) rfl rfl rfl rfl (load_const s 20) (.here ?_)
  exact ⟨rfl, hx18, rfl, rfl, hsp, fun _ => hx9, by rw [put_mem, put_mem], fun _ hj => by omega⟩

/-- **The second sort** leaves an array that has passed as it is. -/
theorem Checking.again (h : Checking .first M 20 s) :
    bubbleText.Arrives (fun p => Checking .second p.mem 0 p ∧ value p.mem = value M ∧
      ∀ x, x < arrayBase ∨ arrayBase + 80 ≤ x → p.mem x = M x) 2695 s := by
  obtain ⟨hpc, -, -, -, hsp, hx9, rfl, hpassed⟩ := h
  have h10 : (1 : BitVec 64) ≠ 0 := by decide
  have h4 : (0x800000cc : BitVec 64) % 4 = 0 := by decide
  have h4' : (0x800000d4 : BitVec 64) % 4 = 0 := by decide
  refine arrives_compute (bubble_at 49 rfl) hpc rfl rfl rfl (load_const s 1) ?_
  refine arrives_jal (bubble_at 50 rfl) rfl rfl rfl rfl rfl ?_
  refine Leads.trans (m := 6) (n := 2687) (check_passes rfl h4 rfl hsp h10)
    fun p ⟨hpc, hregs, hmem⟩ => ?_
  refine arrives_compute (bubble_at 51 rfl) hpc rfl rfl rfl (load_const p 0) ?_
  refine arrives_jal (bubble_at 52 rfl) rfl rfl rfl rfl rfl ?_
  refine Leads.trans (m := 2684) (n := 1) (bubble_sort_returns rfl h4' rfl)
    fun q ⟨hq, ha, hv⟩ => ?_
  have hpm : p.mem = s.mem := by
    rw [hmem, put_mem, put_mem]
  have hqm : ∀ x, x < arrayBase ∨ arrayBase + 80 ≤ x → q.mem x = s.mem x := by
    intro x hx
    rw [ha.mem x hx, put_mem, put_mem, hpm]
  have hsorted : ∀ k < 19, value s.mem k ≤ value s.mem (k + 1) := by
    intro k hk
    rw [hpassed k (by omega), hpassed (k + 1) (by omega)]
    omega
  have hqv : value q.mem = value s.mem := by
    rw [hv, put_mem, put_mem, hpm, bubble_eq_self _ hsorted]
  have hq8 : q.regs 8 = 0 := ha.regs 8 (by decide)
  have hq9 : q.regs 9 = cell 0 := (ha.regs 9 (by decide)).trans ((congrFun hregs 9).trans (hx9 rfl))
  have hq2 : q.regs 2 = mainStack := (ha.regs 2 (by decide)).trans ((congrFun hregs 2).trans hsp)
  refine arrives_compute (bubble_at 53 rfl) hq rfl rfl rfl (load_const q 20) (.here ⟨?_, hqv, hqm⟩)
  refine ⟨rfl, hq9, hq8, rfl, hq2, fun h => ?_, rfl, fun _ hj => absurd hj (Nat.not_lt_zero _)⟩
  cases h

/-- up to the `ebreak` that ends the program -/
theorem Checking.ends (h : Checking .second M 20 s) (hsaved : peek M 0x8fe8 8 = 0x8000013c) :
    bubbleText.Arrives Passed 17 s := by
  obtain ⟨hpc, -, -, -, hsp, -, rfl, -⟩ := h
  have h10 : (1 : BitVec 64) ≠ 0 := by decide
  have h4 : (0x800000fc : BitVec 64) % 4 = 0 := by decide
  refine arrives_compute (bubble_at 61 rfl) hpc rfl rfl rfl (load_const s 1) ?_
  refine arrives_jal (bubble_at 62 rfl) rfl rfl rfl rfl rfl ?_
  refine Leads.trans (m := 6) (n := 9) (check_passes rfl h4 rfl hsp h10)
    fun p ⟨hpc, hregs, hmem⟩ => ?_
  have hp2 : p.regs 2 = mainStack := (congrFun hregs 2).trans hsp
  have haddr : ∀ k, p.regs 2 + k = mainStack + k := fun k => by rw [hp2]
  have hret : p.loaded (mainStack + 40) 8 true = 0x8000013c := by
    have hix : ramIndex (mainStack + 40) = 0x8fe8 := rfl
    rw [Isa.loaded, hix, hmem, put_mem, put_mem, hsaved]
    rfl
  have heven : (0x8000013c : BitVec 64).getLsbD 0 = false := rfl
  have ht : (0x8000013c : BitVec 64) + 0 = 0x8000013c := rfl
  refine arrives_load (bubble_at 63 rfl) hpc rfl rfl rfl (haddr 40) (by decide) hret ?_
  refine arrives_load (bubble_at 64 rfl) rfl rfl rfl rfl (haddr 32) (by decide) rfl ?_
  refine arrives_load (bubble_at 65 rfl) rfl rfl rfl rfl (haddr 24) (by decide) rfl ?_
  refine arrives_load (bubble_at 66 rfl) rfl rfl rfl rfl (haddr 16) (by decide) rfl ?_
  refine arrives_load (bubble_at 67 rfl) rfl rfl rfl rfl (haddr 8) (by decide) rfl ?_
  refine arrives_compute (bubble_at 68 rfl) rfl rfl rfl rfl (load_const p 0) ?_
  refine arrives_compute (bubble_at 69 rfl) rfl rfl rfl rfl rfl ?_
  refine arrives_jalr (bubble_at 70 rfl) rfl rfl rfl rfl heven ht rfl ?_
  refine arrives_compute (v := 0) (bubble_at 79 rfl) rfl rfl rfl rfl rfl (.here ⟨rfl, rfl⟩)

end

/-! ## the whole program -/

section
variable {mem : Bytes} {s s₀ : Isa}

/-- `bubble_sort` has returned for the first time. -/
structure Sorted (mem : Bytes) (s : Isa) : Prop where
  pc : s.pc = 0x800000a0
  sorted : (array s.mem).Pairwise (· ≤ ·)
  perm : (array s.mem).Perm (array mem)
  frame : ∀ x, x < arrayBase ∨ arrayBase + 80 ≤ x → x < 0x8fc0 ∨ 0x9000 ≤ x → s.mem x = mem x

theorem Entered.array_eq (h : Entered mem s) : array s.mem = array mem := by
  refine array_congr fun k hk => ?_
  rw [value, value, entry, entry, peek_congr fun x _ hx => h.frame x (.inl ?_)]
  have hb : arrayBase = 0x150 := rfl
  omega

theorem Entered.sorted (h : Entered mem s₀) (hpc : s.pc = 0x800000a0) (ha : Aside s₀ s)
    (hv : value s.mem = bubble 19 (value s₀.mem)) : Sorted mem s := by
  obtain ⟨hsorted, hperm⟩ := array_sorted hv
  exact ⟨hpc, hsorted, h.array_eq ▸ hperm, fun x hx hst => (ha.mem x hx).trans (h.frame x hst)⟩

theorem bubble_sorts (mem : Bytes) : bubbleText.Arrives (Sorted mem) 2703 (.start mem) := by
  refine Leads.trans (m := 19) (n := 2684) (bubble_enters mem) fun p hp => ?_
  have h4 : (0x800000a0 : BitVec 64) % 4 = 0 := by decide
  exact (bubble_sort_returns hp.pc h4 hp.x1).imp fun q ⟨hpc, ha, hv⟩ => hp.sorted hpc ha hv

/-- the array that the test accepts -/
def counting : List ℤ := (List.range 20).map (↑)

/-- A sorted array passes when it has the numbers up to 19. -/
theorem sorted_passes (hs : Sorted mem s) :
    (∀ j < 20, value s.mem j = j) ↔ (array mem).Perm counting := by
  constructor
  · intro h
    have he : array s.mem = counting :=
      List.map_congr_left fun j hj => h j (List.mem_range.mp hj)
    exact he ▸ hs.perm.symm
  · intro h j hj
    have hcount : counting.Pairwise (· ≤ ·) :=
      List.pairwise_map.mpr (List.pairwise_lt_range.imp fun hlt => by omega)
    have he : array s.mem = counting := (hs.perm.trans h).eq_of_pairwise' hs.sorted hcount
    exact List.map_inj_left.mp he j (List.mem_range.mpr hj)

/-- the part of `main` behind the first sort -/
theorem Entered.rest (h : Entered mem s₀) (hpc : s.pc = 0x800000a0) (ha : Aside s₀ s) :
    bubbleText.Arrives (fun p => (∀ j < 20, value s.mem j = j) ∧ Passed p ∨
      (∃ j < 20, value s.mem j ≠ j) ∧ Failed p) 3234 s := by
  have hsaved : peek s.mem 0x8fe8 8 = 0x8000013c := by
    rw [← h.saved]
    exact peek_congr fun x hx _ => ha.mem x (.inr (by rw [arrayBase]; omega))
  refine Leads.trans (m := 2) (n := 3232) (h.checks hpc ha) fun p hp => ?_
  refine Leads.trans (m := 260) (n := 2972) (check_array hp) fun p hp => ?_
  rcases hp with hp | ⟨hf, hj⟩
  · have hpassed : ∀ j < 20, value s.mem j = j := hp.passed
    refine Leads.trans (m := 2695) (n := 277) hp.again fun q ⟨hq, hv, hm⟩ => ?_
    have hqsaved : peek q.mem 0x8fe8 8 = 0x8000013c := by
      rw [← hsaved]
      exact peek_congr fun x hx _ => hm x (.inr (by rw [arrayBase]; omega))
    refine Leads.trans (m := 260) (n := 17) (check_array hq) fun r hr => ?_
    rcases hr with hr | ⟨-, j, hj, hne⟩
    · exact (hr.ends hqsaved).imp fun _ h => .inl ⟨hpassed, h⟩
    · rw [hv] at hne
      exact absurd (hpassed j hj) hne
  · exact .here (.inr ⟨hj, hf⟩)

/-- **The program accepts exactly the arrays with the numbers up to 19.** -/
theorem bubble_runs (mem : Bytes) :
    bubbleText.Arrives (fun p => (array mem).Perm counting ∧ Passed p ∨
      ¬ (array mem).Perm counting ∧ Failed p) 5937 (.start mem) := by
  refine Leads.trans (m := 19) (n := 5918) (bubble_enters mem) fun p hp => ?_
  have h4 : (0x800000a0 : BitVec 64) % 4 = 0 := by decide
  refine Leads.trans (m := 2684) (n := 3234) (bubble_sort_returns hp.pc h4 hp.x1)
    fun q ⟨hpc, ha, hv⟩ => ?_
  have hpass := sorted_passes (hp.sorted hpc ha hv)
  refine (hp.rest hpc ha).imp fun r hr => ?_
  rcases hr with ⟨hj, hr⟩ | ⟨⟨j, hj, hne⟩, hr⟩
  · exact .inl ⟨hpass.mp hj, hr⟩
  · exact .inr ⟨fun h => hne (hpass.mpr h j hj), hr⟩

theorem Passed.exits (h : Passed s) : s.step bubbleText = .error (.exit 0) := by
  have hf : bubbleText.fetch s.pc = some ⟨.ebreak, .env⟩ := by
    rw [h.pc]
    exact bubble_at 80 rfl
  have he : Instr.exec bubbleText ⟨.ebreak, .env⟩ s =
      .error (if s.regs 10 = 0 then .exit 0 else .outside) := rfl
  rw [Isa.step, hf]
  show Instr.exec bubbleText ⟨.ebreak, .env⟩ s = _
  rw [he, if_pos h.x10]

end

/-! ## on the processor, and in the differential test -/

section
variable {mem : Bytes} (hin : bubbleText.In mem)
include hin

/-- **The processor sorts.**  From every image with the program in it, whatever the array, the
pipelined processor comes to the return of `bubble_sort` with the array sorted in its memory, and
the other bytes as in the image except for the stack. -/
theorem processor_sorts : ∃ n ≤ 8114, ∃ s, (socRun mem n).Shows s ∧ s.pc = 0x800000a0 ∧
    (array s.mem).Pairwise (· ≤ ·) ∧ (array s.mem).Perm (array mem) ∧
    ∀ x, x < arrayBase ∨ arrayBase + 80 ≤ x → x < 0x8fc0 ∨ 0x9000 ≤ x → s.mem x = mem x := by
  obtain ⟨k, hk, s, hs, hsorted⟩ := isaRun_arrives (bubble_sorts mem)
  obtain ⟨n, hn, hE⟩ := executed_hits mem k
  obtain ⟨s', hs', hshows⟩ := shows_executed hin hs (by omega) hE.le
  rw [hE, hs] at hs'
  obtain rfl := Except.ok.inj hs'
  exact ⟨n, by omega, s, hshows, hsorted.pc, hsorted.sorted, hsorted.perm, hsorted.frame⟩

/-- **The bubble-sort test, for every array.**  With the numbers up to 19 in any order the simulator
ends with 0, after at most 17817 cycles and without an alarm in any of them; with another array the
processor comes to the `ebreak` of `halt` with 1 in `a0`. -/
theorem testRun_bubbleSort (o : SimOpts) :
    ((array mem).Perm counting → ∃ N ≤ 17817,
      testRun o testFlags (testStart testFlags mem fun _ => 0) N = .error (.exit 0) ∧
      ∀ n < N, ∃ r, testRun o testFlags (testStart testFlags mem fun _ => 0) n = .ok r ∧
        r.running = true ∧ r.Passes ∧ r.SameRegs) ∧
    (¬ (array mem).Perm counting → ∃ n ≤ 17816, ∃ s, (socRun mem n).Shows s ∧
      s.pc = 0x80000120 ∧ s.regs 10 = 1) := by
  obtain ⟨k, hk, s, hs, hend⟩ := isaRun_arrives (bubble_runs mem)
  rcases hend with ⟨hperm, hp⟩ | ⟨hperm, hf⟩
  · refine ⟨fun _ => ?_, fun hn => absurd hperm hn⟩
    have hconf := conforming_isa hin (by omega) hs
    obtain ⟨N, hN, hexit, hrun⟩ :=
      testRun_through (o := o) hconf (refRun_ends hin (by omega) hs hp.exits)
    refine ⟨N, by omega, hexit, fun n hn => ?_⟩
    obtain ⟨-, r, hr, hsil⟩ := hrun n hn
    exact ⟨r, hr, hsil.running, hsil.passes, hsil.same⟩
  · refine ⟨fun h => absurd h hperm, fun _ => ?_⟩
    obtain ⟨n, hn, hE⟩ := executed_hits mem k
    obtain ⟨s', hs', hshows⟩ := shows_executed hin hs (by omega) hE.le
    rw [hE, hs] at hs'
    obtain rfl := Except.ok.inj hs'
    exact ⟨n, by omega, s, hshows, hf.pc, hf.x10⟩

end

theorem in_bubbleImage : bubbleText.In bubbleImage := Text.in_image (List.prefix_append _ _)

theorem bubbleData_perm : (array bubbleImage).Perm counting := by decide +kernel

theorem processor_sorts_image : ∃ n ≤ 8114, ∃ s, (socRun bubbleImage n).Shows s ∧
    (array s.mem).Pairwise (· ≤ ·) ∧ (array s.mem).Perm counting := by
  obtain ⟨n, hn, s, hs, -, hsorted, hperm, -⟩ := processor_sorts in_bubbleImage
  exact ⟨n, hn, s, hs, hsorted, hperm.trans bubbleData_perm⟩

theorem testRun_bubbleSort_image : ∃ N ≤ 17817, testRun ⟨false, false⟩ testFlags
    (testStart testFlags bubbleImage fun _ => 0) N = .error (.exit 0) := by
  obtain ⟨N, hN, hexit, -⟩ := (testRun_bubbleSort in_bubbleImage ⟨false, false⟩).1 bubbleData_perm
  exact ⟨N, hN, hexit⟩

end HduCpu
