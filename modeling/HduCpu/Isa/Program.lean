import HduCpu.Isa.Processor
import HduCpu.Lib.Triple

/-!
# Rules for programs

Total correctness of machine code, by one rule for each kind of instruction: the instruction at the
pc, the value that it computes or the address that it uses, and what is left to show of the next
state.

* `Text.Arrives`           in at most so many steps the program comes to a state of `Q`;
* `arrives_compute`, `arrives_auipc`, `arrives_jal`, `arrives_jalr`, `arrives_taken`,
  `arrives_fall`, `arrives_load`, `arrives_store`   the rules;
* `isaRun_arrives`         from the start of a program.
-/

namespace HduCpu

/-- in at most `n` steps to a state of `Q` -/
abbrev Text.Arrives (t : Text) (Q : Isa → Prop) (n : ℕ) (s : Isa) : Prop := Leads (Isa.step t) Q n s

/-- the state with another pc and another memory -/
def Isa.written (s : Isa) (pc : BitVec 64) (mem : Bytes) : Isa := ⟨pc, s.regs, mem, s.zero⟩

section
variable {s : Isa} (pc : BitVec 64)

@[simp] theorem put_pc (rd : BitVec 5) (v : BitVec 64) : (s.put pc rd v).pc = pc := rfl

@[simp] theorem put_regs (rd r : BitVec 5) (v : BitVec 64) :
    (s.put pc rd v).regs r = if rd ≠ 0 ∧ r = rd then v else s.regs r := by
  show (if rd = 0 then s.regs else Function.update s.regs rd v) r = _
  by_cases h : rd = 0
  · rw [if_pos h, if_neg fun hr => hr.1 h]
  · have hr : rd ≠ 0 ∧ r = rd ↔ r = rd := and_iff_right h
    rw [if_neg h, Function.update_apply]
    exact if_congr hr.symm rfl rfl

@[simp] theorem written_pc (mem : Bytes) : (s.written pc mem).pc = pc := rfl

@[simp] theorem written_regs (mem : Bytes) : (s.written pc mem).regs = s.regs := rfl

@[simp] theorem written_mem (mem : Bytes) : (s.written pc mem).mem = mem := rfl

end

/-! ## the rules -/

theorem aligned_low {a : BitVec 64} (h : a % 4 = 0) : a.getLsbD 0 = false := by
  have hm : a.toNat % 4 = 0 := by
    have ht := congrArg BitVec.toNat h
    rwa [BitVec.toNat_umod] at ht
  rw [BitVec.getLsbD, Nat.testBit_zero, decide_eq_false_iff_not]
  omega

/-- A jump clears bit 0, which is clear. -/
theorem aligned_and {a : BitVec 64} (h : a % 4 = 0) : a &&& ~~~1 = a := by
  apply BitVec.eq_of_getLsbD_eq
  intro k hk
  rw [BitVec.getLsbD_and, BitVec.getLsbD_not, decide_eq_true hk, Bool.true_and]
  cases k with
  | zero => rw [aligned_low h, Bool.false_and]
  | succ k =>
    have h1 : (1 : BitVec 64).getLsbD (k + 1) = false := by
      show (1#64).getLsbD (k + 1) = false
      rw [BitVec.getLsbD_one]
      simp
    rw [h1, Bool.not_false, Bool.and_true]

section
variable {t : Text} {s s' : Isa} {Q : Isa → Prop} {n : ℕ} {pc : BitVec 64} {i : Instr}
  (hf : t.fetch pc = some i) (hpc : s.pc = pc)
include hf hpc

theorem arrives_exec (he : i.exec t s = .ok s') (h : t.Arrives Q n s') : t.Arrives Q (n + 1) s := by
  refine .next ?_ h
  rw [Isa.step, hpc, hf]
  exact he

variable {rd rs1 rs2 : BitVec 5} {v target addr : BitVec 64} {bytes : ℕ}

/-- an operation on two registers, or on a register and the immediate -/
theorem arrives_compute {op : AluOp} {op32 imm : Bool}
    (hi : i.mnemonic.action = .compute op op32 imm) (hd : i.operands.rd = some rd)
    (h₁ : i.operands.rs1 = some rs1)
    (hv : op.formResult op32 (s.regs rs1)
      (if imm then i.operands.immediate else s.regs (i.operands.rs2.getD 0)) = v)
    (h : t.Arrives Q n (s.put (pc + 4) rd v)) : t.Arrives Q (n + 1) s := by
  refine arrives_exec hf hpc ?_ h
  rw [Instr.exec, hi]
  simp only [hd, h₁, Option.getD_some, hv, hpc]

theorem arrives_auipc (hi : i.mnemonic.action = .auipc) (hd : i.operands.rd = some rd)
    (hv : pc + i.operands.imm = v) (h : t.Arrives Q n (s.put (pc + 4) rd v)) :
    t.Arrives Q (n + 1) s := by
  refine arrives_exec hf hpc ?_ h
  rw [Instr.exec, hi]
  simp only [hd, Option.getD_some, hv, hpc]

theorem arrives_jal (hi : i.mnemonic.action = .jal) (hd : i.operands.rd = some rd)
    (ht : pc + i.operands.imm = target) (h4 : target % 4 = 0)
    (h : t.Arrives Q n (s.put target rd (pc + 4))) : t.Arrives Q (n + 1) s := by
  refine arrives_exec hf hpc ?_ h
  rw [Instr.exec, hi]
  simp only [hd, Option.getD_some, hpc, ht, Isa.jump]
  rw [if_pos h4]

theorem arrives_jalr (hi : i.mnemonic.action = .jalr) (hd : i.operands.rd = some rd)
    (h₁ : i.operands.rs1 = some rs1) (heven : (s.regs rs1).getLsbD 0 = false)
    (ht : s.regs rs1 + i.operands.imm = target) (h4 : target % 4 = 0)
    (h : t.Arrives Q n (s.put target rd (pc + 4))) : t.Arrives Q (n + 1) s := by
  refine arrives_exec hf hpc ?_ h
  rw [Instr.exec, hi]
  simp only [hd, h₁, Option.getD_some, hpc, heven, ht, Isa.jump, aligned_and h4]
  rw [if_neg Bool.false_ne_true, if_pos h4]

/-- a branch that is taken -/
theorem arrives_taken {c : Cond} (hi : i.mnemonic.action = .branch c)
    (h₁ : i.operands.rs1 = some rs1) (h₂ : i.operands.rs2 = some rs2)
    (hc : c.holds (s.regs rs1) (s.regs rs2) = true) (ht : pc + i.operands.imm = target)
    (h4 : target % 4 = 0) (h : t.Arrives Q n (s.put target 0 (pc + 4))) :
    t.Arrives Q (n + 1) s := by
  refine arrives_exec hf hpc ?_ h
  rw [Instr.exec, hi]
  simp only [h₁, h₂, Option.getD_some, hpc, ht, Isa.jump]
  rw [if_pos hc, if_pos h4]

/-- a branch that is not taken -/
theorem arrives_fall {c : Cond} (hi : i.mnemonic.action = .branch c)
    (h₁ : i.operands.rs1 = some rs1) (h₂ : i.operands.rs2 = some rs2)
    (hc : c.holds (s.regs rs1) (s.regs rs2) = false) (h : t.Arrives Q n (s.put (pc + 4) 0 0)) :
    t.Arrives Q (n + 1) s := by
  refine arrives_exec hf hpc ?_ h
  rw [Instr.exec, hi]
  simp only [h₁, h₂, Option.getD_some, hpc, hc]
  rfl

theorem arrives_load {signed : Bool} (hi : i.mnemonic.action = .load bytes signed)
    (hd : i.operands.rd = some rd) (h₁ : i.operands.rs1 = some rs1)
    (ha : s.regs rs1 + i.operands.imm = addr) (hacc : Accessible 0 addr bytes)
    (hv : s.loaded addr bytes signed = v) (h : t.Arrives Q n (s.put (pc + 4) rd v)) :
    t.Arrives Q (n + 1) s := by
  refine arrives_exec hf hpc ?_ h
  rw [Instr.exec, hi]
  simp only [hd, h₁, Option.getD_some, hpc, ha, Isa.load]
  rw [if_pos hacc, hv]

theorem arrives_store (hi : i.mnemonic.action = .store bytes) (h₁ : i.operands.rs1 = some rs1)
    (h₂ : i.operands.rs2 = some rs2) (ha : s.regs rs1 + i.operands.imm = addr)
    (hne : addr ≠ tohost) (hacc : Accessible (4 * t.words.length) addr bytes)
    (hv : s.regs rs2 = v)
    (h : t.Arrives Q n (s.written (pc + 4) (poke s.mem (ramIndex addr) bytes v))) :
    t.Arrives Q (n + 1) s := by
  refine arrives_exec hf hpc ?_ h
  rw [Instr.exec, hi]
  simp only [h₁, h₂, Option.getD_some, hpc, ha, hv, Isa.store]
  rw [if_neg fun hx => hne hx.1, if_pos hacc]
  rfl

end

/-- a constant, loaded with `addi` from register 0 -/
theorem load_const (s : Isa) (k : BitVec 64) : AluOp.formResult .add false (s.regs 0) k = k := by
  rw [s.zero]
  exact (AluOp.result_add 0 k).trans (BitVec.zero_add k)

/-! ## whole programs -/

/-- The instructions that the words of a text encode are fetched from their places. -/
theorem fetch_code {t : Text} {code : List Instr} (h : code.map Instr.encode = t.words) {k : ℕ}
    {i : Instr} (hk : code[k]? = some i) :
    t.fetch (RAM_START + BitVec.ofNat 64 (4 * k)) = some i := by
  have hw : t.words[k]? = some i.encode := by rw [← h, List.getElem?_map, hk, Option.map_some]
  obtain ⟨hlt, -⟩ := List.getElem?_eq_some_iff.mp hw
  have hfits : 4 * t.words.length ≤ 0x8000000 := t.fits
  have hstart : RAM_START.toNat = 0x80000000 := rfl
  have hpc : (RAM_START + BitVec.ofNat 64 (4 * k)).toNat = RAM_START.toNat + 4 * k := by
    rw [BitVec.toNat_add, BitVec.toNat_ofNat, hstart]
    omega
  have hal : (RAM_START + BitVec.ofNat 64 (4 * k)) % 4 = 0 := by
    apply BitVec.eq_of_toNat_eq
    rw [BitVec.toNat_umod, hpc, hstart]
    show (0x80000000 + 4 * k) % 4 = 0
    omega
  have hle : RAM_START ≤ RAM_START + BitVec.ofNat 64 (4 * k) := by
    rw [BitVec.le_def, hpc]
    omega
  have hix : ramIndex (RAM_START + BitVec.ofNat 64 (4 * k)) / 4 = k := by
    rw [ramIndex, hpc]
    omega
  rw [Text.fetch, if_pos ⟨hal, hle⟩, hix, hw, Option.bind_some, decode_eq_some.mpr rfl]

theorem isaRun_eq (t : Text) (mem : Bytes) (n : ℕ) :
    isaRun t mem n = iterate (Isa.step t) (.start mem) n := by
  induction n with
  | zero => rfl
  | succ n ih => rw [isaRun, ih, iterate]

/-- From the start of a program. -/
theorem isaRun_arrives {t : Text} {mem : Bytes} {Q : Isa → Prop} {n : ℕ}
    (h : t.Arrives Q n (.start mem)) : ∃ k ≤ n, ∃ s, isaRun t mem k = .ok s ∧ Q s := by
  obtain ⟨k, hk, s, hs, hq⟩ := h.iterate
  exact ⟨k, hk, s, (isaRun_eq t mem k).trans hs, hq⟩

end HduCpu
