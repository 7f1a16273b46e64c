import HduCpu.Isa.Arithmetic
import HduCpu.Lockstep.Conform
import HduCpu.Lockstep.Run

/-!
# The machine of the instruction set

What a program means, without a pipeline, devices, privilege modes or traps: a pc, 32 registers and
the bytes of the memory.  The program text is apart from the data: an instruction comes from the
text, and a store into it is outside the machine, as are a trap, an access outside the memory and
the instructions for CSRs.  So is a `jalr` from an odd register: the reference clears bit 0 of the
immediate there, where RV64I clears bit 0 of the sum.

* `Mnemonic.action`        what an instruction asks for;
* `Isa`                    the state, in which register 0 is zero;
* `Instr.exec`, `Isa.step`, `isaRun`   an instruction, a step, a run from the start of the memory;
* `decode_eq_some`         a word is fetched as the instruction that it encodes;
* `Isa.step_holds`, `isaRun_holds`   the text stays in the memory.
-/

namespace HduCpu

/-! ## what an instruction asks for -/

/-- the condition of a branch -/
inductive Cond where
  | eq | ne | lt | ge | ltu | geu
deriving DecidableEq

def Cond.holds (a b : BitVec 64) : Cond → Bool
  | eq => a == b
  | ne => a != b
  | lt => a.slt b
  | ge => !a.slt b
  | ltu => a.ult b
  | geu => !a.ult b

inductive Action where
  /-- an operation on `rs1` and `rs2`, or on `rs1` and the immediate -/
  | compute (op : AluOp) (op32 imm : Bool)
  | lui
  | auipc
  | jal
  | jalr
  | branch (cond : Cond)
  | load (bytes : ℕ) (signed : Bool)
  | store (bytes : ℕ)
  | skip
  | ecall
  | ebreak
  | system
deriving DecidableEq

def Mnemonic.action : Mnemonic → Action
  | .add => .compute .add false false
  | .sll => .compute .sll false false
  | .slt => .compute .slt false false
  | .sltu => .compute .sltu false false
  | .xor => .compute .xor false false
  | .srl => .compute .srl false false
  | .or => .compute .or false false
  | .and => .compute .and false false
  | .sub => .compute .sub false false
  | .sra => .compute .sra false false
  | .addi => .compute .add false true
  | .slli => .compute .sll false true
  | .slti => .compute .slt false true
  | .sltiu => .compute .sltu false true
  | .xori => .compute .xor false true
  | .srli => .compute .srl false true
  | .ori => .compute .or false true
  | .andi => .compute .and false true
  | .srai => .compute .sra false true
  | .auipc => .auipc
  | .lui => .lui
  | .sllw => .compute .sll true false
  | .srlw => .compute .srl true false
  | .sraw => .compute .sra true false
  | .addw => .compute .add true false
  | .subw => .compute .sub true false
  | .slliw => .compute .sll true true
  | .srliw => .compute .srl true true
  | .sraiw => .compute .sra true true
  | .addiw => .compute .add true true
  | .mul => .compute .mul false false
  | .mulh => .compute .mulh false false
  | .mulhsu => .compute .mulhsu false false
  | .mulhu => .compute .mulhu false false
  | .div => .compute .div false false
  | .divu => .compute .divu false false
  | .rem => .compute .rem false false
  | .remu => .compute .remu false false
  | .mulw => .compute .mul true false
  | .divw => .compute .div true false
  | .divuw => .compute .divu true false
  | .remw => .compute .rem true false
  | .remuw => .compute .remu true false
  | .lb => .load 1 true
  | .lh => .load 2 true
  | .lw => .load 4 true
  | .ld => .load 8 true
  | .lbu => .load 1 false
  | .lhu => .load 2 false
  | .lwu => .load 4 false
  | .sb => .store 1
  | .sh => .store 2
  | .sw => .store 4
  | .sd => .store 8
  | .beq => .branch .eq
  | .bne => .branch .ne
  | .blt => .branch .lt
  | .bge => .branch .ge
  | .bltu => .branch .ltu
  | .bgeu => .branch .geu
  | .jal => .jal
  | .jalr => .jalr
  | .csrrw | .csrrs | .csrrc | .csrrwi | .csrrsi | .csrrci | .mret => .system
  | .ecall => .ecall
  | .ebreak => .ebreak
  | .fence | .wfi => .skip

/-- the immediate as an operand: the amount of a shift is a number below 64 -/
def Operands.immediate {f : Format} (o : Operands f) : BitVec 64 :=
  o.shiftAmount.elim o.imm (·.setWidth 64)

/-! ## the state -/

structure Isa where
  pc : BitVec 64
  regs : BitVec 5 → BitVec 64
  mem : Bytes
  zero : regs 0 = 0

/-- Why there is no next state: the program has ended, or the machine says nothing about it.  It is
`outside` at a trap, at a CSR instruction, at an access outside the memory, at a store into the text
and at a `jalr` from an odd register. -/
inductive Stop where
  | exit (code : ℕ)
  | outside
deriving DecidableEq

/-- the instructions of a program, from the start of the memory on -/
structure Text where
  words : List (BitVec 32)
  fits : 4 * words.length ≤ RAM_SIZE.toNat

/-- the words of the text, at their places -/
def Text.In (t : Text) (mem : Bytes) : Prop :=
  ∀ i w, t.words[i]? = some w → (peek mem (4 * i) 4).setWidth 32 = w

namespace Isa
section
variable (s : Isa)

/-- goes on at `pc` with `v` in a register; register 0 stays zero -/
def put (pc : BitVec 64) (rd : BitVec 5) (v : BitVec 64) : Isa where
  pc := pc
  regs := if rd = 0 then s.regs else Function.update s.regs rd v
  mem := s.mem
  zero := by
    by_cases h : rd = 0
    · rw [if_pos h]
      exact s.zero
    · rw [if_neg h, Function.update_of_ne (Ne.symm h)]
      exact s.zero

def jump (rd : BitVec 5) (target : BitVec 64) : Except Stop Isa :=
  if target % 4 = 0 then .ok (s.put target rd (s.pc + 4)) else .error .outside

end
end Isa

/-- an aligned access of so many bytes from position `lo` of the memory on -/
def Accessible (lo : ℕ) (addr : BitVec 64) (bytes : ℕ) : Prop :=
  addr.toNat % bytes = 0 ∧ RAM_START.toNat + lo ≤ addr.toNat ∧
    addr.toNat + bytes ≤ RAM_START.toNat + RAM_SIZE.toNat

instance (lo : ℕ) (addr : BitVec 64) (bytes : ℕ) : Decidable (Accessible lo addr bytes) :=
  inferInstanceAs (Decidable (_ ∧ _))

/-- the word that a test stores 1 to at its end -/
def tohost : BitVec 64 := 0x80001000

namespace Isa
section
variable (t : Text) (s : Isa)

/-- the bytes at an address, as a register has them -/
def loaded (addr : BitVec 64) (bytes : ℕ) (signed : Bool) : BitVec 64 :=
  let v := (peek s.mem (ramIndex addr) bytes).setWidth (8 * bytes)
  if signed then v.signExtend 64 else v.setWidth 64

def load (rd : BitVec 5) (addr : BitVec 64) (bytes : ℕ) (signed : Bool) : Except Stop Isa :=
  if Accessible 0 addr bytes then .ok (s.put (s.pc + 4) rd (s.loaded addr bytes signed))
  else .error .outside

def store (addr : BitVec 64) (bytes : ℕ) (v : BitVec 64) : Except Stop Isa :=
  if addr = tohost ∧ v = 1 then .error (.exit 0)
  else if Accessible (4 * t.words.length) addr bytes then
    .ok ⟨s.pc + 4, s.regs, poke s.mem (ramIndex addr) bytes v, s.zero⟩
  else .error .outside

end
end Isa

/-- **What an instruction does.**  `ecall` with 93 in `a7` ends a test, and so does `ebreak` with 0 in
`a0`.  A `jalr` from an odd register has no next state here, though RV64I gives it one: the reference
does something else. -/
def Instr.exec (t : Text) (i : Instr) (s : Isa) : Except Stop Isa :=
  let o := i.operands
  let a := s.regs (o.rs1.getD 0)
  let b := s.regs (o.rs2.getD 0)
  let rd := o.rd.getD 0
  match i.mnemonic.action with
  | .compute op op32 imm =>
    .ok (s.put (s.pc + 4) rd (op.formResult op32 a (if imm then o.immediate else b)))
  | .lui => .ok (s.put (s.pc + 4) rd o.imm)
  | .auipc => .ok (s.put (s.pc + 4) rd (s.pc + o.imm))
  | .jal => s.jump rd (s.pc + o.imm)
  | .jalr => if a.getLsbD 0 then .error .outside else s.jump rd ((a + o.imm) &&& ~~~1)
  | .branch cond =>
    if cond.holds a b then s.jump 0 (s.pc + o.imm) else .ok (s.put (s.pc + 4) 0 0)
  | .load bytes signed => s.load rd (a + o.imm) bytes signed
  | .store bytes => s.store t (a + o.imm) bytes b
  | .skip => .ok (s.put (s.pc + 4) 0 0)
  | .ecall => .error (if s.regs 17 = 93 then .exit (if s.regs 10 = 0 then 0 else 1) else .outside)
  | .ebreak => .error (if s.regs 10 = 0 then .exit 0 else .outside)
  | .system => .error .outside

/-! ## fetching -/

/-- the instruction of a word -/
def decode (w : BitVec 32) : Option Instr :=
  (Mnemonic.all.find? fun m => m.format.pat.hit w).map fun m => ⟨m, m.format.read w⟩

theorem decode_eq_some {w : BitVec 32} {i : Instr} : decode w = some i ↔ i.encode = w := by
  constructor
  · intro h
    obtain ⟨m, hm, rfl⟩ := Option.map_eq_some_iff.mp h
    have hw := List.find?_some hm
    exact encode_read hw
  · rintro rfl
    have hex : (Mnemonic.all.find? fun m => m.format.pat.hit i.encode).isSome = true :=
      List.find?_isSome.mpr ⟨_, i.mnemonic.mem_all, i.hit⟩
    obtain ⟨m, hm⟩ := Option.isSome_iff_exists.mp hex
    have hw := List.find?_some hm
    rw [decode, hm]
    -- the word is the encoding of both
    exact congrArg some (Instr.encode_injective (encode_read hw))

/-- The text is word by word from the start of the memory. -/
def Text.fetch (t : Text) (pc : BitVec 64) : Option Instr :=
  if pc % 4 = 0 ∧ RAM_START ≤ pc then t.words[ramIndex pc / 4]?.bind decode else none

namespace Isa

/-- the start of a program -/
def start (mem : Bytes) : Isa := ⟨RAM_START, fun _ => 0, mem, rfl⟩

def step (t : Text) (s : Isa) : Except Stop Isa :=
  match t.fetch s.pc with
  | none => .error .outside
  | some i => i.exec t s

end Isa

/-- the machine after `n` steps -/
def isaRun (t : Text) (mem : Bytes) : ℕ → Except Stop Isa
  | 0 => .ok (.start mem)
  | n + 1 => isaRun t mem n >>= Isa.step t

theorem isaRun_succ {t : Text} {mem : Bytes} {n : ℕ} {s : Isa} (h : isaRun t mem n = .ok s) :
    isaRun t mem (n + 1) = s.step t := by
  rw [isaRun, h]
  rfl

/-- A run that has come to step `n` has come to every step before. -/
theorem isaRun_prev {t : Text} {mem : Bytes} {n k : ℕ} (hk : k ≤ n) {s : Isa}
    (h : isaRun t mem n = .ok s) : ∃ s', isaRun t mem k = .ok s' := by
  induction n generalizing s with
  | zero =>
    obtain rfl : k = 0 := Nat.le_zero.mp hk
    exact ⟨s, h⟩
  | succ n ih =>
    rcases Nat.lt_or_eq_of_le hk with hlt | rfl
    · cases hn : isaRun t mem n with
      | error e =>
        rw [isaRun, hn] at h
        cases h
      | ok s' => exact ih (Nat.le_of_lt_succ hlt) hn
    · exact ⟨s, h⟩

/-! ## the text stays -/

section
variable {t : Text} {s s' : Isa}

@[simp] theorem put_mem (pc : BitVec 64) (rd : BitVec 5) (v : BitVec 64) :
    (s.put pc rd v).mem = s.mem := rfl

theorem jump_mem {rd : BitVec 5} {target : BitVec 64} (h : s.jump rd target = .ok s') :
    s'.mem = s.mem := by
  unfold Isa.jump at h
  split_ifs at h
  obtain rfl := Except.ok.inj h
  rfl

theorem load_eq {rd : BitVec 5} {addr : BitVec 64} {bytes : ℕ} {signed : Bool}
    (h : s.load rd addr bytes signed = .ok s') : Accessible 0 addr bytes ∧
      s' = s.put (s.pc + 4) rd (s.loaded addr bytes signed) := by
  unfold Isa.load at h
  split_ifs at h with ha
  exact ⟨ha, (Except.ok.inj h).symm⟩

theorem store_eq {addr : BitVec 64} {bytes : ℕ} {v : BitVec 64} (h : s.store t addr bytes v = .ok s') :
    ¬ (addr = tohost ∧ v = 1) ∧ Accessible (4 * t.words.length) addr bytes ∧
      s'.pc = s.pc + 4 ∧ s'.regs = s.regs ∧ s'.mem = poke s.mem (ramIndex addr) bytes v := by
  unfold Isa.store at h
  split_ifs at h with hx ha
  have hs := Except.ok.inj h
  exact ⟨hx, ha, by rw [← hs], by rw [← hs], by rw [← hs]⟩

/-- A store writes no byte of the text. -/
theorem store_mem {addr : BitVec 64} {bytes : ℕ} {v : BitVec 64}
    (h : s.store t addr bytes v = .ok s') {x : ℕ} (hx : x < 4 * t.words.length) :
    s'.mem x = s.mem x := by
  obtain ⟨-, ⟨-, hlo, -⟩, -, -, hm⟩ := store_eq h
  have hix : x < ramIndex addr := by
    rw [ramIndex]
    omega
  rw [hm, poke_outside s.mem v (.inl hix)]

/-- **No instruction changes the text.** -/
theorem Instr.exec_mem {i : Instr} (h : i.exec t s = .ok s') {x : ℕ}
    (hx : x < 4 * t.words.length) : s'.mem x = s.mem x := by
  unfold Instr.exec at h
  dsimp only at h
  split at h
  case h_1 | h_2 | h_3 | h_9 =>
    obtain rfl := Except.ok.inj h
    rw [put_mem]
  case h_4 => rw [jump_mem h]
  case h_5 =>
    split_ifs at h
    rw [jump_mem h]
  case h_6 =>
    split_ifs at h
    · rw [jump_mem h]
    · obtain rfl := Except.ok.inj h
      rw [put_mem]
  case h_7 => rw [(load_eq h).2, put_mem]
  case h_8 => exact store_mem h hx
  all_goals cases h

theorem step_exec (h : s.step t = .ok s') : ∃ i, t.fetch s.pc = some i ∧ i.exec t s = .ok s' := by
  unfold Isa.step at h
  cases hf : t.fetch s.pc with
  | none =>
    rw [hf] at h
    cases h
  | some i =>
    rw [hf] at h
    exact ⟨i, rfl, h⟩

theorem Isa.step_holds (h : s.step t = .ok s') (hin : t.In s.mem) : t.In s'.mem := by
  obtain ⟨i, -, he⟩ := step_exec h
  intro j w hj
  obtain ⟨hlt, -⟩ := List.getElem?_eq_some_iff.mp hj
  rw [← hin j w hj]
  exact congrArg _ (peek_congr fun x h₁ h₂ => i.exec_mem he (by omega))

/-- In every state of a run the text is in its place. -/
theorem isaRun_holds {mem : Bytes} (hin : t.In mem) {n : ℕ} (h : isaRun t mem n = .ok s) :
    t.In s.mem := by
  induction n generalizing s with
  | zero =>
    obtain rfl := Except.ok.inj h
    exact hin
  | succ n ih =>
    obtain ⟨p, hp⟩ := isaRun_prev (Nat.le_succ n) h
    rw [isaRun_succ hp] at h
    exact Isa.step_holds h (ih hp)

/-- What is fetched is a word of the text, in its place. -/
theorem fetch_word {pc : BitVec 64} {i : Instr} (h : t.fetch pc = some i) :
    pc % 4 = 0 ∧ InRam pc 4 ∧ ∀ mem, t.In mem → ramWord mem pc = i.encode := by
  unfold Text.fetch at h
  split_ifs at h with hpc
  obtain ⟨w, hw, hd⟩ := Option.bind_eq_some_iff.mp h
  obtain ⟨hlt, -⟩ := List.getElem?_eq_some_iff.mp hw
  have hmod : pc.toNat % 4 = 0 := by
    have ht := congrArg BitVec.toNat hpc.1
    rwa [BitVec.toNat_umod] at ht
  have hle : RAM_START.toNat ≤ pc.toNat := hpc.2
  have hs : RAM_START.toNat = 0x80000000 := rfl
  have hix : 4 * (ramIndex pc / 4) = ramIndex pc := by
    unfold ramIndex
    omega
  refine ⟨hpc.1, ⟨hpc.2, ?_⟩, fun mem hin => ?_⟩
  · have hfits := t.fits
    have he : (RAM_START + RAM_SIZE).toNat = RAM_START.toNat + RAM_SIZE.toNat := rfl
    show pc.toNat + 4 ≤ _
    unfold ramIndex at hix hlt
    omega
  · rw [ramWord, ← hix, hin _ w hw]
    exact (decode_eq_some.mp hd).symm

end

end HduCpu
