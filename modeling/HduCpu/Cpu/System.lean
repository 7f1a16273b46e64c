import HduCpu.Cpu.Pipeline

/-!
# The core with its memories, and the sequential machine

The two SRAM ports have the timing of those of the simulator: a read returns its data in the next
cycle, the instruction port reads the contents before the store of the same cycle and the data port
those after it.  What the contents are and how words are cut out of them is a parameter (`Sram`).
The data are a function of the contents and the address; the simulator's are this at decoded
addresses only, at others they depend on the last access as well.

* `Sys`, `sysMachine`      the core wired to the two ports;
* `Seq`, `Seq.next`        the sequential machine over the same memory;
* `commitLog`, `storeLog`  what a run has committed and stored, `seqCommitLog`, `seqStoreLog` the
                           same for the sequential machine;
* `NoSelfModify`           no word changes that the sequential machine fetches;
* `Refines`                the runs agree: commits, stores, memory and CSR file;
* `core_refines_sequential`   the pipeline refines the sequential machine with 32-bit fetch.
-/

namespace HduCpu

/-- Memory contents `M` behind a 32-bit instruction port and a 64-bit data port. -/
structure Sram (M : Type*) where
  instRead : M → BitVec 32 → BitVec 32
  dataRead : M → BitVec 32 → BitVec 64
  dataWrite : M → BitVec 32 → BitVec 8 → BitVec 64 → M

/-- a store that reaches the memory: enabled, with at least one strobe -/
def DataSram.stores (port : DataSram) : Bool := port.en && port.wen != 0

section
variable {M : Type*} (ram : Sram M)

def Sram.store (mem : M) (port : DataSram) : M :=
  if port.stores then ram.dataWrite mem port.addr port.wen port.wdata else mem

/-! ## the core and its memories -/

structure Sys (M : Type*) where
  core : Core
  mem : M
  instRdata : BitVec 32
  dataRdata : BitVec 64

namespace Sys
variable (s : Sys M) (ext : ExtInterrupt)

def coreIn : CoreIn := ⟨ext, s.instRdata, s.dataRdata⟩

/-- the data port in this cycle -/
def dataPort : DataSram := (s.core.wires (s.coreIn ext)).executeUnit.dataSram

def next : Sys M where
  core := s.core.next (s.coreIn ext)
  mem := ram.store s.mem (s.dataPort ext)
  instRdata := ram.instRead s.mem (s.core.wires (s.coreIn ext)).instSram.addr
  dataRdata :=
    if (s.dataPort ext).en then ram.dataRead (ram.store s.mem (s.dataPort ext)) (s.dataPort ext).addr
    else s.dataRdata

end Sys

/-- any memory contents and any data on the buses, the core at reset -/
def sysMachine : Clocked (Sys M) ExtInterrupt where
  init s := s.core = .reset
  next ext s := s.next ram ext

/-! ## the sequential machine -/

structure Seq (M : Type*) where
  arch : Arch
  mem : M

namespace Seq
variable (t : Seq M)

/-- the instruction word at `pc` -/
def word : BitVec 32 := ram.instRead t.mem (t.arch.pc.setWidth 32)

def execute : ExecuteOut := t.arch.execute .low (t.word ram)

/-- the memory after the instruction -/
def memNext : M := ram.store t.mem (t.execute ram).dataSram

/-- the aligned double word at the address of the instruction -/
def loadData : BitVec 64 := ram.dataRead (t.memNext ram) (t.execute ram).dataSram.addr

def commit : Commit := commitOf (t.arch.result .low (t.word ram) (t.loadData ram))

def next (carry : BitVec 64 → BitVec 64) : Seq M where
  arch := t.arch.exec carry .low (t.word ram) (t.loadData ram)
  mem := t.memNext ram

/-- the state after `k` instructions, from `PC_INIT` with zero registers -/
def run (carry : BitVec 64 → BitVec 64) (mem : M) : ℕ → Seq M
  | 0 => ⟨.reset, mem⟩
  | k + 1 => (run carry mem k).next ram carry

end Seq

/-! ## what the runs show -/

variable (carry : BitVec 64 → BitVec 64)

/-- the core under low interrupt lines -/
def quietRun (s : Sys M) : ℕ → Sys M := (sysMachine ram).run (fun _ => .low) s

/-- an instruction is in Execute in cycle `n` -/
def fires (s : Sys M) (n : ℕ) : Prop := (quietRun ram s n).core.executeStage.info.valid = true

instance (s : Sys M) : DecidablePred (fires ram s) :=
  fun n => inferInstanceAs (Decidable ((quietRun ram s n).core.executeStage.info.valid = true))

/-- how many instructions have been executed before cycle `n` -/
def executed (s : Sys M) (n : ℕ) : ℕ := Nat.count (fires ram s) n

def commitLog (s : Sys M) : ℕ → List Commit :=
  log fun n => commits (quietRun ram s n).core.writeBackStage

/-- the commits of the instructions in WriteBack and Memory -/
def pendingCommits (s : Sys M) (n : ℕ) : List Commit :=
  commits (quietRun ram s n).core.writeBackStage ++
    commits (memoryUnit (quietRun ram s n).core.memoryStage (quietRun ram s n).dataRdata)

/-- the commit of the instruction in Execute, its load data arriving in the next cycle -/
def executeCommits (s : Sys M) (n : ℕ) : List Commit :=
  commits (memoryUnit ((quietRun ram s n).core.exe ((quietRun ram s n).coreIn .low)).memoryStage
    (quietRun ram s (n + 1)).dataRdata)

def seqCommitLog (mem : M) : ℕ → List Commit :=
  log fun k => [(Seq.run ram carry mem k).commit ram]

/-- the store, if any, that a port makes -/
def storeOf (port : DataSram) : List DataSram := if port.stores then [port] else []

def storeLog (s : Sys M) : ℕ → List DataSram :=
  log fun n => storeOf ((quietRun ram s n).dataPort .low)

def seqStoreLog (mem : M) : ℕ → List DataSram :=
  log fun k => storeOf ((Seq.run ram carry mem k).execute ram).dataSram

/-- No word that the sequential machine fetches is ever changed. -/
def NoSelfModify (mem : M) : Prop :=
  ∀ j k, ram.instRead (Seq.run ram carry mem j).mem ((Seq.run ram carry mem k).arch.pc.setWidth 32)
    = (Seq.run ram carry mem k).word ram

/-- The run of the core, read at the instructions it has executed, is the sequential run; of these
instructions at most two have not been committed yet. -/
structure Refines (s : Sys M) (n : ℕ) : Prop where
  commits : commitLog ram s n <+: seqCommitLog ram carry s.mem (executed ram s n)
  pending : executed ram s n ≤ (commitLog ram s n).length + 2
  stores : storeLog ram s n = seqStoreLog ram carry s.mem (executed ram s n)
  mem : (quietRun ram s n).mem = (Seq.run ram carry s.mem (executed ram s n)).mem
  csr : (quietRun ram s n).core.csrfile = (Seq.run ram carry s.mem (executed ram s n)).arch.csr

/-! ## one cycle of the system -/

theorem idle_low (a : Arch) : a.idle .low = a := by
  have hmip : a.csr.mipNext .low = a.csr.regs .mip := a.csr.mipNext_low
  rw [Arch.idle, a.csr.next_bubble_quiet _ (takesInt_low _), hmip, Function.update_eq_self]

theorem fu_port (file : CSRRegFile) (data : IdExeData) :
    (fu file data).dataSram.en = true ∨ data.info.fusel ≠ .lsu := by
  cases hf : data.info.fusel with
  | lsu => exact .inl (by simp [fu, hf, lsu])
  | _ => exact .inr (by decide)

/-- The stages of a system stand for the state `t` of the sequential machine, and every word on
its way to Execute was read from one of the contents `mems`. -/
structure Tracks (mems : Set M) (s : Sys M) (t : Seq M) : Prop where
  coherent : Coherent s.core
  arch : s.core.arch s.dataRdata = t.arch
  mem : s.mem = t.mem
  instWord : s.core.fetch.state = .receive →
    ∃ m ∈ mems, s.instRdata = ram.instRead m (s.core.fetch.pc.setWidth 32)
  decodeWord : s.core.decodeStage.valid = true →
    ∃ m ∈ mems, s.core.decodeStage.inst = ram.instRead m (s.core.decodeStage.pc.setWidth 32)
  executeWord : s.core.executeStage.info.valid = true →
    ∃ m ∈ mems, s.core.executeStage.info.inst =
      ram.instRead m (s.core.executeStage.pc.setWidth 32)

namespace Tracks
variable {ram} {mems : Set M} {s : Sys M} {t : Seq M} (h : Tracks ram mems s t)
include h

/-- the words move on with their pcs -/
theorem words (hm : s.mem ∈ mems) :
    ((s.next ram .low).core.fetch.state = .receive → ∃ m ∈ mems, (s.next ram .low).instRdata =
      ram.instRead m ((s.next ram .low).core.fetch.pc.setWidth 32)) ∧
    ((s.next ram .low).core.decodeStage.valid = true → ∃ m ∈ mems,
      (s.next ram .low).core.decodeStage.inst =
        ram.instRead m ((s.next ram .low).core.decodeStage.pc.setWidth 32)) ∧
    ((s.next ram .low).core.executeStage.info.valid = true → ∃ m ∈ mems,
      (s.next ram .low).core.executeStage.info.inst =
        ram.instRead m ((s.next ram .low).core.executeStage.pc.setWidth 32)) := by
  refine ⟨fun hr => ⟨s.mem, hm, ?_⟩, fun hd => ?_, fun hv => ?_⟩
  · have hb : s.core.fetch.state ≠ .boot := by
      intro hb
      have hs : (s.next ram .low).core.fetch.state = .send := by
        show (s.core.next _).fetch.state = _
        rw [Core.next_fetch, FetchUnit.next, hb]
      exact absurd (hs.symm.trans hr) (by decide)
    have hpc : (s.next ram .low).core.fetch.pc =
        (s.core.wires (s.coreIn .low)).instSram.addr.setWidth 64 := by
      show (s.core.fetch.next _ _).pc = _
      rw [FetchUnit.next, if_neg hb]
      rfl
    rw [hpc, BitVec.setWidth_setWidth_of_le _ (by decide), BitVec.setWidth_eq]
    rfl
  · have hf : s.core.flush (s.coreIn .low) = false := by
      by_contra hn
      have hd' := s.core.next_decode_flush (s.coreIn .low) (by simpa using hn)
      exact absurd (hd'.symm.trans hd) (by decide)
    change (s.core.next (s.coreIn .low)).decodeStage.valid = true at hd
    change ∃ m ∈ mems, (s.core.next (s.coreIn .low)).decodeStage.inst =
      ram.instRead m ((s.core.next (s.coreIn .low)).decodeStage.pc.setWidth 32)
    by_cases hst : s.core.stall (s.coreIn .low) = true
    · rw [Core.next_decode_stall _ _ hf hst] at hd ⊢
      exact h.decodeWord hd
    · rw [Core.next_decode_go _ _ hf (by simpa using hst)] at hd ⊢
      exact h.instWord (beq_iff_eq.mp hd)
  · obtain ⟨hf, hst⟩ := Core.go_of_valid (s.coreIn .low) hv
    have he : (s.next ram .low).core.executeStage = s.core.dec (s.coreIn .low) :=
      Core.next_execute_go _ _ hf hst
    rw [he] at hv ⊢
    exact h.decodeWord hv

theorem pc (hv : s.core.executeStage.info.valid = true) :
    t.arch.pc = s.core.executeStage.pc := by
  rw [← h.arch]
  show s.core.frontPc = _
  rw [Core.frontPc, if_pos hv]

/-- The instruction in Execute is the one the sequential machine executes next. -/
theorem execute (hv : s.core.executeStage.info.valid = true)
    (hw : ∀ m ∈ mems, ram.instRead m (t.arch.pc.setWidth 32) = t.word ram) :
    s.core.executeStage.info.inst = t.word ram ∧
      t.execute ram = s.core.exe (s.coreIn .low) := by
  have hinst : s.core.executeStage.info.inst = t.word ram := by
    obtain ⟨m, hm, he⟩ := h.executeWord hv
    rw [he, ← h.pc hv, hw m hm]
  refine ⟨hinst, ?_⟩
  rw [Seq.execute, ← hinst, ← h.arch]
  exact Core.execute_slot (s.coreIn .low) h.coherent hv

/-- the load data arrives in the next cycle, when the instruction is in Memory -/
theorem result (hv : s.core.executeStage.info.valid = true)
    (hw : ∀ m ∈ mems, ram.instRead m (t.arch.pc.setWidth 32) = t.word ram) :
    memoryUnit (s.core.exe (s.coreIn .low)).memoryStage (s.next ram .low).dataRdata =
      t.arch.result .low (t.word ram) (t.loadData ram) := by
  obtain ⟨hinst, hexe⟩ := h.execute hv hw
  have hres : t.arch.result .low (t.word ram) (t.loadData ram) =
      memoryUnit (s.core.exe (s.coreIn .low)).memoryStage (t.loadData ram) := by
    rw [← hexe]
    rfl
  have hport : s.dataPort .low = (t.execute ram).dataSram := by
    rw [hexe]
    rfl
  rw [hres]
  rcases fu_port s.core.csrfile s.core.executeStage with hen | hne
  · have hen' : (s.dataPort .low).en = true := hen
    have hdata : (s.next ram .low).dataRdata = t.loadData ram := by
      show (if (s.dataPort .low).en then _ else _) = _
      rw [if_pos hen', hport, h.mem]
      rfl
    rw [hdata]
  · refine memoryUnit_congr ?_ _ _
    rw [Core.exe, executeUnit_info]
    split <;> exact hne

/-- A cycle with an instruction in Execute is one step of the sequential machine. -/
theorem fire (hm : s.mem ∈ mems) (hv : s.core.executeStage.info.valid = true)
    (hw : ∀ m ∈ mems, ram.instRead m (t.arch.pc.setWidth 32) = t.word ram) :
    Tracks ram mems (s.next ram .low) (t.next ram busPc) := by
  obtain ⟨hinst, hexe⟩ := h.execute hv hw
  obtain ⟨h1, h2, h3⟩ := h.words hm
  refine ⟨h.coherent.next _, ?_, ?_, h1, h2, h3⟩
  · have hfire := Core.arch_next_fire (s.coreIn .low) h.coherent hv (s.next ram .low).dataRdata
    have hA : s.core.arch (s.coreIn .low).dataRdata = t.arch := h.arch
    have hX : t.arch.execute .low (t.word ram) = s.core.exe (s.coreIn .low) := hexe
    have hR := h.result hv hw
    refine hfire.trans ?_
    rw [hA, hinst]
    show Arch.exec t.arch busPc .low (t.word ram) _ = Arch.exec t.arch busPc .low (t.word ram) _
    rw [Arch.exec, Arch.exec, ← hR, Arch.result, hX]
  · have hport : s.dataPort .low = (t.execute ram).dataSram := by rw [hexe]; rfl
    show ram.store s.mem (s.dataPort .low) = ram.store t.mem (t.execute ram).dataSram
    rw [hport, h.mem]

/-- A cycle with an empty Execute slot leaves the sequential machine where it is. -/
theorem idle (hm : s.mem ∈ mems) (hv : s.core.executeStage.info.valid = false) :
    Tracks ram mems (s.next ram .low) t := by
  obtain ⟨h1, h2, h3⟩ := h.words hm
  refine ⟨h.coherent.next _, ?_, ?_, h1, h2, h3⟩
  · have hidle := Core.arch_next_idle (s.coreIn .low) h.coherent hv (takesInt_low _)
      (s.next ram .low).dataRdata
    have hA : s.core.arch (s.coreIn .low).dataRdata = t.arch := h.arch
    rw [hA] at hidle
    exact hidle.trans (idle_low _)
  · have hwen : (s.dataPort .low).wen = 0 := (fu_bubble s.core.csrfile hv).2.2.2
    have hst : (s.dataPort .low).stores = false := by simp [DataSram.stores, hwen]
    show ram.store s.mem (s.dataPort .low) = t.mem
    rw [Sram.store, hst, h.mem]
    rfl

end Tracks

/-! ## whole runs -/

section
variable {ram} {s : Sys M} (hs : s.core = .reset) (hm : NoSelfModify ram busPc s.mem)

/-- the contents that the sequential machine passes through -/
def seqMems (ram : Sram M) (mem : M) : Set M := Set.range fun j => (Seq.run ram busPc mem j).mem

include hm in
/-- The word at the pc is the same in all of them. -/
theorem instRead_word (n : ℕ) : ∀ m ∈ seqMems ram s.mem, ram.instRead m
    ((Seq.run ram busPc s.mem n).arch.pc.setWidth 32) = (Seq.run ram busPc s.mem n).word ram := by
  rintro m ⟨j, rfl⟩
  exact hm j n

include hs hm

theorem tracks_run (n : ℕ) : Tracks ram (seqMems ram s.mem) (quietRun ram s n)
    (Seq.run ram busPc s.mem (executed ram s n)) := by
  have hmem : ∀ n, Tracks ram (seqMems ram s.mem) (quietRun ram s n)
      (Seq.run ram busPc s.mem (executed ram s n)) → (quietRun ram s n).mem ∈ seqMems ram s.mem := by
    intro n ih
    rw [ih.mem]
    exact ⟨_, rfl⟩
  refine stutter ?_ (fun n hv ih => ?_) (fun n hv ih => ?_) n
  · refine ⟨?_, ?_, rfl, fun h => ?_, fun h => ?_, fun h => ?_⟩
    · show Coherent s.core
      rw [hs]
      exact coherent_reset
    · show s.core.arch s.dataRdata = .reset
      rw [hs]
      rfl
    all_goals
      change _ = _ at h
      simp only [quietRun, Clocked.run_zero, hs] at h
      exact absurd h (by decide)
  · exact ih.fire (hmem n ih) hv (instRead_word hm _)
  · exact ih.idle (hmem n ih) (by simpa [fires] using hv)

/-- what instruction `executed ram s n` commits, seen from the Execute stage of cycle `n` -/
theorem executeCommits_eq (n : ℕ) : executeCommits ram s n =
    if fires ram s n then [(Seq.run ram busPc s.mem (executed ram s n)).commit ram] else [] := by
  have ht := tracks_run hs hm n
  have hvalid : (memoryUnit ((quietRun ram s n).core.exe
      ((quietRun ram s n).coreIn .low)).memoryStage
      (quietRun ram s (n + 1)).dataRdata).info.valid =
      (quietRun ram s n).core.executeStage.info.valid := executeUnit_valid _ _ _
  by_cases hv : fires ram s n
  · have hres := ht.result hv (instRead_word hm _)
    have hc : (quietRun ram s n).core.executeStage.info.valid = true := hv
    rw [executeCommits, commits, hvalid, if_pos hc, if_pos hv, Seq.commit, ← hres]
    rfl
  · have hc : ¬ (quietRun ram s n).core.executeStage.info.valid = true := hv
    rw [executeCommits, commits, hvalid, if_neg hc, if_neg hv]

/-- what has been executed but not committed before cycle `n` is in Memory and WriteBack -/
theorem commitLog_append (n : ℕ) : commitLog ram s n ++ pendingCommits ram s n =
    seqCommitLog ram busPc s.mem (executed ram s n) := by
  have hcol : log (executeCommits ram s) n =
      log (fun k => [(Seq.run ram busPc s.mem k).commit ram]) (Nat.count (fires ram s) n) :=
    log_collapse (executeCommits_eq hs hm) n
  rw [executed, seqCommitLog, ← hcol]
  refine log_buffered ?_ (fun n => ?_) n
  · simp only [pendingCommits, quietRun, Clocked.run_zero, hs]
    rfl
  · have hwb : (quietRun ram s (n + 1)).core.writeBackStage = memoryUnit
        (quietRun ram s n).core.memoryStage (quietRun ram s n).dataRdata :=
      Core.next_writeBackStage _ _
    have hmem : (quietRun ram s (n + 1)).core.memoryStage =
        ((quietRun ram s n).core.exe ((quietRun ram s n).coreIn .low)).memoryStage :=
      Core.next_memoryStage _ _
    rw [pendingCommits, pendingCommits, hwb, hmem, executeCommits, List.append_assoc]

theorem storeLog_eq (n : ℕ) :
    storeLog ram s n = seqStoreLog ram busPc s.mem (executed ram s n) := by
  refine log_collapse (fun n => ?_) n
  by_cases hv : fires ram s n
  · have hexe := ((tracks_run hs hm n).execute hv (instRead_word hm _)).2
    rw [if_pos hv]
    show _ = storeOf ((Seq.run ram busPc s.mem (executed ram s n)).execute ram).dataSram
    rw [hexe]
    rfl
  · have hwen : ((quietRun ram s n).dataPort .low).wen = 0 :=
      (fu_bubble _ (by simpa [fires] using hv)).2.2.2
    rw [if_neg hv]
    simp [storeOf, DataSram.stores, hwen]

end

/-- **The pipeline refines one-instruction-at-a-time execution.**  For every memory, every program
that does not change a word it fetches and every number of cycles after reset with the interrupt
lines low: the commits are a prefix of the sequential ones, at most two behind the instructions
executed so far, and stores, memory, CSR file and mode are those of exactly these instructions.
The sequential machine continues at the flush target or `pc + 4` as the 32-bit fetch address
carries it. -/
theorem core_refines_sequential (s : Sys M) (hs : s.core = .reset)
    (hm : NoSelfModify ram busPc s.mem) (n : ℕ) : Refines ram busPc s n := by
  have happ := commitLog_append hs hm n
  have ht := tracks_run hs hm n
  have hlen : (seqCommitLog ram busPc s.mem (executed ram s n)).length = executed ram s n := by
    simp [seqCommitLog, log]
  have hone : ∀ d : MemWbData, (commits d).length ≤ 1 := by
    intro d
    rw [commits]
    split <;> simp
  refine ⟨?_, ?_, storeLog_eq hs hm n, ht.mem, ?_⟩
  · rw [← happ]
    exact List.prefix_append _ _
  · rw [← happ] at hlen
    simp only [List.length_append] at hlen
    have h1 := hone (quietRun ram s n).core.writeBackStage
    have h2 := hone (memoryUnit (quietRun ram s n).core.memoryStage (quietRun ram s n).dataRdata)
    rw [pendingCommits, List.length_append] at hlen
    omega
  · rw [← ht.arch]
    rfl

end

/-! ## the width of the fetch address -/

/-- a memory in which every word is `jalr x0, -8(x0)` -/
def jumpSram : Sram Unit := ⟨fun _ _ => 0xFF800067, fun _ _ => 0, fun _ _ _ _ => ()⟩

def jumpSys : Sys Unit := ⟨.reset, (), 0, 0⟩

/-- after ten cycles two jumps have been committed, as by the sequential machine -/
theorem core_refines_sequential_jump :
    Refines jumpSram busPc jumpSys 10 ∧
      (commitLog jumpSram jumpSys 10).map Commit.pc = [0x80000000, 0xFFFFFFF8] :=
  ⟨core_refines_sequential jumpSram jumpSys rfl (fun _ _ => rfl) 10, by decide +kernel⟩

/-- The pipeline does not refine the sequential machine that continues at the full 64-bit target:
a jump to `0xFFFFFFFFFFFFFFF8` continues at `0xFFFFFFF8`. -/
theorem core_not_sequential64 : ¬ ∀ (M : Type) (ram : Sram M) (s : Sys M), s.core = .reset →
    NoSelfModify ram id s.mem → ∀ n, Refines ram id s n := by
  intro h
  have hc := (h Unit jumpSram jumpSys rfl (fun _ _ => rfl) 10).commits
  have hpc := hc.map Commit.pc
  exact absurd hpc (by decide +kernel)

end HduCpu
