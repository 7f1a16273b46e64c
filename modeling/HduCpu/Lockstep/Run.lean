import HduCpu.Cpu.Bubble
import HduCpu.Cpu.System
import HduCpu.Lockstep.Privileged

/-!
# Runs of the processor and of the reference

The core with the memory of the simulator against the reference on the same image.  An instruction
of the reference is matched in the Execute cycle of the processor; the pipeline fetches ahead, so
that no store may change a word that is fetched later (`Conforming`).

* `ramWord`, `SramXbar.doRead_word`   a word of the memory, as both sides fetch it;
* `socRun`, `refRun`       the two runs;
* `Conforming`             the first steps of the reference agree, and their words do not change;
* `Follows`                the processor stands for a state of the reference;
* `Follows.fire`, `Follows.idle`   a clock cycle with an instruction in Execute, and without one;
* `follows_run`            the processor follows the reference through all the agreeing steps.
-/

namespace HduCpu

/-! ## instruction words -/

/-- the word of the memory at an address -/
def ramWord (mem : Bytes) (a : BitVec 64) : BitVec 32 := (peek mem (ramIndex a) 4).setWidth 32

/-- the word that the reference reads at an address -/
def RvCore.wordAt {δ : Type} [MmioDev δ] (c : RvCore δ) (a : BitVec 64) : BitVec 32 :=
  (c.bus.paRead a 4 0).buffer.setWidth 32

theorem wordAt_ram {c : RvCore MmioMem} {mem : Bytes} (h : c.bus.devices = [ramEntry mem])
    {a : BitVec 64} (hr : InRam a 4) : c.wordAt a = ramWord mem a := by
  rw [RvCore.wordAt, paRead_ram hr h]
  exact setWidth_copyLow 0 (peek mem (ramIndex a) 4) (by decide : 4 ≤ 8)

/-- **The instruction port** reads an aligned word of the memory. -/
theorem SramXbar.doRead_word (mem : Bytes) {a : BitVec 64} (hr : InRam a 4)
    (hal : a.extractLsb' 0 2 = 0) (b : BitVec 64) :
    ((sramOf mem).doRead a 4 b).buffer.setWidth 32 = ramWord mem a := by
  have hl : (sramOf mem).locate a = some (0, xbarRam mem) := by rw [locate_sram, if_pos hr.1]
  have hmod : a.toNat % 4 = 0 := by
    have ht := congrArg BitVec.toNat hal
    rw [BitVec.extractLsb'_toNat] at ht
    exact ht
  have hbase : a - (a &&& (4 - 1)) = a := by
    have hlow : a &&& (4 - 1) = 0 := by
      apply BitVec.eq_of_toNat_eq
      rw [BitVec.toNat_and]
      exact (Nat.and_two_pow_sub_one_eq_mod a.toNat 2).trans hmod
    rw [hlow]
    exact BitVec.sub_zero a
  have hoff : (a % 4).toNat = 0 := by
    rw [BitVec.toNat_umod]
    exact hmod
  have hread : ∀ c, MmioDev.doRead (ramDev mem) (a % (RAM_START + RAM_LENGTH - RAM_START)) 4 c =
      ⟨true, copyLow c 4 (peek mem (ramIndex a) 4), ramDev mem⟩ := by
    intro c
    show MmioMem.doRead _ (Systembus.devAddr (ramEntry mem) _) _ _ = _
    simp only [MmioMem.doRead, hr.inside mem, if_true, hr.devAddr mem]
    rfl
  have hone : InRam a 1 := by
    refine ⟨hr.1, le_trans ?_ hr.2⟩
    show a.toNat + 1 ≤ a.toNat + 4
    omega
  have hh : (decide (RAM_START ≤ a) && decide (a + 1 ≤ RAM_START + RAM_LENGTH)) = true :=
    hone.holds mem
  simp only [doRead, hl, xbarRam, hh, if_true, Bool.false_eq_true, if_false, hbase, hread, hoff,
    copyLow_zero, Nat.mul_zero, BitVec.shiftLeft_zero, BitVec.ushiftRight_zero]
  exact setWidth_copyLow b (peek mem (ramIndex a) 4) (by decide : 4 ≤ 8)

/-- `w` is the word at `pc` in one of the memories, when `pc` is an address of an instruction -/
def WordIn (mems : Set Bytes) (pc : BitVec 64) (w : BitVec 32) : Prop :=
  pc.extractLsb' 0 2 = 0 → InRam pc 4 → ∃ m ∈ mems, w = ramWord m pc

theorem WordIn.mono {mems mems' : Set Bytes} (hsub : mems ⊆ mems') {pc : BitVec 64} {w : BitVec 32}
    (h : WordIn mems pc w) : WordIn mems' pc w := by
  intro hal hr
  obtain ⟨m, hm, e⟩ := h hal hr
  exact ⟨m, hsub hm, e⟩

/-! ## the two runs -/

/-- the core at reset with an image in its memory -/
def socStart (mem : Bytes) : Soc := ⟨.reset, sramOf mem, 0, 0⟩

/-- the core and its memory after `n` clock cycles, the interrupt lines low -/
def socRun (mem : Bytes) : ℕ → Soc
  | 0 => socStart mem
  | n + 1 => (socRun mem n).next .low

/-- what the core is given in cycle `n` -/
def socIn (mem : Bytes) (n : ℕ) : CoreIn := ⟨.low, (socRun mem n).instRdata, (socRun mem n).dataRdata⟩

/-- the core of the run is a run of the core -/
theorem socRun_core (mem : Bytes) (n : ℕ) : (socRun mem n).core = coreRun (socIn mem) n := by
  induction n with
  | zero => rfl
  | succ n ih =>
    rw [coreRun_succ, ← ih]
    rfl

/-- the reference after `n` steps, the interrupt lines low -/
def refRun (mem : Bytes) (n : ℕ) : Except Halt (RvCore MmioMem) :=
  (refMachine testFlags).run (fun _ => .low) (.ok (.boot testFlags mem RAM_START fun _ => 0)) n

theorem refRun_succ (mem : Bytes) {n : ℕ} {c : RvCore MmioMem} (h : refRun mem n = .ok c) :
    refRun mem (n + 1) = c.exec testFlags false false false false := by
  show (refRun mem n >>= fun c => c.exec testFlags false false false false) = _
  rw [h]
  rfl

theorem refRun_inside {mem : Bytes} {n : ℕ} {c : RvCore MmioMem} (h : refRun mem n = .ok c) :
    Inside OneRam c := by
  have hend := (refMachine_inside testFlags).run (fun _ => .low)
    (s := .ok (.boot testFlags mem RAM_START fun _ => 0)) ⟨_, RvCore.boot_boot _ _ _ _, rfl⟩ n
  exact hend.ok h

/-- **The first `K` steps of the reference agree**, and the word of each has been in its place since
the start. -/
def Conforming (mem : Bytes) (K : ℕ) : Prop :=
  ∀ k < K, ∃ c w, refRun mem k = .ok c ∧ StepAgrees testFlags c w ∧
    ∀ j ≤ k, ∀ c', refRun mem j = .ok c' → c'.wordAt c.pc = w

/-- the memories of the reference up to step `E` -/
def refMems (mem : Bytes) (E : ℕ) : Set Bytes :=
  {m | ∃ j ≤ E, ∃ c, refRun mem j = .ok c ∧ c.bus.devices = [ramEntry m]}

theorem refMems_mono (mem : Bytes) {E E' : ℕ} (h : E ≤ E') : refMems mem E ⊆ refMems mem E' := by
  rintro m ⟨j, hj, c, hc⟩
  exact ⟨j, hj.trans h, c, hc⟩

/-! ## the relation -/

/-- The core and its memory stand for the state `c` of the reference, and every word on its way to
Execute was read from one of the memories `mems`. -/
structure Follows (mems : Set Bytes) (s : Soc) (c : RvCore MmioMem) : Prop where
  coherent : Coherent s.core
  priv : PrivInv s.core.csrfile
  meets : Meets (s.core.arch s.dataRdata) s.mmio c
  instWord : s.core.fetch.state = .receive → WordIn mems s.core.fetch.pc s.instRdata
  decodeWord : s.core.decodeStage.valid = true →
    WordIn mems s.core.decodeStage.pc s.core.decodeStage.inst
  executeWord : s.core.executeStage.info.valid = true →
    WordIn mems s.core.executeStage.pc s.core.executeStage.info.inst

/-- the inputs of the core in this cycle -/
def Soc.coreIn (s : Soc) : CoreIn := ⟨.low, s.instRdata, s.dataRdata⟩

theorem Soc.next_core (s : Soc) : (s.next .low).core = s.core.next s.coreIn := rfl

/-- what the instruction in Memory is about to show on the debug port -/
def Soc.nextDebug (s : Soc) : Debug := writeBackDebug (memoryUnit s.core.memoryStage s.dataRdata)

theorem Soc.next_debug (s : Soc) : (s.next .low).core.debug = s.nextDebug := by
  show writeBackDebug (s.core.next s.coreIn).writeBackStage = _
  rw [Core.next_writeBackStage]
  rfl

theorem Follows.mono {mems mems' : Set Bytes} (hsub : mems ⊆ mems') {s : Soc} {c : RvCore MmioMem}
    (h : Follows mems s c) : Follows mems' s c :=
  ⟨h.coherent, h.priv, h.meets, fun hr => (h.instWord hr).mono hsub,
    fun hd => (h.decodeWord hd).mono hsub, fun hv => (h.executeWord hv).mono hsub⟩

namespace Follows
section
variable {mems : Set Bytes} {s : Soc} {c : RvCore MmioMem} (h : Follows mems s c)
include h

/-- the instruction port leaves the memory alone, and reads from it -/
theorem fetch_mem : ∃ mem, s.mmio = sramOf mem ∧ c.bus.devices = [ramEntry mem] ∧
    (s.mmio.instChannel (s.core.wires s.coreIn).instSram s.instRdata).xbar = sramOf mem := by
  obtain ⟨mem, hx, hm⟩ := h.meets.mem
  refine ⟨mem, hx, hm, ?_⟩
  rw [hx]
  exact SramXbar.doRead_sram mem _ 4 _

/-- the words move on with their pcs -/
theorem words (hmem : ∀ mem, c.bus.devices = [ramEntry mem] → mem ∈ mems) :
    ((s.next .low).core.fetch.state = .receive →
      WordIn mems (s.next .low).core.fetch.pc (s.next .low).instRdata) ∧
    ((s.next .low).core.decodeStage.valid = true →
      WordIn mems (s.next .low).core.decodeStage.pc (s.next .low).core.decodeStage.inst) ∧
    ((s.next .low).core.executeStage.info.valid = true →
      WordIn mems (s.next .low).core.executeStage.pc (s.next .low).core.executeStage.info.inst) := by
  refine ⟨fun hr hal hin => ?_, fun hd => ?_, fun hv => ?_⟩
  · have hb : s.core.fetch.state ≠ .boot := by
      intro hb
      have hs : (s.next .low).core.fetch.state = .send := by
        rw [Soc.next_core, Core.next_fetch, FetchUnit.next, hb]
      exact absurd (hs.symm.trans hr) (by decide)
    have hpc : (s.next .low).core.fetch.pc =
        (s.core.wires s.coreIn).instSram.addr.setWidth 64 := by
      show (s.core.fetch.next _ _).pc = _
      rw [FetchUnit.next, if_neg hb]
      rfl
    obtain ⟨mem, hx, hm, -⟩ := h.fetch_mem
    refine ⟨mem, hmem mem hm, ?_⟩
    rw [hpc] at hal hin ⊢
    have hmask : (s.core.wires s.coreIn).instSram.addr &&& 0xffffffff#32 =
        (s.core.wires s.coreIn).instSram.addr := BitVec.and_allOnes
    have hword := SramXbar.doRead_word mem hin hal (s.instRdata.setWidth 64)
    show (s.mmio.doRead (((s.core.wires s.coreIn).instSram.addr &&& s.mmio.addressMask).setWidth 64)
      4 (s.instRdata.setWidth 64)).buffer.setWidth 32 = _
    rw [hx, ← hword]
    exact congrArg (fun x : BitVec 32 => ((sramOf mem).doRead (x.setWidth 64) 4
      (s.instRdata.setWidth 64)).buffer.setWidth 32) hmask
  · have hf : s.core.flush s.coreIn = false := by
      by_contra hn
      have hd' := s.core.next_decode_flush s.coreIn (by simpa using hn)
      exact absurd (hd'.symm.trans hd) (by decide)
    rw [Soc.next_core] at hd ⊢
    by_cases hst : s.core.stall s.coreIn = true
    · rw [Core.next_decode_stall _ _ hf hst] at hd ⊢
      exact h.decodeWord hd
    · rw [Core.next_decode_go _ _ hf (by simpa using hst)] at hd ⊢
      exact h.instWord (beq_iff_eq.mp hd)
  · obtain ⟨hf, hst⟩ := Core.go_of_valid s.coreIn hv
    have he : (s.next .low).core.executeStage = s.core.dec s.coreIn :=
      Core.next_execute_go _ _ hf hst
    rw [he] at hv ⊢
    exact h.decodeWord hv

/-- The instruction in Execute is the one that the reference executes next. -/
theorem execute_word (hv : s.core.executeStage.info.valid = true) {w : BitVec 32}
    (hs : StepAgrees testFlags c w) (hw : ∀ m ∈ mems, ramWord m c.pc = w) :
    s.core.executeStage.info.inst = w := by
  have hpc : s.core.executeStage.pc = c.pc := by
    have hfront : (s.core.arch s.dataRdata).pc = s.core.executeStage.pc := by
      show s.core.frontPc = _
      rw [Core.frontPc, if_pos hv]
    rw [← hfront, h.meets.pc, busPc_ram hs.inRam]
  have hal : c.pc.extractLsb' 0 2 = 0 := by
    obtain ⟨-, -, hpc4, -, -⟩ := RvCore.mem_fetches.mp hs.fetches
    have ht := congrArg BitVec.toNat hpc4
    rw [BitVec.toNat_umod] at ht
    apply BitVec.eq_of_toNat_eq
    rw [BitVec.extractLsb'_toNat]
    exact ht
  have hword := h.executeWord hv
  rw [hpc] at hword
  obtain ⟨m, hm, e⟩ := hword hal hs.inRam
  rw [e, hw m hm]

/-- **A cycle with an instruction in Execute is a step of the reference**, and what the instruction
is going to show on the debug port passes the comparison. -/
theorem fire (hc : Inside OneRam c) (hmem : ∀ mem, c.bus.devices = [ramEntry mem] → mem ∈ mems)
    (hv : s.core.executeStage.info.valid = true) {w : BitVec 32} (hs : StepAgrees testFlags c w)
    (hw : ∀ m ∈ mems, ramWord m c.pc = w) :
    ∃ c', c.exec testFlags false false false false = .ok c' ∧ Follows mems (s.next .low) c' ∧
      differs (s.next .low).nextDebug c' = false := by
  obtain ⟨h1, h2, h3⟩ := h.words hmem
  obtain ⟨mem, hx, -, hinst⟩ := h.fetch_mem
  have hword := h.execute_word hv hs hw
  have hexe : (s.core.arch s.dataRdata).execute .low w = s.core.exe s.coreIn := by
    rw [← hword]
    exact Core.execute_slot s.coreIn h.coherent hv
  obtain ⟨c', hexec, hmeets, hdiff⟩ := exec_lockstep hs h.meets hc h.priv rfl s.dataRdata
  -- the data channel of the cycle comes after the instruction channel
  have hdata : (s.mmio.dataChannel ((s.core.arch s.dataRdata).execute .low w).dataSram s.dataRdata) =
      (s.mmio.instChannel (s.core.wires s.coreIn).instSram s.instRdata).xbar.dataChannel
        (s.core.exe s.coreIn).dataSram s.dataRdata := by
    rw [hexe, hinst, hx]
  have hld : (s.mmio.dataChannel ((s.core.arch s.dataRdata).execute .low w).dataSram
      s.dataRdata).buffer = (s.next .low).dataRdata := by
    rw [hdata]
    rfl
  have hbar : (s.mmio.dataChannel ((s.core.arch s.dataRdata).execute .low w).dataSram
      s.dataRdata).xbar = (s.next .low).mmio := by
    rw [hdata]
    rfl
  have harch := Core.arch_next_fire s.coreIn h.coherent hv (s.next .low).dataRdata
  rw [hword] at harch
  simp only [hld, hbar] at hmeets hdiff
  refine ⟨c', hexec, ⟨h.coherent.next _, h.priv.next _, ?_, h1, h2, h3⟩, ?_⟩
  · rw [Soc.next_core, harch]
    exact hmeets
  · have hres : (s.core.arch s.dataRdata).result .low w (s.next .low).dataRdata =
        memoryUnit (s.next .low).core.memoryStage (s.next .low).dataRdata := by
      rw [Arch.result, hexe, Soc.next_core, Core.next_memoryStage]
    rw [Soc.nextDebug, ← hres]
    exact hdiff

/-- A cycle with an empty Execute slot leaves the reference where it is. -/
theorem idle (hmem : ∀ mem, c.bus.devices = [ramEntry mem] → mem ∈ mems)
    (hv : s.core.executeStage.info.valid = false) : Follows mems (s.next .low) c := by
  obtain ⟨h1, h2, h3⟩ := h.words hmem
  obtain ⟨mem, hx, -, hinst⟩ := h.fetch_mem
  have hwen : (s.core.exe s.coreIn).dataSram.wen = 0 := (fu_bubble s.core.csrfile hv).2.2.2
  have hbar : (s.next .low).mmio = s.mmio := by
    show ((s.mmio.instChannel (s.core.wires s.coreIn).instSram s.instRdata).xbar.dataChannel
      (s.core.exe s.coreIn).dataSram s.dataRdata).xbar = _
    rw [hinst, hx, SramXbar.dataChannel_quiet mem hwen]
  have harch := Core.arch_next_idle s.coreIn h.coherent hv (takesInt_low _) (s.next .low).dataRdata
  refine ⟨h.coherent.next _, h.priv.next _, ?_, h1, h2, h3⟩
  rw [Soc.next_core, harch, hbar]
  show Meets ((s.core.arch s.dataRdata).idle .low) _ _
  rw [idle_low]
  exact h.meets

end
end Follows

/-! ## whole runs -/

theorem follows_start (mem : Bytes) :
    Follows (refMems mem 0) (socStart mem) (.boot testFlags mem RAM_START fun _ => 0) where
  coherent := coherent_reset
  priv := privInv_reset
  meets := ⟨(by decide : PC_INIT = busPc RAM_START), rfl, ⟨mem, rfl, rfl⟩, rfl, sameCsrs_reset.regs, rfl⟩
  instWord hr := absurd hr (by decide : FetchState.boot ≠ FetchState.receive)
  decodeWord hd := absurd hd Bool.false_ne_true
  executeWord hv := absurd hv Bool.false_ne_true

section
variable (mem : Bytes)

/-- an instruction is in Execute in cycle `n` -/
def socFires (n : ℕ) : Prop := (socRun mem n).core.executeStage.info.valid = true

instance : DecidablePred (socFires mem) :=
  fun n => inferInstanceAs (Decidable ((socRun mem n).core.executeStage.info.valid = true))

/-- how many instructions have been executed before cycle `n` -/
def socExecuted (n : ℕ) : ℕ := Nat.count (socFires mem) n

/-- The processor stands for a state of the reference, and the instruction in Memory is going to
pass the comparison. -/
def FollowsAt (s : Soc) (E : ℕ) : Prop :=
  ∃ c, refRun mem E = .ok c ∧ Follows (refMems mem E) s c ∧
    (s.core.memoryStage.info.valid = true → differs s.nextDebug c = false)

variable {mem} {K : ℕ} (hconf : Conforming mem K)
include hconf

/-- **The processor follows the reference** through all the steps on which the designs agree. -/
theorem follows_run (n : ℕ) :
    socExecuted mem n ≤ K → FollowsAt mem (socRun mem n) (socExecuted mem n) := by
  have hmems : ∀ {E : ℕ} {c : RvCore MmioMem}, refRun mem E = .ok c →
      ∀ m, c.bus.devices = [ramEntry m] → m ∈ refMems mem E :=
    fun {E c} hc m hm => ⟨E, le_rfl, c, hc, hm⟩
  have hmemory : ∀ n, (socRun mem (n + 1)).core.memoryStage.info.valid =
      (socRun mem n).core.executeStage.info.valid := by
    intro n
    show ((socRun mem n).core.next (socRun mem n).coreIn).memoryStage.info.valid = _
    rw [Core.next_memoryStage, Core.exe, executeUnit_valid]
  refine stutter (R := fun s E => E ≤ K → FollowsAt mem s E) (b := id)
    (fun _ => ?_) (fun n hv ih hE => ?_) (fun n hv ih hE => ?_) n
  · exact ⟨_, rfl, follows_start mem, fun hm => absurd hm Bool.false_ne_true⟩
  · obtain ⟨c, hc, hfol, -⟩ := ih (Nat.le_of_succ_le hE)
    obtain ⟨c₁, w, hc₁, hs, hstable⟩ := hconf _ hE
    obtain rfl : c₁ = c := Except.ok.inj (hc₁.symm.trans hc)
    have hw : ∀ m ∈ refMems mem (Nat.count (socFires mem) n), ramWord m c₁.pc = w := by
      rintro m ⟨j, hj, c', hc', hm⟩
      rw [← wordAt_ram hm hs.inRam]
      exact hstable j hj c' hc'
    obtain ⟨c', hexec, hfol', hdiff⟩ := hfol.fire (refRun_inside hc) (hmems hc) hv hs hw
    exact ⟨c', (refRun_succ mem hc).trans hexec, hfol'.mono (refMems_mono mem (Nat.le_succ _)),
      fun _ => hdiff⟩
  · obtain ⟨c, hc, hfol, -⟩ := ih hE
    have hv' : (socRun mem n).core.executeStage.info.valid = false := by simpa [socFires] using hv
    refine ⟨c, hc, hfol.idle (hmems hc) hv', fun hm => ?_⟩
    rw [hmemory, hv'] at hm
    exact Bool.noConfusion hm

end

end HduCpu
