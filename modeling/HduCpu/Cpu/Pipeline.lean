import HduCpu.Cpu.Stages

/-!
# The pipeline and the instruction it is about to execute

Between two clock edges the core stands for one architectural state (`Core.arch`): the pc is the
oldest one that has not left Execute, the registers are those after Memory and WriteBack have
finished.  An instruction takes effect in its Execute cycle.

* `Core.frontPc`, `Core.drained`, `Core.arch`   the architectural state of a core;
* `Coherent`               what every reachable state keeps: the pcs of the stages follow each
                           other, and a valid Execute slot has the operands of `Core.arch`;
* `Core.arch_next_fire`    a cycle with an instruction in Execute is one `Arch.exec`;
* `Core.arch_next_idle`    a cycle without one leaves the architectural state alone;
* `coherent`               the invariant over all runs.
-/

namespace HduCpu

namespace Core
section
variable (s : Core)

/-- the pc of the oldest instruction that has not left Execute -/
def frontPc : BitVec 64 :=
  if s.executeStage.info.valid then s.executeStage.pc
  else if s.decodeStage.valid then s.decodeStage.pc
  else if s.fetch.state = .receive then s.fetch.pc
  else PC_INIT

/-- the registers once WriteBack and Memory are done; `rdata` is the load data of this cycle -/
def drained (rdata : BitVec 64) : ARegFile :=
  writeBackUnit (writeBackUnit s.regfile s.writeBackStage) (HduCpu.memoryUnit s.memoryStage rdata)

def arch (rdata : BitVec 64) : Arch := ⟨s.frontPc, s.drained rdata, s.csrfile⟩

/-! ## one cycle, stage by stage -/

variable (i : CoreIn)

/-- what Execute computes in this cycle -/
def exe : ExecuteOut := HduCpu.executeUnit s.csrfile i.interrupt s.executeStage

/-- the instruction in Decode as it is handed to Execute -/
def dec : IdExeData :=
  HduCpu.decodeUnit s.decodeStage s.regfile
    ⟨(s.exe i).memoryStage.info, (s.exe i).memoryStage.rdWdata⟩
    ⟨(HduCpu.memoryUnit s.memoryStage i.dataRdata).info,
      (HduCpu.memoryUnit s.memoryStage i.dataRdata).rdWdata⟩
    ⟨s.writeBackStage.info, s.writeBackStage.rdWdata⟩

/-- the load-use stall -/
def stall : Bool := loadUse (s.dec i).info (s.exe i).memoryStage.info

def flush : Bool := (s.exe i).ftcInfo.flush

theorem wires_fetchCtrl : (s.wires i).fetchCtrl = ⟨!s.stall i, s.flush i⟩ := by
  simp [wires, HduCpu.fetchCtrl, HduCpu.decodeCtrl, passCtrl, stall, flush, dec, exe]

theorem wires_decodeCtrl : (s.wires i).decodeCtrl = ⟨!s.stall i, s.flush i || s.stall i⟩ := by
  simp [wires, HduCpu.decodeCtrl, passCtrl, stall, flush, dec, exe]

theorem next_fetch : (s.next i).fetch =
    s.fetch.next ⟨!s.stall i, s.flush i⟩ (s.exe i).ftcInfo := by
  rw [← wires_fetchCtrl]
  rfl

/-- what the fetch unit offers to Decode -/
def fetched : IfIdData := ⟨i.instRdata, s.fetch.state == .receive, s.fetch.pc⟩

theorem next_decode_flush (h : s.flush i = true) : (s.next i).decodeStage.valid = false := by
  show (s.decodeNext i (s.wires i)).valid = false
  rw [decodeNext, wires_fetchCtrl, h]
  rfl

theorem next_decode_stall (hf : s.flush i = false) (h : s.stall i = true) :
    (s.next i).decodeStage = s.decodeStage := by
  show s.decodeNext i (s.wires i) = s.decodeStage
  rw [decodeNext, wires_fetchCtrl, hf, h]
  rfl

theorem next_decode_go (hf : s.flush i = false) (h : s.stall i = false) :
    (s.next i).decodeStage = s.fetched i := by
  show s.decodeNext i (s.wires i) = s.fetched i
  rw [decodeNext, wires_fetchCtrl, hf, h]
  rfl

theorem next_execute_bubble (h : s.flush i = true ∨ s.stall i = true) :
    (s.next i).executeStage.info.valid = false := by
  show (s.executeNext (s.wires i)).info.valid = false
  have hb : (s.flush i || s.stall i) = true := by simpa using h
  rw [executeNext, wires_decodeCtrl, hb]
  rfl

theorem next_execute_go (hf : s.flush i = false) (h : s.stall i = false) :
    (s.next i).executeStage = s.dec i := by
  show s.executeNext (s.wires i) = s.dec i
  rw [executeNext, wires_decodeCtrl, hf, h]
  rfl

theorem next_memoryStage : (s.next i).memoryStage = (s.exe i).memoryStage := by
  simp [next, wires, memoryNext, passCtrl, exe]

theorem next_writeBackStage :
    (s.next i).writeBackStage = HduCpu.memoryUnit s.memoryStage i.dataRdata := by
  simp [next, wires, writeBackNext, passCtrl]

theorem next_regfile : (s.next i).regfile = writeBackUnit s.regfile s.writeBackStage := rfl

theorem next_csrfile : (s.next i).csrfile = s.csrfile.next (s.exe i).csrIn := rfl

end
end Core

/-! ## the invariant -/

/-- The stages agree with each other: an instruction reaches Execute only with its successor in
Decode, and it has the operands that the drained registers give it. -/
structure Coherent (s : Core) : Prop where
  boot : s.fetch.state ≠ .receive → s.fetch.pc = PC_INIT - 4 ∧ s.decodeStage.valid = false ∧
    s.csrfile.regs .mie = 0
  front : s.executeStage.info.valid = true → s.decodeStage.valid = true
  fetchPc : s.decodeStage.valid = true → s.fetch.pc = busPc (s.decodeStage.pc + 4)
  decodePc : s.executeStage.info.valid = true → s.decodeStage.pc = busPc (s.executeStage.pc + 4)
  slot : s.executeStage.info.valid = true → ∀ rdata,
    s.executeStage = (s.arch rdata).slot s.executeStage.info.inst

namespace Coherent
variable {s : Core} (h : Coherent s)
include h

theorem receive (hd : s.decodeStage.valid = true) : s.fetch.state = .receive := by
  by_contra hn
  exact absurd ((h.boot hn).2.1.symm.trans hd) (by decide)

theorem bubble (hd : s.decodeStage.valid = false) : s.executeStage.info.valid = false := by
  by_contra hn
  exact absurd ((h.front (by simpa using hn)).symm.trans hd) (by decide)

theorem slot_info (hv : s.executeStage.info.valid = true) :
    s.executeStage.info = { decoder s.executeStage.info.inst with valid := true } := by
  conv_lhs => rw [h.slot hv 0]
  rfl

theorem slot_ex (hv : s.executeStage.info.valid = true) :
    s.executeStage.ex = decodeEx true (decoder s.executeStage.info.inst).valid s.executeStage.pc
      s.executeStage.info.inst := by
  have hpc : (s.arch 0).pc = s.executeStage.pc := by
    show s.frontPc = _
    rw [Core.frontPc, if_pos hv]
  conv_lhs => rw [h.slot hv 0]
  rw [← hpc]
  rfl

end Coherent

theorem coherent_reset : Coherent .reset where
  boot _ := ⟨rfl, rfl, rfl⟩
  front h := absurd h (by decide)
  fetchPc h := absurd h (by decide)
  decodePc h := absurd h (by decide)
  slot h := absurd h (by decide)

namespace Core
variable {s : Core} (i : CoreIn)

theorem flush_bubble (hv : s.executeStage.info.valid = false) :
    s.flush i = s.csrfile.takesInt i.interrupt :=
  executeUnit_flush_bubble _ _ hv

theorem stall_bubble (hv : s.executeStage.info.valid = false) : s.stall i = false := by
  have he : (s.exe i).memoryStage.info.valid = false := by
    rw [exe, executeUnit_valid]
    exact hv
  simp [stall, loadUse, he]

/-- Execute receives a valid instruction only when the front of the pipeline moves on. -/
theorem go_of_valid (hv : (s.next i).executeStage.info.valid = true) :
    s.flush i = false ∧ s.stall i = false := by
  refine ⟨?_, ?_⟩
  · by_contra hn
    rw [next_execute_bubble s i (.inl (by simpa using hn))] at hv
    exact absurd hv (by decide)
  · by_contra hn
    rw [next_execute_bubble s i (.inr (by simpa using hn))] at hv
    exact absurd hv (by decide)

/-- the registers once the instruction in Execute has been written back as well -/
theorem drained_next (rdata : BitVec 64) : (s.next i).drained rdata =
    writeBackUnit (s.drained i.dataRdata) (HduCpu.memoryUnit (s.exe i).memoryStage rdata) := by
  rw [drained, next_regfile, next_writeBackStage, next_memoryStage]
  rfl

/-- the pc after a cycle in which Fetch is not booting -/
theorem next_fetch_pc (hs : s.fetch.state ≠ .boot) : (s.next i).fetch.pc =
    busPc (if s.flush i then (s.exe i).ftcInfo.target
      else if s.stall i then s.fetch.pc else s.fetch.pc + 4) := by
  rw [next_fetch, FetchUnit.next, FetchUnit.sramAddr]
  simp only [hs, if_false, flush, Bool.not_not]
  by_cases hf : (s.exe i).ftcInfo.flush = true
  · simp [hf, busPc]
  · by_cases hst : s.stall i = true <;> simp [hf, hst, busPc]

theorem next_fetch_receive (hs : s.fetch.state ≠ .boot) :
    (s.next i).fetch.state = .receive := by
  rw [next_fetch]
  cases hst : s.fetch.state with
  | boot => exact absurd hst hs
  | send => simp [FetchUnit.next, hst]
  | receive => simp [FetchUnit.next, hst]

/-- Outside a stall no load is in Execute whose result Decode reads; `hload` is what tells loads
apart. -/
theorem load_not_read
    (hload : s.executeStage.info.valid = true → s.executeStage.info.fusel = .lsu →
      LSUOpType.isLoad s.executeStage.info.op = true → s.executeStage.info.src2Ren = false)
    (hst : s.stall i = false) (rdata : BitVec 64) {r : BitVec 5}
    (hw : writes (s.exe i).memoryStage.info r = true)
    (hr : ((s.dec i).info.src1Ren && (s.dec i).info.src1Raddr == r ||
      (s.dec i).info.src2Ren && (s.dec i).info.src2Raddr == r) = true) :
    (HduCpu.memoryUnit (s.exe i).memoryStage rdata).rdWdata = (s.exe i).memoryStage.rdWdata := by
  refine memoryUnit_store ?_ rdata
  rintro ⟨hf, ho⟩
  obtain ⟨hw3, hreq⟩ := Bool.and_eq_true_iff.mp hw
  have hrw : r = (s.exe i).memoryStage.info.regWaddr := beq_iff_eq.mp hreq
  have hv : s.executeStage.info.valid = true := by
    rw [← executeUnit_valid s.csrfile i.interrupt]
    simp only [Bool.and_eq_true] at hw3
    exact hw3.1.1
  have hsame : (s.exe i).memoryStage.info.fusel = s.executeStage.info.fusel ∧
      (s.exe i).memoryStage.info.op = s.executeStage.info.op ∧
      (s.exe i).memoryStage.info.src2Ren = s.executeStage.info.src2Ren := by
    rw [exe, executeUnit_info]
    split <;> exact ⟨rfl, rfl, rfl⟩
  have h2 : (s.exe i).memoryStage.info.src2Ren = false := by
    rw [hsame.2.2]
    exact hload hv (hsame.1 ▸ hf) (hsame.2.1 ▸ ho)
  have hlu : s.stall i = true := by
    rw [hrw] at hr
    rw [stall, loadUse, hw3, hf, h2, hr]
    rfl
  exact absurd (hst.symm.trans hlu) (by decide)

/-- Outside a stall forwarding gives the operands that the registers hold once the three later
stages have written back. -/
theorem dec_srcInfo
    (hload : s.executeStage.info.valid = true → s.executeStage.info.fusel = .lsu →
      LSUOpType.isLoad s.executeStage.info.op = true → s.executeStage.info.src2Ren = false)
    (hst : s.stall i = false) (rdata : BitVec 64) {regs : ARegFile}
    (hregs : regs = writeBackUnit (writeBackUnit (writeBackUnit s.regfile s.writeBackStage)
      (HduCpu.memoryUnit s.memoryStage i.dataRdata))
      (HduCpu.memoryUnit (s.exe i).memoryStage rdata)) :
    (s.dec i).srcInfo.src1Data = src1Data (s.dec i).info s.decodeStage.pc regs .none .none .none ∧
      (s.dec i).srcInfo.src2Data = src2Data (s.dec i).info regs .none .none .none := by
  have h1 : ∀ hr : (s.dec i).info.src1Ren = true,
      writes (s.exe i).memoryStage.info (s.dec i).info.src1Raddr = true →
      (HduCpu.memoryUnit (s.exe i).memoryStage rdata).rdWdata = (s.exe i).memoryStage.rdWdata :=
    fun hr hw => load_not_read i hload hst rdata hw (by simp [hr])
  have h2 : ∀ hr : (s.dec i).info.src2Ren = true,
      writes (s.exe i).memoryStage.info (s.dec i).info.src2Raddr = true →
      (HduCpu.memoryUnit (s.exe i).memoryStage rdata).rdWdata = (s.exe i).memoryStage.rdWdata :=
    fun hr hw => load_not_read i hload hst rdata hw (by simp [hr])
  rw [hregs]
  exact ⟨src1Data_drained rfl h1, src2Data_drained rfl h2⟩

theorem frontPc_next_fire (h : Coherent s) (hv : s.executeStage.info.valid = true) :
    (s.next i).frontPc =
      busPc (if s.flush i then (s.exe i).ftcInfo.target else s.executeStage.pc + 4) := by
  have hd := h.front hv
  have hrec := h.receive hd
  have hboot : s.fetch.state ≠ .boot := by rw [hrec]; decide
  by_cases hf : s.flush i = true
  · rw [frontPc, next_execute_bubble s i (.inl hf), next_decode_flush s i hf,
      next_fetch_receive i hboot, next_fetch_pc i hboot]
    simp [hf]
  simp only [Bool.not_eq_true] at hf
  rw [hf, if_neg Bool.false_ne_true]
  by_cases hst : s.stall i = true
  · rw [frontPc, next_execute_bubble s i (.inr hst), next_decode_stall s i hf hst, hd,
      ← h.decodePc hv]
    simp
  · simp only [Bool.not_eq_true] at hst
    have hdv : (s.dec i).info.valid = true := hd
    rw [frontPc, next_execute_go s i hf hst, hdv, if_pos rfl, ← h.decodePc hv]
    rfl

theorem frontPc_next_idle (h : Coherent s) (hv : s.executeStage.info.valid = false)
    (hint : s.csrfile.takesInt i.interrupt = false) : (s.next i).frontPc = s.frontPc := by
  have hf : s.flush i = false := (flush_bubble i hv).trans hint
  have hst := stall_bubble i hv
  have hdv : (s.dec i).info.valid = s.decodeStage.valid := rfl
  rw [frontPc, frontPc, next_execute_go s i hf hst, next_decode_go s i hf hst, hdv, hv]
  by_cases hd : s.decodeStage.valid = true
  · simp [hd]
    rfl
  simp only [Bool.not_eq_true] at hd
  have hnext : (s.next i).fetch = s.fetch.next ⟨!s.stall i, s.flush i⟩ (s.exe i).ftcInfo :=
    next_fetch s i
  cases hs : s.fetch.state with
  | receive => simp [hd, fetched, hs]
  | send =>
    have hpc := (h.boot (by rw [hs]; decide)).1
    have hb : s.fetch.state ≠ .boot := by rw [hs]; decide
    rw [next_fetch_receive i hb, next_fetch_pc i hb, hf, hst, hpc]
    simp [hd, fetched, hs]
    decide
  | boot =>
    have hs' : (s.next i).fetch.state = .send := by rw [hnext, FetchUnit.next, hs]
    rw [hs']
    simp [hd, fetched, hs]

/-! ## the operands of the next instruction -/

/-- The instruction handed to Execute has its operands from the registers drained in the next
cycle. -/
theorem dec_eq_slot (h : Coherent s) (hd : s.decodeStage.valid = true)
    (hf : s.flush i = false) (hst : s.stall i = false) (rdata : BitVec 64) :
    s.dec i = ((s.next i).arch rdata).slot s.decodeStage.inst := by
  have hpc : (s.next i).frontPc = s.decodeStage.pc := by
    have hdv : (s.dec i).info.valid = true := hd
    rw [frontPc, next_execute_go s i hf hst, hdv, if_pos rfl]
    rfl
  have hreg : ((s.next i).arch rdata).regs = writeBackUnit (writeBackUnit (writeBackUnit s.regfile
      s.writeBackStage) (HduCpu.memoryUnit s.memoryStage i.dataRdata))
      (HduCpu.memoryUnit (s.exe i).memoryStage rdata) := drained_next i rdata
  have hload : s.executeStage.info.valid = true → s.executeStage.info.fusel = .lsu →
      LSUOpType.isLoad s.executeStage.info.op = true → s.executeStage.info.src2Ren = false := by
    intro hv hf ho
    rw [h.slot_info hv] at hf ho ⊢
    exact decoder_load _ hf ho
  obtain ⟨hs1, hs2⟩ := dec_srcInfo i hload hst rdata hreg
  have hinfo : (s.dec i).info = { decoder s.decodeStage.inst with valid := true } := by
    rw [dec, decodeUnit, hd]
  have hslot : ((s.next i).arch rdata).slot s.decodeStage.inst =
      { pc := s.decodeStage.pc
        info := (s.dec i).info
        srcInfo := ⟨src1Data (s.dec i).info s.decodeStage.pc ((s.next i).arch rdata).regs
          .none .none .none,
          src2Data (s.dec i).info ((s.next i).arch rdata).regs .none .none .none⟩
        ex := decodeEx true (decoder s.decodeStage.inst).valid s.decodeStage.pc
          s.decodeStage.inst } := by
    rw [hinfo, ← hpc]
    rfl
  rw [hslot, ← hs1, ← hs2, ← hd]
  rfl

end Core

/-- One clock edge keeps the stages coherent, whatever the inputs. -/
theorem Coherent.next {s : Core} (h : Coherent s) (i : CoreIn) : Coherent (s.next i) where
  boot hn := by
    have hs : s.fetch.state = .boot := by
      by_contra hb
      exact hn (Core.next_fetch_receive i hb)
    obtain ⟨hpc, hd, hmie⟩ := h.boot (by rw [hs]; decide)
    have hv := h.bubble hd
    have hint := s.csrfile.takesInt_of_mie i.interrupt hmie
    have hf : s.flush i = false := (Core.flush_bubble i hv).trans hint
    refine ⟨?_, ?_, ?_⟩
    · rw [Core.next_fetch, FetchUnit.next, hs]
      exact hpc
    · rw [Core.next_decode_go s i hf (Core.stall_bubble i hv), Core.fetched, hs]
      rfl
    · rw [Core.next_csrfile, Core.exe, executeUnit_next_bubble _ _ hv,
        CSRRegFile.next_bubble_mie]
      exact hmie
  front hv := by
    obtain ⟨hf, hst⟩ := Core.go_of_valid i hv
    rw [Core.next_execute_go s i hf hst] at hv
    have hd : s.decodeStage.valid = true := hv
    rw [Core.next_decode_go s i hf hst, Core.fetched, h.receive hd]
    rfl
  fetchPc hd := by
    have hf : s.flush i = false := by
      by_contra hn
      rw [Core.next_decode_flush s i (by simpa using hn)] at hd
      exact absurd hd (by decide)
    by_cases hst : s.stall i = true
    · rw [Core.next_decode_stall s i hf hst] at hd ⊢
      have hb : s.fetch.state ≠ .boot := by rw [h.receive hd]; decide
      rw [Core.next_fetch_pc i hb, hf, hst, h.fetchPc hd]
      simp
    · simp only [Bool.not_eq_true] at hst
      rw [Core.next_decode_go s i hf hst] at hd ⊢
      have hs : s.fetch.state = .receive := beq_iff_eq.mp hd
      rw [Core.next_fetch_pc i (by rw [hs]; decide), hf, hst]
      simp [Core.fetched]
  decodePc hv := by
    obtain ⟨hf, hst⟩ := Core.go_of_valid i hv
    rw [Core.next_execute_go s i hf hst] at hv ⊢
    have hd : s.decodeStage.valid = true := hv
    rw [Core.next_decode_go s i hf hst]
    exact h.fetchPc hd
  slot hv rdata := by
    obtain ⟨hf, hst⟩ := Core.go_of_valid i hv
    have he := Core.next_execute_go s i hf hst
    rw [he] at hv ⊢
    have hd : s.decodeStage.valid = true := hv
    have hinst : (s.dec i).info.inst = s.decodeStage.inst := rfl
    rw [hinst]
    exact Core.dec_eq_slot i h hd hf hst rdata

theorem coherent : coreMachine.Invariant Coherent where
  base := by rintro s rfl; exact coherent_reset
  step i _ h := h.next i

/-! ## one cycle, architecturally -/

namespace Core
variable {s : Core} (i : CoreIn)

/-- A valid instruction in Execute is executed as the architectural machine would. -/
theorem execute_slot (h : Coherent s) (hv : s.executeStage.info.valid = true) :
    (s.arch i.dataRdata).execute i.interrupt s.executeStage.info.inst = s.exe i := by
  rw [Arch.execute, ← h.slot hv]
  rfl

/-- **A cycle with an instruction in Execute is one step of the architectural machine**, with the
interrupt lines of this cycle and the load data of the next one. -/
theorem arch_next_fire (h : Coherent s) (hv : s.executeStage.info.valid = true)
    (rdata : BitVec 64) : (s.next i).arch rdata =
      (s.arch i.dataRdata).exec busPc i.interrupt s.executeStage.info.inst rdata := by
  have hpc : (s.arch i.dataRdata).pc = s.executeStage.pc := by
    show s.frontPc = _
    rw [frontPc, if_pos hv]
  rw [Arch.exec, Arch.result, execute_slot i h hv, hpc, arch, frontPc_next_fire i h hv,
    drained_next]
  rfl

/-- A cycle with an empty Execute slot and no interrupt leaves the architectural state alone. -/
theorem arch_next_idle (h : Coherent s) (hv : s.executeStage.info.valid = false)
    (hint : s.csrfile.takesInt i.interrupt = false) (rdata : BitVec 64) :
    (s.next i).arch rdata = (s.arch i.dataRdata).idle i.interrupt := by
  have hm : (HduCpu.memoryUnit (s.exe i).memoryStage rdata).info.valid = false := by
    show (s.exe i).memoryStage.info.valid = false
    rw [exe, executeUnit_valid]
    exact hv
  rw [arch, frontPc_next_idle i h hv hint, drained_next, writeBackUnit_bubble _ hm,
    next_csrfile, exe, executeUnit_next_bubble _ _ hv, Arch.idle,
    s.csrfile.next_bubble_quiet _ hint]
  show _ = Arch.mk s.frontPc (s.drained i.dataRdata) (s.csrfile.next (bubbleIn _ s.frontPc))
  rw [s.csrfile.next_bubble_quiet _ hint]

end Core

end HduCpu
