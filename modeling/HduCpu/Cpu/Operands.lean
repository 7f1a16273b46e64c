import HduCpu.Cpu.Pipeline

/-!
# Operands in program order

The register file lacks the writes of the instructions in Execute, Memory and WriteBack.  Forwarding
and the load-use stall make up for it, whatever the contents of the three slots.

* `FromDecoder`            the `Info` of a slot: decoded, then squashed or its write cleared;
* `Core.olderWrites`, `Core.programOrder`   the registers with the writes of the older instructions;
* `operands_program_order`   an instruction that leaves Decode has its operands from there.
-/

namespace HduCpu

/-- The `Info` of a slot is what `Decoder` makes of a word, but for `valid`, and for `reg_wen` once
it was cleared. -/
def FromDecoder (info : Info) : Prop :=
  ∃ inst valid keep, info =
    { decoder inst with valid := valid, regWen := (decoder inst).regWen && keep }

/-- In a slot the loads are the LSU operations without a second register operand. -/
theorem FromDecoder.load {info : Info} (h : FromDecoder info) (hf : info.fusel = .lsu)
    (ho : LSUOpType.isLoad info.op = true) : info.src2Ren = false := by
  obtain ⟨inst, valid, keep, rfl⟩ := h
  exact decoder_load inst hf ho

namespace Core
section
variable (s : Core) (i : CoreIn)

/-- the older instructions with what they write, the oldest first; `ld` is the word that a load in
Execute is going to read -/
def olderWrites (ld : BitVec 64) : List MemWbData :=
  [s.writeBackStage, HduCpu.memoryUnit s.memoryStage i.dataRdata,
    HduCpu.memoryUnit (s.exe i).memoryStage ld]

/-- the registers as the instruction in Decode finds them in program order -/
def programOrder (ld : BitVec 64) : ARegFile := (s.olderWrites i ld).foldl writeBackUnit s.regfile

theorem programOrder_eq (ld : BitVec 64) : s.programOrder i ld = writeBackUnit (writeBackUnit
    (writeBackUnit s.regfile s.writeBackStage) (HduCpu.memoryUnit s.memoryStage i.dataRdata))
    (HduCpu.memoryUnit (s.exe i).memoryStage ld) := rfl

end
end Core

/-- Register 0 is never written. -/
theorem foldl_write_zero (l : List MemWbData) (regs : ARegFile) :
    l.foldl writeBackUnit regs 0 = regs 0 := by
  induction l generalizing regs with
  | nil => rfl
  | cons d l ih =>
    rw [List.foldl_cons, ih, writeBackUnit_apply]
    refine if_neg fun h => ?_
    simp only [writes, Bool.and_eq_true, bne_iff_ne, beq_iff_eq] at h
    exact h.1.2 h.2.symm

section
variable {info : Info} {pc : BitVec 64} {regs : ARegFile}

/-- The first operand, without forwarding. -/
theorem src1Data_regs (hr : info.src1Ren = true) (hc : info.isCsri = false) :
    src1Data info pc regs .none .none .none = regs info.src1Raddr := by
  have hn : conflict1 info Bypass.none.info = false := by simp [conflict1, Bypass.none, Info.zero]
  simp only [src1Data, muxCase_cons, muxCase_nil, hn, hc, hr, Bool.false_eq_true, if_false, if_true]

theorem src2Data_regs (hr : info.src2Ren = true) :
    src2Data info regs .none .none .none = regs info.src2Raddr := by
  have hn : conflict2 info Bypass.none.info = false := by simp [conflict2, Bypass.none, Info.zero]
  simp only [src2Data, muxCase_cons, muxCase_nil, hn, hr, Bool.false_eq_true, if_false, if_true]

end

/-- **Operands are delivered in program order.**  When `DecodeCtrl` lets an instruction go, the
registers it reads have the values that the writes of the older instructions leave. -/
theorem operands_program_order {s : Core} {i : CoreIn} (hz : s.regfile 0 = 0)
    (he : FromDecoder s.executeStage.info) (hgo : (s.wires i).decodeCtrl.allowToGo = true)
    (ld : BitVec 64) :
    ((s.dec i).info.src1Ren = true → (s.dec i).info.isCsri = false →
      (s.dec i).srcInfo.src1Data = s.programOrder i ld (s.dec i).info.src1Raddr) ∧
    ((s.dec i).info.src2Ren = true →
      (s.dec i).srcInfo.src2Data = s.programOrder i ld (s.dec i).info.src2Raddr) ∧
    s.programOrder i ld 0 = 0 := by
  have hst : s.stall i = false := by
    rw [Core.wires_decodeCtrl] at hgo
    simpa using hgo
  have hload : s.executeStage.info.valid = true → s.executeStage.info.fusel = .lsu →
      LSUOpType.isLoad s.executeStage.info.op = true → s.executeStage.info.src2Ren = false :=
    fun _ => he.load
  obtain ⟨h1, h2⟩ := Core.dec_srcInfo i hload hst ld (s.programOrder_eq i ld)
  refine ⟨fun hr hc => h1.trans (src1Data_regs hr hc), fun hr => h2.trans (src2Data_regs hr), ?_⟩
  rw [Core.programOrder, foldl_write_zero, hz]

/-- `ld x2, 0(x0)`, `addi x1, x0, 5` and `add x3, x1, x2` in Memory, Execute and Decode -/
def forwarding : Core := { Core.reset with
  decodeStage := ⟨0x002081B3, true, 0x80000008⟩
  executeStage := ⟨0x80000004, { decoder 0x00500093 with valid := true }, ⟨0, 5⟩, .none⟩
  memoryStage := ⟨0x80000000, { decoder 0x00003103 with valid := true }, 0, ⟨0, 0⟩⟩ }

/-- the inputs while 7 is being loaded -/
def forwardingIn : CoreIn := ⟨.low, 0, 7⟩

theorem operands_program_order_add :
    (forwarding.dec forwardingIn).srcInfo.src1Data = forwarding.programOrder forwardingIn 0 1 ∧
    (forwarding.dec forwardingIn).srcInfo.src2Data = forwarding.programOrder forwardingIn 0 2 := by
  have he : FromDecoder forwarding.executeStage.info := ⟨0x00500093, true, true, by decide⟩
  have h := operands_program_order (i := forwardingIn) (s := forwarding) rfl he (by decide) 0
  exact ⟨h.1 (by decide) (by decide), h.2.1 (by decide)⟩

end HduCpu
