import HduCpu.Lockstep.Agree

/-!
# Computation, control transfer, loads and stores on both sides

Each class of `Agreeing` is brought to one of the ends of `Agree`, by what is known of its decoding
and of its unit.

* `SameWrite`              the register write of the reference is the one in WriteBack;
* `lockstep_plain`, `lockstep_raised`, `lockstep_illegal`   what is left to show for either end;
* `lockstep_compute`, `lockstep_transfer`   Alu, Mdu and Bru;
* `lockstep_access`, `lockstep_misaligned`   Lsu.
-/

namespace HduCpu

/-! ## ends -/

/-- The register write of the reference is the one of the result in WriteBack. -/
structure SameWrite (regs : ARegFile) (d : MemWbData) (c : RvCore MmioMem) : Prop where
  regs : writeBackUnit regs d = c.GPR
  num : c.debugRegNum = if d.info.regWen then d.info.regWaddr.setWidth 64 else 0
  data : d.info.regWen = true → d.info.regWaddr ≠ 0 → d.rdWdata = c.debugRegWdata

section
variable {d : MemWbData} {c c' : RvCore MmioMem}

theorem SameWrite.differs {regs : ARegFile} (h : SameWrite regs d c) (hpc : d.pc = c.debugPc) :
    differs (writeBackDebug d) c = false := by
  cases hw : d.info.regWen with
  | false =>
    have hn : c.debugRegNum = 0 := by rw [h.num, hw, if_neg Bool.false_ne_true]
    exact differs_quiet hpc hn
  | true =>
    have hn : c.debugRegNum = d.info.regWaddr.setWidth 64 := by rw [h.num, hw, if_pos rfl]
    exact differs_write hpc hn rfl (h.data hw)

/-- a write on both sides -/
theorem sameWrite_setGPR (hv : d.info.valid = true) (hw : d.info.regWen = true)
    {rd : BitVec 5} (hrd : d.info.regWaddr = rd) : SameWrite c.GPR d (c.setGPR rd d.rdWdata) where
  regs := by
    rw [writeBackUnit, hv, hw, hrd]
    rfl
  num := by
    rw [hw, hrd]
    rfl
  data _ _ := rfl

/-- no write on either side -/
theorem sameWrite_none (hw : d.info.regWen = false) (hgpr : c'.GPR = c.GPR)
    (hn : c'.debugRegNum = 0) : SameWrite c.GPR d c' where
  regs := by
    rw [writeBackUnit, hw, Bool.and_false, hgpr]
    rfl
  num := by rw [hw, hn, if_neg Bool.false_ne_true]
  data h := absurd (hw.symm.trans h) Bool.false_ne_true

end

section
variable {c : RvCore MmioMem} {f : CSRRegFile} {mem : Bytes} (h : InStep c f mem)
  {flags : Flags} {w : BitVec 32} (rdata : BitVec 64)
include h

/-- **An end without effect on the CSRs**, on either side. -/
theorem lockstep_plain {e : ExecState MmioMem} {mem' : Bytes}
    (hp : (fu f ((c.toArch f).slot w)).Plain) (he : c.decodeExec flags w = .ok e)
    (hri : e.ri = false) (hrvc : RvCore.isRvc w = false) (hpriv : e.core.priv = c.priv)
    (hdpc : e.core.debugPc = c.pc)
    (hpc : (if (fu f ((c.toArch f).slot w)).ftcInfo.flush then
      (fu f ((c.toArch f).slot w)).ftcInfo.target else c.pc + 4) =
        if e.newPc then e.core.pc else e.core.pc + 4)
    (hx : ((sramOf mem).dataChannel ((c.toArch f).execute .low w).dataSram rdata).xbar = sramOf mem')
    (hbus : e.core.bus.devices = [ramEntry mem'])
    (hw : SameWrite c.GPR ((c.toArch f).result .low w
      ((sramOf mem).dataChannel ((c.toArch f).execute .low w).dataSram rdata).buffer) e.core) :
    Lockstep flags c f mem rdata w := by
  have hn : e.core.priv.curNeedTrap = false := hpriv ▸ h.flag
  have hs := settle_quiet hri w (RvCore.isRvc w) hn
  rw [hrvc] at hs
  refine ⟨{ e.core with pc := if e.newPc then e.core.pc else e.core.pc + 4 }, ?_,
    meets_plain h hp hpriv (congrArg busPc hpc) hw.regs ⟨mem', hx, hbus⟩, ?_⟩
  · rw [RvCore.decodeSettle, he, hrvc]
    exact hs
  · exact @SameWrite.differs _ _ c.GPR ⟨hw.regs, hw.num, hw.data⟩ hdpc.symm

/-- **A trap** that the reference raises while it executes the word. -/
theorem lockstep_raised {e : ExecState MmioMem} {no : Fin 16} {tval : BitVec 64}
    (ht : Traps (c.toArch f) w no tval) (hdir : c.priv.directTvec ∨ no = 0)
    (he : c.decodeExec flags w = .ok e) (hri : e.ri = false)
    (hpriv : e.core.priv = c.priv.enterM c.pc ⟨BitVec.ofNat 63 no, false⟩ tval)
    (hgpr : e.core.GPR = c.GPR) (hbus : e.core.bus = c.bus) (hdpc : e.core.debugPc = c.pc)
    (hnum : e.core.debugRegNum = 0) : Lockstep flags c f mem rdata w := by
  have hn : e.core.priv.curNeedTrap = true := by rw [hpriv]; rfl
  refine ⟨{ e.core with pc := e.core.priv.trapPc }, ?_,
    @meets_trap c { e.core with pc := e.core.priv.trapPc } f mem h w no tval ht hpriv hdir rfl hgpr
      hbus hdpc hnum rdata⟩
  rw [RvCore.decodeSettle, he]
  exact settle_trap hri w _ hn

omit h in
theorem raise_entered (henv : Envelope c.priv) (hn : c.priv.curNeedTrap = false)
    {code : RvExcCode} (hc : Raisable code) (tval : BitVec 64) :
    c.raise code tval = .ok { c with priv := c.priv.enterM c.pc (.exc code) tval } := by
  have hc' : (CauseDef.exc code).cause.setWidth 64 ≠ RvExcCode.instrPgfault := hc
  unfold RvCore.raise
  rw [RvPriv.raiseTrap_eq henv hn c.pc hc' tval]
  rfl

/-- an illegal instruction on both sides -/
theorem lockstep_illegal {b : Bool} (ht : Traps (c.toArch f) w illegalInst (w.setWidth 64))
    (hdir : c.priv.directTvec) (he : c.decodeExec flags w = .ok ⟨{ c with debugInst := w }, true, b⟩) :
    Lockstep flags c f mem rdata w := by
  let p := c.priv.enterM c.pc ⟨BitVec.ofNat 63 illegalInst, false⟩ (w.setWidth 64)
  have hr : RvCore.raise { c with debugInst := w } RvExcCode.illegalInstr (w.setWidth 64) =
      .ok { c with debugInst := w, priv := p } :=
    @raise_entered { c with debugInst := w } h.env h.flag _ (by decide) _
  refine ⟨{ c with debugInst := w, priv := p, pc := p.trapPc }, ?_,
    @meets_trap c { c with debugInst := w, priv := p, pc := p.trapPc } f mem h w _ _ ht rfl
      (.inl hdir) rfl rfl rfl h.debugPc h.debugRegNum rdata⟩
  rw [RvCore.decodeSettle, he]
  refine (ExecState.settle_eq ⟨{ c with debugInst := w }, true, b⟩ w (RvCore.isRvc w)).trans ?_
  rw [if_pos rfl, hr]
  rfl

end

/-! ## computation -/

/-- the integer opcodes go to Alu or Mdu -/
theorem compute_unit {w : BitVec 32} (ho : opcodeOf w ∈ computeOpcodes) :
    (decodeOf w).2.1 = .alu ∨ (decodeOf w).2.1 = .mdu := by
  have key : ∀ op ∈ computeOpcodes, ∀ e ∈ rowsOf op, e.2.2.1 = .alu ∨ e.2.2.1 = .mdu := by
    decide +kernel
  rw [decodeOf_rows rfl]
  rcases listLookup_cases w decodeDefault (rowsOf (opcodeOf w)) with ⟨e, he, -, h⟩ | ⟨-, h⟩
  · rw [h]
    exact key _ ho e he
  · exact .inl (congrArg (fun r => r.2.1) h)

section
variable {f : CSRRegFile} {d : IdExeData} (hu : d.info.fusel = .alu ∨ d.info.fusel = .mdu)
  (hex : d.ex = .none)
include hu hex

/-- Alu and Mdu do nothing but compute. -/
theorem fu_quiet : ∃ v, fu f d = .quiet v .none := by
  rcases hu with hu | hu
  · exact ⟨_, by simp only [fu, hu, hex]; rfl⟩
  · exact ⟨_, by simp only [fu, hu, hex]; rfl⟩

end

section
variable {a : Arch} {w : BitVec 32} (hp : (fu a.csr (a.slot w)).Plain)
  (hl : (a.slot w).info.fusel ≠ .lsu)
include hp hl

/-- what reaches WriteBack from a unit other than Lsu -/
theorem result_unit (ld : BitVec 64) :
    a.result .low w ld = ⟨a.pc, (a.slot w).info, (fu a.csr (a.slot w)).wdata⟩ := by
  rw [result_plain hp, memoryUnit]
  simp [hl]

end

section
variable {c : RvCore MmioMem} {f : CSRRegFile} {mem : Bytes} (h : InStep c f mem)
  {flags : Flags} {w : BitVec 32} (rdata : BitVec 64) (hv : (decoder w).valid = true)
include h hv

theorem lockstep_compute (ho : opcodeOf w ∈ computeOpcodes) : Lockstep flags c f mem rdata w := by
  have hu : ((c.toArch f).slot w).info.fusel = .alu ∨ ((c.toArch f).slot w).info.fusel = .mdu :=
    compute_unit ho
  have hex : ((c.toArch f).slot w).ex = .none := (c.toArch f).slot_ex hv h.pc
  obtain ⟨v, hfu⟩ := @fu_quiet f _ hu hex
  have hp : (fu f ((c.toArch f).slot w)).Plain := by
    rw [hfu]
    exact ⟨rfl, rfl, rfl⟩
  have hl : ((c.toArch f).slot w).info.fusel ≠ .lsu := by
    rcases hu with hu | hu <;> rw [hu] <;> decide
  have hwen : ((c.toArch f).execute .low w).dataSram.wen = 0 := by
    show (fu f ((c.toArch f).slot w)).dataSram.wen = 0
    rw [hfu]
    rfl
  have hrvc : RvCore.isRvc w = false := by
    have key : ∀ op ∈ computeOpcodes, (op.extractLsb' 0 2 != 0b11) = false := by decide
    exact key _ ho
  have hwr : WritesSame c f flags w := by
    simp only [computeOpcodes, List.mem_cons, List.not_mem_nil, or_false] at ho
    rcases ho with ho | ho | ho | ho | ho | ho
    · exact writesSame_op c f flags ho hv
    · exact writesSame_op32 c f flags ho hv
    · exact writesSame_opImm c f flags ho hv
    · exact writesSame_opImm32 c f flags ho hv
    · exact writesSame_lui c f flags ho
    · exact writesSame_auipc c f flags ho
  refine lockstep_plain h rdata hp hwr.2 rfl hrvc rfl h.debugPc ?_
    (SramXbar.dataChannel_quiet mem hwen rdata) h.bus ?_
  · rw [hfu]
    rfl
  · rw [@result_unit (c.toArch f) _ hp hl]
    exact @sameWrite_setGPR ⟨c.pc, ((c.toArch f).slot w).info, (fu f ((c.toArch f).slot w)).wdata⟩
      { c with debugInst := w } rfl hwr.1 _ rfl

end

/-! ## control transfer -/

section
variable {f : CSRRegFile} {d : IdExeData} (hf : d.info.fusel = .bru) (hex : d.ex = .none)
  {target : Option (BitVec 64)} (ht : bruTarget d.info d.srcInfo d.pc = target)
include hf hex ht

/-- what Fu makes of a branch or a jump -/
theorem fu_bru : fu f d = { FuOut.quiet (fu f d).wdata .none with
    ftcInfo := ⟨target.isSome, target.getD 0⟩, newEx := bruEx target .none } := by
  simp only [fu, hf, bru, ht, hex]
  rfl

end

section
variable {c : RvCore MmioMem} {f : CSRRegFile} {mem : Bytes} (h : InStep c f mem)
  {flags : Flags} {w : BitVec 32} (rdata : BitVec 64) (hv : (decoder w).valid = true)
  (hf : ((c.toArch f).slot w).info.fusel = .bru)
include h hv hf

/-- a jump to a misaligned target -/
theorem lockstep_bru_trap {npc : BitVec 64} {br b : Bool}
    (ht : bruTarget ((c.toArch f).slot w).info ((c.toArch f).slot w).srcInfo c.pc = some npc)
    (hm : (npc % 4 != 0) = true)
    (he : c.decodeExec flags w = .ok ⟨{ c with
      debugInst := w, debugIsBranch := br
      priv := c.priv.enterM c.pc (.exc RvExcCode.instrMisalign) npc }, false, b⟩) :
    Lockstep flags c f mem rdata w := by
  have hfu := @fu_bru f _ hf ((c.toArch f).slot_ex hv h.pc) _ ht
  have hex : bruEx (some npc) .none = ExceptionInfo.none.raise instAddrMisaligned npc := by
    rw [bruEx, ← umod_four, if_pos hm]
  rw [hex] at hfu
  have htr : Traps (c.toArch f) w instAddrMisaligned npc := by
    refine traps_of_raise (by decide) ?_ ?_ ?_ ?_ ?_ ?_
    all_goals
      rw [show fu (c.toArch f).csr ((c.toArch f).slot w) = _ from hfu]
      rfl
  exact lockstep_raised h rdata htr (.inr rfl) he rfl rfl rfl rfl h.debugPc h.debugRegNum

/-- a jump to an aligned target, or a branch that is not taken -/
theorem lockstep_bru {target : Option (BitVec 64)} {e : ExecState MmioMem}
    (ht : bruTarget ((c.toArch f).slot w).info ((c.toArch f).slot w).srcInfo c.pc = target)
    (hal : bruEx target .none = .none) (he : c.decodeExec flags w = .ok e) (hri : e.ri = false)
    (hrvc : RvCore.isRvc w = false) (hpriv : e.core.priv = c.priv) (hdpc : e.core.debugPc = c.pc)
    (hpc : target.getD (c.pc + 4) = if e.newPc then e.core.pc else e.core.pc + 4)
    (hbus : e.core.bus = c.bus)
    (hw : SameWrite c.GPR ⟨c.pc, ((c.toArch f).slot w).info, (fu f ((c.toArch f).slot w)).wdata⟩
      e.core) : Lockstep flags c f mem rdata w := by
  have hfu := @fu_bru f _ hf ((c.toArch f).slot_ex hv h.pc) _ ht
  rw [hal] at hfu
  have hp : (fu f ((c.toArch f).slot w)).Plain := by
    rw [hfu]
    exact ⟨rfl, rfl, rfl⟩
  have hwen : ((c.toArch f).execute .low w).dataSram.wen = 0 := by
    show (fu f ((c.toArch f).slot w)).dataSram.wen = 0
    rw [hfu]
    rfl
  have hl : ((c.toArch f).slot w).info.fusel ≠ .lsu := by
    rw [hf]
    decide
  refine lockstep_plain h rdata hp he hri hrvc hpriv hdpc ?_
    (SramXbar.dataChannel_quiet mem hwen rdata) (hbus ▸ h.bus) ?_
  · rw [← hpc, hfu]
    cases target <;> rfl
  · rw [@result_unit (c.toArch f) _ hp hl]
    exact hw

omit hf in
/-- a jump with link on both sides -/
theorem lockstep_jumpLink {t : InstrType} {o : BitVec 5} (hd : decodeOf w = (t, .bru, o))
    (ho : o = BRUOpType.jal ∨ o = BRUOpType.jalr) (hty : (t != .S && t != .B) = true)
    (hrvc : RvCore.isRvc w = false) {npc : BitVec 64}
    (ht : bruTarget ((c.toArch f).slot w).info ((c.toArch f).slot w).srcInfo c.pc = some npc)
    (he : c.decodeExec flags w = { c with debugInst := w }.jumpLink (RvInstr.rd w) npc) :
    Lockstep flags c f mem rdata w := by
  have hf : ((c.toArch f).slot w).info.fusel = .bru := (c.toArch f).slot_fusel hd
  have hlink : (fu f ((c.toArch f).slot w)).wdata = c.pc + 4 := by
    simp only [fu, hf, bru, (c.toArch f).slot_valid, (c.toArch f).slot_op hd]
    rcases ho with rfl | rfl <;> rfl
  have hwen : ((c.toArch f).slot w).info.regWen = true := by
    rw [(c.toArch f).slot_regWen hd, hty]
    rfl
  unfold RvCore.jumpLink at he
  by_cases hm : (npc % 4 != 0) = true
  · rw [if_pos hm, RvCore.trap, @raise_entered { c with debugInst := w } h.env h.flag _ (by decide)]
      at he
    exact lockstep_bru_trap h rdata hv hf ht hm he
  · rw [if_neg hm] at he
    have hal : bruEx (some npc) .none = .none := by
      rw [bruEx, ← umod_four, if_neg hm]
    refine lockstep_bru h rdata hv hf ht hal he rfl hrvc rfl h.debugPc rfl rfl ?_
    have hs := @sameWrite_setGPR ⟨c.pc, ((c.toArch f).slot w).info, c.pc + 4⟩ c rfl hwen
      (RvInstr.rd w) rfl
    rw [hlink]
    exact ⟨hs.regs, hs.num, hs.data⟩

omit hf in
theorem lockstep_jal (ho : opcodeOf w = Opcode.JAL) : Lockstep flags c f mem rdata w := by
  have hrvc : RvCore.isRvc w = false := by rw [RvCore.isRvc, opcode_eq, ho]; rfl
  exact lockstep_jumpLink h rdata hv (decodeOf_jal ho) (.inl rfl) (by decide) hrvc
    (bruTarget_jal f ho) (decodeExec_jal c flags ho)

omit hf in
/-- `jalr` with an even base register -/
theorem lockstep_jalr (ho : opcodeOf w = Opcode.JALR)
    (heven : (c.GPR (RvInstr.rs1 w)).getLsbD 0 = false) : Lockstep flags c f mem rdata w := by
  have hrvc : RvCore.isRvc w = false := by rw [RvCore.isRvc, opcode_eq, ho]; rfl
  have ht := bruTarget_jalr (c := c) f hv ho
  rw [← (jalr_target _ _).mpr heven] at ht
  refine lockstep_jumpLink h rdata hv (decodeOf_valid_jalr hv ho) (.inr rfl) (by decide) hrvc ht ?_
  rw [decodeExec_jalr c flags ho, RvCore.jalr, ← imm12_even]

omit hf in
theorem lockstep_branch (ho : opcodeOf w = Opcode.BRANCH) : Lockstep flags c f mem rdata w := by
  obtain ⟨u, hu⟩ := row_of_valid (decodeOf_branch ho) hv
  obtain ⟨o, hb, rfl⟩ := Option.map_eq_some_iff.mp hu
  have hd : decodeOf w = (.B, .bru, o) := by rw [decodeOf_branch ho, hu]; rfl
  have hrvc : RvCore.isRvc w = false := by rw [RvCore.isRvc, opcode_eq, ho]; rfl
  have hf : ((c.toArch f).slot w).info.fusel = .bru := (c.toArch f).slot_fusel hd
  have hwen : ((c.toArch f).slot w).info.regWen = false := (c.toArch f).slot_regWen hd
  have h₁ := (c.toArch f).slot_src1 hd (by decide)
  have h₂ := (c.toArch f).slot_src2 hd
  rw [if_pos (by decide)] at h₁ h₂
  have hop : branchOp (funct3Of w) = some ((c.toArch f).slot w).info.op := by
    rw [hb, (c.toArch f).slot_op hd]
  have ht := bruTarget_branch (c.toArch f).slot_valid hop ((c.toArch f).slot w).srcInfo c.pc
  rw [h₁, h₂, (c.toArch f).slot_imm hd, immOf_B] at ht
  have he := decodeExec_branch c flags ho
  unfold RvCore.branch at he
  rw [funct3_eq] at he
  cases hk : RvCore.branchTaken (funct3Of w) (c.GPR (RvInstr.rs1 w)) (c.GPR (RvInstr.rs2 w)) with
  | none =>
    unfold branchOp at hb
    unfold RvCore.branchTaken at hk
    split_ifs at hb hk
  | some t =>
    change bruTarget _ _ _ = if RvCore.branchTaken (funct3Of w) (c.GPR (RvInstr.rs1 w))
      (c.GPR (RvInstr.rs2 w)) = some true then _ else _ at ht
    rw [hk] at he ht
    cases t with
    | false =>
      exact lockstep_bru h rdata hv hf ht rfl he rfl hrvc rfl h.debugPc rfl rfl
        (sameWrite_none hwen rfl h.debugRegNum)
    | true =>
      rw [if_pos rfl] at ht
      change c.decodeExec flags w = if ((c.pc + (RvInstr.immB w).signExtend 64) % 4 != 0) = true
        then _ else _ at he
      by_cases hm : ((c.pc + (RvInstr.immB w).signExtend 64) % 4 != 0) = true
      · rw [if_pos hm,
          @raise_entered { c with debugInst := w, debugIsBranch := true } h.env h.flag _ (by decide)]
          at he
        exact lockstep_bru_trap h rdata hv hf ht hm he
      · rw [if_neg hm] at he
        have hal : bruEx (some (c.pc + (RvInstr.immB w).signExtend 64)) .none = .none := by
          rw [bruEx, ← umod_four, if_neg hm]
        exact lockstep_bru h rdata hv hf ht hal he rfl hrvc rfl h.debugPc rfl rfl
          (sameWrite_none hwen rfl h.debugRegNum)

omit hf in
theorem lockstep_transfer (ho : opcodeOf w ∈ transferOpcodes)
    (heven : ¬ (opcodeOf w = Opcode.JALR ∧ (c.GPR (RvInstr.rs1 w)).getLsbD 0 = true)) :
    Lockstep flags c f mem rdata w := by
  simp only [transferOpcodes, List.mem_cons, List.not_mem_nil, or_false] at ho
  rcases ho with ho | ho | ho
  · exact lockstep_branch h rdata hv ho
  · exact lockstep_jal h rdata hv ho
  · exact lockstep_jalr h rdata hv ho (Bool.eq_false_of_not_eq_true fun hn => heven ⟨ho, hn⟩)

end

/-! ## loads and stores -/

/-- equal registers after a write on both sides -/
theorem sameWrite_regs {d : MemWbData} {c : RvCore MmioMem} {rd : BitVec 5} {v : BitVec 64}
    (hv : d.info.valid = true) (hw : d.info.regWen = true) (hrd : d.info.regWaddr = rd)
    (h : writeBackUnit c.GPR d = (c.setGPR rd v).GPR) : SameWrite c.GPR d (c.setGPR rd v) where
  regs := h
  num := by
    rw [hw, hrd]
    rfl
  data _ hne := by
    have hr := congrFun h rd
    rw [hrd] at hne
    have hb : (rd != 0) = true := bne_iff_ne.mpr hne
    simp only [writeBackUnit, ARegFile.write, hv, hw, hrd, hb, RvCore.setGPR, Bool.and_self, if_true,
      Function.update_self] at hr
    exact hr

section
variable {c : RvCore MmioMem} {w : BitVec 32} {mem : Bytes} {addr size : BitVec 64}

/-- a load of the reference from inside the memory -/
theorem load_ok {conv : BitVec 64 → BitVec 64} (hs : c.priv.satp = 0)
    (hb : c.bus.devices = [ramEntry mem]) (hm : addr % size = 0) (hr : InRam addr size)
    (hk : RvCore.loadKind (RvInstr.funct3 w) = some (size, conv))
    (ha : c.GPR (RvInstr.rs1 w) + (RvInstr.imm12 w).signExtend 64 = addr) :
    ∃ v, c.load w = (c.setGPR (RvInstr.rd w) v).done := by
  have hm' : (addr % size != 0) = false := bne_eq_false_iff_eq.mpr hm
  refine ⟨conv (copyLow 0 size.toNat (peek mem (ramIndex addr) size.toNat)), ?_⟩
  unfold RvCore.load RvCore.memRead
  simp only [hk, ha, hm', Bool.false_eq_true, if_false,
    RvPriv.vaRead_bare (RvPriv.bare_of_satp hs), paRead_ram hr hb]
  rfl

/-- a store of the reference inside the memory -/
theorem store_ok {flags : Flags} (hs : c.priv.satp = 0) (hb : c.bus.devices = [ramEntry mem])
    (hm : addr % size = 0) (hr : InRam addr size)
    (hk : RvCore.storeSize (RvInstr.funct3 w) = some size)
    (ha : c.GPR (RvInstr.rs1 w) + (RvInstr.immS w).signExtend 64 = addr)
    (hx : ¬ (flags.runRiscvTest = true ∧ addr = 0x80001000#64 ∧ c.GPR (RvInstr.rs2 w) = 1)) :
    c.store flags w =
      ({ c with bus := (c.bus.paWrite addr size (c.GPR (RvInstr.rs2 w))).bus }).done := by
  have hm' : (addr % size != 0) = false := bne_eq_false_iff_eq.mpr hm
  have hexit : (flags.runRiscvTest && addr == 0x80001000#64 && c.GPR (RvInstr.rs2 w) == 1) =
      false := by
    rw [← Bool.not_eq_true, Bool.and_eq_true, Bool.and_eq_true, beq_iff_eq, beq_iff_eq, and_assoc]
    exact hx
  unfold RvCore.store RvCore.memWrite
  simp only [hk, ha, hm', Bool.false_eq_true, if_false, RvPriv.vaWrite_bare (RvPriv.bare_of_satp hs),
    RvPriv.storeOrExit, hexit, (paWrite_ram hr hb (c.GPR (RvInstr.rs2 w))).1]
  rfl

theorem load_trap {conv : BitVec 64 → BitVec 64} (henv : Envelope c.priv)
    (hn : c.priv.curNeedTrap = false) (hm : addr % size ≠ 0)
    (hk : RvCore.loadKind (RvInstr.funct3 w) = some (size, conv))
    (ha : c.GPR (RvInstr.rs1 w) + (RvInstr.imm12 w).signExtend 64 = addr) : c.load w =
      .ok ⟨{ c with priv := c.priv.enterM c.pc (.exc RvExcCode.loadMisalign) addr }, false, false⟩ := by
  have hr := @raise_entered c henv hn RvExcCode.loadMisalign (by decide) addr
  unfold RvCore.load RvCore.memRead
  simp only [hk, ha, if_pos (bne_iff_ne.mpr hm), hr]
  rfl

theorem store_trap {flags : Flags} (henv : Envelope c.priv) (hn : c.priv.curNeedTrap = false)
    (hm : addr % size ≠ 0) (hk : RvCore.storeSize (RvInstr.funct3 w) = some size)
    (ha : c.GPR (RvInstr.rs1 w) + (RvInstr.immS w).signExtend 64 = addr) : c.store flags w =
      .ok ⟨{ c with priv := c.priv.enterM c.pc (.exc RvExcCode.storeMisalign) addr }, false, false⟩ := by
  have hr := @raise_entered c henv hn RvExcCode.storeMisalign (by decide) addr
  unfold RvCore.store RvCore.memWrite
  simp only [hk, ha, if_pos (bne_iff_ne.mpr hm), hr]
  rfl

end

section
variable {c : RvCore MmioMem} {f : CSRRegFile} {mem : Bytes} (h : InStep c f mem)
  {flags : Flags} {w : BitVec 32} (rdata : BitVec 64) (hv : (decoder w).valid = true)
include h hv

/-- what an access inside the memory does to it and to the registers -/
theorem lockstep_aligned {t : InstrType} {op : BitVec 5} {e : ExecState MmioMem}
    (hd : decodeOf w = (t, .lsu, op)) (hty : (t != .U && t != .J) = true)
    (ha : c.GPR (RvInstr.rs1 w) + immOf t w = c.accessAddr w)
    (hl : lsuBit op (c.accessAddr w) = 0) (hr : InRam (c.accessAddr w) 1)
    (he : c.decodeExec flags w = .ok e) (hri : e.ri = false) (hnew : e.newPc = false)
    (hpc : e.core.pc = c.pc) (hrvc : RvCore.isRvc w = false)
    (hpriv : e.core.priv = c.priv) (hdpc : e.core.debugPc = c.pc) {mem' : Bytes}
    (hacc : (cpuAccess (c.toArch f) (sramOf mem) rdata w).mems = [mem'])
    (hbus : e.core.bus.devices = [ramEntry mem'])
    (hw : ∀ d : MemWbData, d.info = ((c.toArch f).slot w).info →
      writeBackUnit c.GPR d = (cpuAccess (c.toArch f) (sramOf mem) rdata w).regs →
        SameWrite c.GPR d e.core) : Lockstep flags c f mem rdata w := by
  have hfu := fu_slot (c.toArch f) hd hty hv h.pc
  have hp : (fu f ((c.toArch f).slot w)).Plain := by
    rw [show fu f ((c.toArch f).slot w) = _ from hfu]
    refine ⟨?_, rfl, rfl⟩
    show lsuEx op (c.GPR (RvInstr.rs1 w) + immOf t w) .none = .none
    rw [ha, lsuEx, bne_eq_false_iff_eq.mpr hl, if_neg Bool.false_ne_true]
  have hx : ∃ m, ((sramOf mem).dataChannel ((c.toArch f).execute .low w).dataSram rdata).xbar =
      sramOf m := by
    have hport := execute_port (c.toArch f) hd hty hv h.pc
    have hw32 : ((c.accessAddr w).setWidth 32).setWidth 64 = c.accessAddr w := by
      have e : (RAM_START + RAM_SIZE).toNat = 0x88000000 := by decide
      have h₂ := hr.2
      rw [e] at h₂
      apply BitVec.eq_of_toNat_eq
      rw [BitVec.toNat_setWidth_of_le (by decide), BitVec.toNat_setWidth]
      have : (c.accessAddr w).toNat + 1 ≤ 0x88000000 := h₂
      omega
    have haddr : ((c.toArch f).execute .low w).dataSram.addr = (c.accessAddr w).setWidth 32 := by
      rw [hport, ← ha]
      rfl
    exact ⟨_, congrArg XbarResult.xbar (SramXbar.dataChannel_sram mem (hw32.symm ▸ hr)
      (congrArg DataSram.en hport) haddr rdata)⟩
  obtain ⟨m, hm⟩ := hx
  have hmems : [m] = [mem'] := by
    rw [← hacc, cpuAccess]
    simp only [hm]
    rfl
  rw [List.cons.injEq] at hmems
  have hinfo : ∀ ld, ((c.toArch f).result .low w ld).info = ((c.toArch f).slot w).info :=
    fun ld => congrArg MemWbData.info (@result_plain (c.toArch f) w hp ld)
  refine lockstep_plain h rdata hp he hri hrvc hpriv hdpc ?_ (hmems.1 ▸ hm) hbus (hw _ (hinfo _) rfl)
  rw [show fu f ((c.toArch f).slot w) = _ from hfu, hnew, hpc]
  rfl

theorem lockstep_load (ho : opcodeOf w = Opcode.LOAD) (hm : c.accessAddr w % accessSize w = 0)
    (hr : InRam (c.accessAddr w) (accessSize w)) : Lockstep flags c f mem rdata w := by
  obtain ⟨u, hu⟩ := row_of_valid (decodeOf_load ho) hv
  obtain ⟨op, hk, rfl⟩ := Option.map_eq_some_iff.mp hu
  have hd : decodeOf w = (.I, .lsu, op) := by rw [decodeOf_load ho, hu]; rfl
  have hrvc : RvCore.isRvc w = false := by rw [RvCore.isRvc, opcode_eq, ho]; rfl
  have hns : opcodeOf w ≠ Opcode.STORE := by rw [ho]; decide
  have ha : c.GPR (RvInstr.rs1 w) + (RvInstr.imm12 w).signExtend 64 = c.accessAddr w := by
    rw [RvCore.accessAddr, if_neg hns]
  have hsize : accessSize w = 1#64 <<< LSUOpType.exBit op := by rw [accessSize, (exBit_loadOp hk).1]
  have hl : lsuBit op (c.accessAddr w) = 0 := (lsuBit_eq_zero op _).mpr (hsize ▸ hm)
  have hr1 := (access_offset (hsize ▸ hr) (hsize ▸ hm)).2.2
  obtain ⟨conv, hkind, -⟩ := loadValue_conv hk (c.accessAddr w) 0 0
  rw [← hsize] at hkind
  obtain ⟨v, hload⟩ := @load_ok { c with debugInst := w } w mem _ _ conv h.env.satp h.bus hm hr hkind ha
  have he := (decodeExec_load c flags ho).trans hload
  obtain ⟨m, regs, href, hcpu, -⟩ := (memory_load f flags hv h.pc h.flag h.env.satp h.bus rdata
    ho).aligned hm hr fun hx => hns hx.1
  -- the registers after the instruction are those of the reference
  have hend : c.access flags w = some ⟨none, [mem], ({ c with debugInst := w }.setGPR
      (RvInstr.rd w) v).GPR⟩ := by
    have hq := @accessEnd_quiet ⟨{ c with debugInst := w }.setGPR (RvInstr.rd w) v, false, false⟩ rfl w
      h.flag
    simp only [RvCore.setGPR, h.bus] at hq
    rw [RvCore.access, he]
    exact hq
  have hacc := hcpu.trans (Option.some.inj (href.symm.trans hend))
  have hwen : ((c.toArch f).slot w).info.regWen = true := by
    rw [(c.toArch f).slot_regWen hd]
    rfl
  have himm : c.GPR (RvInstr.rs1 w) + immOf .I w = c.accessAddr w := by
    rw [immOf_I]
    exact ha
  refine lockstep_aligned h rdata hv hd (by decide) himm hl hr1 he rfl rfl rfl hrvc rfl h.debugPc
    (congrArg Access.mems hacc) h.bus fun d hi hregs => ?_
  exact @sameWrite_regs d { c with debugInst := w } _ v (by rw [hi]; rfl) (by rw [hi]; exact hwen)
    (by rw [hi]; rfl) (hregs.trans (congrArg Access.regs hacc))

theorem lockstep_store (ho : opcodeOf w = Opcode.STORE) (hm : c.accessAddr w % accessSize w = 0)
    (hr : InRam (c.accessAddr w) (accessSize w)) (hx : ¬ c.endsTest flags w) :
    Lockstep flags c f mem rdata w := by
  obtain ⟨u, hu⟩ := row_of_valid (decodeOf_store ho) hv
  obtain ⟨op, hk, rfl⟩ := Option.map_eq_some_iff.mp hu
  have hd : decodeOf w = (.S, .lsu, op) := by rw [decodeOf_store ho, hu]; rfl
  have hrvc : RvCore.isRvc w = false := by rw [RvCore.isRvc, opcode_eq, ho]; rfl
  have ha : c.GPR (RvInstr.rs1 w) + (RvInstr.immS w).signExtend 64 = c.accessAddr w := by
    rw [RvCore.accessAddr, if_pos ho]
  have hsize : accessSize w = 1#64 <<< LSUOpType.exBit op := by
    rw [accessSize, (exBit_storeOp hk).1]
  have hl : lsuBit op (c.accessAddr w) = 0 := (lsuBit_eq_zero op _).mpr (hsize ▸ hm)
  have hr1 := (access_offset (hsize ▸ hr) (hsize ▸ hm)).2.2
  have hkind : RvCore.storeSize (funct3Of w) = some (accessSize w) := by
    rw [hsize]
    exact storeSize_eq hk
  have hnx : ¬ (flags.runRiscvTest = true ∧ c.accessAddr w = 0x80001000#64 ∧
      c.GPR (RvInstr.rs2 w) = 1) := fun hx' => hx ⟨ho, hx'⟩
  have he := (decodeExec_store c flags ho).trans
    (@store_ok { c with debugInst := w } w mem _ _ flags h.env.satp h.bus hm hr hkind ha hnx)
  obtain ⟨hok, hdev⟩ := paWrite_ram hr h.bus (c.GPR (RvInstr.rs2 w))
  obtain ⟨m, regs, href, hcpu, -⟩ := (memory_store f flags hv h.pc h.flag h.env.satp h.bus rdata
    ho).aligned hm hr hx
  -- the memory after the instruction is that of the reference
  have hend : c.access flags w = some ⟨none, [poke mem (ramIndex (c.accessAddr w))
      (accessSize w).toNat (c.GPR (RvInstr.rs2 w))], c.GPR⟩ := by
    have hq := @accessEnd_quiet ⟨{ c with debugInst := w, bus :=
      (c.bus.paWrite (c.accessAddr w) (accessSize w) (c.GPR (RvInstr.rs2 w))).bus }, false, false⟩ rfl w
      h.flag
    simp only [hdev, List.map_cons, List.map_nil, ramEntry_mem] at hq
    rw [RvCore.access, he]
    exact hq
  have hacc := hcpu.trans (Option.some.inj (href.symm.trans hend))
  have hwen : ((c.toArch f).slot w).info.regWen = false := (c.toArch f).slot_regWen hd
  have himm : c.GPR (RvInstr.rs1 w) + immOf .S w = c.accessAddr w := by
    rw [immOf_S]
    exact ha
  exact lockstep_aligned h rdata hv hd (by decide) himm hl hr1 he rfl rfl rfl hrvc rfl h.debugPc
    (congrArg Access.mems hacc) hdev fun d hi _ =>
      sameWrite_none (by rw [hi]; exact hwen) rfl h.debugRegNum

theorem lockstep_access (ho : opcodeOf w ∈ memoryOpcodes) (hm : c.accessAddr w % accessSize w = 0)
    (hr : InRam (c.accessAddr w) (accessSize w)) (hx : ¬ c.endsTest flags w) :
    Lockstep flags c f mem rdata w := by
  simp only [memoryOpcodes, List.mem_cons, List.not_mem_nil, or_false] at ho
  rcases ho with ho | ho
  · exact lockstep_load h rdata hv ho hm hr
  · exact lockstep_store h rdata hv ho hm hr hx

/-- the trap of a misaligned address -/
theorem lockstep_lsu_trap {t : InstrType} {op : BitVec 5} {code : RvExcCode}
    (hd : decodeOf w = (t, .lsu, op)) (hty : (t != .U && t != .J) = true)
    (ha : c.GPR (RvInstr.rs1 w) + immOf t w = c.accessAddr w)
    (hl : lsuBit op (c.accessAddr w) ≠ 0) (hdir : c.priv.directTvec)
    (hcode : CauseDef.exc code = ⟨BitVec.ofNat 63 (misalignNo op), false⟩)
    (he : c.decodeExec flags w = .ok ⟨{ c with
      debugInst := w, priv := c.priv.enterM c.pc (.exc code) (c.accessAddr w) }, false, false⟩) :
    Lockstep flags c f mem rdata w := by
  have hfu := fu_slot (c.toArch f) hd hty hv h.pc
  rw [show (c.toArch f).regs (RvInstr.rs1 w) + immOf t w = c.accessAddr w from ha,
    beq_eq_false_iff_ne.mpr hl, if_neg Bool.false_ne_true] at hfu
  have hex : lsuEx op (c.accessAddr w) .none =
      ExceptionInfo.none.raise (misalignNo op) (c.accessAddr w) := by
    rw [lsuEx, if_pos (bne_iff_ne.mpr hl), misalignNo]
    split <;> rfl
  rw [hex] at hfu
  have hne : misalignNo op ≠ noException := by
    rw [misalignNo]
    split <;> decide
  have hraise : ∀ v, excNO (ExceptionInfo.none.raise (misalignNo op) v) = misalignNo op := by
    intro v
    rw [misalignNo]
    split <;> rfl
  have htr : Traps (c.toArch f) w (misalignNo op) (c.accessAddr w) := by
    refine traps_of_raise hne ?_ ?_ ?_ ?_ ?_ ?_
    all_goals rw [hfu]
    · exact hraise _
    · exact Function.update_self _ _ _
    all_goals rfl
  rw [hcode] at he
  exact lockstep_raised h rdata htr (.inl hdir) he rfl rfl rfl rfl h.debugPc h.debugRegNum

theorem lockstep_load_trap (ho : opcodeOf w = Opcode.LOAD)
    (hm : c.accessAddr w % accessSize w ≠ 0) (hdir : c.priv.directTvec) :
    Lockstep flags c f mem rdata w := by
  obtain ⟨u, hu⟩ := row_of_valid (decodeOf_load ho) hv
  obtain ⟨op, hk, rfl⟩ := Option.map_eq_some_iff.mp hu
  have hd : decodeOf w = (.I, .lsu, op) := by rw [decodeOf_load ho, hu]; rfl
  have hns : opcodeOf w ≠ Opcode.STORE := by rw [ho]; decide
  obtain ⟨hbit, hst⟩ := exBit_loadOp hk
  have hsize : accessSize w = 1#64 <<< LSUOpType.exBit op := by rw [accessSize, hbit]
  have ha : c.GPR (RvInstr.rs1 w) + (RvInstr.imm12 w).signExtend 64 = c.accessAddr w := by
    rw [RvCore.accessAddr, if_neg hns]
  have himm : c.GPR (RvInstr.rs1 w) + immOf .I w = c.accessAddr w := by
    rw [immOf_I]
    exact ha
  obtain ⟨conv, hkind, -⟩ := loadValue_conv hk (c.accessAddr w) 0 0
  rw [← hsize] at hkind
  have he := (decodeExec_load c flags ho).trans
    (@load_trap { c with debugInst := w } w _ _ conv h.env h.flag hm hkind ha)
  refine lockstep_lsu_trap h rdata hv hd (by decide) himm
    (fun h0 => hm (hsize ▸ (lsuBit_eq_zero op _).mp h0)) hdir ?_ he
  rw [misalignNo, hst]
  rfl

theorem lockstep_store_trap (ho : opcodeOf w = Opcode.STORE)
    (hm : c.accessAddr w % accessSize w ≠ 0) (hdir : c.priv.directTvec) :
    Lockstep flags c f mem rdata w := by
  obtain ⟨u, hu⟩ := row_of_valid (decodeOf_store ho) hv
  obtain ⟨op, hk, rfl⟩ := Option.map_eq_some_iff.mp hu
  have hd : decodeOf w = (.S, .lsu, op) := by rw [decodeOf_store ho, hu]; rfl
  obtain ⟨hbit, hst⟩ := exBit_storeOp hk
  have hsize : accessSize w = 1#64 <<< LSUOpType.exBit op := by rw [accessSize, hbit]
  have ha : c.GPR (RvInstr.rs1 w) + (RvInstr.immS w).signExtend 64 = c.accessAddr w := by
    rw [RvCore.accessAddr, if_pos ho]
  have himm : c.GPR (RvInstr.rs1 w) + immOf .S w = c.accessAddr w := by
    rw [immOf_S]
    exact ha
  have hkind : RvCore.storeSize (funct3Of w) = some (accessSize w) := by
    rw [hsize]
    exact storeSize_eq hk
  have he := (decodeExec_store c flags ho).trans
    (@store_trap { c with debugInst := w } w _ _ flags h.env h.flag hm hkind ha)
  refine lockstep_lsu_trap h rdata hv hd (by decide) himm
    (fun h0 => hm (hsize ▸ (lsuBit_eq_zero op _).mp h0)) hdir ?_ he
  rw [misalignNo, hst]
  rfl

theorem lockstep_misaligned (ho : opcodeOf w ∈ memoryOpcodes)
    (hm : c.accessAddr w % accessSize w ≠ 0) (hdir : c.priv.directTvec) :
    Lockstep flags c f mem rdata w := by
  simp only [memoryOpcodes, List.mem_cons, List.not_mem_nil, or_false] at ho
  rcases ho with ho | ho
  · exact lockstep_load_trap h rdata hv ho hm hdir
  · exact lockstep_store_trap h rdata hv ho hm hdir

end

end HduCpu
