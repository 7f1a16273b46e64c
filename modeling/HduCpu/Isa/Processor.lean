import HduCpu.Isa.Refine
import HduCpu.Lockstep.Alarm

/-!
# The processor and the machine of the instruction set

What a program does on the machine, it does on the reference, on the pipelined processor with the
memory of the simulator, and in the differential test of both (without `-hasdelayslot` and
`-trace`).  The machine has no step for a `jalr` from an odd register.

* `Text.in_image`          an image with the program in it;
* `Soc.Shows`              what the processor has of a state of the machine;
* `isa_reference`          the reference makes the steps of the machine;
* `isa_processor`          so does the processor, in at most three clock cycles each;
* `testRun_isa`            the test of a program that ends ends with its code, without an alarm.
-/

namespace HduCpu

/-! ## images -/

/-- A program that is loaded at the start of the memory, before its data, is in its place. -/
theorem Text.in_image {t : Text} {image : List (BitVec 32)} (h : t.words <+: image) :
    t.In (progBytes image) := by
  intro i w hi
  obtain ⟨data, rfl⟩ := h
  have hi' : (t.words ++ data)[i]? = some w := by
    rw [List.getElem?_append_left (List.getElem?_eq_some_iff.mp hi).1, hi]
  apply BitVec.eq_of_getLsbD_eq
  intro j hj
  have hd : (4 * i + j / 8) / 4 = i := by omega
  have hm : (4 * i + j / 8) % 4 = j / 8 := by omega
  have hb : 8 * (j / 8) + j % 8 = j := by omega
  have hw : (t.words ++ data).getD i 0 = w := by
    rw [List.getD_eq_getElem?_getD, hi', Option.getD_some]
  have h8 : j % 8 < 8 := by omega
  rw [BitVec.getLsbD_setWidth, getLsbD_peek _ _ _ (by omega), decide_eq_true hj, progBytes, hd, hm,
    hw, BitVec.getLsbD_extractLsb', hb, decide_eq_true h8]
  rfl

theorem Text.in_progBytes (t : Text) : t.In (progBytes t.words) :=
  Text.in_image (List.prefix_refl _)

/-! ## the reference -/

/-- **The reference is a machine of the instruction set**: until the limit of a test it makes every
step of the machine, from every image with the text in it, and where the machine ends it ends the
simulation. -/
theorem isa_reference {t : Text} {mem : Bytes} (hin : t.In mem) {k : ℕ} (hk : k < 2000000) {s : Isa}
    (h : isaRun t mem k = .ok s) :
    (∃ c, refRun mem k = .ok c ∧ c.pc = s.pc ∧ c.GPR = s.regs ∧ c.bus.devices = [ramEntry s.mem]) ∧
      ∀ code, s.step t = .error (.exit code) → refRun mem (k + 1) = .error (.exit code) := by
  obtain ⟨c, hc, hst⟩ := refRun_stands hin hk.le h
  exact ⟨⟨c, hc, hst.pc, hst.regs, hst.mem⟩, fun code hx => refRun_ends hin hk h hx⟩

/-! ## the processor -/

/-- The processor has the pc, the registers once the instructions behind Execute have been written
back, and the memory of the state. -/
structure Soc.Shows (soc : Soc) (s : Isa) : Prop where
  pc : (soc.core.arch soc.dataRdata).pc = busPc s.pc
  regs : (soc.core.arch soc.dataRdata).regs = s.regs
  mem : soc.mmio = sramOf s.mem

theorem Stands.shows {k : ℕ} {s : Isa} {c : RvCore MmioMem} {soc : Soc} (h : Stands k s c)
    (hm : Meets (soc.core.arch soc.dataRdata) soc.mmio c) : soc.Shows s := by
  obtain ⟨mem, hx, hdev⟩ := hm.mem
  have hmem : mem = s.mem := by
    have he := List.head_eq_of_cons_eq (hdev.symm.trans h.mem)
    exact congrArg (fun e : BusEntry MmioMem => e.dev.mem) he
  exact ⟨hm.pc.trans (congrArg busPc h.pc), hm.regs.trans h.regs, hx.trans (congrArg sramOf hmem)⟩

/-- Every number of executed instructions is reached. -/
theorem executed_hits (mem : Bytes) (K : ℕ) : ∃ n ≤ 3 * K + 5, socExecuted mem n = K := by
  classical
  have hge : K ≤ socExecuted mem (3 * K + 5) := (Nat.le_succ K).trans (socExecuted_ge mem K)
  have hex : ∃ n, K ≤ socExecuted mem n := ⟨_, hge⟩
  refine ⟨Nat.find hex, Nat.find_min' hex hge, le_antisymm ?_ (Nat.find_spec hex)⟩
  cases hn : Nat.find hex with
  | zero => exact Nat.zero_le _
  | succ n =>
    have hlt : ¬ K ≤ socExecuted mem n := Nat.find_min hex (by rw [hn]; exact Nat.lt_succ_self n)
    have hstep : socExecuted mem (n + 1) = socExecuted mem n + if socFires mem n then 1 else 0 :=
      Nat.count_succ _ _
    split_ifs at hstep <;> omega

section
variable {t : Text} {mem : Bytes} (hin : t.In mem) {K : ℕ} {s : Isa} (h : isaRun t mem K = .ok s)
include hin h

theorem shows_executed (hK : K ≤ 2000000) {n : ℕ} (hn : socExecuted mem n ≤ K) :
    ∃ s', isaRun t mem (socExecuted mem n) = .ok s' ∧ (socRun mem n).Shows s' := by
  obtain ⟨c, hc, hfol, -⟩ := follows_run (conforming_isa hin hK h) n hn
  obtain ⟨s', hs'⟩ := isaRun_prev hn h
  obtain ⟨c', hc', hst⟩ := refRun_stands hin (hn.trans hK) hs'
  obtain rfl := Except.ok.inj (hc.symm.trans hc')
  exact ⟨s', hs', hst.shows hfol.meets⟩

/-- **The differential test of a program.**  When the machine ends with a code after `K` steps, the
simulator ends with this code after at most three clock cycles a step; until then the comparison never
fails, the registers are the same after every cycle, and the reference is in the state of the machine
after the instructions that have been committed. -/
theorem testRun_isa (hK : K < 2000000) {code : ℕ} (hx : s.step t = .error (.exit code)) (o : SimOpts) :
    ∃ N ≤ 3 * K + 6,
      testRun o testFlags (testStart testFlags mem fun _ => 0) N = .error (.exit code) ∧
      ∀ n < N, ∃ r, testRun o testFlags (testStart testFlags mem fun _ => 0) n = .ok r ∧
        r.running = true ∧ r.Passes ∧ r.SameRegs ∧
        ∃ s', isaRun t mem (socExecuted mem (n - 1)) = .ok s' ∧ r.cemu.pc = s'.pc ∧
          r.cemu.GPR = s'.regs := by
  have hconf := conforming_isa hin hK.le h
  obtain ⟨N, hle, hN, hrun⟩ := testRun_through (o := o) hconf (refRun_ends hin hK h hx)
  refine ⟨N, hle, hN, fun n hn => ?_⟩
  obtain ⟨hE, r, hr, hsil⟩ := hrun n hn
  obtain ⟨s', hs'⟩ := isaRun_prev hE h
  obtain ⟨c, hc, hst⟩ := refRun_stands hin (hE.trans hK.le) hs'
  obtain rfl := Except.ok.inj (hc.symm.trans hsil.cemu)
  exact ⟨r, hr, hsil.running, hsil.passes, hsil.same, s', hs', hst.pc, hst.regs⟩

end

/-! ## a program -/

theorem storeProg_fits : 4 * storeProg.length ≤ RAM_SIZE.toNat := by decide

/-- `storeProg` as a text -/
def storeText : Text := ⟨storeProg, storeProg_fits⟩

theorem isaRun_store : ∃ s, isaRun storeText (progBytes storeProg) 5 = .ok s ∧
    s.step storeText = .error (.exit 0) := by
  have hok : (isaRun storeText (progBytes storeProg) 5).isOk = true := by decide +kernel
  cases hs : isaRun storeText (progBytes storeProg) 5 with
  | error e =>
    rw [hs] at hok
    cases hok
  | ok s =>
    refine ⟨s, rfl, ?_⟩
    rw [← isaRun_succ hs]
    rfl

theorem isa_reference_store : refRun (progBytes storeProg) 6 = .error (.exit 0) := by
  obtain ⟨s, hs, hx⟩ := isaRun_store
  exact (isa_reference storeText.in_progBytes (by decide) hs).2 0 hx

theorem testRun_isa_store : ∃ N ≤ 21, testRun ⟨false, false⟩ testFlags
    (testStart testFlags (progBytes storeProg) fun _ => 0) N = .error (.exit 0) := by
  obtain ⟨s, hs, hx⟩ := isaRun_store
  obtain ⟨N, hN, hend, -⟩ := testRun_isa storeText.in_progBytes hs (by decide) hx ⟨false, false⟩
  exact ⟨N, hN, hend⟩

end HduCpu
