import HduCpu.Ref.Effect
import HduCpu.Ref.Reserve
import HduCpu.Ref.Tlb

/-!
# The alignment of data accesses

Loads, stores, load-reserved, store-conditional and the other atomics reach the bus in one way: a
check in the core, a translation, and one call at the physical address.  Only loads and stores are
checked.  A misaligned atomic is stopped by the translation alone, where it crosses a page, and
`lr` then raises the exception of a store.

* `Sv39.Paged`             the invariant of the TLB: every valid entry is for a whole page;
* `RvPriv.target`          where a data access goes, `vaAccess_bind`: what a `va_..` function does;
* `dataWord`, `RvCore.request`, `dataExec`   the instructions with a data access in one form,
                           `decodeExec_data`: it is what `decode_exec` does;
* `NaturallyAligned`       every call is aligned, a misaligned address traps;
* `step_naturallyAligned_iff`   exactly when that is so.
-/

namespace HduCpu

/-! ## pages -/

namespace Sv39
variable {n : ℕ}

/-- a valid entry stands for a page that starts at a multiple of its smallest size -/
def EntryPaged (e : TlbEntry) : Prop := pageBits e.pagesize ≠ none → e.ppa % 4096 = 0

/-- all entries do -/
def Paged (t : Sv39 n) : Prop := ∀ i, EntryPaged (t.tlb i)

/-- The constructor makes every entry invalid. -/
theorem paged_new {t : Sv39 n} (h : ∀ i, (t.tlb i).pagesize = 0) : t.Paged := by
  intro i hi
  rw [h i] at hi
  exact absurd rfl hi

theorem paged_fence {t : Sv39 n} (h : t.Paged) (vaddr asid : BitVec 64) :
    (t.sfenceVma vaddr asid).Paged := by
  intro i
  show EntryPaged (fence vaddr asid (t.tlb i))
  rcases fence_cases vaddr asid (t.tlb i) with he | he
  · rw [he]
    exact h i
  · intro hi
    rw [he] at hi
    exact absurd rfl hi

theorem ppa_paged (pte : BitVec 64) : Pte.ppa pte % 4096 = 0 := by
  have hand : ∀ x : BitVec 64, (x <<< 12) % 4096 = 0 := by
    intro x
    apply BitVec.eq_of_toNat_eq
    rw [BitVec.toNat_umod, BitVec.toNat_shiftLeft, Nat.shiftLeft_eq]
    show x.toNat * 2 ^ 12 % 2 ^ 64 % 4096 = 0
    omega
  exact hand _

/-- **A look-up** keeps the invariant, and finds an entry for a whole page. -/
theorem localTlbeGet_paged [NeZero n] {δ : Type} [MmioDev δ] {t : Sv39 n} (h : t.Paged)
    (bus : Systembus δ) (satp va : BitVec 64) :
    Ends (fun r => r.2.1.Paged ∧ ∀ e, r.1 = some e → e.ppa % 4096 = 0) AnyHalt
      (t.localTlbeGet bus satp va) := by
  refine (ends_any _).bind fun _ _ => ?_
  cases hl : t.localTlbGet satp va with
  | error e => trivial
  | ok o =>
    cases o with
    | some i =>
      refine ⟨h, fun e he => ?_⟩
      obtain rfl := Option.some.inj he
      rw [localTlbGet_eq] at hl
      have hhit := findOnly_hit hl
      rw [← hit_eq, hit, Bool.and_eq_true] at hhit
      refine h i fun hn => ?_
      rw [hn] at hhit
      exact absurd hhit.2 Bool.false_ne_true
    | none =>
      simp only [bind, Except.bind]
      cases hleaf : (ptw bus satp va).leaf with
      | none => exact ⟨h, fun e he => by cases he⟩
      | some v =>
        obtain ⟨pte, level⟩ := v
        refine Ends.bind (ends_any _) fun _ _ => Ends.bind (ends_any _) fun _ _ =>
          ⟨fun i => ?_, fun e he => ?_⟩
        · by_cases hi : i = t.random
          · subst hi
            show EntryPaged (Function.update t.tlb t.random _ t.random)
            rw [Function.update_self]
            exact fun _ => ppa_paged pte
          · show EntryPaged (Function.update t.tlb t.random _ i)
            rw [Function.update_of_ne hi]
            exact h i
        · obtain rfl := Option.some.inj he
          exact ppa_paged pte

end Sv39

/-! ## where an access goes -/

/-- where a data access goes: the physical address, unless an exception is raised instead; `exc` is
that exception, or the one to raise when the bus refuses -/
structure Target (δ : Type) where
  pa : Option (BitVec 64)
  exc : RvExcCode
  priv : RvPriv
  bus : Systembus δ

/-- the access reaches into the next page of 4 KB -/
def crosses (a size : BitVec 64) : Bool := a >>> 12 != (a + size - 1) >>> 12

namespace RvPriv
section
variable {δ : Type} [MmioDev δ] (p : RvPriv) (bus : Systembus δ)

theorem tlb_nonempty : NeZero 32 := ⟨by decide⟩

attribute [local instance] tlb_nonempty in
/-- the part of `vaAccess` before the access -/
def target (f : Faults) (allowed : TlbEntry → Bool) (a size : BitVec 64) :
    Except Halt (Target δ) :=
  if p.bare then .ok ⟨some a, f.bareFail, p, bus⟩
  else if crosses a size then .ok ⟨none, f.misalign, p, bus⟩
  else do
    let r ← p.sv39.localTlbeGet bus p.satp a
    let p' := { p with sv39 := r.2.1 }
    r.1.elim (.ok ⟨none, f.pgfault, p', r.2.2⟩) fun e =>
      if !allowed e then .ok ⟨none, f.pgfault, p', r.2.2⟩
      else if p.dataPriv == PrivMode.U_MODE && !e.U then .ok ⟨none, f.pgfault, p', r.2.2⟩
      else if !Mstatus.sum p.status && p.dataPriv == PrivMode.S_MODE && e.U then
        .ok ⟨none, f.sumFault, p', r.2.2⟩
      else .ok ⟨some (tlbPa e a), f.busFail, p', r.2.2⟩

/-- none of the codes is the one for success -/
structure Faults.Fail (f : Faults) : Prop where
  misalign : f.misalign ≠ RvExcCode.customOk
  pgfault : f.pgfault ≠ RvExcCode.customOk
  sumFault : f.sumFault ≠ RvExcCode.customOk
  bareFail : f.bareFail ≠ RvExcCode.customOk
  busFail : f.busFail ≠ RvExcCode.customOk

/-- **A data access, and what is done with its result**, as the target and one access there. -/
theorem vaAccess_bind {β : Type} {f : Faults} (hf : f.Fail) (allowed : TlbEntry → Bool)
    (access : Systembus δ → BitVec 64 → Except Halt (BusRead δ)) (a size b : BitVec 64)
    (ok : RvPriv → Systembus δ → BitVec 64 → Except Halt β)
    (fail : RvPriv → Systembus δ → BitVec 64 → RvExcCode → Except Halt β) :
    (p.vaAccess bus f allowed access a size b >>= fun r =>
      if r.exc == RvExcCode.customOk then ok r.priv r.bus r.buffer
      else fail r.priv r.bus r.buffer r.exc) =
    p.target bus f allowed a size >>= fun t => t.pa.elim (fail t.priv t.bus b t.exc) fun pa =>
      access t.bus pa >>= fun r => if r.ok then ok t.priv r.bus r.buffer
        else fail t.priv r.bus r.buffer t.exc := by
  have hfail : ∀ code : RvExcCode, code ≠ RvExcCode.customOk → ∀ r : VaRes δ, r.exc = code →
      (if r.exc == RvExcCode.customOk then ok r.priv r.bus r.buffer
        else fail r.priv r.bus r.buffer r.exc) = fail r.priv r.bus r.buffer code := by
    intro code hc r hr
    rw [hr, if_neg (by simpa using hc)]
  have hacc : ∀ (code : RvExcCode) (q : RvPriv) (x : Except Halt (BusRead δ)),
      code ≠ RvExcCode.customOk →
      ((x >>= fun r => .ok ⟨if r.ok then RvExcCode.customOk else code, r.buffer, q, r.bus⟩) >>=
        fun r : VaRes δ => if r.exc == RvExcCode.customOk then ok r.priv r.bus r.buffer
          else fail r.priv r.bus r.buffer r.exc) =
      x >>= fun r => if r.ok then ok q r.bus r.buffer else fail q r.bus r.buffer code := by
    intro code q x hc
    cases x with
    | error e => rfl
    | ok r =>
      obtain ⟨rok, rbuf, rbus⟩ := r
      cases rok with
      | true => rfl
      | false => exact hfail code hc ⟨code, rbuf, q, rbus⟩ rfl
  unfold vaAccess target
  cases p.bare with
  | true => exact hacc f.bareFail p _ hf.bareFail
  | false =>
    cases hc : crosses a size with
    | true =>
      rw [crosses] at hc
      rw [if_neg Bool.false_ne_true, if_pos hc]
      exact hfail _ hf.misalign ⟨f.misalign, b, p, bus⟩ rfl
    | false =>
      rw [crosses] at hc
      rw [if_neg Bool.false_ne_true, if_neg (by rw [hc]; exact Bool.false_ne_true)]
      cases p.sv39.localTlbeGet bus p.satp a with
      | error e => rfl
      | ok v =>
        obtain ⟨entry, t, bus'⟩ := v
        cases entry with
        | none => exact hfail _ hf.pgfault ⟨f.pgfault, b, { p with sv39 := t }, bus'⟩ rfl
        | some e =>
          have hpg := hfail _ hf.pgfault ⟨f.pgfault, b, { p with sv39 := t }, bus'⟩ rfl
          have hsum := hfail _ hf.sumFault ⟨f.sumFault, b, { p with sv39 := t }, bus'⟩ rfl
          simp only [bind, Except.bind, Option.elim]
          cases allowed e with
          | false => exact hpg
          | true =>
            cases p.dataPriv == PrivMode.U_MODE && !e.U with
            | true => exact hpg
            | false =>
              cases !Mstatus.sum p.status && p.dataPriv == PrivMode.S_MODE && e.U with
              | true => exact hsum
              | false => exact hacc f.busFail { p with sv39 := t } _ hf.busFail

end
end RvPriv

/-! ## the instructions with a data access -/

inductive DataKind where
  | load | store | lr | sc | amo

namespace DataKind

/-- the core checks the alignment -/
def checked : DataKind → Bool
  | load | store => true
  | lr | sc | amo => false

/-- the exception for a misaligned address -/
def misalign : DataKind → RvExcCode
  | load | lr => RvExcCode.loadMisalign
  | store | sc | amo => RvExcCode.storeMisalign

/-- the codes of the `va_..` function -/
def faults : DataKind → RvPriv.Faults
  | load => ⟨RvExcCode.loadMisalign, RvExcCode.loadPgfault, RvExcCode.loadAccFault,
      RvExcCode.loadAccFault, RvExcCode.loadAccFault⟩
  | lr => ⟨RvExcCode.storeMisalign, RvExcCode.storePgfault, RvExcCode.storeAccFault,
      RvExcCode.storeAccFault, RvExcCode.storeAccFault⟩
  | store | sc | amo => ⟨RvExcCode.storeMisalign, RvExcCode.storePgfault, RvExcCode.storePgfault,
      RvExcCode.storeAccFault, RvExcCode.storePgfault⟩

/-- what the page must permit -/
def admits (p : RvPriv) : DataKind → TlbEntry → Bool
  | load | lr => p.readable
  | store | sc | amo => RvPriv.writable

theorem faults_fail (k : DataKind) : k.faults.Fail := by
  cases k
  all_goals exact ⟨by decide, by decide, by decide, by decide, by decide⟩

end DataKind

/-- an instruction with a data access, and the size of the access -/
structure DataWord where
  kind : DataKind
  size : BitVec 64

/-- the words of these instructions -/
def dataWord (inst : BitVec 32) : Option DataWord :=
  let f3 := RvInstr.funct3 inst
  let funct5 := (RvInstr.funct7 inst).extractLsb' 2 5
  if RvInstr.opcode inst = Opcode.LOAD then (RvCore.loadKind f3).map fun k => ⟨.load, k.1⟩
  else if RvInstr.opcode inst = Opcode.STORE then (RvCore.storeSize f3).map fun size => ⟨.store, size⟩
  else if RvInstr.opcode inst = Opcode.AMO then
    if f3 != 0b010 && f3 != 0b011 then none
    else if funct5 = AmoFunct.LR then
      if RvInstr.rs2 inst != 0 then none else some ⟨.lr, 1#64 <<< f3⟩
    else if funct5 = AmoFunct.SC then some ⟨.sc, 1#64 <<< f3⟩
    else if amoOps.contains funct5 then some ⟨.amo, 1#64 <<< f3⟩
    else none
  else none

/-- a call of the bus: its result, the value that it returns and the bus after it -/
def BusOp.answer {δ : Type} [MmioDev δ] : BusOp → Systembus δ → Except Halt (BusRead δ)
  | .read pa size buffer, s => .ok (s.paRead pa size buffer)
  | .write pa size buffer, s =>
    let w := s.paWrite pa size buffer
    .ok ⟨w.ok, buffer, w.bus⟩
  | .lr pa size buffer hart, s => .ok (s.paLr pa size buffer hart)
  | .sc pa size buffer hart, s =>
    let r := s.paSc pa size buffer hart
    .ok ⟨r.ok, (BitVec.ofBool r.scFail).setWidth 64, r.bus⟩
  | .amo pa size op src dst, s => do
    let r ← s.paAmoOp pa size op src dst
    .ok ⟨r.ok, r.dst, r.bus⟩

/-- The bus after it is that of `busStep`. -/
theorem answer_busStep {δ : Type} [MmioDev δ] (op : BusOp) (s : Systembus δ) :
    Ends (fun r => r.bus = busStep op s) AnyHalt (op.answer s) := by
  cases op with
  | read pa size buffer => rfl
  | write pa size buffer => rfl
  | lr pa size buffer hart => rfl
  | sc pa size buffer hart => rfl
  | amo pa size op src dst =>
    show Ends _ _ (s.paAmoOp pa size op src dst >>= _)
    rw [busStep]
    cases s.paAmoOp pa size op src dst with
    | error e => trivial
    | ok r => rfl

/-- what an instruction asks of the bus: its call, unless `exc` is raised instead -/
structure Request (δ : Type) where
  call : Option BusOp
  exc : RvExcCode
  priv : RvPriv
  bus : Systembus δ

namespace RvCore
section
variable {δ : Type} (c : RvCore δ) (inst : BitVec 32)

/-- the virtual address -/
def dataAddr : DataKind → BitVec 64
  | .load => c.GPR (RvInstr.rs1 inst) + (RvInstr.imm12 inst).signExtend 64
  | .store => c.GPR (RvInstr.rs1 inst) + (RvInstr.immS inst).signExtend 64
  | .lr | .sc | .amo => c.GPR (RvInstr.rs1 inst)

/-- the call for the data at a physical address -/
def dataCall (d : DataWord) (pa : BitVec 64) : BusOp :=
  match d.kind with
  | .load => .read pa d.size 0
  | .store => .write pa d.size (c.GPR (RvInstr.rs2 inst))
  | .lr => .lr pa d.size 0 c.priv.hartId
  | .sc => .sc pa d.size (c.GPR (RvInstr.rs2 inst)) c.priv.hartId
  | .amo => .amo pa d.size ((RvInstr.funct7 inst).extractLsb' 2 5) (c.GPR (RvInstr.rs2 inst)) 0

theorem dataCall_span (d : DataWord) (pa : BitVec 64) : (c.dataCall inst d pa).span = (pa, d.size) := by
  obtain ⟨k, size⟩ := d
  cases k <;> rfl

/-- A store to `tohost` that ends a riscv-test is not made. -/
def stopsTest (flags : Flags) (k : DataKind) (pa : BitVec 64) : Bool :=
  match k with
  | .store => flags.runRiscvTest && pa == 0x80001000#64 && c.GPR (RvInstr.rs2 inst) == 1
  | .load | .lr | .sc | .amo => false

/-- the value for `rd`; a store has none -/
def dataValue (k : DataKind) (buffer : BitVec 64) : Option (BitVec 64) :=
  match k with
  | .load => (loadKind (RvInstr.funct3 inst)).map fun k => k.2 buffer
  | .store => none
  | .lr => some (if RvInstr.funct3 inst = 0b011 then buffer else sext32 buffer)
  | .sc | .amo => some buffer

variable [MmioDev δ]

/-- what the instruction asks -/
def request (flags : Flags) (d : DataWord) : Except Halt (Request δ) :=
  if d.kind.checked && c.dataAddr inst d.kind % d.size != 0 then
    .ok ⟨none, d.kind.misalign, c.priv, c.bus⟩
  else do
    let t ← c.priv.target c.bus d.kind.faults (d.kind.admits c.priv) (c.dataAddr inst d.kind) d.size
    if t.pa.any (c.stopsTest inst flags d.kind) then .error (.exit 0)
    else .ok ⟨t.pa.map (c.dataCall inst d), t.exc, t.priv, t.bus⟩

/-- the end of an access that has succeeded -/
def finish (k : DataKind) (priv : RvPriv) (bus : Systembus δ) (buffer : BitVec 64) :
    Except Halt (ExecState δ) :=
  let c' := { c with priv := priv, bus := bus }
  match dataValue inst k buffer with
  | none => c'.done
  | some v => (c'.setGPR (RvInstr.rd inst) v).done

/-- the end of one that has not -/
def refuse (k : DataKind) (priv : RvPriv) (bus : Systembus δ) (exc : RvExcCode) :
    Except Halt (ExecState δ) :=
  { c with priv := priv, bus := bus }.trap exc (c.dataAddr inst k)

/-- an instruction with a data access: its request, and what becomes of the answer -/
def dataExec (flags : Flags) (d : DataWord) : Except Halt (ExecState δ) := do
  let r ← c.request inst flags d
  match r.call with
  | none => c.refuse inst d.kind r.priv r.bus r.exc
  | some op => do
    let ans ← op.answer r.bus
    if ans.ok then c.finish inst d.kind r.priv ans.bus ans.buffer
    else c.refuse inst d.kind r.priv ans.bus r.exc

/-! ### the opcodes -/

variable {inst}

/-- Without a misaligned address that is checked, an instruction is its `va_..` function. -/
theorem dataExec_access {flags : Flags} {d : DataWord}
    (h : (d.kind.checked && c.dataAddr inst d.kind % d.size != 0) = false)
    {access : Systembus δ → BitVec 64 → Except Halt (BusRead δ)}
    (ha : ∀ bus pa, access bus pa = if c.stopsTest inst flags d.kind pa then .error (.exit 0)
      else (c.dataCall inst d pa).answer bus) (b : BitVec 64) :
    (c.priv.vaAccess c.bus d.kind.faults (d.kind.admits c.priv) access (c.dataAddr inst d.kind)
      d.size b >>= fun r => if r.exc == RvExcCode.customOk
        then c.finish inst d.kind r.priv r.bus r.buffer
        else c.refuse inst d.kind r.priv r.bus r.exc) = c.dataExec inst flags d := by
  have hb := RvPriv.vaAccess_bind c.priv c.bus d.kind.faults_fail (d.kind.admits c.priv) access
    (c.dataAddr inst d.kind) d.size b (c.finish inst d.kind)
    fun priv bus _ exc => c.refuse inst d.kind priv bus exc
  rw [hb]
  unfold dataExec request
  rw [h, if_neg Bool.false_ne_true]
  cases c.priv.target c.bus d.kind.faults (d.kind.admits c.priv) (c.dataAddr inst d.kind) d.size with
  | error e => rfl
  | ok t =>
    obtain ⟨pa, exc, priv, bus⟩ := t
    cases pa with
    | none => rfl
    | some pa =>
      show access bus pa >>= _ = (if c.stopsTest inst flags d.kind pa then _ else _) >>= _
      rw [ha]
      cases c.stopsTest inst flags d.kind pa with
      | true => rfl
      | false => rfl

/-- With one it is the trap. -/
theorem dataExec_checked {flags : Flags} {d : DataWord}
    (h : (d.kind.checked && c.dataAddr inst d.kind % d.size != 0) = true) :
    c.dataExec inst flags d = c.trap d.kind.misalign (c.dataAddr inst d.kind) := by
  unfold dataExec request
  rw [h, if_pos rfl]
  rfl

/-- The two ends, from what is done after a failed check and after the `va_..` function. -/
theorem eq_dataExec {flags : Flags} {d : DataWord} {x y : Except Halt (ExecState δ)}
    {access : Systembus δ → BitVec 64 → Except Halt (BusRead δ)}
    (ha : ∀ bus pa, access bus pa = if c.stopsTest inst flags d.kind pa then .error (.exit 0)
      else (c.dataCall inst d pa).answer bus) (b : BitVec 64)
    (hx : x = c.trap d.kind.misalign (c.dataAddr inst d.kind))
    (hy : y = c.priv.vaAccess c.bus d.kind.faults (d.kind.admits c.priv) access
      (c.dataAddr inst d.kind) d.size b >>= fun r => if r.exc == RvExcCode.customOk
        then c.finish inst d.kind r.priv r.bus r.buffer
        else c.refuse inst d.kind r.priv r.bus r.exc) :
    (if d.kind.checked && c.dataAddr inst d.kind % d.size != 0 then x else y) =
      c.dataExec inst flags d := by
  cases h : d.kind.checked && c.dataAddr inst d.kind % d.size != 0 with
  | true =>
    rw [if_pos rfl, hx, dataExec_checked c h]
  | false =>
    rw [if_neg Bool.false_ne_true, hy, dataExec_access c h ha b]

theorem load_data (flags : Flags) {size : BitVec 64} {conv : BitVec 64 → BitVec 64}
    (h : loadKind (RvInstr.funct3 inst) = some (size, conv)) :
    c.load inst = c.dataExec inst flags ⟨.load, size⟩ := by
  have hval : ∀ buffer, dataValue inst .load buffer = some (conv buffer) := by
    intro buffer
    rw [dataValue, h]
    rfl
  have hfin : ∀ priv bus buffer, c.finish inst .load priv bus buffer =
      ({ c with priv := priv, bus := bus }.setGPR (RvInstr.rd inst) (conv buffer)).done := by
    intro priv bus buffer
    unfold finish
    rw [hval]
  have htrap : ∀ (c' : RvCore δ) (code : RvExcCode) (tval buffer : BitVec 64),
      ((c'.raise code tval >>= fun c => .ok (c, false, buffer)) >>= fun r : RvCore δ × Bool × BitVec 64 =>
        if r.2.1 then (r.1.setGPR (RvInstr.rd inst) (conv r.2.2)).done else r.1.done) =
      c'.trap code tval := by
    intro c' code tval buffer
    unfold trap
    cases c'.raise code tval with
    | error e => rfl
    | ok c'' => rfl
  unfold load
  simp only [h]
  rw [← eq_dataExec c (d := ⟨.load, size⟩) (fun _ _ => rfl) 0 rfl rfl]
  show (c.memRead (c.dataAddr inst .load) size 0 >>= _) =
    if c.dataAddr inst .load % size != 0 then _ else _
  unfold memRead
  cases c.dataAddr inst .load % size != 0 with
  | true => exact htrap c _ _ _
  | false =>
    show (c.priv.vaRead c.bus (c.dataAddr inst .load) size 0 >>= _) >>= _ =
      c.priv.vaRead c.bus (c.dataAddr inst .load) size 0 >>= _
    cases c.priv.vaRead c.bus (c.dataAddr inst .load) size 0 with
    | error e => rfl
    | ok r =>
      show (if r.exc == RvExcCode.customOk then _ else _) >>= _ =
        if r.exc == RvExcCode.customOk then _ else _
      cases r.exc == RvExcCode.customOk with
      | true => exact (hfin r.priv r.bus r.buffer).symm
      | false => exact htrap { c with priv := r.priv, bus := r.bus } _ _ _

theorem store_data (flags : Flags) {size : BitVec 64}
    (h : storeSize (RvInstr.funct3 inst) = some size) :
    c.store flags inst = c.dataExec inst flags ⟨.store, size⟩ := by
  unfold store
  simp only [h]
  have ha : ∀ (bus : Systembus δ) pa, RvPriv.storeOrExit flags size (c.GPR (RvInstr.rs2 inst)) bus pa =
      if c.stopsTest inst flags .store pa then .error (.exit 0)
      else (c.dataCall inst ⟨.store, size⟩ pa).answer bus := fun _ _ => rfl
  rw [← eq_dataExec c (d := ⟨.store, size⟩) ha (c.GPR (RvInstr.rs2 inst)) rfl rfl]
  show (c.memWrite flags (c.dataAddr inst .store) size (c.GPR (RvInstr.rs2 inst)) >>= _) =
    if c.dataAddr inst .store % size != 0 then _ else _
  unfold memWrite
  cases c.dataAddr inst .store % size != 0 with
  | true => rfl
  | false =>
    show (c.priv.vaWrite c.bus flags (c.dataAddr inst .store) size (c.GPR (RvInstr.rs2 inst)) >>= _)
      >>= _ = c.priv.vaWrite c.bus flags (c.dataAddr inst .store) size (c.GPR (RvInstr.rs2 inst)) >>= _
    cases c.priv.vaWrite c.bus flags (c.dataAddr inst .store) size (c.GPR (RvInstr.rs2 inst)) with
    | error e => rfl
    | ok r =>
      show (if r.exc == RvExcCode.customOk then _ else _) >>= _ =
        if r.exc == RvExcCode.customOk then _ else _
      cases r.exc == RvExcCode.customOk with
      | true => rfl
      | false => rfl

theorem amo_data (flags : Flags) {d : DataWord} (hop : RvInstr.opcode inst = Opcode.AMO)
    (h : dataWord inst = some d) : c.amo inst = c.dataExec inst flags d := by
  have hl : Opcode.AMO ≠ Opcode.LOAD := by decide
  have hs : Opcode.AMO ≠ Opcode.STORE := by decide
  have hassert : ∀ {x : Except Halt (RvPriv.VaRes δ)},
      ¬ (RvInstr.funct3 inst != 0b010 && RvInstr.funct3 inst != 0b011) = true → (do
        assertThat (1#64 <<< RvInstr.funct3 inst == 4 || 1#64 <<< RvInstr.funct3 inst == 8)
        x) = x := by
    have hsize : ∀ f3 : BitVec 3, ¬ (f3 != 0b010 && f3 != 0b011) = true →
        assertThat (1#64 <<< f3 == 4 || 1#64 <<< f3 == 8) = .ok () := by decide
    intro x hf
    rw [hsize _ hf]
    rfl
  have hend : ∀ {k : DataKind} {x : Except Halt (RvPriv.VaRes δ)}
      {value : RvPriv.VaRes δ → BitVec 64}, c.dataAddr inst k = c.GPR (RvInstr.rs1 inst) →
      (∀ r, dataValue inst k r.buffer = some (value r)) →
      (x >>= fun r => c.amoEnd inst r (value r)) = x >>= fun r => if r.exc == RvExcCode.customOk
        then c.finish inst k r.priv r.bus r.buffer else c.refuse inst k r.priv r.bus r.exc := by
    intro k x value hk hv
    cases x with
    | error e => rfl
    | ok r =>
      show c.amoEnd inst r (value r) = if r.exc == RvExcCode.customOk
        then c.finish inst k r.priv r.bus r.buffer else c.refuse inst k r.priv r.bus r.exc
      rw [finish, hv r, refuse, hk]
      rfl
  rw [dataWord] at h
  simp only [hop, if_neg hl, if_neg hs, if_true] at h
  unfold amo
  simp only
  split_ifs at h with hf hlr hrs hsc hamo
  · obtain rfl := Option.some.inj h
    rw [if_neg hf, if_pos hlr, if_neg hrs, RvPriv.vaLr, hassert hf,
      ← dataExec_access c (d := ⟨.lr, _⟩) rfl (fun _ _ => rfl) 0]
    exact hend rfl fun _ => rfl
  · obtain rfl := Option.some.inj h
    rw [if_neg hf, if_neg hlr, if_pos hsc, RvPriv.vaSc, hassert hf,
      ← dataExec_access c (d := ⟨.sc, _⟩) rfl (fun _ _ => rfl) 0]
    exact hend rfl fun _ => rfl
  · obtain rfl := Option.some.inj h
    rw [List.contains_iff_mem, amoOps] at hamo
    rw [if_neg hf, if_neg hlr, if_neg hsc, if_pos hamo, RvPriv.vaAmo, hassert hf,
      ← dataExec_access c (d := ⟨.amo, _⟩) rfl (fun _ _ => rfl) 0]
    exact hend rfl fun _ => rfl

/-- **An instruction with a data access** makes its request, and ends by the answer. -/
theorem decodeExec_data (flags : Flags) {d : DataWord} (h : dataWord inst = some d) :
    c.decodeExec flags inst = { c with debugInst := inst }.dataExec inst flags d := by
  by_cases hl : RvInstr.opcode inst = Opcode.LOAD
  · rw [dataWord, if_pos hl, Option.map_eq_some_iff] at h
    obtain ⟨⟨size, conv⟩, hk, rfl⟩ := h
    rw [← load_data _ flags hk]
    simp only [decodeExec, isRvc, hl]
    rfl
  by_cases hs : RvInstr.opcode inst = Opcode.STORE
  · rw [dataWord, if_neg hl, if_pos hs, Option.map_eq_some_iff] at h
    obtain ⟨size, hk, rfl⟩ := h
    rw [← store_data _ flags hk]
    simp only [decodeExec, isRvc, hs]
    rfl
  by_cases ha : RvInstr.opcode inst = Opcode.AMO
  · rw [← amo_data _ flags ha h]
    simp only [decodeExec, isRvc, ha]
    rfl
  · rw [dataWord, if_neg hl, if_neg hs, if_neg ha] at h
    cases h

end
end RvCore

/-! ## alignment -/

theorem dataWord_size {inst : BitVec 32} {d : DataWord} (h : dataWord inst = some d) :
    d.size ∈ [1#64, 2#64, 4#64, 8#64] := by
  have hload : ∀ (f3 : BitVec 3) k, RvCore.loadKind f3 = some k → k.1 ∈ [1#64, 2#64, 4#64, 8#64] := by
    intro f3 k hk
    unfold RvCore.loadKind at hk
    split_ifs at hk
    all_goals
      obtain rfl := Option.some.inj hk
      decide
  have hstore : ∀ (f3 : BitVec 3) size, RvCore.storeSize f3 = some size →
      size ∈ [1#64, 2#64, 4#64, 8#64] := by
    intro f3 size hk
    unfold RvCore.storeSize at hk
    split_ifs at hk
    all_goals
      obtain rfl := Option.some.inj hk
      decide
  have hamo : ∀ f3 : BitVec 3, ¬ (f3 != 0b010 && f3 != 0b011) = true →
      1#64 <<< f3 ∈ [1#64, 2#64, 4#64, 8#64] := by decide
  unfold dataWord at h
  simp only at h
  split_ifs at h with hl hs ha hf
  · obtain ⟨k, hk, rfl⟩ := Option.map_eq_some_iff.mp h
    exact hload _ k hk
  · obtain ⟨size, hk, rfl⟩ := Option.map_eq_some_iff.mp h
    exact hstore _ size hk
  all_goals
    obtain rfl := Option.some.inj h
    exact hamo _ hf

theorem umod_eq_zero (x k : BitVec 64) : x % k = 0 ↔ k.toNat ∣ x.toNat := by
  rw [Nat.dvd_iff_mod_eq_zero, ← BitVec.toNat_umod]
  exact ⟨fun h => by rw [h]; rfl, fun h => BitVec.eq_of_toNat_eq h⟩

/-- An aligned address in a page stays aligned. -/
theorem tlbPa_aligned {e : TlbEntry} (he : e.ppa % 4096 = 0) {a size : BitVec 64}
    (hs : size ∈ [1#64, 2#64, 4#64, 8#64]) (ha : a % size = 0) : RvPriv.tlbPa e a % size = 0 := by
  have hsize : size.toNat ∣ 4096 ∧ size.toNat ∣ (1#64 <<< 12).toNat ∧
      size.toNat ∣ (1#64 <<< 21).toNat ∧ size.toNat ∣ (1#64 <<< 30).toNat ∧ size.toNat ∣ 2 ^ 64 := by
    simp only [List.mem_cons, List.not_mem_nil, or_false] at hs
    rcases hs with rfl | rfl | rfl | rfl
    all_goals decide
  obtain ⟨h4096, h12, h21, h30, h64⟩ := hsize
  have hk : ∀ k : ℕ, size.toNat ∣ (1#64 <<< k).toNat → (e.ppa + a % (1#64 <<< k)) % size = 0 := by
    intro k hk
    rw [umod_eq_zero] at ha he ⊢
    rw [BitVec.toNat_add, Nat.dvd_mod_iff h64, BitVec.toNat_umod]
    exact dvd_add (h4096.trans he) ((Nat.dvd_mod_iff hk).mpr ha)
  unfold RvPriv.tlbPa
  split_ifs
  · exact hk 12 h12
  · exact hk 21 h21
  · exact hk 30 h30

namespace RvPriv
section
variable {δ : Type} [MmioDev δ] (p : RvPriv) (bus : Systembus δ) (f : Faults)
  (allowed : TlbEntry → Bool) (a size : BitVec 64)

/-- **The translation of an aligned address is aligned.** -/
theorem target_aligned {p : RvPriv} (hp : p.sv39.Paged) {a size : BitVec 64}
    (hs : size ∈ [1#64, 2#64, 4#64, 8#64]) (ha : a % size = 0) :
    Ends (fun t => ∀ pa, t.pa = some pa → pa % size = 0) AnyHalt
      (p.target bus f allowed a size) := by
  have hnone : ∀ pa : BitVec 64, none = some pa → pa % size = 0 := fun pa h => by cases h
  refine ends_ite (fun _ => ?_) fun _ => ends_ite (fun _ => hnone) fun _ => ?_
  · rintro pa ⟨⟩
    exact ha
  refine (Sv39.localTlbeGet_paged hp bus p.satp a).bind fun r hr => ?_
  obtain ⟨entry, t, bus'⟩ := r
  cases entry with
  | none => exact hnone
  | some e =>
    refine ends_ite (fun _ => hnone) fun _ => ends_ite (fun _ => hnone) fun _ => ?_
    refine ends_ite (fun _ => hnone) fun _ => ?_
    rintro pa ⟨⟩
    exact tlbPa_aligned (hr.2 e rfl) hs ha

/-- The exception of the target is the one for misaligned addresses only at the end of a page. -/
theorem target_exc : Ends (fun t => t.priv.curNeedTrap = p.curNeedTrap ∧
      (t.exc ∈ [f.pgfault, f.sumFault, f.bareFail, f.busFail] ∨
        t.exc = f.misalign ∧ p.bare = false ∧ crosses a size = true)) AnyHalt
    (p.target bus f allowed a size) := by
  refine ends_ite (fun _ => ⟨rfl, .inl (by simp)⟩) fun hb => ?_
  refine ends_ite (fun hc => ⟨rfl, .inr ⟨rfl, by simpa using hb, hc⟩⟩) fun _ => ?_
  refine (ends_any _).bind fun r _ => ?_
  obtain ⟨entry, t, bus'⟩ := r
  cases entry with
  | none => exact ⟨rfl, .inl (by simp)⟩
  | some e =>
    refine ends_ite (fun _ => ⟨rfl, .inl (by simp)⟩) fun _ => ?_
    refine ends_ite (fun _ => ⟨rfl, .inl (by simp)⟩) fun _ => ?_
    exact ends_ite (fun _ => ⟨rfl, .inl (by simp)⟩) fun _ => ⟨rfl, .inl (by simp)⟩

/-- Two traps that leave the same state have the same cause. -/
theorem raiseTrap_inj {p p' q : RvPriv} {pc pc' tval tval' : BitVec 64} {cause cause' : CauseDef}
    (h : p.raiseTrap pc cause tval = .ok q) (h' : p'.raiseTrap pc' cause' tval' = .ok q) :
    cause.toBits = cause'.toBits := by
  rcases (raiseTrap_cases h).2 with hq | hq <;> rcases (raiseTrap_cases h').2 with hq' | hq'
  · exact (congrArg scause hq).symm.trans (congrArg scause hq')
  · have hmode : PrivMode.S_MODE = PrivMode.M_MODE :=
      (congrArg nextPriv hq).symm.trans (congrArg nextPriv hq')
    exact absurd hmode (by decide)
  · have hmode : PrivMode.M_MODE = PrivMode.S_MODE :=
      (congrArg nextPriv hq).symm.trans (congrArg nextPriv hq')
    exact absurd hmode (by decide)
  · exact (congrArg mcause hq).symm.trans (congrArg mcause hq')

end
end RvPriv

/-- A misaligned address is found: by the check of the core, or by the translation at the end of a
page, when it raises the exception for the instruction. -/
def DataKind.stopped (k : DataKind) (p : RvPriv) (a size : BitVec 64) : Bool :=
  match k with
  | load | store => true
  | lr => false
  | sc | amo => !p.bare && crosses a size

namespace RvCore
section
variable {δ : Type} [MmioDev δ]

/-- Every call for the data is aligned, and a misaligned address traps and changes nothing else. -/
structure NaturallyAligned (c : RvCore δ) (flags : Flags) (inst : BitVec 32) (d : DataWord) :
    Prop where
  calls : ∀ r op, c.request inst flags d = .ok r → r.call = some op → op.span.1 % op.span.2 = 0
  traps : c.dataAddr inst d.kind % d.size ≠ 0 → ∃ e tval, c.decodeExec flags inst = .ok e ∧
    c.priv.raiseTrap c.pc (.exc d.kind.misalign) tval = .ok e.core.priv ∧
      e.core.bus = c.bus ∧ e.core.GPR = c.GPR

variable {c : RvCore δ} {flags : Flags} {inst : BitVec 32} {d : DataWord}

theorem request_aligned (hp : c.priv.sv39.Paged) (hs : d.size ∈ [1#64, 2#64, 4#64, 8#64])
    (ha : c.dataAddr inst d.kind % d.size = 0) :
    Ends (fun r => ∀ op, r.call = some op → op.span.1 % op.span.2 = 0) AnyHalt
      (c.request inst flags d) := by
  refine ends_ite (fun _ op h => by cases h) fun _ => ?_
  refine (RvPriv.target_aligned c.bus _ _ hp hs ha).bind fun t ht => ?_
  refine ends_ite (fun _ => trivial) fun _ op hop => ?_
  obtain ⟨pa, hpa, rfl⟩ := Option.map_eq_some_iff.mp hop
  rw [dataCall_span]
  exact ht pa hpa

/-- An access that the core does not check either succeeds or raises the exception of its
request. -/
theorem dataExec_ends : Ends (fun e => ∃ r, c.request inst flags d = .ok r ∧
      (e.core.priv = r.priv ∨ ∃ (p : RvPriv) (tval : BitVec 64),
        p.raiseTrap c.pc (.exc r.exc) tval = .ok e.core.priv))
    AnyHalt (c.dataExec inst flags d) := by
  have htrap : ∀ (r : Request δ) (bus : Systembus δ),
      Ends (fun e : ExecState δ => ∃ p tval, RvPriv.raiseTrap p c.pc (.exc r.exc) tval =
        .ok e.core.priv) AnyHalt (c.refuse inst d.kind r.priv bus r.exc) := by
    intro r bus
    unfold refuse trap raise
    cases hq : r.priv.raiseTrap c.pc (.exc r.exc) (c.dataAddr inst d.kind) with
    | error e => trivial
    | ok q => exact ⟨r.priv, _, hq⟩
  unfold dataExec
  cases hr : c.request inst flags d with
  | error e => trivial
  | ok r =>
    obtain ⟨call, exc, priv, bus⟩ := r
    cases call with
    | none => exact (htrap ⟨none, exc, priv, bus⟩ bus).imp fun e he => ⟨_, rfl, .inr he⟩
    | some op =>
      show Ends _ _ (op.answer bus >>= _)
      refine (ends_any _).bind fun ans _ => ends_ite (fun _ => ?_) fun _ => ?_
      · unfold finish
        simp only
        split
        · exact ⟨_, rfl, .inl rfl⟩
        · exact ⟨_, rfl, .inl rfl⟩
      · exact (htrap ⟨some op, exc, priv, bus⟩ ans.bus).imp fun e he => ⟨_, rfl, .inr he⟩

/-- No request of a misaligned access has the exception that it should raise, unless it is
stopped. -/
theorem request_exc (ha : d.kind.stopped c.priv (c.dataAddr inst d.kind) d.size = false) :
    Ends (fun r => r.priv.curNeedTrap = c.priv.curNeedTrap ∧
      (CauseDef.exc r.exc).toBits ≠ (CauseDef.exc d.kind.misalign).toBits) AnyHalt
      (c.request inst flags d) := by
  obtain ⟨k, size⟩ := d
  have hcode : ∀ exc : RvExcCode, (exc ∈ [k.faults.pgfault, k.faults.sumFault, k.faults.bareFail,
      k.faults.busFail] ∨ exc = k.faults.misalign ∧ c.priv.bare = false ∧
        crosses (c.dataAddr inst k) size = true) →
      (CauseDef.exc exc).toBits ≠ (CauseDef.exc k.misalign).toBits := by
    intro exc h
    simp only [List.mem_cons, List.not_mem_nil, or_false] at h
    cases k with
    | load | store => cases ha
    | lr =>
      rcases h with (rfl | rfl | rfl | rfl) | ⟨rfl, -, -⟩
      all_goals decide
    | sc | amo =>
      rcases h with (rfl | rfl | rfl | rfl) | ⟨-, hb, hc⟩
      · decide
      · decide
      · decide
      · decide
      · simp only [DataKind.stopped, hb, hc] at ha
        cases ha
  have hc : k.checked = false := by
    cases k with
    | load | store => cases ha
    | lr | sc | amo => rfl
  refine ends_ite (fun h => ?_) fun _ => ?_
  · rw [hc] at h
    cases h
  refine (RvPriv.target_exc c.priv c.bus _ _ _ _).bind fun t ht => ?_
  exact ends_ite (fun _ => trivial) fun _ => ⟨ht.1, hcode _ ht.2⟩

/-- A misaligned access that is stopped makes no call and leaves everything as it is. -/
theorem request_stopped (ha : c.dataAddr inst d.kind % d.size ≠ 0)
    (hs : d.kind.stopped c.priv (c.dataAddr inst d.kind) d.size = true) :
    c.request inst flags d = .ok ⟨none, d.kind.misalign, c.priv, c.bus⟩ := by
  have hm : (c.dataAddr inst d.kind % d.size != 0) = true := by simpa using ha
  have htarget : ∀ (f : RvPriv.Faults) allowed (a size : BitVec 64),
      (!c.priv.bare && crosses a size) = true →
      c.priv.target c.bus f allowed a size = .ok ⟨none, f.misalign, c.priv, c.bus⟩ := by
    intro f allowed a size h
    rw [Bool.and_eq_true, Bool.not_eq_true'] at h
    rw [RvPriv.target, h.1, if_neg Bool.false_ne_true, if_pos h.2]
  obtain ⟨k, size⟩ := d
  unfold request
  cases k with
  | load | store =>
    rw [hm]
    rfl
  | lr => cases hs
  | sc | amo =>
    rw [htarget _ _ _ _ hs]
    rfl

omit [MmioDev δ] in
/-- The exception for a misaligned address can be raised. -/
theorem raise_misalign (hn : c.priv.curNeedTrap = false) (k : DataKind) (tval : BitVec 64) :
    ∃ q, c.priv.raiseTrap c.pc (.exc k.misalign) tval = .ok q := by
  have hcode : ((CauseDef.exc k.misalign).cause.setWidth 64 == RvExcCode.instrPgfault) = false := by
    cases k
    all_goals rfl
  unfold RvPriv.raiseTrap
  simp only [hn, hcode, Bool.false_and]
  exact ⟨_, rfl⟩

/-- Every data access is aligned, or traps as misaligned and changes nothing else, exactly when the
address is aligned or the access is stopped. -/
theorem naturallyAligned_iff (hn : c.priv.curNeedTrap = false) (hp : c.priv.sv39.Paged)
    (hd : dataWord inst = some d) : NaturallyAligned c flags inst d ↔
      c.dataAddr inst d.kind % d.size = 0 ∨
        d.kind.stopped c.priv (c.dataAddr inst d.kind) d.size = true := by
  have hdata := decodeExec_data c flags hd
  constructor
  · intro h
    by_contra hno
    rw [not_or, Bool.not_eq_true] at hno
    obtain ⟨ha, hs⟩ := hno
    obtain ⟨e, tval, he, hq, -, -⟩ := h.traps ha
    rw [hdata] at he
    obtain ⟨r, hr, hend⟩ := (dataExec_ends (c := { c with debugInst := inst })).ok he
    have hexc := Ends.ok (request_exc (c := { c with debugInst := inst }) hs) hr
    rcases hend with hend | ⟨p, tval', hq'⟩
    · have hflag := (RvPriv.raiseTrap_keeps hq).2.1
      rw [hend, hexc.1] at hflag
      exact absurd (hn.symm.trans hflag) Bool.false_ne_true
    · exact hexc.2 (RvPriv.raiseTrap_inj hq' hq)
  · intro h
    by_cases ha : c.dataAddr inst d.kind % d.size = 0
    · exact ⟨fun r op hr => (request_aligned hp (dataWord_size hd) ha).ok hr op, fun hna => absurd ha hna⟩
    · have hs := h.resolve_left ha
      have hr : c.request inst flags d = _ := request_stopped ha hs
      refine ⟨fun r op hr' hop => ?_, fun _ => ?_⟩
      · obtain rfl := Except.ok.inj (hr.symm.trans hr')
        cases hop
      · obtain ⟨q, hq⟩ := raise_misalign hn d.kind (c.dataAddr inst d.kind)
        refine ⟨⟨{ c with debugInst := inst, priv := q }, false, false⟩, _, ?_, hq, rfl, rfl⟩
        have hreq : { c with debugInst := inst }.request inst flags d =
            .ok ⟨none, d.kind.misalign, c.priv, c.bus⟩ := hr
        rw [hdata, dataExec, hreq]
        show ({ c with debugInst := inst }.raise d.kind.misalign (c.dataAddr inst d.kind) >>= _) = _
        have hraise : { c with debugInst := inst }.raise d.kind.misalign (c.dataAddr inst d.kind) =
            .ok { c with debugInst := inst, priv := q } := by
          show (c.priv.raiseTrap c.pc _ _ >>= _) = _
          rw [hq]
          rfl
        rw [hraise]
        rfl

end
end RvCore

/-! ## steps -/

/-- Everything that a step does to `priv` keeps the entries of the TLB paged. -/
theorem RvPriv.Moves.paged {p q : RvPriv} (h : p.Moves q) (hp : p.sv39.Paged) : q.sv39.Paged := by
  induction h with
  | refl => exact hp
  | tail _ hm ih =>
    cases hm with
    | entered i => exact ih
    | quiet h =>
      cases h with
      | same => exact ih
      | csr h => exact (csrWrite_keeps h).2.2 ▸ ih
      | fence h =>
        unfold sfenceVma at h
        split at h
        · cases h
        · cases h
          exact Sv39.paged_fence ih _ _
      | tlb h => exact ((Sv39.localTlbeGet_paged ih _ _ _).ok h).1
    | raised h => exact (raiseTrap_keeps h).2.2 ▸ ih
    | returned h => exact (returned_keeps h).2.2 ▸ ih

namespace RvCore
section
variable {δ : Type} [MmioDev δ] {c : RvCore δ} {flags : Flags} {i : RvLines}

/-- **A step keeps the entries of the TLB paged.** -/
theorem exec_paged (h : c.priv.sv39.Paged) :
    Ends (fun c' => c'.priv.sv39.Paged) AnyHalt (c.exec flags i.meip i.msip i.mtip i.seip) := by
  refine (exec_step c flags i).imp fun c' hc => ?_
  obtain ⟨q, o, hm, hq, -⟩ := hc
  have hpost : Ends (fun p => p.sv39 = q.sv39) AnyHalt q.postExec := (ends_any _).bind fun _ _ => rfl
  rw [hpost.ok hq]
  exact hm.paged h

/-- **The data accesses of a step**: for a load, a store or an atomic that `exec` comes to execute,
from any state, all calls are aligned and a misaligned address traps and changes nothing else, if
and only if the address is aligned or the access is stopped: always for loads and stores, never for
load-reserved, and for the other atomics only where a translated access crosses a page. -/
theorem step_naturallyAligned_iff {c₁ : RvCore δ} {inst : BitVec 32} {d : DataWord}
    (hi : c.issue flags i = .ok (some (c₁, inst))) (hp : c.priv.sv39.Paged)
    (hd : dataWord inst = some d) : NaturallyAligned c₁ flags inst d ↔
      c₁.dataAddr inst d.kind % d.size = 0 ∨
        d.kind.stopped c₁.priv (c₁.dataAddr inst d.kind) d.size = true := by
  obtain ⟨hm, hn, -⟩ := (issue_cases c flags i).ok hi
  exact naturallyAligned_iff hn (hm.paged hp) hd

end
end RvCore

/-- `amoadd.w x5, x6, (x10)`, with an address in `x10` -/
def amoAt (addr : BitVec 64) : RvCore MmioMem :=
  { RvCore.boots [0x006522af] with GPR := fun r => if r = 10 then addr else 0 }

theorem step_naturallyAligned_iff_word : ∃ c₁ d, dataWord 0x006522af = some d ∧
    (amoAt 0x80000010).issue testFlags .low = .ok (some (c₁, 0x006522af)) ∧
    RvCore.NaturallyAligned c₁ testFlags 0x006522af d := by
  obtain ⟨c₁, hc⟩ : ∃ c₁, (amoAt 0x80000010).issue testFlags .low =
      .ok (some (c₁, 0x006522af)) := ⟨_, rfl⟩
  have hg : c₁.GPR = (amoAt 0x80000010).GPR := by
    cases hc
    rfl
  refine ⟨c₁, ⟨.amo, 4⟩, rfl, hc, ?_⟩
  refine (RvCore.step_naturallyAligned_iff hc (Sv39.paged_new fun _ => rfl) rfl).mpr (.inl ?_)
  show c₁.GPR 10 % 4 = 0
  rw [hg]
  rfl

/-- An atomic at an address that is not a multiple of four reaches the bus. -/
theorem amo_misaligned : ¬ ∀ (c c₁ : RvCore MmioMem) (i : RvLines) (inst : BitVec 32) (d : DataWord),
    (rvMachine MmioMem testFlags).Reach (.ok c) → c.issue testFlags i = .ok (some (c₁, inst)) →
    dataWord inst = some d → RvCore.NaturallyAligned c₁ testFlags inst d := by
  intro h
  obtain ⟨c₁, hc⟩ : ∃ c₁, (amoAt 0x80000002).issue testFlags .low =
      .ok (some (c₁, 0x006522af)) := ⟨_, rfl⟩
  have hr := h (amoAt 0x80000002) c₁ .low 0x006522af ⟨.amo, 4⟩ (.init ⟨_, _, _, _, _, _, rfl⟩) hc rfl
  cases hc
  exact absurd (hr.calls _ _ rfl rfl) (by decide)

end HduCpu
