import HduCpu.Ref.Sv39

/-!
# Privileged state of the reference

`rv_priv.hpp`.  The core's pc and the bus, which the source holds by reference, are arguments; a
function that can fail an assertion or end the simulation returns `Except Halt`.  The two
assertions on one-bit fields in `csr_write` cannot fail and are left out.

* `RvPriv`, `RvPriv.init`  the state after `reset`;
* `checkAndRaiseInt`, `preExec`, `postExec`, `raiseTrap`   traps;
* `csrRead`, `csrWrite`, `csrOpPermissionCheck`   the CSRs;
* `vaAccess`               a data access: untranslated or through Sv39; `vaRead`, `vaWrite`, `vaLr`,
                           `vaSc`, `vaAmo` are its cases, `vaIf` is instruction fetch;
* `ecall`, `ebreak`, `mret`, `sret`, `sfenceVma`.
-/

namespace HduCpu

structure RvPriv where
  curPriv : PrivMode
  hartId : BitVec 64
  curNeedTrap : Bool
  trapPc : BitVec 64
  nextPriv : PrivMode
  sv39 : Sv39 32
  status : BitVec 64
  misa : BitVec 64
  medeleg : BitVec 64
  mideleg : BitVec 64
  ie : BitVec 64
  mtvec : BitVec 64
  mscratch : BitVec 64
  mepc : BitVec 64
  mcause : BitVec 64
  mtval : BitVec 64
  mcounteren : BitVec 64
  ip : BitVec 64
  mcycle : BitVec 64
  minstret : BitVec 64
  stvec : BitVec 64
  sscratch : BitVec 64
  sepc : BitVec 64
  scause : BitVec 64
  stval : BitVec 64
  satp : BitVec 64
  scounteren : BitVec 64

namespace RvPriv

/-- The state after the constructor; `ext0` stands for the extension bits of `misa` that are not
initialised outside the riscv-test mode. -/
def init (flags : Flags) (hartId : BitVec 64) (sv39 : Sv39 32) (ext0 : BitVec 26) : RvPriv where
  curPriv := PrivMode.M_MODE
  hartId := hartId
  curNeedTrap := false
  trapPc := 0
  nextPriv := PrivMode.M_MODE
  sv39 := sv39
  status :=
    if flags.runRiscvTest then
      if flags.onlyModeM then Mstatus.setMpp 0 PrivMode.M_MODE else Mstatus.setUxl 0 2
    else 0
  misa := misaOf (
    if flags.runRiscvTest then
      if flags.onlyModeM then rvExt 8 ||| rvExt 12 else rvExt 8 ||| rvExt 12 ||| rvExt 20
    else ext0)
  medeleg := 0
  mideleg := 0
  ie := 0
  mtvec := 0
  mscratch := 0
  mepc := 0
  mcause := 0
  mtval := 0
  mcounteren := 0
  ip := 0
  mcycle := 0
  minstret := 0
  stvec := 0
  sscratch := 0
  sepc := 0
  scause := 0
  stval := 0
  satp := 0
  scounteren := 0

section
variable (p : RvPriv)

/-! ## traps -/

/-- is the trap handled in S mode -/
def trapToS (cause : CauseDef) : Bool :=
  p.curPriv != PrivMode.M_MODE &&
    (if cause.interrupt then p.mideleg &&& (1#64 <<< cause.cause.toNat) != 0
    else p.medeleg &&& (1#64 <<< cause.cause.toNat) != 0)

/-- the state after trap entry in S mode -/
def enterS (pc : BitVec 64) (cause : CauseDef) (tval : BitVec 64) : RvPriv :=
  let s := Mstatus.setSpie p.status (Mstatus.sie p.status)
  let s := Mstatus.setSie s false
  let s := Mstatus.setSpp s (p.curPriv.getLsbD 0)
  { p with
    curNeedTrap := true
    stval := tval
    scause := cause.toBits
    sepc := pc
    status := s
    trapPc := (Tvec.base p.stvec <<< 2) +
      (if Tvec.mode p.stvec = 1 then cause.cause.setWidth 64 * 4 else 0)
    nextPriv := PrivMode.S_MODE }

/-- the state after trap entry in M mode -/
def enterM (pc : BitVec 64) (cause : CauseDef) (tval : BitVec 64) : RvPriv :=
  let s := Mstatus.setMpie p.status (Mstatus.mie p.status)
  let s := Mstatus.setMie s false
  let s := Mstatus.setMpp s p.curPriv
  { p with
    curNeedTrap := true
    mtval := tval
    mcause := cause.toBits
    mepc := pc
    status := s
    trapPc := (Tvec.base p.mtvec <<< 2) +
      (if Tvec.mode p.mtvec != 0 then cause.cause.setWidth 64 * 4 else 0)
    nextPriv := PrivMode.M_MODE }

/-- A second trap in one `exec` fails an assertion, and so does a page fault at the trap pc. -/
def raiseTrap (pc : BitVec 64) (cause : CauseDef) (tval : BitVec 64) : Except Halt RvPriv := do
  assertThat (!p.curNeedTrap)
  let p' := if p.trapToS cause then p.enterS pc cause tval else p.enterM pc cause tval
  assertThat (!(cause.cause.setWidth 64 == RvExcCode.instrPgfault && tval == p'.trapPc))
  .ok p'

/-- the pending interrupt of highest priority -/
def int2index (intMask : BitVec 64) : BitVec 64 :=
  if intMask.getLsbD RvIntCode.mExt then BitVec.ofNat 64 RvIntCode.mExt
  else if intMask.getLsbD RvIntCode.mSw then BitVec.ofNat 64 RvIntCode.mSw
  else if intMask.getLsbD RvIntCode.mTimer then BitVec.ofNat 64 RvIntCode.mTimer
  else if intMask.getLsbD RvIntCode.sExt then BitVec.ofNat 64 RvIntCode.sExt
  else if intMask.getLsbD RvIntCode.sSw then BitVec.ofNat 64 RvIntCode.sSw
  else if intMask.getLsbD RvIntCode.sTimer then BitVec.ofNat 64 RvIntCode.sTimer
  else RvExcCode.customOk

/-- `final_int_index` -/
def finalIntIndex : BitVec 64 :=
  let intBits := p.ip &&& p.ie
  if p.curPriv = PrivMode.M_MODE then
    let mmodeIntBits := intBits &&& ~~~p.mideleg
    if mmodeIntBits != 0 && Mstatus.mie p.status then int2index mmodeIntBits
    else RvExcCode.customOk
  else
    let intIndex := int2index intBits
    if (1#64 <<< intIndex.toNat) &&& p.mideleg != 0 then
      if Mstatus.sie p.status || p.curPriv < PrivMode.S_MODE then intIndex else RvExcCode.customOk
    else
      if Mstatus.mie p.status || p.curPriv < PrivMode.M_MODE then intIndex else RvExcCode.customOk

def checkAndRaiseInt (pc : BitVec 64) : Except Halt RvPriv :=
  if p.finalIntIndex != RvExcCode.customOk then
    p.raiseTrap pc ⟨p.finalIntIndex.setWidth 63, true⟩ 0
  else .ok p

/-- `ip` with the external lines put in -/
def setLines (ip : BitVec 64) (meip msip mtip seip : Bool) : BitVec 64 :=
  let ip := putField ip 11 (BitVec.ofBool meip)
  let ip := putField ip 3 (BitVec.ofBool msip)
  let ip := putField ip 7 (BitVec.ofBool mtip)
  putField ip 9 (BitVec.ofBool seip)

def preExec (pc : BitVec 64) (meip msip mtip seip : Bool) : Except Halt RvPriv :=
  { p with
    mcycle := p.mcycle + 1
    ip := setLines p.ip meip msip mtip seip
    curNeedTrap := false
    curPriv := p.nextPriv }.checkAndRaiseInt pc

def postExec : Except Halt RvPriv := do
  assertThat (Mstatus.blank p.status)
  .ok { p with
    minstret := if p.curNeedTrap then p.minstret else p.minstret + 1
    curNeedTrap := false }

/-! ## CSRs -/

/-- `csr_read`; `none` when the CSR does not exist -/
def csrRead (a : BitVec 12) : Option (BitVec 64) :=
  if a = RvCsrAddr.mvendorid then some 0
  else if a = RvCsrAddr.marchid then some 0
  else if a = RvCsrAddr.mimpid then some 0
  else if a = RvCsrAddr.mhartid then some p.hartId
  else if a = RvCsrAddr.mconfigptr then some 0
  else if a = RvCsrAddr.mstatus then some p.status
  else if a = RvCsrAddr.misa then some p.misa
  else if a = RvCsrAddr.medeleg then some p.medeleg
  else if a = RvCsrAddr.mideleg then some p.mideleg
  else if a = RvCsrAddr.mie then some p.ie
  else if a = RvCsrAddr.mtvec then some p.mtvec
  else if a = RvCsrAddr.mcounteren then some p.mcounteren
  else if a = RvCsrAddr.mscratch then some p.mscratch
  else if a = RvCsrAddr.mepc then some p.mepc
  else if a = RvCsrAddr.mcause then some p.mcause
  else if a = RvCsrAddr.mtval then some p.mtval
  else if a = RvCsrAddr.mip then some p.ip
  else if a = RvCsrAddr.mcycle then some p.mcycle
  else if a = RvCsrAddr.minstret then some p.minstret
  else if a = RvCsrAddr.cycle then some p.mcycle
  else if a = RvCsrAddr.tselect then some 1
  else if a = RvCsrAddr.tdata1 then some 0
  else none

/-- `mstatus` after a write: `mie`, `mpie` and, with user mode, `mpp` (M or U only) and `mprv` -/
def writeMstatus (flags : Flags) (data : BitVec 64) : BitVec 64 :=
  let s := Mstatus.setMie p.status (Mstatus.mie data)
  let s := Mstatus.setMpie s (Mstatus.mpie data)
  if flags.onlyModeM && flags.runRiscvTest then s
  else
    let mpp := if Mstatus.mpp data = 3 || Mstatus.mpp data = 0 then Mstatus.mpp data
      else Mstatus.mpp p.status
    Mstatus.setMprv (Mstatus.setMpp s mpp) (Mstatus.mprv data)

/-- `csr_write`; `none` when the CSR does not exist or is read-only -/
def csrWrite (flags : Flags) (a : BitVec 12) (data : BitVec 64) : Except Halt (Option RvPriv) :=
  if a = RvCsrAddr.misa then .ok (some p)
  else if a = RvCsrAddr.mstatus then .ok (some { p with status := p.writeMstatus flags data })
  else if a = RvCsrAddr.mie then .ok (some { p with ie := data &&& mIntMask })
  else if a = RvCsrAddr.mtvec then do
    assertThat (Tvec.mode data ≤ 1)
    .ok (some { p with mtvec := data })
  else if a = RvCsrAddr.mcounteren then .ok (some p)
  else if a = RvCsrAddr.mscratch then .ok (some { p with mscratch := data })
  else if a = RvCsrAddr.mepc then .ok (some { p with mepc := data })
  else if a = RvCsrAddr.mcause then .ok (some { p with mcause := data })
  else if a = RvCsrAddr.mtval then .ok (some { p with mtval := data })
  else if a = RvCsrAddr.mip then .ok (some { p with ip := data &&& mIntMask })
  else if a = RvCsrAddr.mcycle then .ok (some { p with mcycle := data })
  else if a = RvCsrAddr.tselect then .ok (some p)
  else if a = RvCsrAddr.tdata1 then .ok (some p)
  else .ok none

def csrOpPermissionCheck (a : BitVec 12) (write : Bool) : Bool :=
  if p.curPriv != PrivMode.M_MODE then false
  else if a.extractLsb' 10 2 == 3 && write then false
  else true

/-! ## memory -/

/-- data accesses are not translated -/
def bare : Bool :=
  (p.curPriv == PrivMode.M_MODE &&
      (!Mstatus.mprv p.status || Mstatus.mpp p.status == PrivMode.M_MODE)) ||
    Satp.mode p.satp == 0

/-- the mode whose permissions a translated data access has -/
def dataPriv : PrivMode :=
  if Mstatus.mprv p.status && p.curPriv == PrivMode.M_MODE then Mstatus.mpp p.status else p.curPriv

/-- the physical address in the page of an entry -/
def tlbPa (e : TlbEntry) (startAddr : BitVec 64) : BitVec 64 :=
  e.ppa + startAddr % (1#64 <<< (if e.pagesize = 1 then 12 else if e.pagesize = 2 then 21 else 30))

end

/-- what a `va_..` function leaves -/
structure VaRes (δ : Type) where
  exc : RvExcCode
  buffer : BitVec 64
  priv : RvPriv
  bus : Systembus δ

/-- the codes that the data accesses differ in -/
structure Faults where
  misalign : RvExcCode
  pgfault : RvExcCode
  /-- a user page from S mode without `sum` -/
  sumFault : RvExcCode
  /-- the bus refuses an untranslated access -/
  bareFail : RvExcCode
  /-- the bus refuses a translated access -/
  busFail : RvExcCode

section
variable {δ : Type} [MmioDev δ] (p : RvPriv) (bus : Systembus δ)

/-- A data access: `allowed` is what the page must permit, `access` what is done on the bus. -/
def vaAccess (f : Faults) (allowed : TlbEntry → Bool)
    (access : Systembus δ → BitVec 64 → Except Halt (BusRead δ))
    (startAddr size buffer : BitVec 64) : Except Halt (VaRes δ) :=
  if p.bare then do
    let r ← access bus startAddr
    .ok ⟨if r.ok then RvExcCode.customOk else f.bareFail, r.buffer, p, r.bus⟩
  else if startAddr >>> 12 != (startAddr + size - 1) >>> 12 then
    .ok ⟨f.misalign, buffer, p, bus⟩
  else do
    let (entry, sv39, bus') ← p.sv39.localTlbeGet bus p.satp startAddr
    let p' := { p with sv39 := sv39 }
    match entry with
    | none => .ok ⟨f.pgfault, buffer, p', bus'⟩
    | some e =>
      if !allowed e then .ok ⟨f.pgfault, buffer, p', bus'⟩
      else if p.dataPriv == PrivMode.U_MODE && !e.U then .ok ⟨f.pgfault, buffer, p', bus'⟩
      else if !Mstatus.sum p.status && p.dataPriv == PrivMode.S_MODE && e.U then
        .ok ⟨f.sumFault, buffer, p', bus'⟩
      else do
        let r ← access bus' (tlbPa e startAddr)
        .ok ⟨if r.ok then RvExcCode.customOk else f.busFail, r.buffer, p', r.bus⟩

def readable (e : TlbEntry) : Bool := e.A && (e.R || (Mstatus.mxr p.status && !e.X))

def writable (e : TlbEntry) : Bool := e.A && e.D && e.W

def vaRead (startAddr size buffer : BitVec 64) : Except Halt (VaRes δ) :=
  p.vaAccess bus
    ⟨RvExcCode.loadMisalign, RvExcCode.loadPgfault, RvExcCode.loadAccFault,
      RvExcCode.loadAccFault, RvExcCode.loadAccFault⟩
    p.readable (fun bus pa => .ok (bus.paRead pa size buffer)) startAddr size buffer

/-- A store of 1 to `tohost` ends a riscv-test before anything is written. -/
def storeOrExit (flags : Flags) (size buffer : BitVec 64) (bus : Systembus δ) (pa : BitVec 64) :
    Except Halt (BusRead δ) :=
  if flags.runRiscvTest && pa == 0x80001000#64 && buffer == 1 then .error (.exit 0)
  else
    let w := bus.paWrite pa size buffer
    .ok ⟨w.ok, buffer, w.bus⟩

def vaWrite (flags : Flags) (startAddr size buffer : BitVec 64) : Except Halt (VaRes δ) :=
  p.vaAccess bus
    ⟨RvExcCode.storeMisalign, RvExcCode.storePgfault, RvExcCode.storePgfault,
      RvExcCode.storeAccFault, RvExcCode.storePgfault⟩
    writable (storeOrExit flags size buffer) startAddr size buffer

def vaLr (startAddr size buffer : BitVec 64) : Except Halt (VaRes δ) := do
  assertThat (size == 4 || size == 8)
  p.vaAccess bus
    ⟨RvExcCode.storeMisalign, RvExcCode.storePgfault, RvExcCode.storeAccFault,
      RvExcCode.storeAccFault, RvExcCode.storeAccFault⟩
    p.readable (fun bus pa => .ok (bus.paLr pa size buffer p.hartId)) startAddr size buffer

/-- `sc_fail` is the buffer of the result. -/
def vaSc (startAddr size buffer : BitVec 64) : Except Halt (VaRes δ) := do
  assertThat (size == 4 || size == 8)
  p.vaAccess bus
    ⟨RvExcCode.storeMisalign, RvExcCode.storePgfault, RvExcCode.storePgfault,
      RvExcCode.storeAccFault, RvExcCode.storePgfault⟩
    writable
    (fun bus pa =>
      let r := bus.paSc pa size buffer p.hartId
      .ok ⟨r.ok, (BitVec.ofBool r.scFail).setWidth 64, r.bus⟩) startAddr size 0

/-- `dst` is the buffer of the result. -/
def vaAmo (op : BitVec 5) (startAddr size src : BitVec 64) : Except Halt (VaRes δ) := do
  assertThat (size == 4 || size == 8)
  p.vaAccess bus
    ⟨RvExcCode.storeMisalign, RvExcCode.storePgfault, RvExcCode.storePgfault,
      RvExcCode.storeAccFault, RvExcCode.storePgfault⟩
    writable
    (fun bus pa => do
      let r ← bus.paAmoOp pa size op src 0
      .ok ⟨r.ok, r.dst, r.bus⟩) startAddr size 0

/-- instruction fetch of at most a word that is not split; `bad_va` is the start address -/
def vaIfOne (startAddr size buffer : BitVec 64) : Except Halt (VaRes δ) :=
  if p.curPriv == PrivMode.M_MODE || Satp.mode p.satp == 0 then
    let r := bus.paRead startAddr size buffer
    .ok ⟨if r.ok then RvExcCode.customOk else RvExcCode.instrAccFault, r.buffer, p, r.bus⟩
  else if startAddr >>> 12 != (startAddr + size - 1) >>> 12 then
    .ok ⟨RvExcCode.instrMisalign, buffer, p, bus⟩
  else do
    let (entry, sv39, bus') ← p.sv39.localTlbeGet bus p.satp startAddr
    let p' := { p with sv39 := sv39 }
    match entry with
    | none => .ok ⟨RvExcCode.instrPgfault, buffer, p', bus'⟩
    | some e =>
      if !e.A || !e.X then .ok ⟨RvExcCode.instrPgfault, buffer, p', bus'⟩
      else if (p.curPriv == PrivMode.U_MODE && !e.U) || (p.curPriv == PrivMode.S_MODE && e.U) then
        .ok ⟨RvExcCode.instrPgfault, buffer, p', bus'⟩
      else
        let r := bus'.paRead (tlbPa e startAddr) size buffer
        .ok ⟨if r.ok then RvExcCode.customOk else RvExcCode.instrAccFault, r.buffer, p', r.bus⟩

/-- `va_if`: the result and `bad_va`; a word at an address 2 modulo 4 is fetched in two halves. -/
def vaIf (startAddr size buffer : BitVec 64) : Except Halt (VaRes δ × BitVec 64) :=
  if size == 4 && startAddr % 4 == 2 then do
    let r0 ← p.vaIfOne bus startAddr 2 buffer
    if r0.exc != RvExcCode.customOk then .ok (r0, startAddr)
    else do
      let r1 ← r0.priv.vaIfOne r0.bus (startAddr + 2) 2 (r0.buffer >>> 16)
      .ok ({ r1 with buffer := (r0.buffer.setWidth 16).setWidth 64 ||| (r1.buffer <<< 16) },
        startAddr + 2)
  else do
    let r ← p.vaIfOne bus startAddr size buffer
    .ok (r, startAddr)

end

/-! ## environment calls and returns -/

section
variable (p : RvPriv)

def ecall (pc : BitVec 64) : Except Halt RvPriv :=
  p.raiseTrap pc ⟨p.curPriv.setWidth 63 + 8, false⟩ 0

def ebreak (pc : BitVec 64) : Except Halt RvPriv :=
  p.raiseTrap pc (.exc RvExcCode.breakpoint) 0

/-- `none`: illegal instruction -/
def mret : Option RvPriv :=
  if p.curPriv != PrivMode.M_MODE then none
  else
    let s := Mstatus.setMie p.status (Mstatus.mpie p.status)
    let s := Mstatus.setMpie s true
    let s := if Mstatus.mpp p.status != PrivMode.M_MODE then Mstatus.setMprv s false else s
    let s := Mstatus.setMpp s PrivMode.U_MODE
    some { p with
      status := s, nextPriv := Mstatus.mpp p.status, curNeedTrap := true, trapPc := p.mepc }

/-- `none`: illegal instruction; `spp` has one bit and is never `M_MODE` -/
def sret : Option RvPriv :=
  if p.curPriv < PrivMode.S_MODE || Mstatus.tsr p.status then none
  else
    let s := Mstatus.setSie p.status (Mstatus.spie p.status)
    let s := Mstatus.setSpie s true
    let s := Mstatus.setMprv s false
    let s := Mstatus.setSpp s false
    some { p with
      status := s
      nextPriv := (BitVec.ofBool (Mstatus.spp p.status)).setWidth 2
      curNeedTrap := true
      trapPc := p.sepc }

/-- `none`: illegal instruction -/
def sfenceVma (vaddr asid : BitVec 64) : Option RvPriv :=
  if p.curPriv < PrivMode.S_MODE || (p.curPriv == PrivMode.S_MODE && Mstatus.tvm p.status) then none
  else some { p with sv39 := p.sv39.sfenceVma vaddr asid }

end
end RvPriv

end HduCpu
