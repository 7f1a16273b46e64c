import HduCpu.Lib.Cache
import HduCpu.Lib.Machine
import HduCpu.Ref.Ram

/-!
# The look-aside buffer and the page tables

Runs of `local_tlbe_get` and `sfence_vma` while the page tables stand still: the cached path is
the slow path.

* `pageOf_eq_iff`, `vpn_of_page`   an address and its page;
* `ptwFrom_page`           the walk finds the same leaf for all addresses of a page;
* `tlbHit`, `LeafOf`       the buffer as a cache of the walk, by ASID and address;
* `Mapped`                 what the calls of a run may assume of each other;
* `tlb_agrees`             every look-up is the walk, and no address is hit twice.
-/

namespace HduCpu

/-! ## pages -/

theorem getLsbD_pageOf {bits : ℕ} (hb : bits ∈ [12, 21, 30]) (va : BitVec 64) {i : ℕ} (hi : i < 64) :
    (pageOf bits va).getLsbD i = (va.getLsbD i && decide (bits ≤ i)) := by
  have hmask : (-(1#64 <<< bits)).getLsbD i = decide (bits ≤ i) := by
    have key : ∀ b ∈ [12, 21, 30], ∀ j : Fin 64,
        (-(1#64 <<< b)).getLsbD j = decide (b ≤ (j : ℕ)) := by decide
    exact key bits hb ⟨i, hi⟩
  rw [pageOf, BitVec.getLsbD_and, hmask]

/-- The address without its offset. -/
theorem sub_mod_eq_pageOf {bits : ℕ} (hb : bits ∈ [12, 21, 30]) (va : BitVec 64) :
    va - va % (1#64 <<< bits) = pageOf bits va := by
  have hlt : bits < 64 := by
    have key : ∀ b ∈ [12, 21, 30], b < 64 := by decide
    exact key bits hb
  apply BitVec.eq_of_getLsbD_eq
  intro i hi
  have hone : (1#64 <<< bits).toNat = 2 ^ bits := by
    rw [BitVec.toNat_shiftLeft, Nat.shiftLeft_eq]
    simp only [BitVec.toNat_ofNat, Nat.one_mod_two_pow_eq_one.mpr (by decide : 0 < 64), one_mul]
    exact Nat.mod_eq_of_lt (Nat.pow_lt_pow_right (by decide) hlt)
  have hle : va % (1#64 <<< bits) ≤ va := by
    rw [BitVec.le_def, BitVec.toNat_umod]
    exact Nat.mod_le _ _
  have hsub : (va - va % (1#64 <<< bits)).toNat = 2 ^ bits * (va.toNat / 2 ^ bits) := by
    have := Nat.div_add_mod va.toNat (2 ^ bits)
    rw [BitVec.toNat_sub_of_le hle, BitVec.toNat_umod, hone]
    omega
  rw [getLsbD_pageOf hb va hi, ← BitVec.testBit_toNat, hsub, Nat.testBit_two_pow_mul,
    Nat.testBit_div_two_pow]
  by_cases h : bits ≤ i
  · simp [h, BitVec.testBit_toNat]
  · simp [h]

/-- Two addresses of one page agree above the offset. -/
theorem pageOf_eq_iff {bits : ℕ} (hb : bits ∈ [12, 21, 30]) (va va' : BitVec 64) :
    pageOf bits va = pageOf bits va' ↔ ∀ i, bits ≤ i → i < 64 → va.getLsbD i = va'.getLsbD i := by
  constructor
  · intro h i hbi hi
    have := congrArg (fun x => x.getLsbD i) h
    simpa [getLsbD_pageOf hb _ hi, hbi] using this
  · intro h
    apply BitVec.eq_of_getLsbD_eq
    intro i hi
    rw [getLsbD_pageOf hb va hi, getLsbD_pageOf hb va' hi]
    by_cases hbi : bits ≤ i
    · rw [h i hbi hi]
    · simp [hbi]

/-- the number of offset bits of a leaf at a level -/
def offsetBits (level : ℕ) : ℕ := 12 + 9 * level

theorem offsetBits_mem {level : ℕ} (h : level ≤ 2) : offsetBits level ∈ [12, 21, 30] := by
  have key : ∀ l : Fin 3, offsetBits l ∈ [12, 21, 30] := by decide
  exact key ⟨level, by omega⟩

/-- The page of a leaf has the page numbers of its level and of those above. -/
theorem vpn_of_page {va va' : BitVec 64} {l i : ℕ} (hl : l ≤ i) (hi : i ≤ 2)
    (h : pageOf (offsetBits l) va = pageOf (offsetBits l) va') :
    Sv39.vpn i va = Sv39.vpn i va' := by
  have hbits := (pageOf_eq_iff (offsetBits_mem (hl.trans hi)) va va').mp h
  have hfield : ∀ lo, offsetBits l ≤ lo → lo ≤ 55 → va.extractLsb' lo 9 = va'.extractLsb' lo 9 := by
    intro lo hlo h55
    apply BitVec.eq_of_getLsbD_eq
    intro j hj
    rw [BitVec.getLsbD_extractLsb', BitVec.getLsbD_extractLsb', hbits (lo + j) (by omega) (by omega)]
  unfold Sv39.vpn
  unfold offsetBits at hfield
  by_cases h2 : i = 2
  · rw [if_pos h2, if_pos h2, Va.vpn2, Va.vpn2, hfield 30 (by omega) (by omega)]
  · rw [if_neg h2, if_neg h2]
    by_cases h1 : i = 1
    · rw [if_pos h1, if_pos h1, Va.vpn1, Va.vpn1, hfield 21 (by omega) (by omega)]
    · rw [if_neg h1, if_neg h1, Va.vpn0, Va.vpn0, hfield 12 (by omega) (by omega)]

/-! ## the walk -/

section
variable {δ : Type} [MmioDev δ]

/-- The leaf is of the level at which the walk starts, or of one below. -/
theorem ptwFrom_level {va : BitVec 64} {level : ℕ} {ptAddr : BitVec 64} {bus : Systembus δ}
    {v : BitVec 64 × ℕ} (h : (Sv39.ptwFrom va level ptAddr bus).leaf = some v) : v.2 ≤ level := by
  induction level generalizing ptAddr bus with
  | zero =>
    unfold Sv39.ptwFrom at h
    simp only at h
    split_ifs at h
    cases h
    exact le_refl _
  | succ level ih =>
    unfold Sv39.ptwFrom at h
    simp only at h
    split_ifs at h
    · cases h
      exact le_refl _
    · exact (ih h).trans (Nat.le_succ level)

/-- **The walk for another address of the page** reads the same entries. -/
theorem ptwFrom_page {va va' : BitVec 64} {level : ℕ} {ptAddr : BitVec 64} {bus : Systembus δ}
    {v : BitVec 64 × ℕ} (h : (Sv39.ptwFrom va level ptAddr bus).leaf = some v)
    (hv : ∀ i, v.2 ≤ i → i ≤ level → Sv39.vpn i va = Sv39.vpn i va') :
    Sv39.ptwFrom va' level ptAddr bus = Sv39.ptwFrom va level ptAddr bus := by
  induction level generalizing ptAddr bus with
  | zero =>
    have h0 := hv 0 (ptwFrom_level h) (le_refl 0)
    unfold Sv39.ptwFrom
    rw [h0]
  | succ level ih =>
    have htop := hv (level + 1) (ptwFrom_level h) (le_refl _)
    unfold Sv39.ptwFrom at h ⊢
    rw [← htop]
    simp only at h ⊢
    split_ifs at h ⊢
    · rfl
    · exact ih h fun i h₁ h₂ => hv i h₁ (h₂.trans (Nat.le_succ level))

end

/-! ## entries -/

/-- an ASID and a virtual address -/
abbrev TlbKey := BitVec 16 × BitVec 64

/-- a leaf and its level -/
abbrev Leaf := BitVec 64 × ℕ

/-- `Sv39.hit` with the ASID for `satp` -/
def tlbHit (k : TlbKey) (e : TlbEntry) : Bool :=
  (e.asid == k.1 || e.G) && (pageBits e.pagesize).any fun bits => pageOf bits k.2 == e.vpa

theorem hit_eq (satp va : BitVec 64) (e : TlbEntry) :
    Sv39.hit satp va e = tlbHit (Satp.asid satp, va) e := by
  unfold Sv39.hit tlbHit
  cases pageBits e.pagesize <;> rfl

/-- What `local_tlbe_get` hands out is what the leaf says. -/
structure LeafOf (e : TlbEntry) (v : Leaf) : Prop where
  ppa : e.ppa = Pte.ppa v.1
  pagesize : e.pagesize = BitVec.ofNat 8 (v.2 + 1)
  R : e.R = Pte.R v.1
  W : e.W = Pte.W v.1
  X : e.X = Pte.X v.1
  U : e.U = Pte.U v.1
  G : e.G = Pte.G v.1
  A : e.A = Pte.A v.1
  D : e.D = Pte.D v.1

theorem leafOf_entryOf (satp va pte : BitVec 64) (level : ℕ) :
    LeafOf (Sv39.entryOf satp va pte level) (pte, level) :=
  ⟨rfl, rfl, rfl, rfl, rfl, rfl, rfl, rfl, rfl⟩

theorem pageBits_level {level : ℕ} (h : level ≤ 2) :
    pageBits (BitVec.ofNat 8 (level + 1)) = some (offsetBits level) := by
  have key : ∀ l : Fin 3, pageBits (BitVec.ofNat 8 (l + 1)) = some (offsetBits l) := by decide
  exact key ⟨level, by omega⟩

theorem tlbHit_iff {k : TlbKey} {e : TlbEntry} {v : Leaf} (he : LeafOf e v) (hv : v.2 ≤ 2) :
    tlbHit k e = true ↔
      (e.asid = k.1 ∨ Pte.G v.1 = true) ∧ pageOf (offsetBits v.2) k.2 = e.vpa := by
  rw [tlbHit, he.pagesize, pageBits_level hv, he.G, Bool.and_eq_true, Bool.or_eq_true, beq_iff_eq,
    Option.any_some, beq_iff_eq]

/-- An entry that was invalidated hits nothing. -/
theorem tlbHit_invalid (k : TlbKey) {e : TlbEntry} (h : e.pagesize = 0) : tlbHit k e = false := by
  have h0 : pageBits 0 = none := by decide
  rw [tlbHit, h, h0, Option.any_none, Bool.and_false]

section
variable {δ : Type} [MmioDev δ]

/-- the walk from the root page of the ASID -/
def walk (root : BitVec 16 → BitVec 64) (bus : Systembus δ) (k : TlbKey) : Option Leaf :=
  (Sv39.ptwFrom k.2 2 (root k.1 <<< 12) bus).leaf

theorem ptw_eq {root : BitVec 16 → BitVec 64} {satp : BitVec 64} (hm : Satp.mode satp = 8)
    (hr : Satp.ppn satp = root (Satp.asid satp)) (bus : Systembus δ) (va : BitVec 64) :
    (Sv39.ptw bus satp va).leaf = walk root bus (Satp.asid satp, va) := by
  rw [Sv39.ptw, hm, hr]
  rfl

/-- page tables as a function: its leaves are at one of three levels, cover their page, and are in
the tables of all ASIDs when they are global -/
structure IsTables (f : TlbKey → Option Leaf) : Prop where
  level : ∀ k v, f k = some v → v.2 ≤ 2
  page : ∀ a va va' v, f (a, va) = some v →
    pageOf (offsetBits v.2) va = pageOf (offsetBits v.2) va' → f (a, va') = some v
  global : ∀ a a' va v, f (a, va) = some v → Pte.G v.1 = true → f (a', va) = some v

theorem isTables_walk {root : BitVec 16 → BitVec 64} {bus : Systembus δ}
    (hg : ∀ a a' va v, walk root bus (a, va) = some v → Pte.G v.1 = true →
      walk root bus (a', va) = some v) : IsTables (walk root bus) where
  level _ _ h := ptwFrom_level h
  page a va va' v h hp := by
    have hl := ptwFrom_level h
    have hvpn : ∀ i, v.2 ≤ i → i ≤ 2 → Sv39.vpn i va = Sv39.vpn i va' :=
      fun i h₁ h₂ => vpn_of_page h₁ h₂ hp
    have := ptwFrom_page h hvpn
    exact (congrArg Sv39.Walk.leaf this).trans h
  global := hg

end

section
variable {f : TlbKey → Option Leaf} (hf : IsTables f) {satp va pte : BitVec 64} {level : ℕ}
  (h : f (Satp.asid satp, va) = some (pte, level))
include hf h

theorem entryOf_vpa : (Sv39.entryOf satp va pte level).vpa = pageOf (offsetBits level) va :=
  sub_mod_eq_pageOf (offsetBits_mem (hf.level _ _ h)) va

/-- **The entry for a leaf is right for its whole page**, and for all ASIDs when it is global. -/
theorem truthful_entryOf : Truthful tlbHit LeafOf f (Sv39.entryOf satp va pte level) := by
  rintro ⟨a, va'⟩ hk
  have he := leafOf_entryOf satp va pte level
  obtain ⟨ha, hp⟩ := (tlbHit_iff he (hf.level _ _ h)).mp hk
  rw [entryOf_vpa hf h] at hp
  have hva := hf.page _ va va' _ h hp.symm
  refine ⟨(pte, level), ?_, he⟩
  rcases ha with ha | hg
  · have ha' : Satp.asid satp = a := ha
    rwa [ha'] at hva
  · exact hf.global _ a va' _ hva hg

/-- Entries that share a key hit the same keys. -/
theorem entryOf_separated {d : TlbEntry} (hd : Truthful tlbHit LeafOf f d) {k : TlbKey}
    (h₁ : tlbHit k (Sv39.entryOf satp va pte level) = true) (h₂ : tlbHit k d = true) :
    tlbHit (Satp.asid satp, va) d = true := by
  obtain ⟨v, hv, he⟩ := truthful_entryOf hf h k h₁
  obtain ⟨v', hv', hd'⟩ := hd k h₂
  obtain rfl : v = v' := Option.some.inj (hv.symm.trans hv')
  have hl := hf.level _ _ hv
  obtain ⟨ha, hp⟩ := (tlbHit_iff he hl).mp h₁
  obtain ⟨ha', hp'⟩ := (tlbHit_iff hd' hl).mp h₂
  have hbits : offsetBits level = offsetBits v.2 := by
    have hs : BitVec.ofNat 8 (level + 1) = BitVec.ofNat 8 (v.2 + 1) := he.pagesize
    have := pageBits_level (hf.level _ _ h)
    rw [hs, pageBits_level hl] at this
    exact (Option.some.inj this).symm
  rw [entryOf_vpa hf h, hbits] at hp
  refine (tlbHit_iff hd' hl).mpr ⟨?_, hp.symm.trans hp'⟩
  rcases ha' with ha' | hg
  · rcases ha with ha | hg
    · exact .inl (ha'.trans ha.symm)
    · exact .inr hg
  · exact .inr hg

end

/-! ## calls -/

/-- a virtual address whose high bits repeat bit 38 -/
def Canonical (va : BitVec 64) : Prop := (va.setWidth 39).signExtend 64 = va

theorem Canonical.assertion {va : BitVec 64} (h : Canonical va) :
    ((Va.blank va == BitVec.allOnes 25 && (Va.vpn2 va).msb) ||
      (Va.blank va == 0 && !(Va.vpn2 va).msb)) = true := by
  have hmsb : (Va.vpn2 va).msb = va.getLsbD 38 := by
    rw [BitVec.msb_eq_getLsbD_last, Va.vpn2, BitVec.getLsbD_extractLsb']
    rfl
  have hblank : ∀ j, j < 25 → (Va.blank va).getLsbD j = va.getLsbD 38 := by
    intro j hj
    have h39 : ¬ 39 + j < 39 := by omega
    have h64 : 39 + j < 64 := by omega
    rw [Va.blank, BitVec.getLsbD_extractLsb', decide_eq_true hj, Bool.true_and, ← h,
      BitVec.getLsbD_signExtend, if_neg h39, decide_eq_true h64, Bool.true_and,
      BitVec.msb_eq_getLsbD_last, BitVec.getLsbD_setWidth, h]
    rfl
  rw [hmsb]
  cases h38 : va.getLsbD 38 with
  | true =>
    have hb : Va.blank va = BitVec.allOnes 25 := by
      apply BitVec.eq_of_getLsbD_eq
      intro j hj
      rw [hblank j hj, h38, BitVec.getLsbD_allOnes, decide_eq_true hj]
    simp [hb]
  | false =>
    have hb : Va.blank va = 0 := by
      apply BitVec.eq_of_getLsbD_eq
      intro j hj
      rw [hblank j hj, h38]
      exact BitVec.getLsbD_zero.symm
    simp [hb]

variable {δ : Type} [MmioDev δ] {n : ℕ} [NeZero n]

/-- the calls of the buffer; a look-up sees the bus as it is then -/
inductive MmuOp (δ : Type)
  | get (bus : Systembus δ) (satp va : BitVec 64)
  | fence (vaddr asid : BitVec 64)

/-- The buffer after a call; a failed assertion ends the run. -/
def tlbStep : MmuOp δ → Sv39 n → Sv39 n
  | .get bus satp va, t => (t.localTlbeGet bus satp va).toOption.elim t fun r => r.2.1
  | .fence vaddr asid, t => t.sfenceVma vaddr asid

/-- the runs of a buffer without valid entries -/
def tlbMachine : Clocked (Sv39 n) (MmuOp δ) where
  init t := t.random = 0 ∧ ∀ i, (t.tlb i).pagesize = 0
  next := tlbStep

/-- The calls look up canonical addresses, in Sv39 mode and each ASID with its root page, in the
page tables `tables k`.  These change at `sfence_vma(0, 0)` only, and a global leaf is in the
tables of all ASIDs. -/
structure Mapped (root : BitVec 16 → BitVec 64) (tables : ℕ → TlbKey → Option Leaf)
    (ops : ℕ → MmuOp δ) : Prop where
  canonical : ∀ k bus satp va, ops k = .get bus satp va → Canonical va
  mode : ∀ k bus satp va, ops k = .get bus satp va → Satp.mode satp = 8
  ppn : ∀ k bus satp va, ops k = .get bus satp va → Satp.ppn satp = root (Satp.asid satp)
  walks : ∀ k bus satp va, ops k = .get bus satp va → walk root bus = tables k
  kept : ∀ k, ops k ≠ .fence 0 0 → tables (k + 1) = tables k
  global : ∀ k a a' va v, tables k (a, va) = some v → Pte.G v.1 = true → tables k (a', va) = some v

theorem fence_cases (vaddr asid : BitVec 64) (e : TlbEntry) :
    Sv39.fence vaddr asid e = e ∨ (Sv39.fence vaddr asid e).pagesize = 0 := by
  unfold Sv39.fence
  split_ifs
  · exact .inr rfl
  · cases pageBits e.pagesize with
    | none => exact .inl rfl
    | some bits =>
      simp only
      split_ifs
      · exact .inr rfl
      · exact .inl rfl
  · exact .inl rfl

theorem fence_all (e : TlbEntry) : (Sv39.fence 0 0 e).pagesize = 0 := by
  unfold Sv39.fence
  rw [if_pos (by simp), if_pos rfl]

omit [NeZero n] in
theorem localTlbGet_eq (t : Sv39 n) (satp va : BitVec 64) : t.localTlbGet satp va =
    findOnly .assertFailed (fun i => tlbHit (Satp.asid satp, va) (t.tlb i)) (List.finRange n) := by
  have hhit : (fun i => tlbHit (Satp.asid satp, va) (t.tlb i)) = fun i => Sv39.hit satp va (t.tlb i) :=
    funext fun i => (hit_eq satp va (t.tlb i)).symm
  rw [hhit]
  rfl

/-- **A look-up in a sound buffer** gives what the walk finds, and leaves the buffer sound. -/
theorem localTlbeGet_sound {t : Sv39 n} {f : TlbKey → Option Leaf} (ht : Sound tlbHit LeafOf f t.tlb)
    (hf : IsTables f) (bus : Systembus δ) {satp va : BitVec 64} (hva : Canonical va)
    (hw : (Sv39.ptw bus satp va).leaf = f (Satp.asid satp, va)) :
    ∃ res t' bus', t.localTlbeGet bus satp va = .ok (res, t', bus') ∧
      Sound tlbHit LeafOf f t'.tlb ∧ (res = none ↔ (Sv39.ptw bus satp va).leaf = none) ∧
      ∀ e, res = some e → ∃ v, (Sv39.ptw bus satp va).leaf = some v ∧ LeafOf e v := by
  unfold Sv39.localTlbeGet assertThat
  rw [if_pos hva.assertion, localTlbGet_eq]
  rcases ht.lookup Halt.assertFailed (Satp.asid satp, va) with ⟨hno, hl⟩ | ⟨i, hi, hl⟩
  · rw [hl]
    cases hleaf : (Sv39.ptw bus satp va).leaf with
    | none =>
      refine ⟨none, t, (Sv39.ptw bus satp va).bus, ?_, ht, iff_of_true rfl rfl,
        fun e he => by cases he⟩
      simp only [bind, Except.bind, hleaf]
    | some v =>
      obtain ⟨pte, level⟩ := v
      have hfv : f (Satp.asid satp, va) = some (pte, level) := hw ▸ hleaf
      have hown := (tlbHit_iff (k := (Satp.asid satp, va)) (leafOf_entryOf satp va pte level)
        (hf.level _ _ hfv)).mpr ⟨.inl rfl, (entryOf_vpa hf hfv).symm⟩
      have ht' := ht.update hno (truthful_entryOf hf hfv)
        (fun d hd k' => entryOf_separated hf hfv hd) t.random
      have hfound : (⟨t.random + 1, Function.update t.tlb t.random
          (Sv39.entryOf satp va pte level)⟩ : Sv39 n).localTlbGet satp va = .ok (some t.random) := by
        rw [localTlbGet_eq]
        rcases ht'.lookup Halt.assertFailed (Satp.asid satp, va) with ⟨hno', -⟩ | ⟨i, hi, hl'⟩
        · have := hno' t.random
          rw [Function.update_self, hown] at this
          cases this
        · rw [hl']
          refine congrArg (fun j => Except.ok (some j)) (ht'.unique _ i t.random hi ?_)
          rw [Function.update_self]
          exact hown
      refine ⟨some (Sv39.entryOf satp va pte level),
        ⟨t.random + 1, Function.update t.tlb t.random (Sv39.entryOf satp va pte level)⟩,
        (Sv39.ptw bus satp va).bus, ?_, ht', iff_of_false nofun nofun, fun e he => ?_⟩
      · simp only [bind, Except.bind, hleaf, hfound, beq_self_eq_true, if_true]
      · obtain rfl := Option.some.inj he
        exact ⟨(pte, level), rfl, leafOf_entryOf satp va pte level⟩
  · obtain ⟨v, hv, he⟩ := ht.truthful i _ hi
    rw [hl, hw, hv]
    refine ⟨some (t.tlb i), t, bus, rfl, ht, iff_of_false nofun nofun, fun e hs => ?_⟩
    obtain rfl := Option.some.inj hs
    exact ⟨v, rfl, he⟩

section
variable {t₀ : Sv39 n} {root : BitVec 16 → BitVec 64} {tables : ℕ → TlbKey → Option Leaf}
  {ops : ℕ → MmuOp δ}

/-- What a look-up of a run finds in a sound buffer. -/
theorem Mapped.get_sound (h : Mapped root tables ops) {k : ℕ} {t : Sv39 n}
    (ht : Sound tlbHit LeafOf (tables k) t.tlb) {bus : Systembus δ} {satp va : BitVec 64}
    (hop : ops k = .get bus satp va) :
    ∃ res t' bus', t.localTlbeGet bus satp va = .ok (res, t', bus') ∧
      Sound tlbHit LeafOf (tables k) t'.tlb ∧ (res = none ↔ (Sv39.ptw bus satp va).leaf = none) ∧
      ∀ e, res = some e → ∃ v, (Sv39.ptw bus satp va).leaf = some v ∧ LeafOf e v := by
  have hw := h.walks k bus satp va hop
  have hf : IsTables (tables k) := by
    rw [← hw]
    exact isTables_walk (hw ▸ h.global k)
  refine localTlbeGet_sound ht hf bus (h.canonical k bus satp va hop) ?_
  rw [← hw]
  exact ptw_eq (h.mode k bus satp va hop) (h.ppn k bus satp va hop) bus va

/-- **The buffer is sound at every call.** -/
theorem sound_run (h₀ : ∀ i, (t₀.tlb i).pagesize = 0) (h : Mapped root tables ops) (k : ℕ) :
    Sound tlbHit LeafOf (tables k) (tlbMachine.run ops t₀ k).tlb := by
  induction k with
  | zero => exact Sound.of_silent fun i key => tlbHit_invalid key (h₀ i)
  | succ k ih =>
    rw [Clocked.run_succ]
    cases hop : ops k with
    | get bus satp va =>
      obtain ⟨res, t', bus', hget, ht', -⟩ := h.get_sound ih hop
      rw [h.kept k (by rw [hop]; exact nofun)]
      show Sound _ _ _ (tlbStep (.get bus satp va) _).tlb
      rw [tlbStep, hget]
      exact ht'
    | fence vaddr asid =>
      by_cases hall : vaddr = 0 ∧ asid = 0
      · obtain ⟨rfl, rfl⟩ := hall
        exact Sound.of_silent fun i key => tlbHit_invalid key (fence_all _)
      · rw [h.kept k fun he => hall (by rw [hop] at he; cases he; exact ⟨rfl, rfl⟩)]
        refine ih.silence fun i => ?_
        rcases fence_cases vaddr asid ((tlbMachine.run ops t₀ k).tlb i) with he | hz
        · exact .inl he
        · exact .inr fun key => tlbHit_invalid key hz

/-- **The look-aside buffer never disagrees with the walk.**  In runs under unchanged page tables
no look-up is hit by two entries, and `local_tlbe_get` succeeds: it gives nothing exactly when the
walk fails, and else what the leaf of the walk says. -/
theorem tlb_agrees (h₀ : ∀ i, (t₀.tlb i).pagesize = 0) (h : Mapped root tables ops) (k : ℕ) :
    (∀ satp va i j, Sv39.hit satp va ((tlbMachine.run ops t₀ k).tlb i) = true →
      Sv39.hit satp va ((tlbMachine.run ops t₀ k).tlb j) = true → i = j) ∧
    ∀ bus satp va, ops k = .get bus satp va → ∃ res t' bus',
      (tlbMachine.run ops t₀ k).localTlbeGet bus satp va = .ok (res, t', bus') ∧
      (res = none ↔ (Sv39.ptw bus satp va).leaf = none) ∧
      ∀ e, res = some e → ∃ v, (Sv39.ptw bus satp va).leaf = some v ∧ LeafOf e v := by
  have ht := sound_run h₀ h k
  refine ⟨fun satp va i j hi hj => ?_, fun bus satp va hop => ?_⟩
  · rw [hit_eq] at hi hj
    exact ht.unique _ i j hi hj
  · obtain ⟨res, t', bus', hget, -, hnone, hsome⟩ := h.get_sound ht hop
    exact ⟨res, t', bus', hget, hnone, hsome⟩

end

/-- one page of 1 GB for the lowest addresses, its entry at the start of the memory -/
def gigapage : Systembus MmioMem := ⟨0, 0, 0, false, [ramEntry fun a => if a = 0 then 0xCF else 0]⟩

/-- a buffer of two entries after reset -/
def emptyTlb : Sv39 2 := ⟨0, fun _ => ⟨0, 0, 0, 0, false, false, false, false, false, false, false⟩⟩

/-- one address of the page after the other, under ASID 1 -/
def gigapageGets (k : ℕ) : MmuOp MmioMem :=
  .get gigapage 0x8000100000080000 (if k = 0 then 0x1000 else 0x2000)

theorem tlb_agrees_gigapage : ∃ res t' bus',
    (tlbMachine.run gigapageGets emptyTlb 1).localTlbeGet gigapage 0x8000100000080000 0x2000 =
      .ok (res, t', bus') ∧
    (res = none ↔ (Sv39.ptw gigapage 0x8000100000080000 0x2000).leaf = none) ∧
    ∀ e, res = some e →
      ∃ v, (Sv39.ptw gigapage 0x8000100000080000 0x2000).leaf = some v ∧ LeafOf e v := by
  have hget : ∀ {P : Systembus MmioMem → BitVec 64 → BitVec 64 → Prop},
      P gigapage 0x8000100000080000 0x1000 → P gigapage 0x8000100000080000 0x2000 →
      ∀ k bus satp va, gigapageGets k = .get bus satp va → P bus satp va := by
    intro P h₁ h₂ k bus satp va hk
    unfold gigapageGets at hk
    split_ifs at hk <;> cases hk
    · exact h₁
    · exact h₂
  have hmapped : Mapped (fun _ => 0x80000) (fun _ => walk (fun _ => 0x80000) gigapage)
      gigapageGets := by
    refine ⟨?_, ?_, ?_, ?_, fun _ _ => rfl, fun _ _ _ _ _ h _ => h⟩
    · exact hget (by unfold Canonical; decide) (by unfold Canonical; decide)
    · exact hget (by decide) (by decide)
    · exact hget (by decide) (by decide)
    · exact hget rfl rfl
  exact (tlb_agrees (fun _ => rfl) hmapped 1).2 _ _ _ rfl

end HduCpu
