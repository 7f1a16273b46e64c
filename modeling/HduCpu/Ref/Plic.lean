import HduCpu.Lib.Best
import HduCpu.Lib.Machine
import HduCpu.Ref.Bus

/-!
# The platform-level interrupt controller

`rv_plic.hpp`, for any number of sources and contexts.  Source 0 is reserved.  `get_int` tests a
flag of a source by shifting the word that holds it, so that the flags of the sources above it in
the same word count as well.

* `RvPlic`                 the registers, `updateExt`, `getInt`, `doRead`, `doWrite`;
* `scan_eq`, `getInt_eq`   the loop is the scan for the first source of highest priority;
* `Eligible`, `candidate_iff`   what a source should satisfy, and what the loop asks;
* `Arbitrates`, `arbitrates_iff`   when `get_int` selects the right source;
* `plicMachine`            the calls in any order;
* `pending_line`, `doRead_claim`   in every run the pending flags are the lines, and a claim is read
                           inside the arrays.
-/

namespace HduCpu

/-! ## registers -/

/-- the number of words that hold one flag for each source -/
def plicWords (nrSource : ℕ) : ℕ := (nrSource + 1 + 31) / 32

theorem word_lt {nrSource : ℕ} (i : Fin (nrSource + 1)) : i.val / 32 < plicWords nrSource := by
  unfold plicWords
  omega

/-- the registers of `rv_plic<nr_source, nr_context>` -/
structure RvPlic (nrSource nrContext : ℕ) where
  /-- The parameters of the template are of type `int`. -/
  smallSource : nrSource < 2 ^ 31
  smallContext : nrContext < 2 ^ 31
  priority : Fin (nrSource + 1) → BitVec 32
  pending : Fin (plicWords nrSource) → BitVec 32
  enable : Fin nrContext → Fin (plicWords nrSource) → BitVec 32
  threshold : Fin nrContext → BitVec 32
  claim : Fin nrContext → BitVec 32
  claimed : Fin (plicWords nrSource) → BitVec 32

section
variable {nrSource : ℕ}

/-- the word with the flag of a source -/
def wordOf (i : Fin (nrSource + 1)) : Fin (plicWords nrSource) := ⟨i.val / 32, word_lt i⟩

/-- `flags[i/32] >> (i%32)` -/
def shifted (flags : Fin (plicWords nrSource) → BitVec 32) (i : Fin (nrSource + 1)) : BitVec 32 :=
  flags (wordOf i) >>> (i.val % 32)

/-- the flag of a source itself -/
def flagOf (flags : Fin (plicWords nrSource) → BitVec 32) (i : Fin (nrSource + 1)) : Bool :=
  (flags (wordOf i)).getLsbD (i.val % 32)

/-- the sources of the loop of `get_int`, 1 to `nr_source` -/
def sources (nrSource : ℕ) : List (Fin (nrSource + 1)) := (List.finRange nrSource).map Fin.succ

/-- `max_priority` and `max_priority_int` -/
structure PlicScan where
  maxPriority : BitVec 64
  maxPriorityInt : BitVec 64

end

namespace RvPlic
section
variable {nrSource nrContext : ℕ}

/-- the constructor -/
def init (hs : nrSource < 2 ^ 31) (hc : nrContext < 2 ^ 31) : RvPlic nrSource nrContext :=
  ⟨hs, hc, fun _ => 0, fun _ => 0, fun _ _ => 0, fun _ => 0, fun _ => 0, fun _ => 0⟩

variable (p : RvPlic nrSource nrContext)

/-- `update_ext` -/
def updateExt (sourceId : Fin (nrSource + 1)) (fired : Bool) : RvPlic nrSource nrContext :=
  let bit := 1#32 <<< (sourceId.val % 32)
  let cleared := p.pending (wordOf sourceId) &&& ~~~bit
  let word := if fired then cleared ||| bit else cleared
  { p with pending := Function.update p.pending (wordOf sourceId) word }

section
variable (c : Fin nrContext) (i : Fin (nrSource + 1))

/-- the outer condition in the loop of `get_int` -/
def candidate : Bool :=
  p.threshold c ≤ p.priority i && shifted p.pending i != 0 && shifted (p.enable c) i != 0 &&
    !(shifted p.claimed i != 0)

/-- the body of the loop -/
def scanStep (s : PlicScan) : PlicScan :=
  if p.candidate c i then
    if s.maxPriority < (p.priority i).setWidth 64 then
      ⟨(p.priority i).setWidth 64, BitVec.ofNat 64 i.val⟩
    else s
  else s

/-- `get_int`: the result, and the registers with the new claim -/
def getInt : Bool × RvPlic nrSource nrContext :=
  let s := (sources nrSource).foldl (fun s i => p.scanStep c i s) ⟨0, 0⟩
  let claim := if s.maxPriorityInt != 0 then s.maxPriorityInt.setWidth 32 else 0
  (claim != 0, { p with claim := Function.update p.claim c claim })

end
end
end RvPlic

/-! ## accesses -/

/-- the place of an index in an array of length `n`, `none` outside -/
def arrayIndex (n : ℕ) (idx : BitVec 64) : Option (Fin n) :=
  if h : idx.toNat < n then some ⟨idx.toNat, h⟩ else none

theorem arrayIndex_of_toNat {n : ℕ} {idx : BitVec 64} {i : Fin n} (h : idx.toNat = i.val) :
    arrayIndex n idx = some i := by
  rw [arrayIndex, dif_pos (h ▸ i.isLt)]
  exact congrArg some (Fin.ext h)

/-- `4 * n`, computed in an `int` -/
def fourTimes (n : ℕ) : BitVec 64 := (BitVec.ofNat 32 (4 * n)).signExtend 64

/-- `1u << (n%32)` -/
def flagBit (n : BitVec 32) : BitVec 32 := 1#32 <<< (n.toNat % 32)

/-- An access beyond the priorities is refused. -/
def outsidePriority (nrSource : ℕ) (startAddr size : BitVec 64) : Bool :=
  fourTimes nrSource < startAddr || fourTimes (nrSource + 1) < startAddr + size

namespace RvPlic
section
variable {nrSource nrContext : ℕ} (p : RvPlic nrSource nrContext)
  (startAddr size buffer : BitVec 64)

/-- `do_read`, `none` when it leaves an array -/
def doRead : Option (DevRead (RvPlic nrSource nrContext)) :=
  let word (w : BitVec 32) := copyLow buffer 4 (w.setWidth 64)
  if startAddr + size ≤ 0x1000 then
    if startAddr == 0 then some ⟨false, buffer, p⟩
    else if outsidePriority nrSource startAddr size then some ⟨false, buffer, p⟩
    else (arrayIndex _ (startAddr / 4)).map fun i => ⟨true, word (p.priority i), p⟩
  else if startAddr + size ≤ 0x1080 then
    let idx := (startAddr - 0x1000) / 4
    if nrSource < idx.toNat then some ⟨false, buffer, p⟩
    else (arrayIndex _ idx).map fun i => ⟨true, word (p.pending i), p⟩
  else if startAddr + size ≤ 0x2000 then some ⟨false, buffer, p⟩
  else if startAddr + size ≤ 0x200000 then
    let contextId := (startAddr - 0x2000) / 0x80
    let pos := startAddr % 0x80
    if nrContext ≤ contextId.toNat then some ⟨false, buffer, p⟩
    else if nrSource < pos.toNat then some ⟨false, buffer, p⟩
    else (arrayIndex _ contextId).bind fun c => (arrayIndex _ pos).map fun i =>
      ⟨true, word (p.enable c i), p⟩
  else
    let contextId := (startAddr - 0x200000) / 0x1000
    if nrContext < contextId.toNat then some ⟨false, buffer, p⟩
    else
      let offset := startAddr % 0x1000
      if offset == 0 then
        (arrayIndex _ contextId).map fun c => ⟨true, word (p.threshold c), p⟩
      else if offset == 4 then
        (arrayIndex _ contextId).bind fun c =>
          (arrayIndex _ ((p.claim c / 32).setWidth 64)).map fun i =>
            let set := p.claimed i ||| flagBit (p.claim c)
            ⟨true, word (p.claim c), { p with claimed := Function.update p.claimed i set }⟩
      else some ⟨false, buffer, p⟩

/-- `do_write`, `none` when it leaves an array -/
def doWrite : Option (DevWrite (RvPlic nrSource nrContext)) :=
  let word : BitVec 32 := buffer.setWidth 32
  if startAddr + size ≤ 0x1000 then
    if startAddr == 0 then some ⟨false, p⟩
    else if outsidePriority nrSource startAddr size then some ⟨false, p⟩
    else (arrayIndex _ (startAddr / 4)).map fun i =>
      ⟨true, { p with priority := Function.update p.priority i word }⟩
  else if startAddr + size ≤ 0x1080 then some ⟨true, p⟩
  else if startAddr + size ≤ 0x2000 then some ⟨false, p⟩
  else if startAddr + size ≤ 0x200000 then
    let contextId := (startAddr - 0x2000) / 0x80
    let pos := startAddr % 0x80
    if nrContext ≤ contextId.toNat then some ⟨false, p⟩
    else if nrSource < pos.toNat then some ⟨false, p⟩
    else (arrayIndex _ contextId).bind fun c => (arrayIndex _ pos).map fun i =>
      let enabled := Function.update (p.enable c) i word
      ⟨true, { p with enable := Function.update p.enable c enabled }⟩
  else
    let contextId := (startAddr - 0x200000) / 0x1000
    if nrContext < contextId.toNat then some ⟨false, p⟩
    else
      let offset := startAddr % 0x1000
      if offset == 0 then
        (arrayIndex _ contextId).map fun c =>
          ⟨true, { p with threshold := Function.update p.threshold c word }⟩
      else if offset == 4 then
        (arrayIndex _ ((word / 32).setWidth 64)).map fun i =>
          let cleared := p.claimed i &&& ~~~flagBit word
          ⟨true, { p with claimed := Function.update p.claimed i cleared }⟩
      else some ⟨false, p⟩

end
end RvPlic

/-! ## flags -/

section
variable {nrSource : ℕ} (flags : Fin (plicWords nrSource) → BitVec 32) (i : Fin (nrSource + 1))

/-- A shifted word is zero exactly when the flag of the source and all above it in the word are
clear. -/
theorem shifted_eq_zero_iff :
    shifted flags i = 0 ↔ ∀ k, i.val % 32 ≤ k → (flags (wordOf i)).getLsbD k = false := by
  rw [shifted, BitVec.eq_of_getLsbD_eq_iff]
  refine ⟨fun h k hk => ?_, fun h n _ => ?_⟩
  · by_cases hlt : k - i.val % 32 < 32
    · have hb := h (k - i.val % 32) hlt
      rw [BitVec.getLsbD_ushiftRight, Nat.add_sub_of_le hk] at hb
      exact hb.trans BitVec.getLsbD_zero
    · exact BitVec.getLsbD_of_ge _ _ (by omega)
  · rw [BitVec.getLsbD_ushiftRight]
    exact (h _ (Nat.le_add_right _ _)).trans BitVec.getLsbD_zero.symm

theorem shifted_ne_zero_iff :
    shifted flags i ≠ 0 ↔ ∃ k, i.val % 32 ≤ k ∧ (flags (wordOf i)).getLsbD k = true := by
  rw [Ne, shifted_eq_zero_iff]
  push Not
  simp only [Bool.ne_false_iff]

end

/-! ## the scan -/

theorem pairwise_sources (nrSource : ℕ) : (sources nrSource).Pairwise (· < ·) := by
  rw [sources, List.pairwise_map]
  exact (List.pairwise_lt_finRange nrSource).imp Fin.succ_lt_succ_iff.mpr

theorem mem_sources {nrSource : ℕ} {i : Fin (nrSource + 1)} : i ∈ sources nrSource ↔ i ≠ 0 := by
  rw [sources, List.mem_map, ← Fin.exists_succ_eq]
  exact ⟨fun ⟨j, _, h⟩ => ⟨j, h⟩, fun ⟨j, h⟩ => ⟨j, List.mem_finRange j, h⟩⟩

namespace RvPlic
section
variable {nrSource nrContext : ℕ} (p : RvPlic nrSource nrContext) (c : Fin nrContext)

/-- what gets a source into the comparison of priorities with effect -/
def counted (i : Fin (nrSource + 1)) : Bool := p.candidate c i && p.priority i != 0

/-- the first source of highest priority among those -/
def best : Option (Fin (nrSource + 1)) :=
  firstMax (p.counted c) (fun i => (p.priority i).toNat) (sources nrSource)

/-- the variables of the loop when `b` is the best source so far -/
def scanned (b : Option (Fin (nrSource + 1))) : PlicScan :=
  b.elim ⟨0, 0⟩ fun i => ⟨(p.priority i).setWidth 64, BitVec.ofNat 64 i.val⟩

/-- The comparison of the loop, with the keys of the scan. -/
theorem scanned_lt_iff (b : Option (Fin (nrSource + 1))) (i : Fin (nrSource + 1)) :
    (p.scanned b).maxPriority < (p.priority i).setWidth 64 ↔
      p.priority i ≠ 0 ∧ b.all (fun j => decide ((p.priority j).toNat < (p.priority i).toNat)) := by
  have hne : p.priority i ≠ 0 ↔ 0 < (p.priority i).toNat := by
    rw [Nat.pos_iff_ne_zero, Ne, ← BitVec.toNat_inj]
    rfl
  rw [hne, BitVec.lt_def, BitVec.toNat_setWidth_of_le (by decide)]
  cases b with
  | none => exact (and_iff_left rfl).symm
  | some j =>
    rw [scanned, Option.elim, BitVec.toNat_setWidth_of_le (by decide), Option.all_some,
      decide_eq_true_iff]
    exact (and_iff_right_of_imp Nat.zero_lt_of_lt).symm

theorem scanStep_scanned (b : Option (Fin (nrSource + 1))) (i : Fin (nrSource + 1)) :
    p.scanStep c i (p.scanned b) =
      p.scanned (maxStep (p.counted c) (fun j => (p.priority j).toNat) b i) := by
  have hkey := p.scanned_lt_iff b i
  rw [scanStep, maxStep, counted]
  cases hc : p.candidate c i with
  | false => rfl
  | true =>
    by_cases hlt : (p.scanned b).maxPriority < (p.priority i).setWidth 64
    · obtain ⟨h0, hall⟩ := hkey.mp hlt
      rw [if_pos rfl, if_pos hlt, bne_iff_ne.mpr h0, hall]
      rfl
    · rw [if_pos rfl, if_neg hlt, if_neg]
      intro h
      rw [Bool.and_eq_true, Bool.true_and, bne_iff_ne] at h
      exact hlt (hkey.mpr h)

/-- **The loop of `get_int` is the scan** for the first source of highest priority. -/
theorem scan_eq : (sources nrSource).foldl (fun s i => p.scanStep c i s) ⟨0, 0⟩ =
    p.scanned (p.best c) := by
  have hhom : ∀ (l : List _) b, l.foldl (fun s i => p.scanStep c i s) (p.scanned b) =
      p.scanned (l.foldl (maxStep (p.counted c) fun j => (p.priority j).toNat) b) := fun l b =>
    List.foldl_hom p.scanned fun b i => p.scanStep_scanned c b i
  exact hhom (sources nrSource) none

theorem best_ne_zero {i : Fin (nrSource + 1)} (h : p.best c = some i) : i ≠ 0 :=
  mem_sources.mp ((firstMax_iff (pairwise_sources nrSource)).mp h).1.1

/-- the number of a source as a claim -/
def claimOf (b : Option (Fin (nrSource + 1))) : BitVec 32 := b.elim 0 fun i => BitVec.ofNat 32 i.val

include p in
theorem claimOf_some_inj {i j : Fin (nrSource + 1)}
    (h : BitVec.ofNat 32 i.val = BitVec.ofNat 32 j.val) : i = j := by
  have hs := p.smallSource
  rw [← BitVec.toNat_inj, BitVec.toNat_ofNat, BitVec.toNat_ofNat, Nat.mod_eq_of_lt (by omega),
    Nat.mod_eq_of_lt (by omega)] at h
  exact Fin.ext h

/-- **What `get_int` leaves**: the number of the best source as the claim. -/
theorem getInt_eq : p.getInt c = ((p.best c).isSome,
    { p with claim := Function.update p.claim c (claimOf (p.best c)) }) := by
  rw [getInt, scan_eq]
  cases hb : p.best c with
  | none => rfl
  | some i =>
    have hs := p.smallSource
    have hi : i.val ≠ 0 := fun h => p.best_ne_zero c hb (Fin.ext h)
    have h64 : (BitVec.ofNat 64 i.val != 0) = true := by
      rw [bne_iff_ne, Ne, ← BitVec.toNat_inj, BitVec.toNat_ofNat, Nat.mod_eq_of_lt (by omega)]
      exact hi
    have h32 : (BitVec.ofNat 32 i.val != 0) = true :=
      bne_iff_ne.mpr fun h => p.best_ne_zero c hb (p.claimOf_some_inj (h.trans rfl))
    have hcut : (BitVec.ofNat 64 i.val).setWidth 32 = BitVec.ofNat 32 i.val :=
      BitVec.setWidth_ofNat_of_le (by decide) _
    simp only [scanned, claimOf, Option.elim, h64, if_true, hcut, h32, Option.isSome_some]

end
end RvPlic

/-! ## arbitration -/

namespace RvPlic
section
variable {nrSource nrContext : ℕ} (p : RvPlic nrSource nrContext) (c : Fin nrContext)

/-- what a source needs to interrupt a context: its own flags and a priority -/
def Eligible (i : Fin (nrSource + 1)) : Prop :=
  i ≠ 0 ∧ flagOf p.pending i = true ∧ flagOf (p.enable c) i = true ∧ flagOf p.claimed i = false ∧
    p.priority i ≠ 0 ∧ p.threshold c ≤ p.priority i

/-- **What the loop asks of a source**: a pending and an enabled flag at its place or above it in
the word, and no claimed one. -/
theorem candidate_iff (i : Fin (nrSource + 1)) : p.candidate c i = true ↔
    p.threshold c ≤ p.priority i ∧
    (∃ k, i.val % 32 ≤ k ∧ (p.pending (wordOf i)).getLsbD k = true) ∧
    (∃ k, i.val % 32 ≤ k ∧ (p.enable c (wordOf i)).getLsbD k = true) ∧
    ∀ k, i.val % 32 ≤ k → (p.claimed (wordOf i)).getLsbD k = false := by
  rw [← shifted_ne_zero_iff, ← shifted_ne_zero_iff, ← shifted_eq_zero_iff, candidate]
  simp only [Bool.and_eq_true, decide_eq_true_iff, bne_iff_ne, Bool.not_eq_true', bne_eq_false_iff_eq,
    and_assoc]

/-- `j` goes before `i`: its priority is higher, or equal and its number lower. -/
def Outranks (j i : Fin (nrSource + 1)) : Prop :=
  p.priority i < p.priority j ∨ p.priority i = p.priority j ∧ j < i

/-- `get_int` arbitrates between the sources of the context. -/
structure Arbitrates : Prop where
  fires : (p.getInt c).1 = true ↔ ∃ i, p.Eligible c i
  chosen : (p.getInt c).1 = true → ∃ i, p.Eligible c i ∧
    (p.getInt c).2.claim c = BitVec.ofNat 32 i.val ∧
    (∀ j, p.Eligible c j → p.priority j ≤ p.priority i) ∧
    ∀ j, p.Eligible c j → p.priority j = p.priority i → i ≤ j
  idle : (p.getInt c).1 = false → (p.getInt c).2.claim c = 0

/-- the order of the sources -/
def rank (i : Fin (nrSource + 1)) : ℕ ×ₗ (Fin (nrSource + 1))ᵒᵈ :=
  keyRank (fun i => (p.priority i).toNat) i

variable {p c} {i j : Fin (nrSource + 1)}

theorem rank_lt_iff : p.rank i < p.rank j ↔ p.Outranks j i := by
  rw [rank, rank, keyRank_lt_iff, Outranks, BitVec.lt_def, ← BitVec.toNat_inj]

theorem maximal_eligible_iff : MaximalFor (p.Eligible c) p.rank i ↔ p.Eligible c i ∧
    (∀ j, p.Eligible c j → p.priority j ≤ p.priority i) ∧
    ∀ j, p.Eligible c j → p.priority j = p.priority i → i ≤ j := by
  have hle : ∀ {j}, p.rank j ≤ p.rank i ↔ (p.priority j).toNat < (p.priority i).toNat ∨
      (p.priority j).toNat = (p.priority i).toNat ∧ i ≤ j := keyRank_le_iff
  rw [maximalFor_iff]
  refine and_congr_right fun _ => ⟨fun h => ⟨fun j hj => ?_, fun j hj he => ?_⟩, fun h j hj => ?_⟩
  · rcases hle.mp (h j hj) with hlt | ⟨he, -⟩
    · exact BitVec.le_def.mpr hlt.le
    · exact BitVec.le_def.mpr he.le
  · rcases hle.mp (h j hj) with hlt | ⟨-, hij⟩
    · rw [he] at hlt
      exact absurd hlt (lt_irrefl _)
    · exact hij
  · refine hle.mpr ((lt_or_eq_of_le (BitVec.le_def.mp (h.1 j hj))).imp id fun he => ⟨he, ?_⟩)
    exact h.2 j hj (BitVec.eq_of_toNat_eq he)

theorem best_eq_some_iff :
    p.best c = some i ↔ MaximalFor (fun j => j ≠ 0 ∧ p.counted c j = true) p.rank i := by
  have hmem : ∀ j, j ∈ sources nrSource ∧ p.counted c j = true ↔ j ≠ 0 ∧ p.counted c j = true :=
    fun j => and_congr_left' mem_sources
  rw [best, firstMax_iff (pairwise_sources nrSource)]
  simp only [hmem]
  rfl

variable (p c)

/-- Arbitration is right exactly when the scan finds the best eligible source. -/
theorem arbitrates_iff_best :
    p.Arbitrates c ↔ ∀ i, MaximalFor (p.Eligible c) p.rank i ↔ p.best c = some i := by
  have hinj : Function.Injective p.rank := keyRank_injective
  have hex : (∃ i, p.Eligible c i) ↔ ∃ i, MaximalFor (p.Eligible c) p.rank i :=
    ⟨fun h => (Set.toFinite {i | p.Eligible c i}).exists_maximalFor p.rank _ h,
      fun ⟨i, hi⟩ => ⟨i, hi.1⟩⟩
  have hclaim : (p.getInt c).2.claim c = claimOf (p.best c) := by
    rw [getInt_eq]
    exact Function.update_self _ _ _
  have hfires : (p.getInt c).1 = (p.best c).isSome := congrArg Prod.fst (p.getInt_eq c)
  cases hb : p.best c with
  | none =>
    rw [hb] at hclaim hfires
    refine ⟨fun h i => iff_of_false (fun hi => ?_) nofun, fun h => ⟨?_, ?_, fun _ => hclaim⟩⟩
    · exact absurd (hfires.symm.trans (h.fires.mpr ⟨i, hi.1⟩)) Bool.false_ne_true
    · rw [hfires, hex]
      exact iff_of_false Bool.false_ne_true fun ⟨i, hi⟩ => nomatch (h i).mp hi
    · exact fun hf => absurd (hfires.symm.trans hf) Bool.false_ne_true
  | some k =>
    rw [hb] at hclaim hfires
    constructor
    · intro h i
      obtain ⟨j, hj, hjc, hmax⟩ := h.chosen hfires
      obtain rfl := p.claimOf_some_inj (hclaim.symm.trans hjc)
      have hbest : MaximalFor (p.Eligible c) p.rank k := maximal_eligible_iff.mpr ⟨hj, hmax⟩
      exact ⟨fun hi => congrArg some (maximalFor_unique hinj hbest hi),
        fun he => Option.some.inj he ▸ hbest⟩
    · intro h
      have hbest : MaximalFor (p.Eligible c) p.rank k := (h k).mpr rfl
      obtain ⟨hk, hmax⟩ := maximal_eligible_iff.mp hbest
      refine ⟨iff_of_true hfires ⟨k, hk⟩, fun _ => ⟨k, hk, hclaim, hmax⟩, fun hf => ?_⟩
      exact absurd (hf.symm.trans hfires) Bool.false_ne_true

/-- **`get_int` arbitrates right** exactly when every source with a priority that satisfies only
one of the two, its own flags or the shifted words, comes after a source that satisfies both. -/
theorem arbitrates_iff : p.Arbitrates c ↔ ∀ i, i ≠ 0 → p.priority i ≠ 0 →
    (p.Eligible c i ↔ p.candidate c i = true) ∨
      ∃ j, p.Eligible c j ∧ p.candidate c j = true ∧ p.Outranks j i := by
  have hinj : Function.Injective p.rank := keyRank_injective
  have hQ : ∀ j, p.Eligible c j → p.candidate c j = true → j ≠ 0 ∧ p.counted c j = true := by
    intro j hj hc
    refine ⟨hj.1, ?_⟩
    rw [counted, hc, bne_iff_ne.mpr hj.2.2.2.2.1]
    rfl
  have hcand : ∀ j, p.counted c j = true → p.candidate c j = true ∧ p.priority j ≠ 0 := by
    intro j hj
    rwa [counted, Bool.and_eq_true, bne_iff_ne] at hj
  rw [arbitrates_iff_best]
  simp only [best_eq_some_iff]
  rw [maximalFor_agree_iff hinj (Set.toFinite _) (Set.toFinite _)]
  refine forall_congr' fun i => ⟨fun h h0 hp => h.imp (fun he => ?_) ?_, fun h => ?_⟩
  · refine he.trans ⟨fun hq => (hcand i hq.2).1, fun hc => ⟨h0, ?_⟩⟩
    rw [counted, hc, bne_iff_ne.mpr hp]
    rfl
  · rintro ⟨j, hj, hq, hlt⟩
    exact ⟨j, hj, (hcand j hq.2).1, rank_lt_iff.mp hlt⟩
  · by_cases hi : i ≠ 0 ∧ p.priority i ≠ 0
    · refine (h hi.1 hi.2).imp (fun he => ⟨fun hei => hQ i hei (he.mp hei), fun hq => ?_⟩) ?_
      · exact he.mpr (hcand i hq.2).1
      · rintro ⟨j, hj, hc, hlt⟩
        exact ⟨j, hj, hQ j hj hc, rank_lt_iff.mpr hlt⟩
    · refine .inl (iff_of_false (fun he => hi ⟨he.1, he.2.2.2.2.1⟩) fun hq => ?_)
      exact hi ⟨hq.1, (hcand i hq.2).2⟩

/-- Sources 1 and 2 are enabled with the same priority and only source 2 has fired: source 1 is
claimed. -/
theorem claims_unfired : ¬ ∀ {nrSource nrContext : ℕ} (p : RvPlic nrSource nrContext)
    (c : Fin nrContext), p.Arbitrates c := by
  intro h
  let p : RvPlic 2 1 := { (RvPlic.init (by decide) (by decide)).updateExt 2 true with
    priority := fun _ => 1, enable := fun _ _ => 6 }
  obtain ⟨i, hi, hclaim, -⟩ := (h p 0).chosen (by decide)
  have h1 : (p.getInt 0).2.claim 0 = BitVec.ofNat 32 (1 : Fin 3).val := by decide
  obtain rfl := p.claimOf_some_inj (h1.symm.trans hclaim)
  exact absurd hi.2.1 (by decide)

end
end RvPlic

/-! ## runs -/

/-- the calls of the controller -/
inductive PlicCall (nrSource nrContext : ℕ)
  | updateExt (sourceId : Fin (nrSource + 1)) (fired : Bool)
  | getInt (contextId : Fin nrContext)
  | doRead (startAddr size buffer : BitVec 64)
  | doWrite (startAddr size buffer : BitVec 64)

section
variable {nrSource nrContext : ℕ}

namespace PlicCall
variable (call : PlicCall nrSource nrContext)

/-- the registers after a call -/
def next (p : RvPlic nrSource nrContext) : Option (RvPlic nrSource nrContext) :=
  match call with
  | updateExt sourceId fired => some (p.updateExt sourceId fired)
  | getInt contextId => some (p.getInt contextId).2
  | doRead startAddr size buffer => (p.doRead startAddr size buffer).map DevRead.dev
  | doWrite startAddr size buffer => (p.doWrite startAddr size buffer).map DevWrite.dev

/-- the line of a source after a call -/
def line (i : Fin (nrSource + 1)) (fired : Bool) : Bool :=
  match call with
  | updateExt sourceId f => if sourceId = i then f else fired
  | _ => fired

end PlicCall

/-- calls in any order, `none` after an access outside an array -/
def plicMachine (hs : nrSource < 2 ^ 31) (hc : nrContext < 2 ^ 31) :
    Clocked (Option (RvPlic nrSource nrContext)) (PlicCall nrSource nrContext) where
  init := fun s => s = some (RvPlic.init hs hc)
  next := fun call s => s.bind call.next

end

section
variable {α β : Type*} {o : Option α} {Q : β → Prop}

theorem forall_mem_map {f : α → β} (h : ∀ a, Q (f a)) : ∀ b ∈ o.map f, Q b := by
  intro b hb
  obtain ⟨a, -, rfl⟩ := Option.map_eq_some_iff.mp hb
  exact h a

theorem forall_mem_ite {c : Prop} [Decidable c] {x y : Option β} (hx : ∀ b ∈ x, Q b)
    (hy : ∀ b ∈ y, Q b) : ∀ b ∈ if c then x else y, Q b := by
  by_cases hc : c
  · rwa [if_pos hc]
  · rwa [if_neg hc]

theorem forall_mem_bind {f : α → Option β} (h : ∀ a, ∀ b ∈ f a, Q b) : ∀ b ∈ o.bind f, Q b := by
  intro b hb
  obtain ⟨a, -, hb⟩ := Option.bind_eq_some_iff.mp hb
  exact h a b hb

end

namespace RvPlic
section
variable {nrSource nrContext : ℕ} (p : RvPlic nrSource nrContext)
  (startAddr size buffer : BitVec 64)

/-- A read changes no register but the claimed flags. -/
theorem doRead_frame : ∀ r ∈ p.doRead startAddr size buffer,
    r.dev = { p with claimed := r.dev.claimed } := by
  have hfail : ∀ r ∈ some (DevRead.mk false buffer p), r.dev = { p with claimed := r.dev.claimed } := by
    rintro r ⟨⟩
    rfl
  unfold doRead
  refine forall_mem_ite ?_ (forall_mem_ite ?_ (forall_mem_ite hfail (forall_mem_ite ?_ ?_)))
  · exact forall_mem_ite hfail (forall_mem_ite hfail (forall_mem_map fun _ => rfl))
  · exact forall_mem_ite hfail (forall_mem_map fun _ => rfl)
  · refine forall_mem_ite hfail (forall_mem_ite hfail ?_)
    exact forall_mem_bind fun _ => forall_mem_map fun _ => rfl
  · refine forall_mem_ite hfail (forall_mem_ite (forall_mem_map fun _ => rfl) ?_)
    exact forall_mem_ite (forall_mem_bind fun _ => forall_mem_map fun _ => rfl) hfail

/-- A write changes neither the lines nor the claims. -/
theorem doWrite_frame : ∀ r ∈ p.doWrite startAddr size buffer, r.dev = { p with
    priority := r.dev.priority, enable := r.dev.enable, threshold := r.dev.threshold,
    claimed := r.dev.claimed } := by
  have hsame : ∀ ok : Bool, ∀ r ∈ some (DevWrite.mk ok p), r.dev = { p with
      priority := r.dev.priority, enable := r.dev.enable, threshold := r.dev.threshold,
      claimed := r.dev.claimed } := by
    rintro ok r ⟨⟩
    rfl
  have hfail := hsame false
  unfold doWrite
  refine forall_mem_ite ?_ (forall_mem_ite (hsame true) (forall_mem_ite hfail (forall_mem_ite ?_ ?_)))
  · exact forall_mem_ite hfail (forall_mem_ite hfail (forall_mem_map fun _ => rfl))
  · refine forall_mem_ite hfail (forall_mem_ite hfail ?_)
    exact forall_mem_bind fun _ => forall_mem_map fun _ => rfl
  · refine forall_mem_ite hfail (forall_mem_ite (forall_mem_map fun _ => rfl) ?_)
    exact forall_mem_ite (forall_mem_map fun _ => rfl) hfail

/-- `update_ext` sets the line of its source and of no other. -/
theorem flagOf_updateExt (s i : Fin (nrSource + 1)) (fired : Bool) :
    flagOf (p.updateExt s fired).pending i = if s = i then fired else flagOf p.pending i := by
  have hk : i.val % 32 < 32 := Nat.mod_lt _ (by decide)
  have hbit : (1#32 <<< (s.val % 32)).getLsbD (i.val % 32) = decide (s.val % 32 = i.val % 32) := by
    rw [BitVec.getLsbD_shiftLeft, BitVec.getLsbD_one]
    grind
  show (Function.update p.pending (wordOf s) _ (wordOf i)).getLsbD (i.val % 32) = _
  by_cases hw : wordOf i = wordOf s
  · have hsi : s = i ↔ s.val % 32 = i.val % 32 := by
      have hdiv : i.val / 32 = s.val / 32 := congrArg Fin.val hw
      rw [Fin.ext_iff]
      omega
    rw [hw, Function.update_self, flagOf, hw]
    cases fired with
    | false =>
      rw [if_neg Bool.false_ne_true, BitVec.getLsbD_and, BitVec.getLsbD_not, hbit]
      by_cases h : s = i
      · simp [h]
      · simp [mt hsi.mpr h, h, hk]
    | true =>
      rw [if_pos rfl, BitVec.getLsbD_or, BitVec.getLsbD_and, BitVec.getLsbD_not, hbit]
      by_cases h : s = i
      · simp [h]
      · simp [mt hsi.mpr h, h, hk]
  · have hsi : s ≠ i := fun h => hw (congrArg wordOf h.symm)
    rw [Function.update_of_ne hw, if_neg hsi]
    rfl

/-- The claims are numbers of sources. -/
def Claims : Prop := ∀ c, (p.claim c).toNat ≤ nrSource

end
end RvPlic

section
variable {nrSource nrContext : ℕ}

namespace PlicCall
variable {call : PlicCall nrSource nrContext} {p q : RvPlic nrSource nrContext}

theorem next_claims (h : q ∈ call.next p) (hp : p.Claims) : q.Claims := by
  intro c
  cases call with
  | updateExt s fired =>
    cases h
    exact hp c
  | getInt d =>
    cases h
    rw [p.getInt_eq]
    by_cases hcd : c = d
    · subst hcd
      show (Function.update p.claim c _ c).toNat ≤ nrSource
      rw [Function.update_self]
      cases p.best c with
      | none => exact Nat.zero_le _
      | some i =>
        have hi : i.val ≤ nrSource := Nat.lt_succ_iff.mp i.isLt
        exact (Nat.mod_le _ _).trans hi
    · show (Function.update p.claim d _ c).toNat ≤ nrSource
      rw [Function.update_of_ne hcd]
      exact hp c
  | doRead startAddr size buffer =>
    obtain ⟨r, hr, rfl⟩ := Option.map_eq_some_iff.mp h
    rw [p.doRead_frame startAddr size buffer r hr]
    exact hp c
  | doWrite startAddr size buffer =>
    obtain ⟨r, hr, rfl⟩ := Option.map_eq_some_iff.mp h
    rw [p.doWrite_frame startAddr size buffer r hr]
    exact hp c

theorem next_line (h : q ∈ call.next p) (i : Fin (nrSource + 1)) :
    flagOf q.pending i = call.line i (flagOf p.pending i) := by
  cases call with
  | updateExt s fired =>
    cases h
    exact p.flagOf_updateExt s i fired
  | getInt d =>
    cases h
    rw [p.getInt_eq]
    rfl
  | doRead startAddr size buffer =>
    obtain ⟨r, hr, rfl⟩ := Option.map_eq_some_iff.mp h
    rw [p.doRead_frame startAddr size buffer r hr]
    rfl
  | doWrite startAddr size buffer =>
    obtain ⟨r, hr, rfl⟩ := Option.map_eq_some_iff.mp h
    rw [p.doWrite_frame startAddr size buffer r hr]
    rfl

end PlicCall

variable (hs : nrSource < 2 ^ 31) (hc : nrContext < 2 ^ 31)

theorem plicMachine_claims :
    (plicMachine hs hc).Invariant fun s => ∀ p ∈ s, p.Claims where
  base := by
    rintro s rfl p ⟨⟩ c
    exact Nat.zero_le _
  step call s hp q hq := by
    obtain ⟨p, hps, hqp⟩ := Option.bind_eq_some_iff.mp hq
    exact PlicCall.next_claims hqp (hp p hps)

/-- **The pending flags are the lines**: after any calls the flag of a source is what `update_ext`
has last set it to. -/
theorem pending_line (calls : ℕ → PlicCall nrSource nrContext) (i : Fin (nrSource + 1)) (n : ℕ) :
    ∀ p ∈ (plicMachine hs hc).run calls (some (RvPlic.init hs hc)) n,
      flagOf p.pending i = (List.range n).foldl (fun fired k => (calls k).line i fired) false := by
  induction n with
  | zero =>
    rintro p ⟨⟩
    exact BitVec.getLsbD_zero
  | succ n ih =>
    intro q hq
    obtain ⟨p, hp, hqp⟩ := Option.bind_eq_some_iff.mp hq
    rw [PlicCall.next_line hqp, ih p hp, List.range_succ, List.foldl_append]
    rfl

/-- the address of the claim of a context -/
def claimAddr (c : ℕ) : BitVec 64 := BitVec.ofNat 64 (0x200004 + 0x1000 * c)

/-- **A claim is read inside the arrays** in every run: the read gives the claim, and its flag is
one that the controller has. -/
theorem doRead_claim {p : RvPlic nrSource nrContext}
    (h : (plicMachine hs hc).Reach (some p)) (c : Fin nrContext) (buffer : BitVec 64) :
    ∃ i : Fin (nrSource + 1), i.val = (p.claim c).toNat ∧
      p.doRead (claimAddr c) 4 buffer = some ⟨true, copyLow buffer 4 ((p.claim c).setWidth 64),
        { p with claimed := Function.update p.claimed (wordOf i)
                              (p.claimed (wordOf i) ||| flagBit (p.claim c)) }⟩ := by
  have hle : (p.claim c).toNat ≤ nrSource := (plicMachine_claims hs hc).reach h p rfl c
  refine ⟨⟨(p.claim c).toNat, Nat.lt_succ_of_le hle⟩, rfl, ?_⟩
  have hcn : c.val < 2 ^ 31 := c.isLt.trans hc
  have haddr : (claimAddr c).toNat = 0x200004 + 0x1000 * c.val := by
    rw [claimAddr, BitVec.toNat_ofNat, Nat.mod_eq_of_lt (by omega)]
  have hend : ∀ m : BitVec 64, m.toNat < 0x200008 → ¬ claimAddr c + 4 ≤ m := by
    intro m hm
    have hadd : (claimAddr c + 4).toNat = 0x200004 + 0x1000 * c.val + 4 := by
      rw [BitVec.toNat_add, haddr]
      exact Nat.mod_eq_of_lt (show 0x200004 + 0x1000 * c.val + 4 < 2 ^ 64 by omega)
    rw [BitVec.le_def, hadd]
    omega
  have hctx : ((claimAddr c - 0x200000) / 0x1000).toNat = c.val := by
    rw [BitVec.toNat_udiv, BitVec.toNat_sub_of_le, haddr]
    · show (0x200004 + 0x1000 * c.val - 0x200000) / 0x1000 = c.val
      omega
    · rw [BitVec.le_def, haddr]
      exact Nat.le_add_right_of_le (by decide)
  have hoff : claimAddr c % 0x1000 = 4 := by
    rw [← BitVec.toNat_inj, BitVec.toNat_umod, haddr]
    show (0x200004 + 0x1000 * c.val) % 0x1000 = 4
    omega
  have hword : ((p.claim c / 32).setWidth 64).toNat =
      (wordOf ⟨(p.claim c).toNat, Nat.lt_succ_of_le hle⟩).val := by
    rw [BitVec.toNat_setWidth_of_le (by decide), BitVec.toNat_udiv]
    rfl
  rw [RvPlic.doRead, if_neg (hend 0x1000 (by decide)), if_neg (hend 0x1080 (by decide)),
    if_neg (hend 0x2000 (by decide)), if_neg (hend 0x200000 (by decide))]
  simp only [hctx, hoff, arrayIndex_of_toNat hctx]
  rw [if_neg (not_lt.mpr c.isLt.le), if_neg (by decide), if_pos (by decide), Option.bind_some,
    arrayIndex_of_toNat hword]
  rfl

end

end HduCpu
