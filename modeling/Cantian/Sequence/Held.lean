import Cantian.Lib.Allotment
import Cantian.Sequence.Arith

/-!
# Who holds the values of a sequence

A value is issued once the number on disk has moved past it. An issued value
is with the node that has it in its cache range, with the batch call that has
taken it from there, handed out, or lost. `SysOk` is the invariant of the
sequence, and `Ready` says what a call finds after `seq_generate_cache`.
-/

namespace Cantian.Sequence

open Cantian.Lib Bool Int

/-- `seq_generate_cache` has to take new numbers from the disk. -/
def refills (q : Seq) (c : Cache) : Bool := q.cacheSize ≤ c.cachePos + 1

/-- The 64-bit arithmetic of `seq_generate_last_number` does not overflow. -/
def refillFits (q : Seq) (lastNumber : Int) : Bool :=
  fits (cacheCount q * q.step) && fits (lastNumber + cacheCount q * q.step) &&
    (!outOfRange q (lastNumber + cacheCount q * q.step) || fits (boundary q - lastNumber))

/-- The numbers the next call can use without a further refill. -/
def rest (q : Seq) (c : Cache) : Int :=
  if refills q c then cacheCount q else q.cacheSize - 1 - c.cachePos

/-- Where the next call starts. -/
def nextval (q : Seq) (lastNumber : Int) (c : Cache) : Int :=
  if refills q c then lastNumber else c.lastval

/-! ## Who holds which values -/

/-- The numbers left in the cache range. -/
def remaining (q : Seq) (c : Cache) : Int := q.cacheSize - 1 - c.cachePos

/-- `v` is one of the `k` values from `x` on, and within the range of the sequence. -/
def Holds (q : Seq) (x k v : Int) : Prop :=
  InRange q v ∧ ∃ j, 0 ≤ j ∧ j < k ∧ v = x + j * q.step

def Issued (q : Seq) (lastNumber v : Int) : Prop := InRange q v ∧ Ahead q v lastNumber

/-- What the call that is running has taken so far. -/
def Call.taken (call : Call) : Int := call.count - call.remain

/-- A node holds its cache range, and the running call what it has taken from it. -/
def held (q : Seq) (s : Sys) : Option Nat → Int → Prop
  | some n, v => ∃ c, s.cache n = some c ∧ Holds q c.lastval (remaining q c) v
  | none, v => ∃ call st, s.call = some call ∧ call.start = some st ∧ Holds q st call.taken v

variable {x k v : Int}

lemma Holds.mono {q k'} (h : Holds q x k v) (hk : k ≤ k') : Holds q x k' v := by
  obtain ⟨hv, j, h0, hj, hvj⟩ := h
  exact ⟨hv, j, h0, by omega, hvj⟩

lemma Holds.not_nonpos {q} (hk : k ≤ 0) : ¬Holds q x k v := by
  intro h
  obtain ⟨hv, j, h0, hj, hvj⟩ := h
  omega

lemma not_ahead_add {q j} (hj : 0 ≤ j) : ¬Ahead q (x + j * q.step) x := by
  intro h
  rcases h with h | h
  · have := mul_nonneg hj (le_of_lt h.1)
    omega
  · have := mul_nonpos_of_nonneg_of_nonpos hj (le_of_lt h.1)
    omega

lemma Past.not_holds {q} (hx : Past q x) : ¬Holds q x k v := by
  intro h
  obtain ⟨hv, j, h0, hj, rfl⟩ := h
  exact not_ahead_add h0 (hv.ahead hx)

lemma Holds.of_add {q i} (hi : 0 ≤ i) (h : Holds q (x + i * q.step) k v) : Holds q x (i + k) v := by
  obtain ⟨hv, j, h0, hj, hvj⟩ := h
  refine ⟨hv, i + j, by omega, by omega, ?_⟩
  rw [hvj, add_mul]
  omega

/-- The first `i` values from `x` on and those after them are different values. -/
lemma Holds.disjoint {q} (hq : q.Valid) {i} (h : Holds q x i v)
    (h' : Holds q (x + i * q.step) k v) : False := by
  obtain ⟨-, j, h0, hj, hvj⟩ := h
  obtain ⟨-, j', h0', hj', hvj'⟩ := h'
  have heq : x + j * q.step = x + (i + j') * q.step := by
    rw [add_mul]
    omega
  have := add_injective hq x heq
  omega

/-! ## The invariant -/

/-- A value a call can start at, or past the boundary. -/
def Placed (q : Seq) (v : Int) : Prop := InRange q v ∨ Past q v

structure CacheOk (q : Seq) (c : Cache) : Prop where
  pos : 0 ≤ c.cachePos
  placed : Placed q c.lastval
  room : InRange q c.lastval → 0 < remaining q c →
    fits (cacheCount q * q.step) = true ∧ fits (c.lastval + remaining q c * q.step) = true

structure CallOk (q : Seq) (cache : Nat → Option Cache) (call : Call) : Prop where
  remain : 0 < call.remain ∧ call.remain ≤ call.count
  first : call.start = none → call.remain = call.count
  later : ∀ st, call.start = some st → InRange q st ∧
    ∃ c, cache call.node = some c ∧ c.lastval = st + call.taken * q.step

structure SysOk (q : Seq) (s : Sys) : Prop where
  disk : Placed q s.lastNumber
  cache : ∀ n c, s.cache n = some c → CacheOk q c
  call : ∀ call, s.call = some call → CallOk q s.cache call
  allotted : Allotted (Issued q s.lastNumber) (held q s) s.handed

lemma SysOk.fresh {q s} (h : s.Fresh q) : SysOk q s where
  disk := .inl h.lastNumber
  cache n c hc := by simp [h.cache] at hc
  call call hc := by simp [h.call] at hc
  allotted := by
    rw [h.handed]
    apply Allotted.empty
    intro k v hk
    cases k with
    | none =>
      obtain ⟨call, st, hcall, -⟩ := hk
      simp [h.call] at hcall
    | some =>
      obtain ⟨c, hc, -⟩ := hk
      simp [h.cache] at hc

section
variable {q : Seq} {s : Sys}

lemma remaining_seqLoad_nonpos (hsize : 0 ≤ q.cacheSize) (lastNumber : Int) :
    remaining q (seqLoad q lastNumber) ≤ 0 := by
  unfold remaining seqLoad
  dsimp only
  split <;> omega

/-- An entry that is loaded from the disk has no numbers left. -/
lemma SysOk.seqOpen (hsize : 0 ≤ q.cacheSize) (h : SysOk q s) (n : Nat) :
    CacheOk q (seqOpen q s n) := by
  unfold Sequence.seqOpen
  cases hc : s.cache n with
  | some c => exact h.cache n c hc
  | none =>
    refine ⟨?_, h.disk, fun _ hpos => ?_⟩
    · show 0 ≤ (seqLoad q s.lastNumber).cachePos
      unfold seqLoad
      dsimp only
      split <;> omega
    · have := remaining_seqLoad_nonpos hsize s.lastNumber
      change 0 < remaining q (seqLoad q s.lastNumber) at hpos
      omega

lemma held_seqOpen (hsize : 0 ≤ q.cacheSize) (n : Nat)
    (hv : Holds q (seqOpen q s n).lastval (remaining q (seqOpen q s n)) v) :
    held q s (some n) v := by
  unfold Sequence.seqOpen at hv
  cases hc : s.cache n with
  | some c =>
    rw [hc] at hv
    exact ⟨c, hc, hv⟩
  | none =>
    rw [hc] at hv
    exact absurd hv (Holds.not_nonpos (remaining_seqLoad_nonpos hsize s.lastNumber))

/-! ## A refill -/

lemma past_or_inRange_add (hq : q.Valid) (hx : Placed q x) {i} (hi : 0 ≤ i) :
    Placed q (x + i * q.step) := by
  unfold Placed InRange Past at *
  rcases lt_or_gt_of_ne hq.step with hs | hs
  · have := mul_nonpos_of_nonneg_of_nonpos hi (le_of_lt hs)
    omega
  · have := mul_nonneg hi (le_of_lt hs)
    omega

lemma seqGenerateLastNumber_spec (hq : q.Valid) {d} (hd : Placed q d)
    (hfit : refillFits q d = true) : seqGenerateLastNumber false q d = d + cacheCount q * q.step ∧
        InRange q (d + cacheCount q * q.step) ∨
      Past q (seqGenerateLastNumber false q d) := by
  unfold refillFits at hfit
  simp only [and_eq_true, or_eq_true, not_eq_true'] at hfit
  obtain ⟨⟨-, hval⟩, hdist⟩ := hfit
  have hplaced := past_or_inRange_add hq hd (le_of_lt (cacheCount_pos q))
  unfold seqGenerateLastNumber
  rcases hplaced with hin | hpast
  · rw [strideStays_of_inRange hq hval hin, if_pos rfl, wrap_of_fits hval]
    exact .inl ⟨rfl, hin⟩
  · have hdist' : fits (boundary q - d) = true := by
      rcases hdist with hdist | hdist
      · exact absurd hpast (outOfRange_eq_false.mp hdist).not_past
      · exact hdist
    rw [strideStays_of_past hval hpast]
    exact .inr (past_pastBoundary hq (cacheCount_pos q) hpast hval hdist')

/-- What `seq_generate_cache` leaves: `k` values from `x` on are the node's, the disk number is
`d'`, and the entry counts at most `k - 1` further numbers. -/
structure Ready (q : Seq) (d : Int) (c : Cache) (d' : Int) (c' : Cache) : Prop where
  lastval : c'.lastval = nextval q d c
  pos : 0 ≤ c'.cachePos
  rest_pos : 0 < rest q c
  rest_le : rest q c ≤ cacheCount q
  left : remaining q c' ≤ rest q c - 1
  batch : ∀ n, batchCount (q.cacheSize - c'.cachePos) n = batchCount (rest q c) n
  room : InRange q c'.lastval →
    fits (cacheCount q * q.step) = true ∧ fits (c'.lastval + rest q c * q.step) = true
  placed : Placed q c'.lastval
  disk : Placed q d'
  mono : ∀ v, Issued q d v → Issued q d' v
  new : ∀ v, Holds q c'.lastval (rest q c) v →
    Holds q c.lastval (remaining q c) v ∨ ¬Issued q d v ∧ Issued q d' v

/-- The numbers from the disk number on are issued by the refill. -/
lemma ready_refill (hq : q.Valid) (hsize : 0 ≤ q.cacheSize) {d} (hd : Placed q d)
    (hfit : refillFits q d = true) {c} (hr : refills q c = true) :
    Ready q d c (seqGenerateLastNumber false q d) { c with lastval := d, cachePos := 0 } := by
  have hrest : rest q c = cacheCount q := if_pos hr
  have hcount : cacheCount q = q.cacheSize ∨ q.cacheSize = 0 ∧ cacheCount q = 1 := by
    unfold cacheCount
    split <;> omega
  have hpos := cacheCount_pos q
  have hspec := seqGenerateLastNumber_spec hq hd hfit
  have hahead : ∀ j, 0 ≤ j → j < cacheCount q → InRange q (d + j * q.step) →
      Ahead q (d + j * q.step) (seqGenerateLastNumber false q d) := by
    intro j h0 hj hin
    rcases hspec with hspec | hspec
    · rw [hspec.1]
      exact ahead_add hq d hj
    · exact hin.ahead hspec
  have hplaced : Placed q (seqGenerateLastNumber false q d) := by
    rcases hspec with hspec | hspec
    · rw [hspec.1]
      exact .inl hspec.2
    · exact .inr hspec
  unfold refillFits at hfit
  simp only [and_eq_true] at hfit
  refine
    { lastval := (if_pos hr).symm
      pos := le_refl 0
      rest_pos := by omega
      rest_le := by omega
      left := ?_
      batch := ?_
      room := fun _ => ⟨hfit.1.1, by rw [hrest]; exact hfit.1.2⟩
      placed := hd
      disk := hplaced
      mono := ?_
      new := ?_ }
  · show q.cacheSize - 1 - 0 ≤ rest q c - 1
    omega
  · intro n
    rw [hrest]
    rcases hcount with hcount | hcount
    · rw [hcount, sub_zero]
    · rw [hcount.1, hcount.2]
      rfl
  · intro v hv
    refine ⟨hv.1, ?_⟩
    rcases hd with hin | hpast
    · have h := hahead 0 (by omega) (by omega)
      rw [zero_mul, add_zero] at h
      exact hv.2.trans (h hin)
    rcases hspec with hspec | hspec
    · -- the disk number is past the boundary already, so this branch is not taken
      have : Past q (d + cacheCount q * q.step) := by
        unfold Past at hpast ⊢
        rcases hpast with hpast | hpast
        · have := mul_nonneg (le_of_lt hpos) (le_of_lt hpast.1)
          omega
        · have := mul_nonpos_of_nonneg_of_nonpos (le_of_lt hpos) (le_of_lt hpast.1)
          omega
      exact absurd this hspec.2.not_past
    · exact hv.1.ahead hspec
  · intro v hv
    obtain ⟨hin, j, h0, hj, rfl⟩ := hv
    exact .inr ⟨fun h => not_ahead_add h0 h.2, hin, hahead j h0 (by omega) hin⟩

lemma ready_keep {d} (hd : Placed q d) {c} (hc : CacheOk q c) (hr : ¬refills q c = true) :
    Ready q d c d { c with cachePos := c.cachePos + 1 } := by
  have hrest : rest q c = remaining q c := if_neg hr
  have hlt : c.cachePos + 1 < q.cacheSize := by
    simpa [refills] using hr
  have hpos := hc.pos
  have hrem : remaining q c = q.cacheSize - 1 - c.cachePos := rfl
  have hcount : cacheCount q = q.cacheSize := if_pos (by omega)
  refine
    { lastval := (if_neg hr).symm
      pos := by
        show 0 ≤ c.cachePos + 1
        omega
      rest_pos := by omega
      rest_le := by omega
      left := ?_
      batch := ?_
      room := fun hin => ?_
      placed := hc.placed
      disk := hd
      mono := fun v hv => hv
      new := fun v hv => .inl (hrest ▸ hv) }
  · show q.cacheSize - 1 - (c.cachePos + 1) ≤ rest q c - 1
    omega
  · intro n
    show batchCount (q.cacheSize - (c.cachePos + 1)) n = batchCount (rest q c) n
    rw [hrest, hrem]
    congr 1
    omega
  · rw [hrest]
    exact hc.room hin (by omega)

lemma seqGenerateCache_ready (hq : q.Valid) (hsize : 0 ≤ q.cacheSize) {d} (hd : Placed q d) {c}
    (hc : CacheOk q c) (hfit : (!refills q c || refillFits q d) = true) :
    Ready q d c (seqGenerateCache false q d c).1 (seqGenerateCache false q d c).2 := by
  unfold seqGenerateCache
  by_cases hr : refills q c = true
  · have hle : q.cacheSize ≤ c.cachePos + 1 := by
      simpa [refills] using hr
    rw [if_pos hle]
    exact ready_refill hq hsize hd (by simpa [hr] using hfit) hr
  · have hle : ¬q.cacheSize ≤ c.cachePos + 1 := by
      simpa [refills] using hr
    rw [if_neg hle]
    exact ready_keep hd hc hr

end

end Cantian.Sequence
