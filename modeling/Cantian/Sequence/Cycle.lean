import Mathlib.Data.Int.GCD
import Mathlib.Dynamics.PeriodicPts.Defs
import Cantian.Sequence.Held

/-!
# Sequences that cycle

One node calls `db_next_seq_value` again and again. The value in memory goes
back to the first one when it is past the boundary, and the number on disk moves
on by a whole cache at a time. The two agree as long as nothing overflows; a
sum that does is found by the check of `seq_get_next_value` too late, or not at
all.
-/

namespace Cantian.Sequence

open Function Int

/-- `db_next_seq_value`, from the number on disk and the entry: what they become, and the value
unless there was an error. -/
def cycleNextSeqValue (q : Seq) (s : Int × Cache) : (Int × Cache) × Option Int :=
  let (lastNumber, c) := seqGenerateCache true q s.1 s.2
  let (c', ok) := seqGetNextValue true q c
  ((lastNumber, c'), if ok then some c'.rsvNextval else none)

/-- The sums and products that the call computes, before they are cut to 64 bits. -/
def cycleSums (q : Seq) (s : Int × Cache) : List Int :=
  let c := (seqGenerateCache true q s.1 s.2).2
  [c.rsvNextval + q.step, cycled q c.lastval + q.step] ++
    if s.2.cachePos + 1 < q.cacheSize then []
    else [cacheCount q * q.step, s.1 + cacheCount q * q.step] ++
      if strideStays q s.1 then [] else [boundary q - s.1, turnedSum q s.1]

/-- The number on disk and the entry after `n` calls. -/
def cycleState (q : Seq) (start : Int) (n : Nat) : Int × Cache :=
  (fun s => (cycleNextSeqValue q s).1)^[n] (start, seqLoad q start)

/-! ## What is expected of the calls -/

/-- The values of the sequence, counted from 0. -/
def cycleValue (q : Seq) (start : Int) (n : Nat) : Int :=
  (fun v => cycled q (v + q.step))^[n] start

/-- Every call returns the next value, and nothing overflows. -/
def CyclesForever (q : Seq) (start : Int) : Prop :=
  ∀ n, (cycleNextSeqValue q (cycleState q start n)).2 = some (cycleValue q start n) ∧
    ∀ x ∈ cycleSums q (cycleState q start n), fits x = true

/-- How many steps from `v` stay in the range. -/
def stepsLeft (q : Seq) (v : Int) : Nat := ((boundary q - v).tdiv q.step).toNat

/-- The number of values in a pass from the first value on. -/
def passLen (q : Seq) : Nat := stepsLeft q (firstval q) + 1

/-- Every `m`-th value has room for `m` more steps in 64 bits. In the first pass these are the
values after a multiple of `m` steps; over all later passes they are the values whose distance
from the start, in steps, is a multiple of the gcd of `m` and `passLen`. -/
structure HasRoom (q : Seq) (start : Int) (m : Nat) : Prop where
  first : ∀ n ≤ stepsLeft q start, m ∣ n → fits (start + n * q.step + m * q.step) = true
  later : ∀ i < passLen q, Nat.gcd m (passLen q) ∣ stepsLeft q start + 1 + i →
    fits (firstval q + i * q.step + m * q.step) = true

def refillCount (q : Seq) : Nat := (cacheCount q).toNat

variable {q : Seq} {v : Int}

lemma cast_refillCount (q : Seq) : (refillCount q : Int) = cacheCount q :=
  toNat_of_nonneg (le_of_lt (cacheCount_pos q))

/-! ## The passes -/

section
variable (hv : InRange q v)
include hv

lemma firstval_inRange : InRange q (firstval q) := by
  unfold InRange firstval at *
  split <;> omega

variable (hq : q.Valid)
include hq

/-- The distance to the boundary, in steps. -/
lemma boundary_dist : (boundary q - v).tdiv q.step = stepsLeft q v ∧
    ∀ i : Nat, InRange q (v + i * q.step) ↔ i ≤ stepsLeft q v := by
  have hbound : ∀ w : Int, ¬Ahead q (boundary q) w ↔ InRange q w ∨ Ahead q w v := by
    intro w
    have := hq.step
    unfold InRange Ahead boundary at *
    split <;> omega
  have hv' := (hbound v).mpr (.inl hv)
  constructor
  · refine (toNat_of_nonneg ?_).symm
    unfold Ahead at hv'
    rcases lt_or_gt_of_ne hq.step with hs | hs
    · exact Int.tdiv_nonneg_of_nonpos_of_nonpos (by omega) hs.le
    · exact Int.tdiv_nonneg (by omega) hs.le
  · intro i
    rw [stepsLeft, ← not_ahead_iff hq hv', hbound]
    exact (or_iff_left (not_ahead_add (natCast_nonneg i))).symm

lemma cycleValue_first {i : Nat} (hi : i ≤ stepsLeft q v) :
    cycleValue q v i = v + i * q.step := by
  induction i with
  | zero => simp [cycleValue]
  | succ i ih =>
    have hin := ((boundary_dist hv hq).2 _).mpr hi
    rw [natCast_succ, add_one_mul, ← add_assoc] at hin ⊢
    rw [cycleValue, iterate_succ_apply', ← cycleValue, ih (by omega), cycled_of_inRange hin]

lemma cycleValue_turns : cycleValue q v (stepsLeft q v + 1) = firstval q := by
  rw [cycleValue, iterate_succ_apply', ← cycleValue, cycleValue_first hv hq le_rfl]
  refine if_pos (Bool.of_not_eq_false (outOfRange_eq_false.not.mpr fun h => ?_))
  rw [add_assoc, ← add_one_mul, ← natCast_succ, (boundary_dist hv hq).2] at h
  omega

lemma cycleValue_later (k : Nat) :
    cycleValue q v (stepsLeft q v + 1 + k) = firstval q + (k % passLen q : Nat) * q.step := by
  have hfirst := firstval_inRange hv
  have hper : IsPeriodicPt (fun v => cycled q (v + q.step)) (passLen q) (firstval q) :=
    cycleValue_turns hfirst hq
  have hlt : k % passLen q < passLen q := Nat.mod_lt _ (Nat.succ_pos _)
  rw [cycleValue, Nat.add_comm, iterate_add_apply, ← cycleValue, ← cycleValue,
    cycleValue_turns hv hq, ← cycleValue_first hfirst hq (Nat.le_of_lt_succ hlt)]
  exact (hper.iterate_mod_apply k).symm

lemma cycleValue_inRange (n : Nat) : InRange q (cycleValue q v n) := by
  rcases le_or_gt n (stepsLeft q v) with hn | hn
  · rw [cycleValue_first hv hq hn]
    exact ((boundary_dist hv hq).2 n).mpr hn
  · obtain ⟨k, rfl⟩ := Nat.exists_eq_add_of_lt hn
    rw [Nat.add_right_comm, cycleValue_later hv hq]
    exact ((boundary_dist (firstval_inRange hv) hq).2 _).mpr
      (Nat.le_of_lt_succ (Nat.mod_lt _ (Nat.succ_pos _)))

/-- The positions that a multiple of `m` steps comes to. -/
lemma hasRoom_iff {m : Nat} (hm : 0 < m) :
    HasRoom q v m ↔ ∀ n, m ∣ n → fits (cycleValue q v n + m * q.step) = true := by
  constructor
  · intro h n hn
    rcases le_or_gt n (stepsLeft q v) with hle | hgt
    · rw [cycleValue_first hv hq hle]
      exact h.first n hle hn
    · obtain ⟨k, rfl⟩ := Nat.exists_eq_add_of_lt hgt
      rw [Nat.add_right_comm] at hn ⊢
      rw [cycleValue_later hv hq]
      refine h.later _ (Nat.mod_lt _ (Nat.succ_pos _)) ?_
      have hall := (Nat.gcd_dvd_left m (passLen q)).trans hn
      rw [← Nat.mod_add_div k (passLen q), ← Nat.add_assoc] at hall
      exact (Nat.dvd_add_left ((Nat.gcd_dvd_right _ _).mul_right _)).mp hall
  · refine fun h => ⟨fun n hn hdvd => ?_, fun i hi hdvd => ?_⟩
    · rw [← cycleValue_first hv hq hn]
      exact h n hdvd
    -- the distance is a combination of `m` and the length of a pass, and adding passes to it
    -- makes it a multiple of `m`
    obtain ⟨x, y, hxy⟩ := Int.gcd_dvd_iff.mp (show Int.gcd m (passLen q) ∣ _ from hdvd)
    obtain ⟨k, hk⟩ : ∃ k : Nat, (k : Int) = m * |y| - y := by
      refine ⟨_, toNat_of_nonneg ?_⟩
      nlinarith [le_abs_self y, abs_nonneg y]
    have hn : m ∣ stepsLeft q v + 1 + (i + passLen q * k) := by
      rw [← natCast_dvd_natCast]
      refine ⟨x + passLen q * |y|, ?_⟩
      push_cast at hxy ⊢
      rw [hk]
      linarith [mul_sub (passLen q : Int) (m * |y|) y, mul_add (m : Int) x (passLen q * |y|),
        mul_left_comm (passLen q : Int) m |y|]
    have := h _ hn
    rwa [cycleValue_later hv hq, Nat.add_mul_mod_self_left, Nat.mod_eq_of_lt hi] at this

/-! ## A call -/

variable (hsize : InRange q (firstval q + q.cacheSize * q.step))
include hsize

/-- What the sums of a refill come to. -/
lemma refill_spec (hstride : fits (refillCount q * q.step) = true)
    (hsum : fits (v + refillCount q * q.step) = true) :
    seqGenerateLastNumber true q v = cycleValue q v (refillCount q) ∧
      (strideStays q v = false → fits (boundary q - v) = true ∧ fits (turnedSum q v) = true) := by
  have hfirst := firstval_inRange hv
  obtain ⟨hdiv, hstays⟩ := boundary_dist hv hq
  have hval : fits (v + cacheCount q * q.step) = true := by
    rw [← cast_refillCount]
    exact hsum
  unfold seqGenerateLastNumber
  rcases past_or_inRange_add hq (.inl hv) (natCast_nonneg (refillCount q)) with hin | hpast
  · rw [cast_refillCount] at hin
    rw [strideStays_of_inRange hq hval hin, if_pos rfl, wrap_of_fits hval, ← cast_refillCount,
      cycleValue_first hv hq ((hstays _).mp (cast_refillCount q ▸ hin))]
    exact ⟨rfl, fun h => by cases h⟩
  have hcond : strideStays q v = false := strideStays_of_past hval (cast_refillCount q ▸ hpast)
  -- the boundary is nearer than a whole cache
  have hdist : fits (boundary q - v) = true := by
    apply fits_between (show fits 0 = true by decide) hstride
    unfold Past InRange boundary at *
    split <;> omega
  obtain ⟨k, hk⟩ : ∃ k, refillCount q = k + (stepsLeft q v + 1) := by
    have := (hstays (refillCount q)).not.mp fun hin => hin.not_past hpast
    exact ⟨refillCount q - (stepsLeft q v + 1), by omega⟩
  have hkle : k ≤ stepsLeft q (firstval q) := by
    have hcount := cast_refillCount q
    unfold cacheCount at hcount
    split at hcount
    · rw [← hcount, (boundary_dist hfirst hq).2] at hsize
      omega
    · omega
  have hturn : turnedSum q v = cycleValue q v (refillCount q) := by
    rw [turnedSum, wrap_of_fits hdist, hdiv, Nat.abs_cast, ← cast_refillCount, hk, cycleValue,
      iterate_add_apply, ← cycleValue, ← cycleValue, cycleValue_turns hv hq,
      cycleValue_first hfirst hq hkle]
    push_cast
    ring
  have hfit : fits (turnedSum q v) = true := hturn ▸ (cycleValue_inRange hv hq _).fits hq
  rw [hcond, if_neg (by decide), if_pos rfl, wrap_of_fits hfit]
  exact ⟨hturn, fun _ => ⟨hdist, hfit⟩⟩

end

/-- The calls before the next refill. -/
def callsLeft (q : Seq) (c : Cache) : Nat := (q.cacheSize - 1 - c.cachePos).toNat

/-- What call `n` finds. -/
structure At (q : Seq) (start : Int) (n : Nat) (s : Int × Cache) : Prop where
  pos : 0 ≤ s.2.cachePos
  rsv : s.2.rsvNextval = cycleValue q start (n - 1)
  last : 0 < callsLeft q s.2 → 0 < n ∧ s.2.lastval = cycleValue q start (n - 1) + q.step
  refill : refillCount q ∣ n + callsLeft q s.2
  disk : s.1 = cycleValue q start (n + callsLeft q s.2)

/-- The sums of call `n` fit. -/
structure CallFits (q : Seq) (start : Int) (n : Nat) : Prop where
  prev : fits (cycleValue q start (n - 1) + q.step) = true
  next : fits (cycleValue q start n + q.step) = true
  refill : refillCount q ∣ n → fits (refillCount q * q.step) = true ∧
    fits (cycleValue q start n + refillCount q * q.step) = true

section
variable {start : Int} {n : Nat}

lemma At.load (hsize : 0 ≤ q.cacheSize) : At q start 0 (start, seqLoad q start) := by
  have hpos : 0 ≤ (seqLoad q start).cachePos ∧ callsLeft q (seqLoad q start) = 0 := by
    unfold callsLeft seqLoad
    dsimp only
    split <;> omega
  exact ⟨hpos.1, rfl, by simp [hpos.2], by simp [hpos.2], by simp [hpos.2, cycleValue]⟩

variable (hq : q.Valid) (hsize : InRange q (firstval q + q.cacheSize * q.step))
  (hstart : InRange q start)
include hq hsize hstart

/-- A call computes sums around the value that is due, and returns it when they fit. -/
lemma At.call {s} (h : At q start n s) :
    ((∀ x ∈ cycleSums q s, fits x = true) ↔ CallFits q start n) ∧
    (CallFits q start n → (cycleNextSeqValue q s).2 = some (cycleValue q start n) ∧
      At q start (n + 1) (cycleNextSeqValue q s).1) := by
  obtain ⟨d, c⟩ := s
  obtain ⟨hpos, hrsv, hlast, hrefill, hdisk⟩ := h
  dsimp only at hpos hrsv hlast hrefill hdisk
  have hv := cycleValue_inRange hstart hq n
  have hcount := cast_refillCount q
  unfold cacheCount at hcount
  by_cases hleft : callsLeft q c = 0
  · rw [hleft, Nat.add_zero] at hrefill hdisk
    subst hdisk
    have hcond : q.cacheSize ≤ c.cachePos + 1 := by
      unfold callsLeft at hleft
      omega
    have hgen : seqGenerateCache true q (cycleValue q start n) c =
        (seqGenerateLastNumber true q (cycleValue q start n),
          { c with lastval := cycleValue q start n, cachePos := 0 }) := if_pos hcond
    have hdue := cycled_of_inRange hv
    have hspec := fun h : CallFits q start n =>
      refill_spec hv hq hsize (h.refill hrefill).1 (h.refill hrefill).2
    constructor
    · simp only [cycleSums, hgen, hrsv, hdue, if_neg (not_lt.mpr hcond), ← cast_refillCount]
      constructor
      · intro hall
        exact ⟨hall _ (by simp), hall _ (by simp), fun _ => ⟨hall _ (by simp), hall _ (by simp)⟩⟩
      · intro hfit
        have hturn := (hspec hfit).2
        cases hs : strideStays q (cycleValue q start n) with
        | true => simp [hfit.prev, hfit.next, hfit.refill hrefill]
        | false => simp [hfit.prev, hfit.next, hfit.refill hrefill, hturn hs]
    · intro hfit
      have hnew : n + 1 + callsLeft q { c with cachePos := 0 } = refillCount q + n := by
        unfold callsLeft
        dsimp only
        split at hcount <;> omega
      simp only [cycleNextSeqValue, seqGetNextValue, hgen, hrsv, hdue, hfit.prev,
        wrap_of_fits hfit.next, Bool.not_true, Bool.and_false, Bool.false_eq_true, if_false,
        if_true]
      refine ⟨trivial, le_rfl, rfl, fun _ => ⟨Nat.succ_pos n, rfl⟩, ?_, ?_⟩
      · exact hnew ▸ (Nat.dvd_add_right dvd_rfl).mpr hrefill
      · refine Eq.trans ?_ (congrArg (cycleValue q start) hnew.symm)
        rw [(hspec hfit).1]
        exact (iterate_add_apply _ (refillCount q) n start).symm
  · obtain ⟨hn, hlast⟩ := hlast (Nat.pos_of_ne_zero hleft)
    have hcond : c.cachePos + 1 < q.cacheSize := by
      unfold callsLeft at hleft
      omega
    have hndvd : ¬refillCount q ∣ n := by
      intro hdvd
      have := Nat.le_of_dvd (Nat.pos_of_ne_zero hleft) ((Nat.dvd_add_right hdvd).mp hrefill)
      unfold callsLeft at this
      split at hcount <;> omega
    have hgen : seqGenerateCache true q d c = (d, { c with cachePos := c.cachePos + 1 }) :=
      if_neg (not_le.mpr hcond)
    have hdue : cycled q c.lastval = cycleValue q start n := by
      obtain ⟨m, rfl⟩ := Nat.exists_eq_add_of_lt hn
      rw [hlast, cycleValue, cycleValue, Nat.zero_add, iterate_succ_apply']
      rfl
    constructor
    · simp only [cycleSums, hgen, hrsv, hdue, if_pos hcond]
      constructor
      · intro hall
        exact ⟨hall _ (by simp), hall _ (by simp), fun h => absurd h hndvd⟩
      · intro hfit
        simp [hfit.prev, hfit.next]
    · intro hfit
      have hnew : n + 1 + callsLeft q { c with cachePos := c.cachePos + 1 } =
          n + callsLeft q c := by
        unfold callsLeft
        dsimp only
        omega
      simp only [cycleNextSeqValue, seqGetNextValue, hgen, hrsv, hdue, hfit.prev,
        wrap_of_fits hfit.next, Bool.not_true, Bool.and_false, Bool.false_eq_true, if_false,
        if_true]
      refine ⟨trivial, add_nonneg hpos zero_le_one, rfl, fun _ => ⟨Nat.succ_pos n, rfl⟩, ?_, ?_⟩
      · exact hnew ▸ hrefill
      · exact hdisk.trans (congrArg (cycleValue q start) hnew.symm)

lemma cyclesForever_iff (h0 : 0 ≤ q.cacheSize) :
    CyclesForever q start ↔ ∀ n, CallFits q start n := by
  have hat : ∀ n, (∀ m < n, CallFits q start m) → At q start n (cycleState q start n) := by
    intro n
    induction n with
    | zero => exact fun _ => At.load h0
    | succ n ih =>
      intro hfit
      rw [cycleState, iterate_succ_apply', ← cycleState]
      exact ((ih fun m hm => hfit m (by omega)).call hq hsize hstart).2 (hfit n (by omega)) |>.2
  constructor
  · intro h n
    induction n using Nat.strong_induction_on with
    | _ n ih => exact ((hat n ih).call hq hsize hstart).1.mp (h n).2
  · intro h n
    obtain ⟨hsums, hnext⟩ := (hat n fun m _ => h m).call hq hsize hstart
    exact ⟨(hnext (h n)).1, hsums.mpr (h n)⟩

end

/-- A sequence that cycles, called on one node, returns its values for ever and without an
overflow exactly when the values, and those that a refill starts at, have room for a step and for
a refill. -/
theorem cycle_forever_iff (q : Seq) (start : Int) (hq : q.Valid) (h0 : 0 ≤ q.cacheSize)
    (hsize : InRange q (firstval q + q.cacheSize * q.step)) (hstart : InRange q start) :
    CyclesForever q start ↔
      fits (refillCount q * q.step) = true ∧ HasRoom q start 1 ∧
        HasRoom q start (refillCount q) := by
  have hpos : 0 < refillCount q := by
    have := cacheCount_pos q
    unfold refillCount
    omega
  rw [cyclesForever_iff hq hsize hstart h0, hasRoom_iff hstart hq Nat.one_pos,
    hasRoom_iff hstart hq hpos, Nat.cast_one, one_mul]
  constructor
  · intro h
    exact ⟨((h 0).refill (dvd_zero _)).1, fun n _ => (h n).next, fun n hn => ((h n).refill hn).2⟩
  · rintro ⟨hstride, hnext, hrefill⟩ n
    exact ⟨hnext _ (one_dvd _), hnext _ (one_dvd _), fun hn => ⟨hstride, hrefill n hn⟩⟩

/-- From 1 to 10 with the step 3, in caches of 2. -/
theorem cycle_forever_small : CyclesForever ⟨1, 10, 3, 2⟩ 5 := by
  refine (cycle_forever_iff _ _ ⟨rfl, rfl, by decide⟩ (by decide) ⟨by decide, by decide⟩
    ⟨by decide, by decide⟩).mpr ⟨by decide, ⟨?_, ?_⟩, ⟨?_, ?_⟩⟩ <;> decide

/-- The last three 64-bit values. -/
def lastThree : Seq := ⟨9223372036854775805, 9223372036854775807, 1, 1⟩

/-- The call after the largest value fails. -/
theorem cycle_ends : lastThree.Valid ∧
    InRange lastThree (firstval lastThree + lastThree.cacheSize * lastThree.step) ∧
    InRange lastThree lastThree.minval ∧ ¬CyclesForever lastThree lastThree.minval := by
  refine ⟨⟨rfl, rfl, by decide⟩, ⟨by decide, by decide⟩, ⟨by decide, by decide⟩, fun h => ?_⟩
  have hnone :
      (cycleNextSeqValue lastThree (cycleState lastThree lastThree.minval 3)).2 = none := by
    decide +kernel
  cases (h 3).1.symm.trans hnone

end Cantian.Sequence
