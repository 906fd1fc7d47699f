import Mathlib.Algebra.Order.Ring.Int
import Cantian.Ckpt.DoubleWrite

/-!
# The list of earlier dirty pages to clean

`ckpt_merge_to_array` puts a part of a sorted array of page entries into the
sorted list of a group, up to the capacity of the group, and returns the index
of the first entry that it did not look at. A page that is in the list
already keeps its entry.

The loop is described by the part of the list that it has passed and the part
that is ahead of it.
-/

namespace Cantian.Ckpt

open List

/-- `edp_page_info_t`. -/
structure EdpPageInfo where
  page : PageId
  lsn : Nat
  action : Nat
deriving DecidableEq, Repr

def invalidFileId : Nat := 1023

def cmpPageId (a b : PageId) : Int :=
  let result : Int := if b.file < a.file then 1 else if a.file < b.file then -1 else 0
  if result ≠ 0 then result
  else if b.page < a.page then 1 else if a.page < b.page then -1 else 0

/-- `cmp_edp_page_info_t`. -/
def cmpEdpPageInfo (a b : EdpPageInfo) : Int := cmpPageId a.page b.page

def ckptSortPageIdArray (pages : List EdpPageInfo) : List EdpPageInfo :=
  if pages.length ≤ 1 then pages
  else pages.mergeSort fun a b => decide (cmpEdpPageInfo a b ≤ 0)

/-- The test of `ckpt_merge_to_array` for an invalid page. -/
def invalidPage (p : PageId) : Bool :=
  (p.page == 0 && p.file == 0) || decide (invalidFileId ≤ p.file)

/-- How the loop ends: at an invalid page, or with the indices into the source
and the destination. The array has `tmp_dst_count` entries. -/
inductive LoopEnd where
  | invalid (array : List EdpPageInfo)
  | done (i j : Nat) (array : List EdpPageInfo)
deriving DecidableEq, Repr

/-- The loop of `ckpt_merge_to_array`. -/
def mergeLoop (src : Nat → EdpPageInfo) (start srcCount capacity : Nat) :
    Nat → Nat → Nat → List EdpPageInfo → LoopEnd
  | 0, i, j, array => .done i j array
  | fuel + 1, i, j, array =>
    if h : i - start < srcCount ∧ j < array.length ∧ array.length < capacity then
      if invalidPage (src i).page then .invalid array
      else
        let result := cmpEdpPageInfo (src i) (array.get ⟨j, h.2.1⟩)
        if result = 0 then mergeLoop src start srcCount capacity fuel (i + 1) (j + 1) array
        else if result < 0 then
          mergeLoop src start srcCount capacity fuel (i + 1) (j + 1)
            (array.take j ++ src i :: array.drop j)
        else mergeLoop src start srcCount capacity fuel i (j + 1) array
    else .done i j array

/-- What `ckpt_merge_to_array` leaves: the array, the count of the group and
the returned index. -/
structure MergeResult where
  array : List EdpPageInfo
  dstCount : Nat
  index : Nat
deriving DecidableEq, Repr

/-- The entries of the group. -/
def MergeResult.pages (r : MergeResult) : List EdpPageInfo := r.array.take r.dstCount

def ckptMergeToArray (src : Nat → EdpPageInfo) (start srcCount : Nat) (dst : List EdpPageInfo)
    (capacity : Nat) : MergeResult :=
  let sorted := ckptSortPageIdArray dst
  match mergeLoop src start srcCount capacity (srcCount + sorted.length) start 0 sorted with
  | .invalid array => ⟨array, dst.length, start + srcCount⟩
  | .done i j array =>
    if srcCount ≤ i - start ∨ capacity - 1 ≤ j ∨ capacity ≤ array.length then
      ⟨array, array.length, i⟩
    else
      let left := min (min (capacity - j) (srcCount - (i - start))) (capacity - array.length)
      ⟨array.take j ++ (List.range left).map (fun k => src (i + k)) ++ array.drop (j + left),
        array.length + left, i + left⟩

/-! ## The order of the pages -/

/-- The page of `a` comes before that of `b`. -/
def Before (a b : EdpPageInfo) : Prop :=
  a.page.file < b.page.file ∨ (a.page.file = b.page.file ∧ a.page.page < b.page.page)

instance (a b : EdpPageInfo) : Decidable (Before a b) :=
  inferInstanceAs (Decidable (_ ∨ _))

section
variable {a b c : EdpPageInfo}

lemma Before.trans (hab : Before a b) (hbc : Before b c) : Before a c := by
  unfold Before at *
  omega

lemma Before.of_page_eq (hab : Before a b) (h : c.page = a.page) : Before c b := by
  unfold Before
  rw [h]
  exact hab

lemma Before.ne (hab : Before a b) : a.page ≠ b.page := by
  intro h
  unfold Before at hab
  rw [h] at hab
  omega

lemma cmpEdpPageInfo_cases (a b : EdpPageInfo) :
    (cmpEdpPageInfo a b = 0 ∧ a.page = b.page) ∨ (cmpEdpPageInfo a b < 0 ∧ Before a b) ∨
      (0 < cmpEdpPageInfo a b ∧ Before b a) := by
  obtain ⟨⟨fa, pa⟩, _, _⟩ := a
  obtain ⟨⟨fb, pb⟩, _, _⟩ := b
  simp only [cmpEdpPageInfo, cmpPageId, Before, PageId.mk.injEq]
  split_ifs <;> omega

lemma cmpEdpPageInfo_le (hab : Before a b) : cmpEdpPageInfo a b ≤ 0 := by
  rcases cmpEdpPageInfo_cases a b with ⟨h, -⟩ | ⟨h, -⟩ | ⟨-, h⟩
  · exact h.le
  · exact h.le
  · exact absurd rfl (hab.trans h).ne

/-- Sorting does not move the entries of a sorted list. -/
lemma ckptSortPageIdArray_eq {l} (hl : l.Pairwise Before) : ckptSortPageIdArray l = l := by
  unfold ckptSortPageIdArray
  split
  · rfl
  · exact mergeSort_of_pairwise (hl.imp fun h => decide_eq_true (cmpEdpPageInfo_le h))

end

/-! ## The loop -/

/-- The loop has passed the entries `passed`, and `ahead` are still to be
compared; `i` is the next entry of the source. -/
structure Merging (src : Nat → EdpPageInfo) (start srcCount capacity : Nat)
    (dst : List EdpPageInfo) (i : Nat) (passed ahead : List EdpPageInfo) : Prop where
  lo : start ≤ i
  hi : i ≤ start + srcCount
  room : (passed ++ ahead).length ≤ capacity
  old : ∀ e ∈ dst, e ∈ passed ++ ahead
  taken : ∀ k, start ≤ k → k < i → ∃ e ∈ passed ++ ahead, e.page = (src k).page
  known : ∀ e ∈ passed ++ ahead, e ∈ dst ∨ ∃ k, start ≤ k ∧ k < i ∧ e = src k

/-- The list is sorted, and what is left of the source comes after the entries
that the loop has passed. -/
structure InOrder (src : Nat → EdpPageInfo) (start srcCount : Nat) (i : Nat)
    (passed ahead : List EdpPageInfo) : Prop where
  sorted : (passed ++ ahead).Pairwise Before
  next : ∀ e ∈ passed, ∀ k, i ≤ k → k < start + srcCount → Before e (src k)

/-- The source is sorted from `start` on. -/
def SourceSorted (src : Nat → EdpPageInfo) (start srcCount : Nat) : Prop :=
  ∀ j k, start ≤ j → j < k → k < start + srcCount → Before (src j) (src k)

section
variable {src : Nat → EdpPageInfo} {start srcCount capacity i : Nat}
  {dst passed ahead : List EdpPageInfo} {d : EdpPageInfo}

lemma Merging.skip (hm : Merging src start srcCount capacity dst i passed (d :: ahead)) :
    Merging src start srcCount capacity dst i (passed ++ [d]) ahead := by
  have heq : passed ++ [d] ++ ahead = passed ++ d :: ahead := by simp
  exact ⟨hm.lo, hm.hi, heq ▸ hm.room, heq ▸ hm.old, heq ▸ hm.taken, heq ▸ hm.known⟩

lemma InOrder.skip (ho : InOrder src start srcCount i passed (d :: ahead))
    (hd : ∀ k, i ≤ k → k < start + srcCount → Before d (src k)) :
    InOrder src start srcCount i (passed ++ [d]) ahead := by
  have heq : passed ++ [d] ++ ahead = passed ++ d :: ahead := by simp
  exact ⟨heq ▸ ho.sorted, forall_mem_append.mpr ⟨ho.next, forall_mem_singleton.mpr hd⟩⟩

lemma Merging.same (hm : Merging src start srcCount capacity dst i passed (d :: ahead))
    (hi : i < start + srcCount) (heq : (src i).page = d.page) :
    Merging src start srcCount capacity dst (i + 1) (passed ++ [d]) ahead := by
  refine Merging.skip ⟨by have := hm.lo; omega, hi, hm.room, hm.old, ?_, ?_⟩
  · intro k hk hk'
    rcases Nat.lt_succ_iff_lt_or_eq.mp hk' with hk' | rfl
    · exact hm.taken k hk hk'
    · exact ⟨d, by simp, heq.symm⟩
  · intro e he
    rcases hm.known e he with he | ⟨k, hk, hk', hek⟩
    · exact .inl he
    · exact .inr ⟨k, hk, by omega, hek⟩

lemma InOrder.same (ho : InOrder src start srcCount i passed (d :: ahead)) (hlo : start ≤ i)
    (hsrc : SourceSorted src start srcCount) (heq : (src i).page = d.page) :
    InOrder src start srcCount (i + 1) (passed ++ [d]) ahead := by
  refine InOrder.skip ⟨ho.sorted, fun e he k hk => ho.next e he k (by omega)⟩ fun k hk hk' => ?_
  exact (hsrc i k hlo hk hk').of_page_eq heq.symm

lemma Merging.insert (hm : Merging src start srcCount capacity dst i passed ahead)
    (hi : i < start + srcCount) (hroom : (passed ++ ahead).length < capacity) :
    Merging src start srcCount capacity dst (i + 1) (passed ++ [src i]) ahead := by
  have hmem : ∀ e, e ∈ passed ++ [src i] ++ ahead ↔ e = src i ∨ e ∈ passed ++ ahead := by
    intro e
    simp only [mem_append, mem_singleton]
    tauto
  refine ⟨by have := hm.lo; omega, hi, ?_, ?_, ?_, ?_⟩
  · simp only [length_append, length_singleton] at hroom ⊢
    omega
  · exact fun e he => (hmem e).mpr (.inr (hm.old e he))
  · intro k hk hk'
    rcases Nat.lt_succ_iff_lt_or_eq.mp hk' with hk' | rfl
    · obtain ⟨e, he, hpage⟩ := hm.taken k hk hk'
      exact ⟨e, (hmem e).mpr (.inr he), hpage⟩
    · exact ⟨src k, (hmem _).mpr (.inl rfl), rfl⟩
  · intro e he
    rcases (hmem e).mp he with rfl | he
    · exact .inr ⟨i, hm.lo, by omega, rfl⟩
    · rcases hm.known e he with he | ⟨k, hk, hk', hek⟩
      · exact .inl he
      · exact .inr ⟨k, hk, by omega, hek⟩

lemma InOrder.insert (ho : InOrder src start srcCount i passed ahead) (hlo : start ≤ i)
    (hi : i < start + srcCount) (hsrc : SourceSorted src start srcCount)
    (hahead : ∀ e ∈ ahead, Before (src i) e) :
    InOrder src start srcCount (i + 1) (passed ++ [src i]) ahead := by
  obtain ⟨hpassed, hahead', hbetween⟩ := pairwise_append.mp ho.sorted
  constructor
  · rw [append_assoc, pairwise_append, singleton_append, pairwise_cons]
    refine ⟨hpassed, ⟨hahead, hahead'⟩, fun a ha => ?_⟩
    exact forall_mem_cons.mpr ⟨ho.next a ha i le_rfl hi, hbetween a ha⟩
  · refine forall_mem_append.mpr ⟨fun e he k hk => ho.next e he k (by omega), ?_⟩
    exact forall_mem_singleton.mpr fun k => hsrc i k hlo

/-- The loop ends when the source or the list is at its end or the list is
full. -/
lemma mergeLoop_merging
    (hvalid : ∀ k, start ≤ k → k < start + srcCount → invalidPage (src k).page = false) (fuel : Nat)
    (hm : Merging src start srcCount capacity dst i passed ahead)
    (hfuel : start + srcCount - i + ahead.length ≤ fuel) : ∃ i' passed' ahead',
      mergeLoop src start srcCount capacity fuel i passed.length (passed ++ ahead) =
        .done i' passed'.length (passed' ++ ahead') ∧
      Merging src start srcCount capacity dst i' passed' ahead' ∧
      (i' = start + srcCount ∨ ahead' = [] ∨ (passed' ++ ahead').length = capacity) ∧
      (SourceSorted src start srcCount → InOrder src start srcCount i passed ahead →
        InOrder src start srcCount i' passed' ahead') := by
  induction fuel generalizing i passed ahead with
  | zero =>
    have hi := hm.hi
    refine ⟨i, passed, ahead, rfl, hm, .inl ?_, fun _ ho => ho⟩
    omega
  | succ fuel ih =>
    have hlo := hm.lo
    have hhi := hm.hi
    rw [mergeLoop]
    split
    · rename_i hcond
      have hi : i < start + srcCount := by omega
      rw [hvalid i hlo hi]
      cases ahead with
      | nil =>
        have := hcond.2.1
        simp at this
      | cons d ahead =>
        have hget : (passed ++ d :: ahead).get ⟨passed.length, hcond.2.1⟩ = d := by simp
        rw [hget]
        have hlen : passed.length + 1 = (passed ++ [d]).length := by simp
        have hlen' : passed.length + 1 = (passed ++ [src i]).length := by simp
        have happ : passed ++ d :: ahead = passed ++ [d] ++ ahead := by simp
        rw [length_cons] at hfuel
        rcases cmpEdpPageInfo_cases (src i) d with ⟨hcmp, hpage⟩ | ⟨hcmp, hbefore⟩ | ⟨hcmp, hafter⟩
        · rw [if_pos hcmp, hlen, happ]
          obtain ⟨i', passed', ahead', hloop, hm', hend, ho⟩ := ih (hm.same hi hpage) (by omega)
          exact ⟨i', passed', ahead', hloop, hm', hend, fun hsrc h =>
            ho hsrc (h.same hlo hsrc hpage)⟩
        · have hins : (passed ++ d :: ahead).take passed.length ++
              src i :: (passed ++ d :: ahead).drop passed.length =
              passed ++ [src i] ++ d :: ahead := by simp
          rw [if_neg hcmp.ne, if_pos hcmp, hlen', hins]
          obtain ⟨i', passed', ahead', hloop, hm', hend, ho⟩ := ih (hm.insert hi hcond.2.2)
            (by rw [length_cons]; omega)
          refine ⟨i', passed', ahead', hloop, hm', hend, fun hsrc h => ho hsrc ?_⟩
          have hrest := pairwise_cons.mp (pairwise_append.mp h.sorted).2.1
          refine h.insert hlo hi hsrc (forall_mem_cons.mpr ⟨hbefore, fun e he => ?_⟩)
          exact hbefore.trans (hrest.1 e he)
        · rw [if_neg hcmp.ne', if_neg hcmp.not_gt, hlen, happ]
          obtain ⟨i', passed', ahead', hloop, hm', hend, ho⟩ := ih hm.skip (by omega)
          refine ⟨i', passed', ahead', hloop, hm', hend, fun hsrc h => ho hsrc ?_⟩
          refine h.skip fun k hk hk' => ?_
          rcases eq_or_lt_of_le hk with rfl | hk
          · exact hafter
          · exact hafter.trans (hsrc i k hlo hk hk')
    · rename_i hcond
      refine ⟨i, passed, ahead, rfl, hm, ?_, fun _ ho => ho⟩
      have hroom := hm.room
      rw [length_append] at hroom hcond ⊢
      rw [← length_eq_zero_iff]
      omega

lemma Merging.append (hm : Merging src start srcCount capacity dst i passed []) (n : Nat)
    (hn : i + n ≤ start + srcCount) (hroom : passed.length + n ≤ capacity) :
    Merging src start srcCount capacity dst (i + n)
        (passed ++ (List.range n).map fun k => src (i + k)) [] ∧
      (SourceSorted src start srcCount → InOrder src start srcCount i passed [] →
        InOrder src start srcCount (i + n)
          (passed ++ (List.range n).map fun k => src (i + k)) []) := by
  induction n with
  | zero => simpa using hm
  | succ n ih =>
    obtain ⟨hm', ho⟩ := ih (by omega) (by omega)
    have hlo := hm.lo
    rw [range_succ, map_append, ← append_assoc]
    constructor
    · exact hm'.insert (by omega) (by simp; omega)
    · intro hsrc h
      exact (ho hsrc h).insert (by omega) (by omega) hsrc fun e he => absurd he not_mem_nil

end

/-! ## The whole function -/

/-- `ckpt_merge_to_array` as the loop and the block of the rest leave it. -/
lemma ckptMergeToArray_merging (src : Nat → EdpPageInfo) (start srcCount : Nat)
    (dst : List EdpPageInfo) (capacity : Nat) (hdst : dst.Pairwise Before)
    (hcount : dst.length ≤ capacity)
    (hvalid : ∀ k, start ≤ k → k < start + srcCount → invalidPage (src k).page = false) :
    ∃ i passed ahead, ckptMergeToArray src start srcCount dst capacity =
        ⟨passed ++ ahead, (passed ++ ahead).length, i⟩ ∧
      Merging src start srcCount capacity dst i passed ahead ∧
      (SourceSorted src start srcCount → InOrder src start srcCount i passed ahead) := by
  have hstart : Merging src start srcCount capacity dst start [] dst := by
    refine ⟨le_rfl, by omega, hcount, fun e he => he, ?_, fun e he => .inl he⟩
    exact fun k hk hk' => absurd hk' (by omega)
  have hempty : InOrder src start srcCount start [] dst :=
    ⟨hdst, fun e he => absurd he not_mem_nil⟩
  obtain ⟨i, passed, ahead, hloop, hm, hend, ho⟩ := mergeLoop_merging hvalid
    (srcCount + dst.length) hstart (by omega)
  rw [nil_append, length_nil] at hloop
  simp only [ckptMergeToArray, ckptSortPageIdArray_eq hdst, hloop]
  split_ifs with hcond
  · exact ⟨i, passed, ahead, rfl, hm, fun hsrc => ho hsrc hempty⟩
  have hlo := hm.lo
  have hhi := hm.hi
  obtain rfl : ahead = [] := by
    rcases hend with h | h | h
    · omega
    · exact h
    · omega
  rw [append_nil] at hcond ⊢
  -- the list is at its end, so the block goes behind it
  generalize hleft : min (min (capacity - passed.length) (srcCount - (i - start)))
    (capacity - passed.length) = left
  obtain ⟨hm', ho'⟩ := hm.append left (by omega) (by omega)
  have hblock : passed.take passed.length ++ (range left).map (fun k => src (i + k)) ++
      passed.drop (passed.length + left) =
      passed ++ (range left).map (fun k => src (i + k)) ++ [] := by
    rw [take_length, drop_eq_nil_of_le (by omega)]
  refine ⟨_, _, [], ?_, hm', fun hsrc => ho' hsrc (ho hsrc hempty)⟩
  simp

/-- When the part of the source has no invalid page, the group is not too large
afterwards, it has all its entries as they were and every page of the source
before the returned index, and each other entry is one of the source. A sorted
source leaves it sorted and without a page twice. -/
theorem ckpt_merge_to_array_keeps (src : Nat → EdpPageInfo) (start srcCount : Nat)
    (dst : List EdpPageInfo) (capacity : Nat) (hdst : dst.Pairwise Before)
    (hcount : dst.length ≤ capacity)
    (hvalid : ∀ k, start ≤ k → k < start + srcCount → invalidPage (src k).page = false) :
    let r := ckptMergeToArray src start srcCount dst capacity
    r.pages.length = r.dstCount ∧ r.dstCount ≤ capacity ∧
      start ≤ r.index ∧ r.index ≤ start + srcCount ∧
      (∀ e ∈ dst, e ∈ r.pages) ∧
      (∀ k, start ≤ k → k < r.index → ∃ e ∈ r.pages, e.page = (src k).page) ∧
      (∀ e ∈ r.pages, e ∈ dst ∨ ∃ k, start ≤ k ∧ k < r.index ∧ e = src k) ∧
      (SourceSorted src start srcCount → r.pages.Pairwise Before) := by
  obtain ⟨i, passed, ahead, hr, hm, ho⟩ :=
    ckptMergeToArray_merging src start srcCount dst capacity hdst hcount hvalid
  have hpages : MergeResult.pages ⟨passed ++ ahead, (passed ++ ahead).length, i⟩ =
      passed ++ ahead := take_length
  simp only [hr, hpages, true_and]
  exact ⟨hm.room, hm.lo, hm.hi, hm.old, hm.taken, hm.known, fun hsrc => (ho hsrc).sorted⟩

/-- A source of three pages in order. -/
def threePages : Nat → EdpPageInfo
  | 0 => ⟨⟨1, 3⟩, 7, 0⟩
  | 1 => ⟨⟨1, 5⟩, 9, 0⟩
  | _ => ⟨⟨1, 8⟩, 4, 0⟩

/-- Page 5 keeps its entry, and the last page of the source is left out. -/
theorem ckpt_merge_to_array_keeps_three :
    let dst : List EdpPageInfo := [⟨⟨1, 5⟩, 5, 0⟩, ⟨⟨1, 6⟩, 1, 0⟩]
    ckptMergeToArray threePages 0 3 dst 3 =
        ⟨[⟨⟨1, 3⟩, 7, 0⟩, ⟨⟨1, 5⟩, 5, 0⟩, ⟨⟨1, 6⟩, 1, 0⟩], 3, 1⟩ ∧
      (ckptMergeToArray threePages 0 3 dst 3).dstCount ≤ 3 := by
  intro dst
  have hvalid : ∀ k, 0 ≤ k → k < 0 + 3 → invalidPage (threePages k).page = false := by
    intro k _ hk
    match k, hk with
    | 0, _ => rfl
    | 1, _ => rfl
    | 2, _ => rfl
  have hdst : dst.Pairwise Before := by decide
  refine ⟨?_, (ckpt_merge_to_array_keeps threePages 0 3 dst 3 hdst (by decide) hvalid).2.1⟩
  simp only [ckptMergeToArray, ckptSortPageIdArray_eq hdst]
  decide

/-- A page that is in both keeps the smaller lsn of the group, an unsorted
source leaves the group unsorted, and an invalid page after one that was put
in makes the group lose its last page. -/
theorem ckpt_merge_to_array_apart :
    (∃ (src : Nat → EdpPageInfo) (dst : List EdpPageInfo), dst.Pairwise Before ∧
      SourceSorted src 0 1 ∧ (∀ k, invalidPage (src k).page = false) ∧
      ∃ e ∈ (ckptMergeToArray src 0 1 dst 2).pages,
        e.page = (src 0).page ∧ 0 < (ckptMergeToArray src 0 1 dst 2).index ∧
        e.lsn < (src 0).lsn) ∧
    (∃ (src : Nat → EdpPageInfo) (dst : List EdpPageInfo), dst.Pairwise Before ∧
      (∀ k, invalidPage (src k).page = false) ∧
      ¬ (ckptMergeToArray src 0 2 dst 3).pages.Pairwise Before) ∧
    ∃ (src : Nat → EdpPageInfo) (dst : List EdpPageInfo), dst.Pairwise Before ∧
      ∃ e ∈ dst, ∀ e' ∈ (ckptMergeToArray src 0 2 dst 3).pages, e'.page ≠ e.page := by
  refine ⟨⟨fun _ => ⟨⟨1, 5⟩, 9, 0⟩, [⟨⟨1, 5⟩, 5, 0⟩], by decide, ?_, fun _ => rfl, by decide⟩,
    ⟨fun k => if k = 0 then ⟨⟨1, 5⟩, 9, 0⟩ else ⟨⟨1, 3⟩, 9, 0⟩, [⟨⟨1, 10⟩, 5, 0⟩], by decide, ?_,
      by decide⟩,
    ⟨fun k => if k = 0 then ⟨⟨1, 5⟩, 9, 0⟩ else ⟨⟨0, 0⟩, 0, 0⟩, [⟨⟨1, 10⟩, 5, 0⟩], by decide,
      by decide⟩⟩
  · intro j k hj hjk hk
    omega
  · intro k
    dsimp only
    split <;> rfl

end Cantian.Ckpt
