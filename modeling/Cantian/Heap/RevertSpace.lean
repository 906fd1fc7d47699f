import Mathlib.Data.BitVec

/-!
# Space reverted from a consistent read page

On the copy of a PCR heap page that is rolled back, the row directory entry of
an undone insert becomes free, and new as well if the insert had added the entry.
`pcrh_revert_alloc_space` then gives entries and ITLs that are no longer needed
back to the page. The ITLs stand before the page tail and the directory before
the ITLs; both grow downwards, to `free_end`.
-/

namespace Cantian.Heap

/-- A page as its two-byte words, `tail` of them before `page_tail_t`. -/
structure PcrPage where
  tail : Nat
  word : Nat → BitVec 16
  freeEnd : Nat
  freeSize : Nat
  dirs : Nat
  itls : Nat

/-- `PCRH_DIR_IS_FREE`. -/
def dirIsFree (dir : BitVec 16) : Bool := dir &&& 0x8000#16 != 0#16

/-- `PCRH_DIR_IS_NEW`. -/
def dirIsNew (dir : BitVec 16) : Bool := dir &&& 0x4000#16 != 0#16

/-- `is_active` or a commit scn: the scn is the first four words of an ITL,
`is_active` the lowest bit of its last one. -/
def itlUsed (itl : List (BitVec 16)) : Bool :=
  (itl.getD 11 0#16 &&& 1#16) != 0#16 || (itl.take 4).any (· != 0#16)

def memmove (word : Nat → BitVec 16) (dst src n : Nat) (a : Nat) : BitVec 16 :=
  if dst ≤ a ∧ a < dst + n then word (a - dst + src) else word a

namespace PcrPage

/-- `pcrh_get_dir`. -/
def dir (p : PcrPage) (slot : Nat) : BitVec 16 := p.word (p.tail - 12 * p.itls - (slot + 1))

/-- The 24 bytes at `pcrh_get_itl`. -/
def itl (p : PcrPage) (id : Nat) : List (BitVec 16) :=
  (List.range 12).map fun k => p.word (p.tail - 12 * (id + 1) + k)

/-- The loop over the directory, from `slot - 1` down: the entries it takes off. -/
def newFree (p : PcrPage) : Nat → Nat
  | 0 => 0
  | slot + 1 =>
    if dirIsFree (p.dir slot) then p.newFree slot + (dirIsNew (p.dir slot)).toNat else 0

def revertDirs (p : PcrPage) : PcrPage :=
  let k := p.newFree p.dirs
  { p with
    freeEnd := (p.freeEnd + 2 * k) % 65536
    freeSize := (p.freeSize + 2 * k) % 65536
    dirs := p.dirs - k }

/-- The loop over the ITLs, from `id - 1` down. -/
def idleItls (p : PcrPage) : Nat → Nat
  | 0 => 0
  | id + 1 => if itlUsed (p.itl id) then 0 else p.idleItls id + 1

/-- `count` after the loop; it and `id` are `int8`. -/
def idleCount (p : PcrPage) : Int :=
  Int.bmod (p.idleItls (Int.bmod (p.itls - 1) 256 + 1).toNat) 256

def revertItls (p : PcrPage) : PcrPage :=
  if 0 < p.idleCount then
    let count := p.idleCount.toNat
    let src := p.freeEnd / 2
    { p with
      word := if 0 < p.dirs then memmove p.word (src + 12 * count) src p.dirs else p.word
      freeEnd := (p.freeEnd + 24 * count) % 65536
      freeSize := (p.freeSize + 24 * count) % 65536
      itls := p.itls - count }
  else p

def pcrhRevertAllocSpace (p : PcrPage) : PcrPage := p.revertDirs.revertItls

/-! ## Pages -/

/-- The directory and the ITLs fill the page from `free_end` to its tail. -/
structure Ok (p : PcrPage) : Prop where
  freeEnd : p.freeEnd + 2 * p.dirs + 24 * p.itls = 2 * p.tail
  freeSize : p.freeSize ≤ p.freeEnd
  tail : p.tail < 16384
  itls : p.itls < 256

/-- `q` is `p` without free and new entries and unused ITLs. -/
structure Reverted (p q : PcrPage) : Prop where
  dirs : q.dirs ≤ p.dirs
  removed : ∀ slot < p.dirs, ¬(dirIsFree (p.dir slot) ∧ dirIsNew (p.dir slot)) → slot < q.dirs
  dir : ∀ slot < q.dirs, q.dir slot = p.dir slot
  itls : q.itls ≤ p.itls
  idle : ∀ id < p.itls, itlUsed (p.itl id) → id < q.itls
  itl : ∀ id < q.itls, q.itl id = p.itl id
  freeEnd : q.freeEnd = p.freeEnd + 2 * (p.dirs - q.dirs) + 24 * (p.itls - q.itls)
  freeSize : q.freeSize = p.freeSize + 2 * (p.dirs - q.dirs) + 24 * (p.itls - q.itls)

/-- Among the free entries that end the first `n`, no new one stands before one
that is not. -/
def NewLast (p : PcrPage) (n : Nat) : Prop :=
  ∀ j < n, ∀ i < j, (∀ l < n, i ≤ l → dirIsFree (p.dir l)) →
    dirIsNew (p.dir i) → dirIsNew (p.dir j)

/-! ## Directory entries -/

variable {p : PcrPage}

lemma newFree_le (n : Nat) : p.newFree n ≤ n := by
  induction n with
  | zero => simp [newFree]
  | succ n ih =>
    have := (dirIsNew (p.dir n)).toNat_le
    rw [newFree]
    split <;> omega

lemma Ok.revertDirs (hp : p.Ok) : p.revertDirs.Ok := by
  have hle := newFree_le (p := p) p.dirs
  have hend := hp.freeEnd
  have hsize := hp.freeSize
  have htail := hp.tail
  refine ⟨?_, ?_, htail, hp.itls⟩ <;> simp only [PcrPage.revertDirs] <;> omega

lemma newFree_eq_zero_iff (n : Nat) :
    p.newFree n = 0 ↔ ∀ i < n, (∀ l < n, i ≤ l → dirIsFree (p.dir l)) → ¬dirIsNew (p.dir i) := by
  induction n with
  | zero => simp [newFree]
  | succ n ih =>
    rw [newFree]
    by_cases hfree : dirIsFree (p.dir n)
    · have hlast : ∀ l < n, n ≤ l → dirIsFree (p.dir l) := fun l hl hnl => by omega
      simp only [hfree, ↓reduceIte, Nat.add_eq_zero_iff, ih, Nat.forall_lt_succ_right, implies_true,
        and_true, eq_true hlast, true_implies, Bool.toNat_eq_zero, Bool.not_eq_true]
    · simp only [if_neg hfree, true_iff]
      exact fun i hi hrun => absurd (hrun n (by omega) (by omega)) hfree

/-- The last entries go, as many as there are new ones. -/
lemma last_new_iff (n : Nat) :
    (∀ slot < n, n ≤ slot + p.newFree n → dirIsFree (p.dir slot) ∧ dirIsNew (p.dir slot)) ↔
      p.NewLast n := by
  induction n with
  | zero => simp [NewLast]
  | succ n ih =>
    by_cases hlast : dirIsFree (p.dir n) ∧ dirIsNew (p.dir n)
    · rw [NewLast] at ih ⊢
      simp only [newFree, hlast, Nat.forall_lt_succ_right, ↓reduceIte, Bool.toNat_true,
        ← Nat.add_assoc, Nat.add_le_add_iff_right, ih, and_self, implies_true, and_true]
    -- such an entry at the end stays only if nothing is removed
    have hzero : (∀ slot < n + 1, n + 1 ≤ slot + p.newFree (n + 1) →
        dirIsFree (p.dir slot) ∧ dirIsNew (p.dir slot)) ↔ p.newFree (n + 1) = 0 := by
      constructor
      · intro h
        by_contra hne
        exact hlast (h n (by omega) (by omega))
      · intro h slot hslot hle
        omega
    rw [hzero, newFree_eq_zero_iff]
    constructor
    · intro h j hj i hij hrun hi
      exact absurd hi (h i (by omega) hrun)
    · intro h i hi hrun hnew
      refine hlast ⟨hrun n (by omega) (by omega), ?_⟩
      obtain hi | rfl := Nat.lt_succ_iff_lt_or_eq.mp hi
      · exact h n (by omega) i hi hrun hnew
      · exact hnew

/-! ## ITLs -/

lemma idleItls_le (n : Nat) : p.idleItls n ≤ n := by
  induction n with
  | zero => simp [idleItls]
  | succ n ih =>
    rw [idleItls]
    split <;> omega

lemma lt_of_itlUsed {n id : Nat} (hid : id < n) (hused : itlUsed (p.itl id)) :
    id + p.idleItls n < n := by
  induction n with
  | zero => omega
  | succ n ih =>
    rw [idleItls]
    obtain hid | rfl := Nat.lt_succ_iff_lt_or_eq.mp hid
    · have := ih hid
      split <;> omega
    · simp [hused]

lemma idleCount_toNat (hitls : p.itls < 256) (hpos : 0 < p.idleCount) :
    p.idleCount.toNat = p.idleItls p.itls := by
  have hle := idleItls_le (p := p) (Int.bmod (p.itls - 1) 256 + 1).toNat
  unfold idleCount at hpos ⊢
  -- with more than 128 ITLs the loop does not start
  have hall : (Int.bmod (p.itls - 1) 256 + 1).toNat = p.itls := by
    by_contra hne
    have hzero : (Int.bmod (p.itls - 1) 256 + 1).toNat = 0 := by
      rw [Int.bmod_def] at hne ⊢
      split at hne <;> omega
    simp [hzero, idleItls] at hpos
  rw [hall] at hpos hle ⊢
  generalize p.idleItls p.itls = c at *
  rw [Int.bmod_def] at *
  split at hpos <;> omega

lemma revertItls_reverted (hp : p.Ok) :
    Reverted p p.revertItls ∧ p.revertItls.dirs = p.dirs := by
  rw [revertItls]
  split
  case isTrue hpos =>
    have hcount := idleCount_toNat hp.itls hpos
    have hle := idleItls_le (p := p) p.itls
    have hend := hp.freeEnd
    have hsize := hp.freeSize
    have htail := hp.tail
    rw [hcount]
    generalize hk : p.idleItls p.itls = k at hle
    refine ⟨⟨le_rfl, fun slot hslot _ => hslot, ?_, Nat.sub_le _ _, ?_, ?_, ?_, ?_⟩, rfl⟩
    · intro slot (hslot : slot < p.dirs)
      simp only [dir, if_pos (Nat.zero_lt_of_lt hslot)]
      rw [memmove, if_pos (by omega)]
      exact congrArg p.word (by omega)
    · intro id hid hused
      have := lt_of_itlUsed hid hused
      simp only
      omega
    · intro id (hid : id < p.itls - k)
      refine List.map_congr_left fun i hi => ?_
      have := List.mem_range.mp hi
      simp only
      split
      · exact if_neg (by omega)
      · rfl
    · simp only
      omega
    · simp only
      omega
  case isFalse =>
    exact ⟨⟨le_rfl, fun slot hslot _ => hslot, fun _ _ => rfl, le_rfl, fun id hid _ => hid,
      fun _ _ => rfl, by simp, by simp⟩, rfl⟩

end PcrPage

open PcrPage

theorem revert_alloc_space_iff (p : PcrPage) (hp : p.Ok) :
    Reverted p (pcrhRevertAllocSpace p) ↔ p.NewLast p.dirs := by
  have hle := newFree_le (p := p) p.dirs
  have hend := hp.freeEnd
  have hsize := hp.freeSize
  have htail := hp.tail
  obtain ⟨hrev, hdirs⟩ := revertItls_reverted hp.revertDirs
  have hend' := hrev.freeEnd
  have hsize' := hrev.freeSize
  rw [pcrhRevertAllocSpace, ← last_new_iff]
  generalize p.revertDirs.revertItls = q at *
  simp only [revertDirs] at hdirs hend' hsize'
  constructor
  · intro h slot hslot hlast
    by_contra hkept
    have := h.removed slot hslot hkept
    omega
  · intro h
    refine ⟨by omega, fun slot hslot hkept => ?_, hrev.dir, hrev.itls, hrev.idle, hrev.itl,
      by omega, by omega⟩
    by_contra hgone
    exact hkept (h slot hslot (by omega))

/-- An entry the transaction had added, and behind it one that was there before. -/
def twoFree : PcrPage where
  tail := 4092
  word a := if a = 4091 then 0xC000#16 else if a = 4090 then 0x8000#16 else 0#16
  freeEnd := 8180
  freeSize := 8000
  dirs := 2
  itls := 0

theorem revert_two_free :
    twoFree.Ok ∧ (Reverted twoFree (pcrhRevertAllocSpace twoFree) ↔ twoFree.NewLast 2) :=
  have hok : twoFree.Ok := ⟨by decide, by decide, by decide, by decide⟩
  ⟨hok, revert_alloc_space_iff twoFree hok⟩

theorem old_entry_removed :
    twoFree.Ok ∧ ¬dirIsNew (twoFree.dir 1) ∧ (pcrhRevertAllocSpace twoFree).dirs = 1 ∧
      ¬Reverted twoFree (pcrhRevertAllocSpace twoFree) := by
  refine ⟨⟨by decide, by decide, by decide, by decide⟩, by decide, by decide, fun h => ?_⟩
  exact absurd (h.removed 1 (by decide) (by decide)) (by decide)

end Cantian.Heap
