import Cantian.Recovery.History

/-!
# What the logs of a cluster have in common

`WriterOk` collects what one node's rules give: LSNs are distinct and grow
along every buffer, a batch carries the largest LSN of its groups, and two
groups of the node for one page are in LSN order along the log.
`Coherent` adds what the transfer of pages gives: of two groups on
different nodes for one page, one lies in a batch whose LSN is below the
LSN of the other group.
-/

namespace Cantian.Recovery

open List Option Bool Writer LogBatch

/-- Every group of `gs` is below every group of `gs'` that touches one of its pages. -/
def Before (gs gs' : List LogGroup) : Prop :=
  ∀ g ∈ gs, ∀ g' ∈ gs', ∀ p ∈ g.pages, p ∈ g'.pages → g.lsn < g'.lsn

/-- The groups in the buffers that a flush is assembling. -/
def Writer.closed (w : Writer) : List (List LogGroup) := w.closing.getD []

lemma Writer.buffered_eq (w : Writer) : w.buffered = w.closed.flatten ++ w.opened.flatten := rfl

/-- Groups in the order of their LSNs. -/
def LsnSorted (groups : List LogGroup) : Prop := groups.Pairwise fun g g' => g.lsn < g'.lsn

/-- The rules of one node. -/
structure WriterOk (bufCount n : Nat) (w : Writer) : Prop where
  buffered_node : ∀ g ∈ w.buffered, g.node = n
  buffered_lsn : ∀ g ∈ w.buffered, g.lsn ≤ w.lsn
  buffered_valid : ∀ g ∈ w.buffered, g.lsn < ctInvalidId64
  opened_sorted : ∀ q ∈ w.opened, LsnSorted q
  closed_sorted : ∀ q ∈ w.closed, LsnSorted q
  opened_length : w.opened.length = bufCount
  closed_length : w.closed.length ≤ bufCount
  closed_opened : Before w.closed.flatten w.opened.flatten
  log_node : ∀ b ∈ w.log, b.node = n ∧ ∀ g ∈ b.groups, g.node = n
  log_groups : ∀ b ∈ w.log, ∀ g ∈ b.groups, g.lsn ≤ w.lsn ∧ g.lsn < ctInvalidId64
  log_max : ∀ b ∈ w.log, b.lsn = maxLsn b.groups
  log_sorted : ∀ b ∈ w.log, ∀ q ∈ b.parts, LsnSorted q
  log_parts : ∀ b ∈ w.log, b.parts ≠ [] ∧ b.parts.length ≤ bufCount
  log_sound : ∀ b ∈ w.log, b.valid = true ∧ b.checksumOk = true
  log_lfn : ∀ (i : Nat) (b : LogBatch), w.log[i]? = some b → b.lfn = w.firstLfn + i + 1
  log_lsn : w.log.Pairwise fun b b' => b.lsn < b'.lsn
  log_before : w.log.Pairwise fun b b' => Before b.groups b'.groups
  log_buffered : ∀ b ∈ w.log, Before b.groups w.buffered
  distinct : ((w.log.flatMap LogBatch.groups ++ w.buffered).map LogGroup.lsn).Nodup

variable {n : Nat} {w : Writer} {bufs : List (List LogGroup)}

section
variable {k : Nat} {b : LogBatch} (h : WriterOk k n w) (hb : b ∈ w.log)
include h hb

lemma WriterOk.batch_le : b.lsn ≤ w.lsn := by
  rw [h.log_max b hb]
  exact maxLsn_le fun g hg => (h.log_groups b hb g hg).1

lemma WriterOk.group_le {g} (hg : g ∈ b.groups) : g.lsn ≤ b.lsn := by
  rw [h.log_max b hb]
  exact le_maxLsn hg

lemma WriterOk.batch_lt : b.lsn < ctInvalidId64 := by
  have hle : b.lsn ≤ ctInvalidId64 - 1 := by
    rw [h.log_max b hb]
    apply maxLsn_le
    intro g hg
    have := (h.log_groups b hb g hg).2
    omega
  unfold ctInvalidId64 at hle ⊢
  omega

end

lemma start_writerOk {bufCount}
    (h : w.opened = List.replicate bufCount [] ∧ w.closing = none ∧ w.log = []) :
    WriterOk bufCount n w := by
  obtain ⟨hopen, hclose, hlog⟩ := h
  have hclosed : w.closed = [] := by simp [closed, hclose]
  have hflat : w.opened.flatten = [] := by simp [hopen]
  have hbuf : w.buffered = [] := by rw [w.buffered_eq, hclosed, hflat]; rfl
  constructor <;> simp_all [Before, LsnSorted]

/-- A new group `g` has been put into the buffers. -/
lemma WriterOk.add {bufCount opened closing} (h : WriterOk bufCount n w) {g}
    (hperm : ((closing.getD []).flatten ++ opened.flatten).Perm (g :: w.buffered))
    (hnode : g.node = n) (hg : g.lsn = w.lsn + 1) (hlt : g.lsn < ctInvalidId64)
    (hopened : ∀ q ∈ opened, LsnSorted q) (hclosed : ∀ q ∈ closing.getD [], LsnSorted q)
    (hol : opened.length = bufCount) (hcl : (closing.getD []).length ≤ bufCount)
    (hco : Before (closing.getD []).flatten opened.flatten) :
    WriterOk bufCount n { w with lsn := w.lsn + 1, opened, closing } where
  buffered_node x hx := by
    obtain rfl | hx := mem_cons.mp (hperm.mem_iff.mp hx)
    · exact hnode
    · exact h.buffered_node x hx
  buffered_lsn x hx := by
    obtain rfl | hx := mem_cons.mp (hperm.mem_iff.mp hx)
    · exact Nat.le_of_eq hg
    · exact Nat.le_succ_of_le (h.buffered_lsn x hx)
  buffered_valid x hx := by
    obtain rfl | hx := mem_cons.mp (hperm.mem_iff.mp hx)
    · exact hlt
    · exact h.buffered_valid x hx
  opened_sorted := hopened
  closed_sorted := hclosed
  opened_length := hol
  closed_length := hcl
  closed_opened := hco
  log_groups b hb x hx :=
    ⟨Nat.le_succ_of_le (h.log_groups b hb x hx).1, (h.log_groups b hb x hx).2⟩
  log_buffered b hb x hx y hy p hpx hpy := by
    obtain rfl | hy := mem_cons.mp (hperm.mem_iff.mp hy)
    · rw [hg]
      exact Nat.lt_succ_of_le (h.log_groups b hb x hx).1
    · exact h.log_buffered b hb x hx y hy p hpx hpy
  __ := h
  distinct := by
    have hall : (w.log.flatMap groups ++ ((closing.getD []).flatten ++ opened.flatten)).Perm
        (g :: (w.log.flatMap groups ++ w.buffered)) :=
      (List.Perm.append_left _ hperm).trans perm_middle
    refine (hall.map LogGroup.lsn).nodup_iff.mpr (nodup_cons.mpr ⟨fun hmem => ?_, h.distinct⟩)
    obtain ⟨x, hx, hxl⟩ := mem_map.mp hmem
    have hle : x.lsn ≤ w.lsn := by
      obtain hx | hx := mem_append.mp hx
      · obtain ⟨b, hb, hxb⟩ := mem_flatMap.mp hx
        exact (h.log_groups b hb x hxb).1
      · exact h.buffered_lsn x hx
    omega

/-- A buffer stays sorted when a group above all others is appended. -/
lemma appendAt_sorted {part g} (hs : ∀ q ∈ bufs, LsnSorted q)
    (hlt : ∀ x ∈ bufs.flatten, x.lsn < g.lsn) : ∀ q ∈ appendAt bufs part g, LsnSorted q := by
  intro q hq
  obtain hq | ⟨q', hq', rfl⟩ := mem_appendAt_part hq
  · exact hs q hq
  · apply pairwise_append.mpr
    refine ⟨hs q' hq', pairwise_singleton _ _, fun x hx y hy => ?_⟩
    rw [mem_singleton.mp hy]
    exact hlt x (mem_flatten.mpr ⟨q', hq', hx⟩)

variable {pages : List Nat}

lemma WriterOk.writeOpened {bufCount} (h : WriterOk bufCount n w) {part}
    (hpart : part < w.opened.length) (hlt : w.lsn + 1 < ctInvalidId64) :
    WriterOk bufCount n { w with
      lsn := w.lsn + 1, opened := appendAt w.opened part ⟨n, w.lsn + 1, pages⟩ } := by
  have hbelow : ∀ x ∈ w.buffered, x.lsn < w.lsn + 1 := fun x hx =>
    Nat.lt_succ_of_le (h.buffered_lsn x hx)
  refine h.add (g := ⟨n, w.lsn + 1, pages⟩) ?_ rfl rfl hlt ?_ h.closed_sorted ?_ h.closed_length ?_
  · exact (List.Perm.append_left _ (appendAt_perm hpart _)).trans perm_middle
  · apply appendAt_sorted h.opened_sorted
    exact fun x hx => hbelow x (mem_append_right _ hx)
  · exact (length_appendAt ..).trans h.opened_length
  · intro x hx y hy p hpx hpy
    obtain rfl | hy := (mem_appendAt hpart _ y).mp hy
    · exact hbelow x (mem_append_left _ hx)
    · exact h.closed_opened x hx y hy p hpx hpy

lemma WriterOk.writeClosing {bufCount} (h : WriterOk bufCount n w) {part}
    (hbufs : w.closing = some bufs) (hpart : part < bufs.length) (hlt : w.lsn + 1 < ctInvalidId64)
    (hfresh : ∀ p ∈ pages, ∀ g ∈ w.opened.flatten, p ∉ g.pages) :
    WriterOk bufCount n { w with
      lsn := w.lsn + 1, closing := some (appendAt bufs part ⟨n, w.lsn + 1, pages⟩) } := by
  have hcl : w.closed = bufs := by simp [closed, hbufs]
  have hbelow : ∀ x ∈ w.buffered, x.lsn < w.lsn + 1 := fun x hx =>
    Nat.lt_succ_of_le (h.buffered_lsn x hx)
  have hclosed := h.closed_sorted
  have hlen := h.closed_length
  have hco := h.closed_opened
  have hperm : w.buffered = bufs.flatten ++ w.opened.flatten := by rw [w.buffered_eq, hcl]
  rw [hcl] at hclosed hlen hco
  refine h.add (g := ⟨n, w.lsn + 1, pages⟩) ?_ rfl rfl hlt h.opened_sorted ?_ h.opened_length ?_ ?_
  · rw [hperm]
    exact List.Perm.append_right _ (appendAt_perm hpart _)
  · apply appendAt_sorted hclosed
    intro x hx
    apply hbelow
    rw [hperm]
    exact mem_append_left _ hx
  · exact Nat.le_trans (Nat.le_of_eq (length_appendAt ..)) hlen
  · intro x hx y hy p hpx hpy
    obtain rfl | hx := (mem_appendAt hpart _ x).mp hx
    · exact absurd hpy (hfresh p hpx y hy)
    · exact hco x hx y hy p hpx hpy

lemma WriterOk.switched {bufCount} (h : WriterOk bufCount n w) (hnone : w.closing = none) :
    WriterOk bufCount n
      { w with closing := some w.opened, opened := w.opened.map fun _ => [] } := by
  have hclosed : w.closed = [] := by simp [closed, hnone]
  have hempty : (w.opened.map fun _ => ([] : List LogGroup)).flatten = [] := by simp
  have hbuf : buffered { w with
      closing := some w.opened, opened := w.opened.map fun _ => [] } = w.buffered := by
    rw [w.buffered_eq, hclosed, buffered_eq]
    show w.opened.flatten ++ (w.opened.map fun _ => ([] : List LogGroup)).flatten
      = [] ++ w.opened.flatten
    rw [hempty]
    simp
  exact
    { h with
      buffered_node := by rw [hbuf]; exact h.buffered_node
      buffered_lsn := by rw [hbuf]; exact h.buffered_lsn
      buffered_valid := by rw [hbuf]; exact h.buffered_valid
      opened_sorted := by
        intro q hq
        obtain ⟨_, -, rfl⟩ := mem_map.mp hq
        exact List.Pairwise.nil
      closed_sorted := h.opened_sorted
      opened_length := by
        rw [length_map]
        exact h.opened_length
      closed_length := Nat.le_of_eq h.opened_length
      closed_opened := by
        rw [hempty]
        exact fun x _ y hy => absurd hy not_mem_nil
      log_buffered := by rw [hbuf]; exact h.log_buffered
      distinct := by rw [hbuf]; exact h.distinct }

/-- The parts of an assembled batch hold the groups of the closed buffers. -/
lemma flatten_perm_of_parts {parts : List (List LogGroup)}
    (h : parts.Perm (bufs.filter fun groups => !groups.isEmpty)) :
    parts.flatten.Perm bufs.flatten := by
  apply h.flatten.trans
  apply List.Perm.of_eq
  clear h
  induction bufs with
  | nil => rfl
  | cons q => cases q <;> simp_all

lemma WriterOk.flushed {bufCount} (h : WriterOk bufCount n w) {parts : List (List LogGroup)}
    (hbufs : w.closing = some bufs)
    (hparts : parts.Perm (bufs.filter fun groups => !groups.isEmpty)) (hne : parts ≠ [])
    (hlsn : ∀ b ∈ w.log, b.lsn < maxLsn parts.flatten) :
    WriterOk bufCount n { w with closing := none, log := w.log ++ [w.assemble n parts] } := by
  have hcl : w.closed = bufs := by simp [closed, hbufs]
  have hperm : parts.flatten.Perm w.closed.flatten := by
    rw [hcl]
    exact flatten_perm_of_parts hparts
  have hmem : ∀ g, g ∈ (w.assemble n parts).groups ↔ g ∈ w.closed.flatten := fun g => hperm.mem_iff
  have hin : ∀ g ∈ (w.assemble n parts).groups, g ∈ w.buffered := fun g hg =>
    mem_append_left _ ((hmem g).mp hg)
  have hout : ∀ g ∈ w.opened.flatten, g ∈ w.buffered := fun g hg => mem_append_right _ hg
  have hbuf : buffered { w with closing := none, log := w.log ++ [w.assemble n parts] }
      = w.opened.flatten := by simp [buffered]
  have hsplit {P : LogBatch → Prop} (hold : ∀ b ∈ w.log, P b) (hnew : P (w.assemble n parts)) :
      ∀ b ∈ w.log ++ [w.assemble n parts], P b :=
    forall_mem_append.mpr ⟨hold, forall_mem_singleton.mpr hnew⟩
  have hlast {R} (hold : w.log.Pairwise R) (hnew : ∀ b ∈ w.log, R b (w.assemble n parts)) :
      (w.log ++ [w.assemble n parts]).Pairwise R :=
    pairwise_append.mpr ⟨hold, pairwise_singleton _ _, fun b hb =>
      forall_mem_singleton.mpr (hnew b hb)⟩
  have hpart : ∀ q ∈ parts, q ∈ bufs := fun q hq => (mem_filter.mp (hparts.mem_iff.mp hq)).1
  exact
    { buffered_node := by rw [hbuf]; exact fun g hg => h.buffered_node g (hout g hg)
      buffered_lsn := by rw [hbuf]; exact fun g hg => h.buffered_lsn g (hout g hg)
      buffered_valid := by rw [hbuf]; exact fun g hg => h.buffered_valid g (hout g hg)
      opened_sorted := h.opened_sorted
      closed_sorted := fun q hq => absurd hq not_mem_nil
      opened_length := h.opened_length
      closed_length := Nat.zero_le _
      closed_opened := fun x hx => absurd hx not_mem_nil
      log_node := hsplit h.log_node ⟨rfl, fun g hg => h.buffered_node g (hin g hg)⟩
      log_groups := hsplit h.log_groups fun g hg =>
        ⟨h.buffered_lsn g (hin g hg), h.buffered_valid g (hin g hg)⟩
      log_max := hsplit h.log_max rfl
      log_sorted := hsplit h.log_sorted fun q hq => h.closed_sorted q (hcl ▸ hpart q hq)
      log_parts := hsplit h.log_parts ⟨hne, by
        have hlen : parts.length ≤ bufs.length := by
          rw [hparts.length_eq]
          exact length_filter_le _ _
        have := h.closed_length
        rw [hcl] at this
        exact Nat.le_trans hlen this⟩
      log_sound := hsplit h.log_sound ⟨rfl, rfl⟩
      log_lfn := by
        intro i b hb
        rw [getElem?_append] at hb
        split_ifs at hb with hlen
        · exact h.log_lfn i b hb
        · obtain ⟨hi, hget⟩ := List.getElem?_eq_some_iff.mp hb
          simp only [length_singleton] at hi
          have hlast : i = w.log.length := by omega
          simp only [hlast, Nat.sub_self, getElem_cons_zero] at hget
          rw [← hget, hlast]
          rfl
      log_lsn := hlast h.log_lsn hlsn
      log_before := hlast h.log_before fun b hb x hx y hy => h.log_buffered b hb x hx y (hin y hy)
      log_buffered := by
        rw [hbuf]
        apply hsplit
        · exact fun b hb x hx y hy => h.log_buffered b hb x hx y (hout y hy)
        · exact fun x hx y hy => h.closed_opened x ((hmem x).mp hx) y hy
      distinct := by
        rw [hbuf]
        rw [flatMap_append, flatMap_singleton, append_assoc]
        have hall : (w.log.flatMap groups ++ ((w.assemble n parts).groups ++
            w.opened.flatten)).Perm (w.log.flatMap groups ++ w.buffered) := by
          apply List.Perm.append_left
          exact List.Perm.append_right _ hperm
        exact (hall.map LogGroup.lsn).nodup_iff.mpr h.distinct }

lemma WriterOk.raised {bufCount k} (h : WriterOk bufCount n w) :
    WriterOk bufCount n { w with lsn := max w.lsn k } :=
  { h with
    buffered_lsn := fun g hg => Nat.le_trans (h.buffered_lsn g hg) (Nat.le_max_left _ _)
    log_groups := fun b hb g hg =>
      ⟨Nat.le_trans (h.log_groups b hb g hg).1 (Nat.le_max_left _ _), (h.log_groups b hb g hg).2⟩ }

/-! ## The cluster -/

/-- The rules of all nodes and what follows from the transfer of pages. -/
structure Coherent (bufCount : Nat) (c : Cluster) : Prop where
  writers : ∀ n, WriterOk bufCount n (c.writer n)
  /-- Only the owner of a page has unflushed groups for it. -/
  owned : ∀ n, ∀ g ∈ (c.writer n).buffered, ∀ p ∈ g.pages, c.owner p = n
  /-- The owner's LSN counter has passed the batches of others that hold the page. -/
  foreign : ∀ n, ∀ b ∈ (c.writer n).log, ∀ g ∈ b.groups, ∀ p ∈ g.pages, c.owner p ≠ n →
    b.lsn ≤ (c.writer (c.owner p)).lsn
  crossBuffered : ∀ n m, n ≠ m → ∀ b ∈ (c.writer n).log, ∀ g ∈ b.groups,
    ∀ g' ∈ (c.writer m).buffered, ∀ p ∈ g.pages, p ∈ g'.pages → b.lsn < g'.lsn
  cross : ∀ n m, n ≠ m → ∀ b ∈ (c.writer n).log, ∀ g ∈ b.groups, ∀ b' ∈ (c.writer m).log,
    ∀ g' ∈ b'.groups, ∀ p ∈ g.pages, p ∈ g'.pages → b.lsn < g'.lsn ∨ b'.lsn < g.lsn

lemma Start.coherent {bufCount c} (h : c.Start bufCount) : Coherent bufCount c := by
  have hlog : ∀ n, (c.writer n).log = [] := fun n => (h n).2.2
  have hbuf : ∀ n, (c.writer n).buffered = [] := by
    intro n
    simp [buffered, (h n).1, (h n).2.1]
  constructor
  · exact fun n => start_writerOk (h n)
  all_goals simp [hlog, hbuf]

section
variable {bufCount : Nat} {c : Cluster}

/-- One node moves on: its counter does not fall, groups that enter its buffers are
for its own pages and above its counter, and batches that enter its log come
from its buffers. -/
lemma Coherent.setWriter (h : Coherent bufCount c) (hw : WriterOk bufCount n w)
    (hlsn : (c.writer n).lsn ≤ w.lsn)
    (hbuf : ∀ g ∈ w.buffered,
      g ∈ (c.writer n).buffered ∨ (c.writer n).lsn < g.lsn ∧ ∀ p ∈ g.pages, c.owner p = n)
    (hlog : ∀ b ∈ w.log, b ∈ (c.writer n).log ∨ ∀ g ∈ b.groups, g ∈ (c.writer n).buffered) :
    Coherent bufCount (c.setWriter n w) := by
  have hlsn' : ∀ m, (c.writer m).lsn ≤ ((c.setWriter n w).writer m).lsn := by
    intro m
    rcases eq_or_ne m n with rfl | hm
    · rw [c.setWriter_self]
      exact hlsn
    · exact Nat.le_of_eq (congrArg Writer.lsn (c.setWriter_ne w hm).symm)
  -- what each node's buffers and log may hold after the step
  have hbuf' : ∀ m, ∀ g ∈ ((c.setWriter n w).writer m).buffered, g ∈ (c.writer m).buffered ∨
      (c.writer m).lsn < g.lsn ∧ ∀ p ∈ g.pages, c.owner p = m := by
    intro m g hg
    rcases eq_or_ne m n with rfl | hm
    · rw [c.setWriter_self] at hg
      exact hbuf g hg
    · rw [c.setWriter_ne w hm] at hg
      exact .inl hg
  have hlog' : ∀ m, ∀ b ∈ ((c.setWriter n w).writer m).log, b ∈ (c.writer m).log ∨
      m = n ∧ ∀ g ∈ b.groups, g ∈ (c.writer m).buffered := by
    intro m b hb
    rcases eq_or_ne m n with rfl | hm
    · rw [c.setWriter_self] at hb
      exact (hlog b hb).imp_right fun hnew => ⟨rfl, hnew⟩
    · rw [c.setWriter_ne w hm] at hb
      exact .inl hb
  have howned : ∀ m, ∀ g ∈ ((c.setWriter n w).writer m).buffered, ∀ p ∈ g.pages,
      c.owner p = m := by
    intro m g hg p hp
    obtain hold | hnew := hbuf' m g hg
    · exact h.owned m g hold p hp
    · exact hnew.2 p hp
  constructor
  · intro m
    rcases eq_or_ne m n with rfl | hm
    · rw [c.setWriter_self]
      exact hw
    · rw [c.setWriter_ne w hm]
      exact h.writers m
  · exact howned
  · intro m b hb g hg p hp hne
    obtain hold | ⟨rfl, hnew⟩ := hlog' m b hb
    · exact Nat.le_trans (h.foreign m b hold g hg p hp hne) (hlsn' _)
    · exact absurd (h.owned m g (hnew g hg) p hp) hne
  · intro k m hkm b hb g hg g' hg' p hp hp'
    have hm := howned m g' hg' p hp'
    obtain hold | ⟨rfl, hnew⟩ := hlog' k b hb
    · obtain hold' | hnew' := hbuf' m g' hg'
      · exact h.crossBuffered k m hkm b hold g hg g' hold' p hp hp'
      · have hle := h.foreign k b hold g hg p hp (by rw [hm]; exact hkm.symm)
        rw [hm] at hle
        exact Nat.lt_of_le_of_lt hle hnew'.1
    · exact absurd ((h.owned k g (hnew g hg) p hp).symm.trans hm) hkm
  · intro k m hkm b hb g hg b' hb' g' hg' p hp hp'
    obtain hold | ⟨rfl, hnew⟩ := hlog' k b hb
    · obtain hold' | ⟨-, hnew'⟩ := hlog' m b' hb'
      · exact h.cross k m hkm b hold g hg b' hold' g' hg' p hp hp'
      · exact .inl (h.crossBuffered k m hkm b hold g hg g' (hnew' g' hg') p hp hp')
    · obtain hold' | ⟨rfl, hnew'⟩ := hlog' m b' hb'
      · exact .inr (h.crossBuffered m k hkm.symm b' hold' g' hg' g (hnew g hg) p hp' hp)
      · exact absurd rfl hkm

lemma Coherent.transferred (h : Coherent bufCount c) {p}
    (hflushed : ∀ g ∈ (c.writer (c.owner p)).buffered, p ∉ g.pages)
    (hlsn : (c.writer (c.owner p)).lsn ≤ (c.writer n).lsn) :
    Coherent bufCount { c with owner := fun q => if q = p then n else c.owner q } where
  writers := h.writers
  owned m g hg q hq := by
    show (if q = p then n else c.owner q) = m
    have hm := h.owned m g hg q hq
    split_ifs with hqp
    · subst hqp
      subst hm
      exact absurd hq (hflushed g hg)
    · exact hm
  foreign m b hb g hg q hq := by
    show (if q = p then n else c.owner q) ≠ m →
      b.lsn ≤ (c.writer (if q = p then n else c.owner q)).lsn
    split_ifs with hqp
    · subst hqp
      intro _
      by_cases hm : c.owner q = m
      · subst hm
        exact Nat.le_trans ((h.writers _).batch_le hb) hlsn
      · exact Nat.le_trans (h.foreign m b hb g hg q hq hm) hlsn
    · exact h.foreign m b hb g hg q hq
  crossBuffered := h.crossBuffered
  cross := h.cross

lemma anyTouches_false {groups p} (h : anyTouches groups p = false) :
    ∀ g ∈ groups, p ∉ g.pages := by
  simpa [anyTouches] using h

lemma Coherent.write (h : Coherent bufCount c) {n part late t}
    (hstep : writeStep c (.write n late part pages) = some t) : Coherent bufCount t := by
  simp only [writeStep] at hstep
  obtain ⟨hguard, hstep⟩ := ite_none_right_eq_some.mp hstep
  simp only [Bool.and_eq_true, List.all_eq_true, beq_iff_eq, decide_eq_true_eq] at hguard
  obtain ⟨⟨howner, hpart⟩, hlt⟩ := hguard
  have hnew : ∀ g : LogGroup, g = ⟨n, (c.writer n).lsn + 1, pages⟩ →
      (c.writer n).lsn < g.lsn ∧ ∀ p ∈ g.pages, c.owner p = n := by
    rintro g rfl
    exact ⟨Nat.lt_succ_self _, howner⟩
  split at hstep
  · split at hstep
    · cases hstep
    rename_i bufs hbufs
    obtain ⟨hlate, ⟨⟩⟩ := ite_none_right_eq_some.mp hstep
    have hfresh : ∀ p ∈ pages, ∀ g ∈ (c.writer n).opened.flatten, p ∉ g.pages := by
      intro p hp
      apply anyTouches_false
      simpa using all_eq_true.mp hlate.2 p hp
    apply h.setWriter ((h.writers n).writeClosing hbufs hlate.1 hlt hfresh)
      (Nat.le_succ _) _ fun b hb => .inl hb
    intro g hg
    obtain hg | hg := mem_append.mp hg
    · obtain hg | hg := (mem_appendAt hlate.1 _ g).mp hg
      · exact .inr (hnew g hg)
      · apply Or.inl
        apply mem_append_left
        rw [hbufs]
        exact hg
    · exact .inl (mem_append_right _ hg)
  · cases hstep
    apply h.setWriter ((h.writers n).writeOpened hpart hlt) (Nat.le_succ _) _ fun b hb => .inl hb
    intro g hg
    obtain hg | hg := mem_append.mp hg
    · exact .inl (mem_append_left _ hg)
    · obtain hg | hg := (mem_appendAt hpart _ g).mp hg
      · exact .inr (hnew g hg)
      · exact .inl (mem_append_right _ hg)

lemma Coherent.step (h : Coherent bufCount c) {a : WriteAction} {t : Cluster}
    (hstep : writeStep c a = some t) : Coherent bufCount t := by
  cases a with
  | write => exact h.write hstep
  | switch n =>
    simp only [writeStep] at hstep
    obtain ⟨hguard, hstep⟩ := ite_none_right_eq_some.mp hstep
    simp only [and_eq_true, isNone_iff_eq_none] at hguard
    cases hstep
    apply h.setWriter ((h.writers n).switched hguard.1) (Nat.le_refl _) _ fun b hb => .inl hb
    intro g hg
    apply Or.inl
    apply mem_append_right
    obtain hg | hg := mem_append.mp hg
    · exact hg
    · simp at hg
  | flush n parts =>
    simp only [writeStep] at hstep
    split at hstep
    · cases hstep
    rename_i bufs hbufs
    obtain ⟨hguard, hstep⟩ := ite_none_right_eq_some.mp hstep
    simp only [and_eq_true, isPerm_iff, not_eq_true', isEmpty_eq_false_iff,
      List.all_eq_true, decide_eq_true_eq] at hguard
    obtain ⟨⟨hperm, hne⟩, hinc⟩ := hguard
    cases hstep
    apply h.setWriter ((h.writers n).flushed hbufs hperm hne hinc) (Nat.le_refl _)
    · intro g hg
      apply Or.inl
      apply List.mem_append_right
      simpa [buffered] using hg
    · intro b hb
      obtain hb | hb := mem_append.mp hb
      · exact .inl hb
      · rw [mem_singleton.mp hb]
        apply Or.inr
        intro g hg
        apply mem_append_left
        rw [hbufs]
        exact (flatten_perm_of_parts hperm).mem_iff.mp hg
  | raise n =>
    cases hstep
    exact h.setWriter (h.writers n).raised (Nat.le_max_left _ _) (fun g hg => .inl hg)
      fun b hb => .inl hb
  | transfer p n =>
    simp only [writeStep] at hstep
    obtain ⟨hguard, hstep⟩ := ite_none_right_eq_some.mp hstep
    simp only [and_eq_true, not_eq_true', decide_eq_true_eq] at hguard
    cases hstep
    exact h.transferred (anyTouches_false hguard.1) hguard.2

lemma coherent_of_reachable (h : Lib.Reachable writeStep (Cluster.Start bufCount) c) :
    Coherent bufCount c :=
  h.invariant (fun _ hc => Start.coherent hc) fun _ _ _ _ hc hstep => hc.step hstep

end

end Cantian.Recovery
