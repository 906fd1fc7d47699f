import Cantian.Recovery.Fetch

/-!
# The read buffers of one node

`Window bufSize k node l` says what the ring of read buffers stands for: the
`k` buffers from the read index on are filled, the reader goes on at the
write index behind them, and the batches still to come from this node are
`l`, first those in the filled buffers and then those not read yet. The
reader and `dtc_update_batch` change the window but not `l`.
-/

namespace Cantian.Recovery

open Lib List Option

open Lib (slotAt)

/-- A filled read buffer; only the first one may have been consumed. -/
structure Filled (buf : ReadBuf) (i : Nat) : Prop where
  ready : buf.ready = true
  notFinished : buf.notFinished = true
  readSize : ∃ m, buf.readSize = some (m + 1)
  batches : 0 < i → buf.batches ≠ []

/-- What the read buffers of a node stand for. -/
structure Window (bufSize k : Nat) (node : RcyNode) (l : List LogBatch) : Prop where
  read_lt : node.readIndex < bufSize
  count_le : k ≤ bufSize
  write_eq : node.writeIndex = slotAt bufSize node.readIndex k
  filled : ∀ i < k, Filled (node.bufs (slotAt bufSize node.readIndex i)) i
  free : ∀ i, k ≤ i → i < bufSize →
    (node.bufs (slotAt bufSize node.readIndex i)).ready = false ∧
    ((node.bufs (slotAt bufSize node.readIndex i)).readSize = none ∨
      i = k ∧ (node.bufs (slotAt bufSize node.readIndex i)).readSize = some 0 ∧ node.unread = [])
  pending : l = ((List.range k).flatMap fun i =>
    (node.bufs (slotAt bufSize node.readIndex i)).batches) ++ node.unread

section
variable {bufSize k : Nat} {node : RcyNode} {l : List LogBatch}

section
variable (h : Window bufSize k node l)
include h

lemma Window.slot_zero :
    slotAt bufSize node.readIndex 0 = node.readIndex := slotAt_zero h.read_lt

lemma Window.first (hk : 0 < k) : Filled (node.bufs node.readIndex) 0 := by
  have hfilled := h.filled 0 hk
  rwa [h.slot_zero] at hfilled

lemma Window.empty (hk : k = 0) :
    node.writeIndex = node.readIndex ∧ (node.bufs node.readIndex).ready = false ∧
     ((node.bufs node.readIndex).readSize = none ∨
       (node.bufs node.readIndex).readSize = some 0 ∧ node.unread = []) ∧ l = node.unread := by
  subst hk
  have hfree := h.free 0 (Nat.le_refl 0) (by have := h.read_lt; omega)
  rw [h.slot_zero] at hfree
  refine ⟨h.write_eq.trans h.slot_zero, hfree.1, hfree.2.imp_right fun hz => hz.2, ?_⟩
  rw [h.pending]
  rfl

/-- Nothing was read into the current buffer: no buffer is filled. -/
lemma Window.count_eq_zero (hsize : ∀ m, (node.bufs node.readIndex).readSize ≠ some (m + 1)) :
    k = 0 := by
  apply Nat.eq_zero_of_not_pos
  intro hk
  obtain ⟨m, hm⟩ := (h.first hk).readSize
  exact hsize m hm

lemma Window.count_pos {m} (hm : m ≠ 0) (hsize : (node.bufs node.readIndex).readSize = some m) :
    0 < k := by
  apply Nat.pos_of_ne_zero
  intro hk
  obtain ⟨-, -, hnone | ⟨hz, -⟩, -⟩ := h.empty hk
  · cases hsize.symm.trans hnone
  · exact hm (some.inj (hsize.symm.trans hz))

/-- The reader finds its buffer free only when not all buffers are filled. -/
lemma Window.count_lt (hready : (node.bufs node.writeIndex).ready = false) : k < bufSize := by
  apply Nat.lt_of_le_of_ne h.count_le
  intro hk
  have hpos : 0 < k := by have := h.read_lt; omega
  have hwrap : node.writeIndex = node.readIndex := by
    rw [h.write_eq, hk]
    unfold slotAt
    rw [Nat.add_mod_right, Nat.mod_eq_of_lt h.read_lt]
  have hfirst := (h.first hpos).ready
  rw [← hwrap, hready] at hfirst
  cases hfirst

end

lemma setBuf_ne {i j} (b : ReadBuf) (h : j ≠ i) :
    (node.setBuf i b).bufs j = node.bufs j := if_neg h

@[simp] lemma setBuf_self {i} (b : ReadBuf) : (node.setBuf i b).bufs i = b := if_pos rfl

@[simp] lemma setBuf_readIndex {i} (b : ReadBuf) : (node.setBuf i b).readIndex = node.readIndex :=
  rfl

@[simp] lemma setBuf_unread {i} (b : ReadBuf) : (node.setBuf i b).unread = node.unread := rfl

section
variable (h : Window bufSize k node l)
include h

lemma Window.bufs_ne {i j} (hi : i < bufSize) (hj : j < bufSize) (hij : j ≠ i) (b : ReadBuf) :
   (node.setBuf (slotAt bufSize node.readIndex i) b).bufs (slotAt bufSize node.readIndex j)
      = node.bufs (slotAt bufSize node.readIndex j) :=
  setBuf_ne b fun he => hij (slotAt_inj h.read_lt hj hi he)

lemma Window.bufs_read_ne {j} (hj : j < bufSize) (hj0 : j ≠ 0) (b : ReadBuf) :
    (node.setBuf node.readIndex b).bufs (slotAt bufSize node.readIndex j)
      = node.bufs (slotAt bufSize node.readIndex j) := by
  have hne := h.bufs_ne (Nat.zero_lt_of_lt hj) hj hj0 b
  rwa [h.slot_zero] at hne

lemma Window.readEnd (hready : (node.bufs node.writeIndex).ready = false)
    (hunread : node.unread = []) (more : Bool) :
    Window bufSize k (node.setBuf node.writeIndex ⟨false, some 0, [], more⟩) l := by
  have hk := h.count_lt hready
  rw [h.write_eq]
  refine { h with filled := ?_, free := ?_, pending := ?_ }
  · intro i hi
    rw [setBuf_readIndex, h.bufs_ne hk (by omega) (by omega)]
    exact h.filled i hi
  · intro i hki hi
    rw [setBuf_readIndex, setBuf_unread]
    rcases eq_or_ne i k with rfl | hik
    · rw [setBuf_self]
      exact ⟨rfl, .inr ⟨rfl, rfl, hunread⟩⟩
    · rw [h.bufs_ne hk hi hik]
      exact h.free i hki hi
  · rw [h.pending, setBuf_unread]
    congr 1
    apply flatMap_congr
    intro i hi
    have := mem_range.mp hi
    rw [setBuf_readIndex, h.bufs_ne hk (by omega) (by omega)]

lemma Window.readChunk (hready : (node.bufs node.writeIndex).ready = false)
    (hunread : node.unread ≠ []) (count : Nat) : Window bufSize (k + 1)
     { node.setBuf node.writeIndex ⟨true, some (node.unread.take (count + 1)).length,
          node.unread.take (count + 1), true⟩ with
        writeIndex := (node.writeIndex + 1) % bufSize
        unread := node.unread.drop (count + 1) } l := by
  have hk := h.count_lt hready
  have hpos : 0 < (node.unread.take (count + 1)).length := by
    have := length_pos_iff.mpr hunread
    rw [length_take]
    omega
  rw [h.write_eq]
  refine ⟨h.read_lt, hk, ?_, ?_, ?_, ?_⟩
  · rw [← slotAt_slotAt]
    rfl
  · intro i hi
    rw [setBuf_readIndex]
    rcases eq_or_ne i k with rfl | hik
    · rw [setBuf_self]
      refine ⟨rfl, rfl, ⟨(node.unread.take (count + 1)).length - 1, ?_⟩, fun _ => ?_⟩
      · show some _ = some _
        congr 1
        omega
      · exact length_pos_iff.mp hpos
    · rw [h.bufs_ne hk (by omega) hik]
      exact h.filled i (by omega)
  · intro i hki hi
    rw [setBuf_readIndex, h.bufs_ne hk hi (by omega)]
    obtain ⟨hfree, hsize | ⟨hik, -, -⟩⟩ := h.free i (by omega) hi
    · exact ⟨hfree, .inl hsize⟩
    · omega
  · rw [h.pending, range_succ, flatMap_append, flatMap_singleton]
    rw [setBuf_readIndex, setBuf_self, append_assoc, take_append_drop]
    congr 1
    apply flatMap_congr
    intro i hi
    have := mem_range.mp hi
    rw [h.bufs_ne hk (by omega) (by omega)]

end

variable {node' : RcyNode}

lemma Window.readNodeLog (h : Window bufSize k node l) {count more}
    (hread : readNodeLog bufSize count more node = some node') :
    (∃ k', Window bufSize k' node' l) ∧ node'.rcyLfn = node.rcyLfn ∧
      node'.recoverDone = node.recoverDone := by
  simp only [Recovery.readNodeLog, List.isEmpty_iff] at hread
  split at hread
  · cases hread
  rename_i hguard
  simp only [Bool.or_eq_true, not_or, Bool.not_eq_true] at hguard
  split at hread
  · rename_i hunread
    split at hread
    · cases hread
    · cases hread
      exact ⟨⟨k, h.readEnd hguard.1 hunread more⟩, rfl, rfl⟩
  · rename_i hunread
    cases hread
    exact ⟨⟨k + 1, h.readChunk hguard.1 hunread count⟩, rfl, rfl⟩

/-! ## The fetch side -/

lemma Window.rotate (h : Window bufSize (k + 1) node l)
    (hempty : (node.bufs node.readIndex).batches = []) :
    Window bufSize k { releaseBuf node with readIndex := (node.readIndex + 1) % bufSize } l := by
  have hcount := h.count_le
  have hpos : 0 < bufSize := by omega
  have hslot : ∀ i, slotAt bufSize ((node.readIndex + 1) % bufSize) i
      = slotAt bufSize node.readIndex (i + 1) := by
    intro i
    rw [Nat.add_comm i 1, ← slotAt_slotAt]
    rfl
  have hother : ∀ i, i + 1 < bufSize →
      (releaseBuf node).bufs (slotAt bufSize node.readIndex (i + 1))
        = node.bufs (slotAt bufSize node.readIndex (i + 1)) :=
    fun i hi => h.bufs_read_ne hi (Nat.succ_ne_zero i) _
  refine ⟨Nat.mod_lt _ hpos, by omega, ?_, ?_, ?_, ?_⟩
  · show node.writeIndex = slotAt bufSize ((node.readIndex + 1) % bufSize) k
    rw [hslot, h.write_eq]
  · intro i hi
    rw [hslot, hother i (by omega)]
    have hf := h.filled (i + 1) (by omega)
    exact { hf with batches := fun _ => hf.batches (Nat.succ_pos i) }
  · intro i hki hi
    rw [hslot]
    by_cases hlast : i + 1 = bufSize
    · -- the released buffer becomes the last one of the ring
      have hwrap : slotAt bufSize node.readIndex (i + 1) = node.readIndex := by
        unfold slotAt
        rw [hlast, Nat.add_mod_right, Nat.mod_eq_of_lt h.read_lt]
      rw [hwrap]
      unfold releaseBuf
      rw [setBuf_self]
      exact ⟨rfl, .inl rfl⟩
    · rw [hother i (by omega)]
      obtain ⟨hfree, hsize⟩ := h.free (i + 1) (by omega) (by omega)
      exact ⟨hfree, hsize.imp_right fun ⟨hik, hzero, hun⟩ => ⟨by omega, hzero, hun⟩⟩
  · rw [h.pending, range_succ_eq_map, flatMap_cons, h.slot_zero, hempty, nil_append, flatMap_map]
    refine congrArg (· ++ node.unread) (flatMap_congr fun i hi => ?_)
    have := mem_range.mp hi
    rw [hslot, hother i (by omega)]

lemma checkNodeReadEnd_done (h : (node.bufs node.readIndex).readSize = some 0) :
    checkNodeReadEnd node = { node with recoverDone := true } := by
  simp [checkNodeReadEnd, h]

lemma checkNodeReadEnd_filled {i} (h : Filled (node.bufs node.readIndex) i) :
    checkNodeReadEnd node = node := by
  obtain ⟨m, hm⟩ := h.readSize
  simp [checkNodeReadEnd, h.notFinished, hm]

section
variable (h : Window bufSize k node l)
include h

lemma Window.withDone :
    Window bufSize k { node with recoverDone := true } l :=
  { h with }

/-- What `dtc_update_batch` leaves: the log is at its end, or the current buffer has a
next batch. -/
lemma Window.update (hdone : node.recoverDone = false)
    (hu : dtcUpdateBatch bufSize node = some node') :
    ∃ k', Window bufSize k' node' l ∧ node'.rcyLfn = node.rcyLfn ∧
     (node'.recoverDone = true ∧ l = [] ∨
        node'.recoverDone = false ∧ 0 < k' ∧ (node'.bufs node'.readIndex).batches ≠ []) := by
  unfold dtcUpdateBatch at hu
  split at hu
  · cases hu
  · rename_i hzero
    have hk : k = 0 := h.count_eq_zero (by simp [hzero])
    obtain ⟨hw, hready, hsize, hl⟩ := h.empty hk
    have hunread : node.unread = [] := by
      obtain hnone | ⟨-, hun⟩ := hsize
      · cases hzero.symm.trans hnone
      · exact hun
    cases hu
    rw [checkNodeReadEnd_done hzero]
    refine ⟨0, ?_, rfl, .inl ⟨rfl, hl.trans hunread⟩⟩
    subst hk
    refine { h with filled := fun i hi => absurd hi (Nat.not_lt_zero i), free := ?_ }
    intro i hi hlt
    have hdone := h.withDone
    rw [releaseBuf, setBuf_readIndex]
    rcases eq_or_ne i 0 with rfl | hi0
    · rw [hdone.slot_zero, setBuf_self]
      exact ⟨rfl, .inl rfl⟩
    · rw [hdone.bufs_read_ne hlt hi0]
      obtain ⟨hfree, hnone | ⟨hik, -, -⟩⟩ := h.free i hi hlt
      · exact ⟨hfree, .inl hnone⟩
      · exact absurd hik hi0
  · rename_i m hne hm
    have hk : 0 < k := h.count_pos hne hm
    split_ifs at hu with hnil
    · obtain ⟨k, rfl⟩ : ∃ j, k = j + 1 := ⟨k - 1, by omega⟩
      have hrot := h.rotate (isEmpty_iff.mp hnil)
      generalize hnode : ({ releaseBuf node with
        readIndex := (node.readIndex + 1) % bufSize } : RcyNode) = rot at hu hrot
      simp only at hu
      have hlfn : rot.rcyLfn = node.rcyLfn := by rw [← hnode]; rfl
      have hrd : rot.recoverDone = false := by rw [← hnode]; exact hdone
      split at hu
      · cases hu
      rename_i hsome
      cases hu
      cases k with
      | zero =>
        obtain ⟨-, -, hnone | ⟨hz, hun⟩, hl⟩ := hrot.empty rfl
        · rw [hnone] at hsome
          exact absurd rfl hsome
        · rw [checkNodeReadEnd_done hz]
          exact ⟨0, hrot.withDone, hlfn, .inl ⟨rfl, hl.trans hun⟩⟩
      | succ k =>
        have hfirst := hrot.first (Nat.succ_pos k)
        rw [checkNodeReadEnd_filled hfirst]
        refine ⟨k + 1, hrot, hlfn, .inr ⟨hrd, Nat.succ_pos k, ?_⟩⟩
        -- the second buffer of the old window has not been touched
        have hbatches := (h.filled 1 (by omega)).batches Nat.one_pos
        have hsame : rot.bufs rot.readIndex = node.bufs (slotAt bufSize node.readIndex 1) := by
          have := h.count_le
          rw [← hnode]
          exact h.bufs_read_ne (by omega) Nat.one_ne_zero _
        rw [hsame]
        exact hbatches
    · cases hu
      exact ⟨k, h, rfl, .inr ⟨hdone, hk, fun he => hnil (isEmpty_iff.mpr he)⟩⟩

lemma Window.take (hk : 0 < k) (hne : (node.bufs node.readIndex).batches ≠ []) :
    ∃ b rest, l = b :: rest ∧ (∃ tl, (node.bufs node.readIndex).batches = b :: tl) ∧
      Window bufSize k (takeBatch b node) rest := by
  obtain ⟨k, rfl⟩ : ∃ j, k = j + 1 := ⟨k - 1, by omega⟩
  have hcount := h.count_le
  obtain ⟨b, tl, hb⟩ := exists_cons_of_ne_nil hne
  have hsame : ∀ i < bufSize, i ≠ 0 → (takeBatch b node).bufs
     (slotAt bufSize node.readIndex i) = node.bufs (slotAt bufSize node.readIndex i) :=
    fun i hi hi0 => h.bufs_read_ne hi hi0 _
  have hzero : (takeBatch b node).bufs (slotAt bufSize node.readIndex 0)
      = { node.bufs node.readIndex with batches := tl } := by
    rw [h.slot_zero]
    show (node.setBuf _ _).bufs node.readIndex = _
    rw [setBuf_self, hb]
    rfl
  have hread : (takeBatch b node).readIndex = node.readIndex := rfl
  have hl := h.pending
  rw [range_succ_eq_map, flatMap_cons, flatMap_map, h.slot_zero, hb] at hl
  refine ⟨b, _, hl, ⟨tl, hb⟩, { h with filled := ?_, free := ?_, pending := ?_ }⟩
  · intro i hi
    have hf := h.filled i hi
    rw [hread]
    rcases eq_or_ne i 0 with rfl | hi0
    · rw [hzero]
      rw [h.slot_zero] at hf
      exact { hf with batches := fun h0 => absurd h0 (Nat.lt_irrefl 0) }
    · rw [hsame i (by omega) hi0]
      exact hf
  · intro i hki hi
    rw [hread, hsame i hi (by omega)]
    exact h.free i hki hi
  · rw [range_succ_eq_map, flatMap_cons, flatMap_map, hread, hzero]
    refine congrArg (tl ++ · ++ node.unread) (flatMap_congr fun i hi => ?_)
    have := mem_range.mp hi
    rw [hsame (i + 1) (by omega) (Nat.succ_ne_zero i)]

end

/-- A node whose batches still to come are `l`. -/
structure NodeOk (bufSize : Nat) (node : RcyNode) (l : List LogBatch) : Prop where
  window : ∃ k, Window bufSize k node l
  done : node.recoverDone = true → l = []
  lfn : ∀ (i : Nat) (b : LogBatch), l[i]? = some b → b.lfn = node.rcyLfn + i + 1
  sound : ∀ b ∈ l, b.valid = true ∧ b.checksumOk = true ∧ b.lsn < ctInvalidId64

lemma NodeOk.read (h : NodeOk bufSize node l) {count more}
    (hread : readNodeLog bufSize count more node = some node') : NodeOk bufSize node' l := by
  obtain ⟨k, hk⟩ := h.window
  obtain ⟨hwin, hlfn, hdone⟩ := hk.readNodeLog hread
  exact ⟨hwin, by rw [hdone]; exact h.done, by rw [hlfn]; exact h.lfn, h.sound⟩

/-- A round of the fetch loop finds the next batch of the node, if there is one. -/
lemma NodeOk.visit (h : NodeOk bufSize node l) {strict v}
    (hv : visitNode bufSize strict node = some (node', v)) :
    NodeOk bufSize node' l ∧ (l = [] ∧ v = .skip ∨
      ∃ b rest, l = b :: rest ∧ v = .offer b ∧ NodeOk bufSize (takeBatch b node') rest) := by
  unfold visitNode at hv
  split at hv
  · rename_i hdone
    cases hv
    exact ⟨h, .inl ⟨h.done hdone, rfl⟩⟩
  rename_i hdone
  obtain ⟨upd, hupd, hres⟩ := map_eq_some_iff.mp hv
  obtain ⟨k, hk⟩ := h.window
  obtain ⟨k', hwin, hlfn, ⟨hend, hl⟩ | ⟨hgo, hpos, hne⟩⟩ :=
    hk.update (Bool.eq_false_iff.mpr hdone) hupd
  · simp only [hend, if_true] at hres
    cases hres
    exact ⟨⟨⟨k', hwin⟩, fun _ => hl, by rw [hlfn]; exact h.lfn, h.sound⟩, .inl ⟨hl, rfl⟩⟩
  · have hok : NodeOk bufSize upd l := by
      refine ⟨⟨k', hwin⟩, ?_, by rw [hlfn]; exact h.lfn, h.sound⟩
      rw [hgo]
      intro he
      cases he
    obtain ⟨b, rest, hl, ⟨tl, htl⟩, htake⟩ := hwin.take hpos hne
    have hsound := h.sound b (hl ▸ mem_cons_self)
    have hnext : b.lfn = upd.rcyLfn + 1 := by
      rw [hlfn]
      exact h.lfn 0 b (by rw [hl]; rfl)
    simp only [hgo, (hwin.first hpos).ready, htl, hsound.1, hsound.2.1, hnext] at hres
    simp only [Bool.not_true, Bool.false_eq_true, if_false, ne_eq, not_true] at hres
    cases hres
    refine ⟨hok, .inr ⟨b, rest, hl, rfl, ⟨k', htake⟩, ?_, ?_, ?_⟩⟩
    · show node'.recoverDone = true → rest = []
      rw [hgo]
      intro he
      cases he
    · intro i b' hb'
      have hb'' := h.lfn (i + 1) b' (by rw [hl]; exact hb')
      show b'.lfn = b.lfn + i + 1
      rw [hnext, hlfn]
      omega
    · exact fun b' hb' => h.sound b' (hl ▸ mem_cons_of_mem b hb')

/-- When the fetch waits for a node, the reader can move on for it. -/
lemma NodeOk.visit_none (h : NodeOk bufSize node l) (hsize : 2 ≤ bufSize) {strict}
    (hv : visitNode bufSize strict node = none) (count : Nat) (more : Bool) :
    ∃ node', readNodeLog bufSize count more node = some node' := by
  obtain ⟨k, hk⟩ := h.window
  -- the reader's buffer is free and not marked as the end of the log
  have hfree : node.recoverDone = false ∧ (node.bufs node.writeIndex).ready = false ∧
      (node.bufs node.writeIndex).readSize = none := by
    unfold visitNode at hv
    split at hv
    · cases hv
    rename_i hdone
    refine ⟨Bool.eq_false_iff.mpr hdone, ?_⟩
    have hupd := map_eq_none_iff.mp hv
    unfold dtcUpdateBatch at hupd
    split at hupd
    · rename_i hnone
      obtain ⟨hw, hready, -, -⟩ := hk.empty (hk.count_eq_zero (by simp [hnone]))
      rw [hw]
      exact ⟨hready, hnone⟩
    · cases hupd
    · rename_i m hne hm
      split at hupd
      · rename_i hnil
        have hpos : 0 < k := hk.count_pos hne hm
        obtain ⟨k, rfl⟩ : ∃ j, k = j + 1 := ⟨k - 1, by omega⟩
        have hrot := hk.rotate (isEmpty_iff.mp hnil)
        simp only at hupd
        split at hupd
        · rename_i hnone
          have hnone := isNone_iff_eq_none.mp hnone
          have hk0 : k = 0 := hrot.count_eq_zero (by simp [hnone])
          obtain ⟨hw, hready, -, -⟩ := hrot.empty hk0
          subst hk0
          have hsame : (releaseBuf node).bufs node.writeIndex = node.bufs node.writeIndex := by
            rw [hk.write_eq]
            exact hk.bufs_read_ne (by omega) Nat.one_ne_zero _
          have hw : node.writeIndex = (node.readIndex + 1) % bufSize := hw
          rw [← hsame, hw]
          exact ⟨hready, hnone⟩
        · cases hupd
      · cases hupd
  obtain ⟨hdone, hready, hnone⟩ := hfree
  simp only [Recovery.readNodeLog, hdone, hready, hnone]
  cases hun : node.unread with
  | nil | cons => exact ⟨_, rfl⟩

end

end Cantian.Recovery
