import Cantian.Cms.Gcc

/-!
# Reads that no second write overtakes

A read is safe as long as nobody writes the copy whose number it has fetched.
The second write after the number was read does, and no lock keeps it from that.
-/

namespace Cantian.Cms.Gcc

open Function Lib List Option

variable {α : Type}

/-- The copy that the reader is about to read, or is reading. -/
def Reader.holds : Reader α → Option Nat
  | .gotId gccId => some gccId
  | .reading gccId _ => some gccId
  | _ => none

/-- No block of a copy is written while a reader holds the number of that copy, and no
node crashes while the write under way follows one that was cut off. -/
def stepOk (c : Config α) (s : Sys α) : Action α → Bool
  | .writeBlock =>
    (List.range c.nodes).all fun n =>
      s.writer.all fun w => (s.reader n).holds != some (writeId w.gccId)
  | .crash _ => s.validWrite ≤ 1
  | _ => true

/-- The copy named valid is that of the last or the last but one started write. -/
def ValidCopyRecent (s : Sys α) : Prop :=
  ∃ gcc, (s.started[0]? = some gcc ∨ s.started[1]? = some gcc) ∧ s.copy s.gccId = gcc

/-- What a call has read so far is the beginning of a completed configuration. -/
def ReaderOk (c : Config α) (copy : Nat → List α) (completed : List (List α)) (n : Nat) :
    Reader α → Prop
  | .idle => True
  | .gotId gccId => n < c.nodes ∧ copy gccId ∈ completed
  | .reading gccId gcc => n < c.nodes ∧ copy gccId ∈ completed ∧ gcc <+: copy gccId
  | .done gcc => ∀ g, gcc = some g → g ∈ completed

/-- The write under way has written the first blocks of the copy that is not valid. -/
structure WriterOk (c : Config α) (validId : Nat) (copy : Nat → List α)
    (started : List (List α)) (w : Writer α) : Prop where
  gccId : w.gccId = validId
  length : w.gcc.length = c.blocks
  written : ∀ k < w.pos, (copy (writeId validId))[k]? = w.gcc[k]?
  newest : started[0]? = some w.gcc

structure SysOk (c : Config α) (s : Sys α) : Prop where
  gccId : s.gccId = 0 ∨ s.gccId = 1
  length : ∀ i, (s.copy i).length = c.blocks
  valid : s.copy s.gccId ∈ s.completed
  place : s.started[s.validWrite]? = some (s.copy s.gccId)
  writer : ∀ w, s.writer = some w → WriterOk c s.gccId s.copy s.started w
  reader : ∀ n, ReaderOk c s.copy s.completed n (s.reader n)

variable {c : Config α} {n : Nat} {s t : Sys α}

/-- More completed writes, and the copies that readers hold unchanged. -/
lemma ReaderOk.mono {copy copy' completed completed' r} (h : ReaderOk c copy completed n r)
    (hsub : ∀ g ∈ completed, g ∈ completed')
    (hcopy : n < c.nodes → ∀ i, r.holds = some i → copy' i = copy i) :
    ReaderOk c copy' completed' n r := by
  cases r with
  | idle => trivial
  | gotId i =>
    refine ⟨h.1, ?_⟩
    rw [hcopy h.1 i rfl]
    exact hsub _ h.2
  | reading i =>
    refine ⟨h.1, ?_, ?_⟩
    · rw [hcopy h.1 i rfl]
      exact hsub _ h.2.1
    · rw [hcopy h.1 i rfl]
      exact h.2.2
  | done => exact fun g hg => hsub g (h g hg)

lemma SysOk.fresh (h : s.Fresh c) : SysOk c s where
  gccId := h.gccId
  length := h.length
  valid := by
    rw [h.completed]
    exact mem_singleton_self _
  place := by
    rw [h.started, h.validWrite]
    rfl
  writer w hw := by
    cases h.writer.symm.trans hw
  reader n := by
    rw [h.reader n]
    trivial

lemma writeId_ne {i} (h : i = 0 ∨ i = 1) : writeId i ≠ i := by
  rcases h with rfl | rfl <;> decide

/-- The number is one of the two, so that the check of `cms_get_valid_gcc_id` passes. -/
lemma getValidGccId_eq {i} (h : getValidGccId s = some i) : i = s.gccId := by
  obtain ⟨-, h⟩ := ite_none_right_eq_some.mp h
  split at h
  · cases h
  · exact (some.inj h).symm

section
variable (h : SysOk c s)
include h

lemma SysOk.setReader {r l} (hr : ReaderOk c s.copy s.completed n r) :
    SysOk c { s with lock := l, reader := update s.reader n r } where
  gccId := h.gccId
  length := h.length
  valid := h.valid
  place := h.place
  writer := h.writer
  reader m := by
    show ReaderOk c s.copy s.completed m (update s.reader n r m)
    rcases eq_or_ne m n with rfl | hm
    · rw [update_self]
      exact hr
    · rw [update_of_ne hm]
      exact h.reader m

lemma SysOk.startWrite {gcc} (hstep : startWrite c s n gcc = some t) : SysOk c t := by
  unfold Gcc.startWrite at hstep
  split at hstep
  case h_2 => cases hstep
  rename_i gccId hw hid
  obtain ⟨hlen, ⟨⟩⟩ := ite_none_right_eq_some.mp hstep
  refine { h with place := ?_, writer := fun w hw' => ?_ }
  · exact h.place
  · cases hw'
    exact ⟨getValidGccId_eq hid, hlen, fun k hk => absurd hk (Nat.not_lt_zero k), rfl⟩

/-- A block goes to the copy that is not valid and that no reader holds. -/
lemma SysOk.writeBlock (hok : stepOk c s .writeBlock = true) (hstep : writeBlock s = some t) :
    SysOk c t := by
  unfold Gcc.writeBlock at hstep
  split at hstep
  case h_2 => cases hstep
  rename_i w hw
  split at hstep
  · rename_i block hblock
    cases hstep
    have hwok := h.writer w hw
    have hid := hwok.gccId
    have hne : s.gccId ≠ writeId w.gccId := hid ▸ (writeId_ne (hid ▸ h.gccId)).symm
    have hvalid : update s.copy (writeId w.gccId)
        ((s.copy (writeId w.gccId)).set w.pos block) s.gccId = s.copy s.gccId :=
      update_of_ne hne _ _
    have hfree : ∀ n < c.nodes, (s.reader n).holds ≠ some (writeId w.gccId) := by
      intro n hn
      simp only [stepOk, hw, Option.all_some, List.all_eq_true, List.mem_range, bne_iff_ne] at hok
      exact hok n hn
    refine ⟨h.gccId, fun i => ?_, ?_, ?_, fun w' hw' => ?_, fun m => ?_⟩
    · by_cases hi : i = writeId w.gccId
      · subst hi
        simp only [update_self, length_set]
        exact h.length _
      · simp only [update_of_ne hi]
        exact h.length i
    · simp only [hvalid]
      exact h.valid
    · simp only [hvalid]
      exact h.place
    · cases hw'
      refine { hwok with written := fun k hk => ?_ }
      simp only [← hid, update_self, getElem?_set]
      have hpos : w.pos < c.blocks := by
        have := List.getElem?_eq_some_iff.mp hblock
        have hlen := hwok.length
        obtain ⟨hlt, -⟩ := this
        omega
      split
      · rename_i heq
        rw [if_pos (by rw [h.length]; exact hpos), ← heq, hblock]
      · rename_i hne'
        have hlt : k < w.pos + 1 := hk
        rw [hid]
        exact hwok.written k (by omega)
    · refine (h.reader m).mono (fun g hg => hg) fun hm i hi => ?_
      have hne' : i ≠ writeId w.gccId := fun h' => hfree m hm (h' ▸ hi)
      exact update_of_ne hne' _ _
  · cases hstep

lemma SysOk.setValid (hstep : setValid c s = some t) : SysOk c t := by
  unfold Gcc.setValid at hstep
  split at hstep
  case h_2 => cases hstep
  rename_i w hw
  obtain ⟨hcond, ⟨⟩⟩ := ite_none_right_eq_some.mp hstep
  have hwok := h.writer w hw
  have hid : (if w.gccId = 0 then 1 else 0) = writeId s.gccId := by
    rw [hwok.gccId]
    rcases h.gccId with hg | hg <;> simp [hg, writeId]
  have hcopy : s.copy (writeId s.gccId) = w.gcc := by
    apply ext_getElem?
    intro k
    by_cases hk : k < c.blocks
    · exact hwok.written k (hcond.1 ▸ hk)
    · rw [getElem?_eq_none (by rw [h.length]; omega),
        getElem?_eq_none (by rw [hwok.length]; omega)]
  refine ⟨?_, h.length, ?_, ?_, fun w' hw' => ?_, fun m => ?_⟩
  · split
    · exact .inr rfl
    · exact .inl rfl
  · rw [hid, hcopy]
    exact mem_cons_self
  · rw [hid, hcopy]
    exact hwok.newest
  · cases hw'
  · exact (h.reader m).mono (fun g hg => mem_cons_of_mem _ hg) fun _ _ _ => rfl

lemma SysOk.readId (hstep : readId c s n = some t) : SysOk c t := by
  have hgot : ∀ i, getValidGccId s = some i → n < c.nodes →
      ReaderOk c s.copy s.completed n (.gotId i) := by
    intro i hi hn
    rw [getValidGccId_eq hi]
    exact ⟨hn, h.valid⟩
  unfold Gcc.readId at hstep
  split at hstep
  · rename_i i _ hid
    obtain ⟨hn, ⟨⟩⟩ := ite_none_right_eq_some.mp hstep
    exact h.setReader (hgot i hid hn)
  · rename_i i _ hid
    obtain ⟨hn, ⟨⟩⟩ := ite_none_right_eq_some.mp hstep
    exact h.setReader (hgot i hid hn)
  · cases hstep

lemma SysOk.lockCopy (hstep : lockCopy s n = some t) : SysOk c t := by
  unfold Gcc.lockCopy at hstep
  split at hstep
  case h_2 => cases hstep
  rename_i i hread
  obtain ⟨-, ⟨⟩⟩ := ite_none_right_eq_some.mp hstep
  have hrok := h.reader n
  rw [hread] at hrok
  exact h.setReader ⟨hrok.1, hrok.2, nil_prefix⟩

lemma SysOk.readBlock (hstep : readBlock s n = some t) : SysOk c t := by
  unfold Gcc.readBlock at hstep
  split at hstep
  case h_2 => cases hstep
  rename_i i gcc hread
  split at hstep
  · rename_i block hblock
    cases hstep
    have hrok := h.reader n
    rw [hread] at hrok
    refine h.setReader ⟨hrok.1, hrok.2.1, ?_⟩
    obtain ⟨rest, hrest⟩ := hrok.2.2
    rw [← hrest, getElem?_append_right (Nat.le_refl _), Nat.sub_self] at hblock
    cases rest with
    | nil => cases hblock
    | cons b rest =>
      cases hblock
      exact ⟨rest, by rw [← hrest]; simp⟩
  · cases hstep

lemma SysOk.finishRead (hstep : finishRead c s n = some t) : SysOk c t := by
  unfold Gcc.finishRead at hstep
  split at hstep
  case h_2 => cases hstep
  rename_i i gcc hread
  obtain ⟨hlen, ⟨⟩⟩ := ite_none_right_eq_some.mp hstep
  have hrok := h.reader n
  rw [hread] at hrok
  refine h.setReader fun g hg => ?_
  obtain ⟨-, ⟨⟩⟩ := ite_none_right_eq_some.mp hg
  have hall : gcc = s.copy i := hrok.2.2.eq_of_length (by rw [hlen, h.length])
  rw [hall]
  exact hrok.2.1

lemma SysOk.crash (hstep : crash s n = some t) : SysOk c t := by
  cases hstep
  have hread := h.setReader (l := if s.lock = some n then none else s.lock) (n := n)
    (r := .idle) trivial
  refine { hread with writer := fun w hw => ?_ }
  have hw' : s.writer = some w := by
    simp only at hw
    split at hw
    · cases hw
    · exact hw
  exact h.writer w hw'

end

lemma SysOk.step {c : Config α} {s t : Sys α} {a : Action α} (h : SysOk c s)
    (hok : stepOk c s a = true) (hstep : gccStep c s a = some t) : SysOk c t := by
  cases a with
  | startWrite => exact h.startWrite hstep
  | writeBlock => exact h.writeBlock hok hstep
  | setValid => exact h.setValid hstep
  | readId => exact h.readId hstep
  | lockCopy => exact h.lockCopy hstep
  | readBlock => exact h.readBlock hstep
  | finishRead => exact h.finishRead hstep
  | crash => exact h.crash hstep

lemma SysOk.reachable
    (h : ReachableBy (gccStep c) (Sys.Fresh c) (fun s a => stepOk c s a = true) s) : SysOk c s :=
  h.invariant (fun _ hf => SysOk.fresh hf) fun _ _ _ hok hs hstep => hs.step hok hstep

/-- In a run in which no held copy is written and no node crashes in a write that follows a
cut-off one, every read returns a completed configuration, and after a crash the valid copy
is that of the last or the last but one started write. -/
theorem gcc_replaced_atomically (c : Config α) (s : Sys α)
    (h : ReachableBy (gccStep c) (Sys.Fresh c) (fun s a => stepOk c s a = true) s) :
    (∀ n gcc, s.reader n = .done (some gcc) → gcc ∈ s.completed) ∧
      ∀ n t, stepOk c s (.crash n) = true → gccStep c s (.crash n) = some t →
        ValidCopyRecent t := by
  have hok := SysOk.reachable h
  refine ⟨fun n gcc hread => ?_, fun n t hcrash hstep => ?_⟩
  · have hrok := hok.reader n
    rw [hread] at hrok
    exact hrok gcc rfl
  · cases hstep
    refine ⟨s.copy s.gccId, ?_, rfl⟩
    have hle : s.validWrite ≤ 1 := of_decide_eq_true hcrash
    have hplace := hok.place
    rcases Nat.le_one_iff_eq_zero_or_eq_one.mp hle with hz | hz
    · rw [hz] at hplace
      exact .inl hplace
    · rw [hz] at hplace
      exact .inr hplace

/-- Two blocks a copy; every head block has the magic number. -/
def twoBlocks : Config Nat := { nodes := 2, blocks := 2, magicOk := fun _ => true }

def firstCopy : Sys Nat where
  gccId := 0
  copy _ := [1, 1]
  lock := none
  writer := none
  reader _ := .idle
  completed := [[1, 1]]
  started := [[1, 1]]
  validWrite := 0

lemma firstCopy_fresh : firstCopy.Fresh twoBlocks :=
  ⟨.inl rfl, fun _ => rfl, rfl, rfl, fun _ => rfl, rfl, rfl, rfl⟩

/-- A write, a read by another node, and a write that is cut off. -/
def readBetweenWrites : List (Action Nat) :=
  [.startWrite 1 [2, 2], .writeBlock, .readId 0, .writeBlock, .lockCopy 0, .readBlock 0,
   .readBlock 0, .finishRead 0, .setValid, .startWrite 1 [3, 3], .writeBlock]

theorem gcc_read_between_writes : ∃ s, ReachableBy (gccStep twoBlocks) (Sys.Fresh twoBlocks)
        (fun s a => stepOk twoBlocks s a = true) s ∧
      s.reader 0 = .done (some [1, 1]) ∧ s.started = [[3, 3], [2, 2], [1, 1]] ∧
      [1, 1] ∈ s.completed ∧ ∀ t, gccStep twoBlocks s (.crash 1) = some t → ValidCopyRecent t := by
  obtain ⟨s, hrun, hs⟩ := exists_of_runOk_map (gccStep twoBlocks) (stepOk twoBlocks) firstCopy
    readBetweenWrites (fun s => ((s.reader 0, s.started), stepOk twoBlocks s (.crash 1)))
    ((.done (some [1, 1]), [[3, 3], [2, 2], [1, 1]]), true) (by decide +kernel)
  have hreach := ReachableBy.of_runOk _ (.init firstCopy_fresh) hrun
  obtain ⟨hread, hcrash⟩ := gcc_replaced_atomically twoBlocks s hreach
  simp only [Prod.mk.injEq] at hs
  exact ⟨s, hreach, hs.1.1, hs.1.2, hread 0 [1, 1] hs.1.1, fun t ht => hcrash 1 t hs.2 ht⟩

/-- A reader has the number of copy 0. One write makes copy 1 valid, the next one has
written the first block of copy 0 when the reader comes to it. -/
def overtaken : List (Action Nat) :=
  [.readId 0, .startWrite 1 [2, 2], .writeBlock, .writeBlock, .setValid, .startWrite 1 [3, 3],
   .writeBlock, .lockCopy 0, .readBlock 0, .readBlock 0, .finishRead 0]

theorem overtaken_read_is_torn : ∃ s, Reachable (gccStep twoBlocks) (Sys.Fresh twoBlocks) s ∧
      s.reader 0 = .done (some [3, 1]) ∧ [3, 1] ∉ s.completed := by
  obtain ⟨s, hrun, hs⟩ := exists_of_run_map (gccStep twoBlocks) firstCopy overtaken
    (fun s => (s.reader 0, s.completed)) (.done (some [3, 1]), [[2, 2], [1, 1]])
    (by decide +kernel)
  simp only [Prod.mk.injEq] at hs
  refine ⟨s, .of_run _ (.init firstCopy_fresh) hrun, hs.1, ?_⟩
  rw [hs.2]
  decide

end Cantian.Cms.Gcc
