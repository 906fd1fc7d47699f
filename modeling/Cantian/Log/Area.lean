import Cantian.Log.Commit

/-!
# The two sets of redo buffers

`AreaOk` is the invariant of the buffers, the lfn counters and the disk. The
set that is written to carries the lfn that the next batch but one, or the
next batch, will get; the other set is empty except while a flush assembles
it. `SessionOk` says where a session and the groups that it has written are.
What one session or the flush does to the area leaves the other sessions
alone: this is `Frame`.
-/

namespace Cantian.Log

open Function Area Buffer

/-! ## Slots of a buffer -/

lemma getElem?_findIdx_isNone (l : List (Option Group)) (h : l.all Option.isSome = false) :
    l[l.findIdx Option.isNone]? = some none := by
  obtain ⟨o, hmem, ho⟩ := List.all_eq_false.mp h
  have hlt : l.findIdx Option.isNone < l.length := by
    refine List.findIdx_lt_length_of_exists ⟨o, hmem, ?_⟩
    simpa using ho
  rw [List.getElem?_eq_getElem hlt]
  have := List.findIdx_getElem (w := hlt)
  simpa using this

lemma all_isSome_set_none (l : List (Option Group)) (k : Nat) (h : l.all Option.isSome = false) :
    (l.set k none).all Option.isSome = false := by
  obtain ⟨o, hmem, ho⟩ := List.all_eq_false.mp h
  have hnone : o = none := by simpa using ho
  subst hnone
  obtain ⟨i, hi, hget⟩ := List.getElem_of_mem hmem
  refine List.all_eq_false.mpr ⟨none, ?_, by simp⟩
  refine List.mem_of_getElem? (i := i) ?_
  rw [List.getElem?_set]
  by_cases hk : k = i
  · simp [hk, hi]
  · simp [hk, List.getElem?_eq_getElem hi, hget]

variable {l : List (Option Group)} {g : Group}

variable {k j : Nat} {h : Group}

lemma getElem?_set_free (hk : l[k]? = some none) (hj : l[j]? = some (some h)) :
    (l.set k (some g))[j]? = some (some h) := by
  have hkj : k ≠ j := by
    intro hkj
    rw [hkj, hj] at hk
    simp at hk
  rw [List.getElem?_set_ne hkj, hj]

lemma getElem?_set_taken (hk : l[k]? = some (some g)) (hne : h ≠ g) (hj : l[j]? = some (some h)) :
    (l.set k none)[j]? = some (some h) := by
  have hkj : k ≠ j := by
    intro hkj
    rw [hkj, hj] at hk
    exact hne (by simpa using hk)
  rw [List.getElem?_set_ne hkj, hj]

lemma getElem?_set_self_of_some {o} (hk : l[k]? = some o) (o' : Option Group) :
    (l.set k o')[k]? = some o' := by
  have hlt := (List.getElem?_eq_some_iff.mp hk).1
  simp [hlt]

/-- A group other than the one whose slot is cleared keeps its slot. -/
lemma mem_set_none_or (hk : l[k]? = some (some g)) (hmem : some h ∈ l) :
    h = g ∨ some h ∈ l.set k none := by
  obtain ⟨j, hj⟩ := List.mem_iff_getElem?.mp hmem
  by_cases hne : h = g
  · exact .inl hne
  · exact .inr (List.mem_of_getElem? (getElem?_set_taken hk hne hj))

lemma mem_set_free (hk : l[k]? = some none) (hmem : some h ∈ l) : some h ∈ l.set k (some g) := by
  obtain ⟨j, hj⟩ := List.mem_iff_getElem?.mp hmem
  exact List.mem_of_getElem? (getElem?_set_free hk hj)

/-! ## The invariant of the area -/

def Area.todo (a : Area) : List Nat :=
  match a.flush with
  | some ⟨_, .assembling todo _ _⟩ => todo
  | _ => []

def Area.parts (a : Area) : List Group :=
  match a.flush with
  | some ⟨_, .assembling _ parts _⟩ => parts
  | _ => []

/-- A flush has switched the buffers and not yet written its batch. -/
def Area.closing (a : Area) : Bool :=
  match a.flush with
  | some ⟨_, .assembling _ _ _⟩ => true
  | _ => false

structure AreaOk (c : Config) (a : Area) : Prop where
  nextLfn : a.bufLfn a.wid = if a.closing then a.lfn + 2 else a.lfn + 1
  closingLfn : a.closing = true → a.bufLfn (!a.wid) = a.lfn + 1
  flushedLe : a.flushedLfn ≤ a.lfn
  writtenLfn : ∀ caller b, a.flush = some ⟨caller, .written b⟩ → b.lfn = a.lfn
  groupLfn : ∀ i < c.bufCount, ∀ set, ∀ g ∈ (a.bufs i set).groups, g.lfn = a.bufLfn set
  groupCopy : ∀ i < c.bufCount, ∀ set, ∀ g ∈ (a.bufs i set).groups,
    g ∈ a.copied ∨ some g ∈ (a.bufs i set).slots
  used : ∀ i < c.bufCount, ∀ set, (a.bufs i set).writePos = 0 → (a.bufs i set).groups = []
  todoLt : ∀ i ∈ a.todo, i < c.bufCount
  drained : ∀ i < c.bufCount, i ∉ a.todo →
    (a.bufs i (!a.wid)).groups = [] ∧ (a.bufs i (!a.wid)).lock = none
  partsOk : ∀ g ∈ a.parts, g.lfn = a.lfn + 1 ∧ g ∈ a.copied
  diskOk : ∀ b ∈ a.disk, ∀ g ∈ b.groups, g.lfn = b.lfn ∧ g ∈ a.copied

def Area.OnDisk (a : Area) (g : Group) : Prop := ∃ b ∈ a.disk, g ∈ b.groups

/-- A group is on disk, in a batch that is being assembled, or in buffer `i`. -/
def Area.Located (a : Area) (i : Nat) (g : Group) : Prop :=
  a.OnDisk g ∨ g ∈ a.parts ∨ ∃ set, g ∈ (a.bufs i set).groups

/-- Every group of the session is on disk. -/
def Area.Durable (a : Area) (v : Session) : Prop := ∀ g ∈ v.written, a.OnDisk g

/-- No group of session `s` is in the set that is written to. -/
def Area.Sealed (c : Config) (a : Area) (s : Nat) (v : Session) : Prop :=
  ∀ g ∈ v.written, g ∉ (a.bufs (c.bufId s) a.wid).groups

/-- What the stage of a session says about the area. -/
def StageOk (c : Config) (a : Area) (s : Nat) (v : Session) : Prop :=
  match v.stage with
  | .writing size | .noSpace size | .makingSpace size => 0 < size
  | .locked size set => 0 < size ∧ (a.bufs (c.bufId s) set).lock = some s ∧
      (a.bufs (c.bufId s) set).slotsFull = false ∧ v.currLfn = a.bufLfn set
  | .copying set slot g => g.session = s ∧
      (a.bufs (c.bufId s) set).slots[slot]? = some (some g)
  | .waiting => v.progress = .completed → a.Durable v
  | .committed => a.Durable v
  | _ => True

structure SessionOk (c : Config) (a : Area) (s : Nat) (v : Session) : Prop where
  seen : v.currLfn ≤ a.bufLfn a.wid
  own : ∀ g ∈ v.written, g.session = s
  writtenLfn : ∀ g ∈ v.written, g.lfn ≤ v.currLfn
  writtenLsn : ∀ g ∈ v.written, g.lsn ≤ a.lsn
  located : ∀ g ∈ v.written, a.Located (c.bufId s) g
  stage : StageOk c a s v

lemma Config.bufId_lt (c : Config) (s : Nat) : c.bufId s < c.bufCount :=
  Nat.mod_lt _ c.bufCount_pos

@[simp] lemma Area.setBuf_self (a : Area) (i : Nat) (set : Bool) (b : Buffer) :
    (a.setBuf i set b).bufs i set = b := by
  simp [setBuf]

lemma Area.setBuf_of_ne (a : Area) {i set t} (b : Buffer) (h : ¬(j = i ∧ t = set)) :
    (a.setBuf i set b).bufs j t = a.bufs j t := by
  simp [setBuf, h]

lemma Area.todo_of_not_closing {a : Area} (h : a.closing = false) : a.todo = [] := by
  unfold todo
  unfold closing at h
  split at h <;> simp_all

lemma Area.parts_of_not_closing {a : Area} (h : a.closing = false) : a.parts = [] := by
  unfold parts
  unfold closing at h
  split at h <;> simp_all

/-- Without a flush that assembles, the set that is not written to is empty. -/
lemma AreaOk.empty_of_not_closing {c : Config} {a : Area} (h : AreaOk c a)
    (hclosing : a.closing = false) {i} (hi : i < c.bufCount) :
    (a.bufs i (!a.wid)).groups = [] ∧ (a.bufs i (!a.wid)).lock = none :=
  h.drained i hi (by simp [todo_of_not_closing hclosing])

/-- A group that is not on disk has an lfn beyond the last one. -/
lemma AreaOk.lfn_lt {c a} (h : AreaOk c a) {i} (hi : i < c.bufCount) (hloc : a.Located i g)
    (hdisk : ¬a.OnDisk g) : a.lfn < g.lfn := by
  rcases hloc with hd | hp | ⟨set, hg⟩
  · exact absurd hd hdisk
  · have := (h.partsOk g hp).1
    omega
  · rw [h.groupLfn i hi set g hg]
    by_cases hset : set = a.wid
    · rw [hset, h.nextLfn]
      split <;> omega
    · obtain rfl : set = !a.wid := Bool.eq_not_of_ne hset
      have hclosing : a.closing = true := by
        by_contra hc
        have hempty := (h.empty_of_not_closing (Bool.eq_false_iff.mpr hc) hi).1
        simp [hempty] at hg
      rw [h.closingLfn hclosing]
      omega

/-- Without a flush that assembles, a group that is not in the set that is written to is
on disk. -/
lemma AreaOk.onDisk_of_closed {c : Config} {a : Area} (h : AreaOk c a)
    (hclosing : a.closing = false) {i} (hi : i < c.bufCount) (hloc : a.Located i g)
    (hclosed : g ∉ (a.bufs i a.wid).groups) : a.OnDisk g := by
  rcases hloc with hd | hp | ⟨set, hmem⟩
  · exact hd
  · simp [parts_of_not_closing hclosing] at hp
  · by_cases hset : set = a.wid
    · exact absurd (hset ▸ hmem) hclosed
    · obtain rfl : set = !a.wid := Bool.eq_not_of_ne hset
      simp [(h.empty_of_not_closing hclosing hi).1] at hmem

lemma SessionOk.durable_of_sealed {c a s v} (h : SessionOk c a s v) (ha : AreaOk c a)
    (hclosing : a.closing = false) (hs : a.Sealed c s v) : a.Durable v :=
  fun g hg => ha.onDisk_of_closed hclosing (c.bufId_lt s) (h.located g hg) (hs g hg)

/-! ## What a step leaves alone -/

/-- How the area may change under the sessions other than `who`. -/
structure Frame (c : Config) (who : Option Nat) (a a' : Area) : Prop where
  lfn : a.lfn ≤ a'.lfn
  lsn : a.lsn ≤ a'.lsn
  seen : a.bufLfn a.wid ≤ a'.bufLfn a'.wid
  disk : ∀ g, a.OnDisk g → a'.OnDisk g
  located : ∀ i < c.bufCount, ∀ g, a.Located i g → a'.Located i g
  locked : ∀ i < c.bufCount, ∀ set y, some y ≠ who → (a.bufs i set).lock = some y →
    (a'.bufs i set).lock = some y ∧ a'.bufLfn set = a.bufLfn set ∧
      ((a.bufs i set).slotsFull = false → (a'.bufs i set).slotsFull = false)
  slot : ∀ i < c.bufCount, ∀ set (k : Nat) (g : Group), some g.session ≠ who →
    (a.bufs i set).slots[k]? = some (some g) → (a'.bufs i set).slots[k]? = some (some g)
  unopened : ∀ i < c.bufCount, ∀ g : Group, g.lsn ≤ a.lsn →
    g ∉ (a.bufs i a.wid).groups → g ∉ (a'.bufs i a'.wid).groups

section
variable {c : Config} {who : Option Nat} {a a' : Area} {s : Nat} {v : Session}

section
variable (hf : Frame c who a a')
include hf

lemma Frame.durable (h : a.Durable v) : a'.Durable v :=
  fun g hg => hf.disk g (h g hg)

lemma Frame.stage (hwho : some s ≠ who) (h : StageOk c a s v) : StageOk c a' s v := by
  unfold StageOk at h ⊢
  split at h
  case h_4 size set heq =>
    obtain ⟨hpos, hlock, hfull, hlfn⟩ := h
    obtain ⟨hlock', hlfn', hfull'⟩ := hf.locked _ (c.bufId_lt s) set s hwho hlock
    exact ⟨hpos, hlock', hfull' hfull, hlfn.trans hlfn'.symm⟩
  case h_5 set slot g heq =>
    obtain ⟨hown, hslot⟩ := h
    refine ⟨hown, hf.slot _ (c.bufId_lt s) set slot g ?_ hslot⟩
    rw [hown]
    exact hwho
  case h_6 => exact fun hp => hf.durable (h hp)
  case h_7 => exact hf.durable h
  all_goals exact h

/-- With the same groups, only what the stage says is to be shown. -/
lemma Frame.withStage (h : SessionOk c a s v) {w} (hlfn : w.currLfn = v.currLfn)
    (hw : w.written = v.written) (hstage : StageOk c a' s w) :
    SessionOk c a' s w where
  seen := hlfn ▸ Nat.le_trans h.seen hf.seen
  own := hw ▸ h.own
  writtenLfn := by
    rw [hw, hlfn]
    exact h.writtenLfn
  writtenLsn g hg := Nat.le_trans (h.writtenLsn g (hw ▸ hg)) hf.lsn
  located g hg := hf.located _ (c.bufId_lt s) g (h.located g (hw ▸ hg))
  stage := hstage

/-- A session that a step does not concern stays as it should be. -/
lemma Frame.session (hwho : some s ≠ who) (h : SessionOk c a s v) : SessionOk c a' s v :=
  hf.withStage h rfl rfl (hf.stage hwho h.stage)

end

end

lemma Frame.setLsn (c : Config) (who : Option Nat) {a lsn} (hle : a.lsn ≤ lsn) :
    Frame c who a { a with lsn := lsn } where
  lfn := Nat.le_refl _
  lsn := hle
  seen := Nat.le_refl _
  disk _ hg := hg
  located _ _ _ hg := hg
  locked _ _ _ _ _ hl := ⟨hl, rfl, id⟩
  slot _ _ _ _ _ _ hk := hk
  unopened _ _ _ _ hmem := hmem

lemma Frame.refl (c : Config) (who : Option Nat) (a : Area) : Frame c who a a :=
  Frame.setLsn c who (Nat.le_refl a.lsn)

/-! ## Writers -/

section
variable {c : Config} {a : Area} {i s : Nat} {set : Bool} {b : Buffer}

lemma Area.forall_setBuf {P : Nat → Bool → Buffer → Prop} (hb : P i set b)
    (h : ∀ j t, P j t (a.bufs j t)) (j : Nat) (t : Bool) : P j t ((a.setBuf i set b).bufs j t) := by
  by_cases hjt : j = i ∧ t = set
  · obtain ⟨rfl, rfl⟩ := hjt
    rwa [setBuf_self]
  · rw [a.setBuf_of_ne b hjt]
    exact h j t

/-- What the invariant says about a buffer. -/
structure Area.BufOk (a : Area) (copied : List Group) (i : Nat) (set : Bool) (b : Buffer) :
    Prop where
  lfn : ∀ g ∈ b.groups, g.lfn = a.bufLfn set
  copy : ∀ g ∈ b.groups, g ∈ copied ∨ some g ∈ b.slots
  used : b.writePos = 0 → b.groups = []
  drained : set = !a.wid → i ∉ a.todo → b.groups = [] ∧ b.lock = none

lemma AreaOk.buf (h : AreaOk c a) (hi : i < c.bufCount) (set : Bool) :
    a.BufOk a.copied i set (a.bufs i set) :=
  ⟨h.groupLfn i hi set, h.groupCopy i hi set, h.used i hi set, fun hset => hset ▸ h.drained i hi⟩

lemma AreaOk.setBuf (h : AreaOk c a) (lsn : Nat) {copied} (hcopied : ∀ g ∈ a.copied, g ∈ copied)
    (hb : a.BufOk copied i set b) :
    AreaOk c { a.setBuf i set b with lsn := lsn, copied := copied } := by
  have hall : ∀ j t, j < c.bufCount → a.BufOk copied j t ((a.setBuf i set b).bufs j t) := by
    refine forall_setBuf (P := fun j t b => j < c.bufCount → a.BufOk copied j t b) (fun _ => hb) ?_
    intro j t hj
    exact { h.buf hj t with copy := fun g hg => (h.groupCopy j hj t g hg).imp (hcopied g) id }
  exact
    { h with
      groupLfn := fun j hj t => (hall j t hj).lfn
      groupCopy := fun j hj t => (hall j t hj).copy
      used := fun j hj t => (hall j t hj).used
      drained := fun j hj => (hall j _ hj).drained rfl
      partsOk := fun g hg => ⟨(h.partsOk g hg).1, hcopied g (h.partsOk g hg).2⟩
      diskOk := fun b hb g hg => ⟨(h.diskOk b hb g hg).1, hcopied g (h.diskOk b hb g hg).2⟩ }

/-- Only a buffer of the set that is written to is locked. -/
lemma AreaOk.setLock (h : AreaOk c a) (hi : i < c.bufCount) {o} (ho : set = !a.wid → o = none) :
    AreaOk c (a.setBuf i set { a.bufs i set with lock := o }) := by
  refine h.setBuf a.lsn (fun g hg => hg) { h.buf hi set with drained := fun hset htodo => ?_ }
  exact ⟨((h.buf hi set).drained hset htodo).1, ho hset⟩

/-- How session `s` may change a buffer under the other sessions. -/
structure Buffer.Keeps (s lsn : Nat) (b b' : Buffer) : Prop where
  groups : ∀ g ∈ b.groups, g ∈ b'.groups
  new : ∀ g ∈ b'.groups, g.lsn ≤ lsn → g ∈ b.groups
  lock : ∀ y ≠ s, b.lock = some y →
    b'.lock = some y ∧ (b.slotsFull = false → b'.slotsFull = false)
  slot : ∀ (k : Nat) (g : Group), g.session ≠ s → b.slots[k]? = some (some g) →
    b'.slots[k]? = some (some g)

lemma Buffer.Keeps.setLock {lsn} (h : ∀ y ≠ s, b.lock ≠ some y) (o : Option Nat) :
    b.Keeps s lsn { b with lock := o } where
  groups _ hg := hg
  new _ hg _ := hg
  lock y hy hl := absurd hl (h y hy)
  slot _ _ _ hk := hk

lemma Frame.setBuf {lsn} (copied : List Group) (hle : a.lsn ≤ lsn)
    (h : (a.bufs i set).Keeps s a.lsn b) :
    Frame c (some s) a { a.setBuf i set b with lsn := lsn, copied := copied } := by
  have hall : ∀ j t, (a.bufs j t).Keeps s a.lsn ((a.setBuf i set b).bufs j t) := by
    refine forall_setBuf (P := fun j t => (a.bufs j t).Keeps s a.lsn) h fun j t => ?_
    exact ⟨fun _ hg => hg, fun _ hg _ => hg, fun _ _ hl => ⟨hl, id⟩, fun _ _ _ hk => hk⟩
  exact
    { lfn := Nat.le_refl _
      lsn := hle
      seen := Nat.le_refl _
      disk := fun _ hg => hg
      located := by
        intro j _ g hg
        rcases hg with hd | hp | ⟨t, ht⟩
        · exact .inl hd
        · exact .inr (.inl hp)
        · exact .inr (.inr ⟨t, (hall j t).groups g ht⟩)
      locked := by
        intro j _ t y hy hl
        obtain ⟨hl', hfull⟩ := (hall j t).lock y (fun e => hy (congrArg some e)) hl
        exact ⟨hl', rfl, hfull⟩
      slot := fun j _ t k g hg => (hall j t).slot k g fun e => hg (congrArg some e)
      unopened := fun j _ g hg hmem hnew => hmem ((hall j a.wid).new g hnew hg) }

end

/-! ## The flush -/

section
variable {c : Config} {a : Area}

lemma closing_of_flush_none (h : a.flush = none) : a.closing = false := by
  simp [closing, h]

/-- The switch: the set that was written to gets the next lfn, the empty one the lfn after it. -/
lemma AreaOk.switchBuffer (h : AreaOk c a) (hflush : a.flush = none) (caller : Option Nat) :
    AreaOk c (a.switchBuffer c caller) := by
  have hclosing := closing_of_flush_none hflush
  have hnext : a.bufLfn a.wid = a.lfn + 1 := by simpa [hclosing] using h.nextLfn
  have hne : a.wid ≠ !a.wid := by cases a.wid <;> simp
  have hempty : ∀ i < c.bufCount, (a.bufs i (!a.wid)).groups = [] :=
    fun i hi => (h.empty_of_not_closing hclosing hi).1
  exact
    { nextLfn := by simp [Area.switchBuffer, Area.closing]
      closingLfn := fun _ => by
        simp only [Area.switchBuffer, Bool.not_not, update_of_ne hne, hnext]
      flushedLe := h.flushedLe
      writtenLfn := by simp [Area.switchBuffer]
      groupLfn := by
        intro i hi set g hg
        by_cases hset : set = !a.wid
        · subst hset
          simp [Area.switchBuffer, hempty i hi] at hg
        · simp only [Area.switchBuffer, update_of_ne hset]
          exact h.groupLfn i hi set g hg
      groupCopy := h.groupCopy
      used := h.used
      todoLt := by simp [Area.switchBuffer, Area.todo]
      drained := by
        intro i hi hmem
        simp [Area.switchBuffer, Area.todo, hi] at hmem
      partsOk := by simp [Area.switchBuffer, Area.parts]
      diskOk := h.diskOk }

lemma Frame.switchBuffer (h : AreaOk c a) (hflush : a.flush = none) (caller who : Option Nat) :
    Frame c who a (a.switchBuffer c caller) := by
  have hclosing := closing_of_flush_none hflush
  exact
    { lfn := Nat.le_refl _
      lsn := Nat.le_refl _
      seen := by
        simp only [Area.switchBuffer, update_self, h.nextLfn, hclosing]
        simp
      disk := fun _ hg => hg
      located := by
        intro i hi g hg
        rcases hg with hd | hp | hmem
        · exact .inl hd
        · simp [parts_of_not_closing hclosing] at hp
        · exact .inr (.inr hmem)
      locked := by
        intro i hi set y hy hl
        have hset : set ≠ !a.wid := by
          rintro rfl
          simp [(h.empty_of_not_closing hclosing hi).2] at hl
        exact ⟨hl, by simp only [Area.switchBuffer, update_of_ne hset], id⟩
      slot := fun _ _ _ _ _ _ hk => hk
      unopened := by
        intro i hi g hg hmem
        simp [Area.switchBuffer, (h.empty_of_not_closing hclosing hi).1] }

/-- After the switch the set that is written to is empty. -/
lemma AreaOk.open_empty_switchBuffer (h : AreaOk c a) (hflush : a.flush = none)
    (caller : Option Nat) {i} (hi : i < c.bufCount) :
    ((a.switchBuffer c caller).bufs i (a.switchBuffer c caller).wid).groups = [] :=
  (h.empty_of_not_closing (closing_of_flush_none hflush) hi).1

/-- When `log_need_flush` says no, the set that is written to is empty. -/
lemma AreaOk.open_empty_of_not_needFlush (h : AreaOk c a) (hneed : a.needFlush c = false) {i}
    (hi : i < c.bufCount) : (a.bufs i a.wid).groups = [] := by
  have hbuf := List.any_eq_false.mp hneed i (List.mem_range.mpr hi)
  simp only [Bool.or_eq_true, not_or, bne_iff_ne, ne_eq, Decidable.not_not] at hbuf
  exact h.used i hi a.wid hbuf.2

lemma mem_slots_of_slotsClear {b : Buffer} (h : b.slotsClear = true) (g : Group) :
    some g ∉ b.slots := by
  intro hmem
  have := List.all_eq_true.mp h _ hmem
  simp at this

variable {caller : Option Nat} {todo : List Nat} {parts : List Group} {maxLsn i : Nat}

lemma AreaOk.closing_lfn (h : AreaOk c a)
    (hflush : a.flush = some ⟨caller, .assembling todo parts maxLsn⟩) :
    a.closing = true ∧ a.bufLfn a.wid = a.lfn + 2 := by
  have hclosing : a.closing = true := by simp [closing, hflush]
  exact ⟨hclosing, by simpa [hclosing] using h.nextLfn⟩

lemma Frame.setFlush {lfn flushedLfn flushedLsn flush disk} (hlfn : a.lfn ≤ lfn)
    (hdisk : ∀ b ∈ a.disk, b ∈ disk) (who : Option Nat)
    (hparts : ∀ g ∈ a.parts, (∃ b ∈ disk, g ∈ b.groups) ∨ g ∈ { a with flush := flush }.parts) :
    Frame c who a { a with
      lfn := lfn
      flushedLfn := flushedLfn
      flushedLsn := flushedLsn
      flush := flush
      disk := disk } where
  lfn := hlfn
  lsn := Nat.le_refl _
  seen := Nat.le_refl _
  disk g hg := by
    obtain ⟨b, hb, hmem⟩ := hg
    exact ⟨b, hdisk b hb, hmem⟩
  located i hi g hg := by
    rcases hg with ⟨b, hb, hmem⟩ | hp | hmem
    · exact .inl ⟨b, hdisk b hb, hmem⟩
    · exact (hparts g hp).imp id .inl
    · exact .inr (.inr hmem)
  locked _ _ _ _ _ hl := ⟨hl, rfl, id⟩
  slot _ _ _ _ _ _ hk := hk
  unopened _ _ _ _ hmem := hmem

lemma AreaOk.handled (h : AreaOk c a)
    (hflush : a.flush = some ⟨caller, .assembling todo parts maxLsn⟩)
    (hempty : (a.bufs i (!a.wid)).groups = [] ∧ (a.bufs i (!a.wid)).lock = none)
    {parts' newMax} (hparts : ∀ g ∈ parts', g ∈ parts ∨ g.lfn = a.lfn + 1 ∧ g ∈ a.copied) :
    AreaOk c { a with flush := some ⟨caller, .assembling (todo.erase i) parts' newMax⟩ } := by
  obtain ⟨hclosing, hnext⟩ := h.closing_lfn hflush
  exact
    { h with
      nextLfn := by simpa [closing] using hnext
      closingLfn := fun _ => h.closingLfn hclosing
      writtenLfn := by simp
      todoLt := by
        intro j hj
        refine h.todoLt j ?_
        simpa [Area.todo, hflush] using List.mem_of_mem_erase hj
      drained := by
        intro j hj hmem
        rcases eq_or_ne j i with rfl | hji
        · exact hempty
        · refine h.drained j hj ?_
          simp only [Area.todo, hflush]
          intro hin
          exact hmem ((List.mem_erase_of_ne hji).mpr hin)
      partsOk := by
        intro g hg
        refine (hparts g hg).elim (fun hg => h.partsOk g ?_) id
        simpa [Area.parts, hflush] using hg }

/-- `log_assemble_batch` handles a buffer that holds groups. -/
lemma AreaOk.assemble (h : AreaOk c a)
    (hflush : a.flush = some ⟨caller, .assembling todo parts maxLsn⟩) (hi : i ∈ todo)
    (hclear : (a.bufs i (!a.wid)).slotsClear = true) (hlock : (a.bufs i (!a.wid)).lock = none)
    (newMax : Nat) :
    AreaOk c { a.setBuf i (!a.wid) ((a.bufs i (!a.wid)).assembled maxLsn) with
      flush := some ⟨caller, .assembling (todo.erase i)
        (parts ++ (a.bufs i (!a.wid)).groups) newMax⟩ } := by
  have htodo : i ∈ a.todo := by simpa [Area.todo, hflush] using hi
  have hi := h.todoLt i htodo
  have hempty : a.BufOk a.copied i (!a.wid) ((a.bufs i (!a.wid)).assembled maxLsn) :=
    ⟨by simp [assembled], by simp [assembled], by simp [assembled], fun _ hnot => absurd htodo hnot⟩
  have hbuf := h.setBuf a.lsn (fun _ hg => hg) hempty
  refine hbuf.handled hflush (by simp [Area.setBuf, assembled, hlock]) fun g hg => ?_
  refine (List.mem_append.mp hg).imp id fun hg => ⟨?_, ?_⟩
  · exact (h.groupLfn i hi _ g hg).trans (h.closingLfn (h.closing_lfn hflush).1)
  · exact (h.groupCopy i hi _ g hg).resolve_right (mem_slots_of_slotsClear hclear g)

lemma Frame.assemble (hflush : a.flush = some ⟨caller, .assembling todo parts maxLsn⟩)
    (hlock : (a.bufs i (!a.wid)).lock = none) (newMax : Nat) (who : Option Nat) :
    Frame c who a { a.setBuf i (!a.wid) ((a.bufs i (!a.wid)).assembled maxLsn) with
      flush := some ⟨caller, .assembling (todo.erase i)
        (parts ++ (a.bufs i (!a.wid)).groups) newMax⟩ } where
  lfn := Nat.le_refl _
  lsn := Nat.le_refl _
  seen := Nat.le_refl _
  disk _ hg := hg
  located j hj g hg := by
    rcases hg with hd | hp | ⟨set, hmem⟩
    · exact .inl hd
    · refine .inr (.inl (List.mem_append_left _ ?_))
      simpa [Area.parts, hflush] using hp
    · by_cases hji : j = i ∧ set = !a.wid
      · obtain ⟨rfl, rfl⟩ := hji
        exact .inr (.inl (List.mem_append_right _ hmem))
      · refine .inr (.inr ⟨set, ?_⟩)
        rwa [a.setBuf_of_ne _ hji]
  locked j hj set y hy hl := by
    have hji : ¬(j = i ∧ set = !a.wid) := by
      rintro ⟨rfl, rfl⟩
      simp [hlock] at hl
    rw [a.setBuf_of_ne _ hji]
    exact ⟨hl, rfl, id⟩
  slot j hj set k g hg hk := by
    by_cases hji : j = i ∧ set = !a.wid
    · obtain ⟨rfl, rfl⟩ := hji
      simpa [assembled] using hk
    · rwa [a.setBuf_of_ne _ hji]
  unopened j hj g hg hmem := by
    have hji : ¬(j = i ∧ a.wid = !a.wid) := by cases a.wid <;> simp
    rwa [← a.setBuf_of_ne _ hji] at hmem

lemma Frame.assembleEmpty (hflush : a.flush = some ⟨caller, .assembling todo parts maxLsn⟩)
    (who : Option Nat) :
    Frame c who a { a with flush := some ⟨caller, .assembling (todo.erase i) parts maxLsn⟩ } := by
  refine Frame.setFlush (Nat.le_refl _) (fun _ hb => hb) who fun g hg => .inr ?_
  simpa [Area.parts, hflush] using hg

/-- The batch is written: what was assembled is on disk under the next lfn. -/
lemma AreaOk.flushToDisk (h : AreaOk c a)
    (hflush : a.flush = some ⟨caller, .assembling [] parts maxLsn⟩) : AreaOk c { a with
      lfn := a.lfn + 1
      disk := a.disk ++ [⟨a.lfn + 1, maxLsn, parts⟩]
      flush := some ⟨caller, .written ⟨a.lfn + 1, maxLsn, parts⟩⟩ } := by
  obtain ⟨hclosing, hnext⟩ := h.closing_lfn hflush
  exact
    { h with
      nextLfn := by simpa [closing] using hnext
      closingLfn := by simp [closing]
      flushedLe := Nat.le_succ_of_le h.flushedLe
      writtenLfn := by simp
      todoLt := by simp [todo]
      drained := by
        intro j hj _
        exact h.drained j hj (by simp [todo, hflush])
      partsOk := by simp [Area.parts]
      diskOk := by
        refine List.forall_mem_append.mpr ⟨h.diskOk, List.forall_mem_singleton.mpr fun g hg => ?_⟩
        exact h.partsOk g (by simpa [Area.parts, hflush] using hg) }

lemma Frame.flushToDisk (hflush : a.flush = some ⟨caller, .assembling [] parts maxLsn⟩)
    (who : Option Nat) :
    Frame c who a { a with
      lfn := a.lfn + 1
      disk := a.disk ++ [⟨a.lfn + 1, maxLsn, parts⟩]
      flush := some ⟨caller, .written ⟨a.lfn + 1, maxLsn, parts⟩⟩ } := by
  refine Frame.setFlush (Nat.le_succ _) (fun _ => List.mem_append_left _) who fun g hg => .inl ?_
  refine ⟨_, List.mem_append_right _ List.mem_cons_self, ?_⟩
  simpa [Area.parts, hflush] using hg

lemma AreaOk.flushEnd {b} (h : AreaOk c a) (hflush : a.flush = some ⟨caller, .written b⟩) :
    AreaOk c { a with flushedLfn := b.lfn, flushedLsn := b.lsn, flush := none } := by
  have hclosing : a.closing = false := by simp [closing, hflush]
  exact
    { h with
      nextLfn := by simpa [closing, hflush] using h.nextLfn
      closingLfn := by simp [closing]
      flushedLe := Nat.le_of_eq (h.writtenLfn caller b hflush)
      writtenLfn := by simp
      todoLt := by simp [todo]
      drained := fun i hi _ => h.empty_of_not_closing hclosing hi
      partsOk := by simp [parts] }

lemma Frame.flushEnd {b} (hflush : a.flush = some ⟨caller, .written b⟩) (who : Option Nat) :
    Frame c who a { a with flushedLfn := b.lfn, flushedLsn := b.lsn, flush := none } := by
  refine Frame.setFlush (Nat.le_refl _) (fun _ hb => hb) who fun g hg => ?_
  simp [parts, hflush] at hg

end

end Cantian.Log
