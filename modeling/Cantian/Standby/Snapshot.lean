import Cantian.Standby.Replay

/-!
# The scn of a standby

A batch is published when no batch with a smaller LSN is in progress. That
gives a consistent scn only if the batches come to the standby in the order
of the commit scns in them; the clocks of the primary do not provide that.
-/

namespace Cantian.Standby

open List Node

/-! ## Numbers of a list -/

lemma foldl_max_eq_or_mem (l : List Nat) (m : Nat) : l.foldl max m = m ∨ l.foldl max m ∈ l := by
  induction l generalizing m with
  | nil => exact .inl rfl
  | cons a l ih =>
    rw [foldl_cons]
    rcases ih (max m a) with h | h
    · rw [h]
      rcases Nat.le_total m a with hle | hle
      · rw [Nat.max_eq_right hle]
        exact .inr (.head _)
      · rw [Nat.max_eq_left hle]
        exact .inl rfl
    · exact .inr (.tail _ h)

lemma maxOf_eq_zero_or_mem (l : List Nat) : maxOf l = 0 ∨ maxOf l ∈ l := foldl_max_eq_or_mem l 0

/-! ## The invariant -/

/-- The batches of a log that the standby has not taken. -/
def Node.waiting (n : Node) : List Batch := n.unread ++ n.ready

/-- Every scn of a node is above 0. -/
structure Node.Positive (n : Node) : Prop where
  ending : ∀ scn ∈ n.ending, 0 < scn
  opened : ∀ g ∈ n.opened, ∀ scn ∈ g.scns, 0 < scn
  waiting : ∀ b ∈ n.waiting, ∀ scn ∈ b.scns, 0 < scn

/-- A group that is in the logs and not replayed. -/
def Outstanding (nodes : List Node) (slots : List Slot) (g : Group) : Prop :=
  (∃ (i : Nat) (n : Node), nodes[i]? = some n ∧ ∃ b ∈ n.waiting, g ∈ b.groups) ∨
    ∃ (i : Nat) (x : Slot), slots[i]? = some x ∧ g ∈ x.left

structure SysOk (s : Sys) : Prop where
  positive : ∀ (i : Nat) (n : Node), s.nodes[i]? = some n → n.Positive
  above : ∀ d ∈ s.taken, ∀ scn ∈ d.scns, ∀ (i : Nat) (n : Node), s.nodes[i]? = some n →
    ∀ b ∈ n.waiting, ∀ scn' ∈ b.scns, scn < scn'
  slotScn : ∀ (i : Nat) (x : Slot), s.slots[i]? = some x →
    x.batchScn = 0 ∨ ∃ d ∈ s.taken, x.batchScn ∈ d.scns
  freeDone : ∀ (i : Nat) (x : Slot), s.slots[i]? = some x → x.free = true → x.left = []
  order : ∀ (i j : Nat) (x y : Slot), s.slots[i]? = some x → s.slots[j]? = some y → i ≠ j →
    ∀ g ∈ x.left, ∀ scn ∈ g.scns, scn ≤ y.batchScn → x.batch.lsn < y.batch.lsn
  accounted : ∀ g ∈ s.logged, g ∈ s.replayed ∨ Outstanding s.nodes s.slots g

lemma Sys.Fresh.sysOk {s} (h : s.Fresh) : SysOk s := by
  have hnode : ∀ (i : Nat) (n : Node), s.nodes[i]? = some n →
      n.ending = [] ∧ n.opened = [] ∧ n.waiting = [] := by
    intro i n hn
    obtain ⟨h1, h2, h3, h4⟩ := h.nodes n (mem_of_getElem? hn)
    exact ⟨h1, h2, by rw [waiting, h3, h4]; rfl⟩
  have hslot : ∀ (i : Nat) (x : Slot), s.slots[i]? = some x → x = ⟨⟨0, []⟩, [], 0, true⟩ :=
    fun i x hx => h.slots x (mem_of_getElem? hx)
  constructor
  case positive =>
    intro i n hn
    obtain ⟨h1, h2, h3⟩ := hnode i n hn
    constructor
    · rw [h1]; nofun
    · rw [h2]; nofun
    · rw [h3]; nofun
  case above =>
    intro d _ scn _ i n hn b hb
    rw [(hnode i n hn).2.2] at hb
    cases hb
  case slotScn =>
    intro i x hx
    rw [hslot i x hx]
    exact .inl rfl
  case freeDone =>
    intro i x hx _
    rw [hslot i x hx]
  case order =>
    intro i j x y hx _ _ g hg
    rw [hslot i x hx] at hg
    cases hg
  case accounted =>
    rw [h.logged]
    nofun

/-! ## Steps of the primary -/

variable {idx scn : Nat} {b : Batch}

section
variable {s t : Sys} {i : Nat} {n m : Node}

lemma getElem?_set_cases {α : Type*} {l : List α} {j x y z} (hx : l[idx]? = some x)
    (hy : (l.set idx z)[j]? = some y) : j = idx ∧ y = z ∨ l[j]? = some y := by
  have hlt : idx < l.length := (List.getElem?_eq_some_iff.mp hx).1
  rcases eq_or_ne idx j with rfl | hj
  · rw [getElem?_set_self hlt] at hy
    exact .inl ⟨rfl, (Option.some.inj hy).symm⟩
  · rw [getElem?_set_ne hj] at hy
    exact .inr hy

/-- A node may change what it has not flushed, and flush batches with greater scns than those
already taken. -/
lemma SysOk.setNode (h : SysOk s) (hn : s.nodes[i]? = some n) (hpos : m.Positive)
    (hnew : ∀ b ∈ m.waiting, b ∈ n.waiting ∨
      ∀ d ∈ s.taken, ∀ scn ∈ d.scns, ∀ scn' ∈ b.scns, scn < scn')
    (hkeep : ∀ b ∈ n.waiting, b ∈ m.waiting) {logged : List Group}
    (hlogged : ∀ g ∈ logged, g ∈ s.logged ∨ ∃ b ∈ m.waiting, g ∈ b.groups) :
    SysOk { s with nodes := s.nodes.set i m, logged := logged } := by
  have hlt : i < s.nodes.length := (List.getElem?_eq_some_iff.mp hn).1
  refine { h with positive := ?_, above := ?_, accounted := ?_ }
  · intro j k hk
    rcases getElem?_set_cases hn hk with ⟨-, rfl⟩ | hk
    · exact hpos
    · exact h.positive j k hk
  · intro d hd scn hscn j k hk b hb
    rcases getElem?_set_cases hn hk with ⟨-, rfl⟩ | hk
    · rcases hnew b hb with hb | hb
      · exact h.above d hd scn hscn i n hn b hb
      · exact hb d hd scn hscn
    · exact h.above d hd scn hscn j k hk b hb
  · intro g hg
    rcases hlogged g hg with hg | hg
    · rcases h.accounted g hg with hdone | ⟨j, k, hk, b, hb, hgb⟩ | hslot
      · exact .inl hdone
      · right
        left
        rcases eq_or_ne i j with rfl | hj
        · cases hk.symm.trans hn
          exact ⟨i, m, getElem?_set_self hlt, b, hkeep b hb, hgb⟩
        · exact ⟨j, k, by rw [getElem?_set_ne hj]; exact hk, b, hb, hgb⟩
      · exact .inr (.inr hslot)
    · exact .inr (.inl ⟨i, m, getElem?_set_self hlt, hg⟩)

lemma SysOk.withNode (h : SysOk s) {f} (ht : withNode s i f = some t) (hf : ∀ n m, f n = some m →
      (n.Positive → m.Positive) ∧ ∀ b, b ∈ m.waiting ↔ b ∈ n.waiting) : SysOk t := by
  rw [Standby.withNode] at ht
  split at ht
  case h_1 => cases ht
  case h_2 n hn =>
    obtain ⟨m, hm, rfl⟩ := Option.map_eq_some_iff.mp ht
    obtain ⟨hpos, hwait⟩ := hf n m hm
    exact h.setNode hn (hpos (h.positive i n hn)) (fun b hb => .inl ((hwait b).mp hb))
      (fun b hb => (hwait b).mpr hb) fun g hg => .inl hg

lemma logGroup_positive {scns} (hscns : ∀ scn ∈ scns, 0 < scn) (h : n.Positive) :
    (logGroup n i scns).Positive := by
  refine ⟨h.ending, ?_, h.waiting⟩
  exact forall_mem_append.mpr ⟨h.opened, forall_mem_singleton.mpr hscns⟩

lemma rplStep_txScn (h : SysOk s) (ht : rplStep s (.txScn i scn) = some t) : SysOk t := by
  apply h.withNode ht
  intro n m hm
  rw [txIncScn] at hm
  obtain ⟨hlt, ⟨⟩⟩ := Option.ite_none_right_eq_some.mp hm
  refine ⟨fun hn => ⟨?_, hn.opened, hn.waiting⟩, fun b => Iff.rfl⟩
  exact forall_mem_append.mpr ⟨hn.ending, forall_mem_singleton.mpr (by omega)⟩

lemma rplStep_txEnd {k} (h : SysOk s) (ht : rplStep s (.txEnd i k) = some t) : SysOk t := by
  apply h.withNode ht
  intro n m hm
  obtain ⟨scn, hscn, rfl⟩ := Option.map_eq_some_iff.mp hm
  refine ⟨fun hn => ?_, fun b => Iff.rfl⟩
  have hpos := hn.ending scn (mem_of_getElem? hscn)
  have hlog : (logGroup n i [scn]).Positive := logGroup_positive (by simpa using hpos) hn
  refine ⟨?_, hlog.opened, hlog.waiting⟩
  intro c hc
  exact hn.ending c (mem_of_mem_eraseIdx hc)

lemma rplStep_write (h : SysOk s) (ht : rplStep s (.write i) = some t) : SysOk t := by
  apply h.withNode ht
  intro n m hm
  cases hm
  exact ⟨logGroup_positive nofun, fun b => Iff.rfl⟩

lemma load_spec (h : load n = some m) :
    (∀ b, b ∈ m.waiting ↔ b ∈ n.waiting) ∧ m.ending = n.ending ∧ m.opened = n.opened := by
  rw [load] at h
  split at h <;> cases h
  rename_i b rest hun
  refine ⟨?_, rfl, rfl⟩
  intro c
  simp only [waiting, hun, mem_append, mem_cons, not_mem_nil, or_false, or_assoc]
  exact or_rotate.symm

lemma rplStep_load (h : SysOk s) (ht : rplStep s (.load i) = some t) : SysOk t := by
  apply h.withNode ht
  intro n m hm
  obtain ⟨hwait, hend, hop⟩ := load_spec hm
  refine ⟨fun hn => ⟨hend ▸ hn.ending, hop ▸ hn.opened, ?_⟩, hwait⟩
  intro b hb
  exact hn.waiting b ((hwait b).mp hb)

/-! ## Batches in the order of their scns -/

/-- Every scn of the one batch is below every scn of the other. -/
def scnsBefore (b c : Batch) : Bool :=
  b.scns.all fun scn => c.scns.all fun scn' => decide (scn < scn')

lemma scnsBefore_iff {c} : scnsBefore b c = true ↔ ∀ scn ∈ b.scns, ∀ scn' ∈ c.scns, scn < scn' := by
  simp [scnsBefore]

/-- The batches come to the standby in the order of the commit scns in them: a batch that is
flushed has greater scns than those already taken, and a batch that is taken
has smaller scns than those not yet taken and a greater LSN than those in
progress. -/
def inScnOrder (s : Sys) : Action → Bool
  | .flush i lsns =>
    match s.nodes[i]? with
    | none => true
    | some n => s.taken.all fun d => scnsBefore d (assemble n lsns)
  | .take _ =>
    match nextBatch s with
    | none => true
    | some (i, b) =>
      ((dropReady s.nodes i).all fun n => n.waiting.all fun w => scnsBefore b w) &&
        s.slots.all fun x => x.left.isEmpty || decide (x.batch.lsn < b.lsn)
  | _ => true

variable {lsns : List Nat}

lemma mem_waiting_flush :
    b ∈ (flush n lsns).waiting ↔ b ∈ n.waiting ∨ b = assemble n lsns := by
  simp only [flush, waiting, mem_append, mem_singleton]
  exact or_right_comm

lemma assemble_scns (h : scn ∈ (assemble n lsns).scns) : ∃ g ∈ n.opened, scn ∈ g.scns := by
  obtain ⟨g, hg, hscn⟩ := mem_flatMap.mp h
  exact ⟨g, (mem_filter.mp hg).1, hscn⟩

lemma flush_positive (h : n.Positive) (lsns : List Nat) : (flush n lsns).Positive := by
  refine ⟨h.ending, ?_, ?_⟩
  · intro g hg
    exact h.opened g (mem_filter.mp hg).1
  · intro b hb scn hscn
    rcases mem_waiting_flush.mp hb with hb | rfl
    · exact h.waiting b hb scn hscn
    · obtain ⟨g, hg, hgs⟩ := assemble_scns hscn
      exact h.opened g hg scn hgs

lemma rplStep_flush (h : SysOk s) (hord : inScnOrder s (.flush i lsns) = true)
    (ht : rplStep s (.flush i lsns) = some t) : SysOk t := by
  simp only [rplStep] at ht
  split at ht <;> cases ht
  rename_i n hn
  simp only [inScnOrder, hn, all_eq_true, scnsBefore_iff] at hord
  refine h.setNode hn (flush_positive (h.positive i n hn) lsns) ?_ ?_ ?_
  · intro b hb
    rcases mem_waiting_flush.mp hb with hb | rfl
    · exact .inl hb
    · exact .inr hord
  · exact fun b hb => mem_waiting_flush.mpr (.inl hb)
  · intro g hg
    rcases mem_append.mp hg with hg | hg
    · exact .inl hg
    · exact .inr ⟨_, mem_waiting_flush.mpr (.inr rfl), hg⟩

/-! ## Taking and replaying -/

lemma nextBatch_spec (h : nextBatch s = some (i, b)) :
    ∃ n rest, s.nodes[i]? = some n ∧ n.ready = b :: rest := by
  have hch := Lib.leastHead_chosen Batch.lsn (s.nodes.map ready)
  rw [nextBatch] at h
  rw [h] at hch
  obtain ⟨⟨rest, hready⟩, -⟩ := hch
  rw [getElem?_map] at hready
  obtain ⟨n, hn, hr⟩ := Option.map_eq_some_iff.mp hready
  exact ⟨n, rest, hn, hr⟩

/-- The logs without the next batch: the waiting batches of each are among the old ones, and
only that batch is missing. -/
lemma dropReady_spec {rest : List Batch} (hn : s.nodes[i]? = some n) (hready : n.ready = b :: rest)
    {j : Nat} {k : Node} (hk : (dropReady s.nodes i)[j]? = some k) :
    ∃ k', s.nodes[j]? = some k' ∧ k.ending = k'.ending ∧ k.opened = k'.opened ∧
      ∀ c ∈ k.waiting, c ∈ k'.waiting := by
  rw [dropReady, getElem?_modify] at hk
  obtain ⟨k', hk', heq⟩ := Option.map_eq_some_iff.mp hk
  refine ⟨k', hk', ?_⟩
  rcases eq_or_ne i j with rfl | hj
  · rw [hn] at hk'
    cases hk'
    rw [if_pos rfl] at heq
    subst heq
    refine ⟨rfl, rfl, ?_⟩
    intro c hc
    simp only [waiting, mem_append, hready, tail_cons, mem_cons] at hc ⊢
    rcases hc with hc | hc
    · exact .inl hc
    · exact .inr (.inr hc)
  · rw [if_neg hj] at heq
    subst heq
    exact ⟨rfl, rfl, fun c hc => hc⟩

lemma outstanding_take {rest x g} (hn : s.nodes[i]? = some n) (hready : n.ready = b :: rest)
    (hx : s.slots[idx]? = some x) (hdone : x.left = []) (h : Outstanding s.nodes s.slots g) :
    Outstanding (dropReady s.nodes i) (s.slots.set idx (slotOf b)) g := by
  have hlt : idx < s.slots.length := (List.getElem?_eq_some_iff.mp hx).1
  rcases h with ⟨j, k, hk, c, hc, hg⟩ | ⟨j, y, hy, hg⟩
  · rcases eq_or_ne i j with rfl | hj
    · cases hk.symm.trans hn
      simp only [waiting, mem_append, hready, mem_cons] at hc
      have hnew : (dropReady s.nodes i)[i]? = some { n with ready := n.ready.tail } := by
        rw [dropReady, getElem?_modify, hn]
        simp
      rcases hc with hc | rfl | hc
      · exact .inl ⟨i, _, hnew, c, by simp [waiting, hc], hg⟩
      · exact .inr ⟨idx, _, getElem?_set_self hlt, hg⟩
      · exact .inl ⟨i, _, hnew, c, by simp [waiting, hready, hc], hg⟩
    · refine .inl ⟨j, k, ?_, c, hc, hg⟩
      rw [dropReady, getElem?_modify, hk]
      simp [hj]
  · have hj : idx ≠ j := by
      rintro rfl
      cases hx.symm.trans hy
      rw [hdone] at hg
      cases hg
    exact .inr ⟨j, y, by rw [getElem?_set_ne hj]; exact hy, hg⟩

lemma rplStep_take (h : SysOk s) (hord : inScnOrder s (.take idx) = true)
    (ht : rplStep s (.take idx) = some t) : SysOk t := by
  simp only [rplStep] at ht
  split at ht
  case h_2 => cases ht
  rename_i x i b hx hnext
  obtain ⟨hfree, ⟨⟩⟩ := Option.ite_none_right_eq_some.mp ht
  obtain ⟨n, rest, hn, hready⟩ := nextBatch_spec hnext
  have hb : b ∈ n.waiting := by simp [waiting, hready]
  simp only [inScnOrder, hnext, Bool.and_eq_true, all_eq_true, scnsBefore_iff,
    Bool.or_eq_true, List.isEmpty_iff, decide_eq_true_eq] at hord
  obtain ⟨hafter, hlsn⟩ := hord
  have hslot : (slotOf b).batchScn = 0 ∨ (slotOf b).batchScn ∈ b.scns :=
    maxOf_eq_zero_or_mem b.scns
  constructor
  case positive =>
    intro j k hk
    obtain ⟨k', hk', hend, hop, hwait⟩ := dropReady_spec hn hready hk
    have hp := h.positive j k' hk'
    exact ⟨hend ▸ hp.ending, hop ▸ hp.opened, fun c hc => hp.waiting c (hwait c hc)⟩
  case above =>
    intro d hd scn hscn j k hk c hc
    rcases mem_append.mp hd with hd | hd
    · obtain ⟨k', hk', -, -, hwait⟩ := dropReady_spec hn hready hk
      exact h.above d hd scn hscn j k' hk' c (hwait c hc)
    · rw [mem_singleton.mp hd] at hscn
      exact hafter k (mem_of_getElem? hk) c hc scn hscn
  case slotScn =>
    intro j y hy
    rcases getElem?_set_cases hx hy with ⟨-, rfl⟩ | hy
    · rcases hslot with hzero | hmem
      · exact .inl hzero
      · exact .inr ⟨b, by simp, hmem⟩
    · rcases h.slotScn j y hy with hzero | ⟨d, hd, hmem⟩
      · exact .inl hzero
      · exact .inr ⟨d, mem_append_left _ hd, hmem⟩
  case freeDone =>
    intro j y hy hyfree
    rcases getElem?_set_cases hx hy with ⟨-, rfl⟩ | hy
    · cases hyfree
    · exact h.freeDone j y hy hyfree
  case order =>
    intro j j' y y' hy hy' hne g hg scn hscn hle
    rcases getElem?_set_cases hx hy with ⟨rfl, rfl⟩ | hold
    · rcases getElem?_set_cases hx hy' with ⟨rfl, -⟩ | hy'
      · exact absurd rfl hne
      · -- the scns of the new batch are above those of every batch taken before
        have hscn' : scn ∈ b.scns := mem_flatMap.mpr ⟨g, hg, hscn⟩
        rcases h.slotScn j' y' hy' with hzero | ⟨d, hd, hmem⟩
        · have := (h.positive i n hn).waiting b hb scn hscn'
          omega
        · have := h.above d hd _ hmem i n hn b hb scn hscn'
          omega
    · rcases getElem?_set_cases hx hy' with ⟨rfl, rfl⟩ | hold'
      · rcases hlsn y (List.mem_of_getElem? hold) with hnil | hlt
        · rw [hnil] at hg
          cases hg
        · exact hlt
      · exact h.order j j' y y' hold hold' hne g hg scn hscn hle
  case accounted =>
    intro g hg
    rcases h.accounted g hg with hdone | hout
    · exact .inl hdone
    · exact .inr (outstanding_take hn hready hx (h.freeDone idx x hx hfree) hout)

/-- A slot may lose groups that have been replayed. -/
lemma SysOk.setSlot {x : Slot} (z : Slot) (replayed : List Group) (scn : Nat) (h : SysOk s)
    (hx : s.slots[idx]? = some x) (hbatch : z.batch = x.batch) (hscn : z.batchScn = x.batchScn)
    (hleft : ∀ g ∈ z.left, g ∈ x.left) (hfree : z.free = true → z.left = [])
    (hkeep : ∀ g ∈ s.replayed, g ∈ replayed) (hgone : ∀ g ∈ x.left, g ∈ z.left ∨ g ∈ replayed) :
    SysOk { s with slots := s.slots.set idx z, replayed := replayed, scn := scn } := by
  have hlt : idx < s.slots.length := (List.getElem?_eq_some_iff.mp hx).1
  refine { h with slotScn := ?_, freeDone := ?_, order := ?_, accounted := ?_ }
  · intro j y hy
    rcases getElem?_set_cases hx hy with ⟨-, rfl⟩ | hy
    · rw [hscn]
      exact h.slotScn idx x hx
    · exact h.slotScn j y hy
  · intro j y hy hyfree
    rcases getElem?_set_cases hx hy with ⟨-, rfl⟩ | hy
    · exact hfree hyfree
    · exact h.freeDone j y hy hyfree
  · intro j j' y y' hy hy' hne g hg c hc hle
    rcases getElem?_set_cases hx hy with ⟨rfl, rfl⟩ | hold
    · rcases getElem?_set_cases hx hy' with ⟨rfl, -⟩ | hold'
      · exact absurd rfl hne
      · rw [hbatch]
        exact h.order j j' x y' hx hold' hne g (hleft g hg) c hc hle
    · rcases getElem?_set_cases hx hy' with ⟨rfl, rfl⟩ | hold'
      · rw [hbatch]
        rw [hscn] at hle
        exact h.order j j' y x hold hx hne g hg c hc hle
      · exact h.order j j' y y' hold hold' hne g hg c hc hle
  · intro g hg
    rcases h.accounted g hg with hdone | hnode | ⟨j, y, hy, hgy⟩
    · exact .inl (hkeep g hdone)
    · exact .inr (.inl hnode)
    · rcases eq_or_ne idx j with rfl | hj
      · cases hy.symm.trans hx
        rcases hgone g hgy with hz | hdone
        · exact .inr (.inr ⟨idx, z, getElem?_set_self hlt, hz⟩)
        · exact .inl hdone
      · exact .inr (.inr ⟨j, y, by rw [getElem?_set_ne hj]; exact hy, hgy⟩)

lemma rplStep_replay {k} (h : SysOk s) (ht : rplStep s (.replay idx k) = some t) : SysOk t := by
  simp only [rplStep] at ht
  split at ht
  case h_1 => cases ht
  rename_i x hx
  split at ht
  case h_1 => cases ht
  case h_2 g hg =>
    cases ht
    apply h.setSlot { x with left := x.left.eraseIdx k } _ s.scn hx rfl rfl
    · intro g' hg'
      exact mem_of_mem_eraseIdx hg'
    · intro hfree
      have hnil := h.freeDone idx x hx hfree
      rw [hnil] at hg
      cases hg
    · exact fun g' hg' => mem_append_left _ hg'
    · intro g' hg'
      obtain ⟨m, hm⟩ := mem_iff_getElem?.mp hg'
      rcases eq_or_ne m k with rfl | hmk
      · cases hg.symm.trans hm
        exact .inr (by simp)
      · exact .inl (mem_eraseIdx_iff_getElem?.mpr ⟨m, hmk, hm⟩)

lemma publish_some (ht : rplStep s (.publish idx) = some t) :
    ∃ x, s.slots[idx]? = some x ∧ x.left = [] ∧ t = { s with
      scn := dtcUpdateStandbyClusterScn s.slots x s.scn
      slots := s.slots.set idx { x with free := true } } := by
  simp only [rplStep] at ht
  split at ht
  case h_1 => cases ht
  case h_2 x hx =>
    obtain ⟨hbusy, ⟨⟩⟩ := Option.ite_none_left_eq_some.mp ht
    simp only [Bool.or_eq_true, Bool.not_eq_true', not_or] at hbusy
    exact ⟨x, hx, by simpa using hbusy.2, rfl⟩

lemma rplStep_publish (h : SysOk s) (ht : rplStep s (.publish idx) = some t) : SysOk t := by
  obtain ⟨x, hx, hnil, rfl⟩ := publish_some ht
  exact h.setSlot { x with free := true } s.replayed _ hx rfl rfl (fun g hg => hg)
    (fun _ => hnil) (fun g hg => hg) fun g hg => .inl hg

lemma rplStep_sysOk {a} (h : SysOk s) (hord : inScnOrder s a = true) (ht : rplStep s a = some t) :
    SysOk t := by
  cases a with
  | txScn => exact rplStep_txScn h ht
  | txEnd => exact rplStep_txEnd h ht
  | write => exact rplStep_write h ht
  | message =>
    simp only [rplStep] at ht
    split at ht
    case h_1 => cases ht
    case h_2 =>
      apply h.withNode ht
      intro n m hm
      cases hm
      exact ⟨fun hn => { hn with }, fun b => Iff.rfl⟩
  | flush => exact rplStep_flush h hord ht
  | load => exact rplStep_load h ht
  | take => exact rplStep_take h hord ht
  | replay => exact rplStep_replay h ht
  | publish => exact rplStep_publish h ht

end

/-! ## Raising the scn -/

/-- A batch is published only if every batch in progress has at least its LSN. -/
lemma isMinBatchLsn_spec {batchLsn m slots had has}
    (h : isMinBatchLsn batchLsn slots scn had = some (m, has)) :
    (∀ x ∈ slots, x.left ≠ [] → batchLsn ≤ x.batch.lsn) ∧
      (has = false → had = false ∧ ∀ x ∈ slots, x.left = []) ∧
      (m = scn ∨ ∃ x ∈ slots, m = x.batchScn) := by
  induction slots generalizing scn had with
  | nil =>
    cases h
    exact ⟨nofun, fun hf => ⟨hf, nofun⟩, .inl rfl⟩
  | cons x slots ih =>
    have hmax : ∀ {m : Nat}, (m = max scn x.batchScn ∨ ∃ y ∈ slots, m = y.batchScn) →
        m = scn ∨ ∃ y ∈ x :: slots, m = y.batchScn := by
      intro m hm
      rcases hm with hm | ⟨y, hy, hm⟩
      · rcases Nat.le_total scn x.batchScn with hle | hle
        · exact .inr ⟨x, .head _, hm.trans (Nat.max_eq_right hle)⟩
        · exact .inl (hm.trans (Nat.max_eq_left hle))
      · exact .inr ⟨y, .tail _ hy, hm⟩
    rw [isMinBatchLsn] at h
    split at h
    case isTrue hnil =>
      obtain ⟨hmin, hnone, hscn⟩ := ih h
      have hx : x.left = [] := isEmpty_iff.mp hnil
      refine ⟨forall_mem_cons.mpr ⟨fun hleft => absurd hx hleft, hmin⟩, fun hf => ?_, hmax hscn⟩
      exact ⟨(hnone hf).1, forall_mem_cons.mpr ⟨hx, (hnone hf).2⟩⟩
    case isFalse =>
      split at h
      case isTrue => cases h
      case isFalse hle =>
        obtain ⟨hmin, hnone, hscn⟩ := ih h
        refine ⟨forall_mem_cons.mpr ⟨fun _ => Nat.le_of_not_lt hle, hmin⟩, fun hf => ?_, hmax hscn⟩
        cases (hnone hf).1

/-- Where a new scn comes from: from the batch itself, or from any slot if none is in
progress. -/
lemma dtcUpdateStandbyClusterScn_cases {slots x}
    (h : scn < dtcUpdateStandbyClusterScn slots x scn) :
    ∃ m has, isMinBatchLsn x.batch.lsn slots 0 false = some (m, has) ∧
      dtcUpdateStandbyClusterScn slots x scn = if has then x.batchScn else m := by
  rw [dtcUpdateStandbyClusterScn] at h ⊢
  cases hmin : isMinBatchLsn x.batch.lsn slots 0 false with
  | none =>
    rw [hmin] at h
    exact absurd h (Nat.lt_irrefl _)
  | some r =>
    refine ⟨r.1, r.2, rfl, ?_⟩
    rw [hmin] at h
    simp only at h ⊢
    generalize (if r.2 = true then x.batchScn else r.1) = new at h ⊢
    split at h
    case isTrue hgt => rw [if_pos hgt]
    case isFalse => exact absurd h (Nat.lt_irrefl _)

/-- The scn to which a batch raises that of the standby is below every scn that is
outstanding. -/
lemma SysOk.raise {s x} (h : SysOk s) (hx : s.slots[idx]? = some x) (hleft : x.left = [])
    (hraise : s.scn < dtcUpdateStandbyClusterScn s.slots x s.scn) {g}
    (hg : Outstanding s.nodes s.slots g) (hscn : scn ∈ g.scns) :
    dtcUpdateStandbyClusterScn s.slots x s.scn < scn := by
  obtain ⟨m, has, hmin, hnew⟩ := dtcUpdateStandbyClusterScn_cases hraise
  obtain ⟨hlsn, hnone, hmax⟩ := isMinBatchLsn_spec hmin
  rw [hnew] at hraise ⊢
  -- the new scn is that of a batch already taken
  have htaken : ∃ j y, s.slots[j]? = some y ∧ (if has then x.batchScn else m) = y.batchScn ∧
      (has = true → j = idx) := by
    cases has with
    | true => exact ⟨idx, x, hx, rfl, fun _ => rfl⟩
    | false =>
      rcases hmax with hzero | ⟨y, hy, hm⟩
      · simp [hzero] at hraise
      · obtain ⟨j, hj⟩ := mem_iff_getElem?.mp hy
        exact ⟨j, y, hj, hm, nofun⟩
  obtain ⟨j, y, hy, heq, hown⟩ := htaken
  rw [heq] at hraise ⊢
  obtain ⟨d, hd, hmem⟩ : ∃ d ∈ s.taken, y.batchScn ∈ d.scns := by
    rcases h.slotScn j y hy with hzero | hd
    · omega
    · exact hd
  rcases hg with ⟨i, n, hn, b, hb, hgb⟩ | ⟨i, z, hz, hgz⟩
  · exact h.above d hd _ hmem i n hn b hb scn (mem_flatMap.mpr ⟨g, hgb, hscn⟩)
  -- a batch in progress has a greater LSN, so its scns are greater
  have hzleft : z.left ≠ [] := ne_nil_of_mem hgz
  cases has with
  | false => exact absurd ((hnone rfl).2 z (mem_of_getElem? hz)) hzleft
  | true =>
    obtain rfl := hown rfl
    cases hy.symm.trans hx
    apply Nat.lt_of_not_le
    intro hle
    have hne : i ≠ j := by
      rintro rfl
      cases hy.symm.trans hz
      exact hzleft hleft
    have hlt := h.order i j z x hz hx hne g hgz scn hscn hle
    have hge := hlsn z (mem_of_getElem? hz) hzleft
    omega

/-- In every run in which the batches come to the standby in the order of their commit
scns, it raises its scn consistently. -/
theorem standby_scn_is_consistent {s : Sys}
    (h : Lib.ReachableBy rplStep Sys.Fresh (fun s a => inScnOrder s a = true) s) :
    RaisesConsistently s := by
  have hs : SysOk s :=
    h.invariant (fun _ hf => hf.sysOk) fun _ _ _ hord hs ht => rplStep_sysOk hs hord ht
  intro idx t ht hraise g hg scn hscn hle
  obtain ⟨x, hx, hleft, rfl⟩ := publish_some ht
  rcases hs.accounted g hg with hdone | hout
  · exact hdone
  · have hlt := hs.raise hx hleft hraise hout hscn
    exact absurd hle (Nat.not_le.mpr hlt)

/-! ## Runs -/

/-- Two nodes and two slots, with nothing done. -/
def freshSys : Sys where
  nodes := [⟨0, 0, [], [], [], []⟩, ⟨0, 0, [], [], [], []⟩]
  slots := [⟨⟨0, []⟩, [], 0, true⟩, ⟨⟨0, []⟩, [], 0, true⟩]
  scn := 0
  taken := []
  logged := []
  replayed := []

lemma freshSys_fresh : freshSys.Fresh := by
  constructor
  case nodes =>
    intro n hn
    simp only [freshSys, mem_cons, not_mem_nil, or_false, or_self] at hn
    subst hn
    exact ⟨rfl, rfl, rfl, rfl⟩
  case slots =>
    intro x hx
    simpa [freshSys] using hx
  case logged => rfl

/-- The first node commits at 10, the second, after a message, at 20; both batches are in
progress at once, and the second is replayed first. -/
def orderedRun : List Action :=
  [.txScn 0 10, .txEnd 0 0, .message 0 1 true true, .txScn 1 20, .txEnd 1 0, .flush 0 [1],
    .flush 1 [2], .load 0, .load 1, .take 0, .take 1, .replay 1 0, .publish 1, .replay 0 0]

theorem standby_scn_is_consistent_two_nodes :
    ∃ s, Lib.ReachableBy rplStep Sys.Fresh (fun s a => inScnOrder s a = true) s ∧
      ((rplStep s (.publish 0)).map fun t => (s.scn, t.scn)) = some (0, 20) ∧
      RaisesConsistently s := by
  obtain ⟨s, hrun, hscn⟩ := Lib.exists_of_runOk_map rplStep inScnOrder freshSys orderedRun
    (fun s => (rplStep s (.publish 0)).map fun t => (s.scn, t.scn)) (some (0, 20))
    (by decide +kernel)
  have hreach : Lib.ReachableBy rplStep Sys.Fresh (fun s a => inScnOrder s a = true) s :=
    .of_runOk _ (.init freshSys_fresh) hrun
  exact ⟨s, hreach, hscn, standby_scn_is_consistent hreach⟩

/-- The second node commits at 20 with LSN 1, the first at 10 with LSN 2: its LSN clock is
ahead, its scn clock behind. -/
def crossedRun : List Action :=
  [.txScn 1 20, .txEnd 1 0, .flush 1 [1], .write 0, .txScn 0 10, .txEnd 0 0, .flush 0 [1, 2],
    .load 0, .load 1, .take 0, .replay 0 0]

/-- The standby takes the batch with LSN 1 and raises its scn to 20, while the transaction
with commit scn 10 is in the log of the first node and not replayed. -/
theorem standby_scn_is_inconsistent : ∃ s, Lib.Reachable rplStep Sys.Fresh s ∧
      ((rplStep s (.publish 0)).map fun t => (s.scn, t.scn)) = some (0, 20) ∧
      (⟨0, 2, [10]⟩ : Group) ∈ s.logged ∧ (⟨0, 2, [10]⟩ : Group) ∉ s.replayed ∧
      ¬ RaisesConsistently s := by
  obtain ⟨s, hrun, hlook⟩ := Lib.exists_of_run_map rplStep freshSys crossedRun
    (fun s => ((rplStep s (.publish 0)).map fun t => (s.scn, t.scn), s.logged, s.replayed))
    (some (0, 20), [⟨1, 1, [20]⟩, ⟨0, 1, []⟩, ⟨0, 2, [10]⟩], [⟨1, 1, [20]⟩]) (by decide +kernel)
  obtain ⟨hscn, hlook⟩ := Prod.mk.inj hlook
  obtain ⟨hlogged, hreplayed⟩ := Prod.mk.inj hlook
  have hin : (⟨0, 2, [10]⟩ : Group) ∈ s.logged := by rw [hlogged]; decide
  have hout : (⟨0, 2, [10]⟩ : Group) ∉ s.replayed := by rw [hreplayed]; decide
  refine ⟨s, .of_run crossedRun (.init freshSys_fresh) hrun, hscn, hin, hout, ?_⟩
  intro hcons
  obtain ⟨t, ht, hts⟩ := Option.map_eq_some_iff.mp hscn
  obtain ⟨hold, hnew⟩ := Prod.mk.inj hts
  exact hout (hcons 0 t ht (by omega) _ hin 10 (by simp) (by omega))

end Cantian.Standby
