import Mathlib.Data.List.Nodup
import Cantian.Recovery.Replay

/-!
# Merged replay keeps the order of every page

The batches fetched are the merge of the crashed nodes' logs by batch LSN.
Two groups for one page that come from different nodes are replayed in the
order of their LSNs because one of them lies in a batch below the LSN of
the other; two groups of one node are, because its log is replayed in
order and the groups of a batch are merged by LSN.
-/

namespace Cantian.Recovery

open Lib List Option RcyNode

variable {logs pend : List (List LogBatch)}

section
variable {bufSize bufCount : Nat} {strict : Bool} {c : Cluster} {crashed : List Nat}

/-! ## The recovery comes to its end -/

/-- Steps that a recovery can still make. -/
def stepsLeft (logs : List (List LogBatch)) (s : RcyState) : Nat :=
  readsLeftAll s.nodes + (logs.flatten.length - s.fetched.length) +
    if s.status = .running then 1 else 0

lemma Merging.stepsLeft_lt {s t} (h : Merging bufSize logs s pend) {a}
    (hstep : rcyStep bufSize strict s a = some t) : stepsLeft logs t < stepsLeft logs s := by
  obtain ⟨⟨pend', h'⟩, hle, hcases⟩ := h.step hstep
  have hlen := h'.merges.perm.length_eq
  rw [length_append] at hlen
  unfold stepsLeft
  obtain ⟨hlt, hf, hst⟩ | ⟨hs, ht, hf⟩ | ⟨hs, ht, hf⟩ := hcases
  · rw [hf, hst]
    omega
  · rw [hs, ht, hf]
    simp only [if_true]
    omega
  · rw [hs, ht, hf]
    simp only [if_true, reduceCtorEq, if_false]
    omega

lemma Merging.run_le (as : List RcyAction) {s t} (h : ∃ pend, Merging bufSize logs s pend)
    (hrun : run (rcyStep bufSize strict) s as = some t) : as.length ≤ stepsLeft logs s := by
  induction as generalizing s with
  | nil => exact Nat.zero_le _
  | cons a as ih =>
    obtain ⟨u, hu, hrest⟩ := bind_eq_some_iff.mp hrun
    obtain ⟨pend, h⟩ := h
    have hlt := h.stepsLeft_lt hu
    have hle := ih (h.step hu).1 hrest
    rw [length_cons]
    omega

/-- As long as the recovery runs, a fetch can be made or the reader can move on. -/
lemma Merging.progress {s} (h : Merging bufSize logs s pend) (hsize : 2 ≤ bufSize)
    (hrun : s.status = .running) : ∃ a t, rcyStep bufSize strict s a = some t := by
  cases hloop : fetchLoop bufSize strict s.nodes 0 none with
  | some =>
    have hfetch : rcyStep bufSize strict s .fetch = dtcRcyFetchLogBatch bufSize strict s :=
      if_pos hrun
    rw [dtcRcyFetchLogBatch, hloop, map_some] at hfetch
    exact ⟨.fetch, _, hfetch⟩
  | none =>
    obtain ⟨j, node, hj, hv⟩ := fetchLoop_none _ _ _ hloop
    obtain ⟨l, hl⟩ := forall₂_nodeOk h.nodes hj
    obtain ⟨node', hread⟩ := hl.visit_none hsize hv 0 true
    refine ⟨.read j 0 true, { s with nodes := s.nodes.set j node' }, ?_⟩
    simp only [rcyStep, hj, hread, map_some]

/-! ## The groups in the order of their replay -/

/-- The groups replayed so far; `none` if the replay of a batch has panicked. -/
def replayedGroups (s : RcyState) : Option (List LogGroup) :=
  (s.fetched.mapM rcyReplayBatch).map List.flatten

/-- All groups in the logs of the crashed nodes. -/
def allGroups (c : Cluster) (crashed : List Nat) : List LogGroup :=
  crashed.flatMap fun n => (c.writer n).log.flatMap LogBatch.groups

lemma mapM_eq_some {α β : Type} {f : α → Option β} {g : α → β} (l : List α)
    (h : ∀ a ∈ l, f a = some (g a)) : l.mapM f = some (l.map g) := by
  induction l with
  | nil => rfl
  | cons a l ih =>
    rw [mapM_cons, h a mem_cons_self, ih fun b hb => h b (mem_cons_of_mem a hb)]
    rfl

/-- The replay of one batch, as a function. -/
def replayOf (b : LogBatch) : List LogGroup := (rcyReplayBatch b).getD []

lemma WriterOk.replay {n w} (h : WriterOk bufCount n w) (hcount : bufCount ≤ ctMaxLogBuffers) {b}
    (hb : b ∈ w.log) :
    rcyReplayBatch b = some (replayOf b) ∧ (replayOf b).Perm b.groups ∧ LsnSorted (replayOf b) := by
  obtain ⟨hne, hlen⟩ := h.log_parts b hb
  obtain ⟨gs, hgs, hperm, hsorted⟩ := rcyReplayBatch_spec hne (Nat.le_trans hlen hcount)
  have hof : replayOf b = gs := by simp [replayOf, hgs]
  rw [hof]
  refine ⟨hgs, hperm, ?_⟩
  -- no two groups of the node have the same LSN, so sorted means strictly sorted
  have hnodup : (gs.map LogGroup.lsn).Nodup := by
    rw [(hperm.map LogGroup.lsn).nodup_iff]
    have hall := h.distinct
    rw [map_append, map_flatMap] at hall
    exact (nodup_flatMap.mp (nodup_append.mp hall).1).1 b hb
  have hdistinct : gs.Pairwise fun g g' => g.lsn ≠ g'.lsn := pairwise_map.mp hnodup
  exact (hdistinct.and (hsorted (h.log_sorted b hb))).imp fun hg =>
    Nat.lt_of_le_of_ne hg.2 hg.1

lemma mem_crashedLogs {b} (h : b ∈ (crashedLogs c crashed).flatten) :
    ∃ n ∈ crashed, b ∈ (c.writer n).log := by
  obtain ⟨q, hq, hb⟩ := mem_flatten.mp h
  obtain ⟨n, hn, rfl⟩ := mem_map.mp hq
  exact ⟨n, hn, hb⟩

section
variable (hc : Coherent bufCount c) (hnodup : crashed.Nodup)
include hc hnodup

/-- The log of a batch can be told from its node. -/
lemma crashedLogs_tagged :
    Tagged (fun b : LogBatch => crashed.idxOf b.node) (crashedLogs c crashed) := by
  intro i q hi b hb
  unfold crashedLogs at hi
  rw [getElem?_map] at hi
  obtain ⟨n, hn, rfl⟩ := map_eq_some_iff.mp hi
  obtain ⟨hlt, hget⟩ := List.getElem?_eq_some_iff.mp hn
  show crashed.idxOf b.node = i
  rw [((hc.writers n).log_node b hb).1, ← hget]
  exact hnodup.idxOf_getElem i hlt

/-- Fetched batches that share a page are in the order of the LSNs of their groups. -/
lemma fetched_before {fetched} (h : Merges LogBatch.lsn (crashedLogs c crashed) fetched pend) :
    fetched.Pairwise fun b b' => Before b.groups b'.groups := by
  have hin : ∀ b ∈ fetched, ∃ n ∈ crashed, b ∈ (c.writer n).log := by
    intro b hb
    apply mem_crashedLogs
    exact h.perm.mem_iff.mpr (mem_append_left _ hb)
  have hlogs : ∀ {R : LogBatch → LogBatch → Prop}, (∀ n, (c.writer n).log.Pairwise R) →
      ∀ q ∈ crashedLogs c crashed, q.Pairwise R := by
    intro R hR q hq
    obtain ⟨n, -, rfl⟩ := mem_map.mp hq
    exact hR n
  have hlsn := (h.sorted (hlogs fun n => (hc.writers n).log_lsn.imp Nat.le_of_lt)).1
  have hsame := (h.same_queue (crashedLogs_tagged hc hnodup)
    (hlogs fun n => (hc.writers n).log_before)).2.1
  apply (hlsn.and hsame).imp_of_mem
  intro b b' hb hb' hboth
  obtain ⟨hle, hqueue⟩ := hboth
  obtain ⟨n, hn, hbn⟩ := hin b hb
  obtain ⟨m, hm, hbm⟩ := hin b' hb'
  have hnode := ((hc.writers n).log_node b hbn).1
  have hnode' := ((hc.writers m).log_node b' hbm).1
  by_cases hnm : n = m
  · apply hqueue
    rw [hnode, hnode', hnm]
  · intro g hg g' hg' p hp hp'
    have hgle := (hc.writers n).group_le hbn hg
    have hgle' := (hc.writers m).group_le hbm hg'
    obtain hlt | hlt := hc.cross n m hnm b hbn g hg b' hbm g' hg' p hp hp'
    · omega
    · -- the other order contradicts the order of the batches
      omega

lemma allGroups_nodup : (allGroups c crashed).Nodup := by
  have hnode : ∀ n, ∀ g ∈ (c.writer n).log.flatMap LogBatch.groups, g.node = n := by
    intro n g hg
    obtain ⟨b, hb, hgb⟩ := mem_flatMap.mp hg
    exact ((hc.writers n).log_node b hb).2 g hgb
  apply nodup_flatMap.mpr
  constructor
  · intro n _
    have hall := (hc.writers n).distinct
    rw [map_append] at hall
    exact List.Nodup.of_map _ (nodup_append.mp hall).1
  · apply hnodup.imp
    intro n m hnm g hg hg'
    exact hnm ((hnode n g hg).symm.trans (hnode m g hg'))

end

lemma flatMap_crashedLogs :
    (crashedLogs c crashed).flatten.flatMap LogBatch.groups = allGroups c crashed := by
  unfold crashedLogs allGroups
  rw [← flatMap_def, flatMap_assoc]

/-- The groups replayed are groups of the logs, none of them twice. -/
lemma replayed_perm (hc : Coherent bufCount c) (hcount : bufCount ≤ ctMaxLogBuffers) {fetched}
    (h : Merges LogBatch.lsn (crashedLogs c crashed) fetched pend) :
    ((fetched.map replayOf).flatten ++ pend.flatten.flatMap LogBatch.groups).Perm
      (allGroups c crashed) := by
  have hflat : ((fetched.map replayOf).flatten).Perm (fetched.flatMap LogBatch.groups) := by
    rw [← flatMap_def]
    apply List.Perm.flatMap_left
    intro b hb
    obtain ⟨n, -, hbn⟩ := mem_crashedLogs (h.perm.mem_iff.mpr (mem_append_left _ hb))
    exact ((hc.writers n).replay hcount hbn).2.1
  rw [← flatMap_crashedLogs]
  apply (hflat.append_right _).trans
  rw [← flatMap_append]
  exact (h.perm.flatMap_right _).symm

end

/-- Merged recovery. Take a cluster that has written its logs under the rules of
`writeStep` and any number of crashed nodes, whose logs are read through rings of
at least two read buffers. In every state of the recovery no batch panics or
fails, no group is replayed twice, and the groups replayed so far that touch
a page are in increasing LSN order. A running recovery can make a step and
every run of it is bounded; when it is finished, exactly the groups of the
crashed nodes' logs have been replayed. -/
theorem merged_replay_keeps_page_order {bufSize bufCount : Nat} {strict : Bool} {c : Cluster}
    {crashed : List Nat} {s : RcyState} (hcount : bufCount ≤ ctMaxLogBuffers) (hsize : 2 ≤ bufSize)
    (hnodup : crashed.Nodup) (hc : Reachable writeStep (Cluster.Start bufCount) c)
    (hs : Reachable (rcyStep bufSize strict) (RcyState.Start c crashed) s) :
    (∃ gs, replayedGroups s = some gs ∧ gs.Nodup ∧ (∀ g ∈ gs, g ∈ allGroups c crashed) ∧
      (∀ p, (gs.filter fun g => g.pages.contains p).Pairwise fun g g' => g.lsn < g'.lsn) ∧
      (s.status = .finished → gs.Perm (allGroups c crashed))) ∧
    s.status ≠ .failed ∧ (s.status = .running → ∃ a t, rcyStep bufSize strict s a = some t) ∧
    ∃ bound, ∀ as t, run (rcyStep bufSize strict) s as = some t → as.length ≤ bound := by
  have hcoh := coherent_of_reachable hc
  obtain ⟨pend, hm⟩ : ∃ pend, Merging bufSize (crashedLogs c crashed) s pend := by
    apply hs.invariant (P := fun s => ∃ pend, Merging bufSize (crashedLogs c crashed) s pend)
    · intro s hstart
      exact ⟨_, start_merging hcoh (by omega) hstart⟩
    · intro s a t _ hm hstep
      obtain ⟨pend, hm⟩ := hm
      exact (hm.step hstep).1
  have hin : ∀ b ∈ s.fetched, ∃ n ∈ crashed, b ∈ (c.writer n).log := fun b hb =>
    mem_crashedLogs (hm.merges.perm.mem_iff.mpr (mem_append_left _ hb))
  have hreplay : ∀ b ∈ s.fetched, rcyReplayBatch b = some (replayOf b) ∧
      (replayOf b).Perm b.groups ∧ LsnSorted (replayOf b) := by
    intro b hb
    obtain ⟨n, -, hbn⟩ := hin b hb
    exact (hcoh.writers n).replay hcount hbn
  have hgroups : replayedGroups s = some (s.fetched.map replayOf).flatten := by
    unfold replayedGroups
    rw [mapM_eq_some s.fetched fun b hb => (hreplay b hb).1]
    rfl
  have hperm := replayed_perm hcoh hcount hm.merges
  have hall := hperm.nodup_iff.mpr (allGroups_nodup hcoh hnodup)
  refine ⟨⟨_, hgroups, (nodup_append.mp hall).1, ?_, ?_, ?_⟩, hm.sound,
    hm.progress hsize, stepsLeft (crashedLogs c crashed) s, ?_⟩
  · exact fun g hg => hperm.mem_iff.mp (mem_append_left _ hg)
  · intro p
    rw [pairwise_filter, pairwise_flatten]
    constructor
    · intro q hq
      obtain ⟨b, hb, rfl⟩ := mem_map.mp hq
      exact (hreplay b hb).2.2.imp fun hlt _ _ => hlt
    · apply pairwise_map.mpr
      apply (fetched_before hcoh hnodup hm.merges).imp_of_mem
      intro b b' hb hb' hbefore g hg g' hg' hp hp'
      exact hbefore g ((hreplay b hb).2.1.mem_iff.mp hg) g' ((hreplay b' hb').2.1.mem_iff.mp hg')
        p (by simpa using hp) (by simpa using hp')
  · intro hfin
    rw [hm.finished hfin, flatMap_nil, append_nil] at hperm
    exact hperm
  · exact fun as t hrun => Merging.run_le as ⟨pend, hm⟩ hrun

/-- A cluster that has written nothing, with two log buffers on every node. -/
def quietCluster : Cluster where
  writer _ := ⟨0, 0, [[], []], none, []⟩
  owner _ := 0

/-- Page `7` is modified on node `0`, moves to node `1` and is modified there; then
both nodes crash and are recovered. -/
theorem merged_replay_two_nodes : ∃ c s, Reachable writeStep (Cluster.Start 2) c ∧
      Reachable (rcyStep 2 true) (RcyState.Start c [0, 1]) s ∧ s.status = .finished ∧
      replayedGroups s = some [⟨0, 1, [7]⟩, ⟨1, 2, [7]⟩] ∧
      (∃ gs, replayedGroups s = some gs ∧ gs.Nodup ∧ (∀ g ∈ gs, g ∈ allGroups c [0, 1]) ∧
        (∀ p, (gs.filter fun g => g.pages.contains p).Pairwise fun g g' => g.lsn < g'.lsn) ∧
        (s.status = .finished → gs.Perm (allGroups c [0, 1]))) ∧
      s.status ≠ .failed ∧
      (s.status = .running → ∃ a t, rcyStep 2 true s a = some t) ∧
      ∃ bound, ∀ as t, run (rcyStep 2 true) s as = some t → as.length ≤ bound := by
  obtain ⟨c, hwrite, hlogs⟩ := exists_of_run_map writeStep quietCluster
    [.write 0 false 0 [7], .switch 0, .flush 0 [[⟨0, 1, [7]⟩]], .raise 1 1, .transfer 7 1,
      .write 1 false 1 [7], .switch 1, .flush 1 [[⟨1, 2, [7]⟩]]]
    (fun c => [0, 1].map fun n => ((c.writer n).firstLfn, (c.writer n).log))
    [(0, [⟨0, 1, 1, [[⟨0, 1, [7]⟩]], true, true⟩]), (0, [⟨1, 1, 2, [[⟨1, 2, [7]⟩]], true, true⟩])]
    (by decide +kernel)
  have hc : Reachable writeStep (Cluster.Start 2) c :=
    .of_run _ (.init fun _ => ⟨rfl, rfl, rfl⟩) hwrite
  obtain ⟨s, hrcy, hdone⟩ := exists_of_run_map (rcyStep 2 true)
    ⟨[start 0 [⟨0, 1, 1, [[⟨0, 1, [7]⟩]], true, true⟩],
      start 0 [⟨1, 1, 2, [[⟨1, 2, [7]⟩]], true, true⟩]], [], .running⟩
    [.read 0 0 true, .read 1 0 true, .fetch, .read 0 0 false, .fetch, .read 1 0 false, .fetch]
    (fun s => (s.status, replayedGroups s)) (.finished, some [⟨0, 1, [7]⟩, ⟨1, 2, [7]⟩])
    (by decide +kernel)
  have hstart : RcyState.Start c [0, 1]
      ⟨[start 0 [⟨0, 1, 1, [[⟨0, 1, [7]⟩]], true, true⟩],
        start 0 [⟨1, 1, 2, [[⟨1, 2, [7]⟩]], true, true⟩]], [], .running⟩ := by
    simp only [map_cons, map_nil, cons.injEq, Prod.mk.injEq, and_true] at hlogs
    unfold RcyState.Start
    simp only [map_cons, map_nil, hlogs]
  have hs : Reachable (rcyStep 2 true) (RcyState.Start c [0, 1]) s :=
    .of_run _ (.init hstart) hrcy
  exact ⟨c, s, hc, hs, (Prod.mk.inj hdone).1, (Prod.mk.inj hdone).2,
    merged_replay_keeps_page_order (by decide) (by decide) (by decide) hc hs⟩

end Cantian.Recovery
