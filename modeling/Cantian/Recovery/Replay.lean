import Cantian.Recovery.ReadAhead

/-!
# Replaying the logs of several nodes

A fetch takes the batch with the smallest LSN among the next batches of all
nodes, so that a recovery is a merge of the logs by batch LSN. Together with
what the writing nodes guarantee about their logs this keeps, for every
page, the order of its modifications.
-/

namespace Cantian.Recovery

open Lib List Option LogBatch

/-- Rounds of the reader that can still change something for a node. -/
def readsLeft (node : RcyNode) : Nat :=
  node.unread.length +
    if node.recoverDone || (node.bufs node.writeIndex).readSize == some 0 then 0 else 1

/-- The same for all nodes together. -/
def readsLeftAll : List RcyNode → Nat
  | [] => 0
  | node :: nodes => readsLeft node + readsLeftAll nodes

variable {node' : RcyNode} {pend : List (List LogBatch)}

lemma readsLeft_le_of_done {node} (hun : node'.unread = node.unread)
    (hdone : node'.recoverDone = true) : readsLeft node' ≤ readsLeft node := by
  simp [readsLeft, hun, hdone]

lemma readsLeft_checkNodeReadEnd (node : RcyNode) :
    readsLeft (checkNodeReadEnd node) ≤ readsLeft node := by
  unfold checkNodeReadEnd
  split
  · exact readsLeft_le_of_done rfl rfl
  · exact Nat.le_refl _

/-- Giving back a buffer in which something was read does not bring back reads. -/
lemma readsLeft_releaseBuf {node i} (h : (node.bufs node.readIndex).readSize ≠ some 0) :
    readsLeft { releaseBuf node with readIndex := i } ≤ readsLeft node := by
  by_cases hw : node.writeIndex = node.readIndex <;>
    simp [readsLeft, releaseBuf, RcyNode.setBuf, hw, h]

lemma readsLeft_update {bufSize node} (h : dtcUpdateBatch bufSize node = some node') :
    readsLeft node' ≤ readsLeft node := by
  unfold dtcUpdateBatch at h
  split at h
  · cases h
  · rename_i hzero
    cases h
    rw [checkNodeReadEnd_done hzero]
    exact readsLeft_le_of_done rfl rfl
  · rename_i m hne hm
    have hsize : (node.bufs node.readIndex).readSize ≠ some 0 := by
      rw [hm]
      exact fun he => hne (some.inj he)
    split at h
    · simp only at h
      split at h
      · cases h
      · cases h
        exact Nat.le_trans (readsLeft_checkNodeReadEnd _) (readsLeft_releaseBuf hsize)
    · cases h
      exact Nat.le_refl _

lemma readsLeft_visit {bufSize strict node v}
    (h : visitNode bufSize strict node = some (node', v)) : readsLeft node' ≤ readsLeft node := by
  unfold visitNode at h
  split at h
  · cases h
    exact Nat.le_refl _
  obtain ⟨upd, hupd, hres⟩ := map_eq_some_iff.mp h
  apply Nat.le_trans _ (readsLeft_update hupd)
  -- after the update only `recover_done` may still be set
  have hcases : node' = upd ∨ node' = { upd with recoverDone := true } := by
    simp only at hres
    repeat' split at hres
    all_goals
      cases hres
      first
        | exact .inl rfl
        | exact .inr rfl
  obtain rfl | rfl := hcases
  · exact Nat.le_refl _
  · exact readsLeft_le_of_done rfl rfl

/-- Every round of the reader that changes something uses up one of them. -/
lemma Window.readsLeft_read {bufSize k count more node l} (h : Window bufSize k node l)
    (hread : Recovery.readNodeLog bufSize count more node = some node') :
    readsLeft node' < readsLeft node := by
  simp only [Recovery.readNodeLog, List.isEmpty_iff] at hread
  split at hread
  · cases hread
  rename_i hguard
  simp only [Bool.or_eq_true, not_or, Bool.not_eq_true] at hguard
  split at hread
  · split at hread
    · cases hread
    · rename_i hsize
      cases hread
      simp [readsLeft, RcyNode.setBuf, hguard.2, hsize]
  · rename_i hunread
    cases hread
    have hsize : (node.bufs node.writeIndex).readSize ≠ some 0 := by
      have hk := h.count_lt hguard.1
      obtain ⟨-, hnone | ⟨-, -, hun⟩⟩ := h.free k (Nat.le_refl k) hk
      · rw [h.write_eq, hnone]
        exact fun he => by cases he
      · exact absurd hun hunread
    have hpos := List.length_pos_iff.mpr hunread
    have hflag : readsLeft node = node.unread.length + 1 := by
      simp [readsLeft, hguard.2, hsize]
    rw [hflag, readsLeft, length_drop]
    split <;> omega

/-! ## A fetch is a step of the merge -/

/-- A node that the fetch loop has looked at. -/
def Visited (bufSize : Nat) (node : RcyNode) (l : List LogBatch) : Prop :=
  NodeOk bufSize node l ∧ ∀ b rest, l = b :: rest → NodeOk bufSize (takeBatch b node) rest

lemma fetchLoop_spec {bufSize strict nodes} (h : List.Forall₂ (NodeOk bufSize) nodes pend) (i : Nat)
    (best : Option (Nat × LogBatch)) {r} (hf : fetchLoop bufSize strict nodes i best = some r) :
    ∃ nodes', r = .ok nodes' (leastHeadFrom LogBatch.lsn pend i best) ∧
      List.Forall₂ (Visited bufSize) nodes' pend ∧
      readsLeftAll nodes' ≤ readsLeftAll nodes := by
  induction h generalizing i best r with
  | nil =>
    cases hf
    exact ⟨[], rfl, .nil, Nat.le_refl _⟩
  | @cons node l nodes pend hnode _ ih =>
    unfold fetchLoop at hf
    cases hv : visitNode bufSize strict node with
    | none =>
      rw [hv] at hf
      cases hf
    | some p =>
      obtain ⟨node', v⟩ := p
      have hreads := readsLeft_visit hv
      obtain ⟨hok, ⟨rfl, rfl⟩ | ⟨b, rest, rfl, rfl, htake⟩⟩ := hnode.visit hv
      · rw [hv] at hf
        obtain ⟨r', hrest, rfl⟩ := map_eq_some_iff.mp hf
        obtain ⟨nodes', rfl, hvis, hsum⟩ := ih (i + 1) best hrest
        refine ⟨node' :: nodes', ?_, .cons ⟨hok, fun b rest he => by cases he⟩ hvis, ?_⟩
        · cases best <;> rfl
        · simp only [readsLeftAll]
          omega
      · rw [hv] at hf
        obtain ⟨r', hrest, rfl⟩ := map_eq_some_iff.mp hf
        obtain ⟨nodes', rfl, hvis, hsum⟩ := ih (i + 1) _ hrest
        refine ⟨node' :: nodes', ?_, .cons ⟨hok, fun b' rest' he => ?_⟩ hvis, ?_⟩
        · have hlt : b.lsn < ctInvalidId64 := (hnode.sound b mem_cons_self).2.2
          cases best with
          | none =>
            simp only [currBatchLsn, hlt, if_true]
            rfl
          | some q =>
            by_cases hless : b.lsn < q.2.lsn <;>
              simp [currBatchLsn, Fetched.cons, leastHeadFrom, hless]
        · cases he
          exact htake
        · simp only [readsLeftAll]
          omega

/-- A fetch that cannot go on waits for some node. -/
lemma fetchLoop_none {bufSize strict} (nodes : List RcyNode) (i : Nat)
    (best : Option (Nat × LogBatch)) (hf : fetchLoop bufSize strict nodes i best = none) :
    ∃ (j : Nat) (node : RcyNode), nodes[j]? = some node ∧ visitNode bufSize strict node = none := by
  induction nodes generalizing i best with
  | nil => cases hf
  | cons node nodes ih =>
    have hlater : ∀ i best, fetchLoop bufSize strict nodes i best = none →
        ∃ (j : Nat) (n : RcyNode), (node :: nodes)[j]? = some n ∧
          visitNode bufSize strict n = none := by
      intro i best hrest
      obtain ⟨j, n, hj, hn⟩ := ih i best hrest
      exact ⟨j + 1, n, hj, hn⟩
    unfold fetchLoop at hf
    split at hf
    · exact ⟨0, node, rfl, ‹_›⟩
    · cases hf
    · cases hf
    · exact hlater _ _ (map_eq_none_iff.mp hf)
    · exact hlater _ _ (map_eq_none_iff.mp hf)

section
variable {nodes : List RcyNode} {bufSize i : Nat} {node : RcyNode}
  (h : List.Forall₂ (NodeOk bufSize) nodes pend) (hi : nodes[i]? = some node)
include h hi

lemma forall₂_nodeOk : ∃ l, NodeOk bufSize node l := by
  obtain ⟨hlt, rfl⟩ := List.getElem?_eq_some_iff.mp hi
  exact ⟨_, h.get hlt (h.length_eq ▸ hlt)⟩

lemma forall₂_set (hkeep : ∀ l, NodeOk bufSize node l → NodeOk bufSize node' l) :
    List.Forall₂ (NodeOk bufSize) (nodes.set i node') pend := by
  induction h generalizing i with
  | nil => cases hi
  | cons hnode hrest ih =>
    cases i with
    | zero =>
      cases hi
      exact .cons (hkeep _ hnode) hrest
    | succ => exact .cons hnode (ih hi)

end

lemma forall₂_take {bufSize nodes} (h : List.Forall₂ (Visited bufSize) nodes pend) {i b rest}
    (hi : pend[i]? = some (b :: rest)) :
    List.Forall₂ (NodeOk bufSize) (nodes.modify i (takeBatch b)) (pend.set i rest) := by
  induction h generalizing i with
  | nil => cases hi
  | cons hnode hrest ih =>
    cases i with
    | zero =>
      cases hi
      exact .cons (hnode.2 b rest rfl) (hrest.imp fun _ _ hv => hv.1)
    | succ => exact .cons hnode.1 (ih hi)

lemma readsLeftAll_set {nodes i node} (hi : nodes[i]? = some node)
    (hlt : readsLeft node' < readsLeft node) :
    readsLeftAll (nodes.set i node') < readsLeftAll nodes := by
  induction nodes generalizing i with
  | nil => cases hi
  | cons n nodes ih =>
    cases i with
    | zero =>
      cases hi
      simp only [set_cons_zero, readsLeftAll]
      omega
    | succ =>
      have := ih hi
      simp only [set_cons_succ, readsLeftAll]
      omega

lemma readsLeft_takeBatch (b : LogBatch) (node : RcyNode) :
    readsLeft (takeBatch b node) = readsLeft node := by
  by_cases hw : node.writeIndex = node.readIndex <;>
    simp [readsLeft, takeBatch, RcyNode.setBuf, hw]

lemma readsLeftAll_modify (nodes : List RcyNode) (i : Nat) (b : LogBatch) :
    readsLeftAll (nodes.modify i (takeBatch b)) = readsLeftAll nodes := by
  induction nodes generalizing i with
  | nil => simp
  | cons n nodes ih =>
    cases i with
    | zero => simp [readsLeftAll, readsLeft_takeBatch]
    | succ => simp [readsLeftAll, ih]

/-! ## Runs of a recovery -/

/-- The recovery of the crashed nodes before its first step. -/
def RcyState.Start (c : Cluster) (crashed : List Nat) (s : RcyState) : Prop :=
  s = ⟨crashed.map fun n => RcyNode.start (c.writer n).firstLfn (c.writer n).log, [], .running⟩

/-- The logs of the crashed nodes. -/
def crashedLogs (c : Cluster) (crashed : List Nat) : List (List LogBatch) :=
  crashed.map fun n => (c.writer n).log

/-- The recovery has merged the logs up to the batches `pend` still to come. -/
structure Merging (bufSize : Nat) (logs : List (List LogBatch)) (s : RcyState)
    (pend : List (List LogBatch)) : Prop where
  nodes : List.Forall₂ (NodeOk bufSize) s.nodes pend
  merges : Merges LogBatch.lsn logs s.fetched pend
  sound : s.status ≠ .failed
  finished : s.status = .finished → pend.flatten = []

section
variable {bufSize bufCount : Nat} {strict : Bool} {c : Cluster} {crashed : List Nat}

lemma WriterOk.nodeOk {n w} (h : WriterOk bufCount n w) (hpos : 0 < bufSize) :
    NodeOk bufSize (RcyNode.start w.firstLfn w.log) w.log where
  window := ⟨0,
    { read_lt := hpos
      count_le := Nat.zero_le _
      write_eq := (slotAt_zero hpos).symm
      filled := fun i hi => absurd hi (Nat.not_lt_zero i)
      free := fun _ _ _ => ⟨rfl, .inl rfl⟩
      pending := rfl }⟩
  done hd := by cases hd
  lfn := h.log_lfn
  sound b hb := ⟨(h.log_sound b hb).1, (h.log_sound b hb).2, h.batch_lt hb⟩

lemma start_merging (hc : Coherent bufCount c) (hpos : 0 < bufSize) {s}
    (hs : RcyState.Start c crashed s) :
    Merging bufSize (crashedLogs c crashed) s (crashedLogs c crashed) := by
  subst hs
  refine ⟨?_, .nil, nofun, nofun⟩
  induction crashed with
  | nil => exact .nil
  | cons n crashed ih => exact .cons ((hc.writers n).nodeOk hpos) ih

/-- One step of the recovery: the reader leaves the merge where it is, a fetch takes
one batch or ends the recovery. -/
lemma Merging.step {logs pend s t} (h : Merging bufSize logs s pend) {a}
    (hstep : rcyStep bufSize strict s a = some t) :
    (∃ pend', Merging bufSize logs t pend') ∧
      readsLeftAll t.nodes ≤ readsLeftAll s.nodes ∧
      (readsLeftAll t.nodes < readsLeftAll s.nodes ∧ t.fetched = s.fetched ∧ t.status = s.status ∨
        s.status = .running ∧ t.status = .running ∧ t.fetched.length = s.fetched.length + 1 ∨
        s.status = .running ∧ t.status = .finished ∧ t.fetched = s.fetched) := by
  cases a with
  | read i count more =>
    simp only [rcyStep] at hstep
    split at hstep
    · cases hstep
    · rename_i node hnode
      obtain ⟨node', hread, rfl⟩ := map_eq_some_iff.mp hstep
      obtain ⟨l, hl⟩ := forall₂_nodeOk h.nodes hnode
      obtain ⟨k, hwin⟩ := hl.window
      have hlt := readsLeftAll_set hnode (hwin.readsLeft_read hread)
      refine ⟨⟨pend, ?_, h.merges, h.sound, h.finished⟩, Nat.le_of_lt hlt, .inl ⟨hlt, rfl, rfl⟩⟩
      exact forall₂_set h.nodes hnode fun l' hl' => hl'.read hread
  | fetch =>
    simp only [rcyStep] at hstep
    obtain ⟨hrun, hstep⟩ := ite_none_right_eq_some.mp hstep
    obtain ⟨r, hloop, rfl⟩ := map_eq_some_iff.mp hstep
    obtain ⟨nodes', rfl, hvis, hsum⟩ := fetchLoop_spec h.nodes 0 none hloop
    cases hbest : leastHeadFrom lsn pend 0 none with
    | none =>
      have hempty : pend.flatten = [] := by
        apply @takeLeast_none _ lsn
        unfold takeLeast leastHead
        rw [hbest]
        rfl
      refine ⟨⟨pend, hvis.imp fun _ _ hv => hv.1, h.merges, ?_, fun _ => hempty⟩, hsum,
        .inr (.inr ⟨hrun, rfl, rfl⟩)⟩
      exact nofun
    | some p =>
      obtain ⟨i, b⟩ := p
      have htake : takeLeast lsn pend = some (b, pend.modify i tail) := by
        unfold takeLeast leastHead
        rw [hbest]
        rfl
      have ht := takeLeast_takes htake
      have hchosen := leastHead_chosen lsn pend
      unfold leastHead at hchosen
      rw [hbest] at hchosen
      obtain ⟨⟨rest, hi⟩, -⟩ := hchosen
      have hmod : pend.modify i tail = pend.set i rest := by
        rw [modify_eq_set_getElem?, hi]
        rfl
      rw [hmod] at ht
      refine ⟨⟨pend.set i rest, forall₂_take hvis hi, h.merges.snoc ht, h.sound, ?_⟩, ?_,
        .inr (.inl ⟨hrun, hrun, length_append⟩)⟩
      · intro hfin
        exact absurd (hrun.symm.trans hfin) nofun
      · rw [readsLeftAll_modify]
        exact hsum

end

end Cantian.Recovery
