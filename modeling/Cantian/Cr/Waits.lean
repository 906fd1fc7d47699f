import Mathlib.Data.List.Basic
import Mathlib.Tactic.Cases
import Cantian.Cr.Construct

/-!
# Who waits for a prepared transaction

What a search depends on in an ITL is its mark: whether it is awaited, running
or ended after the query scn. A search leaves the marks as they are and stops at
the first awaited or running ITL; a rollback turns a running ITL into an ended
one. So on a leaf with an awaited ITL the construction is a walk over the marks:
the running ITLs before the awaited one are rolled back in their order, each
where its undo is, and what counts is where the page is at the end of the walk.
-/

namespace Cantian.Cr

open List

section
variable {β δ : Type} {revert : δ → Body β → Option (Body β)} (k : Kernel) (cur : CrCursor)

/-- An ITL of another transaction that the reader has to wait for. -/
def PcrItl.awaited (item : PcrItl δ) : Bool :=
  k.isXaConsistency ∧ item.xid ≠ cur.xid ∧ prepared (txGetPcrItlInfo k true item) cur

def awaited (itls : List (PcrItl δ)) : List (PcrItl δ) :=
  itls.filter (·.awaited k cur)

/-- An ITL that a search stops at to have it rolled back. -/
def PcrItl.running (item : PcrItl δ) : Bool :=
  (txGetPcrItlInfo k true item).status ≠ .xactEnd ∧ item.awaited k cur = false ∧
    (item.xid = cur.xid → cur.ssn ≤ item.ssn)

def PcrItl.late (item : PcrItl δ) : Bool :=
  (txGetPcrItlInfo k true item).status = .xactEnd ∧
    cur.queryScn < (txGetPcrItlInfo k true item).scn

/-- Another instance comes to the end of the undo list without a read from
disk. -/
def allCached : List (UndoRow δ) → Bool
  | [] => true
  | row :: undo =>
    row.cached && (decide (row.xid = cur.xid ∧ row.ssn < cur.ssn) ||
      match row.type with
      | .itl _ _ _ => true
      | .change _ => allCached undo)

/-- The transaction before the running one ended after the query scn. -/
def lateAfter : List (UndoRow δ) → Bool
  | [] => false
  | row :: undo =>
    !decide (row.xid = cur.xid ∧ row.ssn < cur.ssn) &&
      match row.type with
      | .itl _ scn _ => decide (cur.queryScn < scn)
      | .change _ => lateAfter undo

/-- What the construction depends on in an ITL. -/
structure Mark where
  xid : Xid
  awaited : Bool
  running : Bool
  late : Bool
  cached : Bool
  lateAfter : Bool

/-- A search passes the ITL. -/
def Mark.quiet (m : Mark) : Bool := !m.awaited && !m.running

def PcrItl.mark (item : PcrItl δ) : Mark where
  xid := item.xid
  awaited := item.awaited k cur
  running := item.running k cur
  late := item.late k cur
  cached := allCached cur item.undo
  lateAfter := lateAfter cur item.undo

def CrPage.marks (p : CrPage β δ) : List Mark := p.itls.map (·.mark k cur)

def firstAwaited (marks : List Mark) : Option Xid := (marks.find? Mark.awaited).map Mark.xid

/-- The place after instance `owner` has rolled back its ITL. -/
def atOwner (owner : Nat) (cached : Bool) : Place :=
  if cached then .remote owner false else .reader true

/-- Where the page is after the rollback of an ITL of `owner`. -/
def Place.after (owner : Nat) (cached : Bool) : Place → Place
  | .reader localCr =>
    if owner = k.id ∨ localCr then .reader localCr else atOwner owner cached
  | .remote inst localCr =>
    if owner = inst ∧ !localCr then atOwner owner cached
    else if (k.enableRmoCr inst || localCr) ∨ owner = k.id then
      .reader (k.enableRmoCr inst || localCr)
    else atOwner owner cached

def Place.isReader : Place → Bool
  | .reader _ => true
  | .remote _ _ => false

/-- The first awaited ITL is met at the reader, or another instance meets it
after an ITL that ended after the query scn (`isLate`). -/
def waitsAt : Place → Bool → List Mark → Bool
  | _, _, [] => false
  | place, isLate, m :: marks =>
    if m.awaited then isLate || place.isReader
    else if m.running then
      waitsAt (place.after k (k.instId m.xid) m.cached) (isLate || m.lateAfter) marks
    else waitsAt place (isLate || m.late) marks

variable {k cur} {item item' : PcrItl δ} {p q : CrPage β δ} {i : Nat} {itl itl' : Option Nat}

/-! ## The search -/

lemma mark_of_ended (hend : (txGetPcrItlInfo k true item).status = .xactEnd) :
    item.mark k cur = ⟨item.xid, false, false,
      decide (cur.queryScn < (txGetPcrItlInfo k true item).scn), allCached cur item.undo,
      lateAfter cur item.undo⟩ := by
  simp [PcrItl.mark, PcrItl.awaited, PcrItl.running, PcrItl.late, prepared, hend]

@[simp] lemma cleanoutItl_wxid (kind : PageKind) (p : CrPage β δ) (i : Nat) (item : PcrItl δ)
    (info : Xact.TxnInfo) : (cleanoutItl kind p i item info).wxid = p.wxid := by
  unfold cleanoutItl
  split_ifs <;> rfl

/-- The cleanout of an ended ITL leaves its mark. -/
lemma cleanoutItl_spec (hi : p.itls[i]? = some item)
    (hend : (txGetPcrItlInfo k true item).status = .xactEnd) :
    ∃ b, (cleanoutItl .leaf p i item (txGetPcrItlInfo k true item)).itls = p.itls.set i b ∧
      b.mark k cur = item.mark k cur := by
  unfold cleanoutItl
  split
  · refine ⟨_, rfl, ?_⟩
    rw [mark_of_ended hend, mark_of_ended (by simp [txGetPcrItlInfo])]
    simp [txGetPcrItlInfo]
  · obtain ⟨hlt, rfl⟩ := List.getElem?_eq_some_iff.mp hi
    have hset := (set_getElem_self hlt).symm
    split <;> exact ⟨_, hset, rfl⟩

lemma isSome_recentItl (p : CrPage β δ) (itl : Option Nat) (i scn : Nat) :
    (recentItl p itl i scn).isSome = true := by
  unfold recentItl
  cases itl with
  | none => rfl
  | some j =>
    split
    · rfl
    · split <;> rfl

variable (k cur p i item) in
/-- What one turn at item `i` of a leaf does, by the mark of the item. -/
inductive Turned (itl : Option Nat) : Turn β δ → Prop
  | error : Turned itl .error
  | passed {q : CrPage β δ} {itl' : Option Nat} {b : PcrItl δ}
      (hquiet : (item.mark k cur).quiet = true)
      (hlate : itl'.isSome = (itl.isSome || (item.mark k cur).late)) (hwxid : q.wxid = p.wxid)
      (hset : q.itls = p.itls.set i b) (hmark : b.mark k cur = item.mark k cur) :
      Turned itl (.next q itl')
  | running (hawait : item.awaited k cur = false) (hrun : item.running k cur = true) :
      Turned itl (.stop p (some i))
  | awaited {q : CrPage β δ} (hawait : item.awaited k cur = true)
      (hwxid : q.wxid = some item.xid) (hitls : q.itls = p.itls) : Turned itl (.stop q itl)

lemma fetchTurn_spec (hi : p.itls[i]? = some item) :
    Turned k cur item p i itl (fetchTurn .leaf k cur p itl i item) := by
  unfold fetchTurn
  dsimp only
  split
  · exact .error
  split
  next hend =>
    obtain ⟨b, hset, hmark⟩ := @cleanoutItl_spec _ _ k cur item p i hi hend
    have hquiet : (item.mark k cur).quiet = true := by rw [mark_of_ended hend]; rfl
    split
    next hle =>
      refine .passed hquiet ?_ (cleanoutItl_wxid ..) hset hmark
      simp [PcrItl.mark, PcrItl.late, Nat.not_lt_of_le hle]
    next hle =>
    split
    · exact .error
    · refine .passed hquiet ?_ (cleanoutItl_wxid ..) hset hmark
      simp [isSome_recentItl, PcrItl.mark, PcrItl.late, hend, Nat.lt_of_not_le hle]
  next hend =>
    split
    next hxid =>
      have hawait : item.awaited k cur = false := by simp [PcrItl.awaited, hxid]
      split
      next hssn =>
        have hquiet : (item.mark k cur).quiet = true := by
          simp [Mark.quiet, PcrItl.mark, PcrItl.running, hawait, hxid, hssn]
        obtain ⟨hlt, rfl⟩ := List.getElem?_eq_some_iff.mp hi
        exact .passed hquiet (by simp [PcrItl.mark, PcrItl.late, hend]) rfl
          (set_getElem_self hlt).symm rfl
      next hssn =>
        exact .running hawait (by simp [PcrItl.running, hend, hawait, Nat.le_of_not_lt hssn])
    next hxid =>
      split
      next hxa => exact .awaited (by simp [PcrItl.awaited, hxid, hxa]) rfl rfl
      next hxa =>
        have hawait : item.awaited k cur = false := by simpa [PcrItl.awaited, hxid] using hxa
        exact .running hawait (by simp [PcrItl.running, hend, hawait, hxid])

lemma marks_set (hmark : item'.mark k cur = item.mark k cur) (hi : p.itls[i]? = some item) :
    (p.itls.set i item').map (·.mark k cur) = p.marks k cur := by
  obtain ⟨hlt, rfl⟩ := List.getElem?_eq_some_iff.mp hi
  rw [map_set, hmark, ← map_set, set_getElem_self]
  rfl

/-- The search on a leaf passes quiet ITLs and stops at the first other one. -/
lemma fetchLoop_spec {todo} (hlen : p.itls.length = i + todo)
    (hwait : ∃ m ∈ (p.marks k cur).drop i, m.awaited = true)
    (h : fetchLoop .leaf k cur todo i p itl = some (q, itl')) :
    q.marks k cur = p.marks k cur ∧ ∃ pre m post, (p.marks k cur).drop i = pre ++ m :: post ∧
      (∀ x ∈ pre, x.quiet = true) ∧
      (m.awaited = true ∧ q.wxid = some m.xid ∧ itl'.isSome = (itl.isSome || pre.any Mark.late) ∨
        m.awaited = false ∧ m.running = true ∧ itl' = some (i + pre.length) ∧
          q.wxid = p.wxid) := by
  induction todo generalizing i p itl with
  | zero =>
    obtain ⟨m, hm, -⟩ := hwait
    rw [drop_eq_nil_of_le (by simp [CrPage.marks, hlen])] at hm
    cases hm
  | succ todo ih =>
    unfold fetchLoop at h
    split at h
    · cases h
    next item hi =>
    have hdrop : (p.marks k cur).drop i = item.mark k cur :: (p.marks k cur).drop (i + 1) := by
      obtain ⟨hlt, rfl⟩ := List.getElem?_eq_some_iff.mp hi
      rw [CrPage.marks, drop_eq_getElem_cons (by simpa using hlt), getElem_map]
    have hturn : Turned k cur item p i itl (fetchTurn .leaf k cur p itl i item) :=
      fetchTurn_spec hi
    generalize fetchTurn .leaf k cur p itl i item = turn at h hturn
    rw [hdrop] at hwait ⊢
    cases hturn with
    | error => cases h
    | @passed p' itl₁ b hquiet hlate hwxid hset hmark =>
      have hmarks : p'.marks k cur = p.marks k cur := by rw [CrPage.marks, hset, marks_set hmark hi]
      obtain ⟨x, hx, hxa⟩ := hwait
      rcases mem_cons.mp hx with rfl | hx
      · rw [Mark.quiet, hxa] at hquiet
        cases hquiet
      obtain ⟨hq, pre, m, post, hsplit, hpre, hstop⟩ :=
        ih (by rw [hset, length_set, hlen]; omega) ⟨x, hmarks.symm ▸ hx, hxa⟩ h
      refine ⟨hq.trans hmarks, item.mark k cur :: pre, m, post, ?_, ?_, ?_⟩
      · rw [← hmarks, hsplit, cons_append]
      · exact forall_mem_cons.mpr ⟨hquiet, hpre⟩
      · rw [length_cons, ← hwxid, ← Nat.add_assoc, Nat.add_right_comm, any_cons, ← Bool.or_assoc,
          ← hlate]
        exact hstop
    | running hawait hrun =>
      cases h
      exact ⟨rfl, [], _, _, rfl, by simp, .inr ⟨hawait, hrun, rfl, rfl⟩⟩
    | awaited hawait hwxid hitls =>
      cases h
      exact ⟨by rw [CrPage.marks, hitls, CrPage.marks], [], _, _, rfl, by simp,
        .inl ⟨hawait, hwxid, by simp⟩⟩

/-! ## The rollback of an ITL -/

variable (k cur) in
/-- What a rollback with the undo list `undo` makes of a running ITL of `xid`. -/
inductive Reverted (isRemote : Bool) (undo : List (UndoRow δ)) (xid : Xid) (item : PcrItl δ) :
    Bool → Prop
  | whole (hcached : isRemote = true → allCached cur undo = true)
      (hquiet : (item.mark k cur).quiet = true)
      (hlate : (item.mark k cur).late = lateAfter cur undo) : Reverted isRemote undo xid item false
  | stopped (hremote : isRemote = true) (hcached : allCached cur undo = false)
      (hmark : item.mark k cur = ⟨xid, false, true, false, false, lateAfter cur undo⟩) :
      Reverted isRemote undo xid item true

lemma undoLoop_spec {isRemote undo body body' stopped}
    (h : undoLoop revert cur isRemote undo item body = some (item', body', stopped))
    (hactive : item.isActive = true) (hhist : item.isHist = true)
    (hssn : item.xid = cur.xid → cur.ssn ≤ item.ssn) :
    Reverted k cur isRemote undo item.xid item' stopped := by
  induction undo generalizing item body with
  | nil => cases h
  | cons row undo ih =>
    unfold undoLoop at h
    split at h
    next hread =>
      cases h
      obtain ⟨hremote, hread⟩ := Bool.and_eq_true_iff.mp hread
      have hcached : allCached cur (row :: undo) = false := by
        simp [allCached, show row.cached = false by simpa using hread]
      refine .stopped hremote hcached ?_
      simp [PcrItl.mark, PcrItl.awaited, PcrItl.running, PcrItl.late, prepared, txGetPcrItlInfo,
        hactive, hhist, hcached, imp_iff_not_or.mp hssn]
    next hread =>
    have hcache : isRemote = true → row.cached = true := by
      intro hr
      simpa [hr] using hread
    split at h
    · cases h
    next hxid =>
    split at h
    next hown =>
      -- a change of an earlier statement of the reader's own transaction
      cases h
      have hxid : item.xid = cur.xid := (not_not.mp hxid).trans hown.1
      refine .whole (fun hr => by simp [allCached, hcache hr, hown]) ?_ ?_
      · simp [Mark.quiet, PcrItl.mark, PcrItl.awaited, PcrItl.running, hxid, hown.2]
      · simp [PcrItl.mark, PcrItl.late, txGetPcrItlInfo, hactive, hhist, lateAfter, hown]
    next hown =>
    split at h
    next xid scn isOwscn htype =>
      cases h
      refine .whole (fun hr => by simp [allCached, hcache hr, htype]) ?_ ?_
      · rw [mark_of_ended (by simp [txGetPcrItlInfo])]
        rfl
      · simp [PcrItl.mark, PcrItl.late, txGetPcrItlInfo, lateAfter, hown, htype]
    next data htype =>
      have hstep : allCached cur (row :: undo) = (row.cached && allCached cur undo) ∧
          lateAfter cur (row :: undo) = lateAfter cur undo := by
        simp [allCached, lateAfter, hown, htype]
      split at h
      · cases h
      · have hrest := ih h hactive hhist fun hx =>
          Nat.le_of_not_lt fun hlt => hown ⟨(not_not.mp hxid).symm.trans hx, hlt⟩
        cases hrest with
        | whole hcached hquiet hlate =>
          refine .whole (fun hr => ?_) hquiet (hlate.trans hstep.2.symm)
          rw [hstep.1, hcache hr, hcached hr]
          rfl
        | stopped hremote hcached hmark =>
          exact .stopped hremote (by rw [hstep.1, hcached, Bool.and_false]) (hstep.2 ▸ hmark)

/-- A running ITL is rolled back, or another instance stops and its mark stays. -/
lemma reorganizeWithUndoList_spec {kind isRemote stopped} (hi : p.itls[i]? = some item)
    (hrun : item.running k cur = true)
    (h : reorganizeWithUndoList kind revert cur isRemote p i = some (q, stopped)) :
    q.wxid = p.wxid ∧
    (stopped = false ∧ (isRemote = true → (item.mark k cur).cached = true) ∧
        (∃ m, m.quiet = true ∧ m.late = (item.mark k cur).lateAfter ∧
          q.marks k cur = (p.marks k cur).set i m) ∨
      stopped = true ∧ isRemote = true ∧ (item.mark k cur).cached = false ∧
        q.marks k cur = p.marks k cur) := by
  unfold reorganizeWithUndoList at h
  rw [hi] at h
  dsimp only at h
  split at h
  · cases h
  next item' body' stopped' hundo =>
    cases h
    obtain ⟨hend, hawait, hssn⟩ := of_decide_eq_true hrun
    refine ⟨rfl, ?_⟩
    cases undoLoop_spec (k := k) hundo rfl rfl hssn with
    | whole hcached hquiet hlate => exact .inl ⟨rfl, hcached, _, hquiet, hlate, map_set⟩
    | stopped hremote hcached hmark =>
      refine .inr ⟨rfl, hremote, hcached, marks_set (hmark.trans ?_) hi⟩
      simp [PcrItl.mark, PcrItl.late, hend, hawait, hrun, hcached]

/-! ## The walk -/

variable {marks marks' pre post : List Mark} {m m' : Mark} {place place' : Place}

lemma quiet_iff : m.quiet = true ↔ m.awaited = false ∧ m.running = false := by
  simp [Mark.quiet]

lemma firstAwaited_append (hpre : ∀ x ∈ pre, x.quiet = true) :
    firstAwaited (pre ++ post) = firstAwaited post := by
  have hnone : pre.find? Mark.awaited = none :=
    find?_eq_none.mpr fun x hx => by simp [(quiet_iff.mp (hpre x hx)).1]
  rw [firstAwaited, find?_append, hnone, Option.none_or, firstAwaited]

lemma waitsAt_append (hpre : ∀ x ∈ pre, x.quiet = true) (isLate : Bool) :
    waitsAt k place isLate (pre ++ post) = waitsAt k place (isLate || pre.any Mark.late) post := by
  induction pre generalizing isLate with
  | nil => rw [any_nil, Bool.or_false, nil_append]
  | cons x pre ih =>
    obtain ⟨hx, hpre⟩ := forall_mem_cons.mp hpre
    obtain ⟨hawait, hrun⟩ := quiet_iff.mp hx
    rw [cons_append, waitsAt, if_neg (by simp [hawait]), if_neg (by simp [hrun]), ih hpre,
      any_cons, Bool.or_assoc]

/-- The owner of the ITL that the next round rolls back. -/
def nextOwner (k : Kernel) (marks : List Mark) : Option Nat :=
  (marks.find? (!·.quiet)).map (k.instId ·.xid)

/-- The moves of the page before the next rollback, or before it gives up on
the caches of other instances. -/
def Place.moves (owner : Option Nat) : Place → Nat
  | .reader true => 0
  | .remote _ true => 1
  | .reader false => 3
  | .remote inst false => if owner = some inst then 2 else 4

lemma Place.moves_le (owner : Option Nat) (place : Place) : place.moves owner ≤ 4 := by
  unfold Place.moves
  split
  case h_4 => split <;> decide
  all_goals decide

def steps (k : Kernel) (place : Place) (marks : List Mark) : Nat :=
  5 * marks.countP Mark.running + place.moves (nextOwner k marks)

variable (k) in
/-- A round that turns the marks of the page into `marks'` and ends at `place'`. -/
structure Passed (place place' : Place) (marks marks' : List Mark) : Prop where
  fewer : steps k place' marks' < steps k place marks
  first : firstAwaited marks' = firstAwaited marks
  waits : waitsAt k place' false marks' = waitsAt k place false marks

section
variable (hpre : ∀ x ∈ pre, x.quiet = true) (hawait : m.awaited = false) (hrun : m.running = true)
include hpre hawait hrun

lemma waitsAt_running : waitsAt k place false (pre ++ m :: post) =
    waitsAt k (place.after k (k.instId m.xid) m.cached) (pre.any Mark.late || m.lateAfter)
      post := by
  rw [waitsAt_append hpre, waitsAt, if_neg (by simp [hawait]), if_pos hrun, Bool.false_or]

/-- The page moves to the place where its ITL can be rolled back. -/
lemma Passed.moved
    (hmoves : place'.moves (some (k.instId m.xid)) < place.moves (some (k.instId m.xid)))
    (hafter : place'.after k (k.instId m.xid) m.cached =
      place.after k (k.instId m.xid) m.cached) :
    Passed k place place' (pre ++ m :: post) (pre ++ m :: post) := by
  have howner : nextOwner k (pre ++ m :: post) = some (k.instId m.xid) := by
    have hnone : pre.find? (!·.quiet) = none :=
      find?_eq_none.mpr fun x hx => by simp [hpre x hx]
    rw [nextOwner, find?_append, hnone, Option.none_or,
      find?_cons_of_pos (by simp [Mark.quiet, hrun])]
    rfl
  refine ⟨?_, rfl, ?_⟩
  · unfold steps
    rw [howner]
    exact Nat.add_lt_add_left hmoves _
  · rw [waitsAt_running hpre hawait hrun, waitsAt_running hpre hawait hrun, hafter]

/-- The ITL is rolled back where the page is. -/
lemma Passed.rolled (hquiet : m'.quiet = true) (hlate : m'.late = m.lateAfter)
    (hafter : place.after k (k.instId m.xid) m.cached = place) :
    Passed k place place (pre ++ m :: post) (pre ++ m' :: post) := by
  obtain ⟨hawait', hrun'⟩ := quiet_iff.mp hquiet
  refine ⟨?_, ?_, ?_⟩
  · have := place.moves_le (nextOwner k (pre ++ m' :: post))
    simp only [steps, countP_append, countP_cons, hrun, hrun', if_true, Bool.false_eq_true,
      if_false]
    omega
  · rw [firstAwaited_append hpre, firstAwaited_append hpre, firstAwaited, firstAwaited,
      find?_cons_of_neg (by simp [hawait']), find?_cons_of_neg (by simp [hawait])]
  · rw [waitsAt_running hpre hawait hrun, waitsAt_append hpre, waitsAt,
      if_neg (by simp [hawait']), if_neg (by simp [hrun']), hafter, hlate, Bool.false_or]

end

/-! ## The rounds -/

variable {sent : CrPage β δ}

variable (k cur) in
/-- What a round does to a leaf with an awaited ITL, by how it ends. -/
def RoundOk (place : Place) (p : CrPage β δ) : Round β δ → Prop
  | .error => True
  | .done q => q.wxid =
      if waitsAt k place false (p.marks k cur) then firstAwaited (p.marks k cur) else none
  | .goto place' sent q => sent.wxid = none ∧ q.wxid = none ∧
      Passed k place place' (p.marks k cur) (q.marks k cur)

variable (k cur) in
/-- The search has stopped at the running ITL `item`, whose mark is `m`. -/
structure Stopped (p : CrPage β δ) (i : Nat) (pre : List Mark) (m : Mark) (post : List Mark) :
    Prop where
  wxid : p.wxid = none
  marks : p.marks k cur = pre ++ m :: post
  index : i = pre.length
  quiet : ∀ x ∈ pre, x.quiet = true
  await : m.awaited = false
  run : m.running = true

variable (place) in
/-- The search on a leaf with an awaited ITL finds that ITL, or a running one before it. -/
lemma fetchInvisibleItl_spec (hp : p.wxid = none) (hwait : firstAwaited (p.marks k cur) ≠ none)
    (h : fetchInvisibleItl .leaf k cur p = some (q, itl)) :
    (q.wxid = firstAwaited (p.marks k cur) ∧
      waitsAt k place false (p.marks k cur) = (itl.isSome || place.isReader)) ∨
    ∃ i pre m post, itl = some i ∧ q.marks k cur = p.marks k cur ∧
      Stopped k cur q i pre m post := by
  have hwait : ∃ m ∈ (p.marks k cur).drop 0, m.awaited = true := by
    obtain ⟨xid, hxid⟩ := Option.ne_none_iff_exists'.mp hwait
    obtain ⟨m, hm, -⟩ := Option.map_eq_some_iff.mp hxid
    exact ⟨m, mem_of_find?_eq_some hm, find?_some hm⟩
  obtain ⟨hmarks, pre, m, post, hsplit, hpre, hstop⟩ :=
    fetchLoop_spec (Nat.zero_add _).symm hwait h
  rw [drop_zero] at hsplit
  rcases hstop with ⟨hawait, hwxid, hlate⟩ | ⟨hawait, hrun, rfl, hwxid⟩
  · refine .inl ⟨?_, ?_⟩
    · rw [hsplit, hwxid, firstAwaited_append hpre, firstAwaited, find?_cons_of_pos hawait]
      rfl
    · rw [hsplit, waitsAt_append hpre, waitsAt, if_pos hawait, hlate]
      rfl
  · exact .inr ⟨_, pre, m, post, rfl, hmarks, hwxid.trans hp, hmarks.trans hsplit,
      Nat.zero_add _, hpre, hawait, hrun⟩

lemma Stopped.mark {pre post m} (h : Stopped k cur p i pre m post) (hi : p.itls[i]? = some item) :
    item.mark k cur = m := by
  have hget : (p.marks k cur)[i]? = some (item.mark k cur) := by
    rw [CrPage.marks, getElem?_map, hi]
    rfl
  rw [h.marks, h.index, getElem?_append_right (Nat.le_refl _), Nat.sub_self] at hget
  exact (Option.some.inj hget).symm

/-- The page is sent on as the search has left it. -/
lemma Stopped.moved {pre post m} (h : Stopped k cur p i pre m post)
    (hmoves : place'.moves (some (k.instId m.xid)) < place.moves (some (k.instId m.xid)))
    (hafter : place'.after k (k.instId m.xid) m.cached =
      place.after k (k.instId m.xid) m.cached) :
    Passed k place place' (p.marks k cur) (p.marks k cur) := by
  rw [h.marks]
  exact .moved h.quiet h.await h.run hmoves hafter

/-- The rollback of the ITL that the search has stopped at. -/
lemma Stopped.rolled {isRemote stopped pre post m} (h : Stopped k cur p i pre m post)
    (hi : p.itls[i]? = some item)
    (hroll : reorganizeWithUndoList .leaf revert cur isRemote p i = some (q, stopped))
    (hwhole : stopped = false → place' = place ∧ ((isRemote = true → m.cached = true) →
      place.after k (k.instId m.xid) m.cached = place))
    (hstopped : stopped = true → isRemote = true → m.cached = false →
      place'.moves (some (k.instId m.xid)) < place.moves (some (k.instId m.xid)) ∧
      place'.after k (k.instId m.xid) m.cached = place.after k (k.instId m.xid) m.cached) :
    q.wxid = none ∧ Passed k place place' (p.marks k cur) (q.marks k cur) := by
  obtain rfl := h.mark hi
  obtain ⟨hwxid, hkept⟩ := reorganizeWithUndoList_spec hi h.run hroll
  refine ⟨hwxid.trans h.wxid, ?_⟩
  rcases hkept with ⟨hst, hcached, m', hquiet, hlate, hset⟩ | ⟨hst, hremote, hcached, hsame⟩
  · obtain ⟨rfl, hafter⟩ := hwhole hst
    rw [hset, h.marks, h.index, set_append_right _ _ (Nat.le_refl _), Nat.sub_self, set_cons_zero]
    exact .rolled h.quiet h.await h.run hquiet hlate (hafter hcached)
  · obtain ⟨hmoves, hafter⟩ := hstopped hst hremote hcached
    rw [hsame]
    exact h.moved hmoves hafter

section
variable (hp : p.wxid = none) (hwait : firstAwaited (p.marks k cur) ≠ none)
include hp hwait

lemma readerRound_spec {localCr : Bool} :
    RoundOk k cur (.reader localCr) p (readerRound .leaf revert k cur localCr p) := by
  unfold readerRound
  cases hfetch : fetchInvisibleItl .leaf k cur p with
  | none => trivial
  | some r =>
  obtain ⟨q, itl⟩ := r
  rcases fetchInvisibleItl_spec (.reader localCr) hp hwait hfetch with
    ⟨hwxid, hwaits⟩ | ⟨i, pre, m, post, rfl, hmarks, hstop⟩
  · have hdone : RoundOk k cur (.reader localCr) p (.done q) := by
      rw [RoundOk, hwaits, hwxid]
      simp [Place.isReader]
    cases itl with
    | none => exact hdone
    | some i =>
      dsimp only
      rwa [if_pos (hwxid ▸ hwait)]
  dsimp only
  rw [if_neg (not_not.mpr hstop.wxid)]
  split
  · trivial
  next item hitem =>
  rw [show item.xid = m.xid from congrArg Mark.xid (hstop.mark hitem)]
  split
  next hhere =>
    split
    · trivial
    next q' stopped hroll =>
      obtain ⟨hq', hpass⟩ : _ ∧ Passed k (.reader localCr) (.reader localCr) _ _ :=
        hstop.rolled hitem hroll (fun _ => ⟨rfl, fun _ => if_pos hhere⟩) nofun
      exact ⟨hq', hq', hmarks ▸ hpass⟩
  next hthere =>
    obtain ⟨howner, hlocal⟩ := not_or.mp hthere
    obtain rfl : localCr = false := by simpa using hlocal
    refine ⟨hstop.wxid, hstop.wxid, hmarks ▸ hstop.moved ?_ ?_⟩
    · simp [Place.moves]
    · simp [Place.after, howner]

lemma remoteRound_spec {inst : Nat} {localCr : Bool} (hs : sent.wxid = none) :
    RoundOk k cur (.remote inst localCr) p
      (remoteRound .leaf revert k cur inst localCr sent p) := by
  unfold remoteRound
  cases hfetch : fetchInvisibleItl .leaf k cur p with
  | none => trivial
  | some r =>
  obtain ⟨q, itl⟩ := r
  rcases fetchInvisibleItl_spec (.remote inst localCr) hp hwait hfetch with
    ⟨hwxid, hwaits⟩ | ⟨i, pre, m, post, rfl, hmarks, hstop⟩
  · cases itl with
    | none => simp [RoundOk, hwaits, Place.isReader, hs]
    | some i =>
      dsimp only
      rw [if_pos (hwxid ▸ hwait), RoundOk, hwaits]
      simpa using hwxid
  dsimp only
  rw [if_neg (not_not.mpr hstop.wxid)]
  split
  · trivial
  next item hitem =>
  rw [show item.xid = m.xid from congrArg Mark.xid (hstop.mark hitem)]
  split
  next hown =>
    obtain ⟨rfl, hlocal⟩ := hown
    obtain rfl : localCr = false := by simpa using hlocal
    split
    · trivial
    next q' stopped hroll =>
      refine ⟨hs, hmarks ▸ hstop.rolled hitem hroll ?_ ?_⟩
      · rintro rfl
        exact ⟨rfl, fun hcached => by simp [Place.after, atOwner, hcached rfl]⟩
      · rintro rfl - hcached
        simp [Place.after, Place.moves, atOwner, hcached]
  next hown =>
    have hfar : localCr = false → k.instId m.xid ≠ inst := by
      rintro rfl h
      exact hown ⟨h, rfl⟩
    split
    next hback =>
      refine ⟨hstop.wxid, hstop.wxid, hmarks ▸ hstop.moved ?_ ?_⟩
      · cases localCr with
        | true => simp [Place.moves]
        | false => cases k.enableRmoCr inst <;> simp [Place.moves, hfar rfl]
      · rw [Place.after, Place.after, if_pos hback.symm, if_neg hown, if_pos hback]
    next hback =>
      obtain ⟨hrmo, howner⟩ := not_or.mp hback
      obtain rfl : localCr = false := by
        cases localCr with
        | false => rfl
        | true => exact absurd (Bool.or_true _) hrmo
      refine ⟨hs, hstop.wxid, hmarks ▸ hstop.moved ?_ ?_⟩
      · simp [Place.moves, hfar rfl]
      · rw [Place.after, Place.after, if_pos ⟨rfl, rfl⟩, if_neg hown, if_neg hback]

/-- The rounds come to an end. -/
lemma constructLoop_spec {fuel} (hs : sent.wxid = none)
    (hfuel : steps k place (p.marks k cur) < fuel) :
    ∃ out, constructLoop .leaf revert k cur fuel place sent p = some out ∧ ∀ q, out = some q →
      q.wxid =
        if waitsAt k place false (p.marks k cur) then firstAwaited (p.marks k cur) else none := by
  induction fuel generalizing place sent p with
  | zero => cases hfuel
  | succ fuel ih =>
    have hround : RoundOk k cur place p (round .leaf revert k cur place sent p) := by
      cases place with
      | reader localCr => exact readerRound_spec hp hwait
      | remote inst localCr => exact remoteRound_spec hp hwait hs
    unfold constructLoop
    generalize round .leaf revert k cur place sent p = r at hround ⊢
    cases r with
    | error => exact ⟨none, rfl, nofun⟩
    | done q =>
      refine ⟨some q, rfl, ?_⟩
      rintro _ ⟨⟩
      exact hround
    | goto place' sent' q =>
      obtain ⟨hs', hq, hpass⟩ := hround
      obtain ⟨out, hout, hspec⟩ := ih hq (hpass.first ▸ hwait) hs'
        (Nat.lt_of_lt_of_le hpass.fewer (Nat.le_of_lt_succ hfuel))
      exact ⟨out, hout, fun r hr => (hspec r hr).trans (by rw [hpass.first, hpass.waits])⟩

end

/-! ## The heap -/

/-- A turn on a heap page records the transaction in the session only. -/
lemma fetchTurn_heap : match fetchTurn .heap k cur p itl i item with
    | .next q _ | .stop q _ => q.wxid = p.wxid
    | .error => True := by
  unfold fetchTurn
  dsimp only
  split_ifs <;> simp

lemma fetchLoop_heap {todo} (h : fetchLoop .heap k cur todo i p itl = some (q, itl')) :
    q.wxid = p.wxid := by
  induction todo generalizing i p itl with
  | zero =>
    cases h
    split <;> rfl
  | succ todo ih =>
    unfold fetchLoop at h
    split at h
    · cases h
    next item _ =>
    have hturn := @fetchTurn_heap _ _ k cur item p i itl
    generalize fetchTurn .heap k cur p itl i item = turn at h hturn
    cases turn with
    | next => exact (ih h).trans hturn
    | stop =>
      cases h
      exact hturn
    | error => cases h

lemma readerRound_heap (hp : p.wxid = none) : match readerRound .heap revert k cur true p with
    | .error => True
    | .done q => q.wxid = none
    | .goto place _ q => place = .reader true ∧ q.wxid = none := by
  unfold readerRound
  cases hfetch : fetchInvisibleItl .heap k cur p with
  | none => trivial
  | some r =>
  obtain ⟨q, itl⟩ := r
  have hq : q.wxid = none := (fetchLoop_heap hfetch).trans hp
  cases itl with
  | none => exact hq
  | some i =>
    simp only [hq, ne_eq, not_true_eq_false, if_false, or_true, if_true]
    unfold reorganizeWithUndoList
    cases hitem : q.itls[i]? with
    | none => trivial
    | some item =>
      dsimp only
      cases undoLoop revert cur false item.undo _ _ with
      | none => trivial
      | some r => exact ⟨rfl, hq⟩

lemma constructLoop_heap {fuel sent} (hp : p.wxid = none)
    (h : constructLoop .heap revert k cur fuel (.reader true) sent p = some (some q)) :
    q.wxid = none := by
  induction fuel generalizing p sent with
  | zero => cases h
  | succ fuel ih =>
    have hround := @readerRound_heap _ _ revert k cur p hp
    rw [constructLoop, round] at h
    generalize readerRound .heap revert k cur true p = r at h hround
    cases r with
    | error => cases h
    | done q =>
      cases h
      exact hround
    | goto place sent q =>
      obtain ⟨rfl, hq⟩ := hround
      exact ih hq h

end

section
variable {β δ : Type} (revert : δ → Body β → Option (Body β)) (k : Kernel) (cur : CrCursor)
  (itls : List (PcrItl δ)) (body : Body β) (scn : Nat) (sessionWxid : Option Xid)

variable {k cur itls} in
lemma firstAwaited_marks :
    firstAwaited (itls.map (·.mark k cur)) = (awaited k cur itls).head?.map PcrItl.xid := by
  rw [firstAwaited, find?_map, Option.map_map, awaited, head?_filter]
  rfl

variable {k} in
/-- At a reader that rolls back all ITLs itself. -/
lemma waitsAt_local (isLate : Bool) (marks : List Mark) :
    waitsAt k (.reader true) isLate marks = marks.any Mark.awaited := by
  induction marks generalizing isLate with
  | nil => rfl
  | cons m marks ih => simp [waitsAt, Place.after, Place.isReader, ih]

lemma length_le_rounds : itls.length ≤ rounds itls := by
  induction itls with
  | nil => exact Nat.le_refl 0
  | cons itl itls ih =>
    rw [rounds, length_cons]
    omega

/-- The page of the heap never names a transaction to wait for. That of an index
leaf with awaited ITLs does exactly when the first of them is met at the reader,
or after an ITL that ended after the query scn; a reader that rolls back all
ITLs itself, as in a single database and with `enable_rmo_cr`, always meets it. -/
theorem constructCrPage_waits_iff :
    (∀ q, pcrhConstructCrPageInterface revert k cur itls body scn sessionWxid = some (some q) →
      q.wxid = none) ∧
    (awaited k cur itls ≠ [] →
      (∃ out, pcrbConstructCrPage revert k cur itls body scn sessionWxid = some out ∧
        ∀ q, out = some q → ((∃ item ∈ awaited k cur itls, q.wxid = some item.xid) ↔
          waitsAt k (.reader (!k.isCluster || k.enableRmoCr k.id)) false
            (itls.map (·.mark k cur)) = true)) ∧
      waitsAt k (.reader true) false (itls.map (·.mark k cur)) = true) := by
  refine ⟨fun q hq => constructLoop_heap rfl hq, fun hne => ⟨?_, ?_⟩⟩
  · obtain ⟨item, hitem⟩ := Option.ne_none_iff_exists'.mp (mt head?_eq_none_iff.mp hne)
    have hfirst : firstAwaited (itls.map (·.mark k cur)) = some item.xid := by
      rw [firstAwaited_marks, hitem]
      rfl
    have hfuel : steps k (.reader (!k.isCluster || k.enableRmoCr k.id))
        (itls.map (·.mark k cur)) < 5 * rounds itls + 5 := by
      have hcount : (itls.map (·.mark k cur)).countP Mark.running ≤ _ := countP_le_length
      have := length_le_rounds itls
      have := Place.moves_le (nextOwner k (itls.map (·.mark k cur)))
        (.reader (!k.isCluster || k.enableRmoCr k.id))
      rw [length_map] at hcount
      unfold steps
      omega
    obtain ⟨out, hout, hspec⟩ : ∃ out, constructCrPage .leaf revert k cur
        (!k.isCluster || k.enableRmoCr k.id) itls body scn sessionWxid = some out ∧
        ∀ q, out = some q → q.wxid = if waitsAt k (.reader (!k.isCluster || k.enableRmoCr k.id))
          false (itls.map (·.mark k cur)) then firstAwaited (itls.map (·.mark k cur)) else none :=
      constructLoop_spec rfl (by rw [CrPage.marks, hfirst]; nofun) rfl hfuel
    refine ⟨out, ?_, fun q hq => ?_⟩
    · rw [← hout, pcrbConstructCrPage]
      cases k.isCluster <;> rfl
    · rw [hspec q hq, hfirst]
      split
      next h => exact ⟨fun _ => h, fun _ => ⟨item, mem_of_head? hitem, rfl⟩⟩
      next h => exact ⟨by rintro ⟨_, -, ⟨⟩⟩, fun hw => absurd hw h⟩
  · obtain ⟨item, hitem⟩ := exists_mem_of_ne_nil _ hne
    obtain ⟨hmem, hawait⟩ := mem_filter.mp hitem
    rw [waitsAt_local]
    exact any_eq_true.mpr ⟨_, mem_map_of_mem hmem, hawait⟩

end

/-- Two instances: the transactions of segment 1, at node 0, are prepared at
scn 5, those of segment 2, at node 1, are running. -/
def twoNodes : Kernel where
  undo seg := ⟨fun _ => ⟨1, if seg = 1 then .xactPhase1 else .xactBegin, 5, 1⟩, [], 0, []⟩
  inProgress _ := false
  currScn := 20
  isXaConsistency := true
  isCluster := true
  id := 0
  instId xid := xid.segId - 1
  nodeCount := 2
  enableRmoCr _ := false

def readerAt10 : CrCursor := ⟨⟨3, 0, 1⟩, 1, 10⟩

def runningItl : PcrItl Nat :=
  ⟨⟨2, 0, 1⟩, 1, 0, 0, false, true, false, false, [⟨⟨2, 0, 1⟩, 0, true, .itl ⟨0, 0, 0⟩ 2 false⟩]⟩

/-- The ITL of a transaction that inserted row 7. -/
def preparedItl : PcrItl Nat :=
  ⟨⟨1, 0, 1⟩, 1, 0, 0, false, true, false, false,
    [⟨⟨1, 0, 1⟩, 0, true, .change 7⟩, ⟨⟨1, 0, 1⟩, 0, true, .itl ⟨0, 0, 0⟩ 2 false⟩]⟩

def eraseRow (row : Nat) (body : Body (List Nat)) : Option (Body (List Nat)) :=
  some { body with rows := body.rows.erase row }

/-- The row of the prepared transaction is rolled back on the heap page, which
is final. In the cluster, node 1 rolls back the running ITL of the leaf and
answers with the page as final. -/
theorem heap_rollsBack_prepared :
    ∃ p q : CrPage (List Nat) Nat,
      pcrhConstructCrPageInterface eraseRow twoNodes readerAt10 [preparedItl]
        ⟨[7], 0⟩ 3 none = some (some p) ∧
      p.wxid = none ∧ p.sessionWxid = some ⟨1, 0, 1⟩ ∧ p.body.rows = [] ∧ p.scn = 10 ∧
      pcrbConstructCrPage eraseRow twoNodes readerAt10 [runningItl, preparedItl]
        ⟨[7], 0⟩ 3 none = some (some q) ∧
      q.wxid = none ∧ q.body.rows = [7] ∧
      (awaited twoNodes readerAt10 [runningItl, preparedItl]).map PcrItl.xid =
        [⟨1, 0, 1⟩] :=
  ⟨_, _, rfl, rfl, rfl, rfl, rfl, rfl, rfl, rfl, rfl⟩

end Cantian.Cr
