import Cantian.Lib.Transition

/-!
# The outcome of a transaction

An undo segment has slots for transactions, which are used again and again:
`xnum` counts the uses. What a transaction ended with stays in its slot while
the next one runs. `ow_scn` of the segment covers the scns that have been
overwritten; it is raised when the next transaction of the slot is prepared or
ends. `tx_get_info` looks a transaction up by slot and number.

The segment carries two history variables that no function reads: the uses of
a slot, which `xnum` counts modulo 2^32, and the transactions that have ended.
-/

namespace Cantian.Xact

open Cantian.Lib Function List Option

def uint32 (n : Nat) : Nat := n % 4294967296

inductive XactStatus where
  | xactEnd
  | xactBegin
  /-- XA prepare. -/
  | xactPhase1
  /-- XA rollback. -/
  | xactPhase2
deriving DecidableEq, Repr

/-- `txn_t`. -/
structure Txn where
  xnum : Nat
  status : XactStatus
  scn : Nat
  uses : Nat
deriving DecidableEq, Repr

structure Ended where
  slot : Nat
  use : Nat
  scn : Nat
deriving DecidableEq, Repr

structure Undo where
  items : Nat → Txn
  /-- `free_items`, from first to last. -/
  freeItems : List Nat
  owScn : Nat
  ended : List Ended

def Undo.setItem (u : Undo) (slot : Nat) (txn : Txn) : Undo :=
  { u with items := update u.items slot txn }

/-- `tx_inc_scn`: the scn comes from the caller or from the kernel's clock, and the one
it overwrites goes to `ow_scn`. -/
def txIncScn (u : Undo) (txn : Txn) : Nat :=
  if u.owScn < txn.scn && txn.status != .xactPhase1 then txn.scn else u.owScn

/-- `txn_alloc` and `tx_begin`. -/
def txBegin (u : Undo) : Option Undo :=
  match u.freeItems with
  | [] => none
  | slot :: rest =>
    let txn := u.items slot
    some ({ u with freeItems := rest }.setItem slot
      { txn with xnum := uint32 (txn.xnum + 1), status := .xactBegin, uses := txn.uses + 1 })

def xaCommitPhase1 (u : Undo) (slot scn : Nat) : Option Undo :=
  let txn := u.items slot
  if txn.status = .xactBegin then
    some ({ u with owScn := txIncScn u txn }.setItem slot
      { txn with scn := scn, status := .xactPhase1 })
  else none

/-- `xa_rollback_phase2`, up to the rollback: the transaction need not be prepared. -/
def xaRollbackPhase2 (u : Undo) (slot : Nat) : Option Undo :=
  let txn := u.items slot
  if txn.status ≠ .xactEnd then some (u.setItem slot { txn with status := .xactPhase2 })
  else none

/-- `tx_end`, for a commit or a rollback. -/
def txEnd (u : Undo) (slot scn : Nat) : Option Undo :=
  let txn := u.items slot
  if txn.status ≠ .xactEnd then
    some ({ u with owScn := txIncScn u txn, ended := ⟨slot, txn.uses, scn⟩ :: u.ended }.setItem slot
      { txn with scn := scn, status := .xactEnd })
  else none

/-- `txn_release`. -/
def txnRelease (u : Undo) (slot : Nat) : Option Undo :=
  if (u.items slot).status = .xactEnd ∧ slot ∉ u.freeItems then
    some { u with freeItems := u.freeItems ++ [slot] }
  else none

inductive TxAction where
  | begin
  | phase1 (slot scn : Nat)
  | phase2 (slot : Nat)
  | txEnd (slot scn : Nat)
  | release (slot : Nat)

def txStep (u : Undo) : TxAction → Option Undo
  | .begin => txBegin u
  | .phase1 slot scn => xaCommitPhase1 u slot scn
  | .phase2 slot => xaRollbackPhase2 u slot
  | .txEnd slot scn => txEnd u slot scn
  | .release slot => txnRelease u slot

/-- `txn_info_t`. -/
structure TxnInfo where
  status : XactStatus
  scn : Nat
  isOwscn : Bool
deriving DecidableEq, Repr

/-- `tx_get_info`; `inProgress` is the mark of an item whose transaction is ending, and
`currScn` is `DB_CURR_SCN`. -/
def txGetInfo (u : Undo) (isScan inProgress : Bool) (currScn slot xnum : Nat) : TxnInfo :=
  let snapshot := u.items slot
  if xnum = snapshot.xnum then
    if snapshot.status = .xactPhase1 ∨ snapshot.status = .xactPhase2 then
      ⟨snapshot.status, snapshot.scn, false⟩
    else if snapshot.status ≠ .xactEnd ∨ (inProgress && !isScan) then ⟨.xactBegin, currScn, false⟩
    else ⟨.xactEnd, snapshot.scn, false⟩
  else if uint32 (xnum + 1) = snapshot.xnum ∧ snapshot.status = .xactBegin then
    ⟨.xactEnd, snapshot.scn, false⟩
  else ⟨.xactEnd, u.owScn, true⟩

/-- A segment before its first transaction: `ow_scn` starts from the current scn. -/
structure Undo.Fresh (u : Undo) : Prop where
  status : ∀ i, (u.items i).status = .xactEnd
  xnum : ∀ i, (u.items i).xnum = uint32 (u.items i).uses
  scn : ∀ i, (u.items i).scn ≤ u.owScn
  free : u.freeItems.Nodup
  ended : u.ended = []

/-- What a scan learns of a transaction that has ended, as long as no later one has its
number, and of the one in a slot. -/
structure LookupOk (u : Undo) : Prop where
  ended : ∀ e ∈ u.ended, (u.items e.slot).uses < e.use + 4294967296 → ∀ inProgress currScn,
    let info := txGetInfo u true inProgress currScn e.slot (uint32 e.use)
    info.status = .xactEnd ∧ if info.isOwscn then e.scn ≤ info.scn else info.scn = e.scn
  running : ∀ slot inProgress currScn, (u.items slot).status ≠ .xactEnd →
    (txGetInfo u true inProgress currScn slot (u.items slot).xnum).status ≠ .xactEnd

/-- A rollback in phase 2 is of a prepared transaction, or the scn that the slot still
holds of the transaction before is covered. -/
def covered (u : Undo) : TxAction → Bool
  | .phase2 slot => (u.items slot).status != .xactBegin || decide ((u.items slot).scn ≤ u.owScn)
  | _ => true

/-! ## The invariant -/

/-- Where the scn of an ended transaction is: in its slot, in the slot while the next
transaction runs, or below `ow_scn`. -/
def EntryAt (txn : Txn) (owScn : Nat) (e : Ended) : Prop :=
  (e.use = txn.uses ∧ txn.status = .xactEnd ∧ txn.scn = e.scn) ∨
  (e.use + 1 = txn.uses ∧ txn.status = .xactBegin ∧ txn.scn = e.scn) ∨
  (e.use < txn.uses ∧ (e.use + 1 = txn.uses → txn.status ≠ .xactBegin) ∧ e.scn ≤ owScn)

/-- An scn above `ow_scn` in a slot that is idle or just taken is the one of the last
transaction that has ended there. -/
def ScnAt (txn : Txn) (owScn slot : Nat) (ended : List Ended) : Prop :=
  owScn < txn.scn → txn.status ≠ .xactPhase1 → txn.status ≠ .xactPhase2 →
    ∃ e ∈ ended, e.slot = slot ∧ e.scn = txn.scn ∧
      (txn.status = .xactEnd → e.use = txn.uses) ∧ (txn.status = .xactBegin → e.use + 1 = txn.uses)

structure SegOk (u : Undo) : Prop where
  xnum : ∀ i, (u.items i).xnum = uint32 (u.items i).uses
  nodup : u.freeItems.Nodup
  free : ∀ i ∈ u.freeItems, (u.items i).status = .xactEnd
  entry : ∀ e ∈ u.ended, EntryAt (u.items e.slot) u.owScn e
  scn : ∀ i, ScnAt (u.items i) u.owScn i u.ended

section
variable {u t : Undo} {txn : Txn} {slot : Nat}

lemma le_txIncScn (u : Undo) (txn : Txn) : u.owScn ≤ txIncScn u txn := by
  unfold txIncScn
  split
  case isTrue h => exact Nat.le_of_lt (of_decide_eq_true (Bool.and_eq_true_iff.mp h).1)
  case isFalse => exact Nat.le_refl _

lemma scn_le_txIncScn (u : Undo) (h : txn.status ≠ .xactPhase1) : txn.scn ≤ txIncScn u txn := by
  unfold txIncScn
  split
  case isTrue => exact Nat.le_refl _
  case isFalse hlt => simpa [h] using hlt

/-- The transaction in the slot goes on or ends: what the slot held of the one before is
covered by `ow_scn` from now on. -/
lemma EntryAt.overwrite {txn' owScn owScn' e} (h : EntryAt txn owScn e)
    (hrun : txn.status ≠ .xactEnd) (huses : txn'.uses = txn.uses) (hst : txn'.status ≠ .xactBegin)
    (how : owScn ≤ owScn') (hscn : txn.status = .xactBegin → txn.scn ≤ owScn') :
    EntryAt txn' owScn' e := by
  refine .inr (.inr ?_)
  rw [huses]
  rcases h with ⟨-, hend, -⟩ | ⟨huse, hbegin, hheld⟩ | ⟨huse, -, hle⟩
  · exact absurd hend hrun
  · exact ⟨by omega, fun _ => hst, hheld ▸ hscn hbegin⟩
  · exact ⟨huse, fun _ => hst, Nat.le_trans hle how⟩

lemma SegOk.ne_of_free (h : SegOk u) (hrun : (u.items slot).status ≠ .xactEnd) :
    ∀ i ∈ u.freeItems, i ∈ u.freeItems ∧ i ≠ slot := by
  intro i hi
  refine ⟨hi, ?_⟩
  rintro rfl
  exact hrun (h.free i hi)

/-- A step changes one slot and the transaction in it, and raises `ow_scn`. -/
lemma SegOk.setItem (h : SegOk u) {free owScn ended} (hxnum : txn.xnum = uint32 txn.uses)
    (hnodup : free.Nodup) (hfree : ∀ i ∈ free, i ∈ u.freeItems ∧ i ≠ slot) (how : u.owScn ≤ owScn)
    (hsub : u.ended ⊆ ended) (hnew : ∀ e ∈ ended, e ∉ u.ended → e.slot = slot)
    (hentry : ∀ e ∈ ended, e.slot = slot → EntryAt txn owScn e)
    (hscn : ScnAt txn owScn slot ended) : SegOk ⟨update u.items slot txn, free, owScn, ended⟩ where
  xnum := (forall_update_iff u.items fun _ x => x.xnum = uint32 x.uses).mpr
    ⟨hxnum, fun i _ => h.xnum i⟩
  nodup := hnodup
  free i hi := by
    obtain ⟨hmem, hne⟩ := hfree i hi
    simpa only [update_of_ne hne] using h.free i hmem
  entry e he := by
    rcases eq_or_ne e.slot slot with hs | hs
    · simpa only [hs, update_self] using hentry e he hs
    · simp only [update_of_ne hs]
      have hold := h.entry e (by_contra fun hn => hs (hnew e he hn))
      rcases hold with hcur | hnext | ⟨huse, hst, hle⟩
      · exact .inl hcur
      · exact .inr (.inl hnext)
      · exact .inr (.inr ⟨huse, hst, Nat.le_trans hle how⟩)
  scn := by
    refine (forall_update_iff u.items fun i x => ScnAt x owScn i ended).mpr ⟨hscn, ?_⟩
    intro i _ hlt hone htwo
    obtain ⟨e, he, hrest⟩ := h.scn i (by omega) hone htwo
    exact ⟨e, hsub he, hrest⟩

lemma SegOk.step {a} (h : SegOk u) (hok : covered u a = true) (hstep : txStep u a = some t) :
    SegOk t := by
  cases a with
  | begin =>
    simp only [txStep, txBegin] at hstep
    split at hstep <;> cases hstep
    rename_i slot rest hfree
    have hnodup := hfree ▸ h.nodup
    have hend : (u.items slot).status = .xactEnd := h.free slot (hfree ▸ mem_cons_self)
    refine h.setItem ?_ (nodup_cons.mp hnodup).2 ?_ (Nat.le_refl _) (fun _ he => he)
      (fun e he hn => absurd he hn) ?_ ?_
    · simp [h.xnum, uint32]
    · intro i hi
      rw [hfree]
      refine ⟨mem_cons_of_mem _ hi, ?_⟩
      rintro rfl
      exact (nodup_cons.mp hnodup).1 hi
    · rintro e he rfl
      rcases h.entry e he with ⟨huse, -, hscn⟩ | ⟨-, hst, -⟩ | ⟨huse, -, hle⟩
      · exact .inr (.inl ⟨congrArg (· + 1) huse, rfl, hscn⟩)
      · cases hend.symm.trans hst
      · exact .inr (.inr ⟨Nat.lt_succ_of_lt huse, fun hn => by simp at hn; omega, hle⟩)
    · intro hlt _ _
      obtain ⟨e, he, hslot, hscn, huse, -⟩ := h.scn slot hlt (by simp [hend]) (by simp [hend])
      exact ⟨e, he, hslot, hscn, nofun, fun _ => congrArg (· + 1) (huse hend)⟩
  | phase1 slot scn =>
    obtain ⟨hbegin, ⟨⟩⟩ := ite_none_right_eq_some.mp hstep
    have hrun : (u.items slot).status ≠ .xactEnd := by simp [hbegin]
    refine h.setItem (h.xnum slot) h.nodup (h.ne_of_free hrun) (le_txIncScn u _) (fun _ he => he)
      (fun e he hn => absurd he hn) ?_ fun _ hone _ => absurd rfl hone
    · rintro e he rfl
      exact (h.entry e he).overwrite hrun rfl nofun (le_txIncScn u _) fun _ =>
        scn_le_txIncScn u (by simp [hbegin])
  | phase2 slot =>
    obtain ⟨hrun, ⟨⟩⟩ := ite_none_right_eq_some.mp hstep
    refine h.setItem (h.xnum slot) h.nodup (h.ne_of_free hrun) (Nat.le_refl _) (fun _ he => he)
      (fun e he hn => absurd he hn) ?_ fun _ _ htwo => absurd rfl htwo
    · rintro e he rfl
      refine (h.entry e he).overwrite hrun rfl nofun (Nat.le_refl _) fun hbegin => ?_
      simpa [covered, hbegin] using hok
  | txEnd slot scn =>
    obtain ⟨hrun, ⟨⟩⟩ := ite_none_right_eq_some.mp hstep
    refine h.setItem (h.xnum slot) h.nodup (h.ne_of_free hrun) (le_txIncScn u _)
      (subset_cons_self _ _) ?_ ?_ ?_
    · rintro e he hn
      rcases mem_cons.mp he with rfl | he
      · rfl
      · exact absurd he hn
    · intro e he hslot
      rcases mem_cons.mp he with rfl | hold
      · exact .inl ⟨rfl, rfl, rfl⟩
      · subst hslot
        exact (h.entry e hold).overwrite hrun rfl nofun (le_txIncScn u _) fun hbegin =>
          scn_le_txIncScn u (by simp [hbegin])
    · intro _ _ _
      exact ⟨_, mem_cons_self, rfl, rfl, fun _ => rfl, nofun⟩
  | release slot =>
    obtain ⟨⟨hend, hfree⟩, ⟨⟩⟩ := ite_none_right_eq_some.mp hstep
    refine { h with nodup := nodup_append.mpr ⟨h.nodup, by simp, ?_⟩, free := ?_ }
    · rintro i hi j hj rfl
      exact hfree (mem_singleton.mp hj ▸ hi)
    · exact forall_mem_append.mpr ⟨h.free, forall_mem_singleton.mpr hend⟩

lemma uint32_ne {m n} (hlt : m < n) (hn : n < m + 4294967296) : uint32 m ≠ uint32 n := by
  unfold uint32
  omega

lemma SegOk.lookupOk (h : SegOk u) : LookupOk u where
  ended e he hnum inProgress currScn := by
    have hxnum := h.xnum e.slot
    rcases h.entry e he with ⟨huse, hend, hscn⟩ | ⟨huse, hbegin, hscn⟩ | ⟨huse, hst, hle⟩
    · simp [txGetInfo, hxnum, huse, hend, hscn]
    · have hne := uint32_ne (m := e.use) (n := e.use + 1) (by omega) (by omega)
      have hnext : uint32 (uint32 e.use + 1) = uint32 (e.use + 1) := by simp [uint32]
      simp [txGetInfo, hxnum, ← huse, hbegin, hscn, hne, hnext]
    · have hne := uint32_ne huse hnum
      have hnext : ¬(uint32 (uint32 e.use + 1) = (u.items e.slot).xnum ∧
          (u.items e.slot).status = .xactBegin) := by
        rintro ⟨hx, hbegin⟩
        refine hst ?_ hbegin
        simp only [hxnum, uint32] at hx
        omega
      simpa only [txGetInfo, hxnum ▸ hne, if_false, hnext, if_true, true_and] using hle
  running slot inProgress currScn hrun := by
    unfold txGetInfo
    cases hst : (u.items slot).status <;> simp_all

/-- Without `ow_scn` above it, the scn of the transaction before is lost. -/
lemma SegOk.not_lookupOk (h : SegOk u) (hbegin : (u.items slot).status = .xactBegin)
    (hlt : u.owScn < (u.items slot).scn) :
    ¬ LookupOk (u.setItem slot { u.items slot with status := .xactPhase2 }) := by
  intro hok
  obtain ⟨e, he, rfl, hscn, -, huse⟩ := h.scn slot hlt (by simp [hbegin]) (by simp [hbegin])
  have hnext := huse hbegin
  have hne := uint32_ne (m := e.use) (n := e.use + 1) (by omega) (by omega)
  have hle := (hok.ended e he (by simp [Undo.setItem]; omega) false 0).2
  simp [txGetInfo, Undo.setItem, h.xnum, ← hnext, hne] at hle
  omega

lemma Undo.Fresh.segOk (h : u.Fresh) : SegOk u where
  xnum := h.xnum
  nodup := h.free
  free i _ := h.status i
  entry := by simp [h.ended]
  scn i hlt := absurd (h.scn i) (Nat.not_le_of_lt hlt)

/-- As long as every rollback in phase 2 finds the scn before it covered, a lookup answers
what a transaction ended with, or an `ow_scn` above it; the first such rollback that does
not loses an answer. -/
theorem txGetInfo_answers (h : ReachableBy txStep Undo.Fresh (fun u a => covered u a = true) u) :
    LookupOk u ∧ ∀ a t, txStep u a = some t → (LookupOk t ↔ covered u a = true) := by
  have hseg : SegOk u := h.invariant (fun _ hu => hu.segOk) fun _ _ _ hok hu hst => hu.step hok hst
  refine ⟨hseg.lookupOk, fun a t hstep => ⟨?_, fun hok => (hseg.step hok hstep).lookupOk⟩⟩
  intro hok
  cases a with
  | phase2 slot =>
    obtain ⟨-, ⟨⟩⟩ := ite_none_right_eq_some.mp hstep
    by_contra hcov
    simp [covered] at hcov
    exact hseg.not_lookupOk hcov.1 hcov.2 hok
  | _ => rfl

end

def emptySegment : Undo := ⟨fun _ => ⟨0, .xactEnd, 0, 0⟩, [0], 0, []⟩

lemma emptySegment_fresh : emptySegment.Fresh :=
  ⟨fun _ => rfl, fun _ => rfl, fun _ => Nat.le_refl _, by decide, rfl⟩

theorem emptySegment_answers :
    ∃ u, ReachableBy txStep Undo.Fresh (fun u a => covered u a = true) u ∧
      u.ended = [⟨0, 1, 10⟩] ∧ LookupOk u := by
  obtain ⟨u, hrun, hended⟩ := exists_of_runOk_map txStep covered emptySegment
    [.begin, .txEnd 0 10, .release 0, .begin, .phase1 0 20, .phase2 0] Undo.ended
    [⟨0, 1, 10⟩] (by decide)
  have hreach := ReachableBy.of_runOk _ (.init emptySegment_fresh) hrun
  exact ⟨u, hreach, hended, (txGetInfo_answers hreach).1⟩

/-- The second transaction of a slot is rolled back by XA before it is prepared: the first
one, which ended at 10, is said to have ended at 0 at the latest. -/
theorem txGetInfo_scn_lost : ∃ u, Reachable txStep Undo.Fresh u ∧ u.ended = [⟨0, 1, 10⟩] ∧
      txGetInfo u true false 20 0 1 = ⟨.xactEnd, 0, true⟩ := by
  obtain ⟨u, hrun, hu⟩ := exists_of_run_map txStep emptySegment
    [.begin, .txEnd 0 10, .release 0, .begin, .phase2 0]
    (fun u => (u.ended, txGetInfo u true false 20 0 1)) ([⟨0, 1, 10⟩], ⟨.xactEnd, 0, true⟩)
    (by decide)
  have hreach := Reachable.of_run _ (.init emptySegment_fresh) hrun
  exact ⟨u, hreach, Prod.mk.inj hu⟩

end Cantian.Xact
