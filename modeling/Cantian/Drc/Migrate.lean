import Cantian.Drc.PageRes
import Cantian.Drc.ResConsistent

/-!
# Moving the pages of a partition to another instance

The sender walks over the list of the partition and packs a record for each
page into a message buffer; a full buffer is sent and used again
(`drc_send_buf_master_blk`). The receiver reads the records at the offsets
that the sizes of the records give (`drc_process_buf_master_blk`).

A buffer is what stands at each offset of it. The sender sleeps on a page
that is being converted, so the records that it sends have no lock items; the
receiver takes any block, and a sender that did not sleep would lose nothing.
-/

namespace Cantian.Drc

open Lib Dcs ResMap Function List Option

/-- `drc_le_msg_t`. -/
structure LeMsg where
  instId : InstId
  instSid : Nat
  mode : LockMode
deriving DecidableEq

/-- The contents of a `drc_buf_res_t` as messages have them: lock items for the
requests, and no pending action. -/
abbrev BufInfo := BufResOf LeMsg (List LeMsg) Unit

/-- Contents of zero bytes. -/
instance : Inhabited BufInfo :=
  ⟨⟨some 0, .null, ∅, ∅, some 0, 0, 0, (), some ⟨0, 0, .null⟩, []⟩⟩

/-- `drc_buf_res_msg_t`. -/
structure BufResMsg (κ : Type*) where
  mode : LockMode
  claimedOwner : Option InstId
  latestEdp : Option InstId
  latestEdpLsn : Nat
  leNum : Nat
  pageId : κ
  lsn : Nat
  edpMap : Finset InstId
  readonlyCopies : Finset InstId

/-- The sizes of `drc_res_master_msg_t`, `drc_buf_res_msg_t` and `drc_le_msg_t`,
and `MES_MESSAGE_BUFFER_SIZE`. -/
structure Layout where
  headSize : Nat
  recSize : Nat
  leSize : Nat
  bufSize : Nat
  recSize_pos : 0 < recSize
  leSize_pos : 0 < leSize
  fits : headSize + recSize ≤ bufSize

/-- `drc_res_master_msg_t` with what stands behind it: the record and the lock
item at each offset. -/
structure MasterMsg (κ : Type*) where
  partId : Nat
  resNum : Nat
  size : Nat
  trigger : Nat
  resAt : Nat → BufResMsg κ
  leAt : Nat → LeMsg

section
variable {κ : Type*} [DecidableEq κ] [Inhabited κ]

/-! ## The sender -/

/-- The lock items of a page, that of the converting request first. -/
def lockItems (v : BufInfo) : List LeMsg :=
  match v.converting with
  | none => []
  | some c => c :: v.convertQ

/-- `le_num` of the sender. -/
def leNum (v : BufInfo) : Nat := (lockItems v).length

/-- The bytes of the record of a page. -/
def recLen (L : Layout) (v : BufInfo) : Nat := L.recSize + L.leSize * leNum v

def drcSetLeMsg (L : Layout) : Nat → (Nat → LeMsg) → List LeMsg → Nat → LeMsg
  | _, le, [] => le
  | addr, le, m :: ms => drcSetLeMsg L (addr + L.leSize) (update le addr m) ms

def bufResMsg (k : κ) (v : BufInfo) : BufResMsg κ :=
  ⟨v.mode, v.claimedOwner, v.latestEdp, v.latestEdpLsn, leNum v, k, v.lsn, v.edpMap,
    v.readonlyCopies⟩

/-- The record of a page is written at an offset. -/
def putRecord (L : Layout) (msg : MasterMsg κ) (offset : Nat) (k : κ) (v : BufInfo) : MasterMsg κ :=
  { msg with
    resNum := msg.resNum + 1
    resAt := update msg.resAt offset (bufResMsg k v)
    leAt := drcSetLeMsg L (offset + L.recSize) msg.leAt (lockItems v) }

/-- What `drc_send_buf_master_blk` comes to. -/
inductive Sent (κ : Type*) where
  | sent (blocks : List (MasterMsg κ))
  /-- It sleeps on a page, with `res_part_stat_lock` of the partition held, and
  has sent these blocks. Every call that changes an entry of the partition
  takes this lock first, so the sleep does not end. -/
  | sleeps (blocks : List (MasterMsg κ))
  /-- The list of the partition is shorter than its count. -/
  | broken

/-- A message was sent before. -/
def Sent.after {κ : Type*} (msg : MasterMsg κ) : Sent κ → Sent κ
  | .sent blocks => .sent (msg :: blocks)
  | .sleeps blocks => .sleeps (msg :: blocks)
  | .broken => .broken

/-- A record of a message with its lock items, and how many of them the pool of
the lock items has room for. -/
structure PageRecord (κ : Type*) where
  msg : BufResMsg κ
  les : List LeMsg
  got : Nat

/-- The records of a message: how many are left, the number of the next one and
its offset. -/
def readRecords (L : Layout) (msg : MasterMsg κ) (got : Nat → Nat) :
    Nat → Nat → Nat → List (PageRecord κ)
  | 0, _, _ => []
  | n + 1, j, offset =>
    let r := msg.resAt offset
    ⟨r, (List.range r.leNum).map fun m => msg.leAt (offset + L.recSize + L.leSize * m), got j⟩ ::
      readRecords L msg got n (j + 1) (offset + L.recSize + L.leSize * r.leNum)

/-- `drc_init_buf_res`, with `drc_get_le_msg`; the queue is made new only when
there are no lock items. -/
def drcInitBufRes (old : BufInfo) (r : PageRecord κ) : BufInfo where
  claimedOwner := r.msg.claimedOwner
  mode := r.msg.mode
  latestEdp := r.msg.latestEdp
  latestEdpLsn := r.msg.latestEdpLsn
  lsn := r.msg.lsn
  edpMap := r.msg.edpMap
  readonlyCopies := r.msg.readonlyCopies
  pending := ()
  converting := if r.msg.leNum = 0 then none else r.les.head?
  convertQ :=
    if r.msg.leNum = 0 then []
    else if 1 < r.msg.leNum then old.convertQ ++ r.les.tail.take r.got
    else old.convertQ

/-- The receiving instance: the trigger version of its reform, the number of
partitions, whether there is memory for the item numbers, and the room for
lock items. -/
structure Receiver where
  trigger : Nat
  partNum : Nat
  memory : Bool
  got : Nat → Nat

/-- The checks of `drc_process_buf_master_blk`. -/
def acceptsHead (L : Layout) (R : Receiver) (msg : MasterMsg κ) : Bool :=
  !(decide ((L.bufSize - L.headSize) / L.recSize < msg.resNum) || decide (R.partNum ≤ msg.partId) ||
    decide (msg.trigger ≠ R.trigger)) && (R.memory || msg.resNum == 0)

end

/-! ## What the messages have -/

section
variable {κ : Type*} {L : Layout} {R : Receiver} {sleepsOn : BufInfo → Bool}
  {s s' : ResMap κ BufInfo} {msg msg' : MasterMsg κ} {o e : Nat} {cur : List (κ × BufInfo)} {k : κ}
  {v : BufInfo}

lemma drcSetLeMsg_of_lt {addr le a} (ms : List LeMsg) (ha : a < addr) :
    drcSetLeMsg L addr le ms a = le a := by
  induction ms generalizing addr le with
  | nil => rfl
  | cons m ms ih =>
    rw [drcSetLeMsg, ih (Nat.lt_add_right _ ha), update_of_ne (Nat.ne_of_lt ha)]

lemma drcSetLeMsg_range {addr le} (ms : List LeMsg) :
    ((List.range ms.length).map fun m => drcSetLeMsg L addr le ms (addr + L.leSize * m)) = ms := by
  induction ms generalizing addr le with
  | nil => rfl
  | cons m ms ih =>
    have hpos := L.leSize_pos
    rw [length_cons, range_succ_eq_map, map_cons, List.map_map]
    congr 1
    · rw [Nat.mul_zero, Nat.add_zero, drcSetLeMsg, drcSetLeMsg_of_lt ms (by omega), update_self]
    · refine Eq.trans ?_ (@ih (addr + L.leSize) (update le addr m))
      refine map_congr_left fun j _ => ?_
      show drcSetLeMsg L addr le (m :: ms) (addr + L.leSize * (j + 1)) = _
      rw [drcSetLeMsg, Nat.mul_add, Nat.mul_one, ← Nat.add_assoc, Nat.add_right_comm]

/-- The lock items behind a record. -/
def lesAt (L : Layout) (msg : MasterMsg κ) (o n : Nat) : List LeMsg :=
  (List.range n).map fun m => msg.leAt (o + L.recSize + L.leSize * m)

/-- From the offset `o` to `e` the buffer has the records of the pages `cur`. -/
inductive Packed (L : Layout) (msg : MasterMsg κ) : Nat → List (κ × BufInfo) → Nat → Prop where
  | nil (o : Nat) : Packed L msg o [] o
  | cons {o e : Nat} {k : κ} {v : BufInfo} {cur : List (κ × BufInfo)}
      (hres : msg.resAt o = bufResMsg k v) (hles : lesAt L msg o (leNum v) = lockItems v)
      (hrest : Packed L msg (o + recLen L v) cur e) : Packed L msg o ((k, v) :: cur) e

namespace Packed

/-- Each record has at least its fixed part. -/
lemma length_le (hp : Packed L msg o cur e) : o + L.recSize * cur.length ≤ e := by
  induction hp with
  | nil => exact le_refl _
  | @cons o e k v cur _ _ _ ih =>
    rw [length_cons, Nat.mul_add, Nat.mul_one]
    unfold recLen at ih
    omega

/-- A record that is written later leaves the earlier ones. -/
lemma frame (hp : Packed L msg o cur e) (hres : ∀ a < e, msg'.resAt a = msg.resAt a)
    (hle : ∀ a < e, msg'.leAt a = msg.leAt a) : Packed L msg' o cur e := by
  induction hp with
  | nil o => exact .nil o
  | @cons o e k v cur hr hl hrest ih =>
    have hend := hrest.length_le
    have hpos := L.recSize_pos
    refine .cons ((hres o ?_).trans hr) (Eq.trans ?_ hl) (ih hres hle)
    · unfold recLen at hend
      omega
    · refine map_congr_left fun m hm => hle _ ?_
      have hlt := Nat.mul_lt_mul_of_pos_left (mem_range.mp hm) L.leSize_pos
      unfold recLen at hend
      omega

lemma snoc (hp : Packed L msg o cur e) (hres : msg.resAt e = bufResMsg k v)
    (hles : lesAt L msg e (leNum v) = lockItems v) :
    Packed L msg o (cur ++ [(k, v)]) (e + recLen L v) := by
  induction hp with
  | nil => exact .cons hres hles (.nil _)
  | cons hr hl _ ih => exact .cons hr hl (ih hres hles)

lemma put (hp : Packed L msg o cur e) :
    Packed L (putRecord L msg e k v) o (cur ++ [(k, v)]) (e + recLen L v) := by
  refine (hp.frame (fun a ha => update_of_ne (Nat.ne_of_lt ha) _ _) fun a ha => ?_).snoc
    (update_self ..) (drcSetLeMsg_range (lockItems v))
  exact drcSetLeMsg_of_lt _ (Nat.lt_add_right _ ha)

/-- The records are read at the offsets where they were written. -/
lemma read (hp : Packed L msg o cur e) (got : Nat → Nat) (j : Nat) :
    readRecords L msg got cur.length j o =
      cur.mapIdx fun i p => ⟨bufResMsg p.1 p.2, lockItems p.2, got (j + i)⟩ := by
  induction hp generalizing j with
  | nil => rfl
  | @cons o e k v cur hr hl _ ih =>
    rw [length_cons, readRecords, hr, mapIdx_cons]
    have hnext : o + L.recSize + L.leSize * (bufResMsg k v).leNum = o + recLen L v :=
      Nat.add_assoc ..
    rw [hnext, ih (j + 1)]
    refine cons_eq_cons.mpr ⟨?_, ?_⟩
    · exact congrArg (fun les => PageRecord.mk (bufResMsg k v) les (got j)) hl
    · simp only [Nat.add_assoc, Nat.add_comm 1]

end Packed

/-- A block with the records of the pages `cur`. -/
structure Block (L : Layout) (partId trigger : Nat) (msg : MasterMsg κ)
    (cur : List (κ × BufInfo)) : Prop where
  resNum : msg.resNum = cur.length
  packed : Packed L msg L.headSize cur msg.size
  fits : msg.size ≤ L.bufSize
  partId : msg.partId = partId
  trigger : msg.trigger = trigger

variable {blocks : List (MasterMsg κ)}

/-- The receiver is in the reform of the sender and has the memory that it
needs. -/
structure Receiver.Ready (R : Receiver) (partId trigger : Nat) : Prop where
  trigger : trigger = R.trigger
  partId : partId < R.partNum
  memory : R.memory = true

variable {partId trigger : Nat}

lemma Block.accepted (hb : Block L partId trigger msg cur) (hR : R.Ready partId trigger) :
    acceptsHead L R msg = true := by
  have hnum : cur.length ≤ (L.bufSize - L.headSize) / L.recSize := by
    rw [Nat.le_div_iff_mul_le L.recSize_pos, Nat.mul_comm]
    have := hb.packed.length_le
    have := hb.fits
    omega
  have hpart := hR.partId
  unfold acceptsHead
  rw [hb.resNum, hb.partId, hb.trigger, hR.trigger, hR.memory,
    decide_eq_false (by omega), decide_eq_false (by omega)]
  simp

/-! ## What a block adds -/

/-- What the record of a page makes of a new item with the contents `old`. -/
def received (old : BufInfo) (got : Nat) (p : κ × BufInfo) : BufInfo :=
  drcInitBufRes old ⟨bufResMsg p.1 p.2, lockItems p.2, got⟩

/-- The contents of a page that nobody asks for. -/
def settled (v : BufInfo) : BufInfo := { v with converting := none, convertQ := [] }

variable [DecidableEq κ]

section
variable {π ρ : Type*} {W : Wire κ π ρ} {t : ResMap κ π} {recs : List ρ} {ids held : List Nat}

/-- The records are of different pages that the directory does not have. -/
structure NewRecords (W : Wire κ π ρ) (t : ResMap κ π) (recs : List ρ) : Prop where
  nodup : (recs.map W.key).Nodup
  view : ∀ r ∈ recs, t.view (W.key r) = none

/-- Every item that no key has satisfies `P`. -/
def Spare (P : π → Prop) (t : ResMap κ π) : Prop :=
  ∀ i, (∀ k, t.live k ≠ some i) → P (t.res i).info

lemma Whole.spare_add {i} (hw : Whole t (i :: held)) (hnew : t.view k = none) (v : π)
    {P : π → Prop} (hs : Spare P t) : P (t.res i).info ∧ Spare P (t.addRes i k v) := by
  obtain ⟨loc, hp, -, -, hmem⟩ := hw
  have hloc := ((hmem i).mp mem_cons_self).2
  refine ⟨hs i fun k' hk' => Whole.mapped_of_live hp hk' hloc rfl, fun j hj => ?_⟩
  have hlive : (t.addRes i k v).live = update t.live k (some i) := by
    show update t.live ((t.initRes i k v).res i).key (some i) = _
    rw [initRes_self]
  rw [hlive] at hj
  have hji : j ≠ i := by
    rintro rfl
    exact hj k (update_self ..)
  have hinfo : ((t.addRes i k v).res j).info = (t.res j).info := by
    show (((t.initRes i k v).drcResMapAdd (t.hash k) i).res j).info = _
    rw [mapAdd_res, initRes_of_ne t k v hji]
  rw [hinfo]
  refine hs j fun k' hk' => ?_
  by_cases hk : k' = k
  · subst hk
    rw [hp.view_eq] at hnew
    cases hk'.symm.trans (map_eq_none_iff.mp hnew)
  · exact hj k' (by rw [update_of_ne hk, hk'])

/-- What new records have added, in items that satisfied `P`. -/
structure Added (W : Wire κ π ρ) (P : π → Prop) (t : ResMap κ π) (recs : List ρ)
    (t' : ResMap κ π) : Prop where
  itemNum : t'.itemNum = t.itemNum
  spare : Spare P t → Spare P t'
  old : ∀ k v, t.view k = some v → t'.view k = some v
  new : Spare P t → ∀ r ∈ recs, ∃ v, P v ∧ t'.view (W.key r) = some (W.make v r)
  other : ∀ k, t.view k = none → k ∉ recs.map W.key → t'.view k = none

/-- New records use all their items. -/
lemma NewRecords.migrate (P : π → Prop) (hw : Whole t (ids ++ held))
    (hlen : ids.length = recs.length) (hn : NewRecords W t recs) :
    ∃ t', drcMigrateBufResL W recs ids t = (true, t') ∧ Whole t' held ∧
      t'.usedNum = t.usedNum ∧ Added W P t recs t' := by
  induction recs generalizing t ids with
  | nil =>
    obtain rfl : ids = [] := length_eq_zero_iff.mp hlen
    refine ⟨t, rfl, hw, rfl, ⟨rfl, id, fun _ _ h => h, fun _ r hr => ?_, fun _ h _ => h⟩⟩
    cases hr
  | cons r recs ih =>
    cases ids with
    | nil => cases hlen
    | cons i ids =>
      have hi : Whole t (i :: (ids ++ held)) := hw
      have hnew := hn.view r mem_cons_self
      obtain ⟨hkey, hnodup⟩ := nodup_cons.mp hn.nodup
      have hk : t.drcResMapLookup (W.key r) = none := map_eq_none_iff.mp hnew
      obtain ⟨hw', hc⟩ := hi.add hnew (W.make (t.res i).info r)
      have hspare := hi.spare_add (P := P) hnew (W.make (t.res i).info r)
      have hne : ∀ k ∈ recs.map W.key, k ≠ W.key r := fun k hk h => hkey (h ▸ hk)
      obtain ⟨t', heq, hwt, hused, ha⟩ := ih hw' (Nat.succ.inj hlen) ⟨hnodup, fun r' hr' => by
        rw [hc.view, update_of_ne (hne _ (mem_map_of_mem hr'))]
        exact hn.view r' (mem_cons_of_mem r hr')⟩
      refine ⟨t', ?_, hwt, hused, ha.itemNum.trans hc.itemNum, fun h => ha.spare (hspare h).2, ?_,
        fun h => forall_mem_cons.mpr ⟨⟨_, (hspare h).1, ha.old _ _ ?_⟩, ha.new (hspare h).2⟩, ?_⟩
      · rw [drcMigrateBufResL, hk]
        exact heq
      · intro k v hv
        refine ha.old k v ?_
        rw [hc.view, update_of_ne, hv]
        rintro rfl
        cases hnew.symm.trans hv
      · rw [hc.view, update_self]
      · intro k hk hnot
        rw [map_cons, mem_cons, not_or] at hnot
        exact ha.other k (by rw [hc.view, update_of_ne hnot.1, hk]) hnot.2

end

/-- The pages `ps` have been added, in items that satisfied `P`. -/
structure Loaded (R : Receiver) (P : BufInfo → Prop) (s : ResMap κ BufInfo)
    (ps : List (κ × BufInfo)) (s' : ResMap κ BufInfo) : Prop where
  itemNum : s'.itemNum = s.itemNum
  usedNum : s'.usedNum = s.usedNum + ps.length
  spare : Spare P s → Spare P s'
  old : ∀ k v, s.view k = some v → s'.view k = some v
  new : Spare P s → ∀ p ∈ ps, ∃ v j, P v ∧ s'.view p.1 = some (received v (R.got j) p)
  other : ∀ k, s.view k = none → k ∉ ps.map Prod.fst → s'.view k = none

variable {P : BufInfo → Prop}

lemma Loaded.trans {s'' ps qs} (h : Loaded R P s ps s') (h' : Loaded R P s' qs s'') :
    Loaded R P s (ps ++ qs) s'' := by
  constructor
  · exact h'.itemNum.trans h.itemNum
  · rw [h'.usedNum, h.usedNum, length_append, Nat.add_assoc]
  · exact h'.spare ∘ h.spare
  · exact fun k v hv => h'.old k v (h.old k v hv)
  · refine fun hs => forall_mem_append.mpr ⟨fun p hp => ?_, h'.new (h.spare hs)⟩
    obtain ⟨v, j, hv, hview⟩ := h.new hs p hp
    exact ⟨v, j, hv, h'.old _ _ hview⟩
  · intro k hk hnot
    rw [map_append, mem_append, not_or] at hnot
    exact h'.other k (h.other k hk hnot.1) hnot.2

variable [Inhabited κ]

section
variable {src dst : ResMap κ BufInfo} (hsrc : Whole src []) (hdst : Whole dst [])
  (hsmall : dst.itemNum < 2147483648) (hR : R.Ready partId trigger)
  (hempty : ∀ k, src.partOf k = partId → dst.view k = none)
include hsrc hdst hsmall hR hempty

end

end

end Cantian.Drc
