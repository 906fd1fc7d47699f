import Mathlib.Algebra.Group.Nat.Defs
import Mathlib.Data.Nat.Log

/-!
# Hash partitions

A hash partitioned table with `n` partitions has a number of buckets that is
the least power of two not below `n`. The buckets without a partition of their
own share the one of the bucket half the bucket count below. Adding a
partition takes the rows of one such bucket out of the partition that held
them, coalescing brings them back; all other rows stay where they are.
-/

namespace Cantian.Part

open List

/-! ## The source -/

/-- `PART_GROUP_SIZE`. -/
def partGroupSize : Nat := 4096

/-- A hash partitioned table: its rows with the numbers of the partitions they
are in, and whether the last partition is not ready. -/
structure PartTable (ρ : Type*) where
  partcnt : Nat
  notReady : Bool
  rows : List (Nat × ρ)

/-- The logarithm is exact. -/
def dcGetHashBucketCount (pcnt : Nat) : Nat :=
  let num := 2 <<< Nat.log 2 pcnt
  if num = pcnt * 2 then pcnt else num

section
variable {ρ : Type*} (hash : ρ → Nat)

def partHashGetPno (t : PartTable ρ) (hashValue : Nat) : Nat :=
  let partCnt := if t.notReady then t.partcnt - 1 else t.partcnt
  let hbucketCnt := dcGetHashBucketCount partCnt
  let bucketId := hashValue % hbucketCnt
  if bucketId < partCnt then bucketId else bucketId - hbucketCnt / 2

structure RedisBucketMap where
  groupId : Nat
  bucketId : Nat
  pno : Nat

def dbAddpartGetBucketMap (partCnt : Nat) : RedisBucketMap × RedisBucketMap :=
  let bucketCnt := dcGetHashBucketCount partCnt
  let org := partCnt - 1 - bucketCnt / 2
  (⟨org / partGroupSize, org % partGroupSize, org⟩,
    ⟨(partCnt - 1) / partGroupSize, (partCnt - 1) % partGroupSize, partCnt - 1⟩)

def dbGetHashPnoFromBucketMap (bucketCnt : Nat) (map : RedisBucketMap × RedisBucketMap)
    (hashValue : Nat) : Nat :=
  let groupId := hashValue % bucketCnt / partGroupSize
  let bucketId := hashValue % bucketCnt % partGroupSize
  if groupId = map.1.groupId ∧ bucketId = map.1.bucketId then map.1.pno else map.2.pno

def partMatchRedisPno (bucketCnt : Nat) (map : RedisBucketMap × RedisBucketMap) (orgPno : Nat)
    (r : ρ) : Bool :=
  dbGetHashPnoFromBucketMap bucketCnt map (hash r) ≠ orgPno

/-- `part_redis_move_entity`: each row that the scan of partition `src` selects
is deleted there and inserted into `dst`. -/
def partRedisMoveEntity (matched : ρ → Bool) (src dst : Nat) (rows : List (Nat × ρ)) :
    List (Nat × ρ) :=
  rows.map fun r => if r.1 = src ∧ matched r.2 then (dst, r.2) else r

/-- The new partition of a hash partitioned table is not ready. -/
def dbAddTablePart (t : PartTable ρ) : PartTable ρ :=
  { t with partcnt := t.partcnt + 1, notReady := true }

def dbAddpartRedisData (t : PartTable ρ) : PartTable ρ :=
  let bucketCnt := dcGetHashBucketCount t.partcnt
  let map := dbAddpartGetBucketMap t.partcnt
  let orgPartno := map.1.pno
  { t with
    rows := partRedisMoveEntity (partMatchRedisPno hash bucketCnt map orgPartno) orgPartno
      (t.partcnt - 1) t.rows
    notReady := false }

/-- `db_altable_coalesce_partition`; the last partition is dropped in the end. -/
def dbAltableCoalescePartition (t : PartTable ρ) : Option (PartTable ρ) :=
  if t.partcnt < 2 then none
  else
    let bucketcnt := dcGetHashBucketCount t.partcnt
    some { t with
      partcnt := t.partcnt - 1
      rows := partRedisMoveEntity (fun _ => true) (t.partcnt - 1)
        (t.partcnt - 1 - bucketcnt / 2) t.rows }

/-- Every row is where it will be looked for. -/
def Placed (t : PartTable ρ) : Prop := ∀ r ∈ t.rows, r.1 = partHashGetPno t (hash r.2)

/-! ## Buckets -/

/-- The partition of a hash value among `n` partitions. -/
def pno (n h : Nat) : Nat :=
  let b := h % dcGetHashBucketCount n
  if b < n then b else b - dcGetHashBucketCount n / 2

lemma bucketCount_spec {n} (hn : 0 < n) :
    ∃ k, dcGetHashBucketCount n = 2 ^ k ∧ n ≤ 2 ^ k ∧ 2 ^ k < 2 * n := by
  have hlow := Nat.pow_log_le_self 2 (Nat.ne_of_gt hn)
  have hup := Nat.lt_pow_succ_log_self (b := 2) (by decide) n
  unfold dcGetHashBucketCount
  simp only [Nat.shiftLeft_eq, ← Nat.pow_succ']
  split
  · exact ⟨Nat.log 2 n, by omega, by omega, by omega⟩
  · exact ⟨Nat.log 2 n + 1, rfl, Nat.le_of_lt hup, by omega⟩

/-- One more partition leaves the bucket count alone, unless every bucket has
its own partition already. -/
lemma bucketCount_succ {n} (hn : 0 < n) :
    (∃ c, dcGetHashBucketCount n = 2 * c ∧ dcGetHashBucketCount (n + 1) = 2 * c ∧
      c < n ∧ n < 2 * c) ∨
    (dcGetHashBucketCount n = n ∧ dcGetHashBucketCount (n + 1) = 2 * n) := by
  obtain ⟨k, hk, hle, hlt⟩ := bucketCount_spec hn
  obtain ⟨k', hk', hle', hlt'⟩ := bucketCount_spec (Nat.succ_pos n)
  have hpow : ∀ {a b : Nat}, 2 ^ a < 2 * 2 ^ b → a ≤ b := by
    intro a b h
    rw [← Nat.pow_succ'] at h
    exact Nat.lt_succ_iff.mp ((Nat.pow_lt_pow_iff_right (by decide)).mp h)
  rcases Nat.lt_or_eq_of_le hle with hn' | hn'
  · -- the same power of two
    obtain rfl : k = k' := Nat.le_antisymm (hpow (by omega)) (hpow (by omega))
    obtain ⟨j, rfl⟩ : ∃ j, k = j + 1 :=
      Nat.exists_eq_succ_of_ne_zero fun h => by simp [h] at hn'; omega
    rw [Nat.pow_succ'] at hk hk' hlt hn'
    exact .inl ⟨2 ^ j, hk, hk', by omega, hn'⟩
  · -- the next one
    have hk1 : k' = k + 1 := by
      refine Nat.le_antisymm (hpow ?_) (Nat.lt_of_not_le fun h => ?_)
      · rw [Nat.pow_succ']
        omega
      · have := Nat.pow_le_pow_right (n := 2) (by decide) h
        omega
    rw [hk1, Nat.pow_succ', ← hn'] at hk'
    exact .inr ⟨hk.trans hn'.symm, hk'⟩

lemma pno_lt {n} (hn : 0 < n) (h : Nat) : pno n h < n := by
  obtain ⟨k, hk, hle, hlt⟩ := bucketCount_spec hn
  have hb := Nat.mod_lt h (Nat.lt_of_lt_of_le hn hle)
  unfold pno
  rw [hk]
  dsimp only
  split <;> omega

/-- The partition that a new one after `n` others takes rows from. -/
def source (n : Nat) : Nat := n - dcGetHashBucketCount (n + 1) / 2

/-- With one more partition, the rows of the new bucket move out of the source
and nothing else moves. -/
lemma pno_succ {n} (hn : 0 < n) (h : Nat) : source n < n ∧
    (pno (n + 1) h = n ↔ pno n h = source n ∧ h % dcGetHashBucketCount (n + 1) ≠ source n) ∧
    (pno (n + 1) h ≠ n → pno (n + 1) h = pno n h) := by
  unfold source pno
  rcases bucketCount_succ hn with ⟨c, h1, h2, hc, hlt⟩ | ⟨h1, h2⟩
  · have hb := Nat.mod_lt h (show 0 < 2 * c by omega)
    simp only [h1, h2]
    refine ⟨by omega, ?_⟩
    split_ifs <;> omega
  · have hb := Nat.mod_lt h hn
    have hmod : h % (2 * n) = h % n ∨ h % (2 * n) = h % n + n := by
      rw [Nat.mul_comm, Nat.mod_mul]
      rcases Nat.mod_two_eq_zero_or_one (h / n) with hq | hq <;> simp [hq]
    simp only [h1, h2]
    refine ⟨by omega, ?_⟩
    split_ifs <;> omega

/-- Group and position within the group say which bucket it is. -/
lemma eq_iff_div_mod (g a b : Nat) : a / g = b / g ∧ a % g = b % g ↔ a = b := by
  refine ⟨fun ⟨hd, hm⟩ => ?_, fun h => by simp [h]⟩
  rw [← Nat.div_add_mod a g, hd, hm, Nat.div_add_mod]

lemma partMatchRedisPno_iff {n} (hn : 0 < n) (r : ρ) :
    partMatchRedisPno hash (dcGetHashBucketCount (n + 1)) (dbAddpartGetBucketMap (n + 1)) (source n)
      r = true ↔ hash r % dcGetHashBucketCount (n + 1) ≠ source n := by
  have hsrc := (pno_succ hn (hash r)).1
  simp only [partMatchRedisPno, dbGetHashPnoFromBucketMap, dbAddpartGetBucketMap, eq_iff_div_mod,
    decide_eq_true_eq, Nat.add_sub_cancel]
  show (if _ = source n then source n else n) ≠ _ ↔ _
  split <;> omega

/-! ## Placement -/

variable {hash} {t : PartTable ρ}

lemma partHashGetPno_ready (hready : t.notReady = false) (h : Nat) :
    partHashGetPno t h = pno t.partcnt h := by
  simp [partHashGetPno, pno, hready]

lemma placed_iff (hready : t.notReady = false) :
    Placed hash t ↔ ∀ r ∈ t.rows, r.1 = pno t.partcnt (hash r.2) := by
  simp only [Placed, partHashGetPno_ready hready]

lemma forall_moved {matched : ρ → Bool} {src dst : Nat} {rows : List (Nat × ρ)} {P : Nat → ρ → Prop}
    (hmoved : ∀ r ∈ rows, r.1 = src → matched r.2 = true → P dst r.2)
    (hstay : ∀ r ∈ rows, ¬ (r.1 = src ∧ matched r.2 = true) → P r.1 r.2) :
    ∀ r ∈ partRedisMoveEntity matched src dst rows, P r.1 r.2 := by
  intro r hr
  obtain ⟨q, hq, rfl⟩ := mem_map.mp hr
  split_ifs with h
  · exact hmoved q hq h.1 h.2
  · exact hstay q hq h

lemma map_snd_moved (matched : ρ → Bool) (src dst : Nat) (rows : List (Nat × ρ)) :
    (partRedisMoveEntity matched src dst rows).map Prod.snd = rows.map Prod.snd := by
  rw [partRedisMoveEntity, map_map]
  refine map_congr_left fun r _ => ?_
  show (ite _ _ _ : Nat × ρ).2 = _
  split <;> rfl

/-- The redistribution after a partition was added. -/
lemma placed_redisData (hn : 0 < t.partcnt) (hready : t.notReady = false) (ht : Placed hash t) :
    Placed hash (dbAddpartRedisData hash (dbAddTablePart t)) := by
  have hold := (placed_iff hready).mp ht
  refine (placed_iff rfl).mpr (forall_moved (P := fun p r => p = pno (t.partcnt + 1) (hash r))
    (fun r hr hsrc hm => ?_) fun r hr hm => ?_)
  all_goals obtain ⟨-, hnew, hstay⟩ := pno_succ hn (hash r.2)
  · have hb := (partMatchRedisPno_iff hash hn r.2).mp hm
    exact (hnew.mpr ⟨(hold r hr).symm.trans hsrc, hb⟩).symm
  · refine (hold r hr).trans (hstay fun h => hm ?_).symm
    obtain ⟨hsrc, hb⟩ := hnew.mp h
    exact ⟨(hold r hr).trans hsrc, (partMatchRedisPno_iff hash hn r.2).mpr hb⟩

lemma placed_coalesce (hn : 2 ≤ t.partcnt) (hready : t.notReady = false) (ht : Placed hash t) :
    ∃ t', dbAltableCoalescePartition t = some t' ∧ t'.partcnt = t.partcnt - 1 ∧
      t'.notReady = false ∧ t'.rows.map Prod.snd = t.rows.map Prod.snd ∧ Placed hash t' := by
  obtain ⟨n, hpos, hcnt⟩ : ∃ n, 0 < n ∧ t.partcnt = n + 1 := ⟨t.partcnt - 1, by omega, by omega⟩
  have hold := (placed_iff hready).mp ht
  rw [hcnt] at hold
  refine ⟨_, if_neg (by omega), rfl, hready, map_snd_moved (fun _ => true) .., ?_⟩
  rw [placed_iff (by exact hready)]
  simp only [hcnt, Nat.add_sub_cancel]
  refine forall_moved (P := fun p r => p = pno n (hash r)) (fun r hr hlast _ => ?_)
    fun r hr hm => ?_
  all_goals obtain ⟨-, hnew, hstay⟩ := pno_succ hpos (hash r.2)
  · exact (hnew.mp ((hold r hr).symm.trans hlast)).1.symm
  · exact (hold r hr).trans (hstay fun h => hm ⟨(hold r hr).trans h, rfl⟩)

/-- Adding a partition and coalescing the last one keep every row, and leave
each where it will be looked for. -/
theorem hash_partitions_placed (hn : 0 < t.partcnt) (hready : t.notReady = false) :
    (∀ h, partHashGetPno t h < t.partcnt) ∧
      (Placed hash t →
        let u := dbAddpartRedisData hash (dbAddTablePart t)
        u.partcnt = t.partcnt + 1 ∧ u.notReady = false ∧
          u.rows.map Prod.snd = t.rows.map Prod.snd ∧ Placed hash u) ∧
      (Placed hash t → 2 ≤ t.partcnt → ∃ u, dbAltableCoalescePartition t = some u ∧
        u.partcnt = t.partcnt - 1 ∧ u.notReady = false ∧
        u.rows.map Prod.snd = t.rows.map Prod.snd ∧ Placed hash u) := by
  refine ⟨fun h => ?_, fun ht => ⟨rfl, rfl, map_snd_moved .., placed_redisData hn hready ht⟩,
    fun ht hn => placed_coalesce hn hready ht⟩
  rw [partHashGetPno_ready hready]
  exact pno_lt hn h

/-- Three partitions: the rows with hash values 3 and 7 leave partition 1. -/
theorem fourth_partition_placed :
    (dbAddpartRedisData id (dbAddTablePart ⟨3, false, [(1, 1), (1, 3), (2, 6), (1, 7)]⟩)).rows =
        [(1, 1), (3, 3), (2, 6), (3, 7)] ∧
      Placed id (dbAddpartRedisData id
        (dbAddTablePart ⟨3, false, [(1, 1), (1, 3), (2, 6), (1, 7)]⟩)) := by
  have hplaced : Placed id ⟨3, false, [(1, 1), (1, 3), (2, 6), (1, 7)]⟩ := by
    unfold Placed
    decide
  exact ⟨by decide, ((hash_partitions_placed (by decide) rfl).2.1 hplaced).2.2.2⟩

end

end Cantian.Part
