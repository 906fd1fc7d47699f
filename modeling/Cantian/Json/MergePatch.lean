import Mathlib.Data.List.Nodup

/-!
# JSON merge patch

`json_merge_patch` goes through the members of the patch and deletes, merges
or adds the member of that name in the target. A member that the target does
not have is added as it stands in the patch. `Merged` is the rule of the merge
patch: such a member is merged with no value, so that it keeps none of its own
null members.
-/

namespace Cantian.Json

open List Option

inductive JsonValue
  | null
  | bool (b : Bool)
  | string (text : String)
  | number (text : String)
  | array (items : List JsonValue)
  | object (members : List (String × JsonValue))

abbrev Members := List (String × JsonValue)

/-! ## The code -/

def JsonValue.isNull : JsonValue → Bool
  | .null => true
  | _ => false

/-- A target that is no object is taken for an empty one. -/
def JsonValue.members : JsonValue → Members
  | .object members => members
  | _ => []

def jsonObjectItemIdx (members : Members) (key : String) : Option Nat :=
  members.findIdx? fun pair => pair.1 == key

/-- One member of the patch; `merge` is what happens to the target's member of
that name. -/
def mergeMember (merge : JsonValue → JsonValue) (target : Members) (key : String)
    (val : JsonValue) : Members :=
  match jsonObjectItemIdx target key with
  | some idx =>
    if val.isNull then target.eraseIdx idx
    else target.modify idx fun pair => (pair.1, merge pair.2)
  | none => if val.isNull then target else target ++ [(key, val)]

mutual

def jsonMergePatch (target : JsonValue) : JsonValue → JsonValue
  | .object patch => .object (mergeMembers target.members patch)
  | patch => patch

def mergeMembers (target : Members) : Members → Members
  | [] => target
  | (key, val) :: patch =>
    mergeMembers (mergeMember (fun t => jsonMergePatch t val) target key val) patch

end

/-! ## The rule -/

/-- Every object of the tree has distinct keys. -/
inductive Distinct : JsonValue → Prop
  | null : Distinct .null
  | bool {b} : Distinct (.bool b)
  | string {text} : Distinct (.string text)
  | number {text} : Distinct (.number text)
  | array {items} (h : ∀ v ∈ items, Distinct v) : Distinct (.array items)
  | object {ms} (hkeys : (ms.map Prod.fst).Nodup) (h : ∀ m ∈ ms, Distinct m.2) :
      Distinct (.object ms)

def JsonValue.member (v : JsonValue) (key : String) : Option JsonValue := v.members.lookup key

/-- The result of merging a patch with a value, or with no value. -/
inductive Merged : Option JsonValue → JsonValue → JsonValue → Prop
  | replaced {target patch} (h : ∀ ms, patch ≠ .object ms) : Merged target patch patch
  | object {target ms rs} {merged : String × JsonValue → JsonValue}
      (hkeys : (rs.map Prod.fst).Nodup)
      (hkept : ∀ key, key ∉ ms.map Prod.fst → rs.lookup key = target.bind (·.member key))
      (hgone : ∀ m ∈ ms, m.2.isNull = true → rs.lookup m.1 = none)
      (hset : ∀ m ∈ ms, m.2.isNull = false → rs.lookup m.1 = some (merged m))
      (hmerged : ∀ m ∈ ms, m.2.isNull = false →
        Merged (target.bind (·.member m.1)) m.2 (merged m)) :
      Merged target (.object ms) (.object rs)

mutual

/-- A patch member that the target does not have holds no null member, at any
depth of objects. -/
def addsNoNull (target : Option JsonValue) : JsonValue → Bool
  | .object patch => membersAddNoNull target patch
  | _ => true

def membersAddNoNull (target : Option JsonValue) : Members → Bool
  | [] => true
  | (key, val) :: patch =>
    (if val.isNull then target.isSome else addsNoNull (target.bind (·.member key)) val) &&
      membersAddNoNull target patch

end

/-! ## One member -/

variable {merge : JsonValue → JsonValue} {target : Members} {key : String} {val : JsonValue}

lemma mergeMember_cons (pair : String × JsonValue) :
    mergeMember merge (pair :: target) key val =
      if pair.1 = key then (if val.isNull then target else (pair.1, merge pair.2) :: target)
      else pair :: mergeMember merge target key val := by
  simp only [mergeMember, jsonObjectItemIdx, findIdx?_cons]
  by_cases hkey : pair.1 = key
  · simp [hkey]
  · simp only [beq_iff_eq, hkey, if_false]
    cases target.findIdx? fun pair => pair.1 == key with
    | none => cases val.isNull <;> simp
    | some idx => cases val.isNull <;> simp

lemma nodup_mergeMember (h : (target.map Prod.fst).Nodup) :
    ((mergeMember merge target key val).map Prod.fst).Nodup := by
  unfold mergeMember jsonObjectItemIdx
  split
  · rename_i idx _
    have hkeys : (target.modify idx fun pair => (pair.1, merge pair.2)).map Prod.fst =
        target.map Prod.fst := by
      ext1 n
      simp only [getElem?_map, getElem?_modify]
      cases target[n]? <;> split <;> rfl
    split_ifs
    · exact h.sublist ((eraseIdx_sublist _ _).map _)
    · exact hkeys ▸ h
  · rename_i hnone
    split_ifs
    · exact h
    · have hkey : ∀ pair ∈ target, pair.1 ≠ key := by simpa using hnone
      simpa [nodup_append, h] using hkey

/-- What the code makes of a patch member and the target's member of that
name. -/
def mergedMember (target : Option JsonValue) (val : JsonValue) : JsonValue :=
  target.elim val fun t => jsonMergePatch t val

lemma lookup_member (pair : String × JsonValue) (ms : Members) :
    (pair :: ms).lookup key = if key = pair.1 then some pair.2 else ms.lookup key := by
  obtain ⟨k, v⟩ := pair
  by_cases h : key = k <;> simp [lookup_cons, h, beq_false_of_ne]

lemma lookup_eq_none {ms : Members} (h : key ∉ ms.map Prod.fst) :
    ms.lookup key = none := by
  refine lookup_eq_none_iff.mpr fun pair hpair => ?_
  exact bne_iff_ne.mpr fun heq => h (heq ▸ mem_map_of_mem hpair)

lemma lookup_of_mem {ms : Members} {m} (h : (ms.map Prod.fst).Nodup)
    (hm : m ∈ ms) : ms.lookup m.1 = some m.2 := by
  induction ms with
  | nil => cases hm
  | cons pair ms ih =>
    obtain ⟨hpair, hms⟩ := nodup_cons.mp h
    rw [lookup_member]
    rcases mem_cons.mp hm with rfl | hm
    · exact if_pos rfl
    · have hne : m.1 ≠ pair.1 := fun h => hpair (h ▸ mem_map_of_mem hm)
      rw [if_neg hne, ih hms hm]

lemma lookup_mergeMember (h : (target.map Prod.fst).Nodup) (k : String) :
    (mergeMember merge target key val).lookup k =
      if k = key then (if val.isNull then none else some ((target.lookup key).elim val merge))
      else target.lookup k := by
  induction target with
  | nil => cases hnull : val.isNull <;> simp [mergeMember, jsonObjectItemIdx, hnull, lookup_member]
  | cons pair target ih =>
    obtain ⟨hpair, htarget⟩ := nodup_cons.mp h
    have ih := ih htarget
    rw [mergeMember_cons]
    by_cases hkey : pair.1 = key
    · subst hkey
      cases hnull : val.isNull
      · by_cases hk : k = pair.1 <;> simp [lookup_member, hk]
      · by_cases hk : k = pair.1
        · simpa [hk] using lookup_eq_none hpair
        · simp [lookup_member, hk]
    · rw [if_neg hkey, lookup_member, lookup_member, ih]
      by_cases hk : k = key
      · subst hk
        simp [Ne.symm hkey]
      · simp [hk, lookup_member]

lemma nodup_mergeMembers {target patch : Members}
    (h : (target.map Prod.fst).Nodup) : ((mergeMembers target patch).map Prod.fst).Nodup := by
  induction patch generalizing target with
  | nil => exact h
  | cons pair patch ih => exact ih (nodup_mergeMember h)

lemma lookup_mergeMembers_of_notMem {target patch : Members}
    (ht : (target.map Prod.fst).Nodup) (h : key ∉ patch.map Prod.fst) :
    (mergeMembers target patch).lookup key = target.lookup key := by
  induction patch generalizing target with
  | nil => rfl
  | cons pair patch ih =>
    obtain ⟨hne, h⟩ := ne_and_not_mem_of_not_mem_cons h
    rw [mergeMembers, ih (nodup_mergeMember ht) h, lookup_mergeMember ht, if_neg hne]

lemma lookup_mergeMembers {target patch : Members} {m}
    (ht : (target.map Prod.fst).Nodup) (hp : (patch.map Prod.fst).Nodup) (hm : m ∈ patch) :
    (mergeMembers target patch).lookup m.1 =
      if m.2.isNull then none else some (mergedMember (target.lookup m.1) m.2) := by
  induction patch generalizing target with
  | nil => cases hm
  | cons pair patch ih =>
    obtain ⟨hpair, hp⟩ := nodup_cons.mp hp
    rw [mergeMembers]
    rcases mem_cons.mp hm with rfl | hm
    · rw [lookup_mergeMembers_of_notMem (nodup_mergeMember ht) hpair, lookup_mergeMember ht,
        if_pos rfl]
      rfl
    · have hne : m.1 ≠ pair.1 := fun h => hpair (h ▸ mem_map_of_mem hm)
      rw [ih (nodup_mergeMember ht) hp hm, lookup_mergeMember ht, if_neg hne]

/-! ## The whole patch -/

lemma Distinct.nodup {v} (h : Distinct v) : (v.members.map Prod.fst).Nodup := by
  cases h with
  | object hkeys => exact hkeys
  | _ => exact nodup_nil

lemma Distinct.member {v} (h : Distinct v) (hval : v.member key = some val) : Distinct val := by
  cases h with
  | @object ms hkeys hall =>
    obtain ⟨l, l', hms, -⟩ := lookup_eq_some_iff.mp hval
    have hmem : (key, val) ∈ (JsonValue.object ms).members := by simp [hms]
    exact hall _ hmem
  | _ => cases hval

lemma membersAddNoNull_iff {target : Option JsonValue} {ms} :
    membersAddNoNull target ms = true ↔ ∀ m ∈ ms,
      if m.2.isNull then target.isSome = true
      else addsNoNull (target.bind (·.member m.1)) m.2 = true := by
  induction ms with
  | nil => simp [membersAddNoNull]
  | cons pair ms ih =>
    rw [membersAddNoNull, Bool.and_eq_true, ih, forall_mem_cons]
    split <;> rfl

/-- The rule for an object whose members are those that the code makes, but for
the null members of the patch. -/
lemma merged_object_iff {target : Option JsonValue} {ms rs} (hkeys : (rs.map Prod.fst).Nodup)
    (hkept : ∀ key, key ∉ ms.map Prod.fst → rs.lookup key = target.bind (·.member key))
    (hset : ∀ m ∈ ms, m.2.isNull = false →
      rs.lookup m.1 = some (mergedMember (target.bind (·.member m.1)) m.2)) :
    Merged target (.object ms) (.object rs) ↔ ∀ m ∈ ms,
      if m.2.isNull then rs.lookup m.1 = none
      else Merged (target.bind (·.member m.1)) m.2
        (mergedMember (target.bind (·.member m.1)) m.2) := by
  constructor
  · intro h m hm
    cases h with
    | replaced h => exact absurd rfl (h ms)
    | object hkeys hkept hgone hset' hmerged =>
      cases hnull : m.2.isNull with
      | true => exact hgone m hm hnull
      | false =>
        have heq := (hset m hm hnull).symm.trans (hset' m hm hnull)
        rw [some.inj heq]
        exact hmerged m hm hnull
  · intro h
    refine .object hkeys hkept (fun m hm hnull => ?_) hset fun m hm hnull => ?_
    · simpa [hnull] using h m hm
    · simpa [hnull] using h m hm

/-- The code follows the rule exactly where the patch adds no null. -/
lemma merged_iff {target : Option JsonValue} {patch} (hp : Distinct patch)
    (ht : ∀ t ∈ target, Distinct t) :
    Merged target patch (mergedMember target patch) ↔ addsNoNull target patch = true := by
  induction hp generalizing target with
  | @object ms hkeys hall ih =>
    rw [addsNoNull, membersAddNoNull_iff]
    cases target with
    | none =>
      have hset m (hm : m ∈ ms) : ms.lookup m.1 = some m.2 := lookup_of_mem hkeys hm
      refine (@merged_object_iff none ms ms hkeys (fun _ => lookup_eq_none)
        fun m hm _ => hset m hm).trans ?_
      refine forall₂_congr fun m hm => ?_
      split
      · simp [hset m hm]
      · exact ih m hm nofun
    | some t =>
      have hnodup := (ht t rfl).nodup
      refine (merged_object_iff (nodup_mergeMembers hnodup)
        (fun key => lookup_mergeMembers_of_notMem hnodup) fun m hm hnull => ?_).trans ?_
      · rw [lookup_mergeMembers hnodup hkeys hm, hnull]
        rfl
      · refine forall₂_congr fun m hm => ?_
        split_ifs with hnull
        · simp [lookup_mergeMembers hnodup hkeys hm, hnull]
        · exact ih m hm fun v hv => (ht t rfl).member hv
  | _ =>
    refine iff_of_true ?_ rfl
    cases target <;> exact .replaced nofun

theorem jsonMergePatch_merges_iff {target patch : JsonValue} (ht : Distinct target)
    (hp : Distinct patch) :
    Merged (some target) patch (jsonMergePatch target patch) ↔
      addsNoNull (some target) patch = true :=
  merged_iff hp (by rintro _ ⟨⟩; exact ht)

lemma distinct_nested (h : Distinct val) : Distinct (.object [("a", .object [("b", val)])]) :=
  .object (by simp) (by simpa using .object (by simp) (by simpa using h))

/-- A null inside the patch deletes the member that the target has. -/
theorem jsonMergePatch_merges_deleted :
    Merged (some (.object [("a", .object [("b", .bool true)])]))
      (.object [("a", .object [("b", .null)])]) (.object [("a", .object [])]) :=
  (jsonMergePatch_merges_iff (distinct_nested .bool) (distinct_nested .null)).mpr rfl

/-- The member `a` is added with its null. -/
theorem jsonMergePatch_adds_null :
    ¬ Merged (some (.object [])) (.object [("a", .object [("b", .null)])])
      (jsonMergePatch (.object []) (.object [("a", .object [("b", .null)])])) := by
  have htarget : ∀ t ∈ some (JsonValue.object []), Distinct t := by simpa using .object .nil nofun
  intro h
  cases (merged_iff (distinct_nested .null) htarget).mp h

end Cantian.Json
