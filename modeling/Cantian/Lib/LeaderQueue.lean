import Mathlib.Data.List.Nodup

/-!
# Followers that wait for a leader

Parties put themselves in a queue and wait. One of them wins an election,
takes the whole queue as its batch, serves it, and then marks the members of
the batch as served one by one, possibly while the next leader is at work.
`Ok` is what holds of the roles, the marks and the queue at all times; the
lemmas are the moves. The main consequence is that a party is in at most one
batch and cannot leave it before it is marked.
-/

namespace Cantian.Lib.LeaderQueue

open Function List

inductive Mark where
  | pending
  | taken
  | served
deriving DecidableEq, Repr

/-- `leads true` is a leader that still keeps others from being elected. -/
inductive Role (ι : Type*) where
  | outside
  | waiting
  | elected
  | leads (excludes : Bool) (batch : List ι)

/-- In the queue, or the leader that has not yet taken it. -/
def Role.inQueue {ι : Type*} : Role ι → Prop
  | .waiting | .elected => True
  | _ => False

def Role.excludes {ι : Type*} : Role ι → Prop
  | .elected | .leads true _ => True
  | _ => False

variable {ι : Type*}

structure Ok (role : ι → Role ι) (mark : ι → Mark) (queue : List ι) (leader : Option ι) : Prop where
  queued : ∀ y ∈ queue, mark y = .pending ∧ (role y).inQueue
  pending : ∀ y, (role y).inQueue → mark y = .pending → y ∈ queue
  elected : ∀ y, role y = .elected → mark y = .pending
  nodup : queue.Nodup
  unique : ∀ y, (role y).excludes → leader = some y
  batchNodup : ∀ s e b, role s = .leads e b → b.Nodup
  members : ∀ s e b, role s = .leads e b →
    ∀ y ∈ b, mark y = .taken ∧ (y = s ∨ role y = .waiting)
  apart : ∀ s s' e e' b b', role s = .leads e b → role s' = .leads e' b' →
    ∀ y ∈ b, y ∈ b' → s = s'

section
variable {role : ι → Role ι} {mark : ι → Mark} {queue : List ι} {leader : Option ι} {s y : ι}

section
variable (h : Ok role mark queue leader)
include h

/-- A party that does not wait and does not lead is in no batch. -/
lemma Ok.not_mem_of_outside (hs : role s = .outside) {t e b} (ht : role t = .leads e b) :
    s ∉ b := by
  intro hmem
  rcases (h.members t e b ht s hmem).2 with rfl | hw
  · cases hs.symm.trans ht
  · cases hs.symm.trans hw

lemma Ok.not_mem_of_mark (hs : mark s ≠ .taken) {t e b} (ht : role t = .leads e b) : s ∉ b :=
  fun hmem => hs (h.members t e b ht s hmem).1

lemma Ok.eq_of_excludes (hs : (role s).excludes) (hy : (role y).excludes) : y = s :=
  Option.some.inj ((h.unique y hy).symm.trans (h.unique s hs))

end

lemma Ok.init (hrole : ∀ y, role y = .outside) : Ok role mark [] leader where
  queued _ hy := by simp at hy
  pending y hy := by simp [hrole, Role.inQueue] at hy
  elected y hy := by simp [hrole] at hy
  nodup := nodup_nil
  unique y hy := by simp [hrole, Role.excludes] at hy
  batchNodup s e b hs := by simp [hrole] at hs
  members s e b hs := by simp [hrole] at hs
  apart s s' e e' b b' hs := by simp [hrole] at hs

variable [DecidableEq ι]

/-- A party that is in no batch changes its role, but does not become a leader. -/
lemma Ok.move (h : Ok role mark queue leader) {role' mark' queue' leader'}
    (hbatch : ∀ t e b, role t = .leads e b → s ∉ b) (hrole : ∀ e b, role' ≠ .leads e b)
    (hnodup : queue'.Nodup) (hqueue : ∀ y ≠ s, (y ∈ queue' ↔ y ∈ queue))
    (hself : s ∈ queue' ↔ role'.inQueue ∧ mark' = .pending)
    (helected : role' = .elected → mark' = .pending)
    (hunique : ∀ y ≠ s, (role y).excludes → leader' = some y)
    (hleader : role'.excludes → leader' = some s) :
    Ok (update role s role') (update mark s mark') queue' leader' := by
  have hother : ∀ {t e b}, update role s role' t = .leads e b → role t = .leads e b := by
    intro t e b ht
    rcases eq_or_ne t s with rfl | hts
    · rw [update_self] at ht
      exact absurd ht (hrole e b)
    · rwa [update_of_ne hts] at ht
  constructor
  case queued =>
    intro y hy
    rcases eq_or_ne y s with rfl | hys
    · simpa [and_comm] using hself.mp hy
    · simpa [hys] using h.queued y ((hqueue y hys).mp hy)
  case pending =>
    intro y hr hm
    rcases eq_or_ne y s with rfl | hys
    · exact hself.mpr (by simpa using And.intro hr hm)
    · rw [update_of_ne hys] at hr hm
      exact (hqueue y hys).mpr (h.pending y hr hm)
  case elected =>
    intro y hy
    rcases eq_or_ne y s with rfl | hys
    · simpa using helected (by simpa using hy)
    · rw [update_of_ne hys] at hy ⊢
      exact h.elected y hy
  case nodup => exact hnodup
  case unique =>
    intro y hy
    rcases eq_or_ne y s with rfl | hys
    · exact hleader (by simpa using hy)
    · rw [update_of_ne hys] at hy
      exact hunique y hys hy
  case batchNodup => exact fun t e b ht => h.batchNodup t e b (hother ht)
  case members =>
    intro t e b ht y hy
    have hys : y ≠ s := fun hys => hbatch t e b (hother ht) (hys ▸ hy)
    simpa [hys] using h.members t e b (hother ht) y hy
  case apart => exact fun t t' e e' b b' ht ht' => h.apart t t' e e' b b' (hother ht) (hother ht')

lemma Ok.join (h : Ok role mark queue leader) (hs : role s = .outside) :
    Ok (update role s .waiting) (update mark s .pending) (queue ++ [s])
      leader := by
  have hnot : s ∉ queue := by
    intro hmem
    have := (h.queued s hmem).2
    simp [hs, Role.inQueue] at this
  apply h.move
  · exact fun t e b ht => h.not_mem_of_outside hs ht
  · simp
  · rw [nodup_append]
    refine ⟨h.nodup, nodup_singleton s, ?_⟩
    intro a ha b hb hab
    exact hnot (mem_singleton.mp hb ▸ hab ▸ ha)
  · intro y hys
    simp [hys]
  · simp [Role.inQueue]
  · simp
  · exact fun y _ hy => h.unique y hy
  · simp [Role.excludes]

lemma Ok.goOutside (h : Ok role mark queue leader) (hbatch : ∀ t e b, role t = .leads e b → s ∉ b)
    (hnot : s ∉ queue) : Ok (update role s .outside) mark queue leader := by
  rw [← update_eq_self s mark]
  apply h.move hbatch
  · simp
  · exact h.nodup
  · exact fun y _ => Iff.rfl
  · simpa [Role.inQueue] using hnot
  · simp
  · exact fun y _ hy => h.unique y hy
  · simp [Role.excludes]

lemma Ok.leave (h : Ok role mark queue leader) (hm : mark s = .served) :
    Ok (update role s .outside) mark queue leader := by
  refine h.goOutside (fun t e b ht => h.not_mem_of_mark (by simp [hm]) ht) fun hmem => ?_
  have := (h.queued s hmem).1
  simp [hm] at this

lemma Ok.elect (h : Ok role mark queue none) (hs : role s = .waiting) (hm : mark s = .pending) :
    Ok (update role s .elected) mark queue (some s) := by
  rw [← update_eq_self s mark]
  apply h.move
  · exact fun t e b ht => h.not_mem_of_mark (by simp [hm]) ht
  · simp
  · exact h.nodup
  · exact fun y _ => Iff.rfl
  · simp only [Role.inQueue, hm, and_self, iff_true]
    exact h.pending s (by simp [hs, Role.inQueue]) hm
  · exact fun _ => hm
  · intro y _ hy
    cases h.unique y hy
  · exact fun _ => rfl

/-- A leader whose batch is served returns. -/
lemma Ok.retire (h : Ok role mark queue leader) {e} (hs : role s = .leads e []) :
    Ok (update role s .outside) mark queue leader := by
  refine h.goOutside (fun t e' b ht hmem => ?_) fun hmem => ?_
  · rcases (h.members t e' b ht s hmem).2 with rfl | hw
    · cases hs.symm.trans ht
      simp at hmem
    · cases hs.symm.trans hw
  · have := (h.queued s hmem).2
    simp [hs, Role.inQueue] at this

/-- The elected leader takes the queue. -/
lemma Ok.take (h : Ok role mark queue leader) (hs : role s = .elected) :
    Ok (update role s (.leads true queue))
      (fun y => if y ∈ queue then .taken else mark y) [] leader := by
  have hother : ∀ {t e b}, t ≠ s → update role s (.leads true queue) t = .leads e b →
      role t = .leads e b := by
    intro t e b hts ht
    rwa [update_of_ne hts] at ht
  have hself : ∀ {e b}, update role s (.leads true queue) s = .leads e b →
      b = queue := by
    intro e b ht
    rw [update_self] at ht
    cases ht
    rfl
  -- the members of an older batch have been taken, so they are not in the queue
  have hold : ∀ {t e b y}, role t = .leads e b → y ∈ b → y ∉ queue := by
    intro t e b y ht hy hq
    exact h.not_mem_of_mark (by simp [(h.queued y hq).1]) ht hy
  constructor
  case queued => exact by simp
  case pending =>
    intro y hr hm
    by_cases hq : y ∈ queue
    · simp [hq] at hm
    · by_cases hys : y = s
      · simp [hys, Role.inQueue] at hr
      · rw [update_of_ne hys] at hr
        simp only [hq, if_false] at hm
        exact absurd (h.pending y hr hm) hq
  case elected =>
    intro y hy
    by_cases hys : y = s
    · simp [hys] at hy
    · rw [update_of_ne hys] at hy
      refine absurd (h.eq_of_excludes ?_ ?_) hys
      · simp [hs, Role.excludes]
      · simp [hy, Role.excludes]
  case nodup => exact nodup_nil
  case unique =>
    intro y hy
    by_cases hys : y = s
    · rw [hys]
      exact h.unique s (by simp [hs, Role.excludes])
    · rw [update_of_ne hys] at hy
      exact h.unique y hy
  case batchNodup =>
    intro t e b ht
    rcases eq_or_ne t s with rfl | hts
    · rw [hself ht]
      exact h.nodup
    · exact h.batchNodup t e b (hother hts ht)
  case members =>
    intro t e b ht y hy
    rcases eq_or_ne t s with rfl | hts
    · rw [hself ht] at hy
      refine ⟨by simp [hy], ?_⟩
      by_cases hyt : y = t
      · exact .inl hyt
      refine .inr ?_
      rw [update_of_ne hyt]
      have hq := (h.queued y hy).2
      cases hr : role y with
      | waiting => rfl
      | elected =>
        refine absurd (h.eq_of_excludes ?_ ?_) hyt
        · simp [hs, Role.excludes]
        · simp [hr, Role.excludes]
      | outside | leads => simp [hr, Role.inQueue] at hq
    · have ht' := hother hts ht
      obtain ⟨hm, hr⟩ := h.members t e b ht' y hy
      refine ⟨by simp [hold ht' hy, hm], hr.imp id fun hw => ?_⟩
      have hys : y ≠ s := by
        intro hys
        rw [hys, hs] at hw
        cases hw
      rwa [update_of_ne hys]
  case apart =>
    intro t t' e e' b b' ht ht' y hy hy'
    by_cases hts : t = s
    · by_cases hts' : t' = s
      · rw [hts, hts']
      · subst hts
        rw [hself ht] at hy
        exact absurd hy (hold (hother hts' ht') hy')
    · by_cases hts' : t' = s
      · subst hts'
        rw [hself ht'] at hy'
        exact absurd hy' (hold (hother hts ht) hy)
      · exact h.apart t t' e e' b b' (hother hts ht) (hother hts' ht') y hy hy'

/-- A leader goes on with a part of its batch; the others of the batch are served. -/
lemma Ok.serve (h : Ok role mark queue leader) {e done rest}
    (hs : role s = .leads e (done ++ rest)) : Ok (update role s (.leads false rest))
      (fun y => if y ∈ done then .served else mark y) queue
      (if e then none else leader) := by
  have htaken : ∀ y ∈ done, mark y = .taken :=
    fun y hy => (h.members s e _ hs y (mem_append_left _ hy)).1
  have hpending : ∀ {y}, mark y = .pending → y ∉ done := by
    intro y hm hy
    cases (htaken y hy).symm.trans hm
  have hlead : ∀ {t e' b}, update role s (.leads false rest) t = .leads e' b →
      ∃ e0 b0, role t = .leads e0 b0 ∧ b.Sublist b0 ∧ ∀ y ∈ b, y ∉ done := by
    intro t e' b ht
    rcases eq_or_ne t s with rfl | hts
    · rw [update_self] at ht
      cases ht
      refine ⟨e, _, hs, sublist_append_right done rest, fun y hy hdone => ?_⟩
      exact (nodup_append.mp (h.batchNodup t e _ hs)).2.2 y hdone y hy rfl
    · rw [update_of_ne hts] at ht
      refine ⟨e', b, ht, List.Sublist.refl b, fun y hy hdone => ?_⟩
      exact hts (h.apart t s e' e b _ ht hs y hy (mem_append_left _ hdone))
  have hnotself : ∀ {y}, (role y).inQueue → y ≠ s := by
    rintro y hy rfl
    simp [hs, Role.inQueue] at hy
  constructor
  case queued =>
    intro y hy
    obtain ⟨hm, hr⟩ := h.queued y hy
    simpa [hpending hm, update_of_ne (hnotself hr)] using And.intro hm hr
  case pending =>
    intro y hr hm
    by_cases hys : y = s
    · simp [hys, Role.inQueue] at hr
    · rw [update_of_ne hys] at hr
      by_cases hdone : y ∈ done
      · simp [hdone] at hm
      · exact h.pending y hr (by simpa [hdone] using hm)
  case elected =>
    intro y hy
    by_cases hys : y = s
    · simp [hys] at hy
    · rw [update_of_ne hys] at hy
      have hm := h.elected y hy
      simpa [hpending hm] using hm
  case nodup => exact h.nodup
  case unique =>
    intro y hy
    by_cases hys : y = s
    · simp [hys, Role.excludes] at hy
    · rw [update_of_ne hys] at hy
      cases e with
      | false => simpa using h.unique y hy
      | true => exact absurd (h.eq_of_excludes (by simp [hs, Role.excludes]) hy) hys
  case batchNodup =>
    intro t e' b ht
    obtain ⟨e0, b0, ht0, hsub, _⟩ := hlead ht
    exact (h.batchNodup t e0 b0 ht0).sublist hsub
  case members =>
    intro t e' b ht y hy
    obtain ⟨e0, b0, ht0, hsub, hdone⟩ := hlead ht
    obtain ⟨hm, hr⟩ := h.members t e0 b0 ht0 y (hsub.subset hy)
    refine ⟨by simp [hdone y hy, hm], hr.imp id fun hw => ?_⟩
    rw [update_of_ne (hnotself (by simp [hw, Role.inQueue]))]
    exact hw
  case apart =>
    intro t t' e1 e2 b b' ht ht' y hy hy'
    obtain ⟨e0, b0, ht0, hsub, _⟩ := hlead ht
    obtain ⟨e0', b0', ht0', hsub', _⟩ := hlead ht'
    exact h.apart t t' e0 e0' b0 b0' ht0 ht0' y (hsub.subset hy) (hsub'.subset hy')

end

end Cantian.Lib.LeaderQueue
