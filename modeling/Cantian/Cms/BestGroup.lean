import Cantian.Cms.Arbitration

/-!
# Which of the nodes' groups the vote count picks

The three rounds of `cms_get_max_num_index` compare the groups of the nodes
by size, by online nodes and by joined nodes. A round only decides when one
entry is above all others; when no round decides, the first of the largest
groups is taken, whatever the later rounds have found.
-/

namespace Cantian.Cms.Vote

/-! ## One round -/

/-- The scan ends at the first maximal entry, and counts whether it is the only one. -/
structure ScanOk (f : Nat → Nat) (bound : Nat) (g : MaxGroup) : Prop where
  lt : g.index < bound
  value : f g.index = g.nodeNum
  max : ∀ i < bound, f i ≤ g.nodeNum
  pos : 0 < g.count
  sole : g.count = 1 ↔ ∀ i < bound, f i = g.nodeNum → i = g.index

lemma scanMaxGroup_ok (f : Nat → Nat) {bound} (hb : 0 < bound) :
    ScanOk f bound (scanMaxGroup f bound) := by
  induction bound with
  | zero => omega
  | succ i ih =>
    rw [scanMaxGroup]
    rcases eq_or_ne i 0 with rfl | hi
    · exact ⟨Nat.zero_lt_one, rfl, by simp, Nat.zero_lt_one, by simp⟩
    have ih := ih (by omega)
    have hi' : (i == 0) = false := by simpa using hi
    simp only [hi', Bool.false_eq_true, if_false]
    split
    · rename_i heq
      have heq := beq_iff_eq.mp heq
      refine ⟨Nat.lt_succ_of_lt ih.lt, ih.value, ?_, Nat.succ_pos _, ?_⟩
      · exact Nat.forall_lt_succ_right.mpr ⟨ih.max, le_of_eq heq⟩
      · constructor
        · intro h
          have hpos := ih.pos
          simp only at h
          omega
        · intro h
          have hidx := h i (Nat.lt_succ_self i) heq
          exact absurd ih.lt (not_lt.mpr (le_of_eq hidx))
    · rename_i hne
      have hne : f i ≠ _ := fun h => hne (beq_iff_eq.mpr h)
      split_ifs with hgt
      · have hlt : ∀ k < i, f k < f i := fun k hk => lt_of_le_of_lt (ih.max k hk) hgt
        refine ⟨Nat.lt_succ_self i, rfl, ?_, Nat.zero_lt_one, iff_of_true rfl ?_⟩
        · exact Nat.forall_lt_succ_right.mpr ⟨fun k hk => (hlt k hk).le, le_rfl⟩
        · exact Nat.forall_lt_succ_right.mpr
            ⟨fun k hk hval => absurd hval (hlt k hk).ne, fun _ => rfl⟩
      · refine ⟨Nat.lt_succ_of_lt ih.lt, ih.value, ?_, ih.pos, ?_⟩
        · exact Nat.forall_lt_succ_right.mpr ⟨ih.max, not_lt.mp hgt⟩
        · rw [ih.sole, Nat.forall_lt_succ_right]
          exact (and_iff_left fun hval => absurd hval hne).symm

/-- A round either finds the only maximal entry, or keeps the maximal ones. -/
lemma haveMultipleMaxGroup_spec {n} (f : Nat → Nat) (hn : 0 < n) :
    ∃ m, (∀ i < n, f i ≤ m) ∧
      (((haveMultipleMaxGroup n f).2.2 = false ∧ (haveMultipleMaxGroup n f).1 < n ∧
          f (haveMultipleMaxGroup n f).1 = m ∧
          ∀ i < n, f i = m → i = (haveMultipleMaxGroup n f).1) ∨
        ((haveMultipleMaxGroup n f).2.2 = true ∧ (∀ i < n, ∃ k < n, k ≠ i ∧ f k = m) ∧
          ∀ i, (haveMultipleMaxGroup n f).2.1 i = if f i = m then f i else 0)) := by
  have hok := scanMaxGroup_ok f hn
  refine ⟨(scanMaxGroup f n).nodeNum, hok.max, ?_⟩
  rw [haveMultipleMaxGroup]
  split_ifs with h
  · have hcount := beq_iff_eq.mp h
    exact .inl ⟨rfl, hok.lt, hok.value, hok.sole.mp hcount⟩
  have hcount : (scanMaxGroup f n).count ≠ 1 := fun h' => h (beq_iff_eq.mpr h')
  refine .inr ⟨rfl, fun i hi => ?_, fun i => by simp only [beq_iff_eq]⟩
  by_contra hno
  apply hcount
  rw [hok.sole]
  -- every maximal entry would be at `i`, the one of the scan too
  have hall : ∀ k < n, f k = (scanMaxGroup f n).nodeNum → k = i := by
    intro k hk hval
    by_contra hki
    exact hno ⟨k, hk, hki, hval⟩
  intro k hk hval
  rw [hall k hk hval, hall _ hok.lt hok.value]

lemma takeOff_eq (contain drop : Nat → Bool) (num k : Nat) :
    takeOff contain drop num k = num - countNodes (fun j => contain j && drop j) k := by
  induction k with
  | zero => simp [takeOff, countNodes]
  | succ j ih =>
    rw [takeOff, countNodes, ih]
    by_cases hcd : contain j = true ∧ drop j = true
    · simp only [hcd.1, hcd.2, Bool.and_true, decide_eq_true_eq, if_true]
      split <;> omega
    · have hcd' : (contain j && drop j) = false := by
        simpa using hcd
      rw [Bool.and_assoc, hcd']
      simp

lemma minNodeIndex_spec (num : Nat → Nat) {bound} (hb : 0 < bound) :
    minNodeIndex num bound < bound ∧ (∀ i < bound, num i ≤ num (minNodeIndex num bound)) ∧
      ∀ i < minNodeIndex num bound, num i < num (minNodeIndex num bound) := by
  induction bound with
  | zero => omega
  | succ i ih =>
    rw [minNodeIndex]
    rcases eq_or_ne i 0 with rfl | hi
    · simp [minNodeIndex]
    · obtain ⟨hlt, hmax, hfirst⟩ := ih (by omega)
      split_ifs with hgt
      · have hlt k (hk : k < i) : num k < num i := lt_of_le_of_lt (hmax k hk) hgt
        refine ⟨Nat.lt_succ_self i, ?_, hlt⟩
        exact Nat.forall_lt_succ_right.mpr ⟨fun k hk => (hlt k hk).le, le_rfl⟩
      · refine ⟨Nat.lt_succ_of_lt hlt, ?_, hfirst⟩
        exact Nat.forall_lt_succ_right.mpr ⟨hmax, not_lt.mp hgt⟩

/-! ## Three rounds -/

/-- Entry `k` is above or equal to every other one: by `f`, then by `g`, then by `h`. -/
structure Leads (n : Nat) (f g h : Nat → Nat) (k : Nat) : Prop where
  lt : k < n
  first : ∀ i < n, f i ≤ f k
  second : ∀ i < n, f i = f k → g i ≤ g k
  third : ∀ i < n, f i = f k → g i = g k → h i ≤ h k

def LeadsAlone (n : Nat) (f g h : Nat → Nat) (k : Nat) : Prop :=
  Leads n f g h k ∧ ∀ i, Leads n f g h i → i = k

variable {k : Nat} {votes : Nat → Nat → Nat}

lemma Leads.eq {n f g h i} (hi : Leads n f g h i) (hk : Leads n f g h k) :
    f i = f k ∧ g i = g k ∧ h i = h k := by
  have hf : f i = f k := le_antisymm (hk.first i hi.lt) (hi.first k hk.lt)
  have hg : g i = g k := le_antisymm (hk.second i hi.lt hf) (hi.second k hk.lt hf.symm)
  exact ⟨hf, hg, le_antisymm (hk.third i hi.lt hf hg) (hi.third k hk.lt hf.symm hg.symm)⟩

lemma Leads.alone {n f g h} (hk : Leads n f g h k)
    (hsole : ∀ i < n, f i = f k → g i = g k → h i = h k → i = k) : LeadsAlone n f g h k := by
  refine ⟨hk, fun i hi => ?_⟩
  obtain ⟨hf, hg, hh⟩ := hi.eq hk
  exact hsole i hi.lt hf hg hh

lemma Leads.of_eq {n f g h i} (hk : Leads n f g h k) (hi : i < n) (hf : f i = f k) (hg : g i = g k)
    (hh : h i = h k) : Leads n f g h i where
  lt := hi
  first := hf ▸ hk.first
  second := hf ▸ hg ▸ hk.second
  third := hf ▸ hg ▸ hh ▸ hk.third

section
variable {n : Nat} {f g h : Nat → Nat}

/-- What the first round leaves of the second criterion. -/
def secondRound (n : Nat) (f g : Nat → Nat) (i : Nat) : Nat :=
  (haveMultipleMaxGroup n f).2.1 i - (f i - g i)

/-- What the first two rounds leave of the third criterion. -/
def thirdRound (n : Nat) (f g h : Nat → Nat) (i : Nat) : Nat :=
  (haveMultipleMaxGroup n (secondRound n f g)).2.1 i - (g i - h i)

lemma leadsAlone_of_first (hk : k < n) (hmax : ∀ i < n, f i ≤ f k)
    (hsole : ∀ i < n, f i = f k → i = k) : LeadsAlone n f g h k := by
  refine Leads.alone ⟨hk, hmax, fun i hi hf => ?_, fun i hi hf _ => ?_⟩
    fun i hi hf _ _ => hsole i hi hf
  · rw [hsole i hi hf]
  · rw [hsole i hi hf]

/-- The only maximal entry of a round is not one that the rounds before have set
to 0, for then all are 0. -/
lemma sole_max {P : Nat → Prop} [DecidablePred P] {r v : Nat → Nat} {m} (hn : ∃ j < n, j ≠ k)
    (hround : ∀ i, r i = if P i then v i else 0) (hmax : ∀ i < n, r i ≤ m) (hval : r k = m)
    (hsole : ∀ i < n, r i = m → i = k) :
    P k ∧ (∀ i < n, P i → v i ≤ v k) ∧ ∀ i < n, P i → v i = v k → i = k := by
  have hpos : 0 < m := by
    obtain ⟨j, hj, hne⟩ := hn
    apply Nat.pos_of_ne_zero
    intro hzero
    exact hne (hsole j hj (by have := hmax j hj; omega))
  have hk : P k := by
    by_contra hne
    rw [hround, if_neg hne] at hval
    omega
  rw [hround, if_pos hk] at hval
  subst hval
  refine ⟨hk, fun i hi hP => ?_, fun i hi hP hv => hsole i hi ?_⟩
  · have hle := hmax i hi
    rwa [hround, if_pos hP] at hle
  · rw [hround, if_pos hP, hv]

section
variable {m₁ m₂ : Nat} (hn : ∃ j < n, j ≠ k) (hmax₁ : ∀ i < n, f i ≤ m₁)
  (hround : ∀ i, secondRound n f g i = if f i = m₁ then g i else 0)
  (hmax₂ : ∀ i < n, secondRound n f g i ≤ m₂)
include hn hmax₁ hround hmax₂

lemma leadsAlone_of_second (hk : k < n) (hval : secondRound n f g k = m₂)
    (hsole : ∀ i < n, secondRound n f g i = m₂ → i = k) : LeadsAlone n f g h k := by
  obtain ⟨hf, hle, hsole'⟩ := sole_max hn hround hmax₂ hval hsole
  refine Leads.alone ⟨hk, fun i hi => hf ▸ hmax₁ i hi, fun i hi hfi => hle i hi (hfi.trans hf),
    fun i hi hfi hgi => ?_⟩ fun i hi hfi hgi _ => hsole' i hi (hfi.trans hf) hgi
  rw [hsole' i hi (hfi.trans hf) hgi]

lemma leadsAlone_of_third {m3}
    (hround' : ∀ i, thirdRound n f g h i = if f i = m₁ ∧ g i = m₂ then h i else 0)
    (hmax3 : ∀ i < n, thirdRound n f g h i ≤ m3) (hk : k < n) (hval : thirdRound n f g h k = m3)
    (hsole : ∀ i < n, thirdRound n f g h i = m3 → i = k) : LeadsAlone n f g h k := by
  obtain ⟨⟨hf, hg⟩, hle, hsole'⟩ := sole_max hn hround' hmax3 hval hsole
  refine Leads.alone ⟨hk, fun i hi => hf ▸ hmax₁ i hi, fun i hi hfi => ?_,
    fun i hi hfi hgi => hle i hi ⟨hfi.trans hf, hgi.trans hg⟩⟩
    fun i hi hfi hgi => hsole' i hi ⟨hfi.trans hf, hgi.trans hg⟩
  have hle₂ := hmax₂ i hi
  rw [hround, if_pos (hfi.trans hf)] at hle₂
  exact hg ▸ hle₂

end

/-- When each round has several maximal entries, no entry leads alone. A round that
only has entries 0 is passed over: there the entries of the round before are equal. -/
lemma not_leadsAlone {m₁ m₂ m3} (hh : ∀ i, h i ≤ g i)
    (hround : ∀ i, secondRound n f g i = if f i = m₁ then g i else 0)
    (hround' : ∀ i, thirdRound n f g h i = if f i = m₁ ∧ g i = m₂ then h i else 0)
    (hmax₁ : ∀ i < n, f i ≤ m₁) (hmax₂ : ∀ i < n, secondRound n f g i ≤ m₂)
    (hmax3 : ∀ i < n, thirdRound n f g h i ≤ m3) (hother1 : ∀ i < n, ∃ k < n, k ≠ i ∧ f k = m₁)
    (hother2 : ∀ i < n, ∃ k < n, k ≠ i ∧ secondRound n f g k = m₂)
    (hother3 : ∀ i < n, ∃ k < n, k ≠ i ∧ thirdRound n f g h k = m3) (i : Nat) :
    ¬LeadsAlone n f g h i := by
  rintro ⟨hlead, halone⟩
  obtain ⟨a, ha, hane, haval⟩ := hother1 i hlead.lt
  obtain ⟨b, hb, hbne, hbval⟩ := hother2 i hlead.lt
  obtain ⟨c, hc, hcne, hcval⟩ := hother3 i hlead.lt
  have hf : f i = m₁ := le_antisymm (hmax₁ i hlead.lt) (haval ▸ hlead.first a ha)
  have hg : g i = m₂ := by
    have hle := hmax₂ i hlead.lt
    rw [hround, if_pos hf] at hle
    rw [hround] at hbval
    split_ifs at hbval with hfb
    · have := hlead.second b hb (hfb.trans hf.symm)
      omega
    · omega
  have hh' : h i = m3 := by
    have hle := hmax3 i hlead.lt
    rw [hround', if_pos ⟨hf, hg⟩] at hle
    rw [hround'] at hcval
    split_ifs at hcval with hfg
    · have := hlead.third c hc (hfg.1.trans hf.symm) (hfg.2.trans hg.symm)
      omega
    · omega
  have hequal : ∀ j < n, f j = m₁ → g j = m₂ → h j = m3 → j = i := by
    intro j hj hfj hgj hhj
    exact halone j (hlead.of_eq hj (hfj.trans hf.symm) (hgj.trans hg.symm) (hhj.trans hh'.symm))
  rw [hround'] at hcval
  split_ifs at hcval with hfg
  · exact hcne (hequal c hc hfg.1 hfg.2 hcval)
  rw [hround] at hbval
  split at hbval
  · rename_i hfb
    have hle := hmax3 b hb
    rw [hround', if_pos ⟨hfb, hbval⟩] at hle
    exact hbne (hequal b hb hfb hbval (by omega))
  · have hle := hmax₂ a ha
    rw [hround, if_pos haval] at hle
    have := hh a
    exact hane (hequal a ha haval (by omega) (by omega))

lemma three_rounds (hn : 0 < n) (hg : ∀ i, g i ≤ f i) (hh : ∀ i, h i ≤ g i)
    (hk : k =
      if !(haveMultipleMaxGroup n f).2.2 then (haveMultipleMaxGroup n f).1
      else if !(haveMultipleMaxGroup n (secondRound n f g)).2.2 then
        (haveMultipleMaxGroup n (secondRound n f g)).1
      else if !(haveMultipleMaxGroup n (thirdRound n f g h)).2.2 then
        (haveMultipleMaxGroup n (thirdRound n f g h)).1
      else minNodeIndex f n) :
    LeadsAlone n f g h k ∨
      ((∀ i, ¬LeadsAlone n f g h i) ∧ k < n ∧ (∀ i < n, f i ≤ f k) ∧ ∀ i < k, f i < f k) := by
  obtain ⟨m₁, hmax₁, hround1⟩ := haveMultipleMaxGroup_spec f hn
  obtain ⟨m₂, hmax₂, hround2⟩ := haveMultipleMaxGroup_spec (secondRound n f g) hn
  obtain ⟨m3, hmax3, hround3⟩ := haveMultipleMaxGroup_spec (thirdRound n f g h) hn
  rcases hround1 with ⟨hb1, hlt1, hidx1, hsole1⟩ | ⟨hb1, hother1, hkeep1⟩
  · left
    rw [hb1] at hk
    subst hk
    exact leadsAlone_of_first hlt1 (hidx1 ▸ hmax₁) (hidx1 ▸ hsole1)
  · have hsecond : ∀ i, secondRound n f g i = if f i = m₁ then g i else 0 := by
      intro i
      have hgi := hg i
      rw [secondRound, hkeep1]
      split <;> omega
    have htwo : ∀ i < n, ∃ j < n, j ≠ i := by
      intro i hi
      obtain ⟨j, hj, hne, -⟩ := hother1 i hi
      exact ⟨j, hj, hne⟩
    rcases hround2 with ⟨hb2, hlt2, hidx2, hsole2⟩ | ⟨hb2, hother2, hkeep2⟩
    · left
      rw [hb1, hb2] at hk
      subst hk
      exact leadsAlone_of_second (htwo _ hlt2) hmax₁ hsecond hmax₂ hlt2 hidx2 hsole2
    · have hthird : ∀ i, thirdRound n f g h i = if f i = m₁ ∧ g i = m₂ then h i else 0 := by
        intro i
        have hhi := hh i
        rw [thirdRound, hkeep2, hsecond]
        by_cases hfi : f i = m₁
        · by_cases hgi : g i = m₂
          · simp only [hfi, hgi, if_true, and_self]
            omega
          · simp [hfi, hgi]
        · simp [hfi]
      rcases hround3 with ⟨hb3, hlt3, hidx3, hsole3⟩ | ⟨hb3, hother3, -⟩
      · left
        rw [hb1, hb2, hb3] at hk
        subst hk
        exact leadsAlone_of_third (htwo _ hlt3) hmax₁ hsecond hmax₂ hthird hmax3 hlt3 hidx3
          hsole3
      · right
        rw [hb1, hb2, hb3] at hk
        subst hk
        exact ⟨not_leadsAlone hh hsecond hthird hmax₁ hmax₂ hmax3 hother1 hother2 hother3,
          minNodeIndex_spec f hn⟩

end

/-! ## The group that is picked -/

lemma members_filter (n : Nat) (nodes s : Nat → Bool) :
    (members n s).filter (fun j => nodes j = true) = members n fun j => s j && nodes j := by
  ext j
  simp [and_assoc]

lemma countNodes_split (n : Nat) (s d : Nat → Bool) :
    countNodes (fun j => s j && !d j) n + among d (members n s) = (members n s).card := by
  rw [← card_members, ← members_filter, among, add_comm]
  simpa using (members n s).card_filter_add_card_filter_not fun j => d j = true

/-- The node whose group is picked, by size, online nodes and joined nodes. -/
lemma getMaxNumIndex_spec {n} (hn : 0 < n) {clique online joined}
    (hjoined : ∀ i < n, joined i = true → online i = true)
    (hnum : ∀ i,
      clique.specifyNodeCliqueNum i = (members n (clique.containSpecifyNodeClique i)).card)
    (hk : k = getMaxNumIndex n clique online joined) :
    let f := fun i => (members n (clique.containSpecifyNodeClique i)).card
    let g := fun i => among online (members n (clique.containSpecifyNodeClique i))
    let h := fun i => among joined (members n (clique.containSpecifyNodeClique i))
    LeadsAlone n f g h k ∨
      ((∀ i, ¬LeadsAlone n f g h i) ∧ k < n ∧ (∀ i < n, f i ≤ f k) ∧ ∀ i < k, f i < f k) := by
  intro f g h
  have hoff : ∀ i, countNodes (fun j => clique.containSpecifyNodeClique i j && !online j) n +
      g i = f i := by
    exact fun i => countNodes_split n _ online
  have hoff' : ∀ i, countNodes (fun j => clique.containSpecifyNodeClique i j &&
      (online j && !joined j)) n + h i = g i := by
    intro i
    show _ + among joined _ = among online _
    have hsplit := countNodes_split n (fun j => clique.containSpecifyNodeClique i j && online j)
      joined
    simp only [Bool.and_assoc] at hsplit
    rw [among, among, members_filter, members_filter, ← hsplit, among, members_filter]
    congr 2
    apply members_congr
    intro j hj
    cases hjj : joined j with
    | false => simp
    | true => simp [hjoined j hj hjj]
  have hf : clique.specifyNodeCliqueNum = f := funext hnum
  have hsecond : (fun i => takeOff (clique.containSpecifyNodeClique i) (fun j => !online j)
      ((haveMultipleMaxGroup n f).2.1 i) n) = secondRound n f g := by
    funext i
    have := hoff i
    rw [takeOff_eq, secondRound]
    congr 1
    omega
  have hthird : (fun i => takeOff (clique.containSpecifyNodeClique i)
      (fun j => online j && !joined j)
      ((haveMultipleMaxGroup n (secondRound n f g)).2.1 i) n) = thirdRound n f g h := by
    funext i
    have := hoff' i
    rw [takeOff_eq, thirdRound]
    congr 1
    omega
  apply three_rounds hn (fun i => by have := hoff i; omega) (fun i => by have := hoff' i; omega)
  rw [hk, getMaxNumIndex, hf]
  simp only [hsecond, hthird]

lemma testBit_clusterBitmap (s : Nat → Bool) (n i : Nat) :
    (clusterBitmap s n).testBit i = (decide (i < n) && s i) := by
  induction n with
  | zero => simp [clusterBitmap]
  | succ n ih =>
    rw [clusterBitmap]
    rcases eq_or_ne i n with rfl | hi
    · cases hs : s i <;> simp [ih, hs]
    · have hlt : i < n + 1 ↔ i < n := by omega
      simp only [hlt]
      split
      · rw [Nat.testBit_or, ih, Nat.shiftLeft_eq, one_mul, Nat.testBit_two_pow]
        simp [Ne.symm hi]
      · exact ih

/-- The nodes of a cluster bitmap. -/
def nodesOf (bitmap : Nat) : Finset Nat :=
  (Finset.range maxNodeCount).filter fun i => bitmap.testBit i = true

lemma nodesOf_clusterBitmap {n} (hn : n ≤ maxNodeCount) (s : Nat → Bool) :
    nodesOf (clusterBitmap s n) = members n s := by
  ext i
  simp only [nodesOf, Finset.mem_filter, Finset.mem_range, testBit_clusterBitmap, mem_members,
    Bool.and_eq_true, decide_eq_true_eq]
  constructor
  · exact And.right
  · intro h
    exact ⟨lt_of_lt_of_le h.1 hn, h⟩

lemma GroupOf.unique {n i s t} (hs : GroupOf n votes i s) (ht : GroupOf n votes i t) : s = t := by
  rcases hs with ⟨hnone, rfl⟩ | ⟨j, hj, hconn, hgrown, hall⟩
  · rcases ht with ⟨-, rfl⟩ | ⟨j, hj, hconn, -, -⟩
    · rfl
    · exact absurd hconn (hnone j hj)
  rcases ht with ⟨hnone, -⟩ | ⟨j', hj', hconn', hgrown', hall'⟩
  · exact absurd hconn (hnone j hj)
  · have h1 := hall j' hj' t hconn' hgrown'
    have h2 := hall' j hj s hconn hgrown
    rcases lt_trichotomy j j' with h | rfl | h
    · omega
    · exact hgrown.unique hgrown'
    · omega

lemma GroupOf.isGroup {n i s} (hs : GroupOf n votes i s)
    (hself : ∀ k < n, (∀ m < n, votes k m = 0) ∨ votes k k = 1) : IsGroup n votes s := by
  rcases hs with ⟨-, rfl⟩ | ⟨j, hj, hconn, hgrown, -⟩
  · simp [IsGroup]
  · exact hgrown.isGroup hconn hself

lemma BestGroup.of_eq {n online joined s t} (hs : BestGroup n votes online joined s)
    (ht : IsGroup n votes t) (hcard : t.card = s.card) (honline : among online t = among online s)
    (hjoined : among joined t = among joined s) :
    BestGroup n votes online joined t where
  group := ht
  largest := hcard ▸ hs.largest
  mostOnline := hcard ▸ honline ▸ hs.mostOnline
  mostJoined := hcard ▸ honline ▸ hjoined ▸ hs.mostJoined

/-- Some node keeps a best group, and it is the only such node, or the groups of all
nodes before it are smaller. -/
def FirstOrOnlyBest (n : Nat) (votes : Nat → Nat → Nat) (online joined : Nat → Bool) : Prop :=
  ∃ i < n, ∃ s, GroupOf n votes i s ∧ BestGroup n votes online joined s ∧
    ((∀ i' < n, i' ≠ i → ∀ s', GroupOf n votes i' s' → ¬BestGroup n votes online joined s') ∨
      ∀ i' < i, ∀ s', GroupOf n votes i' s' → s'.card < s.card)

/-- The vote count gives a best group exactly when there are no nodes or one of the
nodes' groups is best and is met first, or alone. -/
theorem vote_count_best_iff (n : Nat) (votes : Nat → Nat → Nat) (online joined : Nat → Bool)
    (hn : n ≤ maxNodeCount) (hself : ∀ k < n, (∀ m < n, votes k m = 0) ∨ votes k k = 1)
    (hjoined : ∀ i < n, joined i = true → online i = true) :
    BestGroup n votes online joined (nodesOf (getMaxFullConnect n votes online joined)) ↔
      n = 0 ∨ FirstOrOnlyBest n votes online joined := by
  rcases Nat.eq_zero_or_pos n with rfl | hpos
  · simp only [true_or, iff_true]
    have hempty : nodesOf (getMaxFullConnect 0 votes online joined) = ∅ := by
      rw [getMaxFullConnect, nodesOf_clusterBitmap hn]
      rfl
    have hnone : ∀ t, IsGroup 0 votes t → t = ∅ := by
      intro t ht
      apply Finset.eq_empty_of_forall_notMem
      intro i hi
      exact absurd (ht.1 i hi) (Nat.not_lt_zero i)
    rw [hempty]
    refine ⟨by simp [IsGroup], fun t ht => ?_, fun t ht _ => ?_, fun t ht _ _ => ?_⟩
    · rw [hnone t ht]
    · rw [hnone t ht]
    · rw [hnone t ht]
  · obtain ⟨hgroups, hrest⟩ := @solveMaxClique_spec n votes n (le_refl n)
    generalize hclique : solveMaxClique n (fullConnect votes) n = clique at hgroups hrest
    let C := fun i => members n (clique.containSpecifyNodeClique i)
    have hnum : ∀ i, clique.specifyNodeCliqueNum i = (C i).card := by
      intro i
      by_cases hi : i < n
      · exact (hgroups i hi).2
      · show _ = (members n _).card
        rw [(hrest i (not_lt.mp hi)).2, (hrest i (not_lt.mp hi)).1]
        simp [members]
    obtain ⟨k, hk⟩ : ∃ k, k = getMaxNumIndex n clique online joined := ⟨_, rfl⟩
    have hpick := getMaxNumIndex_spec hpos hjoined hnum hk
    have hresult : nodesOf (getMaxFullConnect n votes online joined) = C k := by
      rw [getMaxFullConnect, hclique, nodesOf_clusterBitmap hn, ← hk]
    have hC : ∀ i < n, GroupOf n votes i (C i) := fun i hi => (hgroups i hi).1
    have hgroup : ∀ i < n, IsGroup n votes (C i) := fun i hi => (hC i hi).isGroup hself
    -- a best group leads, and a group that leads next to a best one is best
    let L := Leads n (fun i => (C i).card) (fun i => among online (C i))
      fun i => among joined (C i)
    have hleads : ∀ i < n, BestGroup n votes online joined (C i) → L i := by
      intro i hi hbest
      exact ⟨hi, fun j hj => hbest.largest _ (hgroup j hj),
        fun j hj => hbest.mostOnline _ (hgroup j hj),
        fun j hj => hbest.mostJoined _ (hgroup j hj)⟩
    have hbest_of : ∀ i < n, ∀ j, BestGroup n votes online joined (C i) → L j →
        BestGroup n votes online joined (C j) := by
      intro i hi j hbest hj
      obtain ⟨hf, hg, hh⟩ := hj.eq (hleads i hi hbest)
      exact hbest.of_eq (hgroup j hj.lt) hf hg hh
    rw [hresult]
    constructor
    · intro hbest
      right
      rcases hpick with halone | ⟨-, hlt, -, hfirst⟩
      · refine ⟨k, halone.1.lt, C k, hC k halone.1.lt, hbest, .inl fun i hi hne s hs hbest' => ?_⟩
        rw [hs.unique (hC i hi)] at hbest'
        exact hne (halone.2 i (hleads i hi hbest'))
      · refine ⟨k, hlt, C k, hC k hlt, hbest, .inr fun i hi s hs => ?_⟩
        rw [hs.unique (hC i (lt_trans hi hlt))]
        exact hfirst i hi
    · rintro (rfl | ⟨i, hi, s, hs, hbest, hcond⟩)
      · omega
      rw [hs.unique (hC i hi)] at hbest hcond
      suffices hik : i = k by
        rw [← hik]
        exact hbest
      have hlead := hleads i hi hbest
      rcases hcond with honly | hbefore
      · rcases hpick with hpick | ⟨hnone, -⟩
        · exact hpick.2 i hlead
        · refine absurd ⟨hlead, fun j hj => ?_⟩ (hnone i)
          by_contra hne
          exact honly j hj.lt hne (C j) (hC j hj.lt) (hbest_of i hi j hbest hj)
      · rcases hpick with hpick | ⟨-, hlt, hmax, hfirst⟩
        · exact hpick.2 i hlead
        have hle := hlead.first k hlt
        rcases lt_trichotomy i k with h | h | h
        · have h' : (C i).card < (C k).card := hfirst i h
          have hle' : (C k).card ≤ (C i).card := hle
          omega
        · exact h
        · have h' := hbefore k h (C k) (hC k hlt)
          have hmax' : (C i).card ≤ (C k).card := hmax i hi
          omega

/-- Two nodes that report each other connected. -/
theorem vote_count_best_two_nodes : BestGroup 2 (fun _ _ => 1) (fun _ => true) (fun _ => false)
      (nodesOf (getMaxFullConnect 2 (fun _ _ => 1) (fun _ => true) fun _ => false)) := by
  have hgroup : IsGroup 2 (fun _ _ => 1) {0, 1} := by
    refine ⟨by decide, ?_⟩
    intro _ _ _ _
    rfl
  have hsub : ∀ t : Finset Nat, (∀ i ∈ t, i < 2) → t ⊆ {0, 1} := by
    intro t ht i hi
    have := ht i hi
    simp only [Finset.mem_insert, Finset.mem_singleton]
    omega
  refine (vote_count_best_iff 2 (fun _ _ => 1) (fun _ => true) (fun _ => false) (by decide)
    (fun _ _ => .inr rfl) (fun _ _ h => absurd h (by decide))).mpr
    (.inr ⟨0, by decide, {0, 1}, ?_, ?_, .inr fun i hi => absurd hi (Nat.not_lt_zero i)⟩)
  · refine .inr ⟨0, by decide, ⟨rfl, rfl⟩, ⟨hgroup.1, by decide, by decide, by decide, ?_⟩, ?_⟩
    · intro m hm hm2 _
      have hm1 : m = 1 := by omega
      simp [hm1, Connected]
    · intro j _ s _ hs
      exact ⟨Finset.card_le_card (hsub s hs.lt), fun h => absurd h (Nat.not_lt_zero j)⟩
  · refine ⟨hgroup, fun t ht => Finset.card_le_card (hsub t ht.1), fun t ht _ => ?_,
      fun t _ _ _ => ?_⟩
    · exact Finset.card_le_card (Finset.filter_subset_filter _ (hsub t ht.1))
    · simp [among]

/-- Two pairs of nodes; the second pair is online and has joined. The count takes the
first pair. -/
theorem first_pair_beats_online_pair : let votes := fun i j => if i / 2 = j / 2 then 1 else 0
    let online := fun i => decide (2 ≤ i)
    (∀ k < 4, votes k k = 1) ∧ getMaxFullConnect 4 votes online online = 3 ∧
      ¬BestGroup 4 votes online online (nodesOf (getMaxFullConnect 4 votes online online)) := by
  intro votes online
  have hresult : getMaxFullConnect 4 votes online online = 3 := by decide +kernel
  refine ⟨by decide, hresult, fun hbest => ?_⟩
  have hle := hbest.mostOnline {2, 3} ⟨by decide, by decide⟩ (by decide)
  exact absurd hle (by decide)

end Cantian.Cms.Vote
