import ControlPlane.Lib.Overlap
import ControlPlane.Source.Memory.TensionClusters
import Mathlib.Algebra.Order.BigOperators.Group.List
import Mathlib.Combinatorics.SimpleGraph.Connectivity.Connected
import Mathlib.Data.Set.Card

/-!
# Clusters of tensions are connected components

The labels of the union-find are the roots of the components of the similarity graph, for every
order of the strings. One pattern is distilled for each component, under the text of a member. Its
frequency is the number of members cut to 32 bits, so that the frequencies sum to the number of
tensions exactly where every component has fewer than `2 ^ 32` of them.
-/
namespace ControlPlane.Guarantees.TensionClusters

open Lib Lib.Overlap Lib.UnionFind Source Source.Memory

/-! ## Statement -/

section Statement

variable (tables : CaseTables)

/-- The trigrams of a text as a set. -/
def trigrams (text : String) : Finset Shingle :=
  (windows (utf8Bytes (normalizeForShingling tables text.toList))).toFinset

def normalizedLen (text : String) : ℕ := Text.utf8Len (normalizeForShingling tables text.toList)

/-- The texts pass the length gate and are as similar as the threshold. -/
def Linked (threshold : ℚ) (s t : String) : Prop :=
  passesGate (normalizedLen tables s) (normalizedLen tables t) = true ∧
    threshold ≤ jaccard (trigrams tables s) (trigrams tables t)

theorem passesGate_comm (lenI lenJ : ℕ) : passesGate lenI lenJ = passesGate lenJ lenI := by
  unfold passesGate
  by_cases h : lenI = 0 ∨ lenJ = 0
  · rw [if_pos h, if_pos h.symm]
  · rw [if_neg h, if_neg fun h' => h h'.symm, min_comm, max_comm]

theorem Linked.symm {tables : CaseTables} {threshold : ℚ} {s t : String}
    (h : Linked tables threshold s t) : Linked tables threshold t s := by
  obtain ⟨hgate, hsimilar⟩ := h
  exact ⟨by rwa [passesGate_comm], by rwa [jaccard_comm]⟩

def similarityGraph (strings : List String) (threshold : ℚ) : SimpleGraph (Fin strings.length) where
  Adj i j := i ≠ j ∧ Linked tables threshold strings[i] strings[j]
  symm := ⟨fun _ _ h => ⟨h.1.symm, h.2.symm⟩⟩
  loopless := ⟨fun _ h => h.1 rfl⟩

/-- The labels are roots, and equal exactly along chains of linked pairs. -/
structure ConnectedComponents (strings : List String) (threshold : ℚ) (parent labels : List ℕ) :
    Prop where
  size : labels.length = strings.length
  roots : ∀ r ∈ labels, parent[r]? = some r
  components : ∀ i j : Fin strings.length, labels.getD i 0 = labels.getD j 0 ↔
    (similarityGraph tables strings threshold).Reachable i j

/-- Strings in another order are clustered alike. -/
def OrderFree (strings : List String) (threshold : ℚ) (labels : List ℕ) : Prop :=
  ∀ (strings' : List String) (order : Fin strings'.length ≃ Fin strings.length),
    (∀ i, strings'[i] = strings[order i]) →
      ∀ labels', clusterBySimilarity tables strings' threshold = some labels' →
        ∀ i j : Fin strings'.length, labels'.getD i 0 = labels'.getD j 0 ↔
          labels.getD (order i) 0 = labels.getD (order j) 0

variable (metas : List TaskMetaState)

abbrev tensionGraph : SimpleGraph (Fin (allTensions metas).length) :=
  similarityGraph tables (allTensions metas) tensionClusterThreshold

/-- There is one pattern for each component, under the text of a member. -/
def OnePatternEach (patterns : List TensionPattern) : Prop :=
  ∃ representatives : List (Fin (allTensions metas).length),
    representatives.Nodup ∧
      (∀ i, ∃! r, r ∈ representatives ∧ (tensionGraph tables metas).Reachable r i) ∧
      List.Forall₂ (fun r p => ∃ m, (tensionGraph tables metas).Reachable r m ∧
        p.canonicalText = (allTensions metas)[m]) representatives patterns

structure TensionClustering (walk : Walk (Σ _ : ℕ, List String)) (strings : List String)
    (threshold : ℚ) : Prop where
  clusters : ∃ parent labels, clusterRun tables strings threshold = some (parent, labels) ∧
    ConnectedComponents tables strings threshold parent labels ∧
    OrderFree tables strings threshold labels
  patterns : ∃ patterns, distillTensionPatterns tables walk metas = some patterns ∧
    OnePatternEach tables metas patterns ∧
    (patterns.map TensionPattern.frequency).sum = (allTensions metas).length

/-- No component has as many tensions as a `u32` overflows at. -/
def SmallComponents : Prop :=
  ∀ i, {j | (tensionGraph tables metas).Reachable i j}.ncard < 2 ^ 32

end Statement

/-! ## The intersection of sorted shingles -/

section Shingles

theorem mem_dropRepeats {α : Type} [DecidableEq α] {l : List α} {x : α} :
    x ∈ dropRepeats l ↔ x ∈ l := by
  fun_induction dropRepeats l with
  | case1 b rest ih => simp [ih]
  | case2 a b rest _ ih => rw [List.mem_cons, ih, List.mem_cons (l := b :: rest)]
  | case3 short _ => rfl

-- the equality test of shingles is that of lists, not the one of their order
variable {α : Type} [LinearOrder α] [DecidableEq α]

theorem dropRepeats_strict {l : List α} (sorted : l.Pairwise (· ≤ ·)) :
    (dropRepeats l).Pairwise (· < ·) := by
  fun_induction dropRepeats l with
  | case1 b rest ih => exact ih (List.pairwise_cons.mp sorted).2
  | case2 a b rest hne ih =>
      obtain ⟨hhead, htail⟩ := List.pairwise_cons.mp sorted
      refine List.pairwise_cons.mpr ⟨fun x hx => ?_, ih htail⟩
      have hab : a < b := (hhead b (List.mem_cons_self ..)).lt_of_ne hne
      rcases List.mem_cons.mp (mem_dropRepeats.mp hx) with rfl | hx
      · exact hab
      · exact hab.trans_le ((List.pairwise_cons.mp htail).1 x hx)
  | case3 short hshort =>
      match short, hshort with
      | [], _ => exact .nil
      | [a], _ => exact List.pairwise_singleton _ a
      | a :: b :: rest, hshort => exact absurd rfl (hshort a b rest)

theorem notMem_of_above {a : α} {l : List α} (above : ∀ x ∈ l, a < x) : a ∉ l.toFinset := by
  intro h
  exact lt_irrefl a (above a (List.mem_toFinset.mp h))

/-- The two cursors count the common entries. -/
theorem intersectionCount_eq {as bs : List α} (ha : as.Pairwise (· < ·))
    (hb : bs.Pairwise (· < ·)) :
    intersectionCount as bs = (as.toFinset ∩ bs.toFinset).card := by
  fun_induction intersectionCount as bs with
  | case1 as a bs ih =>
      obtain ⟨hfirst, ha⟩ := List.pairwise_cons.mp ha
      obtain ⟨_, hb⟩ := List.pairwise_cons.mp hb
      have hnew : a ∉ as.toFinset ∩ bs.toFinset := fun h =>
        notMem_of_above hfirst (Finset.mem_inter.mp h).1
      rw [ih ha hb, List.toFinset_cons, List.toFinset_cons, ← Finset.insert_inter_distrib,
        Finset.card_insert_of_notMem hnew]
  | case2 a as b bs hne hlt ih =>
      have hother : a ∉ (b :: bs).toFinset := by
        apply notMem_of_above
        intro x hx
        rcases List.mem_cons.mp hx with rfl | hx
        · exact hlt
        · exact hlt.trans ((List.pairwise_cons.mp hb).1 x hx)
      rw [ih (List.pairwise_cons.mp ha).2 hb, List.toFinset_cons (a := a),
        Finset.insert_inter_of_notMem hother]
  | case3 a as b bs hne hlt ih =>
      have hgt : b < a := (not_lt.mp hlt).lt_of_ne (Ne.symm hne)
      have hother : b ∉ (a :: as).toFinset := by
        apply notMem_of_above
        intro x hx
        rcases List.mem_cons.mp hx with rfl | hx
        · exact hgt
        · exact hgt.trans ((List.pairwise_cons.mp ha).1 x hx)
      rw [ih ha (List.pairwise_cons.mp hb).2, List.toFinset_cons (a := b),
        Finset.inter_insert_of_notMem hother]
  | case4 as bs hshort =>
      match as, bs, hshort with
      | [], _, _ => simp
      | _ :: _, [], _ => simp
      | a :: as, b :: bs, hshort => exact absurd rfl (hshort a as b bs rfl)

theorem jaccardShingles_eq {a b : List Shingle} (ha : a.Pairwise (· < ·))
    (hb : b.Pairwise (· < ·)) : jaccardShingles a b = jaccard a.toFinset b.toFinset := by
  have hcardA := List.toFinset_card_of_nodup (ha.imp fun h => h.ne)
  have hcardB := List.toFinset_card_of_nodup (hb.imp fun h => h.ne)
  have hunion : a.length + b.length - intersectionCount a b =
      (a.toFinset ∪ b.toFinset).card := by
    rw [Finset.card_union, hcardA, hcardB, intersectionCount_eq ha hb]
  unfold jaccardShingles
  split
  · next hempty =>
    rw [Bool.and_eq_true, List.isEmpty_iff, List.isEmpty_iff] at hempty
    rw [hempty.1, List.toFinset_nil, jaccard_empty_left]
  · dsimp only
    rw [hunion, intersectionCount_eq ha hb]
    split
    · next hzero => rw [jaccard, hzero, Nat.cast_zero, div_zero]
    · rfl

theorem trigramShingles_strict (text : List Char) : (trigramShingles text).Pairwise (· < ·) :=
  dropRepeats_strict (sorted_pairwise _)

theorem toFinset_trigramShingles (text : List Char) :
    (trigramShingles text).toFinset = (windows (utf8Bytes text)).toFinset := by
  ext x
  rw [List.mem_toFinset, List.mem_toFinset, trigramShingles, mem_dropRepeats,
    (sorted_perm _).mem_iff]

end Shingles

/-! ## The run of the union-find -/

section Run

variable {tables : CaseTables} {strings : List String} {threshold : ℚ}

theorem clusterLink_iff (i j : Fin strings.length) :
    clusterLink tables strings threshold (i, j) = true ↔
      Linked tables threshold strings[i] strings[j] := by
  have hnormalized : ∀ i : Fin strings.length,
      (strings.map fun s => normalizeForShingling tables s.toList).getD i [] =
        normalizeForShingling tables strings[i].toList := by
    intro i
    simp [List.getD_eq_getElem?_getD]
  have hshingles : ∀ i : Fin strings.length,
      ((strings.map fun s => normalizeForShingling tables s.toList).map trigramShingles).getD i [] =
        trigramShingles (normalizeForShingling tables strings[i].toList) := by
    intro i
    simp [List.getD_eq_getElem?_getD]
  unfold clusterLink Linked
  dsimp only
  rw [hnormalized, hnormalized, hshingles, hshingles, Bool.and_eq_true, decide_eq_true_iff,
    jaccardShingles_eq (trigramShingles_strict _) (trigramShingles_strict _),
    toFinset_trigramShingles, toFinset_trigramShingles]
  rfl

theorem mem_loopPairs {n i j : ℕ} : (i, j) ∈ loopPairs n ↔ i < j ∧ j < n := by
  have hmem : (i, j) ∈ loopPairs n ↔ i < n ∧ i + 1 ≤ j ∧ j < i + 1 + (n - (i + 1)) := by
    simp [loopPairs]
  rw [hmem]
  omega

/-- Equal, or in one component. -/
def SameComponent (tables : CaseTables) (strings : List String) (threshold : ℚ) (x y : ℕ) : Prop :=
  x = y ∨ ∃ (hx : x < strings.length) (hy : y < strings.length),
    (similarityGraph tables strings threshold).Reachable ⟨x, hx⟩ ⟨y, hy⟩

theorem sameComponent_equivalence :
    Equivalence (SameComponent tables strings threshold) := by
  constructor
  case refl => exact fun x => Or.inl rfl
  case symm =>
    intro x y h
    rcases h with rfl | ⟨hx, hy, h⟩
    · exact Or.inl rfl
    · exact Or.inr ⟨hy, hx, h.symm⟩
  case trans =>
    intro x y z h h'
    rcases h with rfl | ⟨hx, hy, h⟩
    · exact h'
    · rcases h' with rfl | ⟨_, hz, h'⟩
      · exact Or.inr ⟨hx, hy, h⟩
      · exact Or.inr ⟨hx, hz, h.trans h'⟩

theorem joined_iff_reachable {parent : List ℕ}
    (generated : Generated (clusterLink tables strings threshold) (loopPairs strings.length)
      (List.range strings.length) parent) (i j : Fin strings.length) :
    Joined parent i j ↔ (similarityGraph tables strings threshold).Reachable i j := by
  have hlength : parent.length = strings.length := by
    rw [generated.length, List.length_range]
  constructor
  · intro h
    have hstart : ∀ x y, Joined (List.range strings.length) x y →
        SameComponent tables strings threshold x y := by
      intro x y h
      obtain ⟨r, hx, hy⟩ := h
      exact Or.inl ((leads_range.mp hx).1.trans (leads_range.mp hy).1.symm)
    have hpairs : ∀ e ∈ loopPairs strings.length,
        clusterLink tables strings threshold e = true →
          SameComponent tables strings threshold e.1 e.2 := by
      intro e he hlink
      obtain ⟨hlt, hn⟩ := mem_loopPairs.mp he
      have hadj := (clusterLink_iff ⟨e.1, hlt.trans hn⟩ ⟨e.2, hn⟩).mp hlink
      exact Or.inr ⟨hlt.trans hn, hn,
        SimpleGraph.Adj.reachable ⟨fun heq => hlt.ne (congrArg Fin.val heq), hadj⟩⟩
    rcases generated.least _ sameComponent_equivalence hstart hpairs i j h with heq | ⟨_, _, h⟩
    · rw [Fin.ext heq]
    · exact h
  · intro h
    obtain ⟨walk⟩ := h
    induction walk with
    | @nil i =>
        apply joined_refl generated.forest
        rw [hlength]
        exact i.isLt
    | @cons i k j hadj _ ih =>
        have hik : Joined parent i k := by
          rcases Nat.lt_or_gt_of_ne (Fin.val_ne_of_ne hadj.1) with hlt | hlt
          · exact generated.links (i.val, k.val) (mem_loopPairs.mpr ⟨hlt, k.isLt⟩)
              ((clusterLink_iff i k).mpr hadj.2)
          · exact (generated.links (k.val, i.val) (mem_loopPairs.mpr ⟨hlt, i.isLt⟩)
              ((clusterLink_iff k i).mpr hadj.2.symm)).symm
        exact hik.trans ih

theorem clusterRun_spec (tables : CaseTables) (strings : List String) (threshold : ℚ) :
    ∃ parent labels, clusterRun tables strings threshold = some (parent, labels) ∧
      ConnectedComponents tables strings threshold parent labels := by
  have hinside : ∀ e ∈ loopPairs strings.length,
      e.1 < (List.range strings.length).length ∧ e.2 < (List.range strings.length).length := by
    intro e he
    obtain ⟨hlt, hn⟩ := mem_loopPairs.mp he
    rw [List.length_range]
    exact ⟨hlt.trans hn, hn⟩
  have hjoins : ∃ joined, joinAll (clusterLink tables strings threshold) strings.length
      (List.range strings.length) (loopPairs strings.length) = some joined ∧
        Generated (clusterLink tables strings threshold) (loopPairs strings.length)
          (List.range strings.length) joined :=
    joinAll_spec (forest_range strings.length) List.length_range.le _ hinside
  obtain ⟨joined, hjoin, hgen⟩ := hjoins
  have hlength : joined.length = strings.length := by rw [hgen.length, List.length_range]
  obtain ⟨parent, labels, hfind, hkeeps, hroots⟩ := findAll_spec hgen.forest hlength.le
    (List.range strings.length) (by rw [hlength]; exact fun x => List.mem_range.mp)
  have hsize : labels.length = strings.length := by
    rw [← hroots.length_eq, List.length_range]
  have hlabel : ∀ i : Fin strings.length, Leads joined i (labels.getD i 0) := by
    intro i
    have hi : i.val < labels.length := by rw [hsize]; exact i.isLt
    have hget := hroots.get (by simp : i.val < (List.range strings.length).length) hi
    simpa [List.getD_eq_getElem?_getD, hi] using hget
  refine ⟨parent, labels, ?_, hsize, ?_, ?_⟩
  · unfold clusterRun
    simp only [hjoin, hfind]
  · intro r hr
    obtain ⟨i, hi, rfl⟩ := List.mem_iff_getElem.mp hr
    have hlead := hlabel ⟨i, hsize ▸ hi⟩
    simp only [List.getD_eq_getElem?_getD, List.getElem?_eq_getElem hi, Option.getD_some] at hlead
    exact ((hkeeps.leads _ _).mpr hlead).isRoot
  · intro i j
    rw [← joined_iff_reachable hgen, joined_iff_of_leads (hlabel j)]
    constructor
    · intro h
      rw [← h]
      exact hlabel i
    · intro h
      exact (hlabel i).unique h

theorem clusterBySimilarity_components {labels : List ℕ}
    (h : clusterBySimilarity tables strings threshold = some labels) (i j : Fin strings.length) :
    labels.getD i 0 = labels.getD j 0 ↔
      (similarityGraph tables strings threshold).Reachable i j := by
  obtain ⟨parent, labels', hrun, hcomponents⟩ := clusterRun_spec tables strings threshold
  rw [clusterBySimilarity, hrun, Option.map_some, Option.some_inj] at h
  rw [← h]
  exact hcomponents.components i j

/-- The graph of reordered strings is the reordered graph. -/
def reorderedGraph (tables : CaseTables) (threshold : ℚ) {strings strings' : List String}
    (order : Fin strings'.length ≃ Fin strings.length)
    (same : ∀ i, strings'[i] = strings[order i]) :
    similarityGraph tables strings' threshold ≃g similarityGraph tables strings threshold where
  toEquiv := order
  map_rel_iff' := by
    intro i j
    simp only [similarityGraph, same, ne_eq, EmbeddingLike.apply_eq_iff_eq]

theorem orderFree_of_run {labels : List ℕ}
    (h : clusterBySimilarity tables strings threshold = some labels) :
    OrderFree tables strings threshold labels := by
  intro strings' order same labels' h' i j
  rw [clusterBySimilarity_components h', clusterBySimilarity_components h]
  exact (SimpleGraph.Iso.reachable_iff (φ := reorderedGraph tables threshold order same)).symm

end Run

/-! ## The patterns -/

section Patterns

variable {tables : CaseTables} {metas : List TaskMetaState} {labels : List ℕ}

theorem canonicalOf_mem (tables : CaseTables) {members : List String} (nonempty : members ≠ []) :
    canonicalOf tables members ∈ members := by
  have hfold : ∀ (rest : List String) (best : String),
      rest.foldl (fun best m => if comparesGreater tables best m then best else m) best ∈
        best :: rest := by
    intro rest
    induction rest with
    | nil => exact fun best => List.mem_singleton_self best
    | cons m rest ih =>
        intro best
        rw [List.foldl_cons]
        split
        · rcases List.mem_cons.mp (ih best) with heq | hmem
          · rw [heq]
            exact List.mem_cons_self
          · exact List.mem_cons_of_mem _ (List.mem_cons_of_mem _ hmem)
        · exact List.mem_cons_of_mem _ (ih m)
  cases members with
  | nil => exact absurd rfl nonempty
  | cons first rest => exact hfold rest first

theorem foldl_push (members pushed : List String) :
    pushed.foldl (fun members tension => members ++ [tension]) members = members ++ pushed := by
  induction pushed generalizing members with
  | nil => simp
  | cons tension pushed ih => rw [List.foldl_cons, ih, List.append_assoc, List.singleton_append]

/-- The tensions under a label are those at its positions. -/
theorem valuesAt_labels {all : List String} (size : labels.length = all.length) (key : ℕ) :
    valuesAt key (labels.zip all) =
      ((List.finRange all.length).filter fun m : Fin all.length =>
        decide (labels.getD m 0 = key)).map fun m : Fin all.length => all[m] := by
  have hzip : labels.zip all =
      (List.finRange all.length).map fun m : Fin all.length => (labels.getD m 0, all[m]) := by
    apply List.ext_getElem
    · simp [size]
    · intro i hi _
      rw [List.length_zip] at hi
      have hlabel : i < labels.length := by omega
      simp [List.getD_eq_getElem?_getD, hlabel]
  rw [valuesAt, hzip, List.filter_map, List.map_map]
  rfl

theorem sum_mod_eq_iff {n : ℕ} (hn : 0 < n) (l : List ℕ) :
    (l.map (· % n)).sum = l.sum ↔ ∀ x ∈ l, x < n := by
  induction l with
  | nil => simp
  | cons x rest ih =>
      have hle : (rest.map (· % n)).sum ≤ rest.sum := by
        simpa using List.sum_le_sum fun x (_ : x ∈ rest) => Nat.mod_le x n
      have hx := Nat.mod_le x n
      rw [List.map_cons, List.sum_cons, List.sum_cons, List.forall_mem_cons, ← ih,
        ← Nat.mod_eq_iff_lt hn.ne']
      omega

/-- As many tensions are under a label as there are positions of one component. -/
theorem length_valuesAt_labels {all : List String} {threshold : ℚ}
    (size : labels.length = all.length)
    (components : ∀ i j : Fin all.length, labels.getD i 0 = labels.getD j 0 ↔
      (similarityGraph tables all threshold).Reachable i j) (i : Fin all.length) :
    (valuesAt (labels.getD i 0) (labels.zip all)).length =
      {j | (similarityGraph tables all threshold).Reachable i j}.ncard := by
  rw [valuesAt_labels size, List.length_map]
  apply (ncard_eq_length_filter _).symm
  intro j
  rw [Set.mem_ofPred_eq, decide_eq_true_iff, components]
  exact ⟨.symm, .symm⟩

/-- The entries of the map of clusters: distinct labels, each with the tensions under it. -/
structure Grouped (all : List String) (labels : List ℕ) (entries : List (Σ _ : ℕ, List String)) :
    Prop where
  distinct : (entries.map Sigma.fst).Nodup
  complete : ∀ i : Fin all.length, labels.getD i 0 ∈ entries.map Sigma.fst
  labelled : ∀ e ∈ entries, ∃ r : Fin all.length, labels.getD r 0 = e.1
  members : ∀ e ∈ entries, e.2 = valuesAt e.1 (labels.zip all)

theorem grouped_walk {all : List String} (size : labels.length = all.length)
    (walk : Walk (Σ _ : ℕ, List String)) :
    Grouped all labels (walk.run (upsertAll [] (fun members tension => members ++ [tension]) ∅
      (labels.zip all)).entries) := by
  have hkeys : (labels.zip all).map Prod.fst = labels := List.map_fst_zip size.le
  have hperm := walk.perm (upsertAll [] (fun members tension => members ++ [tension]) ∅
    (labels.zip all)).entries
  constructor
  case distinct =>
    rw [(hperm.map Sigma.fst).nodup_iff]
    exact AList.keys_nodup _
  case complete =>
    intro i
    rw [(hperm.map Sigma.fst).mem_iff]
    have hi : i.val < labels.length := by rw [size]; exact i.isLt
    have hmem : labels.getD i 0 ∈ upsertAll [] (fun members tension => members ++ [tension])
        (∅ : AList fun _ : ℕ => List String) (labels.zip all) := by
      rw [mem_upsertAll, hkeys]
      exact Or.inr (by simp [List.getD_eq_getElem?_getD, hi])
    exact hmem
  case labelled =>
    intro e he
    have hkey := (mem_entries_upsertAll (hperm.subset he)).1
    rw [hkeys] at hkey
    obtain ⟨r, hr, heq⟩ := List.mem_iff_getElem.mp hkey
    exact ⟨⟨r, size ▸ hr⟩, by simp [List.getD_eq_getElem?_getD, hr, heq]⟩
  case members =>
    intro e he
    rw [(mem_entries_upsertAll (hperm.subset he)).2, foldl_push, List.nil_append]

variable {entries : List (Σ _ : ℕ, List String)}

theorem Grouped.sum_length {all : List String} (grouped : Grouped all labels entries)
    (size : labels.length = all.length) :
    (entries.map fun e => e.2.length).sum = all.length := by
  have hlengths : (entries.map fun e => e.2.length) =
      (entries.map Sigma.fst).map fun key => (valuesAt key (labels.zip all)).length := by
    rw [List.map_map]
    exact List.map_congr_left fun e he => congrArg List.length (grouped.members e he)
  rw [hlengths, sum_length_valuesAt grouped.distinct, List.length_zip, size, min_self]
  intro u hu
  obtain ⟨i, hi, rfl⟩ := List.mem_iff_getElem.mp hu
  rw [List.length_zip] at hi
  have hlabel : i < labels.length := by omega
  have hkey := grouped.complete ⟨i, by omega⟩
  simpa [List.getD_eq_getElem?_getD, hlabel] using hkey

theorem Grouped.onePatternEach (grouped : Grouped (allTensions metas) labels entries)
    (size : labels.length = (allTensions metas).length)
    (components : ∀ i j : Fin (allTensions metas).length,
      labels.getD i 0 = labels.getD j 0 ↔ (tensionGraph tables metas).Reachable i j) :
    OnePatternEach tables metas (entries.map fun e => patternOf tables e.2) := by
  obtain ⟨representatives, hreps⟩ := exists_forall₂ (R := fun
      (r : Fin (allTensions metas).length) (e : Σ _ : ℕ, List String) =>
        labels.getD r 0 = e.1 ∧ e.2 = valuesAt e.1 (labels.zip (allTensions metas)))
    fun e he => (grouped.labelled e he).imp fun r hr => ⟨hr, grouped.members e he⟩
  have hlabels : (representatives.map fun r : Fin _ => labels.getD r 0) = entries.map Sigma.fst :=
    map_eq_of_forall₂ (hreps.imp fun _ _ h => h.1)
  have hdistinct : (representatives.map fun r : Fin _ => labels.getD r 0).Nodup := by
    rw [hlabels]
    exact grouped.distinct
  refine ⟨representatives, hdistinct.of_map, ?_, ?_⟩
  · intro i
    have hkey := grouped.complete i
    rw [← hlabels] at hkey
    obtain ⟨r, hr, hlabel⟩ := List.mem_map.mp hkey
    refine ⟨r, ⟨hr, (components r i).mp hlabel⟩, ?_⟩
    intro r' hr'
    apply List.inj_on_of_nodup_map hdistinct hr'.1 hr
    exact ((components r' i).mpr hr'.2).trans hlabel.symm
  · rw [List.forall₂_map_right_iff]
    refine hreps.imp fun r e h => ?_
    have hmembers : r ∈ (List.finRange (allTensions metas).length).filter fun m : Fin _ =>
        decide (labels.getD m 0 = e.1) :=
      List.mem_filter.mpr ⟨List.mem_finRange r, decide_eq_true h.1⟩
    have hvalues := h.2.trans (valuesAt_labels size e.1)
    have hnonempty : e.2 ≠ [] := by
      rw [hvalues]
      exact List.ne_nil_of_mem (List.mem_map_of_mem hmembers)
    have hcanonical := canonicalOf_mem tables hnonempty
    rw [hvalues] at hcanonical
    obtain ⟨m, hm, htext⟩ := List.mem_map.mp hcanonical
    refine ⟨m, ?_, ?_⟩
    · rw [← components, h.1]
      exact (of_decide_eq_true (List.mem_filter.mp hm).2).symm
    · rw [htext, ← hvalues]
      rfl

theorem Grouped.sum_frequency_iff (grouped : Grouped (allTensions metas) labels entries)
    (size : labels.length = (allTensions metas).length)
    (components : ∀ i j : Fin (allTensions metas).length,
      labels.getD i 0 = labels.getD j 0 ↔ (tensionGraph tables metas).Reachable i j) :
    ((entries.map fun e => patternOf tables e.2).map TensionPattern.frequency).sum =
        (allTensions metas).length ↔ SmallComponents tables metas := by
  have hfrequencies : (entries.map fun e => patternOf tables e.2).map TensionPattern.frequency =
      (entries.map fun e => e.2.length).map (· % 2 ^ 32) := by
    rw [List.map_map, List.map_map]
    rfl
  have hsize : ∀ e ∈ entries, ∀ i : Fin (allTensions metas).length, labels.getD i 0 = e.1 →
      e.2.length = {j | (tensionGraph tables metas).Reachable i j}.ncard := by
    intro e he i hi
    rw [grouped.members e he, ← hi]
    exact length_valuesAt_labels size components i
  rw [hfrequencies, ← grouped.sum_length size, sum_mod_eq_iff (by positivity), List.forall_mem_map]
  constructor
  · intro h i
    obtain ⟨e, he, hlabel⟩ := List.mem_map.mp (grouped.complete i)
    rw [← hsize e he i hlabel.symm]
    exact h e he
  · intro h e he
    obtain ⟨r, hr⟩ := grouped.labelled e he
    rw [hsize e he r hr]
    exact h r

theorem distill_spec (tables : CaseTables) (walk : Walk (Σ _ : ℕ, List String))
    (metas : List TaskMetaState) :
    ∃ patterns, distillTensionPatterns tables walk metas = some patterns ∧
      OnePatternEach tables metas patterns ∧
      ((patterns.map TensionPattern.frequency).sum = (allTensions metas).length ↔
        SmallComponents tables metas) := by
  by_cases hempty : allTensions metas = []
  · have hzero : (allTensions metas).length = 0 := by rw [hempty, List.length_nil]
    have hnone : ∀ i : Fin (allTensions metas).length, False := by
      intro i
      have hlt := i.isLt
      omega
    refine ⟨[], ?_, ⟨[], List.nodup_nil, fun i => (hnone i).elim, .nil⟩, ?_⟩
    · unfold distillTensionPatterns
      dsimp only
      rw [if_pos (List.isEmpty_iff.mpr hempty)]
    · rw [hempty]
      exact iff_of_true rfl fun i => (hnone i).elim
  · obtain ⟨parent, labels, hrun, hcomponents⟩ :=
      clusterRun_spec tables (allTensions metas) tensionClusterThreshold
    have hlabels : clusterBySimilarity tables (allTensions metas) tensionClusterThreshold =
        some labels := by
      rw [clusterBySimilarity, hrun, Option.map_some]
    have hgrouped := grouped_walk hcomponents.size walk
    refine ⟨_, ?_, hgrouped.onePatternEach hcomponents.size hcomponents.components,
      hgrouped.sum_frequency_iff hcomponents.size hcomponents.components⟩
    unfold distillTensionPatterns
    dsimp only
    rw [if_neg fun h => hempty (List.isEmpty_iff.mp h), hlabels]

end Patterns

/-! ## The guarantee -/

theorem tension_clustering_iff (tables : CaseTables) (walk : Walk (Σ _ : ℕ, List String))
    (strings : List String) (threshold : ℚ) (metas : List TaskMetaState) :
    TensionClustering tables metas walk strings threshold ↔ SmallComponents tables metas := by
  obtain ⟨parent, labels, hrun, hcomponents⟩ := clusterRun_spec tables strings threshold
  obtain ⟨patterns, hdistill, hone, hfrequencies⟩ := distill_spec tables walk metas
  constructor
  · intro h
    obtain ⟨patterns', hdistill', _, hsum⟩ := h.patterns
    rw [hdistill, Option.some_inj] at hdistill'
    rw [← hdistill'] at hsum
    exact hfrequencies.mp hsum
  · intro h
    constructor
    case clusters =>
      refine ⟨parent, labels, hrun, hcomponents, orderFree_of_run ?_⟩
      rw [clusterBySimilarity, hrun, Option.map_some]
    case patterns => exact ⟨patterns, hdistill, hone, hfrequencies.mpr h⟩

theorem linked_self {tables : CaseTables} {threshold : ℚ} {text : String}
    (gate : passesGate (normalizedLen tables text) (normalizedLen tables text) = true)
    (nonempty : (trigrams tables text).Nonempty) (le_one : threshold ≤ 1) :
    Linked tables threshold text text := by
  refine ⟨gate, ?_⟩
  rw [jaccard_self nonempty]
  exact le_one

/-- A text with trigrams that comes too often is counted from zero again. -/
theorem not_small_of_repeated {tables : CaseTables} {metas : List TaskMetaState} {text : String}
    (many : 2 ^ 32 ≤ (allTensions metas).length) (repeated : ∀ t ∈ allTensions metas, t = text)
    (linked : Linked tables tensionClusterThreshold text text) : ¬SmallComponents tables metas := by
  intro h
  have htext : ∀ i : Fin (allTensions metas).length, (allTensions metas)[i] = text :=
    fun i => repeated _ (List.getElem_mem _)
  have hreach : ∀ i j, (tensionGraph tables metas).Reachable i j := by
    intro i j
    by_cases hij : i = j
    · rw [hij]
    · apply SimpleGraph.Adj.reachable
      refine ⟨hij, ?_⟩
      rw [htext, htext]
      exact linked
  have hzero : 0 < (allTensions metas).length := by omega
  have hall : {j | (tensionGraph tables metas).Reachable ⟨0, hzero⟩ j} = Set.univ :=
    Set.eq_univ_of_forall (hreach _)
  have hlt := h ⟨0, hzero⟩
  rw [hall, Set.ncard_univ, Nat.card_eq_fintype_card, Fintype.card_fin] at hlt
  omega

/-- One tension, any number of times. -/
def repeatedTension (n : ℕ) : List TaskMetaState := [⟨List.replicate n "latency"⟩]

theorem repeatedTension_not_small {n : ℕ} (hn : 2 ^ 32 ≤ n) :
    ¬SmallComponents asciiTables (repeatedTension n) := by
  have hall : allTensions (repeatedTension n) = List.replicate n "latency" := by
    simp [allTensions, repeatedTension]
  have hmany : 2 ^ 32 ≤ (allTensions (repeatedTension n)).length := by
    rw [hall, List.length_replicate]
    exact hn
  have hrepeated : ∀ t ∈ allTensions (repeatedTension n), t = "latency" := by
    rw [hall]
    exact fun t => List.eq_of_mem_replicate
  have hlinked : Linked asciiTables tensionClusterThreshold "latency" "latency" :=
    linked_self (by decide +kernel) (by decide +kernel) (by decide +kernel)
  exact not_small_of_repeated hmany hrepeated hlinked

theorem frequencies_of_repeated_tension :
    ¬∀ (tables : CaseTables) (walk : Walk (Σ _ : ℕ, List String)) (strings : List String)
      (threshold : ℚ) (metas : List TaskMetaState),
      TensionClustering tables metas walk strings threshold := by
  intro h
  have hlaw : ∀ n, SmallComponents asciiTables (repeatedTension n) := by
    intro n
    obtain ⟨patterns, hdistill, _, hsum⟩ :=
      (h asciiTables Walk.stored [] 0 (repeatedTension n)).patterns
    obtain ⟨patterns', hdistill', _, hfrequencies⟩ :=
      distill_spec asciiTables Walk.stored (repeatedTension n)
    rw [hdistill', Option.some_inj] at hdistill
    rw [← hdistill] at hsum
    exact hfrequencies.mp hsum
  exact repeatedTension_not_small (Nat.le_refl (2 ^ 32)) (hlaw (2 ^ 32))

end ControlPlane.Guarantees.TensionClusters
