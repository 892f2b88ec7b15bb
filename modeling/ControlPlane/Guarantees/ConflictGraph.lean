import ControlPlane.Source.Constraints.Conflict
import ControlPlane.Source.Constraints.Eval
import ControlPlane.Source.Verification.Predicate
import Mathlib.Data.List.Perm.Subperm
import Mathlib.Data.List.Permutation

/-!
# What the conflict graph of a corpus says

Two constraints are in conflict exactly if they enforce opposite orders, bounds of one field
that exclude each other, or if one names the other, in whatever order the corpus is loaded.
A repair is warned of a conflict exactly if two of its targets are in conflict, and no output
passes two constraints whose bounds exclude each other.
-/
namespace ControlPlane.Guarantees.ConflictGraph

open Lib
open Source.Constraints Source.Verification
open Source.MapeK (canonicalPair areConflicting firstConflict canonicalPair_eq_iff)

/-! ## Statement -/

/-- The predicates that are enforced, with the constraint that does. -/
def leaves (docs : List ConstraintDoc) : List (String × ConstraintPredicate) :=
  docs.flatMap fun doc => (enforced doc.predicate).map fun p => (doc.id, p)

def orderingOf : String × ConstraintPredicate → Option OrderingEntry
  | (id, .semanticOrdering first andThen _) =>
      some { id := id, first := first, andThen := andThen }
  | _ => none

def numericOf (field : String) : String × ConstraintPredicate → Option NumericEntry
  | (id, .numericThreshold fieldPattern op value) =>
      if fieldPattern = field then some { id := id, op := op, value := value } else none
  | _ => none

/-- At two places of the corpus the constraints enforce opposite orders. -/
def Reversed (docs : List ConstraintDoc) (a b : String) : Prop :=
  ∃ x y, List.Subperm [⟨a, x, y⟩, ⟨b, y, x⟩] ((leaves docs).filterMap orderingOf)

/-- The first constraint enforces an upper bound, the second a greater lower bound. -/
def Excludes (docs : List ConstraintDoc) (a b : String) : Prop :=
  ∃ field, ∃ low high : ℚ, low < high ∧
    ⟨a, .le, low⟩ ∈ (leaves docs).filterMap (numericOf field) ∧
    ⟨b, .ge, high⟩ ∈ (leaves docs).filterMap (numericOf field)

/-- The first constraint names the second. -/
def Names (docs : List ConstraintDoc) (a b : String) : Prop :=
  ∃ doc ∈ docs, doc.id = a ∧ b ∈ doc.relatedTo

def Coupled (docs : List ConstraintDoc) (a b : String) : Prop :=
  Reversed docs a b ∨ (Excludes docs a b ∨ Excludes docs b a) ∨ Names docs a b ∨ Names docs b a

/-- No output has a positive score for both constraints, whatever a model answers. -/
def NeverBoth (p q : ConstraintPredicate) : Prop :=
  ∀ x output answers answers',
    (evalPredicateAsync x output p answers).score ≤ 0 ∨
      (evalPredicateAsync x output q answers').score ≤ 0

/-! ## Collection -/

/-- What collecting adds for a list of enforced predicates. -/
structure Adds (added : List (String × ConstraintPredicate)) (c c' : Collected) : Prop where
  orderings : c'.orderings = c.orderings ++ added.filterMap orderingOf
  numerics : ∀ field, (c'.numerics.lookup field).getD [] =
    (c.numerics.lookup field).getD [] ++ added.filterMap (numericOf field)
  nodup : (c.numerics.map Prod.fst).Nodup → (c'.numerics.map Prod.fst).Nodup

theorem Adds.refl (c : Collected) : Adds [] c c := ⟨by simp, by simp, fun hc => hc⟩

theorem Adds.trans {added more : List (String × ConstraintPredicate)} {c c' c'' : Collected}
    (h : Adds added c c') (h' : Adds more c' c'') : Adds (added ++ more) c c'' := by
  constructor
  case orderings => rw [h'.orderings, h.orderings, List.filterMap_append, List.append_assoc]
  case numerics =>
    intro field
    rw [h'.numerics, h.numerics, List.filterMap_append, List.append_assoc]
  case nodup => exact fun hc => h'.nodup (h.nodup hc)

theorem adds_addLeaf (id : String) (p : ConstraintPredicate) (c : Collected) :
    Adds [(id, p)] c (c.addLeaf id p) := by
  cases p with
  | semanticOrdering first andThen passes =>
      exact ⟨rfl, by simp [Collected.addLeaf, numericOf], fun hc => hc⟩
  | numericThreshold fieldPattern op value =>
      constructor
      case orderings => simp [Collected.addLeaf, orderingOf]
      case numerics =>
        intro field
        simp only [Collected.addLeaf, lookup_replaceEntry]
        by_cases hfield : field = fieldPattern
        · subst hfield
          simp [numericOf]
        · simp [numericOf, hfield, Ne.symm hfield]
      case nodup => exact fun hc => nodup_keys_replaceEntry hc _ _
  | _ => exact ⟨by simp [Collected.addLeaf, orderingOf],
      by simp [Collected.addLeaf, numericOf], fun hc => hc⟩

theorem adds_collectPredicates (id : String) (p : ConstraintPredicate) :
    ∀ c, Adds ((enforced p).map fun q => (id, q)) c (collectPredicates id p c) := by
  induction p using andInduction with
  | conj children ih =>
      rw [enforced]
      simp only [collectPredicates]
      induction children with
      | nil => exact fun c => Adds.refl c
      | cons child rest ihrest =>
          intro c
          rw [enforcedAll, List.map_append, collectChildren]
          exact (ih child List.mem_cons_self c).trans
            (ihrest (fun q hq => ih q (List.mem_cons_of_mem child hq)) _)
  | leaf p henforced hcollect =>
      intro c
      rw [henforced, hcollect]
      exact adds_addLeaf id p c

theorem adds_collectDocs (docs : List ConstraintDoc) :
    Adds (leaves docs) ⟨[], []⟩ (collectDocs docs) := by
  have hfold : ∀ c, Adds (leaves docs) c
      (docs.foldl (fun c doc => collectPredicates doc.id doc.predicate c) c) := by
    induction docs with
    | nil => exact fun c => Adds.refl c
    | cons doc docs ih =>
        intro c
        rw [leaves, List.flatMap_cons, List.foldl_cons]
        exact (adds_collectPredicates doc.id doc.predicate c).trans (ih _)
  exact hfold _

/-! ## Pairs -/

theorem pair_sublist_cons {α : Type} {a b c : α} {l : List α} :
    [a, b].Sublist (c :: l) ↔ [a, b].Sublist l ∨ (a = c ∧ b ∈ l) := by
  rw [List.sublist_cons_iff]
  constructor
  · rintro (h | ⟨r, hr, hl⟩)
    · exact Or.inl h
    · obtain ⟨rfl, rfl⟩ := List.cons.inj hr
      exact Or.inr ⟨rfl, List.singleton_sublist.mp hl⟩
  · rintro (h | ⟨rfl, hb⟩)
    · exact Or.inl h
    · exact Or.inr ⟨[b], rfl, List.singleton_sublist.mpr hb⟩

/-- Two places of a list hold two elements in one of the two orders. -/
theorem pair_subperm_iff {α : Type} {a b : α} {l : List α} :
    List.Subperm [a, b] l ↔ [a, b].Sublist l ∨ [b, a].Sublist l := by
  constructor
  · rintro ⟨r, hperm, hl⟩
    rcases List.perm_pair.mp hperm with rfl | rfl
    · exact Or.inl hl
    · exact Or.inr hl
  · rintro (h | h)
    · exact h.subperm
    · exact ⟨[b, a], List.Perm.swap a b [], h⟩

theorem mem_orderingPairs {entries : List OrderingEntry} {pair : String × String} :
    pair ∈ orderingPairs entries ↔ ∃ a b, [a, b].Sublist entries ∧ a.reverses b = true ∧
      canonicalPair a.id b.id = pair := by
  induction entries with
  | nil => simp [orderingPairs]
  | cons c rest ih =>
      rw [orderingPairs, List.mem_append, ih]
      simp only [List.mem_map, List.mem_filter, pair_sublist_cons]
      constructor
      · rintro (⟨b, ⟨hb, hreverses⟩, rfl⟩ | ⟨a, b, hsub, hreverses, rfl⟩)
        · exact ⟨c, b, Or.inr ⟨rfl, hb⟩, hreverses, rfl⟩
        · exact ⟨a, b, Or.inl hsub, hreverses, rfl⟩
      · rintro ⟨a, b, hsub | ⟨rfl, hb⟩, hreverses, rfl⟩
        · exact Or.inr ⟨a, b, hsub, hreverses, rfl⟩
        · exact Or.inl ⟨b, ⟨hb, hreverses⟩, rfl⟩

theorem mem_numericPairs {entries : List NumericEntry} {pair : String × String} :
    pair ∈ numericPairs entries ↔ ∃ a b, ∃ low high : ℚ, low < high ∧ ⟨a, .le, low⟩ ∈ entries ∧
      ⟨b, .ge, high⟩ ∈ entries ∧ canonicalPair a b = pair := by
  simp only [numericPairs, List.mem_flatMap, List.mem_map, List.mem_filter, beq_iff_eq,
    decide_eq_true_eq]
  constructor
  · rintro ⟨⟨a, _, low⟩, ⟨ha, rfl⟩, ⟨b, _, high⟩, ⟨⟨hb, rfl⟩, hlt⟩, rfl⟩
    exact ⟨a, b, low, high, hlt, ha, hb, rfl⟩
  · rintro ⟨a, b, low, high, hlt, ha, hb, rfl⟩
    exact ⟨⟨a, .le, low⟩, ⟨ha, rfl⟩, ⟨b, .ge, high⟩, ⟨⟨hb, rfl⟩, hlt⟩, rfl⟩

/-- A pair of a set that holds for both orders is in the set in the canonical one. -/
theorem exists_canonical_iff {R : String → String → Prop} {a b : String} :
    (∃ c d, R c d ∧ canonicalPair c d = canonicalPair a b) ↔ R a b ∨ R b a := by
  simp only [canonicalPair_eq_iff, Sym2.eq_iff]
  constructor
  · rintro ⟨c, d, h, ⟨rfl, rfl⟩ | ⟨rfl, rfl⟩⟩
    · exact Or.inl h
    · exact Or.inr h
  · rintro (h | h)
    · exact ⟨a, b, h, Or.inl ⟨rfl, rfl⟩⟩
    · exact ⟨b, a, h, Or.inr ⟨rfl, rfl⟩⟩

/-- Opposite orders at two places, the first of them in front. -/
theorem reversed_iff {docs : List ConstraintDoc} {a b : String} :
    Reversed docs a b ↔
      ∃ c d, (∃ x y, [OrderingEntry.mk c x y, ⟨d, y, x⟩].Sublist
        ((leaves docs).filterMap orderingOf)) ∧ canonicalPair c d = canonicalPair a b := by
  rw [exists_canonical_iff (R := fun c d => ∃ x y, [OrderingEntry.mk c x y, ⟨d, y, x⟩].Sublist
    ((leaves docs).filterMap orderingOf))]
  constructor
  · rintro ⟨x, y, h⟩
    rcases pair_subperm_iff.mp h with h | h
    · exact Or.inl ⟨x, y, h⟩
    · exact Or.inr ⟨y, x, h⟩
  · rintro (⟨x, y, h⟩ | ⟨x, y, h⟩)
    · exact ⟨x, y, pair_subperm_iff.mpr (Or.inl h)⟩
    · exact ⟨y, x, pair_subperm_iff.mpr (Or.inr h)⟩

theorem mem_buildConflictPairs {docs : List ConstraintDoc} {a b : String} :
    canonicalPair a b ∈ buildConflictPairs docs ↔ Coupled docs a b := by
  have hadds := adds_collectDocs docs
  have hentries : ∀ field entry, entry ∈ (leaves docs).filterMap (numericOf field) ↔
      entry ∈ ((collectDocs docs).numerics.lookup field).getD [] := by
    intro field entry
    rw [hadds.numerics]
    simp
  have hnumerics : canonicalPair a b ∈
      ((collectDocs docs).numerics.flatMap fun field => numericPairs field.2) ↔
        Excludes docs a b ∨ Excludes docs b a := by
    rw [← exists_canonical_iff (R := Excludes docs), List.mem_flatMap]
    simp only [mem_numericPairs, Excludes, hentries]
    constructor
    · rintro ⟨⟨field, entries⟩, hfield, c, d, low, high, hlt, hc, hd, heq⟩
      have hlookup := (mem_iff_lookup (hadds.nodup List.nodup_nil)).mp hfield
      refine ⟨c, d, ⟨field, low, high, hlt, ?_, ?_⟩, heq⟩
      · rwa [hlookup]
      · rwa [hlookup]
    · rintro ⟨c, d, ⟨field, low, high, hlt, hc, hd⟩, heq⟩
      cases hlookup : (collectDocs docs).numerics.lookup field with
      | none =>
          rw [hlookup] at hc
          exact absurd hc List.not_mem_nil
      | some entries =>
          rw [hlookup] at hc hd
          exact ⟨(field, entries), (mem_iff_lookup (hadds.nodup List.nodup_nil)).mpr hlookup,
            c, d, low, high, hlt, hc, hd, heq⟩
  have horderings : canonicalPair a b ∈ orderingPairs (collectDocs docs).orderings ↔
      Reversed docs a b := by
    rw [mem_orderingPairs, hadds.orderings, List.nil_append, reversed_iff]
    constructor
    · rintro ⟨⟨c, x, y⟩, ⟨d, y', x'⟩, hsub, hreverses, heq⟩
      simp only [OrderingEntry.reverses, Bool.and_eq_true, beq_iff_eq] at hreverses
      obtain ⟨rfl, rfl⟩ := hreverses
      exact ⟨c, d, ⟨x, y, hsub⟩, heq⟩
    · rintro ⟨c, d, ⟨x, y, hsub⟩, heq⟩
      exact ⟨⟨c, x, y⟩, ⟨d, y, x⟩, hsub, by simp [OrderingEntry.reverses], heq⟩
  have hrelated : canonicalPair a b ∈ relatedPairs docs ↔ Names docs a b ∨ Names docs b a := by
    rw [← exists_canonical_iff (R := Names docs), relatedPairs]
    simp only [List.mem_flatMap, List.mem_map, Names]
    constructor
    · rintro ⟨doc, hdoc, related, hrelated, heq⟩
      exact ⟨doc.id, related, ⟨doc, hdoc, rfl, hrelated⟩, heq⟩
    · rintro ⟨c, d, ⟨doc, hdoc, rfl, hrelated⟩, heq⟩
      exact ⟨doc, hdoc, d, hrelated, heq⟩
  simp only [buildConflictPairs, List.mem_dedup, List.mem_append]
  rw [horderings, hnumerics, hrelated, Coupled, or_assoc]

/-! ## Outputs -/

/-- Two bounds that exclude each other are not met by one number. -/
theorem evalNumeric_exclusive (x : Externals) (field output : String) {low high : ℚ}
    (hlt : low < high) :
    evalNumeric x field .le low output = 0 ∨ evalNumeric x field .ge high output = 0 := by
  have hpasses : ∀ v, NumericOp.passes .le v low = false ∨ NumericOp.passes .ge v high = false := by
    intro v
    cases v with
    | finite q =>
        simp only [NumericOp.passes, decide_eq_false_iff_not, not_le]
        exact (lt_or_ge low q).imp_right fun hq => hq.trans_lt hlt
    | posInf => exact Or.inl rfl
    | negInf => exact Or.inr rfl
    | nan => exact Or.inl rfl
  unfold evalNumeric
  cases x.regexNew field with
  | none => exact Or.inl rfl
  | some re =>
      simp only
      cases re.captures output with
      | none => exact Or.inl rfl
      | some group =>
          simp only
          cases (group 1).or (group 0) with
          | none => exact Or.inl rfl
          | some number =>
              simp only
              cases x.parseF64 number with
              | none => exact Or.inl rfl
              | some v => exact (hpasses v).imp (fun h => by simp [h]) fun h => by simp [h]

theorem mem_enforcedAll {q : ConstraintPredicate} {children : List ConstraintPredicate} :
    q ∈ enforcedAll children ↔ ∃ child ∈ children, q ∈ enforced child := by
  induction children with
  | nil => simp [enforcedAll]
  | cons child rest ih => simp [enforcedAll, ih]

theorem evalSyncAll_eq_map (x : Externals) (output : String)
    (children : List ConstraintPredicate) :
    evalSyncAll x output children = children.map (evalSync x output) := by
  induction children with
  | nil => rfl
  | cons child rest ih => rw [evalSyncAll, ih, List.map_cons]

/-- A predicate does not score higher than one that it enforces. -/
theorem evalSync_le_enforced (x : Externals) (output : String) (p : ConstraintPredicate) :
    ∀ q ∈ enforced p, evalSync x output p ≤ evalSync x output q := by
  induction p using andInduction with
  | conj children ih =>
      intro q hq
      rw [enforced] at hq
      obtain ⟨child, hchild, hq⟩ := mem_enforcedAll.mp hq
      rw [evalSync, evalSyncAll_eq_map]
      have hmin := ((ScanFold.le_foldl_min_iff _ 1 _).mp
        (le_refl ((children.map (evalSync x output)).foldl min 1))).2
      exact (hmin _ (List.mem_map_of_mem hchild)).trans (ih child hchild q hq)
  | leaf p henforced _ =>
      intro q hq
      rw [henforced, List.mem_singleton] at hq
      exact hq ▸ le_rfl

/-- The first loop over the children ends at zero, or with at most the score of each. -/
theorem andStatic_le {x : Externals} {output : String} {children : List ConstraintPredicate}
    {start score : ℚ} (hstart : 0 ≤ start)
    (h : andStatic x output children start = some score) :
    0 ≤ score ∧ score ≤ start ∧
      ∀ child ∈ children, child.isAsyncLeaf = false → score ≤ evalSync x output child := by
  induction children generalizing start with
  | nil =>
      rw [andStatic, Option.some.injEq] at h
      subst h
      exact ⟨hstart, le_rfl, fun _ hmem => absurd hmem List.not_mem_nil⟩
  | cons child rest ih =>
      rw [andStatic] at h
      split at h
      next hasync =>
        obtain ⟨hlow, hle, hrest⟩ := ih hstart h
        refine ⟨hlow, hle, ?_⟩
        intro c hc hstatic
        rcases List.mem_cons.mp hc with rfl | hc
        · rw [hasync] at hstatic
          cases hstatic
        · exact hrest c hc hstatic
      next =>
        simp only [← min_def_lt] at h
        split at h
        next => cases h
        next hpos =>
          obtain ⟨hlow, hle, hrest⟩ := ih (le_of_lt (not_le.mp hpos)) h
          refine ⟨hlow, hle.trans (min_le_right _ _), ?_⟩
          intro c hc hstatic
          rcases List.mem_cons.mp hc with rfl | hc
          · exact hle.trans (min_le_left _ _)
          · exact hrest c hc hstatic

/-- The second loop only lowers the score. -/
theorem andDeferred_le (x : Externals) (output : String) (children : List ConstraintPredicate)
    (answers : Answers) (i : Nat) {minScore : ℚ} (hmin : 0 ≤ minScore) (reason : Option String) :
    (andDeferred x output children answers i minScore reason).score ≤ minScore := by
  induction children generalizing i minScore reason with
  | nil => rw [andDeferred]
  | cons child rest ih =>
      rw [andDeferred]
      split
      next =>
        simp only [← min_def_lt]
        split
        next => exact hmin
        next hpos =>
          exact (ih (i + 1) (le_of_lt (not_le.mp hpos)) _).trans (min_le_right _ _)
      next => exact ih (i + 1) hmin reason

/-- The score of a verification is at most that of every bound the constraint enforces. -/
theorem evalPredicateAsync_le_bound (x : Externals) (output field : String) (op : NumericOp)
    (value : ℚ) (p : ConstraintPredicate) (answers : Answers)
    (h : .numericThreshold field op value ∈ enforced p) :
    (evalPredicateAsync x output p answers).score ≤ evalNumeric x field op value output := by
  induction p using andInduction with
  | conj children ih =>
      rw [enforced] at h
      obtain ⟨child, hchild, hmem⟩ := mem_enforcedAll.mp h
      -- A child that a model answers enforces itself, and no bound.
      have hstatic : child.isAsyncLeaf = false := by
        cases child <;> simp_all [ConstraintPredicate.isAsyncLeaf, enforced]
      have hbound : evalSync x output child ≤ evalNumeric x field op value output :=
        evalSync_le_enforced x output child _ hmem
      rw [evalPredicateAsync]
      split
      next => exact (evalNumeric_unit x field op value output).1
      next minScore hsome =>
        obtain ⟨hlow, -, hchildren⟩ := andStatic_le zero_le_one hsome
        exact (andDeferred_le x output children answers 0 hlow none).trans
          ((hchildren child hchild hstatic).trans hbound)
  | leaf p henforced _ =>
      rw [henforced, List.mem_singleton] at h
      subst h
      rfl

theorem mem_numericEntries {docs : List ConstraintDoc} {field id : String} {op : NumericOp}
    {value : ℚ} (h : ⟨id, op, value⟩ ∈ (leaves docs).filterMap (numericOf field)) :
    ∃ doc ∈ docs, doc.id = id ∧ .numericThreshold field op value ∈ enforced doc.predicate := by
  obtain ⟨⟨id', p⟩, hleaf, hof⟩ := List.mem_filterMap.mp h
  obtain ⟨doc, hdoc, hp⟩ := List.mem_flatMap.mp hleaf
  obtain ⟨q, hq, heq⟩ := List.mem_map.mp hp
  obtain ⟨rfl, rfl⟩ := Prod.mk.inj heq
  cases q <;> simp only [numericOf, reduceCtorEq] at hof
  case numericThreshold fieldPattern op' value' =>
    split at hof
    next hfield =>
      simp only [Option.some.injEq, NumericEntry.mk.injEq] at hof
      obtain ⟨rfl, rfl, rfl⟩ := hof
      exact ⟨doc, hdoc, rfl, hfield ▸ hq⟩
    next => cases hof

theorem excludes_neverBoth {docs : List ConstraintDoc} {a b : String} (h : Excludes docs a b) :
    ∃ p ∈ docs, ∃ q ∈ docs, p.id = a ∧ q.id = b ∧ NeverBoth p.predicate q.predicate := by
  obtain ⟨field, low, high, hlt, ha, hb⟩ := h
  obtain ⟨p, hp, hpid, hple⟩ := mem_numericEntries ha
  obtain ⟨q, hq, hqid, hqge⟩ := mem_numericEntries hb
  refine ⟨p, hp, q, hq, hpid, hqid, ?_⟩
  intro x output answers answers'
  have hp₀ := evalPredicateAsync_le_bound x output field .le low p.predicate answers hple
  have hq₀ := evalPredicateAsync_le_bound x output field .ge high q.predicate answers' hqge
  exact (evalNumeric_exclusive x field output hlt).imp hp₀.trans_eq hq₀.trans_eq

/-! ## Corpora and targets -/

theorem leaves_perm {docs docs' : List ConstraintDoc} (h : docs'.Perm docs) :
    (leaves docs').Perm (leaves docs) := h.flatMap_right _

theorem coupled_of_perm {docs docs' : List ConstraintDoc} (h : docs'.Perm docs) {a b : String} :
    Coupled docs' a b ↔ Coupled docs a b := by
  have hexcludes : ∀ a b, Excludes docs' a b ↔ Excludes docs a b := by
    intro a b
    simp only [Excludes, ((leaves_perm h).filterMap _).mem_iff]
  have hreversed : Reversed docs' a b ↔ Reversed docs a b := by
    simp only [Reversed, ((leaves_perm h).filterMap _).subperm_left]
  have hnames : ∀ a b, Names docs' a b ↔ Names docs a b := by
    intro a b
    simp only [Names, h.mem_iff]
  rw [Coupled, Coupled, hreversed, hexcludes, hexcludes, hnames, hnames]

theorem areConflicting_iff {docs : List ConstraintDoc} {a b : String} :
    areConflicting (buildConflictPairs docs) a b = true ↔ Coupled docs a b := by
  rw [areConflicting, List.contains_iff_mem, mem_buildConflictPairs]

theorem canonicalPair_le (a b : String) : (canonicalPair a b).1 ≤ (canonicalPair a b).2 := by
  rw [canonicalPair]
  split
  next h => exact h
  next h => exact (le_total a b).resolve_left h

/-- Every pair of the graph is in canonical order. -/
theorem sorted_of_mem {docs : List ConstraintDoc} {pair : String × String}
    (h : pair ∈ buildConflictPairs docs) : pair.1 ≤ pair.2 := by
  have hcanonical : ∃ a b, canonicalPair a b = pair := by
    simp only [buildConflictPairs, List.mem_dedup, List.mem_append, mem_orderingPairs,
      List.mem_flatMap, mem_numericPairs, relatedPairs, List.mem_map] at h
    rcases h with (⟨a, b, -, -, heq⟩ | ⟨_, -, a, b, _, _, -, -, -, heq⟩) | ⟨doc, -, b, -, heq⟩
    · exact ⟨a.id, b.id, heq⟩
    · exact ⟨a, b, heq⟩
    · exact ⟨doc.id, b, heq⟩
  obtain ⟨a, b, rfl⟩ := hcanonical
  exact canonicalPair_le a b

theorem mem_conflictsFor {docs : List ConstraintDoc} {a b : String} :
    b ∈ conflictsFor (buildConflictPairs docs) a ↔ Coupled docs a b := by
  rw [← mem_buildConflictPairs, conflictsFor, List.mem_filterMap]
  constructor
  · rintro ⟨⟨c, d⟩, hmem, hother⟩
    have hle : c ≤ d := sorted_of_mem hmem
    have hpair : canonicalPair c d = (c, d) := by rw [canonicalPair, if_pos hle]
    rw [← hpair] at hmem
    simp only at hother
    split at hother
    next hfst =>
      rw [Option.some.injEq] at hother
      exact hfst ▸ hother ▸ hmem
    next =>
      split at hother
      next hsnd =>
        rw [Option.some.injEq] at hother
        have hswap : canonicalPair a b = canonicalPair c d :=
          canonicalPair_eq_iff.mpr (by rw [← hsnd, ← hother, Sym2.eq_swap])
        exact hswap ▸ hmem
      next => cases hother
  · intro hmem
    refine ⟨canonicalPair a b, hmem, ?_⟩
    rw [canonicalPair]
    split
    next => rw [if_pos rfl]
    next hle =>
      have hne : b ≠ a := fun heq => hle (heq ▸ le_refl _)
      rw [if_neg hne, if_pos rfl]

theorem firstConflict_some {pairs : List (String × String)} {ids : List String} {a b : String}
    (h : firstConflict pairs ids = some (a, b)) :
    [a, b].Sublist ids ∧ areConflicting pairs a b = true := by
  induction ids with
  | nil => cases h
  | cons c rest ih =>
      rw [firstConflict] at h
      split at h
      next d hd =>
        simp only [Option.some.injEq, Prod.mk.injEq] at h
        obtain ⟨rfl, rfl⟩ := h
        exact ⟨pair_sublist_cons.mpr (Or.inr ⟨rfl, List.mem_of_find?_eq_some hd⟩),
          List.find?_some hd⟩
      next =>
        obtain ⟨hsub, hconflict⟩ := ih h
        exact ⟨hsub.cons c, hconflict⟩

theorem firstConflict_none {pairs : List (String × String)} {ids : List String}
    (h : firstConflict pairs ids = none) :
    ids.Pairwise fun a b => ¬areConflicting pairs a b = true := by
  induction ids with
  | nil => exact .nil
  | cons c rest ih =>
      rw [firstConflict] at h
      split at h
      next => cases h
      next hnone =>
        rw [List.find?_eq_none] at hnone
        exact .cons hnone (ih h)

/-! ## The guarantee -/

/-- The graph, the conflicts of a constraint and the warning of a repair are those of the
corpus as a whole, and where bounds exclude each other no output passes both constraints. -/
theorem conflict_graph_exact (docs : List ConstraintDoc) :
    (∀ docs', docs'.Perm docs → ∀ a b,
      (areConflicting (buildConflictPairs docs') a b = true ↔ Coupled docs a b) ∧
        (b ∈ conflictsFor (buildConflictPairs docs') a ↔ Coupled docs a b)) ∧
      (∀ ids a b, firstConflict (buildConflictPairs docs) ids = some (a, b) →
        [a, b].Sublist ids ∧ Coupled docs a b) ∧
      (∀ ids, firstConflict (buildConflictPairs docs) ids = none →
        ids.Pairwise fun a b => ¬Coupled docs a b) ∧
      ∀ a b, Excludes docs a b →
        ∃ p ∈ docs, ∃ q ∈ docs, p.id = a ∧ q.id = b ∧ NeverBoth p.predicate q.predicate := by
  refine ⟨?_, ?_, ?_, fun a b => excludes_neverBoth⟩
  · intro docs' hperm a b
    exact ⟨areConflicting_iff.trans (coupled_of_perm hperm),
      mem_conflictsFor.trans (coupled_of_perm hperm)⟩
  · intro ids a b h
    obtain ⟨hsub, hconflict⟩ := firstConflict_some h
    exact ⟨hsub, areConflicting_iff.mp hconflict⟩
  · intro ids h
    exact (firstConflict_none h).imp fun hfree hcoupled => hfree (areConflicting_iff.mpr hcoupled)

end ControlPlane.Guarantees.ConflictGraph
