import ControlPlane.Source.Constraints.Resolver

/-!
# Mandatory constraints

Without explicit ids the resolver keeps the tag stage of the wiki, and with a query it
selects what the wiki's two stages select. Explicit ids replace the selection: neither
tags nor query are looked at.
-/
namespace ControlPlane.Guarantees.MandatoryConstraints

open Source.Constraints

variable {p : ResolverParts} {docs : List ConstraintDoc}

theorem mem_resolve (distinct : (docs.map (·.id)).Nodup) {explicitIds tags : List String}
    {query : String} {doc : ConstraintDoc} :
    doc ∈ resolverResolve p docs explicitIds tags query ↔
      doc ∈ docs ∧ doc.id ∈ resolvedIds p docs explicitIds tags query := by
  rw [resolverResolve_eq, mem_loadMany distinct]

theorem tagged_of_same_id (distinct : (docs.map (·.id)).Nodup) {doc other : ConstraintDoc}
    (hdoc : doc ∈ docs) (hother : other ∈ docs) (hid : other.id = doc.id) {tags : List String}
    (h : Tagged tags other) : Tagged tags doc := by
  rwa [← List.inj_on_of_nodup_map distinct hother hdoc hid]

/-- What is selected without explicit ids: the tag stage and the hits of the query. -/
theorem mem_resolvedIds_nil {tags : List String} {query id : String} :
    id ∈ resolvedIds p docs [] tags query ↔
      (∃ doc ∈ docs, doc.id = id ∧ Tagged tags doc) ∨
        query.isEmpty = false ∧ id ∈ searchIds p docs query 20 := by
  cases tags with
  | nil => cases hquery : query.isEmpty <;> simp [resolvedIds, Tagged, hquery]
  | cons tag tags =>
      cases hquery : query.isEmpty with
      | true => simp [resolvedIds, hquery, mem_findByTags]
      | false => simp [resolvedIds, hquery, mem_findByTags, mem_pushUnseen]

theorem resolvedIds_nil_nodup (distinct : (docs.map (·.id)).Nodup) (tags : List String)
    (query : String) : (resolvedIds p docs [] tags query).Nodup := by
  unfold resolvedIds
  rw [List.isEmpty_nil, Bool.not_true, if_neg Bool.false_ne_true]
  split_ifs with htags hquery hsearch
  · exact findByTags_nodup tags
  · exact pushUnseen_nodup (findByTags_nodup tags) _
  · exact searchIds_nodup distinct query 20
  · exact List.nodup_nil

/-- The documents of the wiki are those of the corpus under the same ids. -/
theorem wiki_document (distinct : (docs.map (·.id)).Nodup) {taskTags explicitIds : List String}
    {m : ConstraintMeta} (h : m ∈ wikiResolve p docs taskTags explicitIds) :
    ∃ doc ∈ docs, m = ConstraintMeta.fromDoc doc ∧
      (doc.id ∈ explicitIds ∨ Tagged taskTags doc) := by
  obtain ⟨id, hid, hm⟩ := mem_wikiResolve.mp h
  obtain ⟨doc, hof, rfl⟩ := Option.map_eq_some_iff.mp hm
  obtain ⟨hdoc, rfl⟩ := (docOf_eq_some distinct).mp hof
  refine ⟨doc, hdoc, rfl, ?_⟩
  rcases List.mem_append.mp hid with hexplicit | htagged
  · exact Or.inl hexplicit
  · obtain ⟨tag, htag, hmem⟩ := List.mem_flatMap.mp htagged
    obtain ⟨other, hother, hsame, hof'⟩ := (mem_tagMap docs doc.id tag).mp hmem
    exact Or.inr (tagged_of_same_id distinct hdoc hother hsame.symm ⟨tag, htag, hof'⟩)

/-- Without explicit ids no mandatory constraint is skipped. -/
structure TagStageKept (p : ResolverParts) (docs : List ConstraintDoc) (tags : List String)
    (query : String) : Prop where
  mandatory : ∀ doc ∈ docs, Tagged tags doc → doc ∈ resolverResolve p docs [] tags query
  once : (resolverResolve p docs [] tags query).Nodup
  wiki : ∀ m ∈ wikiResolve p docs tags [],
    ∃ doc ∈ resolverResolve p docs [] tags query, m = ConstraintMeta.fromDoc doc

/-- With explicit ids the result is what they name. -/
structure ExplicitSelection (p : ResolverParts) (docs : List ConstraintDoc)
    (explicitIds tags : List String) (query : String) : Prop where
  named : ∀ doc, doc ∈ resolverResolve p docs explicitIds tags query ↔
    doc ∈ docs ∧ doc.id ∈ explicitIds
  once : explicitIds.Nodup → (resolverResolve p docs explicitIds tags query).Nodup
  wiki : ∀ m ∈ wikiResolve p docs [] explicitIds,
    ∃ doc ∈ resolverResolve p docs explicitIds tags query, m = ConstraintMeta.fromDoc doc

theorem tagStageKept (distinct : (docs.map (·.id)).Nodup) (tags : List String) (query : String) :
    TagStageKept p docs tags query := by
  have hmandatory : ∀ doc ∈ docs, Tagged tags doc →
      doc ∈ resolverResolve p docs [] tags query := by
    intro doc hdoc htagged
    exact (mem_resolve distinct).mpr
      ⟨hdoc, mem_resolvedIds_nil.mpr (Or.inl ⟨doc, hdoc, rfl, htagged⟩)⟩
  refine ⟨hmandatory, ?_, ?_⟩
  · rw [resolverResolve_eq]
    exact loadMany_nodup distinct (resolvedIds_nil_nodup distinct tags query)
  · intro m hm
    obtain ⟨doc, hdoc, rfl, hexplicit | htagged⟩ := wiki_document distinct hm
    · cases hexplicit
    · exact ⟨doc, hmandatory doc hdoc htagged, rfl⟩

theorem explicitSelection (distinct : (docs.map (·.id)).Nodup) {explicitIds : List String}
    (given : explicitIds ≠ []) (tags : List String) (query : String) :
    ExplicitSelection p docs explicitIds tags query := by
  have hids : resolvedIds p docs explicitIds tags query = findByIds docs explicitIds := by
    unfold resolvedIds
    rw [if_pos]
    simpa using given
  have hnamed : ∀ doc, doc ∈ resolverResolve p docs explicitIds tags query ↔
      doc ∈ docs ∧ doc.id ∈ explicitIds := by
    intro doc
    rw [mem_resolve distinct, hids, findByIds, List.mem_filter]
    constructor
    · rintro ⟨hdoc, hid, _⟩
      exact ⟨hdoc, hid⟩
    · rintro ⟨hdoc, hid⟩
      exact ⟨hdoc, hid, by simpa using ⟨doc, hdoc, rfl⟩⟩
  refine ⟨hnamed, fun honce => ?_, fun m hm => ?_⟩
  · rw [resolverResolve_eq, hids]
    exact loadMany_nodup distinct (honce.filter _)
  · obtain ⟨doc, hdoc, rfl, hexplicit | ⟨tag, htag, _⟩⟩ := wiki_document distinct hm
    · exact ⟨doc, (hnamed doc).mpr ⟨hdoc, hexplicit⟩, rfl⟩
    · cases htag

/-- Without explicit ids the resolver selects what the two stages of the wiki select. -/
theorem resolve_semantic (distinct : (docs.map (·.id)).Nodup) (tags : List String)
    (query : String) (m : ConstraintMeta) :
    m ∈ wikiResolveWithSemantic p docs tags [] query 20 ↔
      m ∈ (resolverResolve p docs [] tags query).map ConstraintMeta.fromDoc := by
  have hselected : ∀ doc ∈ docs,
      (doc.id ∈ wikiIds docs tags [] ++
          (if query.isEmpty then [] else searchIds p docs query 20) ↔
        doc.id ∈ resolvedIds p docs [] tags query) := by
    intro doc hdoc
    rw [mem_resolvedIds_nil, List.mem_append]
    refine or_congr ?_ (by cases query.isEmpty <;> simp)
    unfold wikiIds
    rw [List.nil_append, List.mem_flatMap]
    constructor
    · rintro ⟨tag, htag, hmem⟩
      obtain ⟨other, hother, hsame, hof⟩ := (mem_tagMap docs doc.id tag).mp hmem
      exact ⟨other, hother, hsame.symm, tag, htag, hof⟩
    · rintro ⟨other, hother, hsame, tag, htag, hof⟩
      exact ⟨tag, htag, (mem_tagMap docs doc.id tag).mpr ⟨other, hother, hsame.symm, hof⟩⟩
  unfold wikiResolveWithSemantic
  dsimp only
  rw [List.mem_filterMap, List.mem_map]
  constructor
  · rintro ⟨id, hid, hm⟩
    obtain ⟨doc, hof, rfl⟩ := Option.map_eq_some_iff.mp hm
    obtain ⟨hdoc, rfl⟩ := (docOf_eq_some distinct).mp hof
    have hsel := (hselected doc hdoc).mp (List.mem_dedup.mp ((p.walk_perm _).mem_iff.mp hid))
    exact ⟨doc, (mem_resolve distinct).mpr ⟨hdoc, hsel⟩, rfl⟩
  · rintro ⟨doc, hdoc, rfl⟩
    obtain ⟨hmem, hsel⟩ := (mem_resolve distinct).mp hdoc
    refine ⟨doc.id, ?_, ?_⟩
    · exact (p.walk_perm _).mem_iff.mpr (List.mem_dedup.mpr ((hselected doc hmem).mpr hsel))
    · unfold metaOf
      rw [(docOf_eq_some distinct).mpr ⟨hmem, rfl⟩]
      rfl

/-! ## A corpus of two -/

def insertionParts : ResolverParts := ⟨fun _ _ _ => 0, id, fun _ => List.Perm.refl _⟩

def plainDoc (id : String) (domains : List String) : ConstraintDoc :=
  { id := id
    sourceFile := id
    description := ""
    severity := .hard (1 / 2)
    predicate := .composite .and [.llmJudge "rubric"]
    remediationHint := none
    domains := domains
    mandatoryForTags := []
    relatedTo := []
    binaryChecks := []
    version := 1
    repairProvenance := none
    passCriteria := none }

end ControlPlane.Guarantees.MandatoryConstraints
