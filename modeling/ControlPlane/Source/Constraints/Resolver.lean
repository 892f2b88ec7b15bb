import ControlPlane.Lib.Entries
import ControlPlane.Source.Constraints.Types
import Mathlib.Data.List.Dedup
import Mathlib.Data.List.Sort
import Mathlib.Data.List.Nodup

/-!
# The two constraint resolvers

Embeds `ConstraintResolver` of `crates/h2ai-constraints/src/resolver.rs` over the
in-memory index and store of `source.rs`, and `from_docs`, `resolve` and
`resolve_with_semantic` of the `WikiCache` of `wiki.rs`, with `ConstraintMeta` and the
ranking of `retrieval.rs`. The BM25 score of a document for a query is a parameter (it
is computed in `f32`), and so is the order in which a hash set is walked.
-/
namespace ControlPlane.Source.Constraints

open Lib

structure ResolverParts where
  /-- `bm25_score`, of a document of the corpus for a query; a query without terms scores
  nothing. -/
  relevance : List ConstraintDoc → String → ConstraintDoc → ℚ
  walk : List String → List String
  walk_perm : ∀ ids, (walk ids).Perm ids

/-! ## Documents and their descriptors -/

inductive ConstraintTier where
  | static | light | heavy
  deriving DecidableEq, Repr

def ConstraintTier.max : ConstraintTier → ConstraintTier → ConstraintTier
  | .heavy, _ | _, .heavy => .heavy
  | .light, _ | _, .light => .light
  | .static, .static => .static

mutual

/-- `predicate_tier`: the costliest leaf decides. -/
def predicateTier : ConstraintPredicate → ConstraintTier
  | .oracleExecution .. => .heavy
  | .llmJudge _ | .semanticPresence .. | .semanticOrdering .. | .semanticExclusion .. => .light
  | .composite _ children => childrenTier children
  | _ => .static

def childrenTier : List ConstraintPredicate → ConstraintTier
  | [] => .static
  | child :: rest => (predicateTier child).max (childrenTier rest)

end

inductive PredicateKind where
  | static | llmJudge | oracle
  deriving DecidableEq, Repr

def ConstraintTier.kind : ConstraintTier → PredicateKind
  | .heavy => .oracle
  | .light => .llmJudge
  | .static => .static

structure ConstraintMeta where
  id : String
  summary : String
  severity : ConstraintSeverity
  predicateKind : PredicateKind
  domains : List String
  mandatoryForTags : List String
  relatedTo : List String
  payloadVersion : String
  inlinePredicate : Option ConstraintPredicate
  source : Option String
  lastUpdatedMs : Option Nat

/-- `ConstraintMeta::from_doc`. -/
def ConstraintMeta.fromDoc (doc : ConstraintDoc) : ConstraintMeta :=
  let kind := (predicateTier doc.predicate).kind
  { id := doc.id
    summary :=
      if doc.description.isEmpty then "Constraint " ++ doc.id ++ ": enforce compliance"
      else doc.description
    severity := doc.severity
    predicateKind := kind
    domains := doc.domains
    mandatoryForTags := doc.mandatoryForTags
    relatedTo := doc.relatedTo
    payloadVersion := "v1"
    inlinePredicate := if kind = .static then some doc.predicate else none
    source := some doc.sourceFile
    lastUpdatedMs := none }

/-- `HashMap` from ids, built from the documents in order: the last one of an id stays. -/
def docOf (docs : List ConstraintDoc) (id : String) : Option ConstraintDoc :=
  docs.reverse.find? fun doc => doc.id = id

/-! ## Tags -/

/-- What a document pushes under its domains and under its mandatory tags. -/
def tagEntries (doc : ConstraintDoc) : List (String × String) :=
  doc.domains.map (fun domain => (domain, doc.id)) ++
    doc.mandatoryForTags.map fun tag => (tag, doc.id)

/-- `tag_map` and `context_map`: the ids under each tag. -/
def tagMap (docs : List ConstraintDoc) : MultiMap String String :=
  MultiMap.ofEntries (docs.flatMap tagEntries)

/-- One of the document's domains or `mandatory_for_tags` is among the task's tags. -/
def Tagged (tags : List String) (doc : ConstraintDoc) : Prop :=
  ∃ tag ∈ tags, tag ∈ doc.domains ∨ tag ∈ doc.mandatoryForTags

theorem mem_tagMap (docs : List ConstraintDoc) (x t : String) :
    x ∈ tagMap docs t ↔
      ∃ doc ∈ docs, x = doc.id ∧ (t ∈ doc.domains ∨ t ∈ doc.mandatoryForTags) := by
  unfold tagMap tagEntries
  rw [MultiMap.mem_ofEntries, List.mem_flatMap]
  refine exists_congr fun doc => and_congr_right fun _ => ?_
  rw [List.mem_append, List.mem_map, List.mem_map]
  constructor
  · rintro (⟨domain, hdomain, heq⟩ | ⟨tag, htag, heq⟩)
    · cases heq
      exact ⟨rfl, Or.inl hdomain⟩
    · cases heq
      exact ⟨rfl, Or.inr htag⟩
  · rintro ⟨rfl, hdomain | htag⟩
    · exact Or.inl ⟨t, hdomain, rfl⟩
    · exact Or.inr ⟨t, htag, rfl⟩

/-! ## Retrieval -/

structure ConstraintCandidate where
  id : String
  score : ℚ
  deriving DecidableEq, Repr

/-- `ConstraintRetriever::query` over the index of the corpus. -/
def retrieverQuery (p : ResolverParts) (docs : List ConstraintDoc) (text : String) (topK : Nat) :
    List ConstraintCandidate :=
  if docs.isEmpty || topK == 0 then []
  else
    let scores := docs.map fun doc => (⟨doc.id, p.relevance docs text doc⟩ : ConstraintCandidate)
    ((scores.filter fun c => decide (0 < c.score)).insertionSort fun a b => b.score ≤ a.score).take
      topK

/-- `search` of the index: the ids of the candidates, best first. -/
def searchIds (p : ResolverParts) (docs : List ConstraintDoc) (query : String) (topK : Nat) :
    List String :=
  (retrieverQuery p docs query topK).map (·.id)

/-! ## The resolver over index and store -/

section Resolver

variable (p : ResolverParts) (docs : List ConstraintDoc)

/-- `find_by_ids` of `RuntimeConstraintIndex`. -/
def findByIds (ids : List String) : List String := ids.filter fun id => id ∈ docs.map (·.id)

/-- `find_by_tags` of `RuntimeConstraintIndex`: a hash set, walked. -/
def findByTags (tags : List String) : List String := p.walk (tags.flatMap (tagMap docs)).dedup

/-- `load_many`: ids without a document are skipped. -/
def loadMany (ids : List String) : List ConstraintDoc := ids.filterMap (docOf docs)

/-- The loop of the union: `seen` has the ids of `union`. -/
def pushUnseen (union ids : List String) : List String :=
  ids.foldl (fun union id => if id ∈ union then union else union ++ [id]) union

def resolvedIds (explicitIds tags : List String) (query : String) : List String :=
  if !explicitIds.isEmpty then findByIds docs explicitIds
  else if !tags.isEmpty then
    if query.isEmpty then findByTags p docs tags
    else pushUnseen (findByTags p docs tags) (searchIds p docs query 20)
  else if !query.isEmpty then searchIds p docs query 20
  else []

/-- `ConstraintResolver::resolve`. -/
def resolverResolve (explicitIds tags : List String) (query : String) : List ConstraintDoc :=
  let ids := resolvedIds p docs explicitIds tags query
  if ids.isEmpty then [] else loadMany docs ids

/-! ## The wiki -/

/-- The ids of the tag stage and the explicit ones, as a set. -/
def wikiIds (taskTags explicitIds : List String) : List String :=
  explicitIds ++ taskTags.flatMap (tagMap docs)

/-- `metas.get` of a cache made by `from_docs`. -/
def metaOf (id : String) : Option ConstraintMeta := (docOf docs id).map ConstraintMeta.fromDoc

/-- `WikiCache::resolve` on `from_docs`. -/
def wikiResolve (taskTags explicitIds : List String) : List ConstraintMeta :=
  (p.walk (wikiIds docs taskTags explicitIds).dedup).filterMap (metaOf docs)

/-- `WikiCache::resolve_with_semantic` on `from_docs`. -/
def wikiResolveWithSemantic (taskTags explicitIds : List String) (queryText : String)
    (semanticTopK : Nat) : List ConstraintMeta :=
  let hits := if queryText.isEmpty then [] else searchIds p docs queryText semanticTopK
  (p.walk (wikiIds docs taskTags explicitIds ++ hits).dedup).filterMap (metaOf docs)

end Resolver

/-! ## What is loaded -/

section Loading

variable {p : ResolverParts} {docs : List ConstraintDoc}

theorem docOf_eq_some (distinct : (docs.map (·.id)).Nodup) {id : String} {doc : ConstraintDoc} :
    docOf docs id = some doc ↔ doc ∈ docs ∧ doc.id = id := by
  unfold docOf
  constructor
  · intro h
    exact ⟨List.mem_reverse.mp (List.mem_of_find?_eq_some h), by simpa using List.find?_some h⟩
  · rintro ⟨hdoc, rfl⟩
    obtain ⟨found, hfound⟩ : ∃ found, docs.reverse.find? (fun d => d.id = doc.id) = some found := by
      rw [← Option.isSome_iff_exists, List.find?_isSome]
      exact ⟨doc, List.mem_reverse.mpr hdoc, by simp⟩
    have hmem := List.mem_reverse.mp (List.mem_of_find?_eq_some hfound)
    have hid : found.id = doc.id := by simpa using List.find?_some hfound
    rw [hfound, List.inj_on_of_nodup_map distinct hmem hdoc hid]

theorem mem_loadMany (distinct : (docs.map (·.id)).Nodup) {ids : List String}
    {doc : ConstraintDoc} : doc ∈ loadMany docs ids ↔ doc ∈ docs ∧ doc.id ∈ ids := by
  unfold loadMany
  rw [List.mem_filterMap]
  constructor
  · rintro ⟨id, hid, hdoc⟩
    obtain ⟨hmem, rfl⟩ := (docOf_eq_some distinct).mp hdoc
    exact ⟨hmem, hid⟩
  · rintro ⟨hmem, hid⟩
    exact ⟨doc.id, hid, (docOf_eq_some distinct).mpr ⟨hmem, rfl⟩⟩

theorem loadMany_nodup (distinct : (docs.map (·.id)).Nodup) {ids : List String}
    (h : ids.Nodup) : (loadMany docs ids).Nodup := by
  refine h.filterMap fun a b doc ha hb => ?_
  rw [← ((docOf_eq_some distinct).mp ha).2, ← ((docOf_eq_some distinct).mp hb).2]

theorem mem_findByTags {tags : List String} {id : String} :
    id ∈ findByTags p docs tags ↔ ∃ doc ∈ docs, doc.id = id ∧ Tagged tags doc := by
  unfold findByTags Tagged
  rw [(p.walk_perm _).mem_iff, List.mem_dedup, List.mem_flatMap]
  constructor
  · rintro ⟨tag, htag, hid⟩
    obtain ⟨doc, hdoc, rfl, hof⟩ := (mem_tagMap docs id tag).mp hid
    exact ⟨doc, hdoc, rfl, tag, htag, hof⟩
  · rintro ⟨doc, hdoc, rfl, tag, htag, hof⟩
    exact ⟨tag, htag, (mem_tagMap docs doc.id tag).mpr ⟨doc, hdoc, rfl, hof⟩⟩

theorem findByTags_nodup (tags : List String) : (findByTags p docs tags).Nodup :=
  (p.walk_perm _).nodup_iff.mpr (List.nodup_dedup _)

theorem mem_pushUnseen (union : List String) {ids : List String} {id : String} :
    id ∈ pushUnseen union ids ↔ id ∈ union ∨ id ∈ ids := by
  induction ids generalizing union with
  | nil => simp [pushUnseen]
  | cons first ids ih =>
      have hrest := ih (if first ∈ union then union else union ++ [first])
      unfold pushUnseen at hrest ⊢
      rw [List.foldl_cons, hrest]
      split_ifs with hseen
      · rw [List.mem_cons]
        constructor
        · tauto
        · rintro (h | rfl | h)
          · exact Or.inl h
          · exact Or.inl hseen
          · exact Or.inr h
      · simp [or_assoc]

theorem pushUnseen_nodup {union : List String} (h : union.Nodup) (ids : List String) :
    (pushUnseen union ids).Nodup := by
  induction ids generalizing union with
  | nil => exact h
  | cons first ids ih =>
      unfold pushUnseen at ih ⊢
      rw [List.foldl_cons]
      apply ih
      split_ifs with hseen
      · exact h
      · exact List.nodup_append.mpr ⟨h, by simp, by
          intro a ha b hb
          rw [List.mem_singleton.mp hb]
          rintro rfl
          exact hseen ha⟩

theorem searchIds_nodup (distinct : (docs.map (·.id)).Nodup) (query : String) (topK : Nat) :
    (searchIds p docs query topK).Nodup := by
  unfold searchIds retrieverQuery
  split
  · simp
  · have hscores : ((docs.map fun doc =>
        (⟨doc.id, p.relevance docs query doc⟩ : ConstraintCandidate)).map (·.id)).Nodup := by
      rw [List.map_map]
      exact distinct
    have hkept := hscores.sublist ((List.filter_sublist
      (p := fun c : ConstraintCandidate => decide (0 < c.score))).map (·.id))
    have hsorted := (((List.perm_insertionSort (fun a b : ConstraintCandidate =>
      b.score ≤ a.score) _).map (·.id)).nodup_iff).mpr hkept
    exact hsorted.sublist ((List.take_sublist _ _).map _)

theorem resolverResolve_eq (explicitIds tags : List String) (query : String) :
    resolverResolve p docs explicitIds tags query =
      loadMany docs (resolvedIds p docs explicitIds tags query) := by
  unfold resolverResolve
  dsimp only
  split
  next h => rw [List.isEmpty_iff.mp h]; rfl
  next => rfl

theorem mem_wikiResolve {taskTags explicitIds : List String} {m : ConstraintMeta} :
    m ∈ wikiResolve p docs taskTags explicitIds ↔
      ∃ id ∈ wikiIds docs taskTags explicitIds, metaOf docs id = some m := by
  unfold wikiResolve
  rw [List.mem_filterMap]
  constructor
  · rintro ⟨id, hid, hm⟩
    exact ⟨id, List.mem_dedup.mp ((p.walk_perm _).mem_iff.mp hid), hm⟩
  · rintro ⟨id, hid, hm⟩
    exact ⟨id, (p.walk_perm _).mem_iff.mpr (List.mem_dedup.mpr hid), hm⟩

end Loading

end ControlPlane.Source.Constraints
