import ControlPlane.Source.Engine.SpecRepair

/-!
# What a spec repair changes

A repaired check makes every document of the corpus pass through a minimal spec
and back. The round trip is the identity on a document exactly when its
predicate is the single judge that the minimal spec renders and its pass
criteria are its description. From this follows exactly when a `Repaired`
outcome changes nothing but the repaired check.
-/
namespace ControlPlane.Guarantees.SpecRepairFrame

open Source.Constraints Source.Engine Source.Config

/-! ## Statement -/

/-- Check line `i` of the rubric holds `new` in place of `old`. -/
def LineRewritten (i : Nat) (old new rubric rubric' : String) : Prop :=
  ∃ head tail, rubric = head ++ checkLine i old ++ tail ∧ rubric' = head ++ checkLine i new ++ tail

/-- The same tree, except that check line `i` of a judge's rubric may be rewritten. -/
inductive PredicateRewritten (i : Nat) (old new : String) :
    ConstraintPredicate → ConstraintPredicate → Prop where
  | same (p : ConstraintPredicate) : PredicateRewritten i old new p p
  | judge {rubric rubric' : String} (h : LineRewritten i old new rubric rubric') :
      PredicateRewritten i old new (.llmJudge rubric) (.llmJudge rubric')
  | composite {op : CompositeOp} {children children' : List ConstraintPredicate}
      (h : List.Forall₂ (PredicateRewritten i old new) children children') :
      PredicateRewritten i old new (.composite op children) (.composite op children')

/-- `c'` is `c` with check `i` rewritten to `r`: besides the check, its rubric line,
the version and the provenance, every field is the same. -/
structure CheckRewritten (i : Nat) (r : String) (c c' : ConstraintDoc) : Prop where
  fields : c' = { c with
    binaryChecks := c.binaryChecks.set i r
    predicate := c'.predicate
    version := c'.version
    repairProvenance := c'.repairProvenance }
  predicate : PredicateRewritten i ((c.binaryChecks[i]?).getD "") r c.predicate c'.predicate

/-- The corpus after the repair of `c` at its place between `before` and `rest`. -/
def OnlyCheckChanged (before : List ConstraintDoc) (c : ConstraintDoc)
    (rest : List ConstraintDoc) (i : Nat) (r : String) (corpus : List ConstraintDoc) : Prop :=
  ∃ c', corpus = before ++ c' :: rest ∧ CheckRewritten i r c c'

/-! ## The round trip of one document -/

/-- The document is what its minimal spec compiles to. -/
structure Minimal (d : ConstraintDoc) : Prop where
  predicate : d.predicate = .composite .and [.llmJudge (minimalSpec d).buildRubricText]
  passCriteria : d.passCriteria = if d.description.isEmpty then none else some d.description

theorem roundTrip_eq (d : ConstraintDoc) : (minimalSpec d).intoConstraintDoc = { d with
    predicate := .composite .and [.llmJudge (minimalSpec d).buildRubricText]
    passCriteria := if d.description.isEmpty then none else some d.description } := rfl

theorem roundTrip_eq_self_iff (d : ConstraintDoc) :
    (minimalSpec d).intoConstraintDoc = d ↔ Minimal d := by
  rw [roundTrip_eq]
  constructor
  · intro h
    refine ⟨?_, ?_⟩
    · exact (congrArg ConstraintDoc.predicate h).symm
    · exact (congrArg ConstraintDoc.passCriteria h).symm
  · intro h
    rw [← h.predicate, ← h.passCriteria]

/-! ## The reloaded corpus -/

/-- The spec an accepted rewrite of `c` leaves in the source. -/
def repairedSpec (c : ConstraintDoc) (i : Nat) (r : String) (provenance : RepairProvenance) :
    SemanticSpec :=
  { minimalSpec c with
    rubric := { (minimalSpec c).rubric with checks := c.binaryChecks.set i r }
    version := c.version + 1
    repairProvenance := some provenance }

/-- The provenance an accepted rewrite is stored with. -/
def acceptedProvenance (cfg : GapK1Config) (taskId : String) (c : ConstraintDoc) (i : Nat)
    (reasons : List String) (answers : RepairAnswers) (r : String) : RepairProvenance :=
  repairProvenance (repairInput taskId c i reasons) answers.nowMs r
    (probeCandidates answers.consistency 0 (generateCandidates cfg answers) (0, none)).1

theorem loadLatest_repairSource {corpus : List ConstraintDoc} {c : ConstraintDoc}
    (h : c ∈ corpus) : (repairSource corpus c).loadLatest c.id = some (minimalSpec c) := by
  have hpred : ((fun s : SemanticSpec => decide (s.id = c.id)) ∘
      fun d : ConstraintDoc => if d.id = c.id then minimalSpec c else minimalSpec d) =
      fun d => decide (d.id = c.id) := by
    funext d
    by_cases hid : d.id = c.id
    · simp [hid, minimalSpec]
    · simp [hid, minimalSpec]
  have hfound : ∃ d, corpus.find? (fun d => decide (d.id = c.id)) = some d := by
    cases hf : corpus.find? (fun d => decide (d.id = c.id)) with
    | some d => exact ⟨d, rfl⟩
    | none =>
        have hne := List.find?_eq_none.mp hf c h
        simp at hne
  obtain ⟨d, hd⟩ := hfound
  have hid : d.id = c.id := by simpa using List.find?_some hd
  simp only [repairSource, VersionedSource.newInMemory, VersionedSource.loadLatest,
    List.lookup_nil, Option.none_or, List.find?_map, hpred, hd, Option.map_some, hid, ↓reduceIte]

theorem loadAll_override (corpus : List ConstraintDoc) (c : ConstraintDoc) (spec : SemanticSpec) :
    ({ repairSource corpus c with overrides := [(c.id, spec)] } : VersionedSource).loadAll =
      corpus.map fun d => if d.id = c.id then spec else minimalSpec d := by
  simp only [VersionedSource.loadAll, repairSource, VersionedSource.newInMemory, List.map_map]
  apply List.map_congr_left
  intro d _
  by_cases hid : d.id = c.id
  · simp [hid, minimalSpec]
  · have hne : (d.id == c.id) = false := by simpa using hid
    simp [hid, minimalSpec, List.lookup_cons, hne]

/-- The fresh source holds the version the repair expects, so the write succeeds. -/
theorem createNextVersion_repairSource {corpus : List ConstraintDoc} {c : ConstraintDoc}
    (h : c ∈ corpus) (spec : SemanticSpec) (provenance : RepairProvenance) :
    (repairSource corpus c).createNextVersion c.id c.version spec provenance =
      some (c.version + 1, { repairSource corpus c with
        overrides := [(c.id, { spec with
          version := c.version + 1, repairProvenance := some provenance })] }) := by
  have hlatest := loadLatest_repairSource h
  simp only [VersionedSource.createNextVersion, hlatest, Option.map_some, Option.getD_some]
  exact if_pos rfl

/-- A `Repaired` outcome rewrote an existing check, and this is what it left. -/
theorem advisorRun_repaired {cfg : GapK1Config} {taskId : String} {corpus : List ConstraintDoc}
    {c : ConstraintDoc} (h : c ∈ corpus) {i : Nat} {reasons : List String}
    {answers : RepairAnswers} {v : Nat} {r : String}
    (accepted : (advisorRun cfg (repairInput taskId c i reasons) (repairSource corpus c)
      answers).1 = .repaired v r) :
    i < c.binaryChecks.length ∧
      (advisorRun cfg (repairInput taskId c i reasons) (repairSource corpus c) answers).2 =
        { repairSource corpus c with overrides := [(c.id, repairedSpec c i r
          (acceptedProvenance cfg taskId c i reasons answers r))] } := by
  have hlatest : (repairSource corpus c).loadLatest (repairInput taskId c i reasons).constraintId =
      some (minimalSpec c) := loadLatest_repairSource h
  unfold advisorRun at accepted ⊢
  dsimp only at accepted ⊢
  split at accepted
  · cases accepted
  · split at accepted
    · cases accepted
    · split at accepted
      · cases accepted
      · rename_i hcands hbest _ rewrite hrewrite
        rw [hlatest] at accepted
        simp only at accepted
        split at accepted
        · rename_i hindex
          simp only [hcands, hbest, hlatest, hindex, ↓reduceIte, Bool.false_eq_true]
          unfold writeRepair at accepted ⊢
          rw [show (repairInput taskId c i reasons).constraintId = c.id from rfl,
            show (repairInput taskId c i reasons).currentVersion = c.version from rfl,
            createNextVersion_repairSource h] at accepted ⊢
          simp only [RepairOutcome.repaired.injEq] at accepted
          obtain ⟨-, rfl⟩ := accepted
          exact ⟨hindex, rfl⟩
        · cases accepted

/-- The corpus a `Repaired` outcome reloads, document by document. -/
theorem repairCorpus_repaired {cfg : GapK1Config} {taskId : String} {corpus : List ConstraintDoc}
    {c : ConstraintDoc} (h : c ∈ corpus) {i : Nat} {reasons : List String}
    {answers : RepairAnswers} {v : Nat} {r : String}
    (accepted : (repairCorpus cfg taskId corpus c i reasons answers).1 = .repaired v r) :
    i < c.binaryChecks.length ∧
      (repairCorpus cfg taskId corpus c i reasons answers).2 = corpus.map fun d =>
        if d.id = c.id then
          (repairedSpec c i r (acceptedProvenance cfg taskId c i reasons answers
            r)).intoConstraintDoc
        else (minimalSpec d).intoConstraintDoc := by
  unfold repairCorpus at accepted ⊢
  dsimp only at accepted ⊢
  cases hout : (advisorRun cfg (repairInput taskId c i reasons) (repairSource corpus c)
      answers).1 with
  | failed bestScore => rw [hout] at accepted; cases accepted
  | repaired version rewrite =>
      rw [hout] at accepted
      simp only [RepairOutcome.repaired.injEq] at accepted
      obtain ⟨-, rfl⟩ := accepted
      obtain ⟨hindex, hsource⟩ := advisorRun_repaired h hout
      refine ⟨hindex, ?_⟩
      simp only [hsource, loadAll_override, List.map_map]
      apply List.map_congr_left
      intro d _
      simp only [Function.comp_apply]
      split <;> rfl

/-! ## The repaired document -/

/-- Rewriting check `i` of a list rewrites its line and no other text. -/
theorem checkLines_set {checks : List String} {i : Nat} (hi : i < checks.length) (start : Nat)
    (r : String) : ∃ head tail,
      checkLines start checks =
        head ++ checkLine (start + i) ((checks[i]?).getD "") ++ tail ∧
      checkLines start (checks.set i r) = head ++ checkLine (start + i) r ++ tail := by
  induction checks generalizing i start with
  | nil => simp at hi
  | cons check rest ih =>
      cases i with
      | zero =>
          refine ⟨"", checkLines (start + 1) rest, ?_, ?_⟩
          · simp [checkLines]
          · simp [checkLines]
      | succ i =>
          have hi' : i < rest.length := by simpa using hi
          obtain ⟨head, tail, hold, hnew⟩ := ih hi' (start + 1)
          have hnum : start + 1 + i = start + (i + 1) := by omega
          rw [hnum] at hold hnew
          refine ⟨checkLine start check ++ head, tail, ?_, ?_⟩
          · simp only [checkLines, hold, List.getElem?_cons_succ, String.append_assoc]
          · simp only [checkLines, List.set_cons_succ, hnew, String.append_assoc]

/-- The judge of a minimal document is rewritten in its check line only. -/
theorem rubric_lineRewritten {c : ConstraintDoc} {i : Nat} (hi : i < c.binaryChecks.length)
    (r : String) (provenance : RepairProvenance) :
    LineRewritten i ((c.binaryChecks[i]?).getD "") r (minimalSpec c).buildRubricText
      (repairedSpec c i r provenance).buildRubricText := by
  obtain ⟨head, tail, hold, hnew⟩ := checkLines_set hi 0 r
  rw [Nat.zero_add] at hold hnew
  have hne : c.binaryChecks ≠ [] := by
    rintro hnil
    simp [hnil] at hi
  have hne' : c.binaryChecks.set i r ≠ [] := by
    intro hnil
    have hlen := congrArg List.length hnil
    simp only [List.length_set, List.length_nil] at hlen
    omega
  refine ⟨(minimalSpec c).rubricHead ++ "\n\nBinary compliance checks — evaluate each in order:" ++
    head, tail ++ scoreFormula c.binaryChecks.length ++ (minimalSpec c).rubricTail, ?_, ?_⟩
  · simp only [SemanticSpec.buildRubricText, checkSection, minimalSpec, List.isEmpty_iff, hne,
      ↓reduceIte, hold, String.append_assoc]
  · simp only [SemanticSpec.buildRubricText, checkSection, repairedSpec, minimalSpec,
      List.isEmpty_iff, hne', ↓reduceIte, hnew, List.length_set, String.append_assoc]
    rfl

theorem predicateRewritten_single_judge_iff {i : Nat} {old new rubric' : String}
    {p : ConstraintPredicate} :
    PredicateRewritten i old new p (.composite .and [.llmJudge rubric']) ↔
      ∃ rubric, p = .composite .and [.llmJudge rubric] ∧
        (rubric = rubric' ∨ LineRewritten i old new rubric rubric') := by
  constructor
  · intro h
    cases h with
    | same => exact ⟨rubric', rfl, Or.inl rfl⟩
    | composite hchildren =>
        cases hchildren with
        | cons hchild hrest =>
            cases hrest
            cases hchild with
            | same => exact ⟨rubric', rfl, Or.inl rfl⟩
            | judge hline => exact ⟨_, rfl, Or.inr hline⟩
  · rintro ⟨rubric, rfl, rfl | hline⟩
    · exact .same _
    · exact .composite (.cons (.judge hline) .nil)

theorem checkRewritten_repaired_iff (c : ConstraintDoc) (i : Nat) (r : String)
    (provenance : RepairProvenance) :
    CheckRewritten i r c (repairedSpec c i r provenance).intoConstraintDoc ↔
      c.passCriteria = (if c.description.isEmpty then none else some c.description) ∧
        ∃ rubric, c.predicate = .composite .and [.llmJudge rubric] ∧
          (rubric = (repairedSpec c i r provenance).buildRubricText ∨
            LineRewritten i ((c.binaryChecks[i]?).getD "") r rubric
              (repairedSpec c i r provenance).buildRubricText) := by
  constructor
  · intro h
    refine ⟨?_, predicateRewritten_single_judge_iff.mp h.predicate⟩
    exact (congrArg ConstraintDoc.passCriteria h.fields).symm
  · rintro ⟨hpass, hjudge⟩
    refine ⟨?_, predicateRewritten_single_judge_iff.mpr hjudge⟩
    rw [hpass]
    rfl

/-- When a repair of check `i` of `c` leaves the rest alone: every other document
is minimal, none of them repeats the id of `c`, unless it already is the repaired
document, and `c` itself is one judge whose rubric is the rendered one up to its
check line. -/
structure RepairSafe (before : List ConstraintDoc) (c : ConstraintDoc)
    (rest : List ConstraintDoc) (i : Nat) (r : String) (provenance : RepairProvenance) :
    Prop where
  others : ∀ d ∈ before ++ rest, d.id ≠ c.id → Minimal d
  copies : ∀ d ∈ rest, d.id = c.id → d = (repairedSpec c i r provenance).intoConstraintDoc
  passCriteria : c.passCriteria = if c.description.isEmpty then none else some c.description
  judge : ∃ rubric, c.predicate = .composite .and [.llmJudge rubric] ∧
    (rubric = (repairedSpec c i r provenance).buildRubricText ∨
      LineRewritten i ((c.binaryChecks[i]?).getD "") r rubric
        (repairedSpec c i r provenance).buildRubricText)

/-- A corpus of minimal documents with distinct ids is safe for every repair. -/
theorem repairSafe_of_minimal {before rest : List ConstraintDoc} {c : ConstraintDoc} {i : Nat}
    (hi : i < c.binaryChecks.length) (minimal : ∀ d ∈ before ++ c :: rest, Minimal d)
    (distinct : ∀ d ∈ rest, d.id ≠ c.id) (r : String) (provenance : RepairProvenance) :
    RepairSafe before c rest i r provenance := by
  have hc : Minimal c := minimal c (by simp)
  refine ⟨?_, ?_, hc.passCriteria, ?_⟩
  · intro d hd _
    apply minimal d
    rcases List.mem_append.mp hd with hbefore | hrest
    · exact List.mem_append_left _ hbefore
    · exact List.mem_append_right _ (List.mem_cons_of_mem _ hrest)
  · intro d hd hid
    exact absurd hid (distinct d hd)
  · exact ⟨_, hc.predicate, Or.inr (rubric_lineRewritten hi r provenance)⟩

theorem map_eq_self_iff {f : ConstraintDoc → ConstraintDoc} (docs : List ConstraintDoc) :
    docs.map f = docs ↔ ∀ d ∈ docs, f d = d := by
  conv_lhs => rhs; rw [← List.map_id docs]
  exact List.map_inj_left

/-- **Spec repair changes only the repaired check** exactly on safe corpora. -/
theorem spec_repair_frame_iff (cfg : GapK1Config) (taskId : String)
    (before : List ConstraintDoc) (c : ConstraintDoc) (rest : List ConstraintDoc) (i : Nat)
    (reasons : List String) (answers : RepairAnswers) (v : Nat) (r : String)
    (first : ∀ d ∈ before, d.id ≠ c.id)
    (accepted : (repairCorpus cfg taskId (before ++ c :: rest) c i reasons answers).1 =
      .repaired v r) :
    OnlyCheckChanged before c rest i r
        (repairCorpus cfg taskId (before ++ c :: rest) c i reasons answers).2 ↔
      RepairSafe before c rest i r (acceptedProvenance cfg taskId c i reasons answers r) := by
  have hmem : c ∈ before ++ c :: rest := by simp
  obtain ⟨-, hreload⟩ := repairCorpus_repaired hmem accepted
  generalize acceptedProvenance cfg taskId c i reasons answers r = provenance at hreload ⊢
  rw [hreload, List.map_append, List.map_cons]
  simp only [↓reduceIte]
  constructor
  · rintro ⟨c', hcorpus, hc'⟩
    obtain ⟨hbefore, htail⟩ := List.append_inj hcorpus (by simp)
    obtain ⟨rfl, hrest⟩ := List.cons.inj htail
    obtain ⟨hpass, hjudge⟩ := (checkRewritten_repaired_iff c i r provenance).mp hc'
    refine ⟨?_, ?_, hpass, hjudge⟩
    · intro d hd hid
      rcases List.mem_append.mp hd with hb | hr
      · have heq := (map_eq_self_iff before).mp hbefore d hb
        simp only [hid, ↓reduceIte] at heq
        exact (roundTrip_eq_self_iff d).mp heq
      · have heq := (map_eq_self_iff rest).mp hrest d hr
        simp only [hid, ↓reduceIte] at heq
        exact (roundTrip_eq_self_iff d).mp heq
    · intro d hd hid
      have heq := (map_eq_self_iff rest).mp hrest d hd
      simp only [hid, ↓reduceIte] at heq
      exact heq.symm
  · intro safe
    refine ⟨(repairedSpec c i r provenance).intoConstraintDoc, ?_,
      (checkRewritten_repaired_iff c i r provenance).mpr ⟨safe.passCriteria, safe.judge⟩⟩
    have hother : ∀ d ∈ before ++ rest, d.id ≠ c.id → (minimalSpec d).intoConstraintDoc = d :=
      fun d hd hid => (roundTrip_eq_self_iff d).mpr (safe.others d hd hid)
    congr 1
    · apply (map_eq_self_iff before).mpr
      intro d hd
      have hid := first d hd
      simp only [hid, ↓reduceIte]
      exact hother d (List.mem_append_left _ hd) hid
    · congr 1
      apply (map_eq_self_iff rest).mpr
      intro d hd
      by_cases hid : d.id = c.id
      · simp only [hid, ↓reduceIte]
        exact (safe.copies d hd hid).symm
      · simp only [hid, ↓reduceIte]
        exact hother d (List.mem_append_right _ hd) hid

section Example

def repairConfig : GapK1Config := ⟨true, true, 1 / 2, 7 / 10, 3, 3⟩

def rewriteAnswers : RepairAnswers :=
  { reply := some "Tokens expire within 15 minutes"
    consistency := fun _ => 9 / 10
    nowMs := 1700000000000 }

def tokenSpec : ConstraintDoc :=
  { id := "C-TOKEN"
    sourceFile := "tokens.yaml"
    description := "short-lived tokens"
    severity := .hard (8 / 10)
    predicate := .llmJudge ""
    remediationHint := none
    domains := []
    mandatoryForTags := []
    relatedTo := []
    binaryChecks := ["Tokens are short-lived or rotated"]
    version := 1
    repairProvenance := none
    passCriteria := some "short-lived tokens" }

/-- The document whose check is ambiguous, in minimal form. -/
def tokenDoc : ConstraintDoc := (minimalSpec tokenSpec).intoConstraintDoc

/-- Another document of the corpus: an exclusion in front of its judge. -/
def secretDoc : ConstraintDoc :=
  { tokenSpec with
    id := "C-SECRET"
    description := "no plaintext secrets"
    predicate := .composite .and
      [.semanticExclusion "stores a secret in plain text" 3, .llmJudge "no plaintext secrets"]
    binaryChecks := []
    passCriteria := none }

def andWidth : ConstraintPredicate → Nat
  | .composite .and children => children.length
  | _ => 0

theorem token_repair_accepted :
    (repairCorpus repairConfig "task" [tokenDoc] tokenDoc 0 [] rewriteAnswers).1 =
      .repaired 2 "Tokens expire within 15 minutes" := by
  decide +kernel

/-- The repair of one check drops the exclusion of an unrelated document. -/
theorem repair_drops_exclusion :
    (repairCorpus repairConfig "task" [tokenDoc, secretDoc] tokenDoc 0 [] rewriteAnswers).1 =
        .repaired 2 "Tokens expire within 15 minutes" ∧
      ¬ OnlyCheckChanged [] tokenDoc [secretDoc] 0 "Tokens expire within 15 minutes"
        (repairCorpus repairConfig "task" [tokenDoc, secretDoc] tokenDoc 0 []
          rewriteAnswers).2 := by
  refine ⟨by decide +kernel, ?_⟩
  rintro ⟨c', hcorpus, -⟩
  have hwidth : (repairCorpus repairConfig "task" [tokenDoc, secretDoc] tokenDoc 0 []
      rewriteAnswers).2.map (fun d => andWidth d.predicate) = [1, 1] := by decide +kernel
  rw [hcorpus] at hwidth
  simp [secretDoc, andWidth] at hwidth

/-- Alone in its corpus, the minimal document is repaired in place. -/
theorem minimal_corpus_repair :
    OnlyCheckChanged [] tokenDoc [] 0 "Tokens expire within 15 minutes"
      (repairCorpus repairConfig "task" [tokenDoc] tokenDoc 0 [] rewriteAnswers).2 := by
  have hminimal : Minimal tokenDoc := ⟨rfl, rfl⟩
  refine (spec_repair_frame_iff repairConfig "task" [] tokenDoc [] 0 [] rewriteAnswers 2
    "Tokens expire within 15 minutes" (by simp) token_repair_accepted).mpr ?_
  exact repairSafe_of_minimal (by decide) (by simpa using hminimal) (by simp) _ _

end Example

end ControlPlane.Guarantees.SpecRepairFrame
