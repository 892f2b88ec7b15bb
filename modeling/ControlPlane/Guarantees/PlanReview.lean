import ControlPlane.Guarantees.KahnWaves
import ControlPlane.Lib.Sequences
import ControlPlane.Source.Planning.Compound
import Mathlib.Data.Set.Function

/-!
# The plan review and the scheduler find the same cycles

`dfs` keeps two invariants: a black subtask is accessible (no infinite chain of
dependencies starts at it), and every gray subtask leads to the one being visited.
So `detect_cycle` returns `None` exactly on acyclic plans. The plans of `build_plan`
name all their dependencies, hence it agrees with `topo_waves` on them.
-/
namespace ControlPlane.Guarantees.PlanReview

open Lib Source.Planning KahnWaves

section Search

variable {subtasks : List Subtask}

/-- What a visit keeps: the gray subtasks stay the same and the black ones black. -/
structure Kept (color color' : Fin subtasks.length → Color) : Prop where
  gray : ∀ i, color' i = .gray ↔ color i = .gray
  black : ∀ i, color i = .black → color' i = .black

theorem Kept.refl (color : Fin subtasks.length → Color) : Kept color color :=
  ⟨fun _ => Iff.rfl, fun _ h => h⟩

theorem Kept.trans {first second third : Fin subtasks.length → Color} (h : Kept first second)
    (h' : Kept second third) : Kept first third :=
  ⟨fun i => (h'.gray i).trans (h.gray i), fun i hi => h'.black i (h.black i hi)⟩

theorem Kept.white {color color' : Fin subtasks.length → Color} (h : Kept color color')
    {i : Fin subtasks.length} (hi : color' i = .white) : color i = .white := by
  cases hcolor : color i with
  | white => rfl
  | gray => simp [(h.gray i).mpr hcolor] at hi
  | black => simp [h.black i hcolor] at hi

def whites (color : Fin subtasks.length → Color) : Nat :=
  (Finset.univ.filter fun i => color i = .white).card

theorem Kept.whites_le {color color' : Fin subtasks.length → Color} (h : Kept color color') :
    whites color' ≤ whites color := by
  apply Finset.card_le_card
  intro i hi
  simp only [Finset.mem_filter, Finset.mem_univ, true_and] at hi ⊢
  exact h.white hi

theorem whites_update_lt {color : Fin subtasks.length → Color} {v : Fin subtasks.length}
    (hv : color v = .white) : whites (Function.update color v .gray) < whites color := by
  apply Finset.card_lt_card
  rw [Finset.ssubset_iff_of_subset]
  · refine ⟨v, by simp [hv], by simp⟩
  · intro i hi
    simp only [Finset.mem_filter, Finset.mem_univ, true_and] at hi ⊢
    by_cases hsame : i = v
    · subst hsame
      exact hv
    · rwa [Function.update_of_ne hsame] at hi

/-- No infinite chain of dependencies starts at a black subtask. -/
def BlackSafe (color : Fin subtasks.length → Color) : Prop :=
  ∀ i, color i = .black → Acc (flip (Edge subtasks)) i

/-- What a visit may say: a cycle, if it found one; otherwise more black subtasks. -/
structure Visited (color : Fin subtasks.length → Color) (found : Bool)
    (color' : Fin subtasks.length → Color) : Prop where
  cycle : found = true → ¬ Acyclic (Edge subtasks)
  kept : found = false → Kept color color'
  safe : found = false → BlackSafe color'

/-- The specification of `dfs` for at most `bound` white subtasks. -/
def VisitSpec (visit : Fin subtasks.length → (Fin subtasks.length → Color) →
    Option (Bool × (Fin subtasks.length → Color))) (bound : Nat) : Prop :=
  ∀ u color, color u = .white → whites color ≤ bound → BlackSafe color →
    (∀ g, color g = .gray → Relation.TransGen (Edge subtasks) g u) →
    ∃ found color', visit u color = some (found, color') ∧ Visited color found color' ∧
      (found = false → color' u = .black)

/-- All dependencies that the list names are black. -/
def DepsBlack (deps : List SubtaskId) (color : Fin subtasks.length → Color) : Prop :=
  ∀ d ∈ deps, ∀ u, idToIdx subtasks d = some u → color u = .black

theorem DepsBlack.cons {d : SubtaskId} {rest : List SubtaskId} {u : Fin subtasks.length}
    {color : Fin subtasks.length → Color} (hidx : idToIdx subtasks d = some u)
    (hu : color u = .black) (hrest : DepsBlack rest color) : DepsBlack (d :: rest) color := by
  refine List.forall_mem_cons.mpr ⟨?_, hrest⟩
  intro u' hu'
  rw [hidx, Option.some.injEq] at hu'
  subst hu'
  exact hu

theorem visitDeps_spec {visit : Fin subtasks.length → (Fin subtasks.length → Color) →
    Option (Bool × (Fin subtasks.length → Color))} {bound : Nat}
    (hvisit : VisitSpec visit bound) (v : Fin subtasks.length) (deps : List SubtaskId)
    (hdeps : ∀ d ∈ deps, d ∈ (subtasks.get v).dependsOn) {color : Fin subtasks.length → Color}
    (hwhites : whites color ≤ bound) (hsafe : BlackSafe color)
    (hgray : ∀ g, color g = .gray → Relation.ReflTransGen (Edge subtasks) g v) :
    ∃ found color', visitDeps subtasks visit deps color = some (found, color') ∧
      Visited color found color' ∧
      (found = false → DepsBlack deps color') := by
  induction deps generalizing color with
  | nil =>
      exact ⟨false, color, rfl, ⟨by simp, fun _ => Kept.refl color, fun _ => hsafe⟩,
        by simp [DepsBlack]⟩
  | cons d rest ih =>
      have hrest : ∀ d ∈ rest, d ∈ (subtasks.get v).dependsOn :=
        fun d hd => hdeps d (List.mem_cons_of_mem _ hd)
      cases hidx : idToIdx subtasks d with
      | none =>
          obtain ⟨found, color', hresult, hvisited, hblack⟩ := ih hrest hwhites hsafe hgray
          refine ⟨found, color', by simp only [visitDeps, hidx, hresult], hvisited, ?_⟩
          intro hfound
          exact List.forall_mem_cons.mpr ⟨by simp [hidx], hblack hfound⟩
      | some u =>
          have hedge : Edge subtasks v u := ⟨d, hdeps d List.mem_cons_self, hidx⟩
          cases hcolor : color u with
          | gray =>
              -- the gray subtask leads back to `v`
              have hcycle := Relation.TransGen.tail' (hgray u hcolor) hedge
              refine ⟨true, color, by simp only [visitDeps, hidx, hcolor], ⟨?_, by simp, by simp⟩,
                by simp⟩
              intro _ acyclic
              exact acyclic u hcycle
          | black =>
              obtain ⟨found, color', hresult, hvisited, hblack⟩ := ih hrest hwhites hsafe hgray
              refine ⟨found, color', by simp only [visitDeps, hidx, hcolor, hresult], hvisited, ?_⟩
              intro hfound
              exact .cons hidx ((hvisited.kept hfound).black u hcolor) (hblack hfound)
          | white =>
              have hleads : ∀ g, color g = .gray → Relation.TransGen (Edge subtasks) g u :=
                fun g hg => Relation.TransGen.tail' (hgray g hg) hedge
              obtain ⟨foundU, colorU, hresultU, hvisitedU, hblackU⟩ :=
                hvisit u color hcolor hwhites hsafe hleads
              cases foundU with
              | true =>
                  exact ⟨true, colorU, by simp only [visitDeps, hidx, hcolor, hresultU],
                    hvisitedU, by simp⟩
              | false =>
                  have hkept := hvisitedU.kept rfl
                  obtain ⟨found, color', hresult, hvisited, hblack⟩ := ih hrest
                    (le_trans hkept.whites_le hwhites) (hvisitedU.safe rfl)
                    (fun g hg => hgray g ((hkept.gray g).mp hg))
                  refine ⟨found, color', by simp only [visitDeps, hidx, hcolor, hresultU, hresult],
                    ⟨hvisited.cycle, fun h => hkept.trans (hvisited.kept h), hvisited.safe⟩, ?_⟩
                  intro hfound
                  exact .cons hidx ((hvisited.kept hfound).black u (hblackU rfl)) (hblack hfound)

theorem BlackSafe.update_gray {color : Fin subtasks.length → Color} (hsafe : BlackSafe color)
    (u : Fin subtasks.length) : BlackSafe (Function.update color u .gray) := by
  intro i hi
  by_cases hsame : i = u
  · subst hsame
    simp at hi
  · rw [Function.update_of_ne hsame] at hi
    exact hsafe i hi

/-- A subtask whose dependencies are all black may become black itself. -/
theorem BlackSafe.update_black {color : Fin subtasks.length → Color} (hsafe : BlackSafe color)
    {u : Fin subtasks.length} (hdeps : DepsBlack (subtasks.get u).dependsOn color) :
    BlackSafe (Function.update color u .black) := by
  intro i hi
  by_cases hsame : i = u
  · subst hsame
    refine ⟨i, ?_⟩
    intro j hedge
    obtain ⟨d, hd, hj⟩ := hedge
    exact hsafe j (hdeps d hd j hj)
  · rw [Function.update_of_ne hsame] at hi
    exact hsafe i hi

/-- From white over gray to black: nothing else changes. -/
theorem Kept.update_black {color color' : Fin subtasks.length → Color} {u : Fin subtasks.length}
    (hu : color u = .white) (h : Kept (Function.update color u .gray) color') :
    Kept color (Function.update color' u .black) := by
  constructor
  · intro i
    by_cases hsame : i = u
    · subst hsame
      simp [hu]
    · have hi := h.gray i
      rw [Function.update_of_ne hsame] at hi ⊢
      exact hi
  · intro i hi
    by_cases hsame : i = u
    · simp [hsame]
    · rw [Function.update_of_ne hsame]
      exact h.black i (by rw [Function.update_of_ne hsame]; exact hi)

theorem dfs_spec (subtasks : List Subtask) (fuel : Nat) :
    VisitSpec (dfs subtasks fuel) fuel := by
  induction fuel with
  | zero =>
      intro u color hu hwhites
      have hpos : 0 < whites color := Finset.card_pos.mpr ⟨u, by simp [hu]⟩
      omega
  | succ fuel ih =>
      intro u color hu hwhites hsafe hgray
      have hless := whites_update_lt hu
      have hgray' : ∀ g, Function.update color u .gray g = .gray →
          Relation.ReflTransGen (Edge subtasks) g u := by
        intro g hg
        by_cases hsame : g = u
        · subst hsame
          exact .refl
        · rw [Function.update_of_ne hsame] at hg
          exact (hgray g hg).to_reflTransGen
      obtain ⟨found, color', hresult, hvisited, hblack⟩ := visitDeps_spec ih u
        (subtasks.get u).dependsOn (fun _ h => h) (by omega) (hsafe.update_gray u) hgray'
      cases found with
      | true =>
          exact ⟨true, color', by simp only [dfs, hresult],
            ⟨hvisited.cycle, by simp, by simp⟩, by simp⟩
      | false =>
          exact ⟨false, Function.update color' u .black, by simp only [dfs, hresult],
            ⟨by simp, fun _ => .update_black hu (hvisited.kept rfl),
              fun _ => (hvisited.safe rfl).update_black (hblack rfl)⟩, by simp⟩

/-- The loop over the roots returns; without a cycle found, all roots are accessible. -/
theorem detectFrom_spec {fuel : Nat} (roots : List (Fin subtasks.length))
    {color : Fin subtasks.length → Color} (hwhites : whites color ≤ fuel)
    (hsafe : BlackSafe color) (hgray : ∀ i, color i ≠ .gray) :
    ∃ verdict, detectFrom subtasks fuel roots color = some verdict ∧
      (verdict = none ∧ (∀ i ∈ roots, Acc (flip (Edge subtasks)) i) ∨
        verdict = some cycleReason ∧ ¬ Acyclic (Edge subtasks)) := by
  induction roots generalizing color with
  | nil => exact ⟨none, rfl, .inl ⟨rfl, by simp⟩⟩
  | cons i rest ih =>
      by_cases hwhite : color i = .white
      · obtain ⟨found, color', hresult, hvisited, hblack⟩ := dfs_spec subtasks fuel i color hwhite
          hwhites hsafe (fun g hg => absurd hg (hgray g))
        cases found with
        | true =>
            exact ⟨some cycleReason, by simp only [detectFrom, hwhite, ↓reduceIte, hresult],
              .inr ⟨rfl, hvisited.cycle rfl⟩⟩
        | false =>
            have hkept := hvisited.kept rfl
            obtain ⟨verdict, hrest, hcases⟩ := ih (le_trans hkept.whites_le hwhites)
              (hvisited.safe rfl) (fun g hg => hgray g ((hkept.gray g).mp hg))
            refine ⟨verdict, by simp only [detectFrom, hwhite, ↓reduceIte, hresult, hrest], ?_⟩
            rcases hcases with ⟨hnone, hacc⟩ | hcycle
            · exact .inl ⟨hnone, List.forall_mem_cons.mpr
                ⟨hvisited.safe rfl i (hblack rfl), hacc⟩⟩
            · exact .inr hcycle
      · obtain ⟨verdict, hrest, hcases⟩ := ih hwhites hsafe hgray
        refine ⟨verdict, by simp only [detectFrom, hwhite, ↓reduceIte, hrest], ?_⟩
        rcases hcases with ⟨hnone, hacc⟩ | hcycle
        · have hblack : color i = .black := by
            cases hcolor : color i with
            | white => exact absurd hcolor hwhite
            | gray => exact absurd hcolor (hgray i)
            | black => rfl
          exact .inl ⟨hnone, List.forall_mem_cons.mpr ⟨hsafe i hblack, hacc⟩⟩
        · exact .inr hcycle

/-- `detect_cycle` returns for all fuel from the number of subtasks on: `None` without a
cycle, the reason with one. -/
theorem detectCycle_spec (plan : SubtaskPlan) {fuel : Nat} (hfuel : plan.subtasks.length ≤ fuel) :
    detectCycle fuel plan = some none ∧ Acyclic (Edge plan.subtasks) ∨
      detectCycle fuel plan = some (some cycleReason) ∧ ¬ Acyclic (Edge plan.subtasks) := by
  have hwhites : whites (fun _ : Fin plan.subtasks.length => Color.white) ≤ fuel := by
    refine le_trans (Finset.card_le_univ _) ?_
    rw [Fintype.card_fin]
    exact hfuel
  obtain ⟨verdict, hresult, hcases⟩ := detectFrom_spec (List.finRange plan.subtasks.length) hwhites
    (fun i hi => by simp at hi) (by simp)
  rcases hcases with ⟨rfl, hacc⟩ | ⟨rfl, hcycle⟩
  · exact .inl ⟨hresult, acyclic_of_acc fun i => hacc i (List.mem_finRange i)⟩
  · exact .inr ⟨hresult, hcycle⟩

end Search

/-! ## Plans of the decomposer -/

section Decomposer

variable {ids : Nat → SubtaskId} {planId parentTaskId : String} {decomp : LlmDecomposition}
  {plan : SubtaskPlan}

theorem resolveDeps_ok {n : Nat} {dependsOn : List Nat} {deps : List SubtaskId}
    (h : resolveDeps ids n dependsOn = .ok deps) : ∀ d ∈ deps, ∃ idx < n, ids idx = d := by
  intro d hd
  obtain ⟨idx, -, hidx⟩ := exists_left_of_forall₂ (forall₂_of_mapM_ok h) hd
  by_cases hout : idx ≥ n
  · simp [hout] at hidx
  · simp only [hout, ↓reduceIte, Except.ok.injEq] at hidx
    exact ⟨idx, by omega, hidx⟩

/-- The subtasks of a built plan carry the fresh ids in order, and depend on these only. -/
theorem buildPlan_ok (h : buildPlan ids planId parentTaskId decomp = .ok plan) :
    plan.subtasks.map (·.id) = (List.range decomp.subtasks.length).map ids ∧
      ∀ s ∈ plan.subtasks, ∀ d ∈ s.dependsOn, ∃ idx < decomp.subtasks.length, ids idx = d := by
  unfold buildPlan at h
  simp only at h
  cases hsubtasks : decomp.subtasks.zipIdx.mapM fun p =>
      (resolveDeps ids decomp.subtasks.length p.1.dependsOn).map fun dependsOn =>
        (⟨ids p.2, p.1.description, dependsOn, parseRoleHint p.1.roleHint⟩ : Subtask) with
  | error e =>
      rw [hsubtasks] at h
      cases h
  | ok subtasks =>
      rw [hsubtasks] at h
      cases h
      have hpairs : List.Forall₂ (fun (p : LlmSubtask × Nat) (s : Subtask) =>
          ids p.2 = s.id ∧ resolveDeps ids decomp.subtasks.length p.1.dependsOn =
            .ok s.dependsOn) decomp.subtasks.zipIdx subtasks := by
        refine (forall₂_of_mapM_ok hsubtasks).imp ?_
        intro p s hp
        cases hdeps : resolveDeps ids decomp.subtasks.length p.1.dependsOn with
        | error e =>
            rw [hdeps] at hp
            cases hp
        | ok deps =>
            rw [hdeps] at hp
            cases hp
            exact ⟨rfl, rfl⟩
      constructor
      · have hids : List.Forall₂ (fun a b => a = b) (decomp.subtasks.zipIdx.map fun p => ids p.2)
            (subtasks.map (·.id)) :=
          List.forall₂_map_left_iff.mpr (List.forall₂_map_right_iff.mpr
            (hpairs.imp fun _ _ h => h.1))
        rw [List.forall₂_eq_eq_eq] at hids
        rw [← hids, List.range_eq_range', ← List.zipIdx_map_snd 0 decomp.subtasks, List.map_map]
        rfl
      · intro s hs d hd
        obtain ⟨p, -, -, hdeps⟩ := exists_left_of_forall₂ hpairs hs
        exact resolveDeps_ok hdeps d hd

theorem buildPlan_distinct (h : buildPlan ids planId parentTaskId decomp = .ok plan)
    (fresh : Set.InjOn ids (Set.Iio decomp.subtasks.length)) :
    (plan.subtasks.map (·.id)).Nodup := by
  rw [(buildPlan_ok h).1]
  refine List.nodup_range.map_on ?_
  intro a ha b hb heq
  exact fresh (List.mem_range.mp ha) (List.mem_range.mp hb) heq

theorem buildPlan_allNamed (h : buildPlan ids planId parentTaskId decomp = .ok plan) :
    AllNamed plan.subtasks := by
  obtain ⟨hids, hdeps⟩ := buildPlan_ok h
  intro s hs d hd
  obtain ⟨idx, hidx, rfl⟩ := hdeps s hs d hd
  have hmem : ids idx ∈ plan.subtasks.map (·.id) := by
    rw [hids]
    exact List.mem_map_of_mem (List.mem_range.mpr hidx)
  obtain ⟨t, ht, hid⟩ := List.mem_map.mp hmem
  exact ⟨t, ht, hid⟩

end Decomposer

/-! ## Errors of the execution -/

section Execution

variable {subtasks : List Subtask} {parent : TaskManifest} {executor : SubtaskExecutor}

theorem collectResults_error {results : List (Except SchedulerError SubtaskResult)}
    {completed : AList fun _ : SubtaskId => SubtaskResult} {e : SchedulerError}
    (h : collectResults results completed = .error e) : .error e ∈ results := by
  unfold collectResults at h
  induction results generalizing completed with
  | nil => cases h
  | cons res rest ih =>
      rw [List.foldlM_cons] at h
      cases res with
      | error e' =>
          cases h
          exact List.mem_cons_self
      | ok result => exact List.mem_cons_of_mem _ (ih h)

/-- An error of the waves is the answer of a call. -/
theorem executeWaves_error {waves : List (List SubtaskId)}
    {completed : AList fun _ : SubtaskId => SubtaskResult}
    {calls : List (SubtaskId × TaskManifest)} {execution : Execution} {e : SchedulerError}
    (h : executeWaves subtasks parent executor waves completed calls = some execution)
    (he : execution.result = .error e) :
    ∃ call ∈ execution.calls, executor call.1 call.2 = .error e := by
  induction waves generalizing completed calls with
  | nil =>
      cases h
      cases he
  | cons wave rest ih =>
      simp only [executeWaves, Option.bind_eq_some_iff] at h
      obtain ⟨batch, -, h⟩ := h
      cases hresults : collectResults (batch.map fun call => executor call.1 call.2) completed with
      | error e' =>
          rw [hresults] at h
          cases h
          cases he
          obtain ⟨call, hcall, hanswer⟩ := List.mem_map.mp (collectResults_error hresults)
          exact ⟨call, List.mem_append_right _ hcall, hanswer⟩
      | ok next =>
          rw [hresults] at h
          exact ih h

/-- After waves were found, an error of `execute` is the answer of a call. -/
theorem execute_error {fuel : Nat} {waves : List (List SubtaskId)}
    (hwaves : topoWaves fuel subtasks = some (.ok waves)) {execution : Execution}
    {e : SchedulerError} (h : execute fuel subtasks parent executor = some execution)
    (he : execution.result = .error e) :
    ∃ call ∈ execution.calls, executor call.1 call.2 = .error e := by
  simp only [execute, hwaves] at h
  exact executeWaves_error h he

end Execution

/-! ## Review and schedule -/

/-- An approval of the review means that no cycle was detected. -/
theorem evaluate_approved {fuel : Nat} {plan : SubtaskPlan}
    {review : SubtaskPlan → Except PlannerError ReviewOutcome}
    (h : evaluate fuel plan review = some (.ok .approved)) :
    detectCycle fuel plan = some none := by
  unfold evaluate at h
  by_cases hempty : plan.subtasks.isEmpty
  · simp [hempty] at h
  · simp only [hempty, Bool.false_eq_true, ↓reduceIte] at h
    cases hdetect : detectCycle fuel plan with
    | none => simp [hdetect] at h
    | some verdict =>
        cases verdict with
        | none => rfl
        | some reason => simp [hdetect] at h

/-- A plan in which no cycle was detected is scheduled. -/
theorem scheduled_of_no_cycle {plan : SubtaskPlan} (distinct : (plan.subtasks.map (·.id)).Nodup)
    (named : AllNamed plan.subtasks) {fuel : Nat} (hfuel : plan.subtasks.length < fuel)
    (h : detectCycle fuel plan = some none) :
    ∃ waves, topoWaves fuel plan.subtasks = some (.ok waves) := by
  obtain ⟨schedule, hschedule, hok⟩ := topoWaves_ok_iff_acyclic distinct named
  rcases detectCycle_spec plan hfuel.le with ⟨-, acyclic⟩ | ⟨hcycle, -⟩
  · obtain ⟨waves, rfl⟩ := hok.mpr acyclic
    exact ⟨waves, hschedule fuel hfuel⟩
  · rw [h] at hcycle
    cases hcycle

/-- For every plan that `build_plan` produces from distinct fresh ids: `detect_cycle` and
`topo_waves` both return, the first says `None` exactly when the second returns waves;
and when `evaluate` approves the plan, `execute` fails with a cyclic dependency only if
a call of the executor answered with that error. -/
theorem review_agrees_with_schedule (ids : Nat → SubtaskId) (planId parentTaskId : String)
    (decomp : LlmDecomposition) (plan : SubtaskPlan)
    (hbuild : buildPlan ids planId parentTaskId decomp = .ok plan)
    (fresh : Set.InjOn ids (Set.Iio decomp.subtasks.length)) :
    ∃ verdict schedule,
      (∀ fuel, plan.subtasks.length < fuel → detectCycle fuel plan = some verdict ∧
        topoWaves fuel plan.subtasks = some schedule) ∧
      (verdict = none ↔ ∃ waves, schedule = .ok waves) ∧
      ∀ fuel, plan.subtasks.length < fuel → ∀ review,
        evaluate fuel plan review = some (.ok .approved) →
        (∃ waves, topoWaves fuel plan.subtasks = some (.ok waves)) ∧
        ∀ manifest executor execution,
          execute fuel plan.subtasks manifest executor = some execution →
          execution.result = .error .cyclicDependency →
          ∃ call ∈ execution.calls, executor call.1 call.2 = .error .cyclicDependency := by
  have distinct := buildPlan_distinct hbuild fresh
  have named := buildPlan_allNamed hbuild
  obtain ⟨schedule, hschedule, hok⟩ := topoWaves_ok_iff_acyclic distinct named
  have hdetect : ∃ verdict, (∀ fuel, plan.subtasks.length < fuel →
      detectCycle fuel plan = some verdict) ∧ (verdict = none ↔ Acyclic (Edge plan.subtasks)) := by
    by_cases acyclic : Acyclic (Edge plan.subtasks)
    · refine ⟨none, ?_, by simp [acyclic]⟩
      intro fuel hfuel
      rcases detectCycle_spec plan hfuel.le with ⟨hnone, -⟩ | ⟨-, hcycle⟩
      · exact hnone
      · exact absurd acyclic hcycle
    · refine ⟨some cycleReason, ?_, by simp [acyclic]⟩
      intro fuel hfuel
      rcases detectCycle_spec plan hfuel.le with ⟨-, hnone⟩ | ⟨hcycle, -⟩
      · exact absurd hnone acyclic
      · exact hcycle
  obtain ⟨verdict, hverdict, hnone⟩ := hdetect
  refine ⟨verdict, schedule, fun fuel hfuel => ⟨hverdict fuel hfuel, hschedule fuel hfuel⟩,
    hnone.trans hok.symm, ?_⟩
  intro fuel hfuel review happroved
  obtain ⟨waves, hwaves⟩ := scheduled_of_no_cycle distinct named hfuel
    (evaluate_approved happroved)
  refine ⟨⟨waves, hwaves⟩, ?_⟩
  intro manifest executor execution h he
  exact execute_error hwaves h he

/-- A scheduling error of a run comes out of the execution of an approved plan. -/
theorem run_scheduling_error {fuel : Nat} {world : CompoundWorld} {taskId : String}
    {manifest : TaskManifest} {e : SchedulerError}
    (h : run fuel world taskId manifest = some (.error (.scheduling e))) :
    ∃ decomp plan execution, world.decomposition = .ok decomp ∧
      buildPlan world.ids world.planId world.placeholderTaskId decomp = .ok plan ∧
      detectCycle fuel plan = some none ∧
      execute fuel plan.subtasks manifest world.executor = some execution ∧
      execution.result = .error e := by
  unfold run decompose at h
  cases hdecomp : world.decomposition with
  | error e => simp [hdecomp, Except.bind] at h
  | ok decomp =>
      simp only [hdecomp, Except.bind] at h
      cases hbuild : buildPlan world.ids world.planId world.placeholderTaskId decomp with
      | error e => simp [hbuild] at h
      | ok plan =>
          simp only [hbuild] at h
          cases hreview : evaluate fuel { plan with parentTaskId := taskId } world.review with
          | none => simp [hreview] at h
          | some outcome =>
              rw [hreview] at h
              cases outcome with
              | error e => simp at h
              | ok outcome =>
                  cases outcome with
                  | rejected reason => simp at h
                  | approved =>
                      -- the review does not read the task id of the plan
                      have hdetect := evaluate_approved hreview
                      simp only [Option.map_eq_some_iff] at h
                      obtain ⟨execution, hexecute, hresult⟩ := h
                      refine ⟨decomp, plan, execution, rfl, hbuild, hdetect, hexecute, ?_⟩
                      cases herror : execution.result with
                      | ok results => simp [herror] at hresult
                      | error e' =>
                          simp only [herror, Except.error.injEq,
                            CompoundError.scheduling.injEq] at hresult
                          rw [hresult]

/-- A run with distinct fresh ids ends in a cyclic dependency only if the executor
answered a call with that error. -/
theorem run_cyclic_from_executor (world : CompoundWorld) (taskId : String)
    (manifest : TaskManifest) (fresh : Function.Injective world.ids) {fuel : Nat}
    (hfuel : ∀ decomp, world.decomposition = .ok decomp → decomp.subtasks.length < fuel)
    (h : run fuel world taskId manifest = some (.error (.scheduling .cyclicDependency))) :
    ∃ id given, world.executor id given = .error .cyclicDependency := by
  obtain ⟨decomp, plan, execution, hdecomp, hbuild, hdetect, hexecute, herror⟩ :=
    run_scheduling_error h
  have hlength : plan.subtasks.length < fuel := by
    have hids := congrArg List.length (buildPlan_ok hbuild).1
    simp only [List.length_map, List.length_range] at hids
    rw [hids]
    exact hfuel decomp hdecomp
  obtain ⟨waves, hwaves⟩ := scheduled_of_no_cycle (buildPlan_distinct hbuild fresh.injOn)
    (buildPlan_allNamed hbuild) hlength hdetect
  obtain ⟨call, -, hcall⟩ := execute_error hwaves hexecute herror
  exact ⟨call.1, call.2, hcall⟩

section Example

/-- A draft, and a review that names the draft twice. -/
def draftAndReview : LlmDecomposition :=
  ⟨[⟨"review", [1, 1], some "Evaluator"⟩, ⟨"draft", [], none⟩]⟩

def draftAndReviewPlan : SubtaskPlan :=
  { planId := "plan-1"
    parentTaskId := "task-1"
    subtasks := [⟨⟨0⟩, "review", [⟨1⟩, ⟨1⟩], some .evaluator⟩, ⟨⟨1⟩, "draft", [], none⟩]
    status := .pendingReview }

theorem draft_and_review_agree :
    detectCycle 3 draftAndReviewPlan = some none ∧
      ∃ waves, topoWaves 3 draftAndReviewPlan.subtasks = some (.ok waves) := by
  obtain ⟨verdict, schedule, hreturn, hiff, -⟩ := review_agrees_with_schedule SubtaskId.mk "plan-1"
    "task-1" draftAndReview draftAndReviewPlan (by decide +kernel)
    (Function.Injective.injOn fun a b h => SubtaskId.mk.inj h)
  obtain ⟨hdetect, hwaves⟩ := hreturn 3 (by decide)
  have hnone : detectCycle 3 draftAndReviewPlan = some none := by decide +kernel
  rw [hdetect, Option.some.injEq] at hnone
  obtain ⟨waves, hok⟩ := hiff.mp hnone
  exact ⟨by rw [hdetect, hnone], waves, by rw [hwaves, hok]⟩

end Example

end ControlPlane.Guarantees.PlanReview
