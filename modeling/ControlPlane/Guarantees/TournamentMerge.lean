import ControlPlane.Lib.Brackets
import ControlPlane.Source.Adapters.Chain
import ControlPlane.Source.Engine.ThinkingLoop

/-!
# A tournament merges every proposal once and in order

The rounds of `tournament_merge` are those of a bracket over the positions of the
proposals that no adapter changes. Its inner nodes are the merge calls, its value is the
result, and a call that fails is a node without a value.
-/
namespace ControlPlane.Guarantees.TournamentMerge

open Lib Source.Adapters
open Source.Verification (ComputeRequest)

/-! ## Statement -/

section Brackets

variable {α : Type}

def bracketRound (ts : List (Bracket α)) : List (Bracket α) :=
  (splitPairs ts).1.map (fun pair => .node pair.1 pair.2) ++ (splitPairs ts).2.toList

theorem bracketRound_length (ts : List (Bracket α)) :
    (bracketRound ts).length = (ts.length + 1) / 2 := by
  have hsplit := splitPairs_length ts
  rw [bracketRound, List.length_append, List.length_map]
  omega

/-- The rounds over brackets, each pair joined by a node. -/
def bracketRounds (other : Bracket α) (ts : List (Bracket α)) : Bracket α :=
  if 1 < ts.length then bracketRounds other (bracketRound ts) else ts.headD other
termination_by ts.length
decreasing_by
  rw [bracketRound_length]
  omega

end Brackets

/-- The bracket of a tournament of `n` proposals, over their positions. -/
def tournamentBracket (n : Nat) : Bracket Nat :=
  bracketRounds (.leaf 0) ((List.range n).map .leaf)

section Merge

variable (execute : Execute) (m : MergeSettings)

def mergeCall (a b : String) : Option String :=
  (executeChain execute (m.chain a b)).result.toOption

def proposalAt (proposals : List String) (i : Nat) : String := proposals.getD i ""

/-- The request of a node, if both sides have a value. -/
def nodeRequests (proposals : List String) (pair : Bracket Nat × Bracket Nat) :
    List ComputeRequest :=
  match pair.1.value (proposalAt proposals) (mergeCall execute m),
    pair.2.value (proposalAt proposals) (mergeCall execute m) with
  | some a, some b => (executeChain execute (m.chain a b)).requests
  | _, _ => []

/-- The leaves in order; the first of them is on the left of every merge it takes part in. -/
structure InOrder (n : Nat) (t : Bracket Nat) : Prop where
  leaves : t.leaves = List.range n
  first : ∀ pair ∈ t.nodes, 0 ∈ pair.1.leaves ++ pair.2.leaves →
    pair.1.leaves.head? = some 0

structure MergesInOrder (proposals : List String) : Prop where
  bracket : InOrder proposals.length (tournamentBracket proposals.length)
  value : (tournamentMerge execute m proposals).result.toOption =
    (tournamentBracket proposals.length).value (proposalAt proposals) (mergeCall execute m)
  requests : ∀ out, (tournamentMerge execute m proposals).result = .ok out →
    (tournamentMerge execute m proposals).rounds.flatten.Perm
      ((tournamentBracket proposals.length).nodes.flatMap (nodeRequests execute m proposals))
  calls : ∀ out, (tournamentMerge execute m proposals).result = .ok out →
    (tournamentMerge execute m proposals).rounds.flatten.length = proposals.length - 1
  rounds : ∀ out, (tournamentMerge execute m proposals).result = .ok out →
    (tournamentMerge execute m proposals).rounds.length = Nat.clog 2 proposals.length
  fold : Bracket.Associative (mergeCall execute m) →
    (tournamentMerge execute m proposals).result.toOption =
      proposals.tail.foldlM (mergeCall execute m) (proposals.headD "")
  errors : (∃ e, (tournamentMerge execute m proposals).result = .error e) ↔
    ∃ round ∈ (tournamentMerge execute m proposals).rounds, ∃ request ∈ round,
      ∃ e, execute request = .error e

end Merge

/-! ## Pairs -/

section Pairs

variable {α β : Type}

theorem splitPairs_flatten (items : List α) :
    (splitPairs items).1.flatMap (fun pair => [pair.1, pair.2]) ++ (splitPairs items).2.toList =
      items := by
  induction items using splitPairs.induct with
  | case1 a b rest ih => simpa [splitPairs] using ih
  | case2 a => simp [splitPairs]
  | case3 => simp [splitPairs]

theorem flatMap_eq_pairs (f : α → List β) (items : List α) :
    items.flatMap f =
      (splitPairs items).1.flatMap (fun pair => f pair.1 ++ f pair.2) ++
        (splitPairs items).2.toList.flatMap f := by
  conv_lhs => rw [← splitPairs_flatten items]
  rw [List.flatMap_append, List.flatMap_assoc]
  simp

theorem bracketRound_cons (a b : Bracket α) (rest : List (Bracket α)) :
    bracketRound (a :: b :: rest) = .node a b :: bracketRound rest := by
  simp [bracketRound, splitPairs]

theorem bracketRound_leaves (ts : List (Bracket α)) :
    (bracketRound ts).flatMap Bracket.leaves = ts.flatMap Bracket.leaves := by
  rw [flatMap_eq_pairs Bracket.leaves ts, bracketRound, List.flatMap_append, List.flatMap_map]
  rfl

/-- A bracket that is alone has won. -/
theorem bracketRounds_of_few (other : Bracket α) {ts : List (Bracket α)} (nonempty : ts ≠ [])
    (few : ts.length ≤ 1) : ∃ t, ts = [t] ∧ bracketRounds other ts = t := by
  obtain ⟨t, rest, rfl⟩ := List.exists_cons_of_ne_nil nonempty
  rw [List.length_cons] at few
  have hrest : rest = [] := List.length_eq_zero_iff.mp (by omega)
  subst hrest
  refine ⟨t, rfl, ?_⟩
  rw [bracketRounds, if_neg (by simp)]
  rfl

theorem bracketRounds_leaves (other : Bracket α) {ts : List (Bracket α)} (nonempty : ts ≠ []) :
    (bracketRounds other ts).leaves = ts.flatMap Bracket.leaves := by
  induction ts using bracketRounds.induct with
  | case1 ts many ih =>
      rw [bracketRounds, if_pos many, ih, bracketRound_leaves]
      intro hnil
      have hlength := bracketRound_length ts
      rw [hnil, List.length_nil] at hlength
      omega
  | case2 ts few =>
      obtain ⟨t, rfl, hwon⟩ := bracketRounds_of_few other nonempty (by omega)
      rw [hwon, List.flatMap_singleton]

end Pairs

/-! ## One round -/

section Round

variable {execute : Execute} {m : MergeSettings}

/-- The one request of a merge. -/
def mergeRequest (m : MergeSettings) (a b : String) : ComputeRequest where
  systemContext := m.systemContext ++ "\n\n## Current Best:\n" ++ a
  task := String.ofList
    (Source.Text.replaceText m.mergeTemplate.toList proposalBPlaceholder b.toList)
  tau := m.tau
  maxTokens := m.maxTokens

theorem executeChain_chain (execute : Execute) (m : MergeSettings) (a b : String) :
    executeChain execute (m.chain a b) =
      ⟨[mergeRequest m a b], (execute (mergeRequest m a b)).map fun resp => resp.output⟩ := by
  change executeSteps execute [⟨(mergeRequest m a b).task, m.tau, m.maxTokens⟩]
    (mergeRequest m a b).systemContext "" = _
  rw [executeSteps]
  split
  next e hfailed =>
    have hfailed : execute (mergeRequest m a b) = .error e := hfailed
    rw [hfailed]
    rfl
  next resp hdone =>
    have hdone : execute (mergeRequest m a b) = .ok resp := hdone
    rw [hdone]
    rfl

theorem mergeCall_eq (execute : Execute) (m : MergeSettings) (a b : String) :
    mergeCall execute m a b =
      ((execute (mergeRequest m a b)).map fun resp => resp.output).toOption := by
  rw [mergeCall, executeChain_chain]

theorem mergeRound_toOption (execute : Execute) (m : MergeSettings) (current : List String) :
    (mergeRound execute m current).result.toOption =
      ((splitPairs current).1.mapM fun pair => mergeCall execute m pair.1 pair.2).map
        fun next => next ++ (splitPairs current).2.toList := by
  have hresult : (mergeRound execute m current).result =
      ((splitPairs current).1.mapM fun pair =>
        (executeChain execute (m.chain pair.1 pair.2)).result).map
          fun next => next ++ (splitPairs current).2.toList := by
    simp only [mergeRound, joinAll, List.mapM_map]
    rfl
  have hmerged := toOption_mapM (fun pair => (executeChain execute (m.chain pair.1 pair.2)).result)
    (splitPairs current).1
  rw [hresult]
  change _ = Option.map _ ((splitPairs current).1.mapM fun pair =>
    (executeChain execute (m.chain pair.1 pair.2)).result.toOption)
  rw [← hmerged]
  cases (splitPairs current).1.mapM
      fun pair => (executeChain execute (m.chain pair.1 pair.2)).result <;> rfl

theorem mergeRound_toOption_cons (execute : Execute) (m : MergeSettings) (a b : String)
    (rest : List String) :
    (mergeRound execute m (a :: b :: rest)).result.toOption =
      (mergeCall execute m a b).bind fun v =>
        (mergeRound execute m rest).result.toOption.map fun vs => v :: vs := by
  rw [mergeRound_toOption, mergeRound_toOption, splitPairs, List.mapM_cons]
  cases mergeCall execute m a b with
  | none => rfl
  | some v =>
      cases (splitPairs rest).1.mapM fun pair => mergeCall execute m pair.1 pair.2 <;> rfl

theorem mergeRound_requests (execute : Execute) (m : MergeSettings) (current : List String) :
    (mergeRound execute m current).requests =
      (splitPairs current).1.map fun pair => mergeRequest m pair.1 pair.2 := by
  simp only [mergeRound, joinAll, List.flatMap_map, executeChain_chain]
  exact List.map_eq_flatMap.symm

end Round

/-! ## Rounds over brackets -/

section Rounds

variable {execute : Execute} {m : MergeSettings} {proposals : List String}

theorem tournamentRounds_of_many {current : List String} (many : 1 < current.length) :
    tournamentRounds execute m current =
      match (mergeRound execute m current).result with
      | .error e => ⟨[(mergeRound execute m current).requests], .error e⟩
      | .ok next =>
          ⟨(mergeRound execute m current).requests :: (tournamentRounds execute m next).rounds,
            (tournamentRounds execute m next).result⟩ := by
  rw [tournamentRounds, if_pos many]
  dsimp only
  split
  · next hround => rw [hround]
  · next hround => rw [hround]

theorem tournamentRounds_of_few {current : List String} (few : ¬1 < current.length) :
    tournamentRounds execute m current = ⟨[], .ok (current.headD "")⟩ := by
  rw [tournamentRounds, if_neg few]

theorem bracketRound_ne_nil {α : Type} {ts : List (Bracket α)} (many : 1 < ts.length) :
    bracketRound ts ≠ [] := by
  intro hnil
  have hlength := bracketRound_length ts
  rw [hnil, List.length_nil] at hlength
  omega

variable (execute m proposals) in
/-- The value of a bracket over the positions of the proposals. -/
def bracketValue (t : Bracket Nat) : Option String :=
  t.value (proposalAt proposals) (mergeCall execute m)

theorem bracketValue_node (left right : Bracket Nat) :
    bracketValue execute m proposals (.node left right) =
      (bracketValue execute m proposals left).bind fun a =>
        (bracketValue execute m proposals right).bind fun b => mergeCall execute m a b := rfl

theorem bracketRound_values (ts : List (Bracket Nat)) :
    (bracketRound ts).mapM (bracketValue execute m proposals) =
      (ts.mapM (bracketValue execute m proposals)).bind fun vs =>
        (mergeRound execute m vs).result.toOption := by
  induction ts using splitPairs.induct with
  | case1 a b rest ih =>
      rw [bracketRound_cons, List.mapM_cons, ih, List.mapM_cons, List.mapM_cons,
        bracketValue_node]
      cases bracketValue execute m proposals a with
      | none => rfl
      | some x =>
          cases bracketValue execute m proposals b with
          | none => rfl
          | some y =>
              cases rest.mapM (bracketValue execute m proposals) with
              | none => cases hmerge : mergeCall execute m x y <;> simp [hmerge]
              | some vs =>
                  simp only [Option.bind_eq_bind, Option.bind_some, Option.pure_def,
                    mergeRound_toOption_cons]
                  cases mergeCall execute m x y with
                  | none => rfl
                  | some v => cases (mergeRound execute m vs).result.toOption <;> rfl
  | case2 a =>
      cases hvalue : bracketValue execute m proposals a with
      | none => simp [bracketRound, splitPairs, hvalue]
      | some x => simp [bracketRound, splitPairs, hvalue, mergeRound_toOption]
  | case3 => simp [bracketRound, splitPairs, mergeRound_toOption]

/-- The value of the whole bracket is the result of the rounds from the values of its parts. -/
theorem bracketRounds_value (other : Bracket Nat) {ts : List (Bracket Nat)} (nonempty : ts ≠ []) :
    bracketValue execute m proposals (bracketRounds other ts) =
      (ts.mapM (bracketValue execute m proposals)).bind fun vs =>
        (tournamentRounds execute m vs).result.toOption := by
  induction ts using bracketRounds.induct with
  | case1 ts many ih =>
      rw [bracketRounds, if_pos many, ih (bracketRound_ne_nil many), bracketRound_values]
      cases hvalues : ts.mapM (bracketValue execute m proposals) with
      | none => rfl
      | some vs =>
          have hlength := (forall₂_of_mapM_some hvalues).length_eq
          rw [Option.bind_some, Option.bind_some, tournamentRounds_of_many (by omega)]
          cases (mergeRound execute m vs).result <;> rfl
  | case2 ts few =>
      obtain ⟨t, rfl, hwon⟩ := bracketRounds_of_few other nonempty (by omega)
      rw [hwon]
      cases hvalue : bracketValue execute m proposals t with
      | none => simp [hvalue]
      | some v => simp [hvalue, tournamentRounds_of_few, Except.toOption]

/-! ## The requests -/

theorem nodeRequests_of_values {left right : Bracket Nat} {a b : String}
    (hleft : bracketValue execute m proposals left = some a)
    (hright : bracketValue execute m proposals right = some b) :
    nodeRequests execute m proposals (left, right) = [mergeRequest m a b] := by
  unfold bracketValue at hleft hright
  rw [nodeRequests, hleft, hright]
  simp only [executeChain_chain]

variable (execute m proposals) in
/-- The requests of the nodes of several brackets. -/
def requestsOf (ts : List (Bracket Nat)) : List ComputeRequest :=
  ts.flatMap fun t => t.nodes.flatMap (nodeRequests execute m proposals)

/-- A round adds the requests of the nodes that it forms. -/
theorem bracketRound_requests {ts : List (Bracket Nat)} {vs : List String}
    (values : ts.mapM (bracketValue execute m proposals) = some vs) :
    (requestsOf execute m proposals (bracketRound ts)).Perm
      (requestsOf execute m proposals ts ++ (mergeRound execute m vs).requests) := by
  induction ts using splitPairs.induct generalizing vs with
  | case1 a b rest ih =>
      rw [List.mapM_cons] at values
      obtain ⟨x, hx, values⟩ := Option.bind_eq_some_iff.mp values
      obtain ⟨later, hlater, values⟩ := Option.bind_eq_some_iff.mp values
      rw [List.mapM_cons] at hlater
      obtain ⟨y, hy, hlater⟩ := Option.bind_eq_some_iff.mp hlater
      obtain ⟨ws, hws, hlater⟩ := Option.bind_eq_some_iff.mp hlater
      cases values
      cases hlater
      have hrec := ih hws
      rw [bracketRound_cons, mergeRound_requests, splitPairs]
      rw [mergeRound_requests] at hrec
      simp only [requestsOf, List.flatMap_cons, Bracket.nodes, List.flatMap_append,
        nodeRequests_of_values hx hy, List.map_cons]
      refine List.perm_iff_count.mpr fun q => ?_
      have hcount := List.perm_iff_count.mp hrec q
      simp only [requestsOf, List.count_append] at hcount
      simp only [List.count_append, List.count_cons, List.count_nil, hcount]
      omega
  | case2 a =>
      cases forall₂_of_mapM_some values with
      | cons _ hrest =>
          cases hrest
          simp [bracketRound, splitPairs, mergeRound_requests]
  | case3 =>
      cases values
      simp [bracketRound, splitPairs, mergeRound_requests, requestsOf]

/-- The requests of the nodes of the whole bracket are those of its parts and of the rounds. -/
theorem bracketRounds_requests (other : Bracket Nat) {ts : List (Bracket Nat)} {vs : List String}
    {out : String} (nonempty : ts ≠ [])
    (values : ts.mapM (bracketValue execute m proposals) = some vs)
    (finished : (tournamentRounds execute m vs).result = .ok out) :
    (requestsOf execute m proposals [bracketRounds other ts]).Perm
      (requestsOf execute m proposals ts ++ (tournamentRounds execute m vs).rounds.flatten) := by
  induction ts using bracketRounds.induct generalizing vs with
  | case1 ts many ih =>
      have hlength := (forall₂_of_mapM_some values).length_eq
      rw [tournamentRounds_of_many (by omega)] at finished ⊢
      cases hround : (mergeRound execute m vs).result with
      | error e =>
          rw [hround] at finished
          cases finished
      | ok next =>
          rw [hround] at finished
          have hvalues : (bracketRound ts).mapM (bracketValue execute m proposals) = some next := by
            rw [bracketRound_values, values, Option.bind_some, hround]
            rfl
          have hrec := ih (bracketRound_ne_nil many) hvalues finished
          rw [bracketRounds, if_pos many]
          refine hrec.trans ?_
          rw [List.flatten_cons, ← List.append_assoc]
          exact (bracketRound_requests values).append_right _
  | case2 ts few =>
      obtain ⟨t, rest, rfl⟩ := List.exists_cons_of_ne_nil nonempty
      have hlength := (forall₂_of_mapM_some values).length_eq
      rw [List.length_cons] at few hlength
      have hrest : rest = [] := List.length_eq_zero_iff.mp (by omega)
      rw [tournamentRounds_of_few (by omega), bracketRounds, if_neg (by simp [hrest]), hrest]
      simp

/-! ## Numbers and errors -/

theorem tournamentRounds_calls {current : List String} {out : String} (nonempty : current ≠ [])
    (finished : (tournamentRounds execute m current).result = .ok out) :
    (tournamentRounds execute m current).rounds.flatten.length + 1 = current.length := by
  induction current using tournamentRounds.induct execute m with
  | case1 current many round e hround =>
      rw [tournamentRounds_of_many many, hround] at finished
      cases finished
  | case2 current many round next hround ih =>
      rw [tournamentRounds_of_many many, hround] at finished ⊢
      have hnext := mergeRound_length hround
      have hsplit := splitPairs_length current
      have hrec := ih (List.ne_nil_of_length_pos (by omega)) finished
      rw [List.flatten_cons, List.length_append, mergeRound_requests, List.length_map]
      omega
  | case3 current few =>
      have hpos := List.length_pos_of_ne_nil nonempty
      rw [tournamentRounds_of_few few, List.flatten_nil, List.length_nil]
      omega

theorem tournamentRounds_rounds {current : List String} {out : String}
    (finished : (tournamentRounds execute m current).result = .ok out) :
    (tournamentRounds execute m current).rounds.length = Nat.clog 2 current.length := by
  induction current using tournamentRounds.induct execute m with
  | case1 current many round e hround =>
      rw [tournamentRounds_of_many many, hround] at finished
      cases finished
  | case2 current many round next hround ih =>
      rw [tournamentRounds_of_many many, hround] at finished ⊢
      rw [List.length_cons, ih finished, mergeRound_length hround,
        Nat.clog_of_one_lt Nat.one_lt_two many]
      rfl
  | case3 current few =>
      rw [tournamentRounds_of_few few, Nat.clog_of_right_le_one (by omega)]
      rfl

theorem exists_error_iff {ε β : Type} (result : Except ε β) :
    (∃ e, result = .error e) ↔ result.toOption = none := by
  cases result <;> simp [Except.toOption]

theorem mergeRound_error_iff (current : List String) :
    (∃ e, (mergeRound execute m current).result = .error e) ↔
      ∃ request ∈ (mergeRound execute m current).requests, ∃ e, execute request = .error e := by
  rw [exists_error_iff]
  induction current using splitPairs.induct with
  | case1 a b rest ih =>
      have hrequests : (mergeRound execute m (a :: b :: rest)).requests =
          mergeRequest m a b :: (mergeRound execute m rest).requests := by
        rw [mergeRound_requests, mergeRound_requests, splitPairs, List.map_cons]
      rw [mergeRound_toOption_cons, hrequests, mergeCall_eq, List.exists_mem_cons_iff, ← ih]
      cases execute (mergeRequest m a b) with
      | error e => simp [Except.map, Except.toOption]
      | ok resp => simp [Except.map, Except.toOption]
  | case2 a => simp [mergeRound_toOption, mergeRound_requests, splitPairs]
  | case3 => simp [mergeRound_toOption, mergeRound_requests, splitPairs]

theorem tournamentRounds_error_iff (current : List String) :
    (∃ e, (tournamentRounds execute m current).result = .error e) ↔
      ∃ round ∈ (tournamentRounds execute m current).rounds, ∃ request ∈ round,
        ∃ e, execute request = .error e := by
  induction current using tournamentRounds.induct execute m with
  | case1 current many round e hround =>
      have herror := (@mergeRound_error_iff execute m current).mp ⟨e, hround⟩
      rw [tournamentRounds_of_many many, hround]
      simpa using herror
  | case2 current many round next hround ih =>
      have hok : (mergeRound execute m current).result = .ok next := hround
      have hfine := (@mergeRound_error_iff execute m current).not.mp (by simp [hok])
      rw [tournamentRounds_of_many many, hround, ih, List.exists_mem_cons_iff]
      exact (or_iff_right hfine).symm
  | case3 current few =>
      rw [tournamentRounds_of_few few]
      simp

/-! ## The guarantee -/

theorem map_proposalAt (proposals : List String) :
    (List.range proposals.length).map (proposalAt proposals) = proposals := by
  apply List.ext_getElem (by simp)
  intro i _ hi
  simp [proposalAt, hi]

theorem positions_values (proposals : List String) :
    ((List.range proposals.length).map Bracket.leaf).mapM
      (bracketValue execute m proposals) = some proposals := by
  have hvalue : (bracketValue execute m proposals ∘ Bracket.leaf) =
      fun i => some (proposalAt proposals i) := rfl
  rw [List.mapM_map, hvalue]
  change (List.range proposals.length).mapM (fun i => pure (proposalAt proposals i)) = _
  rw [List.mapM_pure, map_proposalAt]
  rfl

theorem tournamentBracket_inOrder {n : Nat} (pos : 0 < n) : InOrder n (tournamentBracket n) := by
  have hpositions : (List.range n).map (Bracket.leaf (α := Nat)) ≠ [] := by
    simpa using pos.ne'
  have hleaves : (tournamentBracket n).leaves = List.range n := by
    rw [tournamentBracket, bracketRounds_leaves _ hpositions, List.flatMap_map]
    exact List.flatMap_singleton' _
  refine ⟨hleaves, ?_⟩
  intro pair hpair hbelow
  refine Bracket.head_leaves_left ?_ ?_ hpair hbelow
  · rw [hleaves]
    exact List.nodup_range
  · rw [hleaves, List.head?_range, if_neg pos.ne']

theorem tournamentMerge_of_nonempty (nonempty : proposals ≠ []) :
    tournamentMerge execute m proposals = tournamentRounds execute m proposals := by
  rw [tournamentMerge, if_neg (by simpa using nonempty)]

theorem tournamentMerge_mergesInOrder (execute : Execute) (m : MergeSettings)
    {proposals : List String} (nonempty : proposals ≠ []) :
    MergesInOrder execute m proposals := by
  have hrun := @tournamentMerge_of_nonempty execute m proposals nonempty
  have hpositions : (List.range proposals.length).map (Bracket.leaf (α := Nat)) ≠ [] := by
    simpa using nonempty
  have horder := tournamentBracket_inOrder (List.length_pos_of_ne_nil nonempty)
  have hvalue := @bracketRounds_value execute m proposals (.leaf 0) _ hpositions
  rw [positions_values, Option.bind_some] at hvalue
  constructor
  case bracket => exact horder
  case value =>
    rw [hrun]
    exact hvalue.symm
  case requests =>
    intro out hout
    rw [hrun] at hout ⊢
    have hrequests := bracketRounds_requests (.leaf 0) hpositions (positions_values proposals) hout
    have hempty : requestsOf execute m proposals
        ((List.range proposals.length).map Bracket.leaf) = [] := by
      rw [requestsOf, List.flatMap_map]
      exact List.flatMap_eq_nil_iff.mpr fun _ _ => rfl
    rw [hempty, List.nil_append, requestsOf, List.flatMap_singleton] at hrequests
    exact hrequests.symm
  case calls =>
    intro out hout
    rw [hrun] at hout ⊢
    have := tournamentRounds_calls nonempty hout
    omega
  case rounds =>
    intro out hout
    rw [hrun] at hout ⊢
    exact tournamentRounds_rounds hout
  case fold =>
    intro assoc
    rw [hrun, ← hvalue]
    obtain ⟨first, rest, hcons⟩ := List.exists_cons_of_ne_nil nonempty
    refine Bracket.value_of_associative assoc (proposalAt proposals) ?_
    rw [← tournamentBracket, horder.leaves, map_proposalAt, hcons]
    rfl
  case errors =>
    rw [hrun]
    exact tournamentRounds_error_iff proposals

theorem three_mergesInOrder :
    MergesInOrder (fun request => .ok ⟨request.systemContext ++ request.task, 1⟩)
      ⟨"", "\x7bproposal_b\x7d", 1, 100⟩ ["a", "b", "c"] :=
  tournamentMerge_mergesInOrder _ _ (by decide)

/-! ## The tournament of the thinking loop -/

open Source.Engine

theorem thinking_mergePairs (call : String × String → Option String) (i : Nat)
    (pairs : List (String × String)) :
    Thinking.mergePairs (fun _ pair => call pair) i pairs = pairs.mapM call := by
  induction pairs generalizing i with
  | nil => rfl
  | cons pair rest ih =>
      rw [Thinking.mergePairs, List.mapM_cons, ih]
      cases call pair with
      | none => rfl
      | some merged => cases rest.mapM call <;> rfl

theorem thinking_mergeRounds {current : List String} {fuel : Nat} (round : Nat)
    (enough : current.length ≤ fuel) :
    Thinking.mergeRounds (fun _ _ pair => mergeCall execute m pair.1 pair.2) fuel round current =
      (tournamentRounds execute m current).result.toOption := by
  induction fuel generalizing round current with
  | zero =>
      rw [tournamentRounds_of_few (by omega)]
      rfl
  | succ fuel ih =>
      rw [Thinking.mergeRounds]
      split
      · next few =>
        rw [tournamentRounds_of_few (by omega)]
        rfl
      · next many =>
        have hround := mergeRound_toOption execute m current
        rw [Thinking.splitPairs_eq, thinking_mergePairs, tournamentRounds_of_many (by omega)]
        cases hpairs : (splitPairs current).1.mapM fun pair => mergeCall execute m pair.1 pair.2 with
        | none =>
            rw [hpairs] at hround
            obtain ⟨e, he⟩ := (exists_error_iff _).mpr hround
            rw [he]
            rfl
        | some next =>
            rw [hpairs, Option.map_some] at hround
            cases hresult : (mergeRound execute m current).result with
            | error e =>
                rw [hresult] at hround
                cases hround
            | ok merged =>
                have hlength := mergeRound_length hresult
                rw [hresult] at hround
                cases hround
                exact ih (round + 1) (by omega)

/-- The thinking loop knows the merges by round and pair; an adapter that answers by the
request makes its tournament this one. -/
theorem thinking_tournamentMerge (nonempty : proposals ≠ []) :
    Thinking.tournamentMerge (fun _ _ pair => mergeCall execute m pair.1 pair.2) proposals =
      (tournamentMerge execute m proposals).result.toOption := by
  rw [Thinking.tournamentMerge, thinking_mergeRounds 0 (Nat.le_refl _),
    tournamentMerge_of_nonempty nonempty]

end Rounds

end ControlPlane.Guarantees.TournamentMerge
