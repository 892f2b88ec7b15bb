import ControlPlane.Source.Engine.Leader

/-!
# The slots of the leader and of its followers

The leader of a wave is the explorer of an earlier one. A wave that has this explorer among
its slots, once, gives it the leader's prefix and the others their aspects, as far as there
are aspects; but every wave has new explorers, so none ever has.
-/
namespace ControlPlane.Guarantees.LeaderSlots

open Source.MapeK Source.Engine

def leaderText (ls : LeaderContextSnapshot) : String := buildLeaderPrefix ls ls.leaderExplorerId

/-- The number of a slot among the slots that are not the leader's. -/
def followerNumber (lead j : Nat) : Nat := if j < lead then j else j - 1

/-- One slot has the leader's prefix, and the others have the follower's prefix with their
assigned aspects. -/
structure LedBy (ls : LeaderContextSnapshot) (explorers : List ProvisionedExplorer)
    (lead : Nat) : Prop where
  leader : (slotPrefixes (some ls) explorers)[lead]? = some (some (leaderText ls))
  alone : ∀ j, (slotPrefixes (some ls) explorers)[j]? = some (some (leaderText ls)) → j = lead
  followers : ∀ j < explorers.length, j ≠ lead → ∃ aspect,
    ls.followerAspects[followerNumber lead j]? = some aspect ∧
      (slotPrefixes (some ls) explorers)[j]? = some (some (aspectPrefix ls (4 / 10) aspect))

def LeaderLeads (ls : LeaderContextSnapshot) (explorers : List ProvisionedExplorer) : Prop :=
  ∃ lead, LedBy ls explorers lead

/-! ## What a slot is given -/

theorem leaderText_start (ls : LeaderContextSnapshot) :
    ∃ rest, leaderText ls = "\n--- LEADER CONTEXT (term " ++ rest := by
  unfold leaderText buildLeaderPrefix
  rw [if_pos rfl]
  exact ⟨_, rfl⟩

theorem aspectPrefix_start (ls : LeaderContextSnapshot) (warnThreshold : ℚ) (aspect : String) :
    ∃ start rest, aspectPrefix ls warnThreshold aspect = "\n" ++ (start ++ rest) ∧
      (start = "[Note: leader signal is low-confidence (score=" ∨
        start = "--- FOLLOWER CONTEXT (term ") := by
  unfold aspectPrefix followerText
  dsimp only
  by_cases hlow : ls.credibilityScore < warnThreshold
  · rw [if_pos hlow]
    exact ⟨_, _, congrArg ("\n" ++ ·) String.append_assoc, Or.inl rfl⟩
  · rw [if_neg hlow]
    exact ⟨_, _, congrArg ("\n" ++ ·) String.empty_append, Or.inr rfl⟩

/-- The two prefixes differ in their sixth character. -/
theorem leaderText_ne (ls : LeaderContextSnapshot) (warnThreshold : ℚ) (aspect : String) :
    leaderText ls ≠ aspectPrefix ls warnThreshold aspect := by
  obtain ⟨rest, hleader⟩ := leaderText_start ls
  obtain ⟨start, rest', hfollower, hstart⟩ := aspectPrefix_start ls warnThreshold aspect
  rw [hleader, hfollower, ← String.append_assoc]
  intro h
  have hchar := congrArg (fun s : String => s.toList[5]?) h
  simp only [String.toList_append] at hchar
  rcases hstart with rfl | rfl
  · rw [List.getElem?_append_left (by decide), List.getElem?_append_left (by decide)] at hchar
    revert hchar
    decide
  · rw [List.getElem?_append_left (by decide), List.getElem?_append_left (by decide)] at hchar
    revert hchar
    decide

variable {ls : LeaderContextSnapshot} {explorers : List ProvisionedExplorer}

theorem getElem?_slotPrefixes (j : Nat) :
    (slotPrefixes (some ls) explorers)[j]? =
      explorers[j]?.map fun e => slotPrefix (some ls) explorers (e, j) := by
  rw [slotPrefixes, List.getElem?_map, List.getElem?_zipIdx, Option.map_map]
  simp [Function.comp_def]

/-- The leader's prefix goes to slots with the leader's id. -/
theorem leaderText_iff (term : ls.term ≠ 0) {j : Nat} :
    (slotPrefixes (some ls) explorers)[j]? = some (some (leaderText ls)) ↔
      ∃ e, explorers[j]? = some e ∧ e.explorerId = ls.leaderExplorerId := by
  rw [getElem?_slotPrefixes, Option.map_eq_some_iff]
  apply exists_congr
  intro e
  apply and_congr_right
  intro _
  unfold slotPrefix
  rw [Option.bind_some, if_neg term]
  by_cases hid : e.explorerId = ls.leaderExplorerId
  · simp [hid, leaderText]
  · simpa [hid, buildFollowerPrefixWithAspect] using (leaderText_ne ls _ _).symm

/-- Where the leader is in one slot, the slots in front of another have one follower less. -/
theorem countP_take {leaderExplorerId : String} {lead : Nat}
    (only : ∀ j e, explorers[j]? = some e → (e.explorerId = leaderExplorerId ↔ j = lead)) {j : Nat}
    (h : j ≤ explorers.length) :
    (explorers.take j).countP (fun e => e.explorerId ≠ leaderExplorerId) =
      if j ≤ lead then j else j - 1 := by
  induction j with
  | zero => simp
  | succ j ih =>
      have hlt : j < explorers.length := by omega
      have hslot : explorers[j]? = some explorers[j] := List.getElem?_eq_getElem hlt
      rw [List.take_add_one, hslot, List.countP_append, ih (by omega)]
      have honly := only j _ hslot
      by_cases hlead : j = lead
      · subst hlead
        simp [honly.mpr rfl]
      · have hid : explorers[j].explorerId ≠ leaderExplorerId := fun heq => hlead (honly.mp heq)
        simp only [Option.toList_some, List.countP_cons, List.countP_nil, ne_eq, hid,
          not_false_eq_true, decide_true, if_true]
        split_ifs <;> omega

/-- The followers' prefixes go to the other slots, numbered as they come. -/
theorem slotPrefix_follower (term : ls.term ≠ 0) {lead : Nat}
    (only : ∀ j e, explorers[j]? = some e → (e.explorerId = ls.leaderExplorerId ↔ j = lead))
    {j : Nat} (hlt : j < explorers.length) (hj : j ≠ lead) :
    (slotPrefixes (some ls) explorers)[j]? =
      some (some (buildFollowerPrefixWithAspect ls (followerNumber lead j) (4 / 10))) := by
  have hslot : explorers[j]? = some explorers[j] := List.getElem?_eq_getElem hlt
  have hid : explorers[j].explorerId ≠ ls.leaderExplorerId :=
    fun heq => hj ((only j _ hslot).mp heq)
  have hnumber : followerIdx ls.leaderExplorerId explorers j = followerNumber lead j := by
    rw [followerIdx_eq hslot hid, countP_take only hlt.le, followerNumber]
    split_ifs <;> omega
  rw [getElem?_slotPrefixes, hslot, Option.map_some, slotPrefix, Option.bind_some, if_neg term,
    if_neg hid, hnumber]

/-- With more slots than aspects and the leader, the last follower has no aspect. -/
theorem exists_follower_beyond {lead slots aspects : Nat} (many : aspects + 1 < slots) :
    ∃ j < slots, j ≠ lead ∧ aspects ≤ followerNumber lead j := by
  by_cases hlead : lead = slots - 1
  · refine ⟨slots - 2, by omega, by omega, ?_⟩
    rw [followerNumber, if_pos (by omega)]
    omega
  · refine ⟨slots - 1, by omega, by omega, ?_⟩
    unfold followerNumber
    split_ifs <;> omega

theorem followerNumber_lt {lead slots aspects j : Nat} (enough : slots ≤ aspects + 1)
    (hlead : lead < slots) (hj : j < slots) (hne : j ≠ lead) : followerNumber lead j < aspects := by
  unfold followerNumber
  split_ifs <;> omega

/-- A wave is led exactly if the leader is the explorer of one of its slots and there is an
aspect for every other slot. -/
theorem leaderLeads_iff (term : ls.term ≠ 0) :
    LeaderLeads ls explorers ↔
      (∃! lead : Nat, ∃ e, explorers[lead]? = some e ∧ e.explorerId = ls.leaderExplorerId) ∧
        explorers.length ≤ ls.followerAspects.length + 1 := by
  constructor
  · rintro ⟨lead, led⟩
    refine ⟨⟨lead, (leaderText_iff term).mp led.leader, fun j hj =>
      led.alone j ((leaderText_iff term).mpr hj)⟩, ?_⟩
    by_contra hmany
    obtain ⟨j, hlt, hj, hnumber⟩ := exists_follower_beyond (not_le.mp hmany)
    obtain ⟨aspect, haspect, _⟩ := led.followers j hlt hj
    rw [List.getElem?_eq_none hnumber] at haspect
    cases haspect
  · rintro ⟨⟨lead, hlead, hunique⟩, hlength⟩
    obtain ⟨e, he, hleader⟩ := hlead
    have only : ∀ j e, explorers[j]? = some e →
        (e.explorerId = ls.leaderExplorerId ↔ j = lead) := by
      intro j e' he'
      constructor
      · intro hid
        exact hunique j ⟨e', he', hid⟩
      · rintro rfl
        rw [he] at he'
        cases he'
        exact hleader
    have hin := (List.getElem?_eq_some_iff.mp he).1
    refine ⟨lead, (leaderText_iff term).mpr ⟨e, he, hleader⟩, fun j hj =>
      hunique j ((leaderText_iff term).mp hj), fun j hlt hj => ?_⟩
    have hbound := followerNumber_lt hlength hin hlt hj
    refine ⟨_, List.getElem?_eq_getElem hbound, ?_⟩
    rw [slotPrefix_follower term only hlt hj, buildFollowerPrefixWithAspect,
      List.getElem?_eq_getElem hbound, Option.getD_some]

/-! ## The leader of a run -/

theorem mem_selectBestAndRunnerUp {scores : List (String × ℚ)} {best : String × Option String}
    (h : selectBestAndRunnerUp scores = some best) :
    best.1 ∈ scores.map Prod.fst ∧ ∀ id, best.2 = some id → id ∈ scores.map Prod.fst := by
  have hsorted : ∀ s ∈ scores.insertionSort (fun a b => b.2 ≤ a.2), s.1 ∈ scores.map Prod.fst :=
    fun s hs => List.mem_map_of_mem ((List.mem_insertionSort _).mp hs)
  unfold selectBestAndRunnerUp at h
  split at h
  next => cases h
  next winner hlist =>
    cases h
    rw [hlist] at hsorted
    exact ⟨hsorted _ List.mem_cons_self, fun id hid => by cases hid⟩
  next winner runnerUp rest hlist =>
    cases h
    rw [hlist] at hsorted
    refine ⟨hsorted _ List.mem_cons_self, fun id hid => ?_⟩
    cases hid
    exact hsorted _ (List.mem_cons_of_mem _ List.mem_cons_self)

/-- The leader of a plan was scored in the last wave. -/
theorem mem_of_plan {cfg : LeaderConfig} {c : LeaderFields} {plan : LeaderElectionPlan}
    (h : prepareLeaderElection cfg c = some plan) :
    plan.leaderExplorerId ∈ c.lastWaveVerificationEvents.map (·.explorerId) := by
  unfold prepareLeaderElection at h
  obtain ⟨best, hbest, rfl⟩ := Option.map_eq_some_iff.mp h
  obtain ⟨hwinner, hrunner⟩ := mem_selectBestAndRunnerUp hbest
  rw [List.map_map] at hwinner hrunner
  dsimp only
  split_ifs
  · cases hup : best.2 with
    | none => exact hwinner
    | some id => exact hrunner id hup
  · exact hwinner

/-- The id of the leader was drawn before. -/
def LeaderDrawn (ids : ExplorerIds) (s : Nat × LeaderFields) : Prop :=
  ∀ ls, s.2.leader = some ls → ∃ n, n < s.1 ∧ ls.leaderExplorerId = ids.new n

theorem LeaderDrawn.step {cfg : LeaderConfig} {ids : ExplorerIds} {s : Nat × LeaderFields}
    (h : LeaderDrawn ids s) (w : LedWave) : LeaderDrawn ids (ledWaveStep cfg ids s w) := by
  have hobserved : LeaderDrawn ids (w.wave.drawnAfter s.1, s.2.observe ids s.1 w) := by
    intro ls hls
    obtain ⟨n, hn, hid⟩ := h ls hls
    exact ⟨n, hn.trans_le (w.wave.drawn_le_drawnAfter s.1), hid⟩
  unfold ledWaveStep electLeader
  split
  next q _ =>
    split_ifs
    · split
      next plan hplan =>
        intro ls hls
        obtain ⟨n, _, hn, hid⟩ := w.wave.exists_new_of_event (mem_of_plan hplan)
        cases hls
        exact ⟨n, hn, hid⟩
      next => exact hobserved
    · exact hobserved
  next => exact hobserved

theorem leaderDrawn_run (cfg : LeaderConfig) (ids : ExplorerIds) (waves : List LedWave) :
    LeaderDrawn ids (ledRun cfg ids waves) := by
  have hfold : ∀ s, LeaderDrawn ids s → LeaderDrawn ids (waves.foldl (ledWaveStep cfg ids) s) := by
    induction waves with
    | nil => exact fun s h => h
    | cons w rest ih => exact fun s h => ih _ (h.step w)
  exact hfold _ fun ls hls => by cases hls

/-- In a wave behind an election no slot gets the leader's prefix. -/
theorem no_leader_among (cfg : LeaderConfig) (ids : ExplorerIds) (waves : List LedWave)
    (next : ScoredWave) {leader : LeaderState}
    (elected : (ledRun cfg ids waves).2.leader = some leader) :
    ∀ e ∈ next.explorers ids (ledRun cfg ids waves).1, e.explorerId ≠ leader.leaderExplorerId := by
  intro e he hid
  obtain ⟨n, hn, hleader⟩ := leaderDrawn_run cfg ids waves leader elected
  obtain ⟨m, hm, _, hnew⟩ := exists_new_of_provision he
  have hdrawn : m = n := ids.distinct (by rw [← hnew, ← hleader, hid])
  unfold ScoredWave.firstId at hm
  omega

/-- No wave that follows an election is led. -/
theorem elected_leader_never_leads (cfg : LeaderConfig) (ids : ExplorerIds)
    (waves : List LedWave) (next : ScoredWave) {leader : LeaderState}
    (elected : (ledRun cfg ids waves).2.leader = some leader) (term : 1 ≤ leader.term) :
    ¬ LeaderLeads (leader.toSnapshot (ledRun cfg ids waves).2.lastWaveViolatedConstraintIds)
      (next.explorers ids (ledRun cfg ids waves).1) := by
  have hterm : (leader.toSnapshot
      (ledRun cfg ids waves).2.lastWaveViolatedConstraintIds).term ≠ 0 := by
    change leader.term ≠ 0
    omega
  rw [leaderLeads_iff hterm]
  rintro ⟨⟨lead, ⟨e, he, hid⟩, _⟩, _⟩
  exact no_leader_among cfg ids waves next elected e (List.mem_of_getElem? he) hid

/-! ## A wave behind an election -/

def electionConfig : LeaderConfig := ⟨true, 5 / 100, 2, 1 / 10⟩

/-- The proposals violate one constraint, and the diagnosis has a question. -/
def failedWave : LedWave := ⟨evenWave, [], ["C-004"], [], some "Which key is reused?"⟩

def firstLeader : LeaderState :=
  { term := 1
    leaderExplorerId := "a"
    priorProposal := ""
    socraticQuestion := "Which key is reused?"
    confidenceHistory := [8 / 10]
    stagnationCount := 1
    beliefBuffer := ["Which key is reused?"]
    credibilityScore := 1
    followerAspects := ["C-004"] }

theorem failedWave_elects :
    (ledRun electionConfig plainIds [failedWave]).2.leader = some firstLeader := by
  decide +kernel

theorem first_leader_never_leads : ¬ LeaderLeads (firstLeader.toSnapshot
      (ledRun electionConfig plainIds [failedWave]).2.lastWaveViolatedConstraintIds)
    (evenWave.explorers plainIds (ledRun electionConfig plainIds [failedWave]).1) :=
  elected_leader_never_leads electionConfig plainIds [failedWave] evenWave failedWave_elects
    le_rfl

/-- A second wave of the same size has two followers and no leader. -/
theorem second_wave_unled :
    (ledRun electionConfig plainIds [failedWave]).2.leader = some firstLeader ∧
      ¬ LeaderLeads (firstLeader.toSnapshot ["C-004"]) (evenWave.explorers plainIds 2) := by
  refine ⟨failedWave_elects, ?_⟩
  rintro ⟨lead, led⟩
  have hnone : some (leaderText (firstLeader.toSnapshot ["C-004"])) ∉
      slotPrefixes (some (firstLeader.toSnapshot ["C-004"])) (evenWave.explorers plainIds 2) := by
    decide +kernel
  exact hnone (List.mem_of_getElem? led.leader)

end ControlPlane.Guarantees.LeaderSlots
