import Mathlib.Data.List.Nodup
import Mathlib.Data.List.Perm.Subperm
import Mathlib.Logic.Relation

/-!
# Connected components by breadth-first search

A search takes nodes from a queue, and puts the neighbours it has not visited yet at
its end; a component is what one search takes. With symmetric neighbours that stay
among the nodes, and a step for each node, the components partition the nodes and
two nodes are in one of them exactly if a path leads from one to the other.
-/
namespace ControlPlane.Lib

variable {α : Type} [DecidableEq α]

/-- The neighbours that are not visited yet, each once. -/
def freshOf (visited : List α) : List α → List α
  | [] => []
  | n :: rest =>
      if n ∈ visited then freshOf visited rest else n :: freshOf (visited ++ [n]) rest

/-- The search, for at most `fuel` nodes: what is visited after it, and its component. -/
def search (adj : α → List α) : Nat → List α → List α → List α → List α × List α
  | fuel + 1, node :: queue, visited, cluster =>
      let fresh := freshOf visited (adj node)
      search adj fuel (queue ++ fresh) (visited ++ fresh) (cluster ++ [node])
  | _, _, visited, cluster => (visited, cluster)

/-- A search from each node that no search before it has visited. -/
def componentsFrom (adj : α → List α) (fuel : Nat) : List α → List α → List (List α)
  | _, [] => []
  | visited, node :: rest =>
      if node ∈ visited then componentsFrom adj fuel visited rest
      else
        let found := search adj fuel [node] (visited ++ [node]) []
        found.2 :: componentsFrom adj fuel found.1 rest

def components (adj : α → List α) (nodes : List α) : List (List α) :=
  componentsFrom adj nodes.length [] nodes

/-- A path along the neighbours. -/
abbrev Path (adj : α → List α) : α → α → Prop := Relation.ReflTransGen fun a b => b ∈ adj a

theorem mem_freshOf {visited ns : List α} {x : α} :
    x ∈ freshOf visited ns ↔ x ∈ ns ∧ x ∉ visited := by
  induction ns generalizing visited with
  | nil => simp [freshOf]
  | cons n ns ih =>
      unfold freshOf
      split_ifs with hn
      · rw [ih, List.mem_cons]
        constructor
        · rintro ⟨hx, hnew⟩
          exact ⟨Or.inr hx, hnew⟩
        · rintro ⟨rfl | hx, hnew⟩
          · exact absurd hn hnew
          · exact ⟨hx, hnew⟩
      · rw [List.mem_cons, ih, List.mem_cons, List.mem_append, List.mem_singleton]
        constructor
        · rintro (rfl | ⟨hx, hnew⟩)
          · exact ⟨Or.inl rfl, hn⟩
          · exact ⟨Or.inr hx, fun h => hnew (Or.inl h)⟩
        · rintro ⟨rfl | hx, hnew⟩
          · exact Or.inl rfl
          · by_cases hxn : x = n
            · exact Or.inl hxn
            · exact Or.inr ⟨hx, fun h => h.elim hnew hxn⟩

theorem freshOf_nodup (visited ns : List α) : (freshOf visited ns).Nodup := by
  induction ns generalizing visited with
  | nil => exact List.nodup_nil
  | cons n ns ih =>
      unfold freshOf
      split_ifs with hn
      · exact ih visited
      · refine List.nodup_cons.mpr ⟨fun h => ?_, ih _⟩
        exact (mem_freshOf.mp h).2 (List.mem_append_right _ (List.mem_singleton.mpr rfl))

section Search

variable {adj : α → List α} {nodes : List α}

/-- What holds while a search from `root` is under way; `before` is what the searches
before it have visited. -/
structure Searching (adj : α → List α) (nodes before : List α) (root : α)
    (queue visited cluster : List α) : Prop where
  nodup : (cluster ++ queue).Nodup
  within : ∀ x ∈ cluster ++ queue, x ∈ nodes
  started : root ∈ cluster ++ queue
  fresh : ∀ x ∈ cluster ++ queue, x ∉ before
  visited_iff : ∀ x, x ∈ visited ↔ x ∈ before ∨ x ∈ cluster ++ queue
  reached : ∀ x ∈ cluster ++ queue, Path adj root x
  expanded : ∀ x ∈ cluster, ∀ y ∈ adj x, y ∈ visited

omit [DecidableEq α] in
theorem searching_start (adj : α → List α) {before : List α} {root : α} (hroot : root ∈ nodes)
    (hnew : root ∉ before) : Searching adj nodes before root [root] (before ++ [root]) [] := by
  constructor <;> simp [hroot, hnew, Relation.ReflTransGen.refl]

theorem Searching.step (inside : ∀ x ∈ nodes, ∀ y ∈ adj x, y ∈ nodes) {before : List α}
    {root node : α} {queue visited cluster : List α}
    (h : Searching adj nodes before root (node :: queue) visited cluster) :
    Searching adj nodes before root (queue ++ freshOf visited (adj node))
      (visited ++ freshOf visited (adj node)) (cluster ++ [node]) := by
  have hsplit : cluster ++ [node] ++ (queue ++ freshOf visited (adj node)) =
      (cluster ++ node :: queue) ++ freshOf visited (adj node) := by simp
  have hnode : node ∈ cluster ++ node :: queue := by simp
  have hmem : ∀ x, x ∈ cluster ++ [node] ++ (queue ++ freshOf visited (adj node)) ↔
      x ∈ cluster ++ node :: queue ∨ x ∈ freshOf visited (adj node) := by
    intro x
    rw [hsplit, List.mem_append]
  constructor
  · rw [hsplit]
    refine List.nodup_append.mpr ⟨h.nodup, freshOf_nodup _ _, ?_⟩
    rintro x hx y hy rfl
    exact (mem_freshOf.mp hy).2 ((h.visited_iff x).mpr (Or.inr hx))
  · intro x hx
    rcases (hmem x).mp hx with hx | hx
    · exact h.within x hx
    · exact inside node (h.within node hnode) x (mem_freshOf.mp hx).1
  · exact (hmem root).mpr (Or.inl h.started)
  · intro x hx hbefore
    rcases (hmem x).mp hx with hx | hx
    · exact h.fresh x hx hbefore
    · exact (mem_freshOf.mp hx).2 ((h.visited_iff x).mpr (Or.inl hbefore))
  · intro x
    rw [List.mem_append, h.visited_iff, hmem, or_assoc]
  · intro x hx
    rcases (hmem x).mp hx with hx | hx
    · exact h.reached x hx
    · exact (h.reached node hnode).tail (mem_freshOf.mp hx).1
  · intro x hx y hy
    rcases List.mem_append.mp hx with hx | hx
    · exact List.mem_append_left _ (h.expanded x hx y hy)
    · rw [List.mem_singleton.mp hx] at hy
      by_cases hvisited : y ∈ visited
      · exact List.mem_append_left _ hvisited
      · exact List.mem_append_right _ (mem_freshOf.mpr ⟨hy, hvisited⟩)

/-- With a step for each node the queue runs empty. -/
theorem Searching.run (inside : ∀ x ∈ nodes, ∀ y ∈ adj x, y ∈ nodes) {before : List α} {root : α}
    {queue visited cluster : List α}
    (h : Searching adj nodes before root queue visited cluster) (fuel : Nat)
    (enough : nodes.length ≤ fuel + cluster.length) :
    Searching adj nodes before root [] (search adj fuel queue visited cluster).1
      (search adj fuel queue visited cluster).2 := by
  induction fuel generalizing queue visited cluster with
  | zero =>
      have hfits := (h.nodup.subperm h.within).length_le
      rw [List.length_append] at hfits
      have hempty : queue = [] := List.length_eq_zero_iff.mp (by omega)
      subst hempty
      exact h
  | succ fuel ih =>
      cases queue with
      | nil => exact h
      | cons node queue =>
          apply ih (h.step inside)
          rw [List.length_append, List.length_singleton]
          omega

/-- More steps than enough change nothing. -/
theorem Searching.fuel (inside : ∀ x ∈ nodes, ∀ y ∈ adj x, y ∈ nodes) {before : List α} {root : α}
    {queue visited cluster : List α}
    (h : Searching adj nodes before root queue visited cluster) (fuel more : Nat)
    (enough : nodes.length ≤ fuel + cluster.length) (enough' : nodes.length ≤ more + cluster.length) :
    search adj fuel queue visited cluster = search adj more queue visited cluster := by
  have hfits := (h.nodup.subperm h.within).length_le
  rw [List.length_append] at hfits
  induction fuel generalizing more queue visited cluster with
  | zero =>
      have hempty : queue = [] := List.length_eq_zero_iff.mp (by omega)
      subst hempty
      cases more <;> rfl
  | succ fuel ih =>
      cases queue with
      | nil => cases more <;> rfl
      | cons node queue =>
          rw [List.length_cons] at hfits
          obtain ⟨more, rfl⟩ : ∃ n, more = n + 1 := ⟨more - 1, by omega⟩
          have hnext := h.step inside
          have hnextFits := (hnext.nodup.subperm hnext.within).length_le
          have hlength : (cluster ++ [node]).length = cluster.length + 1 := by simp
          rw [List.length_append] at hnextFits
          exact ih hnext more (by omega) (by omega) hnextFits

omit [DecidableEq α] in
/-- A finished search has found exactly what a path from its root leads to. -/
theorem Searching.found (symmetric : ∀ x y, y ∈ adj x → x ∈ adj y) {before : List α} {root : α}
    {visited cluster : List α} (closed : ∀ x ∈ before, ∀ y ∈ adj x, y ∈ before)
    (h : Searching adj nodes before root [] visited cluster) (x : α) :
    x ∈ cluster ↔ Path adj root x := by
  have hcluster : cluster ++ [] = cluster := List.append_nil cluster
  constructor
  · intro hx
    exact h.reached x (by rwa [hcluster])
  · intro hpath
    induction hpath with
    | refl => simpa using h.started
    | @tail y z _ hstep ih =>
        rcases (h.visited_iff z).mp (h.expanded y ih z hstep) with hbefore | hz
        · have hback := closed z hbefore y (symmetric y z hstep)
          exact absurd hback (h.fresh y (by rwa [hcluster]))
        · rwa [hcluster] at hz

omit [DecidableEq α] in
theorem Searching.closed {before : List α} {root : α} {visited cluster : List α}
    (closed : ∀ x ∈ before, ∀ y ∈ adj x, y ∈ before)
    (h : Searching adj nodes before root [] visited cluster) :
    ∀ x ∈ visited, ∀ y ∈ adj x, y ∈ visited := by
  intro x hx y hy
  rcases (h.visited_iff x).mp hx with hbefore | hcluster
  · exact (h.visited_iff y).mpr (Or.inl (closed x hbefore y hy))
  · rw [List.append_nil] at hcluster
    exact h.expanded x hcluster y hy

end Search

/-! ## All components -/

/-- A list of components of the graph. -/
structure Partition (adj : α → List α) (nodes before : List α) (cs : List (List α)) : Prop where
  /-- Members of a component are connected, and with nothing outside of it. -/
  connected : ∀ c ∈ cs, ∀ x ∈ c, ∀ y, y ∈ c ↔ Path adj x y
  nonempty : ∀ c ∈ cs, c ≠ []
  within : ∀ c ∈ cs, ∀ x ∈ c, x ∈ nodes
  fresh : ∀ c ∈ cs, ∀ x ∈ c, x ∉ before
  disjoint : cs.Pairwise List.Disjoint

section Components

variable {adj : α → List α} {nodes : List α}

omit [DecidableEq α] in
theorem Path.symm (symmetric : ∀ x y, y ∈ adj x → x ∈ adj y) {x y : α} (h : Path adj x y) :
    Path adj y x := by
  induction h with
  | refl => exact .refl
  | tail _ hstep ih => exact (Relation.ReflTransGen.single (symmetric _ _ hstep)).trans ih

omit [DecidableEq α] in
/-- A finished search adds the component of its root to those found after it. -/
theorem Partition.cons (symmetric : ∀ x y, y ∈ adj x → x ∈ adj y) {before : List α} {root : α}
    {visited cluster : List α} {cs : List (List α)}
    (closed : ∀ x ∈ before, ∀ y ∈ adj x, y ∈ before)
    (hsearch : Searching adj nodes before root [] visited cluster)
    (h : Partition adj nodes visited cs) : Partition adj nodes before (cluster :: cs) := by
  have hfound := hsearch.found symmetric closed
  have hroot : root ∈ cluster := (hfound root).mpr .refl
  constructor
  · intro c hc x hx y
    rcases List.mem_cons.mp hc with rfl | hc
    · rw [hfound]
      have hpath := (hfound x).mp hx
      exact ⟨(hpath.symm symmetric).trans, hpath.trans⟩
    · exact h.connected c hc x hx y
  · intro c hc
    rcases List.mem_cons.mp hc with rfl | hc
    · exact List.ne_nil_of_mem hroot
    · exact h.nonempty c hc
  · intro c hc x hx
    rcases List.mem_cons.mp hc with rfl | hc
    · exact hsearch.within x (by rwa [List.append_nil])
    · exact h.within c hc x hx
  · intro c hc x hx hbefore
    rcases List.mem_cons.mp hc with rfl | hc
    · exact hsearch.fresh x (by rwa [List.append_nil]) hbefore
    · exact h.fresh c hc x hx ((hsearch.visited_iff x).mpr (Or.inl hbefore))
  · refine List.pairwise_cons.mpr ⟨fun c hc x hx hx' => ?_, h.disjoint⟩
    have hvisited : x ∈ visited := by
      rw [hsearch.visited_iff, List.append_nil]
      exact Or.inr hx
    exact h.fresh c hc x hx' hvisited

theorem componentsFrom_partition (inside : ∀ x ∈ nodes, ∀ y ∈ adj x, y ∈ nodes)
    (symmetric : ∀ x y, y ∈ adj x → x ∈ adj y) (rest before : List α)
    (hrest : ∀ x ∈ rest, x ∈ nodes) (closed : ∀ x ∈ before, ∀ y ∈ adj x, y ∈ before) :
    Partition adj nodes before (componentsFrom adj nodes.length before rest) ∧
      ∀ x ∈ rest, x ∈ before ∨ ∃ c ∈ componentsFrom adj nodes.length before rest, x ∈ c := by
  induction rest generalizing before with
  | nil => exact ⟨⟨by simp [componentsFrom], by simp [componentsFrom], by simp [componentsFrom],
      by simp [componentsFrom], by simp [componentsFrom]⟩, by simp⟩
  | cons node rest ih =>
      have hnode := hrest node (List.mem_cons_self ..)
      have hrest' : ∀ x ∈ rest, x ∈ nodes := fun x hx => hrest x (List.mem_cons_of_mem _ hx)
      unfold componentsFrom
      split_ifs with hvisited
      · obtain ⟨hpartition, hcover⟩ := ih before hrest' closed
        refine ⟨hpartition, fun x hx => ?_⟩
        rcases List.mem_cons.mp hx with rfl | hx
        · exact Or.inl hvisited
        · exact hcover x hx
      · dsimp only
        have hsearch := (searching_start adj hnode hvisited).run inside nodes.length (by simp)
        generalize search adj nodes.length [node] (before ++ [node]) [] = found at hsearch ⊢
        obtain ⟨hpartition, hcover⟩ := ih found.1 hrest' (hsearch.closed closed)
        refine ⟨hpartition.cons symmetric closed hsearch, fun x hx => ?_⟩
        rcases List.mem_cons.mp hx with rfl | hx
        · have hroot := (hsearch.found symmetric closed x).mpr .refl
          exact Or.inr ⟨found.2, List.mem_cons_self .., hroot⟩
        · rcases hcover x hx with hvisited' | ⟨c, hc, hxc⟩
          · rw [hsearch.visited_iff, List.append_nil] at hvisited'
            rcases hvisited' with hbefore | hx
            · exact Or.inl hbefore
            · exact Or.inr ⟨found.2, List.mem_cons_self .., hx⟩
          · exact Or.inr ⟨c, List.mem_cons_of_mem _ hc, hxc⟩

/-- The components partition the nodes into connected parts. -/
theorem components_partition (inside : ∀ x ∈ nodes, ∀ y ∈ adj x, y ∈ nodes)
    (symmetric : ∀ x y, y ∈ adj x → x ∈ adj y) :
    Partition adj nodes [] (components adj nodes) ∧
      ∀ x ∈ nodes, ∃ c ∈ components adj nodes, x ∈ c := by
  obtain ⟨hpartition, hcover⟩ := componentsFrom_partition inside symmetric nodes []
    (fun x hx => hx) (by simp)
  refine ⟨hpartition, fun x hx => ?_⟩
  rcases hcover x hx with h | h
  · cases h
  · exact h

/-- No search takes a node twice. -/
theorem componentsFrom_nodup (inside : ∀ x ∈ nodes, ∀ y ∈ adj x, y ∈ nodes) (rest before : List α)
    (hrest : ∀ x ∈ rest, x ∈ nodes) :
    ∀ c ∈ componentsFrom adj nodes.length before rest, c.Nodup := by
  induction rest generalizing before with
  | nil => simp [componentsFrom]
  | cons node rest ih =>
      have hrest' : ∀ x ∈ rest, x ∈ nodes := fun x hx => hrest x (List.mem_cons_of_mem _ hx)
      unfold componentsFrom
      split_ifs with hvisited
      · exact ih before hrest'
      · have hnode := hrest node (List.mem_cons_self ..)
        have hsearch := (searching_start adj hnode hvisited).run inside nodes.length (by simp)
        intro c hc
        rcases List.mem_cons.mp hc with rfl | hc
        · exact (List.nodup_append.mp hsearch.nodup).1
        · exact ih _ hrest' c hc

/-- The searches end by themselves: what they find does not depend on the steps they get. -/
theorem componentsFrom_fuel (inside : ∀ x ∈ nodes, ∀ y ∈ adj x, y ∈ nodes) (rest before : List α)
    (hrest : ∀ x ∈ rest, x ∈ nodes) {fuel : Nat} (enough : nodes.length ≤ fuel) :
    componentsFrom adj fuel before rest = componentsFrom adj nodes.length before rest := by
  induction rest generalizing before with
  | nil => rfl
  | cons node rest ih =>
      have hrest' : ∀ x ∈ rest, x ∈ nodes := fun x hx => hrest x (List.mem_cons_of_mem _ hx)
      unfold componentsFrom
      split_ifs with hvisited
      · exact ih before hrest'
      · have hnode := hrest node (List.mem_cons_self ..)
        have hsame := (searching_start adj hnode hvisited).fuel inside fuel nodes.length
          (by simpa using enough) (by simp)
        dsimp only
        rw [hsame, ih _ hrest']

/-- The node a component starts from stands in front of every later component. -/
theorem componentsFrom_ordered (inside : ∀ x ∈ nodes, ∀ y ∈ adj x, y ∈ nodes)
    (symmetric : ∀ x y, y ∈ adj x → x ∈ adj y) (done rest before : List α)
    (hsplit : done ++ rest = nodes) (hdone : ∀ x ∈ done, x ∈ before)
    (closed : ∀ x ∈ before, ∀ y ∈ adj x, y ∈ before) :
    (componentsFrom adj nodes.length before rest).Pairwise fun c later =>
      ∃ a ∈ c, ∀ x ∈ later, nodes.idxOf a < nodes.idxOf x := by
  induction rest generalizing done before with
  | nil => exact List.Pairwise.nil
  | cons node rest ih =>
      have hsplit' : (done ++ [node]) ++ rest = nodes := by
        rw [List.append_assoc, List.singleton_append, hsplit]
      have hnode : node ∈ nodes := by simp [← hsplit]
      have hrest : ∀ x ∈ rest, x ∈ nodes := fun x hx => by simp [← hsplit, hx]
      unfold componentsFrom
      split_ifs with hvisited
      · refine ih (done ++ [node]) before hsplit' (fun x hx => ?_) closed
        rcases List.mem_append.mp hx with hx | hx
        · exact hdone x hx
        · rwa [List.mem_singleton.mp hx]
      · dsimp only
        have hsearch := (searching_start adj hnode hvisited).run inside nodes.length (by simp)
        generalize search adj nodes.length [node] (before ++ [node]) [] = found at hsearch ⊢
        have hroot := (hsearch.found symmetric closed node).mpr .refl
        have hdone' : ∀ x ∈ done ++ [node], x ∈ found.1 := by
          intro x hx
          rw [hsearch.visited_iff, List.append_nil]
          rcases List.mem_append.mp hx with hx | hx
          · exact Or.inl (hdone x hx)
          · rw [List.mem_singleton.mp hx]
            exact Or.inr hroot
        refine List.pairwise_cons.mpr ⟨fun later hlater => ⟨node, hroot, fun x hx => ?_⟩,
          ih (done ++ [node]) found.1 hsplit' hdone' (hsearch.closed closed)⟩
        have hfresh := (componentsFrom_partition inside symmetric rest found.1 hrest
          (hsearch.closed closed)).1.fresh later hlater x hx
        have hfirst : nodes.idxOf node = done.length := by
          rw [← hsplit, List.idxOf_append_of_notMem fun h => hvisited (hdone node h),
            List.idxOf_cons_self, Nat.add_zero]
        have hlate : (done ++ [node]).length ≤ nodes.idxOf x := by
          rw [← hsplit', List.idxOf_append_of_notMem fun h => hfresh (hdone' x h)]
          exact Nat.le_add_right ..
        rw [List.length_append, List.length_singleton] at hlate
        omega

/-- A node is in exactly one of the components. -/
theorem filter_mem_length {cs : List (List α)} (disjoint : cs.Pairwise List.Disjoint) {x : α}
    (h : ∃ c ∈ cs, x ∈ c) : (cs.filter fun c => x ∈ c).length = 1 := by
  induction cs with
  | nil =>
      obtain ⟨c, hc, _⟩ := h
      cases hc
  | cons first cs ih =>
      obtain ⟨hfirst, hcs⟩ := List.pairwise_cons.mp disjoint
      by_cases hx : x ∈ first
      · have hnone : cs.filter (fun c => x ∈ c) = [] := by
          refine List.filter_eq_nil_iff.mpr fun c hc hxc => ?_
          exact hfirst c hc hx (by simpa using hxc)
        rw [List.filter_cons_of_pos (by simpa using hx), hnone]
        rfl
      · rw [List.filter_cons_of_neg (by simpa using hx)]
        apply ih hcs
        obtain ⟨c, hc, hxc⟩ := h
        rcases List.mem_cons.mp hc with rfl | hc
        · exact absurd hxc hx
        · exact ⟨c, hc, hxc⟩

end Components

end ControlPlane.Lib
