import Mathlib.Data.Finset.Card
import Mathlib.Data.Finset.Range
import Mathlib.Data.List.Forall2
import Mathlib.Data.List.Range

/-!
# Union-find with path compression

Parents as a list of positions. They are a forest where some rank falls along every link, so that
a search takes no more steps than there are positions. A search points what it passes at the root,
which moves no position to another root; a link of two roots joins their trees. So the trees after
a run of links are the classes of the least equivalence that contains the linked pairs.
-/
namespace ControlPlane.Lib.UnionFind

/-- The root of a position, with the parents that point at it; `none` without fuel. -/
def find : ℕ → List ℕ → ℕ → Option (List ℕ × ℕ)
  | 0, _, _ => none
  | fuel + 1, parent, x =>
      match parent[x]? with
      | none => none
      | some p =>
          if p = x then some (parent, x)
          else
            match find fuel parent p with
            | none => none
            | some (compressed, root) => some (compressed.set x root, root)

def union (fuel : ℕ) (parent : List ℕ) (i j : ℕ) : Option (List ℕ) :=
  match find fuel parent i with
  | none => none
  | some (searched, ri) =>
      match find fuel searched j with
      | none => none
      | some (searched, rj) => some (if ri ≠ rj then searched.set ri rj else searched)

/-- The pairs that are to be linked are, in their order. -/
def joinAll (link : ℕ × ℕ → Bool) (fuel : ℕ) : List ℕ → List (ℕ × ℕ) → Option (List ℕ)
  | parent, [] => some parent
  | parent, e :: rest =>
      if link e then
        match union fuel parent e.1 e.2 with
        | none => none
        | some parent => joinAll link fuel parent rest
      else joinAll link fuel parent rest

def findAll (fuel : ℕ) : List ℕ → List ℕ → Option (List ℕ × List ℕ)
  | parent, [] => some (parent, [])
  | parent, x :: rest =>
      match find fuel parent x with
      | none => none
      | some (parent, root) =>
          match findAll fuel parent rest with
          | none => none
          | some (parent, roots) => some (parent, root :: roots)

/-! ## Trees -/

/-- The parents lead from a position to a root. -/
inductive Leads (parent : List ℕ) : ℕ → ℕ → Prop where
  | root {r : ℕ} (h : parent[r]? = some r) : Leads parent r r
  | step {x p r : ℕ} (h : parent[x]? = some p) (hne : p ≠ x) (hp : Leads parent p r) :
      Leads parent x r

/-- The two positions have one root. -/
def Joined (parent : List ℕ) (x y : ℕ) : Prop := ∃ r, Leads parent x r ∧ Leads parent y r

/-- A rank that falls along the links. -/
def Ranked (parent : List ℕ) (rank : ℕ → ℕ) : Prop :=
  ∀ x p : ℕ, parent[x]? = some p → p ≠ x → rank p < rank x

structure Forest (parent : List ℕ) : Prop where
  inside : ∀ x p : ℕ, parent[x]? = some p → p < parent.length
  ranked : ∃ rank, Ranked parent rank

section Trees

variable {parent : List ℕ} {x y r s : ℕ}

theorem Leads.isRoot (h : Leads parent x r) : parent[r]? = some r := by
  induction h with
  | root h => exact h
  | step _ _ _ ih => exact ih

theorem Leads.lt (h : Leads parent x r) : x < parent.length := by
  cases h with
  | root h => exact (List.getElem?_eq_some_iff.mp h).1
  | step h _ _ => exact (List.getElem?_eq_some_iff.mp h).1

theorem Leads.unique (h : Leads parent x r) (h' : Leads parent x s) : r = s := by
  induction h with
  | root h =>
      cases h' with
      | root _ => rfl
      | step hs hne _ =>
          rw [h, Option.some_inj] at hs
          exact absurd hs.symm hne
  | step h hne _ ih =>
      cases h' with
      | root hs =>
          rw [h, Option.some_inj] at hs
          exact absurd hs hne
      | step hs _ hp =>
          rw [h, Option.some_inj] at hs
          rw [← hs] at hp
          exact ih hp

theorem leads_of_root (hr : parent[r]? = some r) (h : Leads parent r s) : s = r :=
  h.unique (.root hr)

theorem Leads.rank_le {rank : ℕ → ℕ} (ranked : Ranked parent rank) (h : Leads parent x r) :
    rank r ≤ rank x := by
  induction h with
  | root _ => exact le_refl _
  | step h hne _ ih => exact ih.trans (ranked _ _ h hne).le

theorem Leads.rank_lt {rank : ℕ → ℕ} (ranked : Ranked parent rank) (h : Leads parent x r)
    (hne : r ≠ x) : rank r < rank x := by
  cases h with
  | root _ => exact absurd rfl hne
  | step h hp hleads => exact (hleads.rank_le ranked).trans_lt (ranked _ _ h hp)

theorem Forest.exists_leads (forest : Forest parent) (hx : x < parent.length) :
    ∃ r, Leads parent x r := by
  obtain ⟨rank, ranked⟩ := forest.ranked
  induction hrank : rank x using Nat.strong_induction_on generalizing x with
  | _ k ih =>
      have hp := List.getElem?_eq_getElem hx
      by_cases hroot : parent[x] = x
      · exact ⟨x, .root (by rw [hp, hroot])⟩
      · have hlt := ranked x _ hp hroot
        obtain ⟨r, hr⟩ := ih _ (hrank ▸ hlt) (forest.inside x _ hp) rfl
        exact ⟨r, .step hp hroot hr⟩

theorem joined_refl (forest : Forest parent) (hx : x < parent.length) : Joined parent x x := by
  obtain ⟨r, hr⟩ := forest.exists_leads hx
  exact ⟨r, hr, hr⟩

theorem Joined.symm (h : Joined parent x y) : Joined parent y x := by
  obtain ⟨r, hx, hy⟩ := h
  exact ⟨r, hy, hx⟩

theorem Joined.trans {z : ℕ} (h : Joined parent x y) (h' : Joined parent y z) :
    Joined parent x z := by
  obtain ⟨r, hx, hy⟩ := h
  obtain ⟨s, hy', hz⟩ := h'
  rw [hy'.unique hy] at hz
  exact ⟨r, hx, hz⟩

theorem joined_iff_of_leads (h : Leads parent y r) : Joined parent x y ↔ Leads parent x r := by
  constructor
  · intro hjoined
    obtain ⟨s, hx, hy⟩ := hjoined
    rw [h.unique hy]
    exact hx
  · intro hx
    exact ⟨r, hx, h⟩

/-- Every position is its own tree at the start. -/
theorem leads_range {n : ℕ} : Leads (List.range n) x r ↔ x = r ∧ x < n := by
  constructor
  · intro h
    cases h with
    | root h => exact ⟨rfl, by simpa using (List.getElem?_eq_some_iff.mp h).1⟩
    | step h hne _ =>
        obtain ⟨_, hp⟩ := List.getElem?_eq_some_iff.mp h
        rw [List.getElem_range] at hp
        exact absurd hp.symm hne
  · intro h
    obtain ⟨rfl, hx⟩ := h
    exact .root (List.getElem?_range hx)

theorem forest_range (n : ℕ) : Forest (List.range n) := by
  have hself : ∀ x p : ℕ, (List.range n)[x]? = some p → x < n ∧ p = x := by
    intro x p h
    obtain ⟨hx, hp⟩ := List.getElem?_eq_some_iff.mp h
    rw [List.length_range] at hx
    rw [List.getElem_range] at hp
    exact ⟨hx, hp.symm⟩
  constructor
  case inside =>
    intro x p h
    obtain ⟨hx, rfl⟩ := hself x p h
    simpa using hx
  case ranked => exact ⟨fun _ => 0, fun x p h hne => absurd (hself x p h).2 hne⟩

end Trees

/-! ## Path compression -/

section Compression

variable {parent : List ℕ} {x r : ℕ}

theorem leads_compress (h : Leads parent x r) (hne : r ≠ x) {y s : ℕ} :
    Leads (parent.set x r) y s ↔ Leads parent y s := by
  have hself : (parent.set x r)[x]? = some r := List.getElem?_set_self h.lt
  have hother : ∀ z : ℕ, z ≠ x → (parent.set x r)[z]? = parent[z]? :=
    fun z hz => List.getElem?_set_ne hz.symm
  have hroot : Leads (parent.set x r) r r := .root (by rw [hother r hne, h.isRoot])
  constructor
  · intro hleads
    induction hleads with
    | @root s hs =>
        by_cases hsx : s = x
        · rw [hsx, hself, Option.some_inj] at hs
          exact absurd hs hne
        · exact .root (by rw [← hother s hsx, hs])
    | @step y p s hp hpy _ ih =>
        by_cases hyx : y = x
        · rw [hyx, hself, Option.some_inj] at hp
          rw [← hp] at ih
          rw [hyx, leads_of_root h.isRoot ih]
          exact h
        · exact .step (by rw [← hother y hyx, hp]) hpy ih
  · intro hleads
    induction hleads with
    | @root s hs =>
        by_cases hsx : s = x
        · rw [hsx] at hs
          exact absurd (leads_of_root hs h) hne
        · exact .root (by rw [hother s hsx, hs])
    | @step y p s hp hpy hleads ih =>
        by_cases hyx : y = x
        · have hs := Leads.step hp hpy hleads
          rw [hyx] at hs ⊢
          rw [hs.unique h]
          exact .step hself hne hroot
        · exact .step (by rw [hother y hyx, hp]) hpy ih

theorem Forest.compress (forest : Forest parent) (h : Leads parent x r) (hne : r ≠ x) :
    Forest (parent.set x r) := by
  have hset : ∀ y p : ℕ, (parent.set x r)[y]? = some p →
      (y = x ∧ p = r) ∨ (y ≠ x ∧ parent[y]? = some p) := by
    intro y p hp
    by_cases hyx : y = x
    · rw [hyx, List.getElem?_set_self h.lt, Option.some_inj] at hp
      exact Or.inl ⟨hyx, hp.symm⟩
    · rw [List.getElem?_set_ne (Ne.symm hyx)] at hp
      exact Or.inr ⟨hyx, hp⟩
  constructor
  case inside =>
    intro y p hp
    rw [List.length_set]
    rcases hset y p hp with ⟨_, rfl⟩ | ⟨_, hp⟩
    · exact (List.getElem?_eq_some_iff.mp h.isRoot).1
    · exact forest.inside y p hp
  case ranked =>
    obtain ⟨rank, ranked⟩ := forest.ranked
    refine ⟨rank, fun y p hp hpy => ?_⟩
    rcases hset y p hp with ⟨rfl, rfl⟩ | ⟨_, hp⟩
    · exact h.rank_lt ranked hpy
    · exact ranked y p hp hpy

end Compression

/-- The trees of the two are the same. -/
structure Keeps (parent parent' : List ℕ) : Prop where
  forest : Forest parent'
  length : parent'.length = parent.length
  leads : ∀ x r, Leads parent' x r ↔ Leads parent x r

theorem Keeps.refl {parent : List ℕ} (forest : Forest parent) : Keeps parent parent :=
  ⟨forest, rfl, fun _ _ => Iff.rfl⟩

theorem Keeps.trans {a b c : List ℕ} (h : Keeps a b) (h' : Keeps b c) : Keeps a c :=
  ⟨h'.forest, h'.length.trans h.length, fun x r => (h'.leads x r).trans (h.leads x r)⟩

theorem Keeps.joined {parent parent' : List ℕ} (h : Keeps parent parent') (x y : ℕ) :
    Joined parent' x y ↔ Joined parent x y :=
  exists_congr fun r => and_congr (h.leads x r) (h.leads y r)

/-! ## Searching -/

section Search

variable {parent : List ℕ} {x r : ℕ}

/-- The positions of lower rank. -/
def lower (rank : ℕ → ℕ) (n x : ℕ) : Finset ℕ := (Finset.range n).filter fun y => rank y < rank x

theorem card_lower_lt {rank : ℕ → ℕ} {n p : ℕ} (hp : p < n) (h : rank p < rank x) :
    (lower rank n p).card < (lower rank n x).card := by
  apply Finset.card_lt_card
  refine Finset.ssubset_iff_of_subset ?_ |>.mpr ⟨p, ?_, ?_⟩
  · intro y hy
    obtain ⟨hyn, hlt⟩ := Finset.mem_filter.mp hy
    exact Finset.mem_filter.mpr ⟨hyn, hlt.trans h⟩
  · exact Finset.mem_filter.mpr ⟨Finset.mem_range.mpr hp, h⟩
  · intro hmem
    exact lt_irrefl _ (Finset.mem_filter.mp hmem).2

theorem card_lower_lt_length {rank : ℕ → ℕ} {n : ℕ} (hx : x < n) :
    (lower rank n x).card < n := by
  have hproper : lower rank n x ⊂ Finset.range n := by
    refine Finset.ssubset_iff_of_subset (Finset.filter_subset _ _) |>.mpr
      ⟨x, Finset.mem_range.mpr hx, ?_⟩
    intro hmem
    exact lt_irrefl _ (Finset.mem_filter.mp hmem).2
  simpa using Finset.card_lt_card hproper

theorem find_of_lower (forest : Forest parent) {rank : ℕ → ℕ} (ranked : Ranked parent rank)
    (h : Leads parent x r) {fuel : ℕ} (hfuel : (lower rank parent.length x).card < fuel) :
    ∃ parent', find fuel parent x = some (parent', r) ∧ Keeps parent parent' := by
  induction h generalizing fuel with
  | @root r hr =>
      obtain ⟨fuel, rfl⟩ : ∃ f, fuel = f + 1 := ⟨fuel - 1, by omega⟩
      refine ⟨parent, ?_, .refl forest⟩
      rw [find, hr]
      simp
  | @step x p r hp hpx hleads ih =>
      obtain ⟨fuel, rfl⟩ : ∃ f, fuel = f + 1 := ⟨fuel - 1, by omega⟩
      have hcard := card_lower_lt (forest.inside x p hp) (ranked x p hp hpx)
      have hroom : (lower rank parent.length p).card < fuel := by omega
      obtain ⟨parent', hfind, hkeeps⟩ := ih hroom
      have hx : Leads parent x r := .step hp hpx hleads
      have hne : r ≠ x := by
        intro heq
        have hlt := (hleads.rank_le ranked).trans_lt (ranked x p hp hpx)
        rw [heq] at hlt
        exact lt_irrefl _ hlt
      have hx' := (hkeeps.leads x r).mpr hx
      refine ⟨parent'.set x r, ?_, hkeeps.trans
        ⟨hkeeps.forest.compress hx' hne, List.length_set, fun y s => leads_compress hx' hne⟩⟩
      rw [find, hp]
      simp only [if_neg hpx, hfind]

/-- A search ends within as many calls as there are positions, at the root. -/
theorem find_spec (forest : Forest parent) (h : Leads parent x r) {fuel : ℕ}
    (hfuel : parent.length ≤ fuel) :
    ∃ parent', find fuel parent x = some (parent', r) ∧ Keeps parent parent' := by
  obtain ⟨rank, ranked⟩ := forest.ranked
  exact find_of_lower forest ranked h ((card_lower_lt_length h.lt).trans_le hfuel)

theorem findAll_spec (forest : Forest parent) {fuel : ℕ} (hfuel : parent.length ≤ fuel)
    (xs : List ℕ) (inside : ∀ x ∈ xs, x < parent.length) :
    ∃ parent' roots, findAll fuel parent xs = some (parent', roots) ∧ Keeps parent parent' ∧
      List.Forall₂ (Leads parent) xs roots := by
  induction xs generalizing parent with
  | nil => exact ⟨parent, [], rfl, .refl forest, .nil⟩
  | cons x rest ih =>
      obtain ⟨hx, hrest⟩ := List.forall_mem_cons.mp inside
      obtain ⟨r, hr⟩ := forest.exists_leads hx
      obtain ⟨searched, hfind, hkeeps⟩ := find_spec forest hr hfuel
      obtain ⟨parent', roots, hall, hkeeps', hroots⟩ := ih hkeeps.forest
        (by rw [hkeeps.length]; exact hfuel) (by rw [hkeeps.length]; exact hrest)
      refine ⟨parent', r :: roots, ?_, hkeeps.trans hkeeps', .cons hr ?_⟩
      · rw [findAll, hfind]
        simp only [hall]
      · exact hroots.imp fun x r h => (hkeeps.leads x r).mp h

end Search

/-! ## Linking -/

section Link

variable {parent : List ℕ} {a b : ℕ}

theorem leads_link (ha : parent[a]? = some a) (hb : parent[b]? = some b) (hne : a ≠ b) {x s : ℕ} :
    Leads (parent.set a b) x s ↔ ∃ r, Leads parent x r ∧ s = if r = a then b else r := by
  have hself : (parent.set a b)[a]? = some b :=
    List.getElem?_set_self (List.getElem?_eq_some_iff.mp ha).1
  have hother : ∀ z : ℕ, z ≠ a → (parent.set a b)[z]? = parent[z]? :=
    fun z hz => List.getElem?_set_ne hz.symm
  have hroot : Leads (parent.set a b) b b := .root (by rw [hother b hne.symm, hb])
  constructor
  · intro h
    induction h with
    | @root s hs =>
        by_cases hsa : s = a
        · rw [hsa, hself, Option.some_inj] at hs
          exact absurd hs.symm hne
        · exact ⟨s, .root (by rw [← hother s hsa, hs]), (if_neg hsa).symm⟩
    | @step x p s hp hpx _ ih =>
        obtain ⟨r, hr, hs⟩ := ih
        by_cases hxa : x = a
        · rw [hxa, hself, Option.some_inj] at hp
          rw [← hp] at hr
          rw [leads_of_root hb hr, if_neg hne.symm] at hs
          rw [hxa]
          exact ⟨a, .root ha, by rw [hs, if_pos rfl]⟩
        · exact ⟨r, .step (by rw [← hother x hxa, hp]) hpx hr, hs⟩
  · intro h
    obtain ⟨r, hr, rfl⟩ := h
    induction hr with
    | @root r hr =>
        split
        · next hra =>
          rw [hra]
          exact .step hself hne.symm hroot
        · next hra => exact .root (by rw [hother r hra, hr])
    | @step x p r hp hpx _ ih =>
        have hxa : x ≠ a := by
          intro heq
          rw [heq, ha, Option.some_inj] at hp
          exact hpx (hp.symm.trans heq.symm)
        exact .step (by rw [hother x hxa, hp]) hpx ih

/-- What leads to the linked root is lifted above the rank of its new parent. -/
theorem Forest.link (forest : Forest parent) (ha : parent[a]? = some a)
    (hb : parent[b]? = some b) (hne : a ≠ b) : Forest (parent.set a b) := by
  classical
  have hset : ∀ x p : ℕ, (parent.set a b)[x]? = some p →
      (x = a ∧ p = b) ∨ (x ≠ a ∧ parent[x]? = some p) := by
    intro x p hp
    by_cases hxa : x = a
    · rw [hxa, List.getElem?_set_self (List.getElem?_eq_some_iff.mp ha).1, Option.some_inj] at hp
      exact Or.inl ⟨hxa, hp.symm⟩
    · rw [List.getElem?_set_ne (Ne.symm hxa)] at hp
      exact Or.inr ⟨hxa, hp⟩
  constructor
  case inside =>
    intro x p hp
    rw [List.length_set]
    rcases hset x p hp with ⟨_, rfl⟩ | ⟨_, hp⟩
    · exact (List.getElem?_eq_some_iff.mp hb).1
    · exact forest.inside x p hp
  case ranked =>
    obtain ⟨rank, ranked⟩ := forest.ranked
    refine ⟨fun x => rank x + if Leads parent x a then rank b + 1 else 0, fun x p hp hpx => ?_⟩
    rcases hset x p hp with ⟨rfl, rfl⟩ | ⟨_, hp⟩
    · have hlast : ¬Leads parent p x := fun h => hne (leads_of_root hb h)
      simp only [if_pos (Leads.root ha), if_neg hlast]
      omega
    · have hsame : Leads parent p a ↔ Leads parent x a := by
        constructor
        · exact .step hp hpx
        · intro h
          cases h with
          | root h =>
              rw [hp, Option.some_inj] at h
              exact absurd h hpx
          | step h _ hleads =>
              rw [hp, Option.some_inj] at h
              rwa [h]
      have hrank := ranked x p hp hpx
      simp only [hsame]
      omega

theorem joined_link (ha : parent[a]? = some a) (hb : parent[b]? = some b) (hne : a ≠ b) {x y : ℕ} :
    Joined (parent.set a b) x y ↔ Joined parent x y ∨
      (Joined parent x a ∧ Joined parent b y) ∨ (Joined parent x b ∧ Joined parent a y) := by
  have hroots : ∀ {z r}, parent[r]? = some r → (Joined parent z r ↔ Leads parent z r) :=
    fun hr => joined_iff_of_leads (.root hr)
  constructor
  · intro h
    obtain ⟨s, hx, hy⟩ := h
    obtain ⟨r, hr, hsr⟩ := (leads_link ha hb hne).mp hx
    obtain ⟨t, ht, hst⟩ := (leads_link ha hb hne).mp hy
    rw [hsr] at hst
    split_ifs at hst with hra hta hta
    · exact Or.inl ⟨a, hra ▸ hr, hta ▸ ht⟩
    · exact Or.inr (Or.inl ⟨(hroots ha).mpr (hra ▸ hr), ((hroots hb).mpr (hst ▸ ht)).symm⟩)
    · exact Or.inr (Or.inr ⟨(hroots hb).mpr (hst ▸ hr), ((hroots ha).mpr (hta ▸ ht)).symm⟩)
    · exact Or.inl ⟨r, hr, hst ▸ ht⟩
  · intro h
    rcases h with ⟨r, hx, hy⟩ | ⟨hx, hy⟩ | ⟨hx, hy⟩
    · exact ⟨_, (leads_link ha hb hne).mpr ⟨r, hx, rfl⟩, (leads_link ha hb hne).mpr ⟨r, hy, rfl⟩⟩
    · exact ⟨b, (leads_link ha hb hne).mpr ⟨a, (hroots ha).mp hx, (if_pos rfl).symm⟩,
        (leads_link ha hb hne).mpr ⟨b, (hroots hb).mp hy.symm, (if_neg hne.symm).symm⟩⟩
    · exact ⟨b, (leads_link ha hb hne).mpr ⟨b, (hroots hb).mp hx, (if_neg hne.symm).symm⟩,
        (leads_link ha hb hne).mpr ⟨a, (hroots ha).mp hy.symm, (if_pos rfl).symm⟩⟩

end Link

/-! ## Runs -/

section Runs

variable {parent : List ℕ} {fuel : ℕ}

theorem union_spec (forest : Forest parent) (hfuel : parent.length ≤ fuel) {i j : ℕ}
    (hi : i < parent.length) (hj : j < parent.length) :
    ∃ parent', union fuel parent i j = some parent' ∧ Forest parent' ∧
      parent'.length = parent.length ∧
      ∀ x y, Joined parent' x y ↔ Joined parent x y ∨
        (Joined parent x i ∧ Joined parent j y) ∨ (Joined parent x j ∧ Joined parent i y) := by
  obtain ⟨ri, hri⟩ := forest.exists_leads hi
  obtain ⟨rj, hrj⟩ := forest.exists_leads hj
  obtain ⟨first, hfirst, hkeeps⟩ := find_spec forest hri hfuel
  have hfuel' : first.length ≤ fuel := by
    rw [hkeeps.length]
    exact hfuel
  obtain ⟨second, hsecond, hkeeps'⟩ :=
    find_spec hkeeps.forest ((hkeeps.leads j rj).mpr hrj) hfuel'
  have hboth := hkeeps.trans hkeeps'
  have hunion : union fuel parent i j = some (if ri ≠ rj then second.set ri rj else second) := by
    unfold union
    simp only [hfirst, hsecond]
  have hti : ∀ x, Joined parent x ri ↔ Joined parent x i := fun x =>
    (joined_iff_of_leads (.root hri.isRoot)).trans (joined_iff_of_leads hri).symm
  have htj : ∀ x, Joined parent x rj ↔ Joined parent x j := fun x =>
    (joined_iff_of_leads (.root hrj.isRoot)).trans (joined_iff_of_leads hrj).symm
  by_cases hroots : ri = rj
  · refine ⟨second, by rw [hunion, if_neg (not_not.mpr hroots)], hboth.forest, hboth.length, ?_⟩
    intro x y
    rw [hboth.joined]
    constructor
    · exact Or.inl
    · intro h
      have hij : Joined parent i j := ⟨rj, hroots ▸ hri, hrj⟩
      rcases h with h | ⟨hx, hy⟩ | ⟨hx, hy⟩
      · exact h
      · exact hx.trans (hij.trans hy)
      · exact hx.trans (hij.symm.trans hy)
  · have hri' := ((hboth.leads i ri).mpr hri).isRoot
    have hrj' := ((hboth.leads j rj).mpr hrj).isRoot
    refine ⟨second.set ri rj, by rw [hunion, if_pos hroots], hboth.forest.link hri' hrj' hroots,
      List.length_set.trans hboth.length, ?_⟩
    intro x y
    have hsymm : ∀ a b, Joined parent a b ↔ Joined parent b a := fun a b => ⟨.symm, .symm⟩
    rw [joined_link hri' hrj' hroots]
    simp only [hboth.joined]
    rw [hti, htj, hsymm rj y, htj, hsymm y j, hsymm ri y, hti, hsymm y i]

/-- The trees after a run: the least equivalence above the trees before it and the linked pairs. -/
structure Generated (link : ℕ × ℕ → Bool) (pairs : List (ℕ × ℕ)) (parent parent' : List ℕ) :
    Prop where
  forest : Forest parent'
  length : parent'.length = parent.length
  keeps : ∀ x y, Joined parent x y → Joined parent' x y
  links : ∀ e ∈ pairs, link e = true → Joined parent' e.1 e.2
  least : ∀ E : ℕ → ℕ → Prop, Equivalence E → (∀ x y, Joined parent x y → E x y) →
    (∀ e ∈ pairs, link e = true → E e.1 e.2) → ∀ x y, Joined parent' x y → E x y

theorem joinAll_spec {link : ℕ × ℕ → Bool} (forest : Forest parent) (hfuel : parent.length ≤ fuel)
    (pairs : List (ℕ × ℕ)) (inside : ∀ e ∈ pairs, e.1 < parent.length ∧ e.2 < parent.length) :
    ∃ parent', joinAll link fuel parent pairs = some parent' ∧
      Generated link pairs parent parent' := by
  induction pairs generalizing parent with
  | nil =>
      refine ⟨parent, rfl, forest, rfl, fun _ _ h => h, ?_, fun E _ h _ => h⟩
      intro e he
      cases he
  | cons e rest ih =>
      obtain ⟨⟨hi, hj⟩, hrest⟩ := List.forall_mem_cons.mp inside
      by_cases hlink : link e = true
      · obtain ⟨linked, hunion, hforest, hlength, hjoined⟩ := union_spec forest hfuel hi hj
        have hij : Joined linked e.1 e.2 :=
          (hjoined _ _).mpr (Or.inr (Or.inl ⟨joined_refl forest hi, joined_refl forest hj⟩))
        obtain ⟨parent', hrun, hgen⟩ := ih hforest (by rw [hlength]; exact hfuel)
          (by rw [hlength]; exact hrest)
        refine ⟨parent', by rw [joinAll, if_pos hlink, hunion]; exact hrun, hgen.forest,
          hgen.length.trans hlength, ?_, ?_, ?_⟩
        · intro x y h
          exact hgen.keeps x y ((hjoined x y).mpr (Or.inl h))
        · intro e' he' hlink'
          rcases List.mem_cons.mp he' with rfl | he'
          · exact hgen.keeps _ _ hij
          · exact hgen.links e' he' hlink'
        · intro E hE hstart hpairs
          obtain ⟨hhead, htail⟩ := List.forall_mem_cons.mp hpairs
          refine hgen.least E hE (fun x y h => ?_) htail
          rcases (hjoined x y).mp h with h | ⟨hx, hy⟩ | ⟨hx, hy⟩
          · exact hstart x y h
          · exact hE.trans (hstart _ _ hx) (hE.trans (hhead hlink) (hstart _ _ hy))
          · exact hE.trans (hstart _ _ hx) (hE.trans (hE.symm (hhead hlink)) (hstart _ _ hy))
      · obtain ⟨parent', hrun, hgen⟩ := ih forest hfuel hrest
        refine ⟨parent', by rw [joinAll, if_neg hlink]; exact hrun, hgen.forest, hgen.length,
          hgen.keeps, ?_, ?_⟩
        · intro e' he' hlink'
          rcases List.mem_cons.mp he' with rfl | he'
          · exact absurd hlink' hlink
          · exact hgen.links e' he' hlink'
        · intro E hE hstart hpairs
          exact hgen.least E hE hstart (List.forall_mem_cons.mp hpairs).2

end Runs

end ControlPlane.Lib.UnionFind
