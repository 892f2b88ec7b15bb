import Mathlib.Data.List.AList
import Mathlib.Order.Lattice

/-!
# Maps that keep the best value for each key

An `AList` stands for a hash map together with the order in which it enumerates
its entries; `SameMap` forgets the order. `offer` writes a value unless the key
already holds one of at least the same rank. At each key this is `better`, a
maximum that prefers its left argument on ties: associative and idempotent, and
commutative exactly where equal ranks mean equal values.
-/
namespace ControlPlane.Lib

variable {κ ν ρ : Type} [DecidableEq κ] [LinearOrder ρ]

/-- Equal as finite maps. -/
def SameMap (m m' : AList fun _ : κ => ν) : Prop := ∀ key, m.lookup key = m'.lookup key

theorem SameMap.refl (m : AList fun _ : κ => ν) : SameMap m m := fun _ => rfl

theorem SameMap.symm {m m' : AList fun _ : κ => ν} (h : SameMap m m') : SameMap m' m :=
  fun key => (h key).symm

/-- Reordering the entries of a map gives the same map. -/
theorem sameMap_of_perm {m m' : AList fun _ : κ => ν} (h : m.entries.Perm m'.entries) :
    SameMap m m' :=
  fun _ => AList.perm_lookup h

/-! ## The better of two values -/

variable (rank : ν → ρ)

def better : Option ν → Option ν → Option ν
  | none, new => new
  | some old, none => some old
  | some old, some new => if rank old < rank new then some new else some old

@[simp] theorem better_none_left (new : Option ν) : better rank none new = new := by
  cases new <;> rfl

@[simp] theorem better_none_right (old : Option ν) : better rank old none = old := by
  cases old <;> rfl

theorem better_self (value : Option ν) : better rank value value = value := by
  cases value with
  | none => rfl
  | some v => simp [better]

theorem better_assoc (a b c : Option ν) :
    better rank (better rank a b) c = better rank a (better rank b c) := by
  cases a with
  | none => simp
  | some x =>
      cases b with
      | none => simp
      | some y =>
          cases c with
          | none => simp
          | some z =>
              by_cases hxy : rank x < rank y
              · by_cases hyz : rank y < rank z
                · simp [better, hxy, hyz, lt_trans hxy hyz]
                · simp [better, hxy, hyz]
              · by_cases hyz : rank y < rank z
                · simp [better, hxy, hyz]
                · have hxz : ¬ rank x < rank z :=
                    not_lt.mpr (le_trans (not_lt.mp hyz) (not_lt.mp hxy))
                  simp [better, hxy, hyz, hxz]

theorem better_comm_iff (a b : Option ν) :
    better rank a b = better rank b a ↔
      ∀ x y, a = some x → b = some y → rank x = rank y → x = y := by
  cases a with
  | none => simp
  | some x =>
      cases b with
      | none => simp
      | some y =>
          have hpair : (∀ v w, some x = some v → some y = some w → rank v = rank w → v = w) ↔
              (rank x = rank y → x = y) := by simp
          rw [hpair]
          rcases lt_trichotomy (rank x) (rank y) with hlt | heq | hgt
          · simp [better, hlt, not_lt.mpr hlt.le, hlt.ne]
          · simp [better, heq]
          · simp [better, hgt, not_lt.mpr hgt.le, hgt.ne']

/-! ## The best of a list -/

/-- The running best value, from a value that may be there already. -/
def bestOf (start : Option ν) (values : List ν) : Option ν :=
  values.foldl (fun best value => better rank best (some value)) start

@[simp] theorem bestOf_nil (start : Option ν) : bestOf rank start [] = start := rfl

@[simp] theorem bestOf_cons (start : Option ν) (value : ν) (rest : List ν) :
    bestOf rank start (value :: rest) = bestOf rank (better rank start (some value)) rest := rfl

/-- A held value that nothing in the list beats stays. -/
theorem bestOf_keeps {held : ν} {values : List ν} (h : ∀ value ∈ values, rank value ≤ rank held) :
    bestOf rank (some held) values = some held := by
  induction values with
  | nil => rfl
  | cons value rest ih =>
      have hstays : better rank (some held) (some value) = some held := by
        simp [better, not_lt.mpr (h value (by simp))]
      rw [bestOf_cons, hstays]
      exact ih (fun other hother => h other (by simp [hother]))

theorem better_some (old : Option ν) (new : ν) :
    ∃ best, better rank old (some new) = some best := by
  cases old with
  | none => exact ⟨new, rfl⟩
  | some held =>
      by_cases hrank : rank held < rank new
      · exact ⟨new, by simp [better, hrank]⟩
      · exact ⟨held, by simp [better, hrank]⟩

theorem better_rank {old : Option ν} {new best : ν} (h : better rank old (some new) = some best) :
    (old = some best ∨ new = best) ∧ rank new ≤ rank best ∧
      ∀ held, old = some held → rank held ≤ rank best := by
  cases old with
  | none =>
      simp only [better_none_left, Option.some.injEq] at h
      subst h
      simp
  | some held =>
      by_cases hrank : rank held < rank new
      · simp only [better, hrank, ↓reduceIte, Option.some.injEq] at h
        subst h
        simp [hrank.le]
      · simp only [better, hrank, ↓reduceIte, Option.some.injEq] at h
        subst h
        simp [not_lt.mp hrank]

/-- The best value is the start or one of the list, and nothing beats it. -/
theorem bestOf_wins {start : Option ν} {values : List ν} {best : ν}
    (h : bestOf rank start values = some best) :
    (start = some best ∨ best ∈ values) ∧ (∀ held, start = some held → rank held ≤ rank best) ∧
      ∀ value ∈ values, rank value ≤ rank best := by
  induction values generalizing start with
  | nil =>
      rw [bestOf_nil] at h
      subst h
      simp
  | cons value rest ih =>
      rw [bestOf_cons] at h
      obtain ⟨hfrom, hstart, hrest⟩ := ih h
      obtain ⟨next, hnext⟩ := better_some rank start value
      obtain ⟨horigin, hnew, hheld⟩ := better_rank rank hnext
      have hbest := hstart next hnext
      refine ⟨?_, ?_, List.forall_mem_cons.mpr ⟨le_trans hnew hbest, hrest⟩⟩
      · rcases hfrom with heq | hmem
        · rw [hnext, Option.some.injEq] at heq
          subst heq
          exact horigin.imp id (fun h => by simp [h])
        · exact .inr (by simp [hmem])
      · intro held hstarted
        exact le_trans (hheld held hstarted) hbest

theorem bestOf_isSome {start : Option ν} {values : List ν} (h : values ≠ [] ∨ start.isSome) :
    ∃ best, bestOf rank start values = some best := by
  induction values generalizing start with
  | nil =>
      simp only [ne_eq, not_true_eq_false, false_or] at h
      exact Option.isSome_iff_exists.mp h
  | cons value rest ih =>
      obtain ⟨next, hnext⟩ := better_some rank start value
      exact ih (.inr (by simp [hnext]))

/-! ## Offering values to a map -/

def offer (m : AList fun _ : κ => ν) (key : κ) (value : ν) : AList fun _ : κ => ν :=
  match m.lookup key with
  | none => m.insert key value
  | some old => if rank old < rank value then m.insert key value else m

def offerAll (m : AList fun _ : κ => ν) (offers : List (κ × ν)) : AList fun _ : κ => ν :=
  offers.foldl (fun m o => offer rank m o.1 o.2) m

theorem lookup_offer (m : AList fun _ : κ => ν) (key other : κ) (value : ν) :
    (offer rank m key value).lookup other =
      if other = key then better rank (m.lookup key) (some value) else m.lookup other := by
  unfold offer
  by_cases hkey : other = key
  · subst hkey
    cases hold : m.lookup other with
    | none => simp
    | some old =>
        by_cases hrank : rank old < rank value
        · simp [better, hrank]
        · simp [better, hrank, hold]
  · cases hold : m.lookup key with
    | none => simp [hkey, AList.lookup_insert_ne hkey]
    | some old =>
        by_cases hrank : rank old < rank value
        · simp [hkey, hrank, AList.lookup_insert_ne hkey]
        · simp [hkey, hrank]

/-- A key sees only the offers made to it, in their order. -/
theorem lookup_offerAll (offers : List (κ × ν)) (m : AList fun _ : κ => ν) (key : κ) :
    (offerAll rank m offers).lookup key =
      bestOf rank (m.lookup key) ((offers.filter fun o => decide (o.1 = key)).map Prod.snd) := by
  induction offers generalizing m with
  | nil => rfl
  | cons o rest ih =>
      rw [offerAll, List.foldl_cons, ← offerAll, ih, lookup_offer]
      by_cases hkey : o.1 = key
      · subst hkey
        simp
      · simp [hkey, Ne.symm hkey]

/-! ## Merging two maps -/

/-- Offering every entry of a map, in any order: the better value at each key. -/
theorem lookup_offerAll_entries (m m' : AList fun _ : κ => ν) (key : κ) :
    (offerAll rank m (m'.entries.map fun e => (e.1, e.2))).lookup key =
      better rank (m.lookup key) (m'.lookup key) := by
  rw [lookup_offerAll]
  cases hheld : m'.lookup key with
  | none =>
      have hnone : (m'.entries.map fun e => (e.1, e.2)).filter
          (fun o => decide (o.1 = key)) = [] := by
        rw [List.filter_eq_nil_iff]
        intro o ho
        obtain ⟨e, he, rfl⟩ := List.mem_map.mp ho
        simp only [decide_eq_true_eq]
        rintro rfl
        exact AList.lookup_eq_none.mp hheld (List.mem_map_of_mem he)
      simp [hnone]
  | some value =>
      have hmem : (⟨key, value⟩ : Sigma fun _ : κ => ν) ∈ m'.entries :=
        AList.mem_lookup_iff.mp hheld
      have honly : (m'.entries.map fun e => (e.1, e.2)).filter
          (fun o => decide (o.1 = key)) = [(key, value)] := by
        refine List.perm_singleton.mp ?_
        refine (List.perm_ext_iff_of_nodup ?_ (by simp)).mpr ?_
        · refine List.Nodup.filter _ (List.Nodup.map ?_ m'.nodupKeys.nodup)
          rintro ⟨a, x⟩ ⟨b, y⟩ h
          simpa using h
        · rintro ⟨a, x⟩
          simp only [List.mem_filter, List.mem_map, decide_eq_true_eq, List.mem_singleton,
            Prod.mk.injEq]
          constructor
          · rintro ⟨⟨e, he, rfl, rfl⟩, rfl⟩
            have : m'.lookup e.1 = some e.2 := AList.mem_lookup_iff.mpr he
            rw [this] at hheld
            exact ⟨rfl, Option.some.inj hheld⟩
          · rintro ⟨rfl, rfl⟩
            exact ⟨⟨_, hmem, rfl, rfl⟩, rfl⟩
      simp [honly]

/-! ## What a map of best values was built from -/

/-- The best of what was offered, or nothing where nothing was. -/
def IsBestOf (offered : List ν) : Option ν → Prop
  | none => offered = []
  | some best => best ∈ offered ∧ ∀ value ∈ offered, rank value ≤ rank best

theorem IsBestOf.better {xs ys : List ν} {a b : Option ν} (ha : IsBestOf rank xs a)
    (hb : IsBestOf rank ys b) : IsBestOf rank (xs ++ ys) (better rank a b) := by
  cases a with
  | none =>
      have hxs : xs = [] := ha
      simpa [hxs] using hb
  | some x =>
      cases b with
      | none =>
          have hys : ys = [] := hb
          simpa [hys] using ha
      | some y =>
          obtain ⟨hx, hxBest⟩ := ha
          obtain ⟨hy, hyBest⟩ := hb
          by_cases hrank : rank x < rank y
          · simp only [Lib.better, hrank, ↓reduceIte]
            refine ⟨List.mem_append_right xs hy, ?_⟩
            intro value hvalue
            rcases List.mem_append.mp hvalue with hleft | hright
            · exact le_trans (hxBest value hleft) hrank.le
            · exact hyBest value hright
          · simp only [Lib.better, hrank, ↓reduceIte]
            refine ⟨List.mem_append_left ys hx, ?_⟩
            intro value hvalue
            rcases List.mem_append.mp hvalue with hleft | hright
            · exact hxBest value hleft
            · exact le_trans (hyBest value hright) (not_lt.mp hrank)

/-- The offers that were made to a key. -/
def offersTo (key : κ) (offers : List (κ × ν)) : List ν :=
  (offers.filter fun o => decide (o.1 = key)).map Prod.snd

theorem mem_offersTo {key : κ} {offers : List (κ × ν)} {value : ν} :
    value ∈ offersTo key offers ↔ (key, value) ∈ offers := by
  simp [offersTo]

@[simp] theorem offersTo_append (key : κ) (offers offers' : List (κ × ν)) :
    offersTo key (offers ++ offers') = offersTo key offers ++ offersTo key offers' := by
  simp [offersTo]

/-- Each key holds the best of the offers made to it. -/
def HoldsBest (m : AList fun _ : κ => ν) (offers : List (κ × ν)) : Prop :=
  ∀ key, IsBestOf rank (offersTo key offers) (m.lookup key)

theorem HoldsBest.empty : HoldsBest rank (∅ : AList fun _ : κ => ν) [] := by
  intro key
  simp [offersTo, IsBestOf]

theorem HoldsBest.offer {m : AList fun _ : κ => ν} {offers : List (κ × ν)}
    (h : HoldsBest rank m offers) (key : κ) (value : ν) :
    HoldsBest rank (offer rank m key value) (offers ++ [(key, value)]) := by
  intro other
  rw [lookup_offer, offersTo_append]
  by_cases hkey : other = key
  · subst hkey
    have hnew : IsBestOf rank (offersTo other [(other, value)]) (some value) := by
      simp [offersTo, IsBestOf]
    rw [if_pos rfl]
    exact (h other).better rank hnew
  · have hnone : offersTo other [(key, value)] = [] := by simp [offersTo, Ne.symm hkey]
    rw [if_neg hkey, hnone, List.append_nil]
    exact h other

/-- A map that holds the better value of two others at each key. -/
theorem HoldsBest.merge {m m' joined : AList fun _ : κ => ν} {offers offers' : List (κ × ν)}
    (h : HoldsBest rank m offers) (h' : HoldsBest rank m' offers')
    (hjoined : ∀ key, joined.lookup key = better rank (m.lookup key) (m'.lookup key)) :
    HoldsBest rank joined (offers ++ offers') := by
  intro key
  rw [hjoined key, offersTo_append]
  exact (h key).better rank (h' key)

theorem HoldsBest.congr {m m' : AList fun _ : κ => ν} {offers : List (κ × ν)}
    (h : HoldsBest rank m offers) (same : SameMap m' m) : HoldsBest rank m' offers := by
  intro key
  rw [same key]
  exact h key

end ControlPlane.Lib
