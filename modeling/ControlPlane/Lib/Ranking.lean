import ControlPlane.Lib.Entries
import ControlPlane.Lib.Walks
import Mathlib.Data.Finset.Card
import Mathlib.Order.Bounds.Basic

/-!
# Rankings that are cut

Scored values are collected in a hash map under their names: the first value of a name stays
and takes the best score of its name. The map is walked, sorted by descending score, filtered
and cut. A value comes through on every walk exactly if it is the first of its name, the
filter passes it, and fewer of the other names that come to the cut score as high than the
cut has room for.
-/
namespace ControlPlane.Lib

/-! ## A cut behind a sort -/

section Cut

variable {α κ : Type} [DecidableEq α] [LinearOrder κ] {key : α → κ}

/-- The others that rank as high, ties included. -/
def contenders (key : α → κ) (l : List α) (a : α) : List α :=
  l.filter fun b => decide (b ≠ a ∧ key a ≤ key b)

theorem mem_contenders {l : List α} {a b : α} :
    b ∈ contenders key l a ↔ b ∈ l ∧ b ≠ a ∧ key a ≤ key b := by
  simp [contenders]

theorem contenders_perm {l l' : List α} (h : l.Perm l') (a : α) :
    (contenders key l a).length = (contenders key l' a).length :=
  (h.filter _).length_eq

/-- What the sort puts in front of `a` ranks as high. -/
theorem mem_take_of_contenders {s : List α} {a : α} {cap : Nat}
    (sorted : s.Pairwise fun a b => key b ≤ key a) (ha : a ∈ s)
    (room : (contenders key s a).length < cap) : a ∈ s.take cap := by
  obtain ⟨p, q, rfl, hfirst⟩ := List.eq_append_cons_of_mem ha
  have hfront : contenders key p a = p := by
    apply List.filter_eq_self.mpr
    intro b hb
    have hkey : key a ≤ key b :=
      (List.pairwise_append.mp sorted).2.2 b hb a List.mem_cons_self
    have hne : b ≠ a := fun h => hfirst (h ▸ hb)
    simp [hne, hkey]
  have hlength : p.length < cap := by
    have hall : (contenders key (p ++ a :: q) a).length =
        p.length + (contenders key (a :: q) a).length := by
      rw [contenders, List.filter_append, List.length_append, ← contenders, ← contenders, hfront]
    omega
  rw [List.take_append, List.mem_append]
  right
  obtain ⟨k, hk⟩ : ∃ k, cap - p.length = k + 1 := ⟨cap - p.length - 1, by omega⟩
  rw [hk, List.take_succ_cons]
  exact List.mem_cons_self

/-- The entries can be met in such an order that all contenders come before `a`. -/
theorem exists_walk_not_taken {l : List α} {a : α} {keep : α → Bool} {cap : Nat}
    (full : cap ≤ (contenders key (l.filter keep) a).length) :
    ∃ w : Walk α, a ∉ ((sortDescending key (w.run l)).filter keep).take cap := by
  let p := sortDescending key (contenders key l a)
  let q := sortDescending key (l.filter fun b => !decide (b ≠ a ∧ key a ≤ key b))
  have hp : p.Perm (contenders key l a) := sortDescending_perm _
  have hq : q.Perm (l.filter fun b => !decide (b ≠ a ∧ key a ≤ key b)) := sortDescending_perm _
  have hperm : (p ++ q).Perm l := (hp.append hq).trans (List.filter_append_perm _ l)
  obtain ⟨w, hw⟩ := exists_walk hperm
  have hsorted : (p ++ q).Pairwise fun a b => key b ≤ key a := by
    rw [List.pairwise_append]
    refine ⟨sortDescending_sorted _, sortDescending_sorted _, fun b hb c hc => ?_⟩
    have hb' := (mem_contenders.mp (hp.mem_iff.mp hb)).2.2
    have hc' := (List.mem_filter.mp (hq.mem_iff.mp hc)).2
    by_cases hca : c = a
    · rw [hca]
      exact hb'
    · have hlow : key c < key a := by simpa [hca] using hc'
      exact hlow.le.trans hb'
  have hrun : sortDescending key (w.run l) = p ++ q := by
    rw [hw]
    exact hsorted.insertionSort_eq
  have hlength : cap ≤ (p.filter keep).length := by
    have hcount : (p.filter keep).length = (contenders key (l.filter keep) a).length := by
      rw [(hp.filter keep).length_eq, contenders, contenders, List.filter_comm]
    omega
  refine ⟨w, fun h => ?_⟩
  rw [hrun, List.filter_append, List.take_append_of_le_length hlength] at h
  have hmem := (List.mem_filter.mp (List.mem_of_mem_take h)).1
  exact (mem_contenders.mp (hp.mem_iff.mp hmem)).2.1 rfl

/-- What is filtered and kept by the cut on every walk. -/
theorem taken_iff {l : List α} {a : α} {keep : α → Bool} {cap : Nat} :
    (∀ w : Walk α, a ∈ ((sortDescending key (w.run l)).filter keep).take cap) ↔
      a ∈ l.filter keep ∧ (contenders key (l.filter keep) a).length < cap := by
  have hperm : ∀ w : Walk α, ((sortDescending key (w.run l)).filter keep).Perm (l.filter keep) :=
    fun w => ((sortDescending_perm _).trans (w.perm l)).filter keep
  constructor
  · intro h
    refine ⟨(hperm .stored).mem_iff.mp (List.mem_of_mem_take (h .stored)), ?_⟩
    by_contra hfull
    obtain ⟨w, hw⟩ := exists_walk_not_taken (not_lt.mp hfull)
    exact hw (h w)
  · intro ⟨ha, hroom⟩ w
    have hsorted : ((sortDescending key (w.run l)).filter keep).Pairwise fun a b => key b ≤ key a :=
      (sortDescending_sorted _).filter keep
    apply mem_take_of_contenders hsorted ((hperm w).mem_iff.mpr ha)
    rw [contenders_perm (hperm w)]
    exact hroom

end Cut

/-! ## Values under their names -/

section Collect

variable {κ ν ρ : Type} [DecidableEq κ]

variable (name : ν → κ)

/-- The first value of the name. -/
def leader (entries : List (ν × ρ)) (key : κ) : Option ν :=
  (entries.find? fun e => decide (name e.1 = key)).map Prod.fst

def scores (entries : List (ν × ρ)) (key : κ) : Set ρ :=
  {s | ∃ e ∈ entries, name e.1 = key ∧ e.2 = s}

variable {name}

theorem scores_cons (e : ν × ρ) (rest : List (ν × ρ)) (key : κ) :
    scores name (e :: rest) key =
      if name e.1 = key then insert e.2 (scores name rest key) else scores name rest key := by
  ext s
  by_cases hkey : name e.1 = key
  · simp [scores, hkey, eq_comm (a := s)]
  · simp [scores, hkey]

theorem name_leader {entries : List (ν × ρ)} {key : κ} {n : ν}
    (h : leader name entries key = some n) :
    name n = key ∧ key ∈ entries.map fun e => name e.1 := by
  obtain ⟨e, hfind, rfl⟩ := Option.map_eq_some_iff.mp h
  have hkey : name e.1 = key := by simpa using List.find?_some hfind
  exact ⟨hkey, List.mem_map.mpr ⟨e, List.mem_of_find?_eq_some hfind, hkey⟩⟩

variable [LinearOrder ρ]

/-- The value that is there stays; its score rises. -/
def raise (new : ν × ρ) : Option (ν × ρ) → ν × ρ
  | none => new
  | some old => if old.2 < new.2 then (old.1, new.2) else old

def collect (name : ν → κ) (entries : List (ν × ρ)) : List (κ × (ν × ρ)) :=
  entries.foldl (fun m e => replaceEntry (name e.1) (raise e) m) []

/-- One name reaches every score of the other. -/
def Reaches (name : ν → κ) (entries : List (ν × ρ)) (key other : κ) : Prop :=
  ∀ e ∈ entries, name e.1 = other → ∃ e' ∈ entries, name e'.1 = key ∧ e.2 ≤ e'.2

instance (entries : List (ν × ρ)) (key other : κ) : Decidable (Reaches name entries key other) :=
  inferInstanceAs (Decidable (∀ e ∈ entries, _))

/-- The other names whose values pass and rank as high as the value. -/
def rivals (name : ν → κ) (keep : ν → Bool) (entries : List (ν × ρ)) (n : ν) : Finset κ :=
  (entries.map fun e => name e.1).toFinset.filter fun key =>
    key ≠ name n ∧ (leader name entries key).any keep = true ∧ Reaches name entries key (name n)

/-! ### What is collected -/

/-- One entry meets what is held under a key. -/
def meet (name : ν → κ) (key : κ) (held : Option (ν × ρ)) (e : ν × ρ) : Option (ν × ρ) :=
  if key = name e.1 then some (raise e held) else held

theorem lookup_collect (entries : List (ν × ρ)) (key : κ) :
    (collect name entries).lookup key = entries.foldl (meet name key) none := by
  induction entries using List.reverseRecOn with
  | nil => rfl
  | append_singleton l e ih =>
      unfold collect at ih ⊢
      rw [List.foldl_append, List.foldl_append, List.foldl_cons, List.foldl_nil, List.foldl_cons,
        List.foldl_nil, lookup_replaceEntry, ← ih, meet]
      by_cases hkey : key = name e.1
      · rw [if_pos hkey, if_pos hkey, hkey]
      · rw [if_neg hkey, if_neg hkey]

/-- A value that is there stays. -/
theorem foldl_meet_some {key : κ} {n : ν} (entries : List (ν × ρ)) (first : ρ) :
    ∃ best, entries.foldl (meet name key) (some (n, first)) = some (n, best) ∧
      IsGreatest (insert first (scores name entries key)) best := by
  induction entries generalizing first with
  | nil => exact ⟨first, rfl, by simp [scores]⟩
  | cons e rest ih =>
      rw [List.foldl_cons, scores_cons]
      by_cases hkey : name e.1 = key
      · obtain ⟨best, hfold, hbest⟩ := ih (max first e.2)
        have hmeet : meet name key (some (n, first)) e = some (n, max first e.2) := by
          rcases lt_or_ge first e.2 with hlt | hge
          · simp [meet, raise, hkey, hlt, max_eq_right hlt.le]
          · simp [meet, raise, hkey, not_lt.mpr hge, max_eq_left hge]
        refine ⟨best, by rw [hmeet, hfold], ?_⟩
        rw [if_pos hkey]
        have hle : max first e.2 ≤ best := hbest.2 (Set.mem_insert _ _)
        constructor
        · rcases hbest.1 with heq | hmem
          · rcases max_choice first e.2 with h | h
            · exact .inl (heq.trans h)
            · exact .inr (.inl (heq.trans h))
          · exact .inr (.inr hmem)
        · intro s hs
          rcases hs with rfl | rfl | hs
          · exact (le_max_left _ _).trans hle
          · exact (le_max_right _ _).trans hle
          · exact hbest.2 (.inr hs)
      · obtain ⟨best, hfold, hbest⟩ := ih first
        refine ⟨best, ?_, ?_⟩
        · rw [meet, if_neg (Ne.symm hkey), hfold]
        · rw [if_neg hkey]
          exact hbest

theorem foldl_meet_none {key : κ} {n : ν} {s : ρ} (entries : List (ν × ρ)) :
    entries.foldl (meet name key) none = some (n, s) ↔
      leader name entries key = some n ∧ IsGreatest (scores name entries key) s := by
  induction entries with
  | nil => simp [leader]
  | cons e rest ih =>
      rw [List.foldl_cons, scores_cons]
      by_cases hkey : name e.1 = key
      · obtain ⟨best, hfold, hbest⟩ : ∃ best,
            rest.foldl (meet name key) (some (e.1, e.2)) = some (e.1, best) ∧
              IsGreatest (insert e.2 (scores name rest key)) best := foldl_meet_some rest e.2
        have hmeet : meet name key none e = some (e.1, e.2) := by simp [meet, raise, hkey]
        have hleader : leader name (e :: rest) key = some e.1 := by simp [leader, hkey]
        rw [hmeet, hfold, hleader, if_pos hkey]
        constructor
        · intro h
          obtain ⟨hn, hs⟩ := Prod.mk.inj (Option.some.inj h)
          exact ⟨congrArg some hn, hs ▸ hbest⟩
        · intro ⟨hn, hs⟩
          rw [Option.some.inj hn, hs.unique hbest]
      · have hmeet : meet name key none e = none := by simp [meet, Ne.symm hkey]
        have hleader : leader name (e :: rest) key = leader name rest key := by
          simp [leader, hkey]
        rw [hmeet, hleader, if_neg hkey, ih]

theorem keys_collect (entries : List (ν × ρ)) :
    ((collect name entries).map Prod.fst).Nodup ∧
      ∀ key, key ∈ (collect name entries).map Prod.fst ↔
        key ∈ entries.map fun e => name e.1 := by
  have hempty : ((([] : List (κ × (ν × ρ)))).map Prod.fst).Nodup := List.nodup_nil
  obtain ⟨hnodup, hmem⟩ := keys_foldl_replaceEntry (fun e => name e.1) raise entries hempty
  refine ⟨hnodup, fun key => (hmem key).trans ?_⟩
  simp

theorem mem_collect {entries : List (ν × ρ)} {key : κ} {n : ν} {s : ρ} :
    (key, (n, s)) ∈ collect name entries ↔
      leader name entries key = some n ∧ IsGreatest (scores name entries key) s := by
  rw [mem_iff_lookup (keys_collect entries).1, lookup_collect, foldl_meet_none]

/-- The values that are collected, with their scores. -/
def ranked (name : ν → κ) (entries : List (ν × ρ)) : List (ν × ρ) :=
  (collect name entries).map Prod.snd

theorem mem_ranked {entries : List (ν × ρ)} {n : ν} {s : ρ} :
    (n, s) ∈ ranked name entries ↔
      leader name entries (name n) = some n ∧ IsGreatest (scores name entries (name n)) s := by
  rw [← mem_collect, ranked, List.mem_map]
  constructor
  · intro ⟨⟨key, m, t⟩, he, heq⟩
    obtain ⟨rfl, rfl⟩ := Prod.mk.inj heq
    rw [(name_leader (mem_collect.mp he).1).1]
    exact he
  · intro h
    exact ⟨_, h, rfl⟩

theorem names_ranked (entries : List (ν × ρ)) :
    (ranked name entries).map (fun e => name e.1) = (collect name entries).map Prod.fst := by
  rw [ranked, List.map_map]
  apply List.map_congr_left
  intro ⟨key, n, s⟩ he
  exact (name_leader (mem_collect.mp he).1).1

theorem exists_ranked {entries : List (ν × ρ)} {key : κ} {n : ν}
    (h : leader name entries key = some n) : ∃ s, (n, s) ∈ ranked name entries := by
  obtain ⟨hname, hkey⟩ := name_leader h
  rw [← (keys_collect entries).2, List.mem_map] at hkey
  obtain ⟨⟨_, m, s⟩, he, rfl⟩ := hkey
  have hsame : m = n := Option.some.inj ((mem_collect.mp he).1.symm.trans h)
  subst hsame
  exact ⟨s, List.mem_map.mpr ⟨_, he, rfl⟩⟩

/-! ### What comes through the cut -/

theorem mem_rivals {keep : ν → Bool} {entries : List (ν × ρ)} {n : ν} {key : κ} :
    key ∈ rivals name keep entries n ↔
      key ≠ name n ∧ (∃ m, leader name entries key = some m ∧ keep m = true) ∧
        Reaches name entries key (name n) := by
  rw [rivals, Finset.mem_filter, List.mem_toFinset, Option.any_eq_true_iff_get]
  constructor
  · intro ⟨_, hne, ⟨hsome, hkeep⟩, hreaches⟩
    exact ⟨hne, ⟨_, (Option.some_get hsome).symm, hkeep⟩, hreaches⟩
  · intro ⟨hne, ⟨m, hleader, hkeep⟩, hreaches⟩
    refine ⟨(name_leader hleader).2, hne, ⟨by simp [hleader], ?_⟩, hreaches⟩
    simpa [hleader] using hkeep

variable [DecidableEq ν]

section Contenders

variable {keep : ν → Bool} {entries : List (ν × ρ)} {n : ν} {s : ρ}

/-- A contender has another name, since one name has one value and one best score. -/
theorem name_mem_rivals (h : (n, s) ∈ ranked name entries) {m : ν} {t : ρ}
    (hm : (m, t) ∈ contenders Prod.snd ((ranked name entries).filter fun e => keep e.1) (n, s)) :
    name m ∈ rivals name keep entries n := by
  obtain ⟨hleader, hbest⟩ := mem_ranked.mp h
  obtain ⟨hmem, hne, hle⟩ := mem_contenders.mp hm
  obtain ⟨hmem, hkeep⟩ := List.mem_filter.mp hmem
  obtain ⟨hleads, hgreatest⟩ := mem_ranked.mp hmem
  refine mem_rivals.mpr ⟨fun hsame => hne ?_, ⟨m, hleads, hkeep⟩, fun e he hname => ?_⟩
  · rw [hsame] at hleads hgreatest
    rw [Option.some.inj (hleads.symm.trans hleader), hgreatest.unique hbest]
  · obtain ⟨e', he', hname', ht⟩ := hgreatest.1
    have hscore : e.2 ≤ s := hbest.2 ⟨e, he, hname, rfl⟩
    exact ⟨e', he', hname', hscore.trans (hle.trans ht.ge)⟩

theorem exists_contender (h : (n, s) ∈ ranked name entries) {key : κ}
    (hkey : key ∈ rivals name keep entries n) :
    ∃ e ∈ contenders Prod.snd ((ranked name entries).filter fun e => keep e.1) (n, s),
      name e.1 = key := by
  obtain ⟨hne, ⟨m, hleads, hkeep⟩, hreaches⟩ := mem_rivals.mp hkey
  obtain ⟨t, ht⟩ := exists_ranked hleads
  obtain ⟨hname, -⟩ := name_leader hleads
  refine ⟨(m, t), mem_contenders.mpr ⟨List.mem_filter.mpr ⟨ht, hkeep⟩, ?_, ?_⟩, hname⟩
  · intro hsame
    exact hne (hname.symm.trans (congrArg (fun e => name e.1) hsame))
  · obtain ⟨e, he, hscore, hs⟩ := (mem_ranked.mp h).2.1
    obtain ⟨e', he', hname', hle⟩ := hreaches e he hscore
    have hbound : e'.2 ≤ t := (mem_ranked.mp ht).2.2 ⟨e', he', hname'.trans hname.symm, rfl⟩
    exact hs ▸ hle.trans hbound

/-- The contenders of a collected value are its rivals. -/
theorem length_contenders (h : (n, s) ∈ ranked name entries) :
    (contenders Prod.snd ((ranked name entries).filter fun e => keep e.1) (n, s)).length =
      (rivals name keep entries n).card := by
  let met := contenders Prod.snd ((ranked name entries).filter fun e => keep e.1) (n, s)
  have hnodup : (met.map fun e => name e.1).Nodup := by
    have hsub : (met.map fun e => name e.1).Sublist
        ((ranked name entries).map fun e => name e.1) :=
      (List.filter_sublist.trans List.filter_sublist).map _
    rw [names_ranked] at hsub
    exact hsub.nodup (keys_collect entries).1
  have hrivals : (met.map fun e => name e.1).toFinset = rivals name keep entries n := by
    ext key
    rw [List.mem_toFinset, List.mem_map]
    constructor
    · intro ⟨e, he, hname⟩
      exact hname ▸ name_mem_rivals h he
    · intro hkey
      exact exists_contender h hkey
  calc met.length = (met.map fun e => name e.1).length := List.length_map .. |>.symm
    _ = (met.map fun e => name e.1).toFinset.card := (List.toFinset_card_of_nodup hnodup).symm
    _ = (rivals name keep entries n).card := by rw [hrivals]

end Contenders

/-- A value comes through the sort, the filter and the cut on every walk. -/
theorem ranked_taken_iff (name : ν → κ) (keep : ν → Bool) (entries : List (ν × ρ)) (n : ν)
    (cap : Nat) :
    (∀ w : Walk (ν × ρ), ∃ s, (n, s) ∈ ((sortDescending Prod.snd
        (w.run (ranked name entries))).filter fun e => keep e.1).take cap) ↔
      leader name entries (name n) = some n ∧ keep n = true ∧
        (rivals name keep entries n).card < cap := by
  have hmem : ∀ (w : Walk (ν × ρ)) (s : ρ), (n, s) ∈ ((sortDescending Prod.snd
      (w.run (ranked name entries))).filter fun e => keep e.1).take cap →
        (n, s) ∈ ranked name entries := by
    intro w s hs
    have hsorted := (List.mem_filter.mp (List.mem_of_mem_take hs)).1
    exact ((sortDescending_perm _).trans (w.perm _)).mem_iff.mp hsorted
  constructor
  · intro h
    obtain ⟨s, hs⟩ := h .stored
    have hranked := hmem _ _ hs
    obtain ⟨hleader, hbest⟩ := mem_ranked.mp hranked
    have hall : ∀ w : Walk (ν × ρ), (n, s) ∈ ((sortDescending Prod.snd
        (w.run (ranked name entries))).filter fun e => keep e.1).take cap := by
      intro w
      obtain ⟨t, ht⟩ := h w
      rw [hbest.unique (mem_ranked.mp (hmem w t ht)).2]
      exact ht
    obtain ⟨hkept, hroom⟩ := taken_iff.mp hall
    rw [length_contenders hranked] at hroom
    exact ⟨hleader, (List.mem_filter.mp hkept).2, hroom⟩
  · intro ⟨hleader, hkeep, hroom⟩ w
    obtain ⟨s, hs⟩ := exists_ranked hleader
    rw [← length_contenders hs] at hroom
    exact ⟨s, taken_iff.mpr ⟨List.mem_filter.mpr ⟨hs, hkeep⟩, hroom⟩ w⟩

end Collect

end ControlPlane.Lib
