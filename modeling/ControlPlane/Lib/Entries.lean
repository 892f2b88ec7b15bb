import Mathlib.Algebra.BigOperators.Group.List.Basic
import Mathlib.Algebra.Ring.Nat
import Mathlib.Data.Finset.Card
import Mathlib.Data.List.AList
import Mathlib.Data.List.Basic
import Mathlib.Data.List.Induction
import Mathlib.Data.List.Nodup

/-!
# Maps as lists of entries

A hash map together with the order in which it is stored is a list of entries under distinct
keys. A write changes the entry of its key in place, or appends one.
-/
namespace ControlPlane.Lib

variable {κ α β : Type}

/-! ## Reading -/

section Lookup

variable [BEq κ] [LawfulBEq κ]

theorem mem_iff_lookup {entries : List (κ × α)} (nodup : (entries.map Prod.fst).Nodup)
    {key : κ} {a : α} : (key, a) ∈ entries ↔ entries.lookup key = some a := by
  induction entries with
  | nil => simp
  | cons e rest ih =>
      obtain ⟨k, b⟩ := e
      rw [List.map_cons, List.nodup_cons] at nodup
      rw [List.mem_cons, ih nodup.2]
      by_cases hkey : key = k
      · subst hkey
        have hrest : rest.lookup key ≠ some a := by
          intro h
          apply nodup.1
          exact List.mem_map.mpr ⟨(key, a), (ih nodup.2).mpr h, rfl⟩
        simp [hrest, eq_comm]
      · simp [hkey, List.lookup_cons, beq_eq_false_iff_ne.mpr hkey]

theorem mem_keys_of_lookup {entries : List (κ × α)} {key : κ} {a : α}
    (h : entries.lookup key = some a) : key ∈ entries.map Prod.fst := by
  obtain ⟨p, q, rfl, -⟩ := List.lookup_eq_some_iff.mp h
  simp

/-- What is read does not depend on the order of the entries. -/
theorem lookup_of_perm {entries entries' : List (κ × α)} (nodup : (entries.map Prod.fst).Nodup)
    (h : entries'.Perm entries) (key : κ) : entries'.lookup key = entries.lookup key := by
  have nodup' : (entries'.map Prod.fst).Nodup := (h.map Prod.fst).nodup_iff.mpr nodup
  apply Option.ext
  intro a
  rw [← mem_iff_lookup nodup', ← mem_iff_lookup nodup, h.mem_iff]

end Lookup

/-! ## Writing -/

section Write

variable [DecidableEq κ]

/-- The entry of `key` is written with what it held before. -/
def replaceEntry (key : κ) (write : Option α → α) : List (κ × α) → List (κ × α)
  | [] => [(key, write none)]
  | (k, a) :: rest =>
      if k = key then (k, write (some a)) :: rest else (k, a) :: replaceEntry key write rest

theorem mem_keys_replaceEntry {key other : κ} {write : Option α → α} {entries : List (κ × α)} :
    other ∈ (replaceEntry key write entries).map Prod.fst ↔
      other = key ∨ other ∈ entries.map Prod.fst := by
  induction entries with
  | nil => simp [replaceEntry]
  | cons e rest ih =>
      obtain ⟨k, a⟩ := e
      rw [replaceEntry]
      split
      next heq => simp [heq]
      next =>
        rw [List.map_cons, List.mem_cons, ih, List.map_cons, List.mem_cons]
        exact or_left_comm

theorem nodup_keys_replaceEntry {entries : List (κ × α)} (nodup : (entries.map Prod.fst).Nodup)
    (key : κ) (write : Option α → α) : ((replaceEntry key write entries).map Prod.fst).Nodup := by
  induction entries with
  | nil => simp [replaceEntry]
  | cons e rest ih =>
      obtain ⟨k, a⟩ := e
      rw [List.map_cons, List.nodup_cons] at nodup
      rw [replaceEntry]
      split
      next =>
        rw [List.map_cons, List.nodup_cons]
        exact nodup
      next hne =>
        rw [List.map_cons, List.nodup_cons, mem_keys_replaceEntry, not_or]
        exact ⟨⟨hne, nodup.1⟩, ih nodup.2⟩

theorem lookup_replaceEntry (key other : κ) (write : Option α → α) (entries : List (κ × α)) :
    (replaceEntry key write entries).lookup other =
      if other = key then some (write (entries.lookup key)) else entries.lookup other := by
  induction entries with
  | nil => by_cases h : other = key <;> simp [replaceEntry, h]
  | cons e rest ih =>
      obtain ⟨k, a⟩ := e
      rw [replaceEntry]
      by_cases hk : k = key
      · subst hk
        rw [if_pos rfl, List.lookup_cons_self, List.lookup_cons, List.lookup_cons]
        by_cases h : other = k
        · simp [h]
        · simp [h, beq_eq_false_iff_ne.mpr h]
      · have hkey : (key == k) = false := beq_eq_false_iff_ne.mpr (Ne.symm hk)
        rw [if_neg hk, List.lookup_cons, ih, List.lookup_cons (a := key), hkey, List.lookup_cons]
        by_cases h : other = k
        · simp [h, hk]
        · simp [beq_eq_false_iff_ne.mpr h]

/-- A map that is built by writes has the keys of the writes, each once. -/
theorem keys_foldl_replaceEntry (key : β → κ) (write : β → Option α → α) (items : List β)
    {entries : List (κ × α)} (nodup : (entries.map Prod.fst).Nodup) :
    ((items.foldl (fun m i => replaceEntry (key i) (write i) m) entries).map Prod.fst).Nodup ∧
      ∀ k, k ∈ (items.foldl (fun m i => replaceEntry (key i) (write i) m) entries).map Prod.fst ↔
        k ∈ items.map key ∨ k ∈ entries.map Prod.fst := by
  induction items generalizing entries with
  | nil => exact ⟨nodup, fun k => by simp⟩
  | cons i rest ih =>
      obtain ⟨hnodup, hmem⟩ := ih (nodup_keys_replaceEntry nodup (key i) (write i))
      refine ⟨hnodup, fun k => ?_⟩
      rw [List.foldl_cons, hmem, mem_keys_replaceEntry, List.map_cons, List.mem_cons]
      exact or_left_comm.trans or_assoc.symm

end Write

end ControlPlane.Lib

/-!
## Entries updated in place

What `entry(key).or_insert(start)` and an update of the entry make of a map: a key that
is met for the first time is entered with a start value, and every update of a key folds
a value into its entry.
-/
namespace ControlPlane.Lib

variable {κ ν α : Type} [DecidableEq κ] (start : ν) (f : ν → α → ν)

def upsert (m : AList fun _ : κ => ν) (u : κ × α) : AList fun _ : κ => ν :=
  m.insert u.1 (f ((m.lookup u.1).getD start) u.2)

def upsertAll (m : AList fun _ : κ => ν) (us : List (κ × α)) : AList fun _ : κ => ν :=
  us.foldl (upsert start f) m

/-- The values that the updates have for a key. -/
def valuesAt (key : κ) (us : List (κ × α)) : List α :=
  (us.filter fun u => decide (u.1 = key)).map Prod.snd

variable {start f}

theorem valuesAt_cons_self (key : κ) (v : α) (us : List (κ × α)) :
    valuesAt key ((key, v) :: us) = v :: valuesAt key us := by
  simp [valuesAt]

theorem valuesAt_cons_other {key : κ} {u : κ × α} (h : u.1 ≠ key) (us : List (κ × α)) :
    valuesAt key (u :: us) = valuesAt key us := by
  simp [valuesAt, h]

theorem valuesAt_eq_nil {key : κ} {us : List (κ × α)} :
    valuesAt key us = [] ↔ key ∉ us.map Prod.fst := by
  unfold valuesAt
  rw [List.map_eq_nil_iff, List.filter_eq_nil_iff, List.mem_map]
  constructor
  · rintro h ⟨u, hu, hkey⟩
    exact h u hu (decide_eq_true hkey)
  · intro h u hu hkey
    exact h ⟨u, hu, of_decide_eq_true hkey⟩

/-- Keys that are met once have one value. -/
theorem valuesAt_of_nodup {us : List (κ × α)} (nodup : (us.map Prod.fst).Nodup) {u : κ × α}
    (h : u ∈ us) : valuesAt u.1 us = [u.2] := by
  induction us with
  | nil => cases h
  | cons first us ih =>
      rw [List.map_cons, List.nodup_cons] at nodup
      rcases List.mem_cons.mp h with rfl | hrest
      · rw [valuesAt_cons_self, valuesAt_eq_nil.mpr nodup.1]
      · have hne : first.1 ≠ u.1 := by
          intro heq
          exact nodup.1 (heq ▸ List.mem_map_of_mem hrest)
        rw [valuesAt_cons_other hne, ih nodup.2 hrest]

theorem lookup_upsertAll_of_not_mem {key : κ} {us : List (κ × α)} (h : key ∉ us.map Prod.fst)
    (m : AList fun _ : κ => ν) : (upsertAll start f m us).lookup key = m.lookup key := by
  induction us generalizing m with
  | nil => rfl
  | cons u us ih =>
      rw [List.map_cons, List.mem_cons, not_or] at h
      rw [upsertAll, List.foldl_cons, ← upsertAll, ih h.2, upsert, AList.lookup_insert_ne h.1]

/-- An entry is the fold of the values of its key. -/
theorem lookup_upsertAll {key : κ} {us : List (κ × α)} (h : key ∈ us.map Prod.fst)
    (m : AList fun _ : κ => ν) :
    (upsertAll start f m us).lookup key =
      some ((valuesAt key us).foldl f ((m.lookup key).getD start)) := by
  induction us generalizing m with
  | nil => cases h
  | cons u us ih =>
      obtain ⟨k, v⟩ := u
      rw [upsertAll, List.foldl_cons, ← upsertAll]
      by_cases hkey : k = key
      · subst hkey
        rw [valuesAt_cons_self, List.foldl_cons]
        by_cases hrest : k ∈ us.map Prod.fst
        · rw [ih hrest, upsert, AList.lookup_insert, Option.getD_some]
        · rw [lookup_upsertAll_of_not_mem hrest, valuesAt_eq_nil.mpr hrest, upsert,
            AList.lookup_insert, List.foldl_nil]
      · have hrest : key ∈ us.map Prod.fst := by
          rw [List.map_cons, List.mem_cons] at h
          exact h.resolve_left (Ne.symm hkey)
        rw [ih hrest, valuesAt_cons_other hkey, upsert, AList.lookup_insert_ne (Ne.symm hkey)]

theorem mem_upsertAll {key : κ} {us : List (κ × α)} {m : AList fun _ : κ => ν} :
    key ∈ upsertAll start f m us ↔ key ∈ m ∨ key ∈ us.map Prod.fst := by
  by_cases h : key ∈ us.map Prod.fst
  · rw [← AList.lookup_isSome, lookup_upsertAll h]
    simp [h]
  · rw [← AList.lookup_isSome, lookup_upsertAll_of_not_mem h, AList.lookup_isSome]
    simp [h]

/-- An entry of a map that starts empty holds the fold of the values of its key. -/
theorem mem_entries_upsertAll {e : Σ _ : κ, ν} {us : List (κ × α)}
    (h : e ∈ (upsertAll start f ∅ us).entries) :
    e.1 ∈ us.map Prod.fst ∧ e.2 = (valuesAt e.1 us).foldl f start := by
  have hlookup : (upsertAll start f ∅ us).lookup e.1 = some e.2 := AList.mem_lookup_iff.mpr h
  have hkey : e.1 ∈ us.map Prod.fst := by
    by_contra hmissing
    rw [lookup_upsertAll_of_not_mem hmissing] at hlookup
    cases hlookup
  rw [lookup_upsertAll hkey] at hlookup
  exact ⟨hkey, (Option.some_inj.mp hlookup).symm⟩

theorem sum_indicator {keys : List κ} (nodup : keys.Nodup) {key : κ} (h : key ∈ keys) :
    (keys.map fun k => if k = key then 1 else 0).sum = 1 := by
  induction keys with
  | nil => cases h
  | cons k keys ih =>
      obtain ⟨hfirst, hrest⟩ := List.nodup_cons.mp nodup
      rw [List.map_cons, List.sum_cons]
      by_cases hkey : k = key
      · have hzero : (keys.map fun k => if k = key then 1 else 0).sum = 0 := by
          apply List.sum_eq_zero
          intro x hx
          obtain ⟨other, hother, rfl⟩ := List.mem_map.mp hx
          rw [if_neg]
          intro hother'
          rw [hother', ← hkey] at hother
          exact hfirst hother
        rw [if_pos hkey, hzero]
      · rw [if_neg hkey, zero_add, ih hrest ((List.mem_cons.mp h).resolve_left (Ne.symm hkey))]

/-- Every update is counted under one key. -/
theorem sum_length_valuesAt {keys : List κ} (nodup : keys.Nodup) {us : List (κ × α)}
    (covers : ∀ u ∈ us, u.1 ∈ keys) :
    (keys.map fun key => (valuesAt key us).length).sum = us.length := by
  induction us with
  | nil => simp [valuesAt]
  | cons u us ih =>
      obtain ⟨hu, hus⟩ := List.forall_mem_cons.mp covers
      have hlength : ∀ key, (valuesAt key (u :: us)).length =
          (valuesAt key us).length + if key = u.1 then 1 else 0 := by
        intro key
        by_cases hkey : u.1 = key
        · simp [valuesAt, hkey]
        · simp [valuesAt, hkey, Ne.symm hkey]
      simp only [hlength, List.sum_map_add, ih hus, sum_indicator nodup hu, List.length_cons]

/-- A map that starts empty has one entry for every key that is met. -/
theorem card_upsertAll (us : List (κ × α)) :
    (upsertAll start f ∅ us).keys.length = (us.map Prod.fst).toFinset.card := by
  rw [← List.toFinset_card_of_nodup (upsertAll start f ∅ us).keys_nodup]
  congr 1
  ext key
  rw [List.mem_toFinset, List.mem_toFinset, ← AList.mem_keys, mem_upsertAll]
  simp [AList.notMem_empty]

end ControlPlane.Lib

/-!
## Maps to lists

A map whose entries are lists that only grow at the end: what `entry(key).or_default()`
followed by `push` builds. A key without an entry has the empty list.
-/
namespace ControlPlane.Lib

abbrev MultiMap (κ ν : Type) := κ → List ν

namespace MultiMap

variable {κ ν : Type} [DecidableEq κ]

def push (m : MultiMap κ ν) (entry : κ × ν) : MultiMap κ ν :=
  fun key => if key = entry.1 then m key ++ [entry.2] else m key

/-- The map that the entries build in their order. -/
def ofEntries (entries : List (κ × ν)) : MultiMap κ ν := entries.foldl push fun _ => []

theorem mem_push {m : MultiMap κ ν} {entry : κ × ν} {key : κ} {v : ν} :
    v ∈ m.push entry key ↔ v ∈ m key ∨ (key, v) = entry := by
  obtain ⟨k, w⟩ := entry
  unfold push
  by_cases hkey : key = k
  · simp [hkey]
  · simp [hkey]

theorem mem_ofEntries {entries : List (κ × ν)} {key : κ} {v : ν} :
    v ∈ ofEntries entries key ↔ (key, v) ∈ entries := by
  have hfold : ∀ m : MultiMap κ ν, v ∈ entries.foldl push m key ↔
      v ∈ m key ∨ (key, v) ∈ entries := by
    induction entries with
    | nil => simp
    | cons entry entries ih =>
        intro m
        rw [List.foldl_cons, ih, mem_push, List.mem_cons, or_assoc]
  rw [ofEntries, hfold]
  simp

end MultiMap

end ControlPlane.Lib

/-!
## Tallies

A tally is an association list from keys to numbers. A key that is met for the first
time is entered with one, any other is raised by one.
-/
namespace ControlPlane.Lib

variable {κ : Type} [BEq κ] [LawfulBEq κ] [DecidableEq κ]

def bump (tally : List (κ × Nat)) (key : κ) : List (κ × Nat) :=
  match tally.lookup key with
  | some _ => tally.map fun e => if e.1 = key then (e.1, e.2 + 1) else e
  | none => tally ++ [(key, 1)]

/-- The number of a key, zero for one that is not entered. -/
def tallied (tally : List (κ × Nat)) (key : κ) : Nat := (tally.lookup key).getD 0

theorem lookup_raise (tally : List (κ × Nat)) (key other : κ) :
    (tally.map fun e => if e.1 = key then (e.1, e.2 + 1) else e).lookup other =
      (tally.lookup other).map fun n => if other = key then n + 1 else n := by
  induction tally with
  | nil => rfl
  | cons e rest ih =>
      obtain ⟨k, n⟩ := e
      rw [List.map_cons]
      by_cases hother : other = k
      · subst hother
        by_cases hkey : other = key
        · simp [hkey]
        · simp [hkey]
      · by_cases hkey : k = key
        · simp [hkey, List.lookup_cons, beq_eq_false_iff_ne.mpr (hkey ▸ hother), ih]
        · simp [hkey, List.lookup_cons, beq_eq_false_iff_ne.mpr hother, ih]

theorem tallied_bump (tally : List (κ × Nat)) (key other : κ) :
    tallied (bump tally key) other = tallied tally other + if other = key then 1 else 0 := by
  unfold tallied bump
  cases hkey : tally.lookup key with
  | some n =>
      dsimp only
      rw [lookup_raise]
      by_cases h : other = key
      · subst h
        simp [hkey]
      · simp [h]
  | none =>
      dsimp only
      rw [List.lookup_append]
      by_cases h : other = key
      · subst h
        simp [hkey]
      · simp [h, List.lookup_cons, beq_eq_false_iff_ne.mpr h]

/-- Keys that are met one after the other are counted. -/
theorem tallied_foldl (keys : List κ) (tally : List (κ × Nat)) (key : κ) :
    tallied (keys.foldl bump tally) key = tallied tally key + keys.count key := by
  induction keys generalizing tally with
  | nil => rfl
  | cons first rest ih =>
      rw [List.foldl_cons, ih, tallied_bump, List.count_cons]
      by_cases h : key = first
      · subst h
        rw [if_pos rfl, beq_self_eq_true, if_pos rfl]
        omega
      · simp [h, Ne.symm h]

/-! ## Entries -/

theorem bump_of_mem {tally : List (κ × Nat)} {key : κ} (h : key ∈ tally.map Prod.fst) :
    bump tally key = tally.map fun e => if e.1 = key then (e.1, e.2 + 1) else e := by
  unfold bump
  cases hkey : tally.lookup key with
  | some n => rfl
  | none =>
      obtain ⟨e, he, rfl⟩ := List.mem_map.mp h
      have hne := List.lookup_eq_none_iff.mp hkey e he
      simp at hne

theorem bump_of_not_mem {tally : List (κ × Nat)} {key : κ} (h : key ∉ tally.map Prod.fst) :
    bump tally key = tally ++ [(key, 1)] := by
  have hkey : tally.lookup key = none := by
    apply List.lookup_eq_none_iff.mpr
    intro e he
    apply bne_iff_ne.mpr
    rintro rfl
    exact h (List.mem_map_of_mem he)
  simp [bump, hkey]

theorem keys_bump (tally : List (κ × Nat)) (key : κ) :
    (bump tally key).map Prod.fst =
      if key ∈ tally.map Prod.fst then tally.map Prod.fst else tally.map Prod.fst ++ [key] := by
  by_cases h : key ∈ tally.map Prod.fst
  · rw [bump_of_mem h, if_pos h, List.map_map]
    apply List.map_congr_left
    intro e _
    by_cases he : e.1 = key
    · simp [he]
    · simp [he]
  · rw [bump_of_not_mem h, if_neg h, List.map_append]
    rfl

theorem mem_keys_foldl_bump (keys : List κ) (key : κ) :
    key ∈ (keys.foldl bump []).map Prod.fst ↔ key ∈ keys := by
  induction keys using List.reverseRecOn with
  | nil => simp
  | append_singleton keys last ih =>
      rw [List.foldl_append, List.foldl_cons, List.foldl_nil, keys_bump]
      by_cases h : last ∈ (keys.foldl bump []).map Prod.fst
      · rw [if_pos h, ih, List.mem_append, List.mem_singleton]
        constructor
        · exact Or.inl
        · rintro (hkey | rfl)
          · exact hkey
          · exact ih.mp h
      · rw [if_neg h, List.mem_append, ih, List.mem_append]

/-- A key is entered once. -/
theorem nodup_keys_foldl_bump (keys : List κ) :
    ((keys.foldl bump []).map Prod.fst).Nodup := by
  induction keys using List.reverseRecOn with
  | nil => simp
  | append_singleton keys last ih =>
      rw [List.foldl_append, List.foldl_cons, List.foldl_nil, keys_bump]
      by_cases h : last ∈ (keys.foldl bump []).map Prod.fst
      · rw [if_pos h]
        exact ih
      · rw [if_neg h]
        exact ih.append (List.nodup_singleton last) (by simpa using h)

/-- The entries of a tally are the counts of the keys that were met. -/
theorem mem_foldl_bump_iff (keys : List κ) (key : κ) (n : Nat) :
    (key, n) ∈ keys.foldl bump [] ↔ key ∈ keys ∧ n = keys.count key := by
  have hcount := tallied_foldl keys [] key
  rw [tallied, tallied, List.lookup_nil, Option.getD_none, Nat.zero_add] at hcount
  have hlookup : ∀ n, (key, n) ∈ keys.foldl bump [] ↔ (keys.foldl bump []).lookup key = some n :=
    fun n => mem_iff_lookup (nodup_keys_foldl_bump keys)
  constructor
  · intro h
    refine ⟨(mem_keys_foldl_bump keys key).mp (List.mem_map_of_mem h), ?_⟩
    rw [(hlookup n).mp h, Option.getD_some] at hcount
    exact hcount
  · rintro ⟨hkey, rfl⟩
    obtain ⟨⟨k, m⟩, he, rfl⟩ := List.mem_map.mp ((mem_keys_foldl_bump keys key).mpr hkey)
    rw [(hlookup m).mp he, Option.getD_some] at hcount
    exact hcount ▸ he

end ControlPlane.Lib
