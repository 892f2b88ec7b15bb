import Mathlib.Data.List.Basic
import Mathlib.Data.List.Find
import Mathlib.Data.List.Infix
import Mathlib.Data.List.Nodup
import Mathlib.Data.List.Perm.Basic
import Mathlib.Tactic.LinearCombination
import Mathlib.Tactic.Zify

/-!
# Placeholders

A placeholder is a key between an opening and a closing symbol. Simultaneous
substitution passes over a text once and never reads what it put in; filling in
one key after another reads every value again. The two agree exactly when no
value, in its place, makes a placeholder that the text does not have.
-/
namespace ControlPlane.Lib.Placeholders

variable {α : Type*}

structure Brackets (α : Type*) where
  opening : α
  closing : α
  opening_ne_closing : opening ≠ closing

namespace Brackets

variable (b : Brackets α)

def placeholder (key : List α) : List α := b.opening :: (key ++ [b.closing])

/-- A key that holds neither symbol. -/
def Plain (key : List α) : Prop := b.opening ∉ key ∧ b.closing ∉ key

variable [DecidableEq α]

def standsAt (key text : List α) : Bool := (b.placeholder key).isPrefixOf text

/-- How often the placeholder of the key stands in the text. -/
def occurrences (key text : List α) : Nat := text.tails.countP (b.standsAt key)

/-- `skip` counts the symbols of a replaced placeholder still to be passed. -/
def substituteLoop (vars : List (List α × List α)) : Nat → List α → List α
  | _, [] => []
  | skip + 1, _ :: rest => substituteLoop vars skip rest
  | 0, x :: rest =>
      match vars.find? fun kv => b.standsAt kv.1 (x :: rest) with
      | some kv => kv.2 ++ substituteLoop vars (kv.1.length + 1) rest
      | none => x :: substituteLoop vars 0 rest

/-- The simultaneous substitution. -/
def substitute (vars : List (List α × List α)) (text : List α) : List α :=
  b.substituteLoop vars 0 text

/-- What stands in the place of a key's placeholder after the substitution. -/
def valueOf (vars : List (List α × List α)) (key : List α) : List α :=
  ((vars.find? fun kv => kv.1 = key).map Prod.snd).getD (b.placeholder key)

/-- An assignment: each key once, and each key plain. -/
structure Assigns (vars : List (List α × List α)) : Prop where
  distinct : (vars.map Prod.fst).Nodup
  plain : ∀ kv ∈ vars, b.Plain kv.1

/-- One substitution after another, in the order of the list. -/
def fillEach (text : List α) (vars : List (List α × List α)) : List α :=
  vars.foldl (fun s kv => b.substitute [kv] s) text

/-! ## Where a placeholder stands -/

omit [DecidableEq α] in
theorem placeholder_length (key : List α) : (b.placeholder key).length = key.length + 2 := by
  simp [placeholder]

omit [DecidableEq α] in
theorem Plain.opening_not_mem {b : Brackets α} {key : List α} (plain : b.Plain key) :
    b.opening ∉ key ++ [b.closing] := by
  simp [plain.1, b.opening_ne_closing]

omit [DecidableEq α] in
theorem prefix_append_cons_iff {o : α} :
    ∀ {w : List α} (A R : List α), o ∉ w → (w <+: A ++ o :: R ↔ w <+: A)
  | [], _, _, _ => by simp
  | y :: w, [], R, absent => by
      have differ : y ≠ o := fun h => absent (by simp [h])
      simp [List.cons_prefix_cons, differ]
  | y :: w, x :: A, R, absent => by
      have rest : o ∉ w := fun h => absent (List.mem_cons_of_mem y h)
      simp [List.cons_prefix_cons, prefix_append_cons_iff A R rest]

theorem standsAt_iff (key text : List α) :
    b.standsAt key text = true ↔ b.placeholder key <+: text := by
  simp [standsAt]

@[simp] theorem standsAt_nil (key : List α) : b.standsAt key [] = false := by
  simp [standsAt, placeholder]

/-- What follows an opening symbol cannot complete a placeholder begun before it. -/
theorem standsAt_append {key : List α} (plain : b.Plain key) (x : α) (A R : List α) :
    b.standsAt key (x :: A ++ b.opening :: R) = b.standsAt key (x :: A) := by
  rw [Bool.eq_iff_iff, standsAt_iff, standsAt_iff, placeholder, List.cons_append,
    List.cons_prefix_cons, List.cons_prefix_cons,
    prefix_append_cons_iff A R plain.opening_not_mem]

theorem standsAt_cons_of_ne (key rest : List α) {x : α} (differ : x ≠ b.opening) :
    b.standsAt key (x :: rest) = false := by
  rw [Bool.eq_false_iff, ne_eq, standsAt_iff, placeholder, List.cons_prefix_cons]
  exact fun h => differ h.1.symm

omit [DecidableEq α] in
theorem append_closing_prefix_iff {c : α} :
    ∀ {k k' : List α} (B : List α), c ∉ k → c ∉ k' →
      (k ++ [c] <+: k' ++ c :: B ↔ k = k')
  | [], [], B, _, _ => by simp
  | [], y :: k', B, _, absent => by
      have differ : c ≠ y := fun h => absent (by simp [h])
      simp [List.cons_prefix_cons, differ]
  | y :: k, [], B, absent, _ => by
      have differ : y ≠ c := fun h => absent (by simp [h])
      simp [List.cons_prefix_cons, differ]
  | y :: k, z :: k', B, absent, absent' => by
      have rest : c ∉ k := fun h => absent (List.mem_cons_of_mem y h)
      have rest' : c ∉ k' := fun h => absent' (List.mem_cons_of_mem z h)
      simp [List.cons_prefix_cons, append_closing_prefix_iff B rest rest']

/-- At a placeholder stands that placeholder and no other. -/
theorem standsAt_placeholder {key key' : List α} (plain : b.Plain key) (plain' : b.Plain key')
    (B : List α) : b.standsAt key (b.placeholder key' ++ B) = decide (key = key') := by
  rw [Bool.eq_iff_iff, standsAt_iff, decide_eq_true_iff, placeholder, placeholder,
    List.cons_append, List.cons_prefix_cons, List.append_assoc, List.singleton_append,
    append_closing_prefix_iff B plain.2 plain'.2]
  simp

theorem eq_of_standsAt {key key' text : List α} (plain : b.Plain key) (plain' : b.Plain key')
    (here : b.standsAt key text = true) (here' : b.standsAt key' text = true) : key = key' := by
  obtain ⟨B, rfl⟩ := (b.standsAt_iff key' text).mp here'
  rw [b.standsAt_placeholder plain plain'] at here
  exact of_decide_eq_true here

/-! ## Occurrences -/

@[simp] theorem occurrences_nil (key : List α) : b.occurrences key [] = 0 := by
  simp [occurrences]

theorem occurrences_cons (key : List α) (x : α) (rest : List α) :
    b.occurrences key (x :: rest)
      = b.occurrences key rest + if b.standsAt key (x :: rest) then 1 else 0 := by
  simp [occurrences, List.countP_cons]

theorem occurrences_append_opening {key : List α} (plain : b.Plain key) (A R : List α) :
    b.occurrences key (A ++ b.opening :: R)
      = b.occurrences key A + b.occurrences key (b.opening :: R) := by
  induction A with
  | nil => simp
  | cons x A ih =>
    rw [List.cons_append, occurrences_cons, occurrences_cons, ih, ← List.cons_append,
      b.standsAt_append plain]
    omega

theorem occurrences_free (key B : List α) {w : List α} (free : b.opening ∉ w) :
    b.occurrences key (w ++ B) = b.occurrences key B := by
  induction w with
  | nil => rfl
  | cons x w ih =>
    have differ : x ≠ b.opening := fun h => free (by simp [h])
    rw [List.cons_append, occurrences_cons, b.standsAt_cons_of_ne key _ differ,
      ih fun h => free (List.mem_cons_of_mem x h)]
    simp

theorem occurrences_placeholder {key : List α} (plain : b.Plain key) (B : List α) :
    b.occurrences key (b.placeholder key ++ B) = b.occurrences key B + 1 := by
  have here := b.standsAt_placeholder plain plain B
  rw [placeholder, List.cons_append] at here
  rw [placeholder, List.cons_append, occurrences_cons, here,
    b.occurrences_free key B plain.opening_not_mem]
  simp

theorem occurrences_around {key : List α} (plain : b.Plain key) (A B : List α) :
    b.occurrences key (A ++ (b.placeholder key ++ B))
      = b.occurrences key A + (b.occurrences key B + 1) := by
  rw [← b.occurrences_placeholder plain B]
  exact b.occurrences_append_opening plain A _

theorem exists_first {key : List α} (text : List α) (found : b.occurrences key text ≠ 0) :
    ∃ A B, text = A ++ (b.placeholder key ++ B) ∧ b.occurrences key A = 0 := by
  induction text with
  | nil => simp at found
  | cons x rest ih =>
    by_cases here : b.standsAt key (x :: rest) = true
    · obtain ⟨B, split⟩ := (b.standsAt_iff key _).mp here
      exact ⟨[], B, by simp [split], b.occurrences_nil key⟩
    · have later : b.occurrences key rest ≠ 0 := by
        simpa [occurrences_cons, here] using found
      obtain ⟨A, B, split, none⟩ := ih later
      refine ⟨x :: A, B, by simp [split], ?_⟩
      have absent : b.standsAt key (x :: A) ≠ true := by
        intro first
        apply here
        rw [standsAt_iff] at first ⊢
        rw [split, ← List.cons_append]
        exact first.trans (List.prefix_append _ _)
      simp [occurrences_cons, none, absent]

/-- A text is free of a placeholder, or it is cut at the first one. -/
theorem split_induction (key : List α) {motive : List α → Prop}
    (free : ∀ A, b.occurrences key A = 0 → motive A)
    (cut : ∀ A B, b.occurrences key A = 0 → motive B → motive (A ++ (b.placeholder key ++ B)))
    (text : List α) : motive text := by
  induction size : text.length using Nat.strong_induction_on generalizing text with
  | _ n ih =>
    by_cases none : b.occurrences key text = 0
    · exact free text none
    · obtain ⟨A, B, split, before⟩ := b.exists_first text none
      subst split
      apply cut A B before
      apply ih B.length ?_ B rfl
      rw [← size, List.length_append, List.length_append, placeholder_length]
      omega

/-! ## Substitution -/

@[simp] theorem substituteLoop_nil (vars : List (List α × List α)) (skip : Nat) :
    b.substituteLoop vars skip [] = [] := by
  cases skip <;> rfl

theorem substituteLoop_drop (vars : List (List α × List α)) (skip : Nat) (text : List α) :
    b.substituteLoop vars skip text = b.substitute vars (text.drop skip) := by
  induction skip generalizing text with
  | zero => rfl
  | succ skip ih =>
    cases text with
    | nil => rfl
    | cons x rest => exact ih rest

theorem substitute_cons (vars : List (List α × List α)) (x : α) (rest : List α) :
    b.substitute vars (x :: rest)
      = match vars.find? fun kv => b.standsAt kv.1 (x :: rest) with
        | some kv => kv.2 ++ b.substitute vars (rest.drop (kv.1.length + 1))
        | none => x :: b.substitute vars rest := by
  rw [substitute, substituteLoop]
  split
  · rw [substituteLoop_drop]
  · rfl

@[simp] theorem substitute_nil (vars : List (List α × List α)) : b.substitute vars [] = [] := rfl

theorem substitute_of_no_vars (text : List α) : b.substitute [] text = text := by
  induction text with
  | nil => rfl
  | cons x rest ih => simp [substitute_cons, ih]

/-- Before an opening symbol the substitution is finished. -/
theorem substituteLoop_append {vars : List (List α × List α)}
    (plain : ∀ kv ∈ vars, b.Plain kv.1) (A R : List α) (skip : Nat) (fits : skip ≤ A.length) :
    b.substituteLoop vars skip (A ++ b.opening :: R)
      = b.substituteLoop vars skip A ++ b.substitute vars (b.opening :: R) := by
  induction A generalizing skip with
  | nil =>
    obtain rfl : skip = 0 := by simpa using fits
    rfl
  | cons x A ih =>
    cases skip with
    | succ skip => exact ih skip (by simpa using fits)
    | zero =>
      have same : (vars.find? fun kv => b.standsAt kv.1 (x :: (A ++ b.opening :: R)))
          = vars.find? fun kv => b.standsAt kv.1 (x :: A) :=
        List.find?_congr fun kv member => b.standsAt_append (plain kv member) x A R
      rw [List.cons_append, substituteLoop, substituteLoop, same]
      cases found : vars.find? fun kv => b.standsAt kv.1 (x :: A) with
      | none => simp [ih 0 (Nat.zero_le _)]
      | some kv =>
        have here : b.standsAt kv.1 (x :: A) = true := by
          simpa using List.find?_some found
        have whole : (b.placeholder kv.1).length ≤ (x :: A).length :=
          ((b.standsAt_iff _ _).mp here).length_le
        have inside : kv.1.length + 1 ≤ A.length := by
          simpa [placeholder_length] using whole
        simp [ih _ inside]

theorem substitute_append_opening {vars : List (List α × List α)}
    (plain : ∀ kv ∈ vars, b.Plain kv.1) (A R : List α) :
    b.substitute vars (A ++ b.opening :: R)
      = b.substitute vars A ++ b.substitute vars (b.opening :: R) :=
  b.substituteLoop_append plain A R 0 (Nat.zero_le _)

theorem substitute_free (vars : List (List α × List α)) (B : List α) {w : List α}
    (free : b.opening ∉ w) : b.substitute vars (w ++ B) = w ++ b.substitute vars B := by
  induction w with
  | nil => rfl
  | cons x w ih =>
    have differ : x ≠ b.opening := fun h => free (by simp [h])
    have nothing : (vars.find? fun kv => b.standsAt kv.1 (x :: (w ++ B))) = none := by
      simp [b.standsAt_cons_of_ne _ _ differ]
    rw [List.cons_append, substitute_cons, nothing, ih fun h => free (List.mem_cons_of_mem x h)]
    rfl

theorem substitute_placeholder {vars : List (List α × List α)}
    (plain : ∀ kv ∈ vars, b.Plain kv.1) {key : List α} (keyPlain : b.Plain key) (B : List α) :
    b.substitute vars (b.placeholder key ++ B) = b.valueOf vars key ++ b.substitute vars B := by
  have same : (vars.find? fun kv => b.standsAt kv.1 (b.placeholder key ++ B))
      = vars.find? fun kv => kv.1 = key :=
    List.find?_congr fun kv member => b.standsAt_placeholder (plain kv member) keyPlain B
  have step := b.substitute_cons vars b.opening (key ++ [b.closing] ++ B)
  rw [← List.cons_append, ← placeholder, same] at step
  rw [step, valueOf]
  cases found : vars.find? fun kv => kv.1 = key with
  | none =>
    rw [b.substitute_free vars B keyPlain.opening_not_mem]
    simp [placeholder]
  | some kv =>
    have named : kv.1 = key := by simpa using List.find?_some found
    have passed : (key ++ [b.closing] ++ B).drop (kv.1.length + 1) = B := by
      rw [named]
      exact List.drop_left' (by simp)
    simp only [passed]
    rfl

theorem substitute_around {vars : List (List α × List α)}
    (plain : ∀ kv ∈ vars, b.Plain kv.1) {key : List α} (keyPlain : b.Plain key) (A B : List α) :
    b.substitute vars (A ++ (b.placeholder key ++ B))
      = b.substitute vars A ++ (b.valueOf vars key ++ b.substitute vars B) := by
  rw [← b.substitute_placeholder plain keyPlain B]
  exact b.substitute_append_opening plain A _

/-! ## One more key -/

theorem find?_fresh {vars : List (List α × List α)} {key : List α}
    (fresh : key ∉ vars.map Prod.fst) : (vars.find? fun kv => decide (kv.1 = key)) = none := by
  rw [List.find?_eq_none]
  intro kv member
  have differ : kv.1 ≠ key := fun h => fresh (List.mem_map.mpr ⟨kv, member, h⟩)
  simpa using differ

theorem valueOf_absent {vars : List (List α × List α)} {key : List α}
    (fresh : key ∉ vars.map Prod.fst) : b.valueOf vars key = b.placeholder key := by
  rw [valueOf, find?_fresh fresh]
  rfl

theorem valueOf_added {vars : List (List α × List α)} {key : List α} (value : List α)
    (fresh : key ∉ vars.map Prod.fst) : b.valueOf (vars ++ [(key, value)]) key = value := by
  rw [valueOf, List.find?_append, find?_fresh fresh]
  simp

/-- A key that does not occur makes no difference. -/
theorem substituteLoop_added_absent (vars : List (List α × List α)) (key value : List α)
    (text : List α) (skip : Nat) (none : b.occurrences key text = 0) :
    b.substituteLoop (vars ++ [(key, value)]) skip text = b.substituteLoop vars skip text := by
  induction text generalizing skip with
  | nil => simp
  | cons x rest ih =>
    rw [occurrences_cons] at none
    have later : b.occurrences key rest = 0 := by omega
    have absent : b.standsAt key (x :: rest) = false := by
      cases here : b.standsAt key (x :: rest) with
      | false => rfl
      | true => simp [here] at none
    cases skip with
    | succ skip => exact ih skip later
    | zero =>
      have same : ((vars ++ [(key, value)]).find? fun kv => b.standsAt kv.1 (x :: rest))
          = vars.find? fun kv => b.standsAt kv.1 (x :: rest) := by
        simp [List.find?_append, absent]
      rw [substituteLoop, substituteLoop, same]
      cases vars.find? fun kv => b.standsAt kv.1 (x :: rest) with
      | none => simp [ih 0 later]
      | some kv => simp [ih _ later]

theorem substitute_added_absent (vars : List (List α × List α)) {key : List α} (value : List α)
    {text : List α} (none : b.occurrences key text = 0) :
    b.substitute (vars ++ [(key, value)]) text = b.substitute vars text :=
  b.substituteLoop_added_absent vars key value text 0 none

theorem fill_absent {key : List α} (value : List α) {text : List α}
    (none : b.occurrences key text = 0) : b.substitute [(key, value)] text = text :=
  (b.substitute_added_absent [] value none).trans (b.substitute_of_no_vars text)

section Added

variable {vars : List (List α × List α)} {key : List α} (value : List α)
variable (plain : ∀ kv ∈ vars, b.Plain kv.1) (keyPlain : b.Plain key)
variable (fresh : key ∉ vars.map Prod.fst)
include plain keyPlain fresh

omit plain fresh in
theorem fill_around (A B : List α) :
    b.substitute [(key, value)] (A ++ (b.placeholder key ++ B))
      = b.substitute [(key, value)] A ++ (value ++ b.substitute [(key, value)] B) := by
  have single : ∀ kv ∈ [(key, value)], b.Plain kv.1 := by simpa using keyPlain
  rw [b.substitute_around single keyPlain, ← List.nil_append [(key, value)],
    b.valueOf_added value (by simp)]

theorem substitute_around_absent (A B : List α) :
    b.substitute vars (A ++ (b.placeholder key ++ B))
      = b.substitute vars A ++ (b.placeholder key ++ b.substitute vars B) := by
  rw [b.substitute_around plain keyPlain, b.valueOf_absent fresh]

theorem substitute_around_added {A : List α} (B : List α) (none : b.occurrences key A = 0) :
    b.substitute (vars ++ [(key, value)]) (A ++ (b.placeholder key ++ B))
      = b.substitute vars A ++ (value ++ b.substitute (vars ++ [(key, value)]) B) := by
  have both : ∀ kv ∈ vars ++ [(key, value)], b.Plain kv.1 := by
    intro kv member
    obtain member | member := List.mem_append.mp member
    · exact plain kv member
    · rw [List.mem_singleton.mp member]
      exact keyPlain
  rw [b.substitute_around both keyPlain, b.valueOf_added value fresh,
    b.substitute_added_absent vars value none]

/-- Each placeholder of the key trades its own length for that of the value. -/
theorem length_added (text : List α) :
    (b.substitute (vars ++ [(key, value)]) text).length
        + b.occurrences key text * (b.placeholder key).length
      = (b.substitute vars text).length + b.occurrences key text * value.length := by
  induction text using b.split_induction key with
  | free A none => rw [b.substitute_added_absent vars value none, none, Nat.zero_mul, Nat.zero_mul]
  | cut A B none ih =>
    rw [b.substitute_around_added value plain keyPlain fresh B none,
      b.substitute_around_absent plain keyPlain fresh, b.occurrences_around keyPlain, none]
    simp only [List.length_append]
    rw [Nat.zero_add, Nat.add_mul, Nat.add_mul, Nat.one_mul, Nat.one_mul]
    omega

omit plain fresh in
theorem fill_length (text : List α) :
    (b.substitute [(key, value)] text).length
        + b.occurrences key text * (b.placeholder key).length
      = text.length + b.occurrences key text * value.length := by
  have noPlain : ∀ kv ∈ ([] : List (List α × List α)), b.Plain kv.1 := by simp
  have lengths := b.length_added value noPlain keyPlain (by simp) text
  rwa [List.nil_append, b.substitute_of_no_vars] at lengths

/-- A key that keeps its place makes no difference. -/
theorem substitute_added_own (text : List α) :
    b.substitute (vars ++ [(key, b.placeholder key)]) text = b.substitute vars text := by
  induction text using b.split_induction key with
  | free A none => exact b.substitute_added_absent vars _ none
  | cut A B none ih =>
    rw [b.substitute_around_added _ plain keyPlain fresh B none,
      b.substitute_around_absent plain keyPlain fresh, ih]

/-- The substitution keeps the placeholders of a key it does not assign. -/
theorem occurrences_le (text : List α) :
    b.occurrences key text ≤ b.occurrences key (b.substitute vars text) := by
  induction text using b.split_induction key with
  | free A none => omega
  | cut A B none ih =>
    rw [b.substitute_around_absent plain keyPlain fresh, b.occurrences_around keyPlain,
      b.occurrences_around keyPlain]
    omega

theorem fill_substitute_of_occurrences (text : List α)
    (same : b.occurrences key (b.substitute vars text) = b.occurrences key text) :
    b.substitute [(key, value)] (b.substitute vars text)
      = b.substitute (vars ++ [(key, value)]) text := by
  induction text using b.split_induction key with
  | free A none =>
    rw [b.substitute_added_absent vars value none, b.fill_absent value (same.trans none)]
  | cut A B none ih =>
    rw [b.substitute_around_absent plain keyPlain fresh, b.occurrences_around keyPlain,
      b.occurrences_around keyPlain] at same
    have kept := b.occurrences_le plain keyPlain fresh B
    have before : b.occurrences key (b.substitute vars A) = 0 := by omega
    rw [b.substitute_around_absent plain keyPlain fresh,
      b.substitute_around_added value plain keyPlain fresh B none, b.fill_around value keyPlain,
      b.fill_absent value before, ih (by omega)]

omit plain fresh in
/-- Filling in changes a text that has the placeholder, unless by the placeholder itself. -/
theorem fill_eq_self {text : List α} (same : b.substitute [(key, value)] text = text) :
    value = b.placeholder key ∨ b.occurrences key text = 0 := by
  have lengths := b.fill_length value keyPlain text
  rw [same] at lengths
  obtain none | found := Nat.eq_zero_or_pos (b.occurrences key text)
  · exact Or.inr none
  · have long : value.length = (b.placeholder key).length :=
      (Nat.eq_of_mul_eq_mul_left found (Nat.add_left_cancel lengths)).symm
    obtain ⟨A, B, split, before⟩ := b.exists_first text (Nat.pos_iff_ne_zero.mp found)
    rw [split, b.fill_around value keyPlain, b.fill_absent value before] at same
    exact Or.inl (List.append_inj_left (List.append_cancel_left same) long)

theorem occurrences_of_equal_length (long : value.length = (b.placeholder key).length)
    (text : List α)
    (same : b.substitute [(key, value)] (b.substitute vars text)
      = b.substitute (vars ++ [(key, value)]) text) :
    value = b.placeholder key ∨
      b.occurrences key (b.substitute vars text) = b.occurrences key text := by
  induction text using b.split_induction key with
  | free A none =>
    rw [b.substitute_added_absent vars value none] at same
    rw [none]
    exact b.fill_eq_self value keyPlain same
  | cut A B none ih =>
    rw [b.substitute_around_absent plain keyPlain fresh,
      b.substitute_around_added value plain keyPlain fresh B none,
      b.fill_around value keyPlain] at same
    have first := b.fill_length value keyPlain (b.substitute vars A)
    rw [long] at first
    obtain ⟨sameBefore, sameAfter⟩ := List.append_inj same (by omega)
    rw [b.substitute_around_absent plain keyPlain fresh, b.occurrences_around keyPlain,
      b.occurrences_around keyPlain, none]
    obtain own | before := b.fill_eq_self value keyPlain sameBefore
    · exact Or.inl own
    · obtain own | after := ih (List.append_cancel_left sameAfter)
      · exact Or.inl own
      · exact Or.inr (by omega)

theorem occurrences_of_fill_substitute (text : List α)
    (same : b.substitute [(key, value)] (b.substitute vars text)
      = b.substitute (vars ++ [(key, value)]) text) :
    value = b.placeholder key ∨
      b.occurrences key (b.substitute vars text) = b.occurrences key text := by
  have filled := b.fill_length value keyPlain (b.substitute vars text)
  rw [same] at filled
  have added := b.length_added value plain keyPlain fresh text
  have traded : ((b.occurrences key (b.substitute vars text) : ℤ) - b.occurrences key text)
      * ((b.placeholder key).length - value.length) = 0 := by
    zify at filled added
    linear_combination filled - added
  obtain counts | long := mul_eq_zero.mp traded
  · exact Or.inr (by omega)
  · -- With equal lengths the two texts agree piece by piece.
    have long : value.length = (b.placeholder key).length := by omega
    exact b.occurrences_of_equal_length value plain keyPlain fresh long text same

/-- Filling in one more key extends the simultaneous substitution exactly when the
text has, for that key, the placeholders it always had, or the key keeps its place. -/
theorem fill_substitute_iff (text : List α) :
    b.substitute [(key, value)] (b.substitute vars text)
        = b.substitute (vars ++ [(key, value)]) text ↔
      value = b.placeholder key ∨
        b.occurrences key (b.substitute vars text) = b.occurrences key text := by
  constructor
  · exact b.occurrences_of_fill_substitute value plain keyPlain fresh text
  · intro kept
    obtain own | same := kept
    · have noPlain : ∀ kv ∈ ([] : List (List α × List α)), b.Plain kv.1 := by simp
      have kept := b.substitute_added_own noPlain keyPlain (by simp) (b.substitute vars text)
      rw [own, b.substitute_added_own plain keyPlain fresh]
      exact kept.trans (b.substitute_of_no_vars _)
    · exact b.fill_substitute_of_occurrences value plain keyPlain fresh text same

end Added

/-! ## One key after another -/

/-- Whatever has been filled in, the text is the simultaneous substitution so far. -/
def FilledVerbatim (text : List α) (vars : List (List α × List α)) : Prop :=
  ∀ i ≤ vars.length, b.fillEach text (vars.take i) = b.substitute (vars.take i) text

/-- In its turn each key has the placeholders of the text, or keeps its place. -/
def KeepsPlaceholders (text : List α) (vars : List (List α × List α)) : Prop :=
  ∀ i kv, vars[i]? = some kv →
    kv.2 = b.placeholder kv.1 ∨
      b.occurrences kv.1 (b.substitute (vars.take i) text) = b.occurrences kv.1 text

omit [DecidableEq α] in
theorem take_succ_of_getElem? {vars : List (List α × List α)} {i : Nat} {kv : List α × List α}
    (here : vars[i]? = some kv) : vars.take (i + 1) = vars.take i ++ [kv] := by
  rw [List.take_add_one, here]
  rfl

omit [DecidableEq α] in
theorem fresh_of_assigns {vars : List (List α × List α)} (assigns : b.Assigns vars) {i : Nat}
    {kv : List α × List α} (here : vars[i]? = some kv) :
    kv.1 ∉ (vars.take i).map Prod.fst := by
  have split : (vars.take (i + 1)).map Prod.fst = (vars.take i).map Prod.fst ++ [kv.1] := by
    rw [take_succ_of_getElem? here, List.map_append]
    rfl
  have distinct : ((vars.take (i + 1)).map Prod.fst).Nodup :=
    assigns.distinct.sublist ((List.take_sublist _ _).map _)
  rw [split] at distinct
  intro member
  exact (List.nodup_append.mp distinct).2.2 _ member _ (List.mem_singleton_self _) rfl

theorem filledVerbatim_iff {vars : List (List α × List α)} (assigns : b.Assigns vars)
    (text : List α) : b.FilledVerbatim text vars ↔ b.KeepsPlaceholders text vars := by
  have step : ∀ i kv, vars[i]? = some kv →
      b.fillEach text (vars.take i) = b.substitute (vars.take i) text →
      (b.fillEach text (vars.take (i + 1)) = b.substitute (vars.take (i + 1)) text ↔
        kv.2 = b.placeholder kv.1 ∨
          b.occurrences kv.1 (b.substitute (vars.take i) text) = b.occurrences kv.1 text) := by
    intro i kv here soFar
    rw [take_succ_of_getElem? here, fillEach, List.foldl_append]
    change b.substitute [kv] (b.fillEach text (vars.take i)) = _ ↔ _
    rw [soFar]
    exact b.fill_substitute_iff kv.2 (fun e member => assigns.plain e (List.mem_of_mem_take member))
      (assigns.plain kv (List.mem_of_getElem? here)) (b.fresh_of_assigns assigns here) text
  constructor
  · intro filled i kv here
    have bound : i < vars.length := (List.getElem?_eq_some_iff.mp here).1
    exact (step i kv here (filled i (by omega))).mp (filled (i + 1) (by omega))
  · intro keeps i
    induction i with
    | zero =>
      intro _
      exact (b.substitute_of_no_vars text).symm
    | succ i ih =>
      intro bound
      have here : vars[i]? = some vars[i] := List.getElem?_eq_getElem (by omega)
      exact (step i _ here (ih (by omega))).mpr (keeps i _ here)

/-! ## The order of an assignment -/

omit [DecidableEq α] in
theorem find?_of_perm {p : List α × List α → Bool} {vars order : List (List α × List α)}
    (same : order.Perm vars)
    (unique : ∀ kv ∈ vars, ∀ kv' ∈ vars, p kv = true → p kv' = true → kv = kv') :
    order.find? p = vars.find? p := by
  cases found : vars.find? p with
  | none =>
    rw [List.find?_eq_none] at found ⊢
    exact fun kv member => found kv (same.mem_iff.mp member)
  | some kv =>
    have member := List.mem_of_find?_eq_some found
    have holds : p kv = true := List.find?_some found
    obtain ⟨kv', found'⟩ := Option.isSome_iff_exists.mp
      (List.find?_isSome.mpr ⟨kv, same.mem_iff.mpr member, holds⟩)
    have member' := same.mem_iff.mp (List.mem_of_find?_eq_some found')
    rw [found', unique kv' member' kv member (List.find?_some found') holds]

/-- A simultaneous substitution has no order. -/
theorem substitute_perm {vars order : List (List α × List α)} (assigns : b.Assigns vars)
    (same : order.Perm vars) (text : List α) :
    b.substitute order text = b.substitute vars text := by
  have loops : ∀ skip, b.substituteLoop order skip text = b.substituteLoop vars skip text := by
    induction text with
    | nil => simp
    | cons x rest ih =>
      intro skip
      cases skip with
      | succ skip => exact ih skip
      | zero =>
        have first : (order.find? fun kv => b.standsAt kv.1 (x :: rest))
            = vars.find? fun kv => b.standsAt kv.1 (x :: rest) := by
          apply find?_of_perm same
          intro kv member kv' member' here here'
          exact List.inj_on_of_nodup_map assigns.distinct member member'
            (b.eq_of_standsAt (assigns.plain kv member) (assigns.plain kv' member') here here')
        rw [substituteLoop, substituteLoop, first]
        cases vars.find? fun kv => b.standsAt kv.1 (x :: rest) with
        | none => simp [ih]
        | some kv => simp [ih]
  exact loops 0

omit [DecidableEq α] in
theorem Assigns.perm {b : Brackets α} {vars order : List (List α × List α)}
    (assigns : b.Assigns vars) (same : order.Perm vars) : b.Assigns order :=
  ⟨(same.map Prod.fst).nodup_iff.mpr assigns.distinct,
    fun kv member => assigns.plain kv (same.mem_iff.mp member)⟩

end Brackets

end ControlPlane.Lib.Placeholders
