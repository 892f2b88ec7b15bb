import Mathlib.Algebra.Ring.Nat
import Mathlib.Data.List.Basic

/-!
# Text operations of the standard library

The scanning functions the orchestrator applies to model output, over lists of
characters so that they run by structural recursion: `str::contains`,
`str::split`, `str::replace`, `str::trim`, `to_ascii_uppercase`,
`str::parse::<usize>` and slicing at byte offsets. Only the Unicode tables for case mapping and for
`char::is_alphanumeric` stay abstract; they are fields of `Externals`.
-/
namespace ControlPlane.Source.Text

/-- `str::contains` with a string pattern. -/
def containsText : List Char → List Char → Bool
  | [], needle => needle.isEmpty
  | c :: rest, needle => needle.isPrefixOf (c :: rest) || containsText rest needle

/-- The loop of `str::split`: `skip` counts the characters of a separator already
found that are still to be dropped, `piece` is the current piece, reversed. -/
def splitLoop (sep : List Char) : Nat → List Char → List Char → List (List Char)
  | _, piece, [] => [piece.reverse]
  | skip + 1, piece, _ :: rest => splitLoop sep skip piece rest
  | 0, piece, c :: rest =>
      if sep.isPrefixOf (c :: rest) then
        piece.reverse :: splitLoop sep (sep.length - 1) [] rest
      else splitLoop sep 0 (c :: piece) rest

/-- `str::split` with a non-empty string separator. -/
def splitText (text sep : List Char) : List (List Char) := splitLoop sep 0 [] text

/-- `str::replace` for a non-empty pattern. -/
def replaceText (text pattern replacement : List Char) : List Char :=
  List.intercalate replacement (splitText text pattern)

/-- The Unicode `White_Space` property that `str::trim` uses. -/
def isWhitespace (c : Char) : Bool :=
  let n := c.toNat
  (decide (9 ≤ n) && decide (n ≤ 13)) || n == 0x20 || n == 0x85 || n == 0xA0 || n == 0x1680 ||
    (decide (0x2000 ≤ n) && decide (n ≤ 0x200A)) || n == 0x2028 || n == 0x2029 ||
    n == 0x202F || n == 0x205F || n == 0x3000

def trimStart (text : List Char) : List Char := text.dropWhile isWhitespace

def trimEnd (text : List Char) : List Char := (text.reverse.dropWhile isWhitespace).reverse

/-- `str::trim`. -/
def trim (text : List Char) : List Char := trimEnd (trimStart text)

/-- `char::to_ascii_uppercase`, letter by letter. -/
def toAsciiUppercase (text : List Char) : List Char :=
  text.map fun c =>
    if 'a' ≤ c ∧ c ≤ 'z' then Char.ofNat (c.toNat - 32) else c

/-- `find` with a string: the text before its first occurrence and the text behind it. -/
def splitAtText (needle : List Char) : List Char → Option (List Char × List Char)
  | [] => if needle.isEmpty then some ([], []) else none
  | c :: rest =>
      if needle.isPrefixOf (c :: rest) then some ([], (c :: rest).drop needle.length)
      else (splitAtText needle rest).map fun parts => (c :: parts.1, parts.2)

/-- `rfind` with a string, the same way. -/
def splitAtLastText (needle : List Char) : List Char → Option (List Char × List Char)
  | [] => if needle.isEmpty then some ([], []) else none
  | c :: rest =>
      match splitAtLastText needle rest with
      | some parts => some (c :: parts.1, parts.2)
      | none =>
          if needle.isPrefixOf (c :: rest) then some ([], (c :: rest).drop needle.length)
          else none

/-- `find(c)`: the text before the first `c` and the text after it. -/
def splitAtFirst (c : Char) : List Char → Option (List Char × List Char)
  | [] => none
  | d :: rest =>
      if d = c then some ([], rest)
      else (splitAtFirst c rest).map fun parts => (d :: parts.1, parts.2)

/-- The text after the last `c`, when there is one (`rfind`). -/
def afterLast (c : Char) : List Char → Option (List Char)
  | [] => none
  | d :: rest =>
      match afterLast c rest with
      | some tail => some tail
      | none => if d = c then some rest else none

def digitValue (c : Char) : Option Nat :=
  if '0' ≤ c ∧ c ≤ '9' then some (c.toNat - '0'.toNat) else none

/-- Decimal digits, failing on anything else and on a value past `usize::MAX`. -/
def parseDigits : Nat → List Char → Option Nat
  | acc, [] => some acc
  | acc, c :: rest =>
      match digitValue c with
      | none => none
      | some d =>
          let next := acc * 10 + d
          if next < 2 ^ 64 then parseDigits next rest else none

/-- `str::parse::<usize>`: an optional `+`, then at least one digit. -/
def parseUsize (text : List Char) : Option Nat :=
  match text with
  | '+' :: c :: rest => parseDigits 0 (c :: rest)
  | '+' :: [] => none
  | [] => none
  | c :: rest => parseDigits 0 (c :: rest)

/-! ## Byte offsets -/

def utf8Len (text : List Char) : Nat := (text.map Char.utf8Size).sum

/-- `find(c)`: the byte offset of the first `c`. -/
def findChar (c : Char) : List Char → Option Nat
  | [] => none
  | d :: rest => if d = c then some 0 else (findChar c rest).map (d.utf8Size + ·)

/-- `&text[n..]`; `none` is the panic at an offset inside a character or past the end. -/
def sliceFrom : Nat → List Char → Option (List Char)
  | 0, text => some text
  | _ + 1, [] => none
  | n + 1, c :: rest => if c.utf8Size ≤ n + 1 then sliceFrom (n + 1 - c.utf8Size) rest else none

/-- `&text[..n]`, the same way. -/
def sliceTo : Nat → List Char → Option (List Char)
  | 0, _ => some []
  | _ + 1, [] => none
  | n + 1, c :: rest =>
      if c.utf8Size ≤ n + 1 then (sliceTo (n + 1 - c.utf8Size) rest).map (c :: ·) else none

@[simp] theorem utf8Len_nil : utf8Len [] = 0 := rfl

@[simp] theorem utf8Len_cons (c : Char) (rest : List Char) :
    utf8Len (c :: rest) = c.utf8Size + utf8Len rest := by
  simp [utf8Len]

@[simp] theorem utf8Len_append (a b : List Char) : utf8Len (a ++ b) = utf8Len a + utf8Len b := by
  simp [utf8Len]

theorem utf8Len_pos {text : List Char} (h : text ≠ []) : 0 < utf8Len text := by
  cases text with
  | nil => exact absurd rfl h
  | cons c rest =>
      have hc := Char.utf8Size_pos c
      rw [utf8Len_cons]
      omega

theorem utf8Len_mono {text text' : List Char} (h : text' <+: text) :
    utf8Len text' ≤ utf8Len text := by
  obtain ⟨rest, rfl⟩ := h
  rw [utf8Len_append]
  omega

/-- Slicing at the end of a piece falls between two characters. -/
theorem slice_append (a b : List Char) :
    sliceTo (utf8Len a) (a ++ b) = some a ∧ sliceFrom (utf8Len a) (a ++ b) = some b := by
  induction a with
  | nil => cases b <;> simp [sliceTo, sliceFrom]
  | cons c a ih =>
      have hpos : 0 < utf8Len (c :: a) := utf8Len_pos (List.cons_ne_nil c a)
      obtain ⟨n, hn⟩ : ∃ n, utf8Len (c :: a) = n + 1 :=
        Nat.exists_eq_succ_of_ne_zero (Nat.ne_of_gt hpos)
      have hle : c.utf8Size ≤ n + 1 := by
        rw [← hn, utf8Len_cons]
        omega
      have hrest : n + 1 - c.utf8Size = utf8Len a := by
        rw [← hn, utf8Len_cons]
        omega
      rw [hn, List.cons_append]
      simp only [sliceTo, sliceFrom, hle, ↓reduceIte, hrest, ih, Option.map_some, and_self]

theorem findChar_eq_none_iff {c : Char} {text : List Char} : findChar c text = none ↔ c ∉ text := by
  induction text with
  | nil => simp [findChar]
  | cons d rest ih =>
      by_cases h : d = c
      · simp [findChar, h]
      · simp [findChar, h, ih, Ne.symm h]

/-- `find` gives the byte length of the text in front of the first `c`. -/
theorem findChar_eq_some {c : Char} {text : List Char} {n : Nat} (h : findChar c text = some n) :
    ∃ before rest, text = before ++ c :: rest ∧ c ∉ before ∧ utf8Len before = n := by
  induction text generalizing n with
  | nil => cases h
  | cons d rest ih =>
      by_cases hd : d = c
      · subst hd
        simp only [findChar, ↓reduceIte, Option.some.injEq] at h
        exact ⟨[], rest, rfl, by simp, h⟩
      · simp only [findChar, hd, ↓reduceIte, Option.map_eq_some_iff] at h
        obtain ⟨m, hm, rfl⟩ := h
        obtain ⟨before, after, rfl, hbefore, rfl⟩ := ih hm
        exact ⟨d :: before, after, rfl, by simp [hbefore, Ne.symm hd], by simp⟩

/-! ## What the functions find -/

/-- `trim` takes white space off both ends. -/
theorem trim_split (text : List Char) :
    ∃ front back, text = front ++ trim text ++ back ∧ (∀ c ∈ front, isWhitespace c = true) ∧
      ∀ c ∈ back, isWhitespace c = true := by
  let middle := trimStart text
  have hfront : text = text.takeWhile isWhitespace ++ middle :=
    (List.takeWhile_append_dropWhile).symm
  have hback : middle = trimEnd middle ++ (middle.reverse.takeWhile isWhitespace).reverse := by
    unfold trimEnd
    rw [← List.reverse_append, List.takeWhile_append_dropWhile, List.reverse_reverse]
  refine ⟨text.takeWhile isWhitespace, (middle.reverse.takeWhile isWhitespace).reverse, ?_, ?_, ?_⟩
  · rw [List.append_assoc]
    unfold trim
    rw [← hback]
    exact hfront
  · intro c hc
    exact List.all_eq_true.mp List.all_takeWhile c hc
  · intro c hc
    exact List.all_eq_true.mp List.all_takeWhile c (List.mem_reverse.mp hc)

/-- `contains` finds the needle wherever it stands. -/
theorem containsText_iff {text needle : List Char} :
    containsText text needle = true ↔ needle <:+: text := by
  induction text with
  | nil =>
      unfold containsText
      rw [List.isEmpty_iff, List.infix_nil]
  | cons c text ih =>
      unfold containsText
      rw [Bool.or_eq_true, ih, List.isPrefixOf_iff_prefix, List.infix_cons_iff]

/-- What digits that parse stand for. -/
theorem parseDigits_eq_some {text : List Char} {acc value : Nat}
    (h : parseDigits acc text = some value) : value = Nat.ofDigitChars 10 text acc := by
  induction text generalizing acc with
  | nil =>
      simp only [parseDigits, Option.some.injEq] at h
      simp [h]
  | cons c rest ih =>
      simp only [parseDigits, digitValue] at h
      by_cases hdigit : '0' ≤ c ∧ c ≤ '9'
      · simp only [hdigit, and_self, ↓reduceIte] at h
        split at h
        next =>
          rw [ih h, Nat.ofDigitChars_cons, Nat.mul_comm]
        next => cases h
      · simp [hdigit] at h

/-- A number written in decimal parses to itself, if it parses at all. -/
theorem parseUsize_repr {n value : Nat} (h : parseUsize (Nat.repr n).toList = some value) :
    value = n := by
  rw [Nat.toList_repr] at h
  have hparse : parseDigits 0 (Nat.toDigits 10 n) = some value := by
    cases hdigits : Nat.toDigits 10 n with
    | nil => exact absurd hdigits Nat.toDigits_ne_nil
    | cons c rest =>
        have hmem : c ∈ Nat.toDigits 10 n := by simp [hdigits]
        have hdigit : c.isDigit = true :=
          Nat.isDigit_of_mem_toDigits (by decide) (by decide) hmem
        have hplus : c ≠ '+' := by
          rintro rfl
          exact absurd hdigit (by decide)
        rw [hdigits] at h
        unfold parseUsize at h
        split at h <;> simp_all
  rw [parseDigits_eq_some hparse, Nat.ofDigitChars_ten_toDigits]

theorem le_ofDigitChars (text : List Char) (acc : Nat) : acc ≤ Nat.ofDigitChars 10 text acc := by
  induction text generalizing acc with
  | nil => simp
  | cons c rest ih =>
      rw [Nat.ofDigitChars_cons]
      have := ih (10 * acc + (c.toNat - '0'.toNat))
      omega

/-- Digits parse as long as their value fits. -/
theorem parseDigits_of_lt {text : List Char} {acc : Nat} (digits : ∀ c ∈ text, c.isDigit = true)
    (fits : Nat.ofDigitChars 10 text acc < 2 ^ 64) :
    parseDigits acc text = some (Nat.ofDigitChars 10 text acc) := by
  induction text generalizing acc with
  | nil => simp [parseDigits]
  | cons c rest ih =>
      obtain ⟨hc, hrest⟩ := List.forall_mem_cons.mp digits
      have hdigit : digitValue c = some (c.toNat - '0'.toNat) := by
        rw [Char.isDigit, Bool.and_eq_true, decide_eq_true_eq, decide_eq_true_eq] at hc
        exact if_pos hc
      rw [Nat.ofDigitChars_cons, Nat.mul_comm] at fits ⊢
      have hnext := le_ofDigitChars rest (acc * 10 + (c.toNat - '0'.toNat))
      simp only [parseDigits, hdigit]
      rw [if_pos (by omega)]
      exact ih hrest fits

theorem parseUsize_repr_of_lt {n : Nat} (fits : n < 2 ^ 64) :
    parseUsize (Nat.repr n).toList = some n := by
  have hdigits : ∀ c ∈ Nat.toDigits 10 n, c.isDigit = true := fun c hc =>
    Nat.isDigit_of_mem_toDigits (by decide) (by decide) hc
  have hparse : parseDigits 0 (Nat.toDigits 10 n) = some n := by
    rw [parseDigits_of_lt hdigits (by rwa [Nat.ofDigitChars_ten_toDigits]),
      Nat.ofDigitChars_ten_toDigits]
  rw [Nat.toList_repr]
  cases htext : Nat.toDigits 10 n with
  | nil => exact absurd htext Nat.toDigits_ne_nil
  | cons c rest =>
      rw [htext] at hparse hdigits
      have hplus : c ≠ '+' := by
        intro h
        have := hdigits c (by simp)
        rw [h] at this
        exact absurd this (by decide)
      unfold parseUsize
      split <;> simp_all

/-! ## Splitting at characters -/

theorem splitAtFirst_append {c : Char} {front : List Char} (h : c ∉ front) (rest : List Char) :
    splitAtFirst c (front ++ c :: rest) = some (front, rest) := by
  induction front with
  | nil => simp [splitAtFirst]
  | cons d front ih =>
      obtain ⟨hd, hfront⟩ := List.ne_and_not_mem_of_not_mem_cons h
      simp [splitAtFirst, Ne.symm hd, ih hfront]

theorem splitAtFirst_eq_none {c : Char} {text : List Char} (h : c ∉ text) :
    splitAtFirst c text = none := by
  induction text with
  | nil => rfl
  | cons d rest ih =>
      obtain ⟨hd, hrest⟩ := List.ne_and_not_mem_of_not_mem_cons h
      simp [splitAtFirst, Ne.symm hd, ih hrest]

theorem afterLast_eq_none_iff {c : Char} {text : List Char} : afterLast c text = none ↔ c ∉ text := by
  induction text with
  | nil => simp [afterLast]
  | cons d rest ih =>
      cases htail : afterLast c rest with
      | some tail =>
          have hmem : c ∈ rest := by
            by_contra hnot
            rw [ih.mpr hnot] at htail
            cases htail
          simp [afterLast, htail, hmem]
      | none =>
          by_cases hd : d = c
          · simp [afterLast, htail, hd]
          · simp [afterLast, htail, hd, ih.mp htail, Ne.symm hd]

theorem afterLast_behind {c : Char} {front : List Char} (h : c ∉ front) (text : List Char) :
    afterLast c (front ++ text) = afterLast c text := by
  induction front with
  | nil => rfl
  | cons d front ih =>
      obtain ⟨hd, hfront⟩ := List.ne_and_not_mem_of_not_mem_cons h
      rw [List.cons_append, afterLast, ih hfront]
      cases afterLast c text <;> simp [Ne.symm hd]

/-- What follows without a `c` is added to the text after the last one. -/
theorem afterLast_append {c : Char} {back : List Char} (h : c ∉ back) (text : List Char) :
    afterLast c (text ++ back) = (afterLast c text).map (· ++ back) := by
  induction text with
  | nil => simpa [afterLast] using afterLast_eq_none_iff.mpr h
  | cons d rest ih =>
      rw [List.cons_append, afterLast, ih, afterLast]
      cases afterLast c rest with
      | some tail => rfl
      | none => by_cases hd : d = c <;> simp [hd]

theorem afterLast_last {c : Char} {back : List Char} (h : c ∉ back) (front : List Char) :
    afterLast c (front ++ c :: back) = some back := by
  have hone : afterLast c (front ++ [c]) = some [] := by
    induction front with
    | nil => simp [afterLast]
    | cons d front ih => simp [afterLast, ih]
  have hlast := afterLast_append h (front ++ [c])
  rw [hone] at hlast
  simpa using hlast

theorem afterLast_eq_some {c : Char} {text tail : List Char} (h : afterLast c text = some tail) :
    ∃ front, text = front ++ c :: tail ∧ c ∉ tail := by
  induction text generalizing tail with
  | nil => cases h
  | cons d rest ih =>
      simp only [afterLast] at h
      cases hrest : afterLast c rest with
      | some tail' =>
          rw [hrest, Option.some.injEq] at h
          subst h
          obtain ⟨front, rfl, hnot⟩ := ih hrest
          exact ⟨d :: front, rfl, hnot⟩
      | none =>
          simp only [hrest, Option.ite_none_right_eq_some, Option.some.injEq] at h
          obtain ⟨rfl, rfl⟩ := h
          exact ⟨[], rfl, afterLast_eq_none_iff.mp hrest⟩

/-! ## Splitting at a separator -/

section Separator

variable {sep : List Char}

/-- No separator starts inside `piece` when `rest` follows it. -/
def NoStart (sep piece rest : List Char) : Prop :=
  ∀ a b, piece = a ++ b → b ≠ [] → ¬sep <+: b ++ rest

/-- No end of the separator is a beginning of it. -/
def Unbordered (sep : List Char) : Prop := ∀ i < sep.length, 0 < i → ¬sep.drop i <+: sep

instance (sep : List Char) : Decidable (Unbordered sep) :=
  inferInstanceAs (Decidable (∀ i < sep.length, 0 < i → ¬sep.drop i <+: sep))

theorem NoStart.free {piece rest : List Char} (h : NoStart sep piece rest) (hsep : sep ≠ []) :
    ¬sep <:+: piece := by
  intro hstands
  obtain ⟨a, b, rfl⟩ := hstands
  refine h a (sep ++ b) (List.append_assoc a sep b) (by simp [hsep]) ?_
  rw [List.append_assoc]
  exact List.prefix_append sep (b ++ rest)

/-- In front of an unbordered separator none starts in a piece that holds none. -/
theorem noStart_of_free (unbordered : Unbordered sep) {piece : List Char}
    (h : ¬sep <:+: piece) (rest : List Char) : NoStart sep piece (sep ++ rest) := by
  intro a b hsplit hb hstart
  have hstands : ∀ {p : List Char}, p <+: b → p <:+: piece := by
    intro p hp
    rw [hsplit]
    exact hp.isInfix.trans (List.suffix_append a b).isInfix
  rcases List.prefix_or_prefix_of_prefix hstart (List.prefix_append b (sep ++ rest)) with hlong | hshort
  · exact h (hstands hlong)
  · obtain ⟨c, hc⟩ := hshort
    have hcstart : c <+: sep ++ rest := by
      rw [← List.prefix_append_right_inj b, hc]
      exact hstart
    have hlength : b.length + c.length = sep.length := by
      rw [← hc, List.length_append]
    have hbpos : 0 < b.length := List.length_pos_of_ne_nil hb
    by_cases hcnil : c = []
    · subst hcnil
      rw [List.append_nil] at hc
      exact h (hstands (hc ▸ List.prefix_rfl))
    · have hcpos : 0 < c.length := List.length_pos_of_ne_nil hcnil
      have hdrop : sep.drop b.length = c := by
        rw [← hc, List.drop_left]
      apply unbordered b.length (by omega) hbpos
      rw [hdrop]
      exact List.prefix_of_prefix_length_le hcstart (List.prefix_append sep rest) (by omega)

theorem splitLoop_skip (skip : Nat) (piece text : List Char) :
    splitLoop sep skip piece text = splitLoop sep 0 piece (text.drop skip) := by
  induction text generalizing skip with
  | nil => cases skip <;> simp [splitLoop]
  | cons c rest ih =>
      cases skip with
      | zero => rfl
      | succ skip =>
          rw [splitLoop, List.drop_succ_cons]
          exact ih skip

theorem splitLoop_through {piece rest : List Char} (h : NoStart sep piece rest)
    (done : List Char) :
    splitLoop sep 0 done (piece ++ rest) = splitLoop sep 0 (piece.reverse ++ done) rest := by
  induction piece generalizing done with
  | nil => rfl
  | cons c piece ih =>
      have hhead : sep.isPrefixOf (c :: (piece ++ rest)) = false := by
        rw [Bool.eq_false_iff, ne_eq, List.isPrefixOf_iff_prefix]
        exact h [] (c :: piece) rfl (by simp)
      have htail : NoStart sep piece rest := by
        intro a b hsplit hb
        exact h (c :: a) b (by rw [hsplit, List.cons_append]) hb
      rw [List.cons_append, splitLoop, hhead]
      simp only [Bool.false_eq_true, ↓reduceIte]
      rw [ih htail, List.reverse_cons, List.append_assoc, List.singleton_append]

theorem splitLoop_at (hsep : sep ≠ []) (done rest : List Char) :
    splitLoop sep 0 done (sep ++ rest) = done.reverse :: splitLoop sep 0 [] rest := by
  cases hcons : sep with
  | nil => exact absurd hcons hsep
  | cons c tail =>
      have hhead : (c :: tail).isPrefixOf (c :: (tail ++ rest)) = true := by
        rw [List.isPrefixOf_iff_prefix, ← List.cons_append]
        exact List.prefix_append _ _
      rw [List.cons_append, splitLoop, hhead]
      simp only [↓reduceIte, List.length_cons, Nat.add_sub_cancel]
      rw [splitLoop_skip, List.drop_left]

/-- Pieces without a separator come back from the text that joins them. -/
theorem splitText_join (unbordered : Unbordered sep) (hsep : sep ≠ []) (piece : List Char)
    (pieces : List (List Char)) (free : ∀ p ∈ piece :: pieces, ¬sep <:+: p) :
    splitText (piece ++ pieces.flatMap (sep ++ ·)) sep = piece :: pieces := by
  unfold splitText
  induction pieces generalizing piece with
  | nil =>
      have hlast : NoStart sep piece [] := by
        intro a b hsplit hb hstart
        refine noStart_of_free unbordered (free piece (by simp)) [] a b hsplit hb ?_
        rw [List.append_nil] at hstart
        exact hstart.trans (List.prefix_append b _)
      rw [List.flatMap_nil, splitLoop_through hlast, List.append_nil, splitLoop,
        List.reverse_reverse]
  | cons next pieces ih =>
      obtain ⟨hpiece, hrest⟩ := List.forall_mem_cons.mp free
      rw [List.flatMap_cons, List.append_assoc,
        splitLoop_through (noStart_of_free unbordered hpiece _), splitLoop_at hsep,
        List.append_nil, List.reverse_reverse, ih next hrest]

theorem noStart_nil (rest : List Char) : NoStart sep [] rest := by
  intro a b hsplit hb
  exact absurd (List.append_eq_nil_iff.mp hsplit.symm).2 hb

/-- A character at which no separator starts moves from the rest to the piece. -/
theorem NoStart.move {piece rest : List Char} {c : Char} (h : NoStart sep piece (c :: rest))
    (hc : ¬sep <+: c :: rest) : NoStart sep (piece ++ [c]) rest := by
  intro a b hsplit hb
  rcases List.eq_nil_or_concat b with rfl | ⟨b', d, rfl⟩
  · exact absurd rfl hb
  · rw [List.concat_eq_append, ← List.append_assoc] at hsplit
    obtain ⟨hpiece, hd⟩ := List.append_inj' hsplit rfl
    rw [List.singleton_inj] at hd
    subst hd
    rw [List.concat_eq_append, List.append_assoc, List.singleton_append]
    by_cases hb' : b' = []
    · subst hb'
      exact hc
    · exact h a b' hpiece hb'

/-- No piece of a split holds the separator. -/
theorem not_infix_of_mem_splitText (hsep : sep ≠ []) {text piece : List Char}
    (h : piece ∈ splitText text sep) : ¬sep <:+: piece := by
  have hloop : ∀ (text : List Char) (skip : Nat) (done : List Char),
      (skip = 0 → NoStart sep done.reverse text) → (0 < skip → done = []) →
      ∀ p ∈ splitLoop sep skip done text, ¬sep <:+: p := by
    intro text
    induction text with
    | nil =>
        intro skip done hfree hskip p hp
        have hp' : p = done.reverse := by
          cases skip <;> simpa [splitLoop] using hp
        rcases Nat.eq_zero_or_pos skip with hzero | hpos
        · rw [hp']
          exact (hfree hzero).free hsep
        · rw [hp', hskip hpos, List.reverse_nil, List.infix_nil]
          exact hsep
    | cons c rest ih =>
        intro skip done hfree hskip p hp
        cases skip with
        | succ skip =>
            obtain rfl := hskip (Nat.succ_pos skip)
            exact ih skip [] (fun _ => noStart_nil rest) (fun _ => rfl) p hp
        | zero =>
            rw [splitLoop] at hp
            split at hp
            · rcases List.mem_cons.mp hp with rfl | hp
              · exact (hfree rfl).free hsep
              · exact ih (sep.length - 1) [] (fun _ => noStart_nil rest) (fun _ => rfl) p hp
            next hnot =>
              rw [List.isPrefixOf_iff_prefix] at hnot
              refine ih 0 (c :: done) (fun _ => ?_) (fun h => absurd h (by omega)) p hp
              rw [List.reverse_cons]
              exact (hfree rfl).move hnot
  exact hloop text 0 [] (fun _ => noStart_nil text) (fun _ => rfl) piece h

end Separator

end ControlPlane.Source.Text
