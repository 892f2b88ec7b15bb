import ControlPlane.Source.Verification.Predicate

/-!
# Extraction of a JSON object

Embeds `extract_json_object` of `crates/h2ai-orchestrator/src/verification.rs` for any
target type, with the byte offsets it slices at and the loop it could stay in. The score
reader of the judge is its instance for `ScoreResponse`. `serde_json` is outside the
repository and enters as a `JsonReader`.
-/
namespace ControlPlane.Source.Verification

open Text

/-- What `serde_json` decides about a text. -/
structure JsonReader (T : Type) where
  /-- `serde_json::from_str::<T>`. -/
  fromStr : List Char → Option T
  /-- `byte_offset` of a stream of `Value`s after its first item, if that is `Ok`. -/
  byteOffset : List Char → Option Nat

/-- How far a run got: it returned, a slice was not at a character boundary, or it is
still in the loop. -/
inductive Extraction (T : Type) where
  | returned (value : Option T)
  | panicked
  | running
  deriving DecidableEq, Repr

variable {T : Type} (reader : JsonReader T)

/-- `rounds` rounds of the loop over the `\x7b`s of the text. -/
def scanObjects : Nat → Option T → List Char → Extraction T
  | 0, _, _ => .running
  | rounds + 1, lastValid, search =>
      match findChar '\x7b' search with
      | none => .returned lastValid
      | some rel =>
          match sliceFrom rel search with
          | none => .panicked
          | some tail =>
              match reader.byteOffset tail with
              | some stop =>
                  match sliceTo stop tail, sliceFrom stop tail with
                  | some value, some rest =>
                      scanObjects rounds ((reader.fromStr value).or lastValid) rest
                  | _, _ => .panicked
              | none =>
                  match sliceFrom 1 tail with
                  | some rest => scanObjects rounds lastValid rest
                  | none => .panicked

/-- `extract_json_object`. -/
def JsonReader.extractJsonObject (rounds : Nat) (text : List Char) : Extraction T :=
  match reader.fromStr (trim text) with
  | some value => .returned (some value)
  | none => scanObjects reader rounds none text

/-- What is assumed of `serde_json`: a stream that starts at a `\x7b` consumes one value,
reports where it ends, and does not look behind its end. -/
structure ReadsOneValue : Prop where
  ends : ∀ (tail : List Char) (stop : Nat), reader.byteOffset ('\x7b' :: tail) = some stop →
    ∃ value rest, tail = value ++ rest ∧ stop = utf8Len ('\x7b' :: value)
  alone : ∀ value rest rest' : List Char,
    reader.byteOffset ('\x7b' :: value ++ rest) = some (utf8Len ('\x7b' :: value)) →
    reader.byteOffset ('\x7b' :: value ++ rest') = some (utf8Len ('\x7b' :: value))

/-! ## The rounds of the loop -/

variable {reader}

theorem scanObjects_done {search : List Char} (h : '\x7b' ∉ search) (rounds : Nat)
    (lastValid : Option T) :
    scanObjects reader (rounds + 1) lastValid search = .returned lastValid := by
  simp only [scanObjects, findChar_eq_none_iff.mpr h]

theorem findChar_front {c : Char} {front : List Char} (h : c ∉ front) (rest : List Char) :
    findChar c (front ++ c :: rest) = some (utf8Len front) := by
  induction front with
  | nil => simp [findChar]
  | cons d front ih =>
      obtain ⟨hd, hfront⟩ := List.ne_and_not_mem_of_not_mem_cons h
      simp [findChar, Ne.symm hd, ih hfront]

/-- A round that reads a value goes on behind it. -/
theorem scanObjects_value {front value rest : List Char} (hfront : '\x7b' ∉ front)
    (h : reader.byteOffset ('\x7b' :: value ++ rest) = some (utf8Len ('\x7b' :: value)))
    (rounds : Nat) (lastValid : Option T) :
    scanObjects reader (rounds + 1) lastValid (front ++ ('\x7b' :: value ++ rest)) =
      scanObjects reader rounds ((reader.fromStr ('\x7b' :: value)).or lastValid) rest := by
  have hfind : findChar '\x7b' (front ++ ('\x7b' :: value ++ rest)) = some (utf8Len front) :=
    findChar_front hfront (value ++ rest)
  simp only [scanObjects, hfind, (slice_append front _).2, h, (slice_append ('\x7b' :: value) _).1,
    (slice_append ('\x7b' :: value) _).2]

/-- A round that reads no value goes on behind the brace. -/
theorem scanObjects_no_value {front tail : List Char} (hfront : '\x7b' ∉ front)
    (h : reader.byteOffset ('\x7b' :: tail) = none) (rounds : Nat) (lastValid : Option T) :
    scanObjects reader (rounds + 1) lastValid (front ++ '\x7b' :: tail) =
      scanObjects reader rounds lastValid tail := by
  have hbrace : sliceFrom 1 ('\x7b' :: tail) = some tail := (slice_append ['\x7b'] tail).2
  simp only [scanObjects, findChar_front hfront, (slice_append front _).2, h, hbrace]

/-! ## The score reader -/

/-- The reader of `ScoreResponse`, with the ends of the values in bytes. -/
def ScoreJson.scoreReader (json : ScoreJson) : JsonReader (ℚ × String) where
  fromStr := json.fromStr
  byteOffset := fun tail => (json.valueLength tail).map fun len => utf8Len (tail.take len)

theorem scanJsonObjects_drop (json : ScoreJson) (skip : Nat) (lastValid : Option (ℚ × String))
    (text : List Char) :
    scanJsonObjects json skip lastValid text =
      scanJsonObjects json 0 lastValid (text.drop skip) := by
  induction text generalizing skip with
  | nil => cases skip <;> simp [scanJsonObjects]
  | cons c rest ih =>
      cases skip with
      | zero => rfl
      | succ skip =>
          simp only [scanJsonObjects, List.drop_succ_cons]
          exact ih skip

theorem scanJsonObjects_front (json : ScoreJson) {front : List Char} (h : '\x7b' ∉ front)
    (lastValid : Option (ℚ × String)) (rest : List Char) :
    scanJsonObjects json 0 lastValid (front ++ rest) = scanJsonObjects json 0 lastValid rest := by
  induction front with
  | nil => rfl
  | cons c front ih =>
      obtain ⟨hc, hfront⟩ := List.ne_and_not_mem_of_not_mem_cons h
      simp only [List.cons_append, scanJsonObjects, Ne.symm hc, ↓reduceIte]
      exact ih hfront

/-- For the score reader the byte loop and the scan by characters agree. -/
theorem scanObjects_score (json : ScoreJson)
    (proper : ∀ tail len, json.valueLength tail = some len → 0 < len ∧ len ≤ tail.length)
    (rounds : Nat) (lastValid : Option (ℚ × String)) (text : List Char)
    (enough : text.length < rounds) :
    scanObjects json.scoreReader rounds lastValid text =
      .returned (scanJsonObjects json 0 lastValid text) := by
  induction rounds generalizing lastValid text with
  | zero => omega
  | succ rounds ih =>
      cases hfind : findChar '\x7b' text with
      | none =>
          have hnone := findChar_eq_none_iff.mp hfind
          have hscan := scanJsonObjects_front json hnone lastValid []
          rw [List.append_nil] at hscan
          rw [scanObjects_done hnone, hscan]
          simp only [scanJsonObjects]
      | some rel =>
          obtain ⟨front, tail, rfl, hfront, _⟩ := findChar_eq_some hfind
          rw [scanJsonObjects_front json hfront]
          have hlength : tail.length < rounds := by
            simp only [List.length_append, List.length_cons] at enough
            omega
          cases hvalue : json.valueLength ('\x7b' :: tail) with
          | none =>
              have hread : json.scoreReader.byteOffset ('\x7b' :: tail) = none := by
                simp only [ScoreJson.scoreReader, hvalue, Option.map_none]
              rw [scanObjects_no_value hfront hread, ih lastValid tail hlength]
              simp only [scanJsonObjects, ↓reduceIte, hvalue]
          | some len =>
              obtain ⟨hpos, hle⟩ := proper _ _ hvalue
              obtain ⟨n, rfl⟩ : ∃ n, len = n + 1 := Nat.exists_eq_succ_of_ne_zero (by omega)
              have hread : json.scoreReader.byteOffset ('\x7b' :: tail.take n ++ tail.drop n) =
                  some (utf8Len ('\x7b' :: tail.take n)) := by
                rw [List.cons_append, List.take_append_drop]
                simp only [ScoreJson.scoreReader, hvalue, Option.map_some, List.take_succ_cons]
              have hround := scanObjects_value hfront hread rounds lastValid
              rw [List.cons_append, List.take_append_drop] at hround
              have hrest : (tail.drop n).length < rounds := by
                rw [List.length_drop]
                omega
              rw [hround, ih _ _ hrest]
              simp only [scanJsonObjects, ↓reduceIte, hvalue, Nat.add_sub_cancel,
                List.take_succ_cons]
              rw [scanJsonObjects_drop json n]
              rfl

theorem extractJsonObject_score (json : ScoreJson)
    (proper : ∀ tail len, json.valueLength tail = some len → 0 < len ∧ len ≤ tail.length)
    (text : List Char) :
    json.scoreReader.extractJsonObject (text.length + 1) text =
      .returned (extractJsonObject json text) := by
  unfold JsonReader.extractJsonObject extractJsonObject
  rw [scanObjects_score json proper _ _ _ (by omega)]
  have hread : json.scoreReader.fromStr = json.fromStr := rfl
  rw [hread]
  cases json.fromStr (trim text) with
  | some value => rfl
  | none => rfl

end ControlPlane.Source.Verification
