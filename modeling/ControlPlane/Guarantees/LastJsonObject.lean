import ControlPlane.Source.Verification.JsonExtraction

/-!
# Extraction finds the last answer

A model's answer may hold several JSON objects, and the last one that reads as the
wanted type is the conclusion. Objects are counted from the left: one that begins inside
an earlier object is a part of it. The extraction returns at once when the whole trimmed
text reads as the wanted type. For an object that is the same answer, for any other JSON
value it is not an object of the text.
-/
namespace ControlPlane.Guarantees.LastJsonObject

open Source.Text Source.Verification

variable {T : Type} (reader : JsonReader T)

/-! ## Statement -/

/-- The JSON object that starts at the `k`-th character. -/
def objectAt (text : List Char) (k : Nat) : Option (List Char) :=
  match text.drop k with
  | '\x7b' :: tail =>
      (reader.byteOffset ('\x7b' :: tail)).bind fun stop => sliceTo stop ('\x7b' :: tail)
  | _ => none

/-- An object starts at `k`, behind the end of every outermost one that starts earlier. -/
def Outermost (text : List Char) (k : Nat) : Prop :=
  (∃ object, objectAt reader text k = some object) ∧
    ∀ j (_ : j < k), Outermost text j → ∀ object, objectAt reader text j = some object →
      j + object.length ≤ k
termination_by k

/-- The outermost object at `k` decodes to `v`. -/
def AnswerAt (text : List Char) (k : Nat) (v : T) : Prop :=
  Outermost reader text k ∧ ∃ object, objectAt reader text k = some object ∧
    reader.fromStr object = some v

/-- The value at the last position where an outermost object decodes, none if there is no
such position. -/
def LastAnswer (text : List Char) : Option T → Prop
  | none => ∀ k v, ¬AnswerAt reader text k v
  | some v => ∃ k, AnswerAt reader text k v ∧ ∀ j w, k < j → ¬AnswerAt reader text j w

/-- The text is one JSON object. -/
def IsObject (text : List Char) : Prop :=
  ∃ tail, text = '\x7b' :: tail ∧ reader.byteOffset text = some (utf8Len text)

/-- The trimmed text decodes as a whole, and is not an object. -/
def OtherJson (text : List Char) : Prop :=
  reader.fromStr (trim text) ≠ none ∧ ¬IsObject reader (trim text)

/-! ## Objects and positions -/

section Positions

variable {reader} {text : List Char}

theorem objectAt_append (front tail : List Char) :
    objectAt reader (front ++ '\x7b' :: tail) front.length =
      (reader.byteOffset ('\x7b' :: tail)).bind fun stop => sliceTo stop ('\x7b' :: tail) := by
  simp only [objectAt, List.drop_left]

theorem brace_of_objectAt {k : Nat} {object : List Char}
    (h : objectAt reader text k = some object) : text[k]? = some '\x7b' := by
  unfold objectAt at h
  split at h
  next tail hdrop =>
    have hhead := congrArg (fun l => l[0]?) hdrop
    simpa using hhead
  · cases h

theorem no_object_in {front : List Char} (hfront : '\x7b' ∉ front) (before after : List Char)
    {k : Nat} (hlow : before.length ≤ k) (hhigh : k < before.length + front.length)
    (object : List Char) : objectAt reader (before ++ front ++ after) k ≠ some object := by
  intro h
  have hbrace := brace_of_objectAt h
  rw [List.append_assoc, List.getElem?_append_right hlow,
    List.getElem?_append_left (by omega)] at hbrace
  exact hfront (List.mem_of_getElem? hbrace)

/-- Where an object is read, it stands. -/
theorem objectAt_value {front value rest : List Char}
    (h : reader.byteOffset ('\x7b' :: value ++ rest) = some (utf8Len ('\x7b' :: value))) :
    objectAt reader (front ++ ('\x7b' :: value ++ rest)) front.length =
      some ('\x7b' :: value) := by
  have hobject := @objectAt_append T reader front (value ++ rest)
  rw [← List.cons_append, h] at hobject
  rw [hobject, Option.bind_some]
  exact (slice_append ('\x7b' :: value) rest).1

theorem Outermost.object {k : Nat} (h : Outermost reader text k) :
    ∃ object, objectAt reader text k = some object := by
  rw [Outermost] at h
  exact h.1

theorem Outermost.behind {j k : Nat} {object : List Char} (h : Outermost reader text k)
    (earlier : Outermost reader text j) (hobject : objectAt reader text j = some object)
    (hlt : j < k) : j + object.length ≤ k := by
  rw [Outermost] at h
  exact h.2 j hlt earlier object hobject

theorem AnswerAt.unique {k : Nat} {v w : T} (h : AnswerAt reader text k v)
    (h' : AnswerAt reader text k w) : v = w := by
  obtain ⟨_, object, hobject, hv⟩ := h
  obtain ⟨_, object', hobject', hw⟩ := h'
  rw [hobject, Option.some.injEq] at hobject'
  subst hobject'
  rw [hv, Option.some.injEq] at hw
  exact hw

theorem LastAnswer.unique {result result' : Option T} (h : LastAnswer reader text result)
    (h' : LastAnswer reader text result') : result = result' := by
  cases result with
  | none =>
      cases result' with
      | none => rfl
      | some w =>
          obtain ⟨k, hk, _⟩ := h'
          exact absurd hk (h k w)
  | some v =>
      obtain ⟨k, hk, hlast⟩ := h
      cases result' with
      | none => exact absurd hk (h' k v)
      | some w =>
          obtain ⟨k', hk', hlast'⟩ := h'
          rcases Nat.lt_trichotomy k k' with hlt | rfl | hlt
          · exact absurd hk' (hlast k' w hlt)
          · rw [hk.unique hk']
          · exact absurd hk (hlast' k v hlt)

end Positions

/-! ## What has been read so far -/

section Scanning

variable (text : List Char)

/-- The last answer among the positions below `n`. -/
def LastBelow (n : Nat) : Option T → Prop
  | none => ∀ k v, k < n → ¬AnswerAt reader text k v
  | some v => ∃ k < n, AnswerAt reader text k v ∧ ∀ j w, k < j → j < n → ¬AnswerAt reader text j w

/-- The first `n` characters are read: no outermost object that starts there goes on
behind them, and `lastValid` is the last answer among them. -/
structure Scanned (n : Nat) (lastValid : Option T) : Prop where
  closed : ∀ k object, k < n → Outermost reader text k → objectAt reader text k = some object →
    k + object.length ≤ n
  last : LastBelow reader text n lastValid

variable {reader text}

theorem scanned_start : Scanned reader text 0 none :=
  ⟨fun _ _ hk => absurd hk (Nat.not_lt_zero _), fun _ _ hk => absurd hk (Nat.not_lt_zero _)⟩

/-- Positions without an outermost object change nothing. -/
theorem Scanned.skip {n m : Nat} {lastValid : Option T} (h : Scanned reader text n lastValid)
    (hle : n ≤ m) (none : ∀ k, n ≤ k → k < m → ¬Outermost reader text k) :
    Scanned reader text m lastValid := by
  have hbelow : ∀ k, k < m → Outermost reader text k → k < n := by
    intro k hk houter
    by_contra hnot
    exact none k (not_lt.mp hnot) hk houter
  refine ⟨fun k object hk houter hobject => ?_, ?_⟩
  · have := h.closed k object (hbelow k hk houter) houter hobject
    omega
  · cases lastValid with
    | none => exact fun k v hk answer => h.last k v (hbelow k hk answer.1) answer
    | some v =>
        obtain ⟨k, hk, hanswer, hlast⟩ := h.last
        exact ⟨k, by omega, hanswer, fun j w hkj hj answer =>
          hlast j w hkj (hbelow j hj answer.1) answer⟩

/-- An object at the frontier is outermost, and none starts inside it. -/
theorem Scanned.meet {n : Nat} {lastValid : Option T} {object : List Char}
    (h : Scanned reader text n lastValid) (hobject : objectAt reader text n = some object)
    (hpos : 0 < object.length) :
    Scanned reader text (n + object.length) ((reader.fromStr object).or lastValid) := by
  have houter : Outermost reader text n := by
    rw [Outermost]
    exact ⟨⟨object, hobject⟩, fun j hj hearlier other hother =>
      h.closed j other hj hearlier hother⟩
  have hinside : ∀ k, n + 1 ≤ k → k < n + object.length → ¬Outermost reader text k := by
    intro k hk hlt hin
    have := hin.behind houter hobject (by omega)
    omega
  refine ⟨fun k other hk hk' hother => ?_, ?_⟩
  · rcases Nat.lt_trichotomy k n with hlt | rfl | hlt
    · have := h.closed k other hlt hk' hother
      omega
    · rw [hobject, Option.some.injEq] at hother
      rw [hother]
    · exact absurd hk' (hinside k hlt hk)
  · cases hvalue : reader.fromStr object with
    | some v =>
        refine ⟨n, by omega, ⟨houter, object, hobject, hvalue⟩, ?_⟩
        intro j w hnj hj answer
        exact hinside j hnj hj answer.1
    | none =>
        have hrest : ∀ k v, n ≤ k → k < n + object.length → ¬AnswerAt reader text k v := by
          intro k v hle hlt answer
          rcases Nat.eq_or_lt_of_le hle with rfl | hgt
          · obtain ⟨_, other, hother, hv⟩ := answer
            rw [hobject, Option.some.injEq] at hother
            subst hother
            rw [hvalue] at hv
            cases hv
          · exact hinside k hgt hlt answer.1
        rw [Option.none_or]
        cases lastValid with
        | none =>
            intro k v hk answer
            by_cases hlt : k < n
            · exact h.last k v hlt answer
            · exact hrest k v (not_lt.mp hlt) hk answer
        | some v =>
            obtain ⟨k, hk, hanswer, hlast⟩ := h.last
            refine ⟨k, by omega, hanswer, fun j w hkj hj answer => ?_⟩
            by_cases hlt : j < n
            · exact hlast j w hkj hlt answer
            · exact hrest j w (not_lt.mp hlt) hj answer

theorem Scanned.finish {lastValid : Option T} {n : Nat} (h : Scanned reader text n lastValid)
    (none : ∀ k, n ≤ k → ¬Outermost reader text k) : LastAnswer reader text lastValid := by
  have hbelow : ∀ k v, AnswerAt reader text k v → k < n := by
    intro k v answer
    by_contra hnot
    exact none k (not_lt.mp hnot) answer.1
  cases lastValid with
  | none => exact fun k v answer => h.last k v (hbelow k v answer) answer
  | some v =>
      obtain ⟨k, _, hanswer, hlast⟩ := h.last
      exact ⟨k, hanswer, fun j w hkj answer => hlast j w hkj (hbelow j w answer) answer⟩

end Scanning

/-! ## The run of the loop -/

section Run

variable {reader} {text : List Char}

/-- A stretch without braces changes nothing. -/
theorem Scanned.front {done front after : List Char} {lastValid : Option T}
    (hsplit : text = done ++ front ++ after) (hfront : '\x7b' ∉ front)
    (h : Scanned reader text done.length lastValid) :
    Scanned reader text (done ++ front).length lastValid := by
  refine h.skip (by simp) fun k hlow hhigh houter => ?_
  obtain ⟨object, hobject⟩ := houter.object
  rw [hsplit] at hobject
  rw [List.length_append] at hhigh
  exact no_object_in hfront done after hlow hhigh object hobject

/-- Nor does a brace at which no value is read. -/
theorem Scanned.unread {done tail : List Char} {lastValid : Option T}
    (hplace : text = done ++ '\x7b' :: tail) (hread : reader.byteOffset ('\x7b' :: tail) = none)
    (h : Scanned reader text done.length lastValid) :
    Scanned reader text (done ++ ['\x7b']).length lastValid := by
  have hobject : objectAt reader text done.length = none := by
    rw [hplace, objectAt_append, hread, Option.bind_none]
  refine h.skip (by simp) fun k hlow hhigh houter => ?_
  obtain ⟨object, hsome⟩ := houter.object
  have hk : k = done.length := by
    rw [List.length_append, List.length_singleton] at hhigh
    omega
  rw [hk, hobject] at hsome
  cases hsome

theorem Scanned.noBrace {done search : List Char} {lastValid : Option T}
    (hsplit : text = done ++ search) (hnone : '\x7b' ∉ search)
    (h : Scanned reader text done.length lastValid) : LastAnswer reader text lastValid := by
  refine h.finish fun k hk houter => ?_
  obtain ⟨object, hobject⟩ := houter.object
  have hbrace := brace_of_objectAt hobject
  rw [hsplit, List.getElem?_append_right hk] at hbrace
  exact hnone (List.mem_of_getElem? hbrace)

/-- From a frontier on, the loop returns the last answer of the text. Each round leaves
fewer characters to search. -/
theorem scanObjects_run (serde : ReadsOneValue reader) {done search : List Char}
    {lastValid : Option T} (hsplit : text = done ++ search)
    (h : Scanned reader text done.length lastValid) :
    ∃ result, (∀ rounds, search.length < rounds →
        scanObjects reader rounds lastValid search = .returned result) ∧
      LastAnswer reader text result := by
  induction hsize : search.length using Nat.strong_induction_on generalizing done search lastValid
  next size ih =>
  have hround : ∀ rounds, size < rounds → ∃ rounds', rounds = rounds' + 1 ∧ size ≤ rounds' :=
    fun rounds hlt => ⟨rounds - 1, by omega, by omega⟩
  cases hfind : findChar '\x7b' search with
  | none =>
      have hnone := findChar_eq_none_iff.mp hfind
      refine ⟨lastValid, fun rounds hlt => ?_, h.noBrace hsplit hnone⟩
      obtain ⟨rounds', rfl, _⟩ := hround rounds hlt
      exact scanObjects_done hnone rounds' lastValid
  | some rel =>
      obtain ⟨front, tail, rfl, hfront, _⟩ := findChar_eq_some hfind
      rw [List.length_append, List.length_cons] at hsize
      have hplace : text = (done ++ front) ++ '\x7b' :: tail := by
        rw [hsplit, List.append_assoc]
      have hskip := h.front hplace hfront
      cases hread : reader.byteOffset ('\x7b' :: tail) with
      | none =>
          obtain ⟨result, hrun, hanswer⟩ :=
            ih tail.length (by omega) (by simp [hplace]) (hskip.unread hplace hread) rfl
          refine ⟨result, fun rounds hlt => ?_, hanswer⟩
          obtain ⟨rounds', rfl, hle⟩ := hround rounds hlt
          rw [scanObjects_no_value hfront hread]
          exact hrun rounds' (by omega)
      | some stop =>
          obtain ⟨value, rest, rfl, rfl⟩ := serde.ends tail stop hread
          have hobject : objectAt reader text (done ++ front).length = some ('\x7b' :: value) := by
            rw [hplace]
            exact objectAt_value hread
          have hnext := hskip.meet hobject (by simp)
          rw [← List.length_append] at hnext
          rw [List.length_append] at hsize
          obtain ⟨result, hrun, hanswer⟩ :=
            ih rest.length (by omega) (by simp [hplace]) hnext rfl
          refine ⟨result, fun rounds hlt => ?_, hanswer⟩
          obtain ⟨rounds', rfl, hle⟩ := hround rounds hlt
          have hstep := scanObjects_value hfront hread rounds' lastValid
          rw [List.cons_append] at hstep
          rw [hstep]
          exact hrun rounds' (by omega)

/-- An object between two texts without braces is the last answer. -/
theorem lastAnswer_of_prose (serde : ReadsOneValue reader) {p j q : List Char} {v : T}
    (hp : '\x7b' ∉ p) (hq : '\x7b' ∉ q) (object : IsObject reader j)
    (decodes : reader.fromStr j = some v) : LastAnswer reader (p ++ j ++ q) (some v) := by
  obtain ⟨value, rfl, hread⟩ := object
  have hcontext : reader.byteOffset ('\x7b' :: value ++ q) = some (utf8Len ('\x7b' :: value)) := by
    apply serde.alone value [] q
    rw [List.append_nil]
    exact hread
  have hobject : objectAt reader (p ++ '\x7b' :: value ++ q) p.length = some ('\x7b' :: value) := by
    rw [List.append_assoc]
    exact objectAt_value hcontext
  have hstart : Scanned reader (p ++ '\x7b' :: value ++ q) ([] : List Char).length none :=
    scanned_start
  have hfirst := hstart.front (List.append_assoc p _ q) hp
  have hscanned := hfirst.meet hobject (by simp)
  rw [decodes, Option.some_or, ← List.length_append] at hscanned
  exact hscanned.noBrace rfl hq

end Run

/-! ## The guarantee -/

/-- For every target type, every text and every reader that consumes one value at a time:
the extraction returns, whatever the number of rounds beyond the length of the text, and
no slice panics. Where the trimmed text as a whole is another JSON value that decodes,
the result is that value. Everywhere else it is the last answer of the text, and an
object between two texts without braces is found. -/
theorem extractJsonObject_last {reader : JsonReader T} (serde : ReadsOneValue reader)
    (text : List Char) :
    ∃ result, (∀ rounds, text.length < rounds →
        reader.extractJsonObject rounds text = .returned result) ∧
      (OtherJson reader text → result = reader.fromStr (trim text)) ∧
      (¬OtherJson reader text → LastAnswer reader text result ∧
        ∀ p j q v, text = p ++ j ++ q → '\x7b' ∉ p → '\x7b' ∉ q → IsObject reader j →
          reader.fromStr j = some v → result = some v) := by
  have hstart : Scanned reader text ([] : List Char).length none := scanned_start
  obtain ⟨scanned, hrun, hscanned⟩ := scanObjects_run serde (List.nil_append text).symm hstart
  cases hwhole : reader.fromStr (trim text) with
  | none =>
      have hother : ¬OtherJson reader text := fun h => h.1 hwhole
      refine ⟨scanned, fun rounds hlt => ?_, fun h => absurd h hother, fun _ => ⟨hscanned, ?_⟩⟩
      · simp only [JsonReader.extractJsonObject, hwhole]
        exact hrun rounds hlt
      · intro p j q v hsplit hp hq hj hv
        rw [hsplit] at hscanned
        exact hscanned.unique (lastAnswer_of_prose serde hp hq hj hv)
  | some value =>
      refine ⟨some value, fun rounds _ => ?_, fun _ => rfl, fun hother => ?_⟩
      · simp only [JsonReader.extractJsonObject, hwhole]
      have hobject : IsObject reader (trim text) := by
        by_contra hnot
        exact hother ⟨by simp [hwhole], hnot⟩
      have hspace : ∀ {part : List Char}, (∀ c ∈ part, isWhitespace c = true) →
          '\x7b' ∉ part := by
        intro part hpart hmem
        exact absurd (hpart _ hmem) (by decide)
      obtain ⟨front, back, hsplit, hfront, hback⟩ := trim_split text
      have hlast : LastAnswer reader text (some value) := by
        rw [hsplit]
        exact lastAnswer_of_prose serde (hspace hfront) (hspace hback) hobject hwhole
      refine ⟨hlast, ?_⟩
      intro p j q v hparts hp hq hj hv
      rw [hparts] at hlast
      exact hlast.unique (lastAnswer_of_prose serde hp hq hj hv)

/-! ## An answer in prose, and an object in an array -/

section Example

/-- A reader for texts in which `object` is the only JSON object. -/
def sampleReader (decode : List Char → Option T) (object : List Char) : JsonReader T where
  fromStr := decode
  byteOffset := fun tail => if object <+: tail then some (utf8Len object) else none

/-- Two pieces at the front of one text with the same byte length are the same. -/
theorem eq_of_utf8Len_eq {a b text : List Char} (ha : a <+: text) (hb : b <+: text)
    (same : utf8Len a = utf8Len b) : a = b := by
  have hclosed : ∀ {c d : List Char}, c <+: d → utf8Len c = utf8Len d → c = d := by
    intro c d hbegins heq
    obtain ⟨rest, rfl⟩ := hbegins
    rw [utf8Len_append] at heq
    by_contra hne
    have hrest : rest ≠ [] := fun h => hne (by simp [h])
    have := utf8Len_pos hrest
    omega
  rcases List.prefix_or_prefix_of_prefix ha hb with h | h
  · exact hclosed h same
  · exact (hclosed h same.symm).symm

theorem sampleReader_readsOneValue (decode : List Char → Option T) (value : List Char) :
    ReadsOneValue (sampleReader decode ('\x7b' :: value)) where
  ends := by
    intro tail stop h
    simp only [sampleReader, Option.ite_none_right_eq_some, Option.some.injEq] at h
    obtain ⟨⟨rest, hrest⟩, rfl⟩ := h
    exact ⟨value, rest, by simpa using hrest.symm, rfl⟩
  alone := by
    intro other rest rest' h
    simp only [sampleReader, Option.ite_none_right_eq_some, Option.some.injEq] at h ⊢
    obtain ⟨hbegins, hlen⟩ := h
    have heq := eq_of_utf8Len_eq hbegins (List.prefix_append ('\x7b' :: other) rest) hlen
    rw [heq]
    exact ⟨List.prefix_append _ _, rfl⟩

def sampleAnswer : List Char := "\x7b\"score\": 0.9, \"reason\": \"fine\"\x7d".toList

def sampleScore (text : List Char) : Option (ℚ × String) :=
  if text = sampleAnswer then some (9 / 10, "fine") else none

/-- A judge that reasons before and after its answer. -/
theorem answer_in_prose :
    (sampleReader sampleScore sampleAnswer).extractJsonObject 60
        ("so: ".toList ++ sampleAnswer ++ " – done".toList) =
      .returned (some (9 / 10, "fine")) := by
  have serde : ReadsOneValue (sampleReader sampleScore sampleAnswer) :=
    sampleReader_readsOneValue sampleScore sampleAnswer.tail
  obtain ⟨result, hrun, _, hprose⟩ :=
    extractJsonObject_last serde ("so: ".toList ++ sampleAnswer ++ " – done".toList)
  have hother : ¬OtherJson (sampleReader sampleScore sampleAnswer)
      ("so: ".toList ++ sampleAnswer ++ " – done".toList) := fun h => h.1 (by decide +kernel)
  have hresult := (hprose hother).2 _ _ _ (9 / 10, "fine") rfl (by decide) (by decide)
    ⟨sampleAnswer.tail, by decide, by decide +kernel⟩ (by decide +kernel)
  rw [hrun 60 (by decide), hresult]

def innerObject : List Char := "\x7b\"a\": 1\x7d".toList

def outerArray : List Char := '[' :: innerObject ++ [']']

/-- `serde_json::Value` on the texts of the example, each value standing for itself. -/
def valueReader : JsonReader (List Char) :=
  sampleReader (fun text => if text = outerArray ∨ text = innerObject then some text else none)
    innerObject

/-- A `Value` is asked for and the text is an array around the only object. The brackets
are prose without braces, the object decodes, and the array is returned. -/
theorem array_around_the_object :
    outerArray = ['['] ++ innerObject ++ [']'] ∧
      valueReader.fromStr innerObject = some innerObject ∧
      valueReader.extractJsonObject 20 outerArray = .returned (some outerArray) ∧
      LastAnswer valueReader outerArray (some innerObject) ∧
      ¬LastAnswer valueReader outerArray (some outerArray) := by
  have serde : ReadsOneValue valueReader := sampleReader_readsOneValue _ innerObject.tail
  have hlast : LastAnswer valueReader (['['] ++ innerObject ++ [']']) (some innerObject) :=
    lastAnswer_of_prose serde (by decide) (by decide)
      ⟨innerObject.tail, by decide, by decide +kernel⟩ (by decide +kernel)
  refine ⟨rfl, by decide +kernel, by decide +kernel, hlast, ?_⟩
  intro h
  have hsame := hlast.unique h
  rw [Option.some.injEq] at hsame
  exact absurd hsame (by decide)

end Example

end ControlPlane.Guarantees.LastJsonObject
