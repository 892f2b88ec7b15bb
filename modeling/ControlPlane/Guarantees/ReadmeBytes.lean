import ControlPlane.Lib.Base64
import ControlPlane.Source.Agent.ReadmePage

/-!
# The bytes of a README

GitHub sends a README in base64, and the agent reads it with a decoder of its own. The decoder
knows no padding: `=` has no value in its table, so that the padded group at the end is passed
over, and its last one or two bytes are lost. It also writes whole groups only: a buffer of less
than three bytes is answered with nothing, which ends the reading.
-/
namespace ControlPlane.Guarantees.ReadmeBytes

open ControlPlane.Lib.Base64 ControlPlane.Source.Agent

/-! ## Statement -/

/-- The groups of three bytes for which `reads` buffers have room, from the `i`-th on and up to
the first that is too short for one. -/
def room (lens : Nat → Nat) : Nat → Nat → Nat
  | _, 0 => 0
  | i, reads + 1 => if lens i < 3 then 0 else lens i / 3 + room lens (i + 1) reads

/-- What becomes of the bytes of a README that is sent encoded, with line breaks anywhere. -/
structure Decodes (lens : Nat → Nat) (bytes content : List UInt8) : Prop where
  /-- The whole groups arrive, as far as there is room for them. -/
  delivered : readmeBytes lens content =
    (whole bytes).take (3 * room lens 0 ((encode bytes).length + 1))
  /-- More reads would give nothing more. -/
  ended : ∀ more, (base64Decoder (encode bytes)).readToEnd lens 0
    ((encode bytes).length + 1 + more) = readmeBytes lens content
  /-- All of the bytes arrive if they are whole groups, and there is room for all. -/
  complete_iff : readmeBytes lens content = bytes ↔
    bytes.length % 3 = 0 ∧ bytes.length ≤ 3 * room lens 0 ((encode bytes).length + 1)
  /-- With no short buffer the whole groups arrive, and the page is made of them. -/
  page : (∀ i, 3 ≤ lens i) → ∀ fromUtf8Lossy maxPageChars,
    fetchGithubReadme fromUtf8Lossy lens maxPageChars (some content) =
      some (readmePage maxPageChars (fromUtf8Lossy (whole bytes)))
  /-- A short buffer ends the reading: nothing arrives but what fits into the buffers before. -/
  short : ∀ k, lens k < 3 →
    (readmeBytes lens content).length ≤ ((List.range k).map lens).sum

/-! ## Letters and their values -/

theorem toNat_value {n : Nat} (h : n < 64) : (UInt8.ofNat n).toNat = n :=
  UInt8.toNat_ofNat_of_lt' (by simp only [UInt8.size]; omega)

theorem base64Value_letter {n : Nat} (h : n < 64) : base64Value (letter n) = UInt8.ofNat n := by
  revert n
  decide +kernel

theorem base64Value_padding : base64Value padding = 0x40 := by decide

/-- The value of a letter is no error. -/
theorem base64Value_letter_ne {n : Nat} (h : n < 64) : base64Value (letter n) ≠ 0x40 := by
  rw [base64Value_letter h]
  intro herror
  have hnat := congrArg UInt8.toNat herror
  have herrorNat : (0x40 : UInt8).toNat = 64 := rfl
  rw [toNat_value h] at hnat
  omega

/-- The letters of three bytes all have values. -/
theorem valid_sextets (a b c : UInt8) : 0x40 ∉ ((sextets a b c).map letter).map base64Value := by
  intro herror
  obtain ⟨l, hl, hvalue⟩ := List.mem_map.mp herror
  obtain ⟨n, hn, rfl⟩ := List.mem_map.mp hl
  exact base64Value_letter_ne (sextets_lt a b c n hn) hvalue

/-- A letter is not the character the reader stops at. -/
theorem letter_ne_equals {n : Nat} (h : n < 64) : letter n ≠ 0x3d := letter_ne_padding h

/-- Two values side by side in a byte: of the upper one the lower bits are kept. -/
theorem toNat_join {high low k : UInt8} (hk : k.toNat < 8) (hlow : low.toNat < 2 ^ k.toNat) :
    ((high <<< k) ||| low).toNat = high.toNat % 2 ^ (8 - k.toNat) * 2 ^ k.toNat + low.toNat := by
  have hsplit : 2 ^ 8 = 2 ^ (8 - k.toNat) * 2 ^ k.toNat := by
    rw [← Nat.pow_add, Nat.sub_add_cancel hk.le]
  rw [UInt8.toNat_or, UInt8.toNat_shiftLeft, Nat.mod_eq_of_lt hk, Nat.shiftLeft_eq, hsplit,
    Nat.mul_mod_mul_right, bits_or hlow]

/-- The upper bits of a value, moved down. -/
theorem toNat_upper {v k : UInt8} (hk : k.toNat < 8) : (v >>> k).toNat = v.toNat / 2 ^ k.toNat := by
  rw [UInt8.toNat_shiftRight, Nat.mod_eq_of_lt hk, Nat.shiftRight_eq_div_pow]

/-- The bytes of a chunk without padding are the three bytes it stands for. -/
theorem chunkBytes_sextets (a b c : UInt8) {c2 c3 : UInt8} (h2 : c2 ≠ 0x3d) (h3 : c3 ≠ 0x3d) :
    chunkBytes c2 c3 (UInt8.ofNat (a.toNat / 4)) (UInt8.ofNat (a.toNat % 4 * 16 + b.toNat / 16))
      (UInt8.ofNat (b.toNat % 16 * 4 + c.toNat / 64)) (UInt8.ofNat (c.toNat % 64)) = [a, b, c] := by
  have ha := a.toNat_lt
  have hb := b.toNat_lt
  have hc := c.toNat_lt
  have hv0 := toNat_value (n := a.toNat / 4) (by omega)
  have hv1 := toNat_value (n := a.toNat % 4 * 16 + b.toNat / 16) (by omega)
  have hv2 := toNat_value (n := b.toNat % 16 * 4 + c.toNat / 64) (by omega)
  have hv3 := toNat_value (n := c.toNat % 64) (by omega)
  have two : (2 : UInt8).toNat = 2 := rfl
  have four : (4 : UInt8).toNat = 4 := rfl
  have six : (6 : UInt8).toNat = 6 := rfl
  rw [chunkBytes, if_pos h2, if_pos h3]
  simp only [List.cons_append, List.nil_append, List.cons.injEq, and_true]
  refine ⟨UInt8.toNat_inj.mp ?_, UInt8.toNat_inj.mp ?_, UInt8.toNat_inj.mp ?_⟩
  · have hlow := toNat_upper (v := UInt8.ofNat (a.toNat % 4 * 16 + b.toNat / 16)) (k := 4)
      (by decide)
    rw [hv1, four] at hlow
    rw [toNat_join (by decide) (by rw [hlow, two]; omega), hv0, hlow, two]
    omega
  · have hlow := toNat_upper (v := UInt8.ofNat (b.toNat % 16 * 4 + c.toNat / 64)) (k := 2)
      (by decide)
    rw [hv2, two] at hlow
    rw [toNat_join (by decide) (by rw [hlow, four]; omega), hv1, hlow, four]
    omega
  · rw [toNat_join (by decide) (by rw [hv3, six]; omega), hv2, hv3, six]
    omega

/-! ## One read -/

/-- A chunk of letters is written as its three bytes. -/
theorem readLoop_chunk (outLen : Nat) (a b c : UInt8) (text : List UInt8) (pos : Nat)
    {written : List UInt8} (hroom : written.length + 3 ≤ outLen) :
    B64Reader.readLoop outLen ((sextets a b c).map letter ++ text) pos written =
      B64Reader.readLoop outLen text (pos + 4) (written ++ [a, b, c]) := by
  have hnone := valid_sextets a b c
  have hlt := sextets_lt a b c
  simp only [sextets, List.mem_cons, List.not_mem_nil, or_false, forall_eq_or_imp,
    forall_eq] at hlt
  obtain ⟨h0, h1, h2, h3⟩ := hlt
  simp only [sextets, List.map_cons, List.map_nil] at hnone
  simp only [sextets, List.map_cons, List.map_nil, List.cons_append, List.nil_append,
    B64Reader.readLoop]
  rw [if_pos hroom, if_neg (letter_ne_equals h0), if_neg hnone, base64Value_letter h0,
    base64Value_letter h1, base64Value_letter h2, base64Value_letter h3,
    chunkBytes_sextets a b c (letter_ne_equals h2) (letter_ne_equals h3)]

/-- A padded chunk is passed over. -/
theorem readLoop_padded (outLen : Nat) {n : Nat} (h : n < 64) (c1 c2 : UInt8) (pos : Nat)
    {written : List UInt8} (hroom : written.length + 3 ≤ outLen) :
    B64Reader.readLoop outLen [letter n, c1, c2, padding] pos written = (written, pos + 4) := by
  have herror : 0x40 ∈ [letter n, c1, c2, padding].map base64Value :=
    List.mem_map.mpr ⟨padding, by simp, base64Value_padding⟩
  rw [B64Reader.readLoop, if_pos hroom, if_neg (letter_ne_equals h), if_pos herror]
  rfl

/-- A full buffer takes nothing. -/
theorem readLoop_full {outLen : Nat} (text : List UInt8) (pos : Nat) {written : List UInt8}
    (hfull : ¬ written.length + 3 ≤ outLen) :
    B64Reader.readLoop outLen text pos written = (written, pos) := by
  rw [B64Reader.readLoop.eq_def]
  split
  next => exact if_neg hfull
  next => rfl

/-- What the loop does with an encoded text: it writes the groups for which the buffer has
room, and what is left is again an encoded text, with the groups that are left. -/
def LoopReads (outLen : Nat) (bytes : List UInt8) (pos : Nat) (written : List UInt8) : Prop :=
  ∃ taken rest, B64Reader.readLoop outLen (encode bytes) pos written =
      (written ++ (whole bytes).take (3 * ((outLen - written.length) / 3)), pos + taken) ∧
    (encode bytes).drop taken = encode rest ∧
    whole rest = (whole bytes).drop (3 * ((outLen - written.length) / 3))

theorem loopReads_full {outLen : Nat} (bytes : List UInt8) (pos : Nat) {written : List UInt8}
    (hfull : ¬ written.length + 3 ≤ outLen) : LoopReads outLen bytes pos written := by
  have hnone : (outLen - written.length) / 3 = 0 := by omega
  refine ⟨0, bytes, ?_, rfl, ?_⟩
  · rw [readLoop_full _ _ hfull, hnone]
    simp
  · rw [hnone]
    rfl

/-- The padded group is taken, and nothing of it is written. -/
theorem loopReads_padded {outLen n : Nat} (h : n < 64) (c1 c2 : UInt8) {bytes : List UInt8}
    (hencode : encode bytes = [letter n, c1, c2, padding]) (hshort : bytes.length < 3) (pos : Nat)
    {written : List UInt8} (hroom : written.length + 3 ≤ outLen) :
    LoopReads outLen bytes pos written := by
  refine ⟨4, [], ?_, ?_, ?_⟩
  · rw [hencode, readLoop_padded outLen h c1 c2 pos hroom, whole_short hshort]
    simp
  · rw [hencode]
    rfl
  · rw [whole_short hshort]
    simp [whole]

theorem loopReads (outLen : Nat) (bytes : List UInt8) (pos : Nat) (written : List UInt8) :
    LoopReads outLen bytes pos written := by
  induction bytes using encode.induct generalizing pos written with
  | case1 a b c bytes ih =>
      by_cases hroom : written.length + 3 ≤ outLen
      case neg => exact loopReads_full _ _ hroom
      obtain ⟨taken, rest, hloop, hdrop, hrest⟩ := ih (pos + 4) (written ++ [a, b, c])
      have hgroups : (outLen - written.length) / 3 =
          (outLen - (written ++ [a, b, c]).length) / 3 + 1 := by
        simp only [List.length_cons, List.length_append, List.length_nil]
        omega
      refine ⟨4 + taken, rest, ?_, ?_, ?_⟩
      · rw [encode, readLoop_chunk outLen a b c _ pos hroom, hloop, hgroups, whole_cons]
        simp [Nat.mul_add, Nat.add_assoc]
      · rw [encode, ← List.drop_drop, List.drop_left' (by simp [sextets])]
        exact hdrop
      · rw [hrest, hgroups, whole_cons, Nat.mul_add]
        rfl
  | case2 a b =>
      by_cases hroom : written.length + 3 ≤ outLen
      case neg => exact loopReads_full _ _ hroom
      have ha := a.toNat_lt
      exact loopReads_padded (n := a.toNat / 4) (by omega) _ _ rfl (by simp) pos hroom
  | case3 a =>
      by_cases hroom : written.length + 3 ≤ outLen
      case neg => exact loopReads_full _ _ hroom
      have ha := a.toNat_lt
      exact loopReads_padded (n := a.toNat / 4) (by omega) _ _ rfl (by simp) pos hroom
  | case4 => exact ⟨0, [], by simp [encode, B64Reader.readLoop, whole], rfl, by simp [whole]⟩

/-! ## All reads -/

/-- A reader that stands in front of an encoded text. -/
def Before (bytes : List UInt8) (r : B64Reader) : Prop := r.buf.drop r.pos = encode bytes

/-- One read gives the groups for which there is room. -/
theorem read_before {bytes : List UInt8} {r : B64Reader} (h : Before bytes r) (outLen : Nat) :
    ∃ rest, (r.read outLen).1 = (whole bytes).take (3 * (outLen / 3)) ∧
      Before rest (r.read outLen).2 ∧ whole rest = (whole bytes).drop (3 * (outLen / 3)) := by
  obtain ⟨taken, rest, hloop, hdrop, hrest⟩ := loopReads outLen bytes r.pos []
  rw [← h] at hloop hdrop
  refine ⟨rest, ?_, ?_, hrest⟩
  · simp only [B64Reader.read, hloop]
    rfl
  · simp only [Before, B64Reader.read, hloop]
    rw [← List.drop_drop]
    exact hdrop

/-- All reads together give the groups for which there is room before the first short buffer. -/
theorem readToEnd_before {lens : Nat → Nat} (reads : Nat) {i : Nat} {bytes : List UInt8}
    {r : B64Reader} (h : Before bytes r) :
    r.readToEnd lens i reads = (whole bytes).take (3 * room lens i reads) := by
  induction reads generalizing i bytes r with
  | zero => simp [B64Reader.readToEnd, room]
  | succ reads ih =>
      obtain ⟨rest, hread, hbefore, hrest⟩ := read_before h (lens i)
      simp only [B64Reader.readToEnd, hread, ih hbefore, hrest, List.isEmpty_iff]
      split
      next hempty =>
        -- a read that gives nothing has no room for a group, or there is none
        rcases List.take_eq_nil_iff.mp hempty with hzero | hnone
        · have hshort : lens i < 3 := by omega
          rw [room, if_pos hshort]
          rfl
        · rw [hnone]
          simp
      next hread' =>
        have hlong : ¬ lens i < 3 := by
          intro hshort
          rw [Nat.div_eq_of_lt hshort] at hread'
          exact hread' rfl
        rw [room, if_neg hlong, Nat.mul_add, List.take_add]

/-! ## Room -/

/-- With no short buffer there is room for a group in every read. -/
theorem le_room {lens : Nat → Nat} (hlong : ∀ i, 3 ≤ lens i) (reads i : Nat) :
    reads ≤ room lens i reads := by
  induction reads generalizing i with
  | zero => exact Nat.zero_le _
  | succ reads ih =>
      have hi := hlong i
      have hrest := ih (i + 1)
      rw [room, if_neg (by omega)]
      omega

/-- For as many groups as there are reads, more reads make no more room. -/
theorem min_room_add (lens : Nat → Nat) (more : Nat) {reads groups : Nat} (i : Nat)
    (h : groups ≤ reads) :
    min groups (room lens i (reads + more)) = min groups (room lens i reads) := by
  induction reads generalizing i groups with
  | zero =>
      have hzero : groups = 0 := by omega
      rw [hzero, Nat.zero_min, Nat.zero_min]
  | succ reads ih =>
      have hlens : 3 ≤ lens i → 1 ≤ lens i / 3 := by omega
      rw [Nat.succ_add, room, room]
      split
      next => rfl
      next hlong =>
        have hrest : min (groups - lens i / 3) (room lens (i + 1) (reads + more)) =
            min (groups - lens i / 3) (room lens (i + 1) reads) := ih (i + 1) (by omega)
        omega

theorem take_whole_room {lens : Nat → Nat} {bytes : List UInt8} {reads : Nat} (more : Nat)
    (h : bytes.length / 3 ≤ reads) :
    (whole bytes).take (3 * room lens 0 (reads + more)) =
      (whole bytes).take (3 * room lens 0 reads) := by
  have hroom := min_room_add lens more 0 h
  have hlength := length_whole bytes
  rw [List.take_eq_take_iff]
  omega

/-- The room up to the first short buffer. -/
theorem room_le {lens : Nat → Nat} {k : Nat} (hshort : lens k < 3) (reads i : Nat) (h : i ≤ k) :
    3 * room lens i reads ≤ ((List.range' i (k - i)).map lens).sum := by
  induction reads generalizing i with
  | zero => exact Nat.zero_le _
  | succ reads ih =>
      rw [room]
      split
      next => exact Nat.zero_le _
      next hlong =>
        have hne : i ≠ k := by
          rintro rfl
          exact hlong hshort
        have hrest := ih (i + 1) (by omega)
        have hcount : k - i = k - (i + 1) + 1 := by omega
        rw [hcount, List.range'_succ, List.map_cons, List.sum_cons]
        omega

/-! ## The guarantee -/

theorem readmeBytes_encoded (lens : Nat → Nat) {bytes content : List UInt8}
    (h : content.filter (fun b => b ≠ 0x0a) = encode bytes) :
    readmeBytes lens content =
      (whole bytes).take (3 * room lens 0 ((encode bytes).length + 1)) := by
  rw [readmeBytes, h]
  exact readToEnd_before _ rfl

/-- For every README and every line wrapping, whatever buffers it is read with: the decoder
gives its whole groups of three bytes, up to the first buffer that is too short for a group. -/
theorem readme_bytes (lens : Nat → Nat) (bytes content : List UInt8)
    (h : content.filter (fun b => b ≠ 0x0a) = encode bytes) : Decodes lens bytes content := by
  have hdelivered := readmeBytes_encoded lens h
  have hlength := length_whole bytes
  constructor
  case delivered => exact hdelivered
  case ended =>
    intro more
    have hreads := length_encode bytes
    have hmore : (base64Decoder (encode bytes)).readToEnd lens 0
        ((encode bytes).length + 1 + more) =
        (whole bytes).take (3 * room lens 0 ((encode bytes).length + 1 + more)) :=
      readToEnd_before _ rfl
    rw [hmore, hdelivered, take_whole_room more (by omega)]
  case complete_iff =>
    rw [hdelivered]
    constructor
    · intro hall
      have hcount := congrArg List.length hall
      rw [List.length_take, hlength] at hcount
      omega
    · rintro ⟨hgroups, hroom⟩
      rw [whole_eq_self_iff.mpr hgroups, List.take_of_length_le hroom]
  case page =>
    intro hlong fromUtf8Lossy maxPageChars
    have hroom := le_room hlong ((encode bytes).length + 1) 0
    rw [length_encode] at hroom
    have hall : readmeBytes lens content = whole bytes := by
      rw [hdelivered, length_encode, List.take_of_length_le (by omega)]
    rw [fetchGithubReadme, Option.map_some, hall]
  case short =>
    intro k hk
    have hroom := room_le hk ((encode bytes).length + 1) 0 (Nat.zero_le k)
    rw [Nat.sub_zero, ← List.range_eq_range'] at hroom
    rw [hdelivered, List.length_take]
    omega

/-- Seven bytes, wrapped behind four characters: the last one is lost. -/
def greeting : List UInt8 := [72, 101, 108, 108, 111, 32, 87]

def wrappedGreeting : List UInt8 := (encode greeting).take 4 ++ 0x0a :: (encode greeting).drop 4

theorem readme_bytes_greeting : Decodes (fun _ => 32) greeting wrappedGreeting ∧
    readmeBytes (fun _ => 32) wrappedGreeting = greeting.take 6 :=
  ⟨readme_bytes _ _ _ (by decide), by decide +kernel⟩

end ControlPlane.Guarantees.ReadmeBytes
