import ControlPlane.Source.Layout

/-!
# The page of a repository

Embeds `fetch_github_readme` and the reader of `base64_decoder`
(`crates/h2ai-tools/src/web_search.rs`). The answer of GitHub and `String::from_utf8_lossy` are
parameters. Texts that are not read yet are their bytes.
-/
namespace ControlPlane.Source.Agent

open ControlPlane.Source.Text

/-! ## The reader -/

/-- `TABLE`: the value of a character, `0x40` if it is none. -/
def base64Table : List UInt8 :=
  [0x40, 0x40, 0x40, 0x40, 0x40, 0x40, 0x40, 0x40, 0x40, 0x40, 0x40, 0x40, 0x40, 0x40, 0x40, 0x40,
    0x40, 0x40, 0x40, 0x40, 0x40, 0x40, 0x40, 0x40, 0x40, 0x40, 0x40, 0x40, 0x40, 0x40, 0x40, 0x40,
    0x40, 0x40, 0x40, 0x40, 0x40, 0x40, 0x40, 0x40, 0x40, 0x40, 0x40, 0x3e, 0x40, 0x40, 0x40, 0x3f,
    0x34, 0x35, 0x36, 0x37, 0x38, 0x39, 0x3a, 0x3b, 0x3c, 0x3d, 0x40, 0x40, 0x40, 0x40, 0x40, 0x40,
    0x40, 0x00, 0x01, 0x02, 0x03, 0x04, 0x05, 0x06, 0x07, 0x08, 0x09, 0x0a, 0x0b, 0x0c, 0x0d, 0x0e,
    0x0f, 0x10, 0x11, 0x12, 0x13, 0x14, 0x15, 0x16, 0x17, 0x18, 0x19, 0x40, 0x40, 0x40, 0x40, 0x40,
    0x40, 0x1a, 0x1b, 0x1c, 0x1d, 0x1e, 0x1f, 0x20, 0x21, 0x22, 0x23, 0x24, 0x25, 0x26, 0x27, 0x28,
    0x29, 0x2a, 0x2b, 0x2c, 0x2d, 0x2e, 0x2f, 0x30, 0x31, 0x32, 0x33, 0x40, 0x40, 0x40, 0x40, 0x40]

def base64Value (b : UInt8) : UInt8 := if b < 128 then base64Table.getD b.toNat 0x40 else 0x40

/-- `B64Reader`. -/
structure B64Reader where
  buf : List UInt8
  pos : Nat

/-- The bytes `read` writes for one chunk whose characters have values: `=`, the character
`0x3d`, is asked for once more. -/
def chunkBytes (c2 c3 v0 v1 v2 v3 : UInt8) : List UInt8 :=
  [(v0 <<< 2) ||| (v1 >>> 4)] ++ (if c2 ≠ 0x3d then [(v1 <<< 4) ||| (v2 >>> 2)] else []) ++
    if c3 ≠ 0x3d then [(v2 <<< 6) ||| v3] else []

/-- The loop of `read` over what stands behind `pos`: what is written into a buffer of `outLen`
bytes, and the position at the end. -/
def B64Reader.readLoop (outLen : Nat) : List UInt8 → Nat → List UInt8 → List UInt8 × Nat
  | c0 :: c1 :: c2 :: c3 :: rest, pos, written =>
      if written.length + 3 ≤ outLen then
        if c0 = 0x3d then (written, pos)
        else if 0x40 ∈ [c0, c1, c2, c3].map base64Value then
          B64Reader.readLoop outLen rest (pos + 4) written
        else
          B64Reader.readLoop outLen rest (pos + 4)
            (written ++ chunkBytes c2 c3 (base64Value c0) (base64Value c1) (base64Value c2)
              (base64Value c3))
      else (written, pos)
  | _, pos, written => (written, pos)

/-- `read`, with a buffer of `outLen` bytes. -/
def B64Reader.read (r : B64Reader) (outLen : Nat) : List UInt8 × B64Reader :=
  let (written, pos) := B64Reader.readLoop outLen (r.buf.drop r.pos) r.pos []
  (written, { r with pos := pos })

/-- `Read::read_to_end`: reads until a read gives nothing. How long the `i`-th buffer is, is the
business of the standard library; the reader is asked at most `reads` times. -/
def B64Reader.readToEnd (lens : Nat → Nat) : Nat → Nat → B64Reader → List UInt8
  | _, 0, _ => []
  | i, reads + 1, r =>
      let (bytes, r') := r.read (lens i)
      if bytes.isEmpty then [] else bytes ++ B64Reader.readToEnd lens (i + 1) reads r'

def base64Decoder (input : List UInt8) : B64Reader := { buf := input, pos := 0 }

/-! ## The page -/

/-- Lines with a badge or an image are left out. -/
def keepsLine (line : List Char) : Bool :=
  !("[![".toList.isPrefixOf (trimStart line)) && !("![".toList.isPrefixOf (trimStart line))

/-- The lines of a README that are shown. -/
def readmePage (maxPageChars : Nat) (text : List Char) : List Char :=
  (joinLines (((lines text).filter keepsLine).take 80)).take maxPageChars

/-- The bytes `fetch_github_readme` decodes of the `content` it is sent: every read but the
last takes a chunk, so that there are at most as many reads as characters and one. -/
def readmeBytes (lens : Nat → Nat) (content : List UInt8) : List UInt8 :=
  let decoded := content.filter fun b => b ≠ 0x0a
  (base64Decoder decoded).readToEnd lens 0 (decoded.length + 1)

/-- `fetch_github_readme`: `content` is the field of the answer, if there is one. -/
def fetchGithubReadme (fromUtf8Lossy : List UInt8 → List Char) (lens : Nat → Nat)
    (maxPageChars : Nat) (content : Option (List UInt8)) : Option (List Char) :=
  content.map fun content => readmePage maxPageChars (fromUtf8Lossy (readmeBytes lens content))

end ControlPlane.Source.Agent
