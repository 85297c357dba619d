import Postit.Core.Compose
import Postit.Core.Options

/-!
# Measuring text

How long a text is in the units of a platform, and what a format checks of it.  Grapheme clusters
and normalization are those of the Unicode libraries.
-/

namespace Postit

open Framework Framework.Str

/-! ## Units -/

/-- How a platform counts the length of a post. -/
inductive TextMeasure
  | graphemes
  | xWeighted
  | utf16Units
  | bytes
  deriving DecidableEq, Repr

/-- The name on the wire. -/
def TextMeasure.asStr : TextMeasure → String
  | .graphemes => "graphemes"
  | .xWeighted => "x_weighted"
  | .utf16Units => "utf16_units"
  | .bytes => "bytes"

/-- What the Unicode libraries give: the extended grapheme clusters, and form C. -/
structure Segmentation where
  graphemes : Str → List Str
  nfc : Str → Str

/-- `u32::MAX` -/
def u32Max : ℕ := 2 ^ 32 - 1

/-- The length of a URL after X's shortening. -/
def xUrlWeight : ℕ := 23

def hasUrlScheme (run : Str) : Bool :=
  ["http://".toList, "https://".toList].any fun scheme =>
    (sliceTo? run (utf8Len scheme)).any fun head => head.map Char.toLower == scheme

/-- Punctuation that ends a sentence or a bracket rather than a link. -/
def isUrlTrailing (c : Char) : Bool :=
  ['.', ',', ';', ':', '!', '?', ')', ']', '}', '\x27', '\x22'].contains c

def isEmojiSequence (grapheme : Str) : Bool :=
  decide (1 < grapheme.length) && grapheme.any fun c =>
    c = '\u200d' || c = '\ufe0f' || c = '\u20e3' ||
      (decide (0x1f1e6 ≤ c.toNat) && decide (c.toNat ≤ 0x1f1ff)) ||
      (decide (0x1f3fb ≤ c.toNat) && decide (c.toNat ≤ 0x1f3ff))

def charWeight (c : Char) : ℕ :=
  if c.toNat ≤ 0x10ff ∨ (0x2000 ≤ c.toNat ∧ c.toNat ≤ 0x200d) ∨
      (0x2010 ≤ c.toNat ∧ c.toNat ≤ 0x201f) ∨ (0x2032 ≤ c.toNat ∧ c.toNat ≤ 0x2037) then 1
  else 2

def graphemeWeight (grapheme : Str) : ℕ :=
  if isEmojiSequence grapheme then 2 else (grapheme.map charWeight).sum

section Counting

variable (g : Segmentation)

/-- The weight of a text's clusters.  A sum of 32 bits takes the clusters of any run up to 2 GiB. -/
def graphemesWeight (s : Str) : ℕ := ((g.graphemes s).map graphemeWeight).sum

/-- The weight of a run of white space, or of a run without any. -/
def runWeight (whitespace : Bool) (run : Str) : ℕ :=
  if !whitespace && hasUrlScheme run then
    -- a URL has one weight, and the punctuation behind it its own
    let trimmed := (run.reverse.dropWhile isUrlTrailing).reverse
    min (xUrlWeight + graphemesWeight g (run.drop trimmed.length)) u32Max
  else graphemesWeight g run

/-- The runs from here on, with the weight of those before. -/
def xWeightedFrom (total : ℕ) : Str → ℕ
  | [] => total
  | first :: rest =>
    let whitespace := isWhiteSpace first
    let run := first :: rest.takeWhile (isWhiteSpace · == whitespace)
    xWeightedFrom (min (total + runWeight g whitespace run) u32Max)
      (rest.dropWhile (isWhiteSpace · == whitespace))
termination_by s => s.length
decreasing_by exact Nat.lt_succ_of_le (List.dropWhile_suffix _).length_le

def xWeighted (text : Str) : ℕ := xWeightedFrom g 0 (g.nfc text)

/-- The number of UTF-16 units. -/
def utf16Len (s : Str) : ℕ := (s.map fun c => if c.toNat ≤ 0xffff then 1 else 2).sum

/-- Measures the text.  The result saturates. -/
def measure (text : Str) : TextMeasure → ℕ
  | .graphemes => min (g.graphemes text).length u32Max
  | .utf16Units => min (utf16Len text) u32Max
  | .bytes => min (utf8Len text) u32Max
  | .xWeighted => xWeighted g text

end Counting

/-! ## The rules of a format -/

/-- Limits on the text of a format. -/
structure TextRules where
  measure : TextMeasure
  max : ℕ
  required : Bool
  /-- the platform publishes the text, the link and the tags as one string -/
  includesLinkAndTags : Bool := false

/-- The violation of a text that is too long, with the fix when shortening helps. -/
def tooLong (rules : TextRules) (own actual : ℕ) : Violation :=
  let found := ((({ code := .textTooLong } : Violation).at_ "text").param "max" (jsonNat rules.max)
    |>.param "actual" (jsonNat actual)).param "measure" (.string rules.measure.asStr)
  let overhead := actual - own
  if overhead < rules.max then found.withFix (.shortenText (rules.max - overhead)) else found

/-- What the text is measured as where it is published. -/
def measured (u : CaseTables) (g : Segmentation) (v : Variant) (rules : TextRules) : ℕ :=
  if rules.includesLinkAndTags then measure g (postText u v) rules.measure
  else measure g v.text rules.measure

def Variant.checkText (u : CaseTables) (g : Segmentation) (v : Variant) (rules : TextRules) :
    List Violation :=
  if rules.required && (Str.trim v.text).isEmpty then
    [({ code := .textRequired } : Violation).at_ "text"]
  else
    let own := measure g v.text rules.measure
    let actual := measured u g v rules
    if rules.max < actual then [tooLong rules own actual] else []

end Postit
