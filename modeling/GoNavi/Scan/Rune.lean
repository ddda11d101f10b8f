import GoNavi.Scan.Text

/-! # Runes

What a loop over the runes of a byte text sees: `runeTail` counts the continuation bytes of
the rune that starts at a byte (none for an ASCII byte and for a byte at which no well-formed
sequence starts), and `runes` cuts a text into the encodings of its runes.  The classes of a
rune beyond ASCII and its lower case come from the Unicode tables, which enter as
`UnicodeTables`. -/

namespace Scan

/-- The letters, the digits and the lower case of the runes beyond ASCII, by their
encodings. -/
structure UnicodeTables where
  isLetter : Text → Bool
  isDigit : Text → Bool
  toLower : Text → Text

def isContinuation (c : UInt8) : Bool := 0x80 ≤ c && c ≤ 0xBF

/-- The number of continuation bytes that a leading byte asks for. -/
def continuationCount (c : UInt8) : ℕ :=
  if 0xC2 ≤ c ∧ c ≤ 0xDF then 1
  else if 0xE0 ≤ c ∧ c ≤ 0xEF then 2
  else if 0xF0 ≤ c ∧ c ≤ 0xF4 then 3
  else 0

/-- The second bytes that no shorter encoding, surrogate or rune past the last one has. -/
def secondByteFits (c d : UInt8) : Bool :=
  if c = 0xE0 then 0xA0 ≤ d
  else if c = 0xED then d ≤ 0x9F
  else if c = 0xF0 then 0x90 ≤ d
  else if c = 0xF4 then d ≤ 0x8F
  else true

/-- The number of continuation bytes of the rune that starts with `c`. -/
def runeTail (c : UInt8) (t : Text) : ℕ :=
  let tail := t.take (continuationCount c)
  if tail.length = continuationCount c ∧ tail.all isContinuation = true ∧
      tail.head?.all (secondByteFits c) = true then continuationCount c
  else 0

/-- The rune that starts with `c`, as its bytes. -/
def runeAt (c : UInt8) (t : Text) : Text := c :: t.take (runeTail c t)

/-- The loop over the runes of a text, with the runes seen so far. -/
def runeScanner : Scanner UInt8 (List Text) where
  step seen c t := some (seen ++ [runeAt c t], t.drop (runeTail c t))
  step_suffix := by
    intro s c t s' t' h
    cases h
    exact List.drop_suffix _ _

def runes (t : Text) : List Text := (runeScanner.run [] t).1

/-- `strings.ToLower`, rune by rune. -/
def lowerRune (unicode : UnicodeTables) (rune : Text) : Text :=
  match rune with
  | [c] => [lowerByte c]
  | _ => unicode.toLower rune

end Scan
