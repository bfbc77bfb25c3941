/-!
# Blank characters

The characters with the Unicode property White_Space separate words and are trimmed from texts.

* `isWhite` — the property.
* `trim` — a text without the white characters at its ends.
* `words` — the stretches between white characters.
-/

namespace BpScript

namespace Text

/-- Whether a character has the property White_Space. -/
def isWhite (c : Char) : Bool :=
  let n := c.toNat
  (0x09 ≤ n && n ≤ 0x0D) || n = 0x20 || n = 0x85 || n = 0xA0 || n = 0x1680 ||
    (0x2000 ≤ n && n ≤ 0x200A) || n = 0x2028 || n = 0x2029 || n = 0x202F || n = 0x205F || n = 0x3000

/-- Removes what satisfies `p` from the end. -/
def dropEndWhile (p : Char → Bool) (cs : List Char) : List Char :=
  (cs.reverse.dropWhile p).reverse

/-- The text without the white characters at its ends. -/
def trim (s : String) : String :=
  String.ofList (dropEndWhile isWhite (s.toList.dropWhile isWhite))

/-- Collects the words of `cs`; `word` is the one being read and `done` those before it, both last
first. -/
def wordsFrom (word : List Char) (done : List (List Char)) : List Char → List (List Char)
  | [] => (if word.isEmpty then done else word.reverse :: done).reverse
  | c :: cs =>
    if isWhite c then wordsFrom [] (if word.isEmpty then done else word.reverse :: done) cs
    else wordsFrom (c :: word) done cs

/-- The non-empty stretches of characters that are not white. -/
def words (s : String) : List String :=
  (wordsFrom [] [] s.toList).map String.ofList

end Text

end BpScript
