import BpScript.Text.CaseTable

/-!
# Changing case

Whole texts are put into lower or upper case by the full mappings of Unicode, where one character
may become several.  One rule looks at the neighbours: a capital sigma at the end of a word becomes
a final sigma.

* `lowerChar`, `upperChar` — the mappings of single characters.
* `lower`, `upper` — the mappings of texts.
-/

namespace BpScript

namespace Text

/-- The shift that the first matching range gives to a code point. -/
def shiftOf (ranges : List CaseRange) (n : Nat) : Int :=
  match ranges.find? fun r => r.first ≤ n && n ≤ r.last && (n - r.first) % r.stride = 0 with
  | some r => r.shift
  | none => 0

/-- A character under a pair of tables. -/
def mapChar (specials : List (Nat × List Nat)) (ranges : List CaseRange) (c : Char) : List Char :=
  match specials.lookup c.toNat with
  | some codes => codes.map Char.ofNat
  | none => [Char.ofNat ((c.toNat : Int) + shiftOf ranges c.toNat).toNat]

/-- The lower case of a character on its own. -/
def lowerChar (c : Char) : List Char :=
  if c.toNat < 0x80 then [c.toLower] else mapChar lowerSpecials lowerRanges c

/-- The upper case of a character. -/
def upperChar (c : Char) : List Char :=
  if c.toNat < 0x80 then [c.toUpper] else mapChar upperSpecials upperRanges c

/-- Whether a code point lies in one of some stretches. -/
def inRanges (ranges : List (Nat × Nat)) (c : Char) : Bool :=
  ranges.any fun r => r.1 ≤ c.toNat && c.toNat ≤ r.2

/-- Whether a character is passed over when the neighbours of a sigma are looked at. -/
def isIgnorable (c : Char) : Bool :=
  inRanges ignorableRanges c

/-- Whether the first character that is not passed over has a case. -/
def startsCased (cs : List Char) : Bool :=
  match cs.dropWhile isIgnorable with
  | c :: _ => inRanges casedRanges c
  | [] => false

/-- The lower case of a text; `before` is what stands in front of it, last character first. -/
def lowerFrom (before done : List Char) : List Char → List Char
  | [] => done.reverse
  | c :: cs =>
    let mapped :=
      if c = 'Σ' then
        if startsCased before && !startsCased cs then ['ς'] else ['σ']
      else lowerChar c
    lowerFrom (c :: before) (mapped.reverseAux done) cs

/-- A text in lower case. -/
def lower (s : String) : String :=
  String.ofList (lowerFrom [] [] s.toList)

/-- A text in upper case. -/
def upper (s : String) : String :=
  String.ofList (s.toList.flatMap upperChar)

end Text

end BpScript
