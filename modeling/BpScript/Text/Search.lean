/-!
# Searching texts

Occurrences of a pattern are found from the left and do not overlap.

* `contains` — whether a pattern occurs.
* `splitOn` — the parts of a text between the occurrences of a separator.
* `replace` — a text with every occurrence replaced.  The empty pattern occurs between any two
  characters and at both ends.
-/

namespace BpScript

namespace Text

/-- Whether `pattern` occurs in a text. -/
def containsIn (pattern : List Char) : List Char → Bool
  | [] => pattern.isEmpty
  | c :: cs => pattern.isPrefixOf (c :: cs) || containsIn pattern cs

/-- Whether `pattern` occurs in `s`. -/
def contains (s pattern : String) : Bool :=
  containsIn pattern.toList s.toList

/-- Splits a text at the occurrences of a separator that is not empty.  `skip` characters still
belong to an occurrence; `part` is the part being read and `done` holds those before it, both in
reverse. -/
def splitFrom (separator : List Char) :
    (skip : Nat) → (part : List Char) → (done : List (List Char)) → List Char → List (List Char)
  | _, part, done, [] => (part.reverse :: done).reverse
  | skip + 1, part, done, _ :: cs => splitFrom separator skip part done cs
  | 0, part, done, c :: cs =>
    if separator.isPrefixOf (c :: cs) then
      splitFrom separator (separator.length - 1) [] (part.reverse :: done) cs
    else splitFrom separator 0 (c :: part) done cs

/-- The parts of `s` between the occurrences of a separator that is not empty. -/
def splitOn (s separator : String) : List String :=
  (splitFrom separator.toList 0 [] [] s.toList).map String.ofList

/-- The characters of `s`, as texts. -/
def characters (s : String) : List String :=
  s.toList.map String.singleton

/-- Replaces the occurrences of a pattern that is not empty.  `skip` characters still belong to an
occurrence; `done` is the result so far, last first. -/
def replaceFrom (pattern replacement : List Char) :
    (skip : Nat) → (done : List Char) → List Char → List Char
  | _, done, [] => done.reverse
  | skip + 1, done, _ :: cs => replaceFrom pattern replacement skip done cs
  | 0, done, c :: cs =>
    if pattern.isPrefixOf (c :: cs) then
      replaceFrom pattern replacement (pattern.length - 1) (replacement.reverseAux done) cs
    else replaceFrom pattern replacement 0 (c :: done) cs

/-- `s` with every occurrence of `pattern` replaced. -/
def replace (s pattern replacement : String) : String :=
  let filler := replacement.toList
  if pattern.isEmpty then
    String.ofList (filler ++ s.toList.flatMap fun c => c :: filler)
  else
    String.ofList (replaceFrom pattern.toList filler 0 [] s.toList)

end Text

end BpScript
