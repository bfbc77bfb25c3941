/-!
# Paths

A path is a text of names between slashes.  Two texts are the same path if they have the same
components: repeated slashes, a slash at the end and single points do not matter, except for a
single point at the front of a relative path.  Double points are kept as they are.

* `components` — the components of a path.
* `join` — a path taken from a directory.
* `fileName?`, `extension?`, `parent` — the usual parts.
* `stripCurrent` — a path without a single point at its front.
-/

namespace BpScript

namespace Path

/-- A step of a path. -/
inductive Component where
  | root
  /-- A single point. -/
  | current
  /-- A double point. -/
  | parent
  | normal (name : String)
  deriving DecidableEq, Repr, Inhabited

/-- Whether a path starts at the root. -/
def isAbsolute (path : String) : Bool :=
  path.toList.head? = some '/'

/-- The stretches of a text between its slashes, empty ones included. -/
def piecesOf : List Char → List (List Char)
  | [] => [[]]
  | c :: cs =>
    if c = '/' then [] :: piecesOf cs
    else
      match piecesOf cs with
      | [] => [[c]]
      | first :: rest => (c :: first) :: rest

/-- The pieces of a path between its slashes, empty ones included. -/
def pieces (path : String) : List String :=
  (piecesOf path.toList).map String.ofList

/-- The component a piece stands for.  Empty pieces and single points stand for none. -/
def ofPiece? (piece : String) : Option Component :=
  if piece = "" ∨ piece = "." then none
  else if piece = ".." then some .parent
  else some (.normal piece)

/-- The components of a path. -/
def components (path : String) : List Component :=
  let names := (pieces path).filterMap ofPiece?
  if isAbsolute path then .root :: names
  else if (pieces path).head? = some "." then .current :: names
  else names

/-- Whether two texts are the same path. -/
def same (p q : String) : Bool :=
  components p = components q

/-- `path` taken from the directory `base`.  An absolute path stays what it is. -/
def join (base path : String) : String :=
  if isAbsolute path then path
  else if base = "" ∨ base.toList.getLast? = some '/' then base ++ path
  else base ++ "/" ++ path

/-- The last component, if it is a name. -/
def fileName? (path : String) : Option String :=
  match (components path).getLast? with
  | some (.normal name) => some name
  | _ => none

/-- What follows the last point of the file name.  A point at its front does not count. -/
def extension? (path : String) : Option String :=
  match fileName? path with
  | none => none
  | some name =>
    match name.toList.reverse.span (· ≠ '.') with
    | (_, []) | (_, [_]) => none
    | (ext, _) => some (String.ofList ext.reverse)

/-- Whether a piece stands for no component inside a path. -/
def isIdle (piece : String) : Bool :=
  (ofPiece? piece).isNone

/-- Writes pieces down again. -/
def ofPieces (pieces : List String) : String :=
  "/".intercalate pieces

/-- Removes idle pieces from the end. -/
def dropIdleEnd (pieces : List String) : List String :=
  (pieces.reverse.dropWhile isIdle).reverse

/-- The path without its last component. -/
def parent (path : String) : String :=
  let kept := dropIdleEnd ((dropIdleEnd (pieces path)).dropLast)
  if isAbsolute path then
    if kept.isEmpty then "/" else ofPieces kept
  else if kept.isEmpty ∧ (pieces path).head? = some "." ∧ (components path).length ≠ 1 then "."
  else ofPieces kept

/-- A path that starts with a single point, without that point and without idle pieces at its ends;
any other path as it is. -/
def stripCurrent (path : String) : String :=
  if (pieces path).head? = some "." then
    ofPieces (dropIdleEnd ((pieces path).dropWhile isIdle))
  else path

end Path

end BpScript
