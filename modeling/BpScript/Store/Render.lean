import BpScript.Store

/-!
# Values as text

* `Store.render` — how a value is shown.  Lists and objects show their contents, with texts in
  double quotes and nothing escaped.
* `Store.repr` — how a value is shown inside a list or object.

A value may not contain itself.  Then it nests no deeper than there are lists and objects.
-/

namespace BpScript

namespace Store

/-- Puts texts in quotes, and shows all else by `render`. -/
def quoted (render : Value → String) : Value → String
  | .text s => s!"\"{s}\""
  | v => render v

/-- Shows a value that nests at most `bound` deep. -/
def renderWithin (s : Store) : (bound : Nat) → Value → String
  | 0, _ => "..."
  | bound + 1, v =>
    match v with
    | .number x => Number.render x
    | .text t => t
    | .boolean b => if b then "true" else "false"
    | .null => "null"
    | .list id =>
      let shown := (s.items id).toList.map (quoted (renderWithin s bound))
      "[" ++ ", ".intercalate shown ++ "]"
    | .object id =>
      let shown := (s.entries id).map fun entry =>
        s!"{entry.1}: " ++ quoted (renderWithin s bound) entry.2
      "\x7b" ++ ", ".intercalate shown ++ "\x7d"
    | .callable f => f.render

/-- The deepest that a value can nest without containing itself. -/
def nestingBound (s : Store) : Nat :=
  s.lists.size + s.objects.size + 1

/-- How a value is shown. -/
def render (s : Store) (v : Value) : String :=
  s.renderWithin s.nestingBound v

/-- How a value is shown inside a list or object. -/
def repr (s : Store) (v : Value) : String :=
  quoted s.render v

end Store

end BpScript
