import Mathlib
import BpScript.Workspace

/-!
# What a name means

A script can be named to be imported, and to be read like any file.  Both ways take a relative name
from the root and drop a single point at its front; but `resolveFile` drops it from the components,
and `resolveLib` from the text, as often as it finds `./` there.  What is left can start with a
slash, and then the root is lost.

* `Path.names` — the components of a path, apart from what it starts with.
* `Path.components_join`, `Path.components_stripCurrent` — the steps of both ways, by components.
* `Workspace.StaysRelative` — what is left of a relative name is relative.
* **`script_resolves_alike`** — for which names and roots the two ways meet.
* **`script_leaves_root`** — a name for which they do not.
-/

namespace BpScript

namespace Path

/-! ## Pieces

Between slashes a path is read piece by piece, so what stands on the two sides of a slash can be
told apart.
-/

theorem piecesOf_eq_splitOn (cs : List Char) : piecesOf cs = cs.splitOn '/' := by
  induction cs with
  | nil => rfl
  | cons c cs ih =>
    rw [piecesOf, List.splitOn_cons_eq_if_modifyHead, ih]
    by_cases hc : c = '/'
    · simp [hc]
    · have hne := List.splitOn_ne_nil '/' cs
      cases hpieces : cs.splitOn '/' with
      | nil => exact absurd hpieces hne
      | cons first rest => simp [hc]

theorem piecesOf_append_slash (cs ds : List Char) :
    piecesOf (cs ++ '/' :: ds) = piecesOf cs ++ piecesOf ds := by
  simp only [piecesOf_eq_splitOn, List.splitOn]
  exact List.splitOnP_append_cons cs ds (by simp)

theorem piecesOf_ne_nil (cs : List Char) : piecesOf cs ≠ [] := by
  rw [piecesOf_eq_splitOn]
  exact List.splitOn_ne_nil '/' cs

/-- A text starts with its first piece, and what follows starts with a slash. -/
theorem eq_or_of_head?_piecesOf {cs piece : List Char} (h : (piecesOf cs).head? = some piece) :
    cs = piece ∨ ∃ rest, cs = piece ++ '/' :: rest := by
  have hjoined : ['/'].intercalate (cs.splitOn '/') = cs := List.intercalate_splitOn '/'
  rw [← piecesOf_eq_splitOn] at hjoined
  cases hpieces : piecesOf cs with
  | nil => exact absurd hpieces (piecesOf_ne_nil cs)
  | cons first further =>
    rw [hpieces] at h hjoined
    cases h
    cases further with
    | nil => exact .inl (by simpa [List.intercalate] using hjoined.symm)
    | cons second further =>
      refine .inr ⟨['/'].intercalate (second :: further), ?_⟩
      rw [← hjoined]
      simp [List.intercalate]

theorem slash_notMem_of_mem_piecesOf {cs piece : List Char} (h : piece ∈ piecesOf cs) :
    '/' ∉ piece := by
  induction cs generalizing piece with
  | nil => simp [List.mem_singleton.1 h]
  | cons c cs ih =>
    rw [piecesOf] at h
    split at h
    · rcases List.mem_cons.1 h with rfl | h
      · simp
      · exact ih h
    · next hc =>
      cases hpieces : piecesOf cs with
      | nil => exact absurd hpieces (piecesOf_ne_nil cs)
      | cons first rest =>
        rw [hpieces] at h ih
        rcases List.mem_cons.1 h with rfl | h
        · simpa [Ne.symm hc] using ih List.mem_cons_self
        · exact ih (List.mem_cons_of_mem first h)

/-- Pieces without slashes are read back from the text they are written down in. -/
theorem pieces_ofPieces {pieces : List String} (hne : pieces ≠ [])
    (h : ∀ piece ∈ pieces, '/' ∉ piece.toList) : Path.pieces (ofPieces pieces) = pieces := by
  have hsplit : (['/'].intercalate (pieces.map String.toList)).splitOn '/' =
      pieces.map String.toList :=
    List.splitOn_intercalate '/' (by simpa using h) (by simpa using hne)
  rw [Path.pieces, ofPieces, String.toList_intercalate, piecesOf_eq_splitOn]
  show (List.splitOn '/' (['/'].intercalate _)).map String.ofList = pieces
  rw [hsplit, List.map_map]
  simp [Function.comp_def]

theorem slash_notMem_of_mem_pieces {path piece : String} (h : piece ∈ pieces path) :
    '/' ∉ piece.toList := by
  obtain ⟨cs, hcs, rfl⟩ := List.mem_map.1 h
  rw [String.toList_ofList]
  exact slash_notMem_of_mem_piecesOf hcs

/-! ## Names -/

/-- The components of a path, apart from the root or the single point it starts with. -/
def names (path : String) : List Component :=
  (pieces path).filterMap ofPiece?

theorem components_of_absolute {path : String} (h : isAbsolute path = true) :
    components path = .root :: names path := by
  rw [components, if_pos h, names]

theorem components_of_plain {path : String} (h : isAbsolute path = false)
    (hfirst : (pieces path).head? ≠ some ".") : components path = names path := by
  rw [components, if_neg (by simp [h]), if_neg hfirst, names]

/-- A relative path has its names, and at most a single point in front of them. -/
theorem components_of_relative {path : String} (h : isAbsolute path = false) :
    components path = names path ∨ components path = .current :: names path := by
  rw [components, if_neg (by simp [h])]
  split
  · exact .inr rfl
  · exact .inl rfl

theorem ne_current_of_mem_names {path : String} {component : Component}
    (h : component ∈ names path) : component ≠ .current := by
  obtain ⟨piece, -, hpiece⟩ := List.mem_filterMap.1 h
  unfold ofPiece? at hpiece
  split at hpiece
  · cases hpiece
  · split at hpiece <;> (cases hpiece; simp)

/-- Without the single point at its front, a relative path is its names. -/
theorem dropWhile_current_components {path : String} (h : isAbsolute path = false) :
    (components path).dropWhile (· = .current) = names path := by
  have hnames : (names path).dropWhile (· = .current) = names path := by
    cases hpath : names path with
    | nil => rfl
    | cons first rest =>
      have hfirst := ne_current_of_mem_names (hpath ▸ List.mem_cons_self : first ∈ names path)
      simp [hfirst]
  rcases components_of_relative h with heq | heq <;> simp [heq, hnames]

/-- The names on both sides of a slash. -/
theorem names_of_toList {path base rest : String}
    (h : path.toList = base.toList ++ '/' :: rest.toList) :
    names path = names base ++ names rest := by
  simp [names, pieces, h, piecesOf_append_slash]

theorem head?_pieces_of_toList {path base rest : String}
    (h : path.toList = base.toList ++ '/' :: rest.toList) :
    (pieces path).head? = (pieces base).head? := by
  have hne := piecesOf_ne_nil base.toList
  cases hpieces : piecesOf base.toList with
  | nil => exact absurd hpieces hne
  | cons first further => simp [pieces, h, piecesOf_append_slash, hpieces]

theorem names_empty : names "" = [] := rfl

/-! ## Joined paths -/

theorem join_of_absolute {base path : String} (h : isAbsolute path = true) :
    join base path = path := by
  rw [join, if_pos h]

theorem join_empty (path : String) : join "" path = path := by
  simp [join]

/-- Between a base and a relative path taken from it stands a slash, which may be the last character
of the base. -/
theorem exists_toList_join {base path : String} (hbase : base ≠ "")
    (h : isAbsolute path = false) : ∃ front : String,
      (join base path).toList = front.toList ++ '/' :: path.toList ∧
        names front = names base ∧ (pieces front).head? = (pieces base).head? ∧
          isAbsolute (join base path) = isAbsolute base := by
  have hcons : base.toList ≠ [] := by simpa using hbase
  rw [join, if_neg (by simp [h])]
  by_cases hlast : base.toList.getLast? = some '/'
  · obtain ⟨front, hfront⟩ := List.getLast?_eq_some_iff.1 hlast
    have hsplit : base.toList = (String.ofList front).toList ++ '/' :: "".toList := by simpa
    rw [if_pos (.inr hlast)]
    refine ⟨String.ofList front, by simp [hfront], ?_, ?_, ?_⟩
    · rw [names_of_toList hsplit, names_empty, List.append_nil]
    · exact (head?_pieces_of_toList hsplit).symm
    · simp [isAbsolute, List.head?_append_of_ne_nil _ hcons]
  · rw [if_neg (by simp [hbase, hlast])]
    refine ⟨base, by simp, rfl, rfl, ?_⟩
    simp [isAbsolute, List.append_assoc, List.head?_append_of_ne_nil _ hcons]

/-- **A relative path is taken from a base by its names.** -/
theorem components_join {base path : String} (hbase : base ≠ "") (h : isAbsolute path = false) :
    components (join base path) = components base ++ names path := by
  obtain ⟨front, htext, hnames, hfirst, habsolute⟩ := exists_toList_join hbase h
  have hjoin : names (join base path) = names base ++ names path := by
    rw [names_of_toList htext, hnames]
  have hhead : (pieces (join base path)).head? = (pieces base).head? := by
    rw [head?_pieces_of_toList htext, hfirst]
  rw [names, names] at hjoin
  rw [components, components, habsolute, hhead, hjoin]
  split
  · rfl
  · split <;> rfl

/-- Taken from a base, a path without a single point at its front adds its names.  The base may be
empty. -/
theorem components_join_of_plain {base path : String} (h : isAbsolute path = false)
    (hfirst : (pieces path).head? ≠ some ".") :
    components (join base path) = components base ++ names path := by
  by_cases hbase : base = ""
  · rw [hbase, join_empty, components_of_plain h hfirst]
    rfl
  · exact components_join hbase h

/-! ## Single points

Idle pieces stand for no component, so dropping them at either end of a path leaves its names.
-/

theorem filterMap_dropWhile_isIdle (pieces : List String) :
    (pieces.dropWhile isIdle).filterMap ofPiece? = pieces.filterMap ofPiece? := by
  induction pieces with
  | nil => rfl
  | cons piece pieces ih =>
    by_cases hidle : isIdle piece = true
    · have hnone : ofPiece? piece = none := Option.isNone_iff_eq_none.1 hidle
      rw [List.dropWhile_cons_of_pos hidle, ih, List.filterMap_cons_none hnone]
    · rw [List.dropWhile_cons_of_neg hidle]

theorem filterMap_dropIdleEnd (pieces : List String) :
    (dropIdleEnd pieces).filterMap ofPiece? = pieces.filterMap ofPiece? := by
  rw [dropIdleEnd, List.filterMap_reverse, filterMap_dropWhile_isIdle, List.filterMap_reverse,
    List.reverse_reverse]

theorem not_isIdle_head_dropWhile {pieces : List String} {first : String} {rest : List String}
    (h : dropIdleEnd (pieces.dropWhile isIdle) = first :: rest) : isIdle first = false := by
  have hfront : first :: rest <+: pieces.dropWhile isIdle := by
    rw [← h, dropIdleEnd]
    exact List.reverse_suffix.1 (by simpa using List.dropWhile_suffix isIdle)
  obtain ⟨further, hfurther⟩ := hfront
  have hhead := List.head?_dropWhile_not isIdle pieces
  rw [← hfurther] at hhead
  simpa using hhead

/-- A piece that is not idle starts no absolute path, and is no single point. -/
theorem plain_of_not_isIdle {path first : String} {rest : List String}
    (hpieces : pieces path = first :: rest) (h : isIdle first = false) :
    isAbsolute path = false ∧ (pieces path).head? ≠ some "." := by
  have hidle : ofPiece? first ≠ none := by
    rw [isIdle, Option.isNone_eq_false_iff] at h
    exact Option.isSome_iff_ne_none.1 h
  refine ⟨?_, ?_⟩
  · by_contra habsolute
    obtain ⟨cs, hcs⟩ : ∃ cs, path.toList = '/' :: cs := by
      cases hpath : path.toList with
      | nil => simp [isAbsolute, hpath] at habsolute
      | cons c cs => exact ⟨cs, by simpa [isAbsolute, hpath] using habsolute⟩
    have hfirst : first = "" := by
      have hempty : pieces path = "" :: (piecesOf cs).map String.ofList := by
        simp [pieces, hcs, piecesOf]
      rw [hpieces] at hempty
      exact (List.cons.inj hempty).1
    exact hidle (by rw [hfirst]; rfl)
  · rw [hpieces]
    intro hpoint
    cases hpoint
    exact hidle rfl

/-- A relative path keeps its names when a single point at its front is removed, and starts with
none then. -/
theorem stripCurrent_spec {path : String} (h : isAbsolute path = false) :
    isAbsolute (stripCurrent path) = false ∧ (pieces (stripCurrent path)).head? ≠ some "." ∧
      names (stripCurrent path) = names path := by
  unfold stripCurrent
  split
  · next hpoint =>
    have hnames : (dropIdleEnd ((pieces path).dropWhile isIdle)).filterMap ofPiece? = names path :=
      (filterMap_dropIdleEnd _).trans (filterMap_dropWhile_isIdle _)
    cases hkept : dropIdleEnd ((pieces path).dropWhile isIdle) with
    | nil =>
      rw [hkept] at hnames
      exact ⟨rfl, by decide, hnames⟩
    | cons first rest =>
      have hmem : ∀ piece ∈ first :: rest, '/' ∉ piece.toList := by
        intro piece hpiece
        rw [← hkept, dropIdleEnd, List.mem_reverse] at hpiece
        have hdropped := List.mem_reverse.1 ((List.dropWhile_suffix isIdle).subset hpiece)
        exact slash_notMem_of_mem_pieces ((List.dropWhile_suffix isIdle).subset hdropped)
      have hpieces := pieces_ofPieces (List.cons_ne_nil first rest) hmem
      obtain ⟨habsolute, hfirst⟩ := plain_of_not_isIdle hpieces (not_isIdle_head_dropWhile hkept)
      exact ⟨habsolute, hfirst, by rw [names, hpieces, ← hnames, hkept]⟩
  · next hpoint => exact ⟨h, hpoint, rfl⟩

end Path

namespace Workspace

/-! ## Files by name -/

/-- **A file name means itself if it is absolute; otherwise its names are taken from the root.** -/
theorem components_resolveFileFrom (root file : String) :
    Path.components (resolveFileFrom root file) =
      if Path.isAbsolute file then Path.components file
      else Path.components root ++ Path.names file := by
  unfold resolveFileFrom
  split
  · rfl
  · next habsolute =>
    obtain ⟨hrelative, hfirst, hnames⟩ := Path.stripCurrent_spec (Bool.eq_false_iff.2 habsolute)
    rw [Path.components_join_of_plain hrelative hfirst, hnames]

/-! ## Scripts by name -/

/-- What is left of the name of a script when every `./` at its front is removed. -/
def keptName (name : String) : String :=
  String.ofList (dropCurrents name.toList)

/-- What is left of the name is relative if the name is. -/
def StaysRelative (name : String) : Prop :=
  Path.isAbsolute name = false → Path.isAbsolute (keptName name) = false

instance (name : String) : Decidable (StaysRelative name) :=
  inferInstanceAs (Decidable (_ → _))

theorem keptName_of_absolute {name : String} (h : Path.isAbsolute name = true) :
    keptName name = name := by
  have hdrop : dropCurrents name.toList = name.toList := by
    cases hname : name.toList with
    | nil => rfl
    | cons c cs =>
      have hc : c = '/' := by simpa [Path.isAbsolute, hname] using h
      rw [hc]
      rfl
  rw [keptName, hdrop, String.ofList_toList]

theorem names_keptName (name : String) : Path.names (keptName name) = Path.names name := by
  have hdrop : ∀ cs : List Char,
      Path.names (String.ofList (dropCurrents cs)) = Path.names (String.ofList cs) := by
    intro cs
    fun_induction dropCurrents cs with
    | case1 cs ih =>
      have hpoint : (String.ofList ('.' :: '/' :: cs)).toList =
          ".".toList ++ '/' :: (String.ofList cs).toList := by simp
      rw [ih, Path.names_of_toList hpoint]
      rfl
    | case2 => rfl
  rw [keptName, hdrop, String.ofList_toList]

/-- No `./` is left at the front, so a single point there is all that is left. -/
theorem dropCurrents_eq_point {cs : List Char}
    (h : (Path.piecesOf (dropCurrents cs)).head? = some ['.']) : dropCurrents cs = ['.'] := by
  fun_induction dropCurrents cs with
  | case1 cs ih => exact ih h
  | case2 cs hcs =>
    rcases Path.eq_or_of_head?_piecesOf h with hpoint | ⟨rest, hrest⟩
    · exact hpoint
    · exact absurd hrest (hcs rest)

/-- A script has a name of its own, so more than a single point is left. -/
theorem head?_pieces_keptName {name : String}
    (hscript : Path.extension? name = some scriptExtension)
    (hrelative : Path.isAbsolute name = false) :
    (Path.pieces (keptName name)).head? ≠ some "." := by
  intro hpoint
  have hhead : (Path.piecesOf (dropCurrents name.toList)).head? = some ['.'] := by
    rw [Path.pieces, keptName, String.toList_ofList, List.head?_map] at hpoint
    obtain ⟨piece, hpiece, hlist⟩ := Option.map_eq_some_iff.1 hpoint
    rw [hpiece, ← String.toList_ofList (l := piece), hlist]
    rfl
  have hnames : Path.names name = [] := by
    rw [← names_keptName, keptName, dropCurrents_eq_point hhead]
    rfl
  -- a path without names has no file name, and so no extension
  have hfile : Path.fileName? name = none := by
    rw [Path.fileName?]
    rcases Path.components_of_relative hrelative with heq | heq <;> simp [heq, hnames]
  rw [Path.extension?, hfile] at hscript
  cases hscript

/-- **A script name means what is left of it if that is absolute; otherwise its names are taken from
the root.** -/
theorem components_resolveLibFrom (root libDir : String) {name : String}
    (hscript : Path.extension? name = some scriptExtension) :
    Path.components (resolveLibFrom root libDir name) =
      if Path.isAbsolute (keptName name) then .root :: Path.names name
      else Path.components root ++ Path.names name := by
  rw [resolveLibFrom, if_pos hscript]
  show Path.components (Path.join root (keptName name)) = _
  split
  · next habsolute =>
    rw [Path.join_of_absolute habsolute, Path.components_of_absolute habsolute, names_keptName]
  · next hkept =>
    have hrelative : Path.isAbsolute name = false := by
      by_contra habsolute
      exact hkept (by rw [keptName_of_absolute (by simpa using habsolute)]; simpa using habsolute)
    rw [Path.components_join_of_plain (Bool.eq_false_iff.2 hkept)
      (head?_pieces_keptName hscript hrelative), names_keptName]

/-- **The name of a script means the same file to an import and to the functions on files**, unless
a slash follows the `./` it starts with; then the import has lost the root, which makes no
difference only if the root is `/`.  Apart from that, a relative name means its own components,
without a single point at the front, behind those of the root. -/
theorem script_resolves_alike (root libDir : String) {name : String}
    (hscript : Path.extension? name = some scriptExtension) :
    (Path.same (resolveLibFrom root libDir name) (resolveFileFrom root name) = true ↔
      StaysRelative name ∨ Path.components root = [.root]) ∧
    (Path.isAbsolute name = false →
      Path.components (resolveFileFrom root name) =
        Path.components root ++ (Path.components name).dropWhile (· = .current)) ∧
    (Path.isAbsolute name = false → StaysRelative name →
      Path.components (resolveLibFrom root libDir name) =
        Path.components root ++ (Path.components name).dropWhile (· = .current)) := by
  refine ⟨?_, fun hrelative => ?_, fun hrelative hstays => ?_⟩
  · rw [Path.same, decide_eq_true_iff, components_resolveLibFrom root libDir hscript,
      components_resolveFileFrom]
    cases habsolute : Path.isAbsolute name with
    | true =>
      rw [keptName_of_absolute habsolute, habsolute, Path.components_of_absolute habsolute]
      simp [StaysRelative, habsolute]
    | false =>
      cases hkept : Path.isAbsolute (keptName name) with
      | true =>
        have hleaves : ¬StaysRelative name := fun hstays => by
          rw [hstays habsolute] at hkept
          cases hkept
        simp only [hleaves, false_or, if_true, Bool.false_eq_true, if_false]
        rw [← List.singleton_append, List.append_cancel_right_eq]
        exact eq_comm
      | false => simp [StaysRelative, hkept]
  · rw [components_resolveFileFrom, if_neg (by simp [hrelative]),
      Path.dropWhile_current_components hrelative]
  · rw [components_resolveLibFrom root libDir hscript, if_neg (by simp [hstays hrelative]),
      Path.dropWhile_current_components hrelative]

/-- Points, repeated slashes and a step upwards, below the root `/root`. -/
theorem nested_script_resolves_alike :
    Path.extension? "././nested//../utils.bp/" = some scriptExtension ∧
      StaysRelative "././nested//../utils.bp/" ∧
      Path.same (resolveLibFrom "/root" "/root/lib" "././nested//../utils.bp/")
        (resolveFileFrom "/root" "././nested//../utils.bp/") = true := by
  have hscript : Path.extension? "././nested//../utils.bp/" = some scriptExtension := by decide
  have hstays : StaysRelative "././nested//../utils.bp/" := by decide
  exact ⟨hscript, hstays,
    (script_resolves_alike "/root" "/root/lib" hscript).1.2 (.inl hstays)⟩

/-- **An import of `.//utils.bp` leaves the root,** where the functions on files stay in it. -/
theorem script_leaves_root :
    Path.extension? ".//utils.bp" = some scriptExtension ∧
      Path.components (resolveLibFrom "/root" "/root/lib" ".//utils.bp") =
        [.root, .normal "utils.bp"] ∧
      Path.components (resolveFileFrom "/root" ".//utils.bp") =
        [.root, .normal "root", .normal "utils.bp"] := by
  decide

end Workspace

end BpScript
