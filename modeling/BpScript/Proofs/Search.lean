import BpScript.Proofs.Reach

/-!
# Splitting, joining and replacing

Splitting a text, replacing in it and asking whether it contains something are three separate
searches.  They agree because they meet the same occurrences: going through a text from the left,
either the pattern stands there, and the search goes on behind it, or one character is passed.
`Text.searchInduction` is this walk as an induction principle, and each of the searches has one
equation for each of its cases.

* `Text.parts`, `Text.replaced` — the searches on characters, without what has been read so far.
* `Text.intercalate_parts`, `Text.intercalate_parts_eq_replaced` — joining what was split.
* `Text.containsIn_of_mem_parts`, `Text.containsIn_eq` — where the pattern occurs.
* **`split_join_agree`** — the methods of texts and lists.
-/

namespace BpScript

namespace Text

variable {pattern : List Char}

/-! ## One walk through a text -/

/-- The parts of a text between the occurrences of a separator. -/
def parts (separator cs : List Char) : List (List Char) :=
  splitFrom separator 0 [] [] cs

/-- A text with the occurrences of a pattern replaced. -/
def replaced (pattern replacement cs : List Char) : List Char :=
  replaceFrom pattern replacement 0 [] cs

/-- **The walk of a search.**  A text is empty, or starts with the pattern, or has a character in
front of what the search goes on with. -/
theorem searchInduction {P : List Char → Prop} (hpattern : pattern ≠ []) (nil : P [])
    (hit : ∀ rest, P rest → P (pattern ++ rest))
    (miss : ∀ c cs, ¬pattern <+: c :: cs → P cs → P (c :: cs)) (cs : List Char) : P cs := by
  by_cases hprefix : pattern <+: cs
  · obtain ⟨rest, rfl⟩ := hprefix
    exact hit rest (searchInduction hpattern nil hit miss rest)
  · cases cs with
    | nil => exact nil
    | cons c cs => exact miss c cs hprefix (searchInduction hpattern nil hit miss cs)
termination_by cs.length
decreasing_by
  · have := List.length_pos_iff.2 hpattern
    grind
  · grind

/-- What has been read so far goes in front of what is still to be found. -/
theorem splitFrom_eq (separator : List Char) : ∀ (skip : Nat) (part : List Char)
    (done : List (List Char)) (cs : List Char), splitFrom separator skip part done cs =
      done.reverse ++ (parts separator (cs.drop skip)).modifyHead (part.reverse ++ ·)
  | _, part, done, [] => by simp [splitFrom, parts]
  | skip + 1, part, done, _ :: cs => splitFrom_eq separator skip part done cs
  | 0, part, done, c :: cs => by
    rw [List.drop_zero, parts, splitFrom, splitFrom]
    split
    · rw [splitFrom_eq separator _ [] _ cs, splitFrom_eq separator _ [] _ cs]
      simp
    · rw [splitFrom_eq separator 0 _ _ cs, splitFrom_eq separator 0 _ _ cs]
      simp [List.modifyHead_modifyHead, Function.comp_def]

theorem replaceFrom_eq (pattern replacement : List Char) : ∀ (skip : Nat) (done cs : List Char),
    replaceFrom pattern replacement skip done cs =
      done.reverse ++ replaced pattern replacement (cs.drop skip)
  | _, done, [] => by simp [replaceFrom, replaced]
  | skip + 1, done, _ :: cs => replaceFrom_eq pattern replacement skip done cs
  | 0, done, c :: cs => by
    rw [List.drop_zero, replaced, replaceFrom, replaceFrom]
    split
    · rw [replaceFrom_eq pattern replacement _ _ cs, replaceFrom_eq pattern replacement _ _ cs]
      simp
    · rw [replaceFrom_eq pattern replacement 0 _ cs, replaceFrom_eq pattern replacement 0 _ cs]
      simp

/-! ### Splitting -/

@[simp] theorem parts_nil : parts pattern [] = [[]] := rfl

theorem parts_hit (hpattern : pattern ≠ []) (rest : List Char) :
    parts pattern (pattern ++ rest) = [] :: parts pattern rest := by
  obtain ⟨c, cs, rfl⟩ := List.exists_cons_of_ne_nil hpattern
  have hskip : (cs ++ rest).drop ((c :: cs).length - 1) = rest := by simp
  rw [List.cons_append, parts, splitFrom, if_pos (by simp), splitFrom_eq, hskip]
  exact congrArg ([] :: ·) (congrFun List.modifyHead_id _)

theorem parts_miss {c : Char} {cs : List Char} (h : ¬pattern <+: c :: cs) :
    parts pattern (c :: cs) = (parts pattern cs).modifyHead (c :: ·) := by
  rw [parts, splitFrom, if_neg (by simpa using h), splitFrom_eq]
  simp

theorem parts_ne_nil (hpattern : pattern ≠ []) (cs : List Char) : parts pattern cs ≠ [] := by
  induction cs using searchInduction hpattern with
  | nil => simp
  | hit rest _ => simp [parts_hit hpattern]
  | miss c cs h ih => simpa [parts_miss h] using ih

/-! ### Replacing -/

@[simp] theorem replaced_nil {replacement : List Char} : replaced pattern replacement [] = [] := rfl

theorem replaced_hit (hpattern : pattern ≠ []) (replacement rest : List Char) :
    replaced pattern replacement (pattern ++ rest) =
      replacement ++ replaced pattern replacement rest := by
  obtain ⟨c, cs, rfl⟩ := List.exists_cons_of_ne_nil hpattern
  rw [List.cons_append, replaced, replaceFrom, if_pos (by simp), replaceFrom_eq]
  simp

theorem replaced_miss {c : Char} {cs replacement : List Char} (h : ¬pattern <+: c :: cs) :
    replaced pattern replacement (c :: cs) = c :: replaced pattern replacement cs := by
  rw [replaced, replaceFrom, if_neg (by simpa using h), replaceFrom_eq]
  simp

/-! ### Looking for an occurrence -/

theorem containsIn_hit (rest : List Char) : containsIn pattern (pattern ++ rest) = true := by
  cases hcs : pattern ++ rest with
  | nil => simp [containsIn, (List.append_eq_nil_iff.1 hcs).1]
  | cons c cs =>
    have hprefix : pattern <+: c :: cs := ⟨rest, hcs⟩
    simp [containsIn, hprefix]

theorem containsIn_miss {c : Char} {cs : List Char} (h : ¬pattern <+: c :: cs) :
    containsIn pattern (c :: cs) = containsIn pattern cs := by
  simp [containsIn, h]

/-! ## The searches agree -/

/-- A character in front of the first part is in front of the joined text. -/
theorem intercalate_modifyHead_cons (separator : List Char) (c : Char) {ps : List (List Char)}
    (h : ps ≠ []) :
    separator.intercalate (ps.modifyHead (c :: ·)) = c :: separator.intercalate ps := by
  match ps with
  | [] => exact absurd rfl h
  | [_] => simp
  | _ :: _ :: _ => simp

/-- **Splitting loses nothing**: the parts, joined by the separator, make up the text. -/
theorem intercalate_parts (hpattern : pattern ≠ []) (cs : List Char) :
    pattern.intercalate (parts pattern cs) = cs := by
  induction cs using searchInduction hpattern with
  | nil => simp
  | hit rest ih =>
    rw [parts_hit hpattern, List.intercalate_cons_of_ne_nil (parts_ne_nil hpattern rest), ih]
    rfl
  | miss c cs h ih =>
    rw [parts_miss h, intercalate_modifyHead_cons _ _ (parts_ne_nil hpattern cs), ih]

/-- **Joining by something else** is replacing. -/
theorem intercalate_parts_eq_replaced (hpattern : pattern ≠ []) (replacement cs : List Char) :
    replacement.intercalate (parts pattern cs) = replaced pattern replacement cs := by
  induction cs using searchInduction hpattern with
  | nil => simp
  | hit rest ih =>
    rw [parts_hit hpattern, replaced_hit hpattern,
      List.intercalate_cons_of_ne_nil (parts_ne_nil hpattern rest), ih]
    rfl
  | miss c cs h ih =>
    rw [parts_miss h, replaced_miss h,
      intercalate_modifyHead_cons _ _ (parts_ne_nil hpattern cs), ih]

/-- There is a second part if and only if the separator occurs. -/
theorem containsIn_eq (hpattern : pattern ≠ []) (cs : List Char) :
    containsIn pattern cs = decide (1 < (parts pattern cs).length) := by
  induction cs using searchInduction hpattern with
  | nil => simp [containsIn, hpattern]
  | hit rest _ =>
    have hlength := List.length_pos_iff.2 (parts_ne_nil hpattern rest)
    rw [containsIn_hit, parts_hit hpattern, List.length_cons]
    exact (decide_eq_true (Nat.succ_lt_succ hlength)).symm
  | miss c cs h ih => rw [containsIn_miss h, parts_miss h, List.length_modifyHead, ih]

/-- The first part stands at the front of the text. -/
theorem prefix_of_parts_eq_cons (hpattern : pattern ≠ []) {cs first : List Char}
    {rest : List (List Char)} (h : parts pattern cs = first :: rest) : first <+: cs := by
  have hjoined := intercalate_parts hpattern cs
  rw [h] at hjoined
  cases rest with
  | nil => exact ⟨[], by simpa using hjoined⟩
  | cons second rest => exact ⟨_, by simpa using hjoined⟩

/-- **No part contains the separator.**  A part is read up to the first place where the separator
stands, so one inside it would have been found before. -/
theorem containsIn_of_mem_parts (hpattern : pattern ≠ []) (cs : List Char) :
    ∀ part ∈ parts pattern cs, containsIn pattern part = false := by
  induction cs using searchInduction hpattern with
  | nil => simp [containsIn, hpattern]
  | hit rest ih => simpa [parts_hit hpattern, containsIn, hpattern] using ih
  | miss c cs h ih =>
    rw [parts_miss h]
    cases hparts : parts pattern cs with
    | nil => exact absurd hparts (parts_ne_nil hpattern cs)
    | cons first rest =>
      rw [hparts] at ih
      obtain ⟨hfirst, hrest⟩ := List.forall_mem_cons.1 ih
      refine List.forall_mem_cons.2 ⟨?_, hrest⟩
      have hfront := (List.prefix_cons_inj c).2 (prefix_of_parts_eq_cons hpattern hparts)
      rw [containsIn_miss fun hhit => h (hhit.trans hfront), hfirst]

/-- Single characters, joined by nothing, make up the text. -/
theorem intercalate_map_singleton (cs : List Char) :
    ([] : List Char).intercalate (cs.map fun c => [c]) = cs := by
  induction cs with
  | nil => rfl
  | cons c cs ih =>
    cases cs with
    | nil => simp
    | cons d cs => simpa using ih

/-! ## Texts -/

variable {s separator : String}

theorem toList_ne_nil (h : separator ≠ "") : separator.toList ≠ [] := by
  simpa using h

theorem splitOn_eq (s separator : String) :
    splitOn s separator = (parts separator.toList s.toList).map String.ofList := rfl

theorem intercalate_splitOn (h : separator ≠ "") :
    separator.intercalate (splitOn s separator) = s := by
  rw [← String.toList_inj, String.toList_intercalate, splitOn_eq, List.map_map]
  simpa [Function.comp_def] using intercalate_parts (toList_ne_nil h) s.toList

theorem intercalate_splitOn_eq_replace (h : separator ≠ "") (t : String) :
    t.intercalate (splitOn s separator) = replace s separator t := by
  rw [← String.toList_inj, String.toList_intercalate, splitOn_eq, List.map_map, replace,
    if_neg (by simpa using h)]
  simpa [Function.comp_def, replaced] using
    intercalate_parts_eq_replaced (toList_ne_nil h) t.toList s.toList

theorem contains_of_mem_splitOn (h : separator ≠ "") :
    ∀ part ∈ splitOn s separator, contains part separator = false := by
  intro part hpart
  obtain ⟨cs, hcs, rfl⟩ := List.mem_map.1 hpart
  rw [contains, String.toList_ofList]
  exact containsIn_of_mem_parts (toList_ne_nil h) s.toList cs hcs

theorem contains_eq (h : separator ≠ "") :
    contains s separator = decide (1 < (splitOn s separator).length) := by
  rw [contains, containsIn_eq (toList_ne_nil h), splitOn_eq, List.length_map]

theorem intercalate_characters (s : String) : "".intercalate (characters s) = s := by
  rw [← String.toList_inj, String.toList_intercalate, characters, List.map_map]
  simpa [Function.comp_def] using intercalate_map_singleton s.toList

end Text

/-! ## Methods -/

section Methods

variable {s separator : String} {parts : List String} {l : ListId} {m : Machine}

/-- What splitting gives is a list of texts. -/
theorem TextMethod.run_listOf (parts : List String) (m : Machine) :
    ∃ l m', (listOf parts).run m = (.ok (.list l), m') ∧
      m'.store.items l = (parts.map Value.text).toArray :=
  ⟨_, _, rfl, Store.items_newList _⟩

theorem TextMethod.call_split (h : separator ≠ "") :
    (Native.text .split s).call [.text separator] = listOf (Text.splitOn s separator) :=
  if_neg (by simpa using h)

theorem TextMethod.call_split_empty :
    (Native.text .split s).call [.text ""] = listOf (Text.characters s) := rfl

theorem TextMethod.run_contains : ((Native.text .contains s).call [.text separator]).run m =
    (.ok (.boolean (Text.contains s separator)), m) := rfl

/-- Texts are joined as they are. -/
theorem ListMethod.run_join (hitems : m.store.items l = (parts.map Value.text).toArray) {v : Value}
    (hv : (separatorText v).run m = (.ok separator, m)) :
    ((Native.list .join l).call [v]).run m = (.ok (.text (separator.intercalate parts)), m) := by
  have hshown : (m.store.items l).toList.map m.store.render = parts := by
    rw [hitems, List.toList_toArray, List.map_map]
    exact List.map_id parts
  show (separatorText v >>= _).run m = _
  rw [Step.run_bind_ok hv, ← hshown]
  rfl

end Methods

/-- **Splitting, joining, replacing and looking for a text agree.**  What is split at a separator
is put together again by joining with it, and no part contains it; joining with another text is
replacing by it; and the separator occurs in a text if and only if there is more than one part.  At
the empty separator a text is split into its characters, which are joined again by nothing. -/
theorem split_join_agree (s t separator : String) (m : Machine) :
    (separator ≠ "" → ∃ (l : ListId) (parts : List String) (m' : Machine),
      ((Native.text .split s).call [.text separator]).run m = (.ok (.list l), m') ∧
      m'.store.items l = (parts.map Value.text).toArray ∧
      ((Native.list .join l).call [.text separator]).run m' = (.ok (.text s), m') ∧
      (∀ part ∈ parts,
        ((Native.text .contains part).call [.text separator]).run m' = (.ok (.boolean false), m')) ∧
      (∃ joined,
        ((Native.list .join l).call [.text t]).run m' = (.ok (.text joined), m') ∧
        ((Native.text .replace s).call [.text separator, .text t]).run m' =
          (.ok (.text joined), m')) ∧
      ((Native.text .contains s).call [.text separator]).run m' =
        (.ok (.boolean (1 < parts.length)), m')) ∧
    (∃ (l : ListId) (m' : Machine),
      ((Native.text .split s).call [.text ""]).run m = (.ok (.list l), m') ∧
      m'.store.items l = (s.toList.map fun c => Value.text (String.singleton c)).toArray ∧
      ((Native.text .len s).call []).run m' = (.ok (.ofNat (m'.store.items l).size), m') ∧
      bindArgs (.native (.list .join l)) [] = .ok [.null] ∧
      ((Native.list .join l).call [.null]).run m' = (.ok (.text s), m')) := by
  refine ⟨fun h => ?_, ?_⟩
  · obtain ⟨l, m', hrun, hitems⟩ := TextMethod.run_listOf (Text.splitOn s separator) m
    refine ⟨l, Text.splitOn s separator, m', ?_, hitems, ?_, fun part hpart => ?_,
      ⟨Text.replace s separator t, ?_, rfl⟩, ?_⟩
    · rw [TextMethod.call_split h, hrun]
    · rw [ListMethod.run_join hitems rfl, Text.intercalate_splitOn h]
    · rw [TextMethod.run_contains, Text.contains_of_mem_splitOn h part hpart]
    · rw [ListMethod.run_join hitems rfl, Text.intercalate_splitOn_eq_replace h]
    · rw [TextMethod.run_contains, Text.contains_eq h]
  · obtain ⟨l, m', hrun, hitems⟩ := TextMethod.run_listOf (Text.characters s) m
    refine ⟨l, m', ?_, ?_, ?_, rfl, ?_⟩
    · rw [TextMethod.call_split_empty, hrun]
    · rw [hitems, Text.characters, List.map_map]
      rfl
    · rw [hitems, List.size_toArray, List.length_map, Text.characters, List.length_map,
        String.length_toList]
      rfl
    · rw [ListMethod.run_join hitems rfl, Text.intercalate_characters]

/-- Occurrences that overlap: of `aa` in `aaa`, the first one counts. -/
theorem overlapping_split_agrees :
    let m := Machine.start default .memory
    "aa" ≠ "" ∧ ∃ (l : ListId) (m' : Machine),
      ((Native.text .split "aaa").call [.text "aa"]).run m = (.ok (.list l), m') ∧
      m'.store.items l = #[.text "", .text "a"] ∧
      ((Native.list .join l).call [.text "aa"]).run m' = (.ok (.text "aaa"), m') := by
  intro m
  have hne : "aa" ≠ "" := by decide
  obtain ⟨l, _, m', hsplit, -, hjoin, -⟩ := (split_join_agree "aaa" "b" "aa" m).1 hne
  refine ⟨hne, l, m', hsplit, ?_, hjoin⟩
  have hparts : Text.splitOn "aaa" "aa" = ["", "a"] := by decide
  rw [TextMethod.call_split hne, hparts] at hsplit
  cases hsplit
  rfl

end BpScript
