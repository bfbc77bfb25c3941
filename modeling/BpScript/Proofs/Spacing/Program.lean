import BpScript.Proofs.Spacing.Production

/-!
# Blank lines in a program

A newline more at the start of a program, in front of its `eof` or next to another newline changes
nothing in the tree that is read, apart from places.  With one more newline the list of tokens is
still the same but for its runs of newlines (`AddsBlank.respaced`), so two such programs are read
side by side; and since the tokens end in `eof`, they are read as if nothing ever rewound.

* `AddsBlank` — the places where a newline may be added.
* `parse_congr_of_respaced` — programs whose tokens differ in runs of newlines.
* **`blank_lines_keep_tree`** — any number of newlines added to the tokens of a source.
-/

namespace BpScript

open Relation

/-! ## Adding newlines -/

/-- The second list is the first one with a newline more, at a place where there is a newline, or at
one of the two ends. -/
inductive AddsBlank : List Token → List Token → Prop where
  | first {blank : Token} {tokens : List Token} : blank.kind = .newline →
      AddsBlank tokens (blank :: tokens)
  | last {blank last : Token} {front : List Token} : blank.kind = .newline → last.kind = .eof →
      AddsBlank (front ++ [last]) (front ++ [blank, last])
  | ahead {blank newline : Token} {front rest : List Token} : blank.kind = .newline →
      newline.kind = .newline →
      AddsBlank (front ++ newline :: rest) (front ++ blank :: newline :: rest)
  | behind {blank newline : Token} {front rest : List Token} : blank.kind = .newline →
      newline.kind = .newline →
      AddsBlank (front ++ newline :: rest) (front ++ newline :: blank :: rest)

/-- The last token and no other is `eof`. -/
inductive Terminated : List Token → Prop where
  | last {last : Token} : last.kind = .eof → Terminated [last]
  | cons {token : Token} {rest : List Token} : token.kind ≠ .eof → Terminated rest →
      Terminated (token :: rest)

variable {s t : List Token} {token : Token}

namespace Terminated

theorem append {front : List Token} (hfront : ∀ a ∈ front, a.kind ≠ .eof) (h : Terminated s) :
    Terminated (front ++ s) := by
  induction front with
  | nil => exact h
  | cons a front ih =>
    exact .cons (hfront a List.mem_cons_self) (ih fun b hb => hfront b (List.mem_cons_of_mem a hb))

theorem ne_nil (h : Terminated s) : s ≠ [] := by
  rintro rfl
  cases h

theorem of_cons (h : Terminated (token :: s)) (hne : s ≠ []) :
    token.kind ≠ .eof ∧ Terminated s := by
  cases h with
  | last => exact absurd rfl hne
  | cons ha hrest => exact ⟨ha, hrest⟩

theorem tail (h : Terminated (token :: s)) (hne : token.kind ≠ .eof) : Terminated s := by
  cases h with
  | last heof => exact absurd heof hne
  | cons _ hrest => exact hrest

/-- What stands in front of a token of a terminated list is not `eof`. -/
theorem split : ∀ {front : List Token}, Terminated (front ++ token :: s) →
    (∀ a ∈ front, a.kind ≠ .eof) ∧ Terminated (token :: s)
  | [], h => ⟨nofun, h⟩
  | a :: front, h => by
    obtain ⟨ha, hrest⟩ := of_cons h (by simp)
    obtain ⟨hfront, hs⟩ := split hrest
    exact ⟨List.forall_mem_cons.2 ⟨ha, hfront⟩, hs⟩

theorem respaced (h : Terminated s) : Respaced s s := by
  induction h with
  | last heof => exact .ends (.eof heof) (.eof heof)
  | cons ha _ ih => exact ih.cons ha

theorem getLast_kind (h : Terminated s) : (s.getLast h.ne_nil).kind = .eof := by
  induction h with
  | last heof => exact heof
  | cons _ hrest ih =>
    rw [List.getLast_cons hrest.ne_nil]
    exact ih

end Terminated

theorem terminated_of_tokenize {source : Source} {tokens : List Token}
    (h : tokenize source = .ok tokens) : Terminated tokens := by
  obtain ⟨front, last, rfl, hfront, hlast⟩ := (orderly_of_tokenize h).closed
  exact .append hfront (.last hlast)

namespace AddsBlank

theorem terminated (h : AddsBlank s t) (hs : Terminated s) : Terminated t := by
  have hne : ∀ {a : Token}, a.kind = .newline → a.kind ≠ .eof := fun h => h.trans_ne (by decide)
  cases h with
  | first hblank => exact .cons (hne hblank) hs
  | last hblank hlast => exact .append hs.split.1 (.cons (hne hblank) (.last hlast))
  | ahead hblank hnewline =>
    obtain ⟨hfront, hs⟩ := hs.split
    exact .append hfront (.cons (hne hblank) hs)
  | behind hblank hnewline =>
    obtain ⟨hfront, hs⟩ := hs.split
    exact .append hfront (.cons (hne hnewline) (.cons (hne hblank) (hs.tail (hne hnewline))))

/-- A newline more makes a run longer, or it is one of those that a program starts with. -/
theorem respaced (h : AddsBlank s t) (hs : Terminated s) :
    Respaced (dropBlank s) (dropBlank t) := by
  cases h with
  | first hblank =>
    rw [dropBlank_newline hblank]
    exact hs.respaced.dropBlank
  | last hblank hlast =>
    exact (Respaced.append hs.split.1 (.ends (.eof hlast) (.blank hblank (.eof hlast)))).dropBlank
  | ahead hblank hnewline =>
    obtain ⟨hfront, hs⟩ := hs.split
    refine (Respaced.append hfront (.blank hnewline hblank ?_)).dropBlank
    rw [dropBlank_newline hnewline]
    exact (hs.tail (hnewline.trans_ne (by decide))).respaced.dropBlank
  | behind hblank hnewline =>
    obtain ⟨hfront, hs⟩ := hs.split
    refine (Respaced.append hfront (.blank hnewline hnewline ?_)).dropBlank
    rw [dropBlank_newline hblank]
    exact (hs.tail (hnewline.trans_ne (by decide))).respaced.dropBlank

end AddsBlank

/-! ## Reading -/

/-- Tokens that end in `eof` are read as if nothing ever rewound, and the bound is never too low. -/
theorem parse_of_terminated (hs : Terminated s) : ∃ (first : Token) (rest : List Token),
    s = first :: rest ∧ Node.parse s = (Rule.program false (.start first rest)).map (·.1) := by
  cases s with
  | nil => exact absurd rfl hs.ne_nil
  | cons first rest =>
    refine ⟨first, rest, rfl, ?_⟩
    show (Rule.program true (.start first rest)).map (·.1) = _
    cases Rule.program_same (c := .start first rest) ⟨rfl, hs.getLast_kind⟩ with
    | read hp hq => rw [hp, hq]
    | failed hp hq => rw [hp, hq]
    | stuck _ _ hfalse => exact hfalse.elim

/-- Programs that differ in their runs of newlines are read as trees of the same shape, or not at
all. -/
theorem parse_congr_of_respaced (hs : Terminated s) (ht : Terminated t)
    (h : Respaced (dropBlank s) (dropBlank t)) :
    (Node.parse s).toOption.map Node.erase = (Node.parse t).toOption.map Node.erase ∧
      Node.parse t ≠ .error .exhausted := by
  obtain ⟨first, rest, rfl, hparse⟩ := parse_of_terminated hs
  obtain ⟨first', rest', rfl, hparse'⟩ := parse_of_terminated ht
  rw [hparse, hparse']
  cases Rule.program_together (c := .start first rest) (d := .start first' rest') h with
  | read hp hq hshape =>
    rw [hp, hq]
    exact ⟨congrArg some hshape.node, nofun⟩
  | failed hp hq =>
    rw [hp, hq]
    exact ⟨rfl, nofun⟩

/-- Newlines may be added one after the other. -/
theorem parse_congr_of_addsBlank (hs : Terminated s) (h : ReflTransGen AddsBlank s t) :
    Terminated t ∧ (Node.parse s).toOption.map Node.erase = (Node.parse t).toOption.map Node.erase ∧
      Node.parse t ≠ .error .exhausted := by
  induction h with
  | refl => exact ⟨hs, rfl, (parse_congr_of_respaced hs hs hs.respaced.dropBlank).2⟩
  | tail _ hstep ih =>
    obtain ⟨hbefore, hsame, -⟩ := ih
    have hbehind := hstep.terminated hbefore
    obtain ⟨hsame', hbound⟩ :=
      parse_congr_of_respaced hbefore hbehind (hstep.respaced hbefore)
    exact ⟨hbehind, hsame.trans hsame', hbound⟩

/-- **Blank lines never matter.**  Newlines are added to the tokens of a source at its start, in
front of its `eof` or next to other newlines.  Then a tree is read from the new tokens just if one
is read from the old ones, and the two trees differ in their places only. -/
theorem blank_lines_keep_tree {source : Source} {tokens padded : List Token}
    (htokens : tokenize source = .ok tokens) (hpadded : ReflTransGen AddsBlank tokens padded) :
    ((∃ root, Node.parse padded = .ok root) ↔ ∃ root, Node.parse tokens = .ok root) ∧
      (∀ root root', Node.parse tokens = .ok root → Node.parse padded = .ok root' →
        root'.erase = root.erase) ∧
      Node.parse padded ≠ .error .exhausted := by
  obtain ⟨-, hsame, hbound⟩ := parse_congr_of_addsBlank (terminated_of_tokenize htokens) hpadded
  refine ⟨?_, fun root root' hroot hroot' => ?_, hbound⟩
  · cases htree : Node.parse tokens <;> cases htree' : Node.parse padded <;>
      simp_all [Except.toOption]
  · rw [hroot, hroot'] at hsame
    exact (Option.some.inj hsame).symm

/-- The newline inside the brackets of this list, behind its first three tokens, written twice. -/
theorem listed_names_keep_tree : ∃ (front rest : List Token) (newline : Token) (root root' : Node),
    tokenize ⟨"main", "[a,\nb]"⟩ = .ok (front ++ newline :: rest) ∧ front.length = 3 ∧
      newline.kind = .newline ∧ Node.parse (front ++ newline :: rest) = .ok root ∧
      Node.parse (front ++ newline :: newline :: rest) = .ok root' ∧ root'.erase = root.erase := by
  have hread : (tokenize ⟨"main", "[a,\nb]"⟩).toOption.any (fun tokens =>
      tokens[3]?.any (·.kind = .newline) && (Node.parse tokens).toOption.isSome) = true := by
    decide +kernel
  cases htokens : tokenize ⟨"main", "[a,\nb]"⟩ with
  | error e =>
    rw [htokens] at hread
    cases hread
  | ok tokens =>
    rw [htokens] at hread
    obtain ⟨hfourth, hparse⟩ := Bool.and_eq_true_iff.1 hread
    obtain ⟨newline, hget, hkind⟩ := Option.any_eq_true _ _ |>.1 hfourth
    have hnewline : newline.kind = .newline := of_decide_eq_true hkind
    obtain ⟨hlt, hnext⟩ := List.getElem?_eq_some_iff.1 hget
    have hsplit : tokens = tokens.take 3 ++ newline :: tokens.drop 4 := by
      rw [← hnext, ← List.drop_eq_getElem_cons hlt, List.take_append_drop]
    have hadd : AddsBlank tokens (tokens.take 3 ++ newline :: newline :: tokens.drop 4) := by
      nth_rewrite 1 [hsplit]
      exact .behind hnewline hnewline
    obtain ⟨hiff, htree, -⟩ := blank_lines_keep_tree htokens (.single hadd)
    obtain ⟨root, hroot⟩ : ∃ root, Node.parse tokens = .ok root := by
      cases hparsed : Node.parse tokens with
      | error e => simp [hparsed, Except.toOption] at hparse
      | ok root => exact ⟨root, rfl⟩
    obtain ⟨root', hroot'⟩ := hiff.2 ⟨root, hroot⟩
    refine ⟨tokens.take 3, tokens.drop 4, newline, root, root', congrArg _ hsplit, ?_, hnewline,
      hsplit ▸ hroot, hroot', htree _ _ hroot hroot'⟩
    rw [List.length_take]
    omega

end BpScript
