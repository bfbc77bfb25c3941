import BpScript.Proofs.Spacing

/-!
# Reading side by side

Two steps that start from cursors that are abreast are compared by what they read: both succeed,
with values that differ in their places only, or both fail.  They may fail with different errors,
since what stands at the end of the tokens may be a newline for one of them and `eof` for the other.

A step that always reads a token which is not a newline leaves less in front of it (`Consumes`).  So
from cursors at the end it cannot succeed, and where one cursor meets a newline that is missing from
the other list both go wrong: `Together.ifNewline`.

* `SameShape` — the same values, apart from places.
* `Parse.Together` — the comparison.
* `Parse.Consumes`, `Parse.ConsumesLoose` — steps that read something, from abreast and from loose
  cursors.
* `Together.bind`, `Together.ifAccept`, `Together.ifNewline`, … — sequences.
-/

namespace BpScript

open Parse

/-! ## Values -/

/-- Values that hold places of the source. -/
class Erasable (α : Type) where
  /-- The value without its places. -/
  erased : α → α

namespace Erasable

instance : Erasable Unit := ⟨id⟩

instance : Erasable Bool := ⟨id⟩

instance : Erasable Token := ⟨fun token => { token with span := default }⟩

instance : Erasable Ident := ⟨Ident.erase⟩

instance : Erasable Param := ⟨Param.erase⟩

instance : Erasable Node := ⟨Node.erase⟩

instance : Erasable Body := ⟨Body.erase⟩

variable {α β : Type} [Erasable α] [Erasable β]

instance : Erasable (List α) := ⟨List.map erased⟩

instance : Erasable (Option α) := ⟨Option.map erased⟩

instance : Erasable (α × β) := ⟨Prod.map erased erased⟩

end Erasable

/-- The same value, apart from places. -/
def SameShape {α : Type} [Erasable α] (a b : α) : Prop :=
  Erasable.erased a = Erasable.erased b

namespace SameShape

section Containers

variable {α β : Type} [Erasable α] [Erasable β] {a a' : α} {b b' : β} {as as' bs bs' : List α}

@[refl] theorem refl (a : α) : SameShape a a := rfl

theorem pair (ha : SameShape a a') (hb : SameShape b b') : SameShape (a, b) (a', b') :=
  congrArg₂ Prod.mk ha hb

theorem fst {p p' : α × β} (h : SameShape p p') : SameShape p.1 p'.1 :=
  congrArg Prod.fst h

theorem snd {p p' : α × β} (h : SameShape p p') : SameShape p.2 p'.2 :=
  congrArg Prod.snd h

theorem some (h : SameShape a a') : SameShape (some a) (some a') :=
  congrArg Option.some h

theorem isSome_eq {o o' : Option α} (h : SameShape o o') : o.isSome = o'.isSome := by
  have hmap : o.map Erasable.erased = o'.map Erasable.erased := h
  simpa using congrArg Option.isSome hmap

theorem cons (ha : SameShape a a') (has : SameShape as as') :
    SameShape (a :: as) (a' :: as') :=
  congrArg₂ List.cons ha has

theorem append (has : SameShape as as') (hbs : SameShape bs bs') :
    SameShape (as ++ bs) (as' ++ bs') := by
  show (as ++ bs).map _ = (as' ++ bs').map _
  rw [List.map_append, List.map_append]
  exact congrArg₂ _ has hbs

theorem length_eq (h : SameShape as as') : as.length = as'.length := by
  have hmap : as.map Erasable.erased = as'.map Erasable.erased := h
  simpa using congrArg List.length hmap

end Containers

variable {n n' : Node}

theorem bool {b b' : Bool} (h : SameShape b b') : b = b' := h

theorem ident {i i' : Ident} (h : SameShape i i') : i.erase = i'.erase := h

theorem node (h : SameShape n n') : n.erase = n'.erase := h

theorem body {b b' : Body} (h : SameShape b b') : b.erase = b'.erase := h

theorem ident? {o o' : Option Ident} (h : SameShape o o') :
    o.map Ident.erase = o'.map Ident.erase := h

theorem node? {o o' : Option Node} (h : SameShape o o') :
    o.map Node.erase = o'.map Node.erase := h

theorem body? {o o' : Option Body} (h : SameShape o o') :
    o.map Body.erase = o'.map Body.erase := h

theorem idents {as bs : List Ident} (h : SameShape as bs) :
    as.map Ident.erase = bs.map Ident.erase := h

theorem params {as bs : List Param} (h : SameShape as bs) :
    as.map Param.erase = bs.map Param.erase := h

theorem nodes {as bs : List Node} (h : SameShape as bs) : eraseNodes as = eraseNodes bs := by
  rw [eraseNodes_eq_map, eraseNodes_eq_map]
  exact h

theorem entries {as bs : List (Ident × Node)} (h : SameShape as bs) :
    eraseEntries as = eraseEntries bs := by
  rw [eraseEntries_eq_map, eraseEntries_eq_map]
  exact h

theorem arms {as bs : List (Node × Body)} (h : SameShape as bs) : eraseArms as = eraseArms bs := by
  rw [eraseArms_eq_map, eraseArms_eq_map]
  exact h

theorem cases {as bs : List (Node × Node)} (h : SameShape as bs) :
    eraseCases as = eraseCases bs := by
  rw [eraseCases_eq_map, eraseCases_eq_map]
  exact h

/-- Nodes with the same form have the same shape, wherever they were read from. -/
theorem mk {form form' : Form} {span span' : Span} (h : form.erase = form'.erase) :
    SameShape (Node.mk form span) (Node.mk form' span') :=
  congrArg (Node.mk · default) h

theorem form (h : SameShape n n') : n.form.erase = n'.form.erase := by
  rcases n with ⟨form, span⟩
  rcases n' with ⟨form', span'⟩
  exact (Node.mk.inj h).1

theorem withSpan {span span' : Span} (h : SameShape n n') :
    SameShape (n.withSpan span) (n'.withSpan span') :=
  mk h.form

theorem bodyMk (isBlock : Bool) (h : SameShape n n') :
    SameShape (Body.mk n isBlock) (Body.mk n' isBlock) :=
  congrArg (Body.mk · isBlock) h

theorem paramMk {i i' : Ident} (optional : Bool) (h : SameShape i i') :
    SameShape (Param.mk i optional) (Param.mk i' optional) :=
  congrArg (Param.mk · optional) h

/-! Tokens of the same shape have the same kind and hold the same text. -/

variable {t t' : Token}

theorem token (hkind : t.kind = t'.kind) (hlexeme : t.lexeme = t'.lexeme) : SameShape t t' := by
  show Token.mk t.kind default t.lexeme = Token.mk t'.kind default t'.lexeme
  rw [hkind, hlexeme]

theorem kind (h : SameShape t t') : t.kind = t'.kind :=
  (Token.mk.inj h).1

theorem lexeme (h : SameShape t t') : t.lexeme = t'.lexeme :=
  (Token.mk.inj h).2.2

theorem identOf (h : SameShape t t') :
    SameShape (Production.identOf t) (Production.identOf t') :=
  congrArg (Ident.mk · default) h.lexeme

end SameShape

/-! ## The comparison -/

namespace Parse

variable {α β : Type} [Erasable α] [Erasable β]

/-- One step read from `c` and one read from `d` end in the same way: both with values of the same
shape and cursors that `R` relates, or both with an error. -/
inductive Together (R : Cursor → Cursor → Prop) (c d : Cursor) (p q : Parse α) : Prop where
  | read {a b : α} {c' d' : Cursor} (hp : p c = .ok (a, c')) (hq : q d = .ok (b, d'))
    (hshape : SameShape a b) (h : R c' d')
  | failed {e e' : Diagnostic} (hp : p c = .error (.report e)) (hq : q d = .error (.report e'))

/-- From cursors that are abreast, both steps read at least one token that is not a newline. -/
def Consumes (n : Nat) (p q : Parse α) : Prop :=
  ∀ ⦃m : Nat⦄ ⦃c d : Cursor⦄, m ≤ n → c.Abreast m d → Together (Cursor.Abreast (m - 1)) c d p q

/-- The same, from cursors that may stand at different places of a run of newlines. -/
def ConsumesLoose (n : Nat) (p q : Parse α) : Prop :=
  ∀ ⦃m : Nat⦄ ⦃c d : Cursor⦄, m ≤ n → c.Loose m d → Together (Cursor.Abreast (m - 1)) c d p q

namespace Together

variable {n m : Nat} {c d : Cursor} {R S : Cursor → Cursor → Prop} {p q : Parse α}
  {k l : α → Parse β} {kind : TokenKind} {x y x' y' : Parse β}

theorem pure {a b : α} (hshape : SameShape a b) (h : R c d) : Together R c d (pure a) (pure b) :=
  .read rfl rfl hshape h

theorem fail {e e' : Diagnostic} : Together R c d (Parse.fail e : Parse α) (Parse.fail e') :=
  .failed rfl rfl

theorem failHere {fault fault' : SyntaxFault} :
    Together R c d (Parse.failHere fault : Parse α) (Parse.failHere fault') :=
  .failed rfl rfl

theorem failExpecting {kinds kinds' : List TokenKind} :
    Together R c d (Parse.failExpecting kinds : Parse α) (Parse.failExpecting kinds') :=
  failHere

theorem mono (h : Together R c d p q) (hR : ∀ c' d', R c' d' → S c' d') : Together S c d p q := by
  cases h with
  | read hp hq hshape h => exact .read hp hq hshape (hR _ _ h)
  | failed hp hq => exact .failed hp hq

theorem widen (h : Together (Cursor.Abreast m) c d p q) (hm : m ≤ n) :
    Together (Cursor.Abreast n) c d p q :=
  h.mono fun _ _ h' => h'.mono hm

/-- Having less room than a token takes, both steps fail. -/
theorem fails (h : Together (Cursor.Abreast 0) c d p q) :
    (∃ e, p c = .error (.report e)) ∧ ∃ e, q d = .error (.report e) := by
  cases h with
  | read _ _ _ h => exact absurd h.pos (Nat.lt_irrefl 0)
  | failed hp hq => exact ⟨⟨_, hp⟩, ⟨_, hq⟩⟩

/-! Sequences. -/

/-- After steps that succeed on both sides. -/
theorem bind_ok {γ δ : Type} {p : Parse γ} {q : Parse δ} {k : γ → Parse β} {l : δ → Parse β}
    {a : γ} {b : δ} {c' d' : Cursor} (hp : p c = .ok (a, c')) (hq : q d = .ok (b, d'))
    (h : Together R c' d' (k a) (l b)) : Together R c d (p >>= k) (q >>= l) := by
  cases h with
  | read hp' hq' hshape h =>
    exact .read ((run_bind_ok hp).trans hp') ((run_bind_ok hq).trans hq') hshape h
  | failed hp' hq' => exact .failed ((run_bind_ok hp).trans hp') ((run_bind_ok hq).trans hq')

theorem bind (h : Together R c d p q)
    (hkl : ∀ a b c' d', SameShape a b → R c' d' → Together S c' d' (k a) (l b)) :
    Together S c d (p >>= k) (q >>= l) := by
  cases h with
  | read hp hq hshape h => exact bind_ok hp hq (hkl _ _ _ _ hshape h)
  | failed hp hq => exact .failed (run_bind_error hp) (run_bind_error hq)

theorem map {f g : α → β} (h : Together R c d p q)
    (hfg : ∀ a b, SameShape a b → SameShape (f a) (g b)) :
    Together R c d (f <$> p) (g <$> q) := by
  rw [map_eq_pure_bind, map_eq_pure_bind]
  exact h.bind fun a b _ _ hshape hR => pure (hfg a b hshape) hR

theorem discard (h : Together R c d p q) : Together R c d (discard p) (discard q) := by
  rw [Functor.discard, LawfulFunctor.map_const, Functor.discard, LawfulFunctor.map_const]
  exact h.map fun _ _ _ => .refl ()

/-- A choice between two steps whose values are used in the same way. -/
theorem bind_ite {b b' : Prop} [Decidable b] [Decidable b'] {x y x' y' : Parse α} (hb : b ↔ b')
    (hx : b → Together R c d x x') (hy : ¬b → Together R c d y y')
    (hkl : ∀ a b c' d', SameShape a b → R c' d' → Together S c' d' (k a) (l b)) :
    Together S c d (if b then x >>= k else y >>= k) (if b' then x' >>= l else y' >>= l) := by
  by_cases hcond : b
  · rw [if_pos hcond, if_pos (hb.1 hcond)]
    exact (hx hcond).bind hkl
  · rw [if_neg hcond, if_neg fun h => hcond (hb.2 h)]
    exact (hy hcond).bind hkl

/-! Looking at the cursor leaves it alone. -/

theorem bind_get {k l : Cursor → Parse β} (h : Together R c d (k c) (l d)) :
    Together R c d (get >>= k) (get >>= l) :=
  bind_ok rfl rfl h

theorem bind_set {c' d' : Cursor} (h : Together R c' d' x x') :
    Together R c d (do set c'; x) (do set d'; x') :=
  bind_ok rfl rfl h

theorem bind_peek {k l : Token → Parse β} (h : Together R c d (k c.current) (l d.current)) :
    Together R c d (peek >>= k) (peek >>= l) :=
  bind_ok rfl rfl h

/-- Going on by the kind of the current token, in a way that does not tell newlines and `eof`
apart. -/
theorem bind_peekKind {k l : TokenKind → Parse β} (h : c.Abreast n d) (hl : l .newline = l .eof)
    (hkl : Together R c d (k c.current.kind) (l c.current.kind)) :
    Together R c d (peekKind >>= k) (peekKind >>= l) := by
  refine bind_ok rfl rfl ?_
  rw [← h.congr hl]
  exact hkl

/-- The same for a token that is looked at as a whole. -/
theorem bind_peekAt {k l : Token → Parse β} (h : c.Abreast n d)
    (hl : ∀ span lexeme, l ⟨.newline, span, lexeme⟩ = l ⟨.eof, span, lexeme⟩)
    (hkl : Together R c d (k c.current) (l ⟨c.current.kind, d.current.span, d.current.lexeme⟩)) :
    Together R c d (peek >>= k) (peek >>= l) := by
  refine bind_peek ?_
  have hsame := h.congr (φ := fun kind => l ⟨kind, d.current.span, d.current.lexeme⟩) (hl _ _)
  rw [← hsame]
  exact hkl

/-- The last step of a production: its node with the stretch of source it was read from. -/
theorem spanned {first first' : Span} {f f' : Span → α}
    (hshape : ∀ span span', SameShape (f span) (f' span')) (h : R c d) :
    Together R c d (do return f (← spanFrom first)) (do return f' (← spanFrom first')) :=
  .read rfl rfl (hshape _ _) h

/-! Moving on takes a token that is the same on both sides. -/

theorem advance (h : c.Abreast n d) (hsolid : c.current.kind.IsSolid) :
    Together (Cursor.Abreast (n - 1)) c d advance advance := by
  obtain ⟨hkind, hlexeme, hadvance⟩ := h.solid_token hsolid
  exact .read rfl rfl (.token hkind hlexeme) hadvance

theorem bind_discard_advance (h : Together R c.advance d.advance x x') :
    Together R c d (do Functor.discard Parse.advance; x) (do Functor.discard Parse.advance; x') :=
  bind_ok rfl rfl h

theorem bind_advance (h : c.Abreast n d) (hsolid : c.current.kind.IsSolid)
    (hx : ∀ c' d', c'.Abreast (n - 1) d' → Together R c' d' x x') :
    Together R c d (do Functor.discard Parse.advance; x)
      (do Functor.discard Parse.advance; x') :=
  bind_discard_advance (hx _ _ (h.solid_token hsolid).2.2)

/-- A choice by the kind of the current token.  If it is the one that is accepted, the step goes on
behind it. -/
theorem ifAccept (h : c.Abreast n d) (hk : kind.IsSolid)
    (hyes : ∀ c' d', c'.Abreast (n - 1) d' → Together R c' d' x x')
    (hno : Together R c d y y') :
    Together R c d (do if ← Parse.accept kind then x else y)
      (do if ← Parse.accept kind then x' else y') := by
  by_cases hkind : c.current.kind = kind
  · refine bind_ok (accept_of_eq hkind) (accept_of_eq ((h.kind_iff hk).1 hkind)) ?_
    exact hyes _ _ (h.solid_token (hkind ▸ hk)).2.2
  · have hkind' : d.current.kind ≠ kind := fun hd => hkind ((h.kind_iff hk).2 hd)
    exact bind_ok (accept_of_ne hkind) (accept_of_ne hkind') hno

theorem accept (h : c.Abreast n d) (hk : kind.IsSolid) :
    Together (Cursor.Abreast n) c d (Parse.accept kind) (Parse.accept kind) := by
  by_cases hkind : c.current.kind = kind
  · refine .read (accept_of_eq hkind) (accept_of_eq ((h.kind_iff hk).1 hkind)) (.refl true) ?_
    exact (h.solid_token (hkind ▸ hk)).2.2.mono (Nat.sub_le n 1)
  · have hkind' : d.current.kind ≠ kind := fun hd => hkind ((h.kind_iff hk).2 hd)
    exact .read (accept_of_ne hkind) (accept_of_ne hkind') (.refl false) h

theorem expectAmong {kinds kinds' : List TokenKind} (h : c.Abreast n d) (hk : kind.IsSolid) :
    Together (Cursor.Abreast (n - 1)) c d (Parse.expectAmong kind kinds)
      (Parse.expectAmong kind kinds') := by
  refine bind_peekKind h (by rw [if_neg hk.1.symm, if_neg hk.2.symm]) ?_
  split
  · next hkind => exact advance h (hkind ▸ hk)
  · exact failExpecting

/-- Moving past a token that has to be there. -/
theorem bind_expect {kinds kinds' : List TokenKind} (h : c.Abreast n d) (hk : kind.IsSolid)
    (hx : ∀ c' d', c'.Abreast (n - 1) d' → Together R c' d' x x') :
    Together R c d (do Functor.discard (Parse.expectAmong kind kinds); x)
      (do Functor.discard (Parse.expectAmong kind kinds'); x') :=
  (expectAmong h hk).discard.bind fun _ _ c' d' _ => hx c' d'

/-- Skipping newlines, however many there are on either side. -/
theorem bind_skipNewlines (h : c.Loose n d)
    (hx : ∀ c' d', c'.Facing n d' → Together R c' d' x x') :
    Together R c d (do Functor.discard Parse.skipNewlines; x)
      (do Functor.discard Parse.skipNewlines; x') :=
  bind_ok rfl rfl (hx _ _ h.behindNewlines)

end Together

/-! ## Newlines

At the end a newline may be missing from one of the lists, but a step that has to read something is
of no use there.
-/

variable {n : Nat} {c d : Cursor} {p q : Parse α}

/-- What has to read something fails at the end. -/
theorem Consumes.fails (h : Consumes n p q) (hn : 0 < n) (hc : c.Ended) :
    (∃ e, p c = .error (.report e)) ∧ ∃ e, q c = .error (.report e) :=
  (h hn (.ended hc hc Nat.one_pos)).fails

theorem ConsumesLoose.fails (h : ConsumesLoose n p q) (hn : 0 < n) (hc : c.Ended) :
    (∃ e, p c = .error (.report e)) ∧ ∃ e, q c = .error (.report e) :=
  (h hn (Cursor.Abreast.ended hc hc Nat.one_pos).loose).fails

theorem Consumes.mono {m : Nat} (h : Consumes n p q) (hm : m ≤ n) : Consumes m p q :=
  fun _ _ _ hle => h (hle.trans hm)

omit [Erasable α] in
/-- Whatever is chosen at the end fails. -/
theorem fails_ifNewline {x y : Parse α} (hc : c.Ended)
    (hx : ∀ c' : Cursor, c'.Ended → ∃ e, x c' = .error (.report e))
    (hy : ∃ e, y c = .error (.report e)) :
    ∃ e, (do if ← accept .newline then x else y : Parse α) c = .error (.report e) := by
  by_cases hkind : c.current.kind = .newline
  · rw [run_bind_ok (accept_of_eq hkind)]
    exact hx _ (hc.advance hkind)
  · rw [run_bind_ok (accept_of_ne hkind)]
    exact hy

namespace Together

variable {R : Cursor → Cursor → Prop} {x y x' y' : Parse α}

theorem of_fails (hp : ∃ e, p c = .error (.report e)) (hq : ∃ e, q d = .error (.report e)) :
    Together R c d p q := by
  obtain ⟨_, hp⟩ := hp
  obtain ⟨_, hq⟩ := hq
  exact .failed hp hq

/-- A choice by whether a newline is next, which is moved past. -/
theorem ifNewline (h : c.Abreast n d) (hx : ConsumesLoose n x x') (hy : Consumes n y y') :
    Together (Cursor.Abreast (n - 1)) c d (do if ← Parse.accept .newline then x else y)
      (do if ← Parse.accept .newline then x' else y') := by
  rcases h.newline_cases with ⟨hc, hd⟩ | ⟨hc, hd, hadvance⟩ | ⟨hc, hd⟩
  · refine of_fails (fails_ifNewline hc (fun c' hc' => (hx.fails h.pos hc').1) ?_)
      (fails_ifNewline hd (fun d' hd' => (hx.fails h.pos hd').2) ?_)
    · exact (hy.fails h.pos hc).1
    · exact (hy.fails h.pos hd).2
  · exact bind_ok (accept_of_eq hc) (accept_of_eq hd) (hx (Nat.le_refl n) hadvance)
  · exact bind_ok (accept_of_ne hc) (accept_of_ne hd) (hy (Nat.le_refl n) h)

/-- A choice by whether a newline is next, which is left alone. -/
theorem ifNewlineAhead (h : c.Abreast n d) (hx : ConsumesLoose n x x') (hy : Consumes n y y') :
    Together (Cursor.Abreast (n - 1)) c d (do if (← peekKind) = .newline then x else y)
      (do if (← peekKind) = .newline then x' else y') := by
  refine bind_ok rfl rfl ?_
  rcases h.newline_cases with ⟨hc, hd⟩ | ⟨hc, hd, -⟩ | ⟨hc, hd⟩
  · refine of_fails ?_ ?_
    · split
      · exact (hx.fails h.pos hc).1
      · exact (hy.fails h.pos hc).1
    · split
      · exact (hx.fails h.pos hd).2
      · exact (hy.fails h.pos hd).2
  · rw [if_pos hc, if_pos hd]
    exact hx (Nat.le_refl n) h.loose
  · rw [if_neg hc, if_neg hd]
    exact hy (Nat.le_refl n) h

/-- Going on behind newlines, of which there has to be one. -/
theorem ifNewlines {kinds : List TokenKind} (h : c.Abreast n d) (hx : Consumes n x x') :
    Together (Cursor.Abreast (n - 1)) c d
      (do if (← skipNewlines) = 0 then Parse.failExpecting kinds else x)
      (do if (← skipNewlines) = 0 then Parse.failExpecting kinds else x') := by
  refine bind_ok rfl rfl ?_
  rcases h.newline_cases with ⟨hc, hd⟩ | ⟨hc, hd, -⟩ | ⟨hc, hd⟩
  · refine of_fails ?_ ?_
    · split
      · exact ⟨_, rfl⟩
      · exact (hx.fails h.pos hc.behindNewlines.1).1
    · split
      · exact ⟨_, rfl⟩
      · exact (hx.fails h.pos hd.behindNewlines.1).2
  · rw [if_neg fun hzero => Cursor.newlines_eq_zero_iff.1 hzero hc,
      if_neg fun hzero => Cursor.newlines_eq_zero_iff.1 hzero hd]
    exact hx (Nat.le_refl n) h.loose.behindNewlines.toAbreast
  · rw [if_pos (Cursor.newlines_eq_zero hc), if_pos (Cursor.newlines_eq_zero hd)]
    exact failExpecting

end Together
end Parse
end BpScript
