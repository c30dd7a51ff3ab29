import Mathlib.Data.List.TakeWhile
import ScriptFront.Proofs.Lockstep.Whole

namespace ScriptFront.Script

open ScriptFront.Parser

/-- Tokens of which exactly those of the kinds of layout carry its tag, without a slash that could
open a regular expression. Inside of one layout is text, and may not be exchanged. -/
structure Tame (tokens : List (Token TokenKind)) : Prop where
  marked : ∀ token ∈ tokens, token.isSpace = true ↔ token.kind ∈ layoutKinds
  noSlash : ∀ token ∈ tokens, token.kind ≠ .slash

/-- Two runs of layout that a parse does not tell apart: both are empty or none is, and both begin
with a line break or none does. What begins with a line break matters only to a comment that ends
there. -/
structure SameGap (gap gap' : List (Token TokenKind)) : Prop where
  layout : ∀ token ∈ gap, token.isSpace = true
  layout' : ∀ token ∈ gap', token.isSpace = true
  empty : gap = [] ↔ gap' = []
  lineBreak : firstKind gap = some .lineBreak ↔ firstKind gap' = some .lineBreak

/-- Two lists of tokens that agree up to the extents of the tokens and up to the layout in
the gaps: before the first of the other tokens, between two neighbours, and after the last. -/
inductive Relaid : List (Token TokenKind) → List (Token TokenKind) → Prop
  | last {gap gap'} : SameGap gap gap' → Relaid gap gap'
  | token {gap gap' x y rest rest'} : SameGap gap gap' → x.isSpace = false → x.piece = y.piece →
      Relaid rest rest' → Relaid (gap ++ x :: rest) (gap' ++ y :: rest')

/-- What two such lists begin with. -/
inductive SameFront : List (Token TokenKind) → List (Token TokenKind) → Prop
  | ended : SameFront [] []
  | token {x y rest rest'} : x.isSpace = false → x.piece = y.piece → Relaid rest rest' →
      SameFront (x :: rest) (y :: rest')
  | layout {x y rest rest'} : x.isSpace = true → y.isSpace = true →
      (x.kind = .lineBreak ↔ y.kind = .lineBreak) → SameFront (x :: rest) (y :: rest')

section Lists

variable {l l' : List (Token TokenKind)} {kind : TokenKind}

/-- Fewer tokens are as tame, so the property goes along as a parse goes on. -/
theorem Tame.subset (tame : Tame l) (fewer : l' ⊆ l) : Tame l' where
  marked token member := tame.marked token (fewer member)
  noSlash token member := tame.noSlash token (fewer member)

theorem SameGap.nil : SameGap [] [] := ⟨by simp, by simp, by simp, by simp⟩

/-- What two lists laid out alike begin with can be read off: nothing, the same token, or layout
that is a line break in both or in neither. -/
theorem Relaid.front (relaid : Relaid l l') : SameFront l l' := by
  have gaps {x y : Token TokenKind} {gap gap' rest rest' : List (Token TokenKind)}
      (same : SameGap (x :: gap) (y :: gap')) : SameFront (x :: rest) (y :: rest') := by
    refine .layout (same.layout x (by simp)) (same.layout' y (by simp)) ?_
    simpa [firstKind] using same.lineBreak
  cases relaid with
  | last same =>
    cases l with
    | nil =>
      rw [same.empty.mp rfl]
      exact .ended
    | cons x gap =>
      cases l' with
      | nil => cases same.empty.mpr rfl
      | cons y gap' => exact gaps same
  | @token gap gap' x y rest rest' same solid alike others =>
    cases gap with
    | nil =>
      rw [same.empty.mp rfl]
      exact .token solid alike others
    | cons x gap =>
      cases gap' with
      | nil => cases same.empty.mpr rfl
      | cons y gap' => exact gaps same

/-- Both sides go over all layout, and over some other tokens if they like. -/
theorem Relaid.skip {test : Token TokenKind → Bool}
    (equal : ∀ {x y : Token TokenKind}, x.piece = y.piece → test x = test y)
    (space : ∀ {x : Token TokenKind}, x.isSpace = true → test x = true) (relaid : Relaid l l') :
    Relaid (l.dropWhile test) (l'.dropWhile test) := by
  induction relaid with
  | @last gap gap' same =>
    have skipped := List.dropWhile_eq_nil_iff.mpr fun token member => space (same.layout token member)
    have skipped' := List.dropWhile_eq_nil_iff.mpr fun token member => space (same.layout' token member)
    rw [skipped, skipped']
    exact .last .nil
  | @token gap gap' x y rest rest' same solid alike others ih =>
    rw [List.dropWhile_append_of_pos fun token member => space (same.layout token member),
      List.dropWhile_append_of_pos fun token member => space (same.layout' token member),
      List.dropWhile_cons, List.dropWhile_cons, ← equal alike]
    split
    · exact ih
    · exact .token .nil solid alike others

/-- Which token stands first shows on both sides, unless it is layout. -/
theorem SameFront.firstKind_eq (front : SameFront l l') (tame : Tame l) (tame' : Tame l')
    (solid : kind ∉ layoutKinds) : (firstKind l == some kind) = (firstKind l' == some kind) := by
  cases front with
  | ended => rfl
  | token _ alike => exact congrArg (fun piece => some piece.kind == some kind) alike
  | @layout x y _ _ first second =>
    have differs {token : Token TokenKind} (layout : token.kind ∈ layoutKinds) :
        (some token.kind == some kind) = false := by
      have other : token.kind ≠ kind := fun equal => solid (equal ▸ layout)
      simpa using other
    have here := differs ((tame.marked x (by simp)).mp first)
    have here' := differs ((tame'.marked y (by simp)).mp second)
    exact here.trans here'.symm

/-- So does whether a line break stands first. -/
theorem SameFront.lineBreak_eq (front : SameFront l l') :
    (firstKind l == some .lineBreak) = (firstKind l' == some .lineBreak) := by
  cases front with
  | ended => rfl
  | token _ alike => exact congrArg (fun piece => some piece.kind == some .lineBreak) alike
  | layout _ _ both => simpa [firstKind] using both

theorem arrowBehind_gap {gap rest : List (Token TokenKind)} (depth : Nat)
    (layout : ∀ token ∈ gap, token.kind ∈ layoutKinds) :
    arrowBehind depth (gap ++ rest) = arrowBehind depth rest := by
  induction gap with
  | nil => rfl
  | cons token gap ih =>
    obtain ⟨here, others⟩ := List.forall_mem_cons.mp layout
    rw [List.cons_append, arrowBehind]
    split
    · rename_i ofKind
      exact absurd (ofKind ▸ here) (by decide)
    · rename_i ofKind
      exact absurd (ofKind ▸ here) (by decide)
    · exact ih others

/-- Whether an arrow stands behind the parentheses that are open does not depend on layout. -/
theorem Relaid.arrowBehind_eq (relaid : Relaid l l') (tame : Tame l) (tame' : Tame l')
    (depth : Nat) : arrowBehind depth l = arrowBehind depth l' := by
  induction relaid generalizing depth with
  | @last gap gap' same =>
    rw [← List.append_nil gap, ← List.append_nil gap',
      arrowBehind_gap depth fun token member =>
        (tame.marked token member).mp (same.layout token member),
      arrowBehind_gap depth fun token member =>
        (tame'.marked token member).mp (same.layout' token member)]
  | @token gap gap' x y rest rest' same solid alike others ih =>
    have inGap : gap ⊆ gap ++ x :: rest := List.subset_append_left _ _
    have inGap' : gap' ⊆ gap' ++ y :: rest' := List.subset_append_left _ _
    have behind : Tame rest := tame.subset (by simp)
    have behind' : Tame rest' := tame'.subset (by simp)
    have kinds : x.kind = y.kind := congrArg (·.kind) alike
    rw [arrowBehind_gap depth fun token member =>
        (tame.marked token (inGap member)).mp (same.layout token member),
      arrowBehind_gap depth fun token member =>
        (tame'.marked token (inGap' member)).mp (same.layout' token member),
      arrowBehind, arrowBehind, ← kinds]
    split
    · exact ih behind behind' (depth + 1)
    · split
      · rw [head?_any_kind, head?_any_kind]
        refine (others.skip isSpace_eq id).front.firstKind_eq ?_ ?_ (by decide)
        · exact behind.subset (List.dropWhile_suffix _).subset
        · exact behind'.subset (List.dropWhile_suffix _).subset
      · exact ih behind behind' (depth - 1)
    · exact ih behind behind' depth

end Lists

/-- Where a line break is seen the token is layout. A comment to the end of its line is the one rule
that asks for it. -/
theorem layout_of_lineBreak {s : State} (tame : Tame s.rest) (there : s.is .lineBreak = true) :
    ∃ token, s.current = some token ∧ token.isSpace = true := by
  obtain ⟨token, current, ofKind⟩ := s.current_of_is there
  have member : token ∈ s.rest := List.mem_of_mem_head? (Option.mem_def.mpr current)
  exact ⟨token, current, (tame.marked token member).mpr (ofKind ▸ by decide)⟩

/-- The cursors of two parses whose tokens are laid out differently. They may stand in the middle of
a gap, and not at the same place of it, but outside of gaps they stand at the same token. -/
structure Alike (tokens : List (Token TokenKind)) (s s' : State) : Prop where
  relaid : Relaid s.rest s'.rest
  subset : s.rest ⊆ tokens
  tame : Tame s.rest
  tame' : Tame s'.rest
  found : s.properties = s'.properties

namespace Alike

variable {tokens : List (Token TokenKind)} {s s' : State} {kind : TokenKind}

/-- Skipping by a test that layout passes brings both cursors past their gaps, to places that are
alike again. -/
theorem skip {test : Token TokenKind → Bool}
    (equal : ∀ {x y : Token TokenKind}, x.piece = y.piece → test x = test y)
    (space : ∀ {x : Token TokenKind}, x.isSpace = true → test x = true)
    (alike : Alike tokens s s') : Alike tokens (s.skipWhile test) (s'.skipWhile test) where
  relaid := alike.relaid.skip equal space
  subset := List.Subset.trans (List.dropWhile_suffix test).subset alike.subset
  tame := alike.tame.subset (List.dropWhile_suffix test).subset
  tame' := alike.tame'.subset (List.dropWhile_suffix test).subset
  found := alike.found

/-- A kind that is no layout kind is seen by both cursors or by neither. -/
theorem is_eq (alike : Alike tokens s s') (solid : kind ∉ layoutKinds) : s.is kind = s'.is kind :=
  alike.relaid.front.firstKind_eq alike.tame alike.tame' solid

/-- Both cursors see what the rules look for, so the walk over the grammar may use them. -/
theorem sight (alike : Alike tokens s s') (ends : List TokenKind) :
    Sight True ends s.rest s'.rest := by
  obtain ⟨relaid, -, tame, tame', -⟩ := alike
  have front := relaid.front
  generalize s.rest = l at front tame
  generalize s'.rest = l' at front tame'
  cases front with
  | ended => exact .ended
  | token _ same => exact .same same
  | @layout x y _ _ first second =>
    exact .layout first second ((tame.marked x (by simp)).mp first)
      ((tame'.marked y (by simp)).mp second)

/-- Behind a token that is no layout the tokens are laid out alike again. -/
theorem next (alike : Alike tokens s s') {token : Token TokenKind}
    (current : s.current = some token) (solid : token.isSpace = false) :
    Alike tokens s.next s'.next := by
  obtain ⟨relaid, subset, tame, tame', found⟩ := alike
  obtain ⟨before, rest, properties⟩ := s
  obtain ⟨before', rest', properties'⟩ := s'
  have front := relaid.front
  dsimp only at front
  cases front with
  | ended => cases current
  | token _ _ others =>
    have fewer {z : Token TokenKind} {l : List (Token TokenKind)} : l ⊆ z :: l :=
      List.subset_cons_self _ _
    exact ⟨others, List.Subset.trans fewer subset, tame.subset fewer, tame'.subset fewer, found⟩
  | layout first =>
    cases current
    rw [first] at solid
    cases solid

/-- A token that is taken for itself is no layout. -/
theorem solid_of_free (alike : Alike tokens s s') {token : Token TokenKind}
    (current : s.current = some token) (free : token.kind ∉ rawKinds ∨ token.tag = some .word) :
    token.isSpace = false := by
  rcases free with solid | word
  · have member : token ∈ s.rest := List.mem_of_mem_head? (Option.mem_def.mpr current)
    have unmarked := (alike.tame.marked token member).not.mpr (not_layout_of_not_raw solid)
    simpa using unmarked
  · simp [Token.isSpace, Token.hasTag, word]

/-- Where both stand at the same token both may go over it. -/
theorem next_of_kind (alike : Alike tokens s s') (atKind : s.currentKind = some kind)
    (solid : kind ∉ layoutKinds) : Alike tokens s.next s'.next := by
  obtain ⟨token, current, ofKind⟩ := Option.map_eq_some_iff.mp atKind
  have member : token ∈ s.rest := List.mem_of_mem_head? (Option.mem_def.mpr current)
  have unmarked := (alike.tame.marked token member).not.mpr (ofKind ▸ solid)
  exact alike.next current (by simpa using unmarked)

theorem no_slash (alike : Alike tokens s s') : s.currentKind ≠ some .slash := by
  intro atKind
  obtain ⟨token, current, ofKind⟩ := Option.map_eq_some_iff.mp atKind
  exact alike.tame.noSlash token (List.mem_of_mem_head? (Option.mem_def.mpr current)) ofKind

/-- The token behind the current one is looked for past layout, so both see the same. -/
theorem followedBy_eq (alike : Alike tokens s s') (solid : kind ∉ layoutKinds) :
    followedBy kind s = followedBy kind s' := by
  obtain ⟨relaid, -, tame, tame', -⟩ := alike
  have skipped {l l' : List (Token TokenKind)} (relaid : Relaid l l') (tame : Tame l)
      (tame' : Tame l') : (firstKind (l.dropWhile Token.isSpace) == some kind) =
        (firstKind (l'.dropWhile Token.isSpace) == some kind) :=
    (relaid.skip isSpace_eq id).front.firstKind_eq
      (tame.subset (List.dropWhile_suffix _).subset)
      (tame'.subset (List.dropWhile_suffix _).subset) solid
  have whole := skipped relaid tame tame'
  have front := relaid.front
  unfold followedBy
  generalize s.rest = l at front tame whole
  generalize s'.rest = l' at front tame' whole
  cases front with
  | ended => rfl
  | token _ _ others =>
    dsimp only
    rw [head?_any_kind, head?_any_kind]
    exact skipped others (tame.subset (List.subset_cons_self _ _))
      (tame'.subset (List.subset_cons_self _ _))
  | layout first second =>
    rw [List.dropWhile_cons_of_pos first, List.dropWhile_cons_of_pos second] at whole
    dsimp only
    rw [head?_any_kind, head?_any_kind]
    exact whole

theorem nil_iff (alike : Alike tokens s s') : s.rest = [] ↔ s'.rest = [] := by
  have front := alike.relaid.front
  generalize s.rest = l at front
  generalize s'.rest = l' at front
  cases front <;> simp

theorem esm (alike : Alike tokens s s') : Alike tokens
    { s with properties := { s.properties with sourceType := .esm } }
    { s' with properties := { s'.properties with sourceType := .esm } } where
  relaid := alike.relaid
  subset := alike.subset
  tame := alike.tame
  tame' := alike.tame'
  found := by rw [alike.found]

end Alike

section Instance

variable (tokens : List (Token TokenKind))

/-- Two parses whose tokens are laid out differently; they end together. The three relations of a
lockstep are one here, since a gap is the same to both whether it was skipped or not. -/
def relaying : Lockstep where
  strict := True
  tokens := tokens
  near := Alike tokens
  ready := Alike tokens
  far := Alike tokens
  near_of_ready := id
  far_of_near := id
  near_of_far far _ := far
  mem near x member := near.subset member
  sight near := near.sight _
  sight_ready ready := ready.sight _
  is_else far := far.is_eq (by decide)
  trim_ready near := near.skip isSpace_eq id
  trim_far far := far.skip isSpace_eq id
  skip_far far := far.skip isSeparator_eq isSeparator_of_isSpace
  next_near near current free := near.next current (near.solid_of_free current free)
  followedBy_eq near _ free := near.followedBy_eq (not_layout_of_not_raw (not_raw_of_not_gap free))
  arrowFollows_eq near _ := near.relaid.arrowBehind_eq near.tame near.tame' 0
  esm_near near := near.esm

variable {tokens} {lost : Prop}

/-- The end of a comment's line: either both have a line break to take or both are at the end. -/
theorem lineEnd_relaid {a b : Tree} (same : SameTree a b) :
    (relaying tokens).Within lost (Alike tokens) (Alike tokens) SameTree
      (Lockstep.lineEnd a) (Lockstep.lineEnd b) := by
  refine Lockstep.within_of_agree fun {s s'} alike => ?_
  have skipped := alike.skip isSpace_eq id
  by_cases ended : s.rest = []
  · rw [Lockstep.lineEnd_nil a ended, Lockstep.lineEnd_nil b (alike.nil_iff.mp ended)]
    exact ⟨same, skipped⟩
  have equal : s.is .lineBreak = s'.is .lineBreak := alike.relaid.front.lineBreak_eq
  cases there : s.is .lineBreak with
  | true =>
    obtain ⟨x, current, layout⟩ := layout_of_lineBreak alike.tame there
    obtain ⟨y, current', layout'⟩ := layout_of_lineBreak alike.tame' (equal ▸ there)
    rw [Lockstep.lineEnd_lineBreak a there, Lockstep.lineEnd_lineBreak b (equal ▸ there),
      skipWhile_next current layout, skipWhile_next current' layout']
    exact ⟨same, skipped⟩
  | false =>
    rw [Lockstep.lineEnd_fails a ended there,
      Lockstep.lineEnd_fails b (alike.nil_iff.not.mp ended) (equal ▸ there)]
    refine ⟨anchored_error s (Complaint.message_ne nofun), fun _ => ⟨_, s', rfl, ?_⟩⟩
    rw [text_error, text_error]

/-- The leaves of the grammar, where tokens are taken, keep the two parses alike. All other rules
follow from these. -/
theorem relaying_leaves : (relaying tokens).Leaves where
  blockComment := Lockstep.blockComment_within fun here => here.1.next_of_kind here.2 (by decide)
  lineComment := Lockstep.lineComment_within (fun here => here.1.next_of_kind here.2 (by decide)) id
    (fun alike atText => alike.next_of_kind atText (by decide)) lineEnd_relaid
  regExpLiteral := Lockstep.within_of_agree fun here => absurd here.2 here.1.no_slash

/-- Two parses that come to the same: the same properties and statements that differ at most
in their extents, or complaints with the same wording. -/
def SameOutcome : Except ParseError (Program Tree Properties) →
    Except ParseError (Program Tree Properties) → Prop
  | .ok program, .ok program' =>
    program.properties = program'.properties ∧ SameTrees program.body program'.body
  | .error e, .error e' => e.text = e'.text
  | _, _ => False

/-- How a program is laid out does not matter: blanks may be written for blanks wherever
there are some, as long as a run of them that begins with a line break still does. -/
theorem produce_relaid {tokens tokens' : List (Token TokenKind)} (relaid : Relaid tokens tokens')
    (tame : Tame tokens) (tame' : Tame tokens') (options : Options) :
    SameOutcome (produce tokens options) (produce tokens' options) := by
  have start : Alike tokens (State.ofTokens tokens options) (State.ofTokens tokens' options) :=
    ⟨relaid, List.Subset.refl _, tame, tame', rfl⟩
  have agree :=
    Lockstep.Within.agree (Lockstep.statementList_within relaying_leaves trivial) start
  unfold produce
  rw [grammar_produce_eq]
  cases run : statementList (State.ofTokens tokens options) with
  | ok body t =>
    rw [run] at agree
    cases run' : statementList (State.ofTokens tokens' options) with
    | error e' u =>
      rw [run'] at agree
      exact agree.elim
    | ok body' u =>
      rw [run'] at agree
      rw [bind_ok run, bind_ok run']
      exact ⟨agree.2.found, agree.1⟩
  | error e t =>
    rw [run] at agree
    obtain ⟨e', u, run', wording⟩ := agree.2 trivial
    rw [bind_error run, bind_error run']
    exact wording.symm

/-- A word of which the place does not matter. -/
def bareWord (kind : TokenKind) (text : String) : Token TokenKind :=
  ⟨⟨kind, some .word⟩, text, .emptyAt .start⟩

/-- A character of layout of which the place does not matter. -/
def bareBlank (kind : TokenKind) (text : String) : Token TokenKind :=
  ⟨⟨kind, some .whiteSpace⟩, text, .emptyAt .start⟩

/-- Two layouts of the same statement, with a tab and a line break in the place of a space. -/
theorem produce_relaid_throw :
    SameOutcome
      (produce [bareWord .kwThrow "throw", bareBlank .space " ", bareWord .identifier "a",
        bareBlank .lineBreak "\n"] {})
      (produce [bareWord .kwThrow "throw", bareBlank .tab "\t", bareBlank .lineBreak "\n",
        bareWord .identifier "a", bareBlank .lineBreak "\n", bareBlank .space " "] {}) := by
  have between : SameGap [bareBlank .space " "] [bareBlank .tab "\t", bareBlank .lineBreak "\n"] :=
    ⟨by decide, by decide, by decide, by decide⟩
  have behind : SameGap [bareBlank .lineBreak "\n"]
      [bareBlank .lineBreak "\n", bareBlank .space " "] :=
    ⟨by decide, by decide, by decide, by decide⟩
  have relaid := Relaid.token .nil (x := bareWord .kwThrow "throw") rfl rfl
    (.token between (x := bareWord .identifier "a") rfl rfl (.last behind))
  exact produce_relaid relaid ⟨by decide, by decide⟩ ⟨by decide, by decide⟩ {}

end Instance

end ScriptFront.Script
