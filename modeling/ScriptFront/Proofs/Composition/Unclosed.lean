import ScriptFront.Proofs.Anchoring

namespace ScriptFront.Script

open ScriptFront.Parser

/-- Tokens that end in a comment which is opened with slash-star and not closed. What is written
behind such tokens would be read as a part of the comment. -/
inductive Unclosed : List (Token TokenKind) → Prop
  | opener {opener} : opener.toLexeme = ⟨.slashAsterisk, none⟩ → Unclosed [opener]
  | text {opener text} : opener.toLexeme = ⟨.slashAsterisk, none⟩ → text.kind = .commentText →
      Unclosed [opener, text]
  | later {token rest} : Unclosed rest → Unclosed (token :: rest)

theorem isSpace_of_opener {token : Token TokenKind}
    (ofOpener : token.toLexeme = ⟨.slashAsterisk, none⟩) : token.isSpace = false := by
  simp [Token.isSpace, Token.hasTag, ofOpener]

theorem isSeparator_of_opener {token : Token TokenKind}
    (ofOpener : token.toLexeme = ⟨.slashAsterisk, none⟩) : isSeparator token = false := by
  simp [isSeparator, isSpace_of_opener ofOpener, ofOpener]

namespace Unclosed

variable {front back rest : List (Token TokenKind)} {token : Token TokenKind}

theorem ne_nil (unclosed : Unclosed rest) : rest ≠ [] := by
  cases unclosed <;> exact List.cons_ne_nil _ _

theorem of_append (unclosed : Unclosed back) (front : List (Token TokenKind)) :
    Unclosed (front ++ back) := by
  induction front with
  | nil => exact unclosed
  | cons token front ih => exact .later ih

/-- A token other than the opener does not take the comment with it. -/
theorem tail (unclosed : Unclosed (token :: rest))
    (other : token.toLexeme ≠ ⟨.slashAsterisk, none⟩) : Unclosed rest := by
  cases unclosed with
  | opener ofOpener => exact absurd ofOpener other
  | text ofOpener => exact absurd ofOpener other
  | later unclosed => exact unclosed

/-- Tokens of which the last one is not in the comment do not take it with them either. -/
theorem behind {last : Token TokenKind} (unclosed : Unclosed (front ++ last :: back))
    (ofLast : last.kind ∉ [.slashAsterisk, .commentText]) : Unclosed back := by
  have noOpener {token : Token TokenKind} (ofKind : token.kind ∉ [.slashAsterisk, .commentText]) :
      token.toLexeme ≠ ⟨.slashAsterisk, none⟩ := by
    intro ofOpener
    exact ofKind (by simp [ofOpener])
  induction front with
  | nil => exact unclosed.tail (noOpener ofLast)
  | cons token front ih =>
    rw [List.cons_append] at unclosed
    generalize inner : front ++ last :: back = others at unclosed
    cases unclosed with
    | opener => simp at inner
    | @text _ text _ ofText =>
      obtain rfl : last = text := by
        cases front with
        | nil => exact (List.cons.inj inner).1
        | cons x front => simp at inner
      exact absurd (by simp [ofText]) ofLast
    | later unclosed => exact ih (inner ▸ unclosed)

/-- Layout in front does not matter for whether a comment is left open. -/
theorem behind_layout {gap : List (Token TokenKind)} (layout : ∀ token ∈ gap, token.isSpace = true)
    (unclosed : Unclosed (gap ++ back)) : Unclosed back := by
  induction gap with
  | nil => exact unclosed
  | cons token gap ih =>
    obtain ⟨here, others⟩ := List.forall_mem_cons.mp layout
    refine ih others (unclosed.tail fun ofOpener => ?_)
    rw [isSpace_of_opener ofOpener] at here
    cases here

theorem skip {test : Token TokenKind → Bool}
    (opener : ∀ {token : Token TokenKind}, token.toLexeme = ⟨.slashAsterisk, none⟩ →
      test token = false) (unclosed : Unclosed rest) : Unclosed (rest.dropWhile test) := by
  induction unclosed with
  | opener ofOpener =>
    rw [List.dropWhile_cons_of_neg (by simp [opener ofOpener])]
    exact .opener ofOpener
  | text ofOpener ofText =>
    rw [List.dropWhile_cons_of_neg (by simp [opener ofOpener])]
    exact .text ofOpener ofText
  | later unclosed ih =>
    rw [List.dropWhile_cons]
    split
    · exact ih
    · exact .later unclosed

end Unclosed

/-- One parse in front of a comment that is not closed, which it has not gone into yet. It goes on
in step with itself, and cannot come to a success. -/
structure Stuck (tokens : List (Token TokenKind)) (s s' : State) : Prop where
  same : s' = s
  subset : s.rest ⊆ tokens
  unclosed : Unclosed s.rest

namespace Stuck

variable {tokens : List (Token TokenKind)} {s s' : State}

theorem skip {test : Token TokenKind → Bool}
    (opener : ∀ {token : Token TokenKind}, token.toLexeme = ⟨.slashAsterisk, none⟩ →
      test token = false) (stuck : Stuck tokens s s') :
    Stuck tokens (s.skipWhile test) (s'.skipWhile test) where
  same := by rw [stuck.same]
  subset := List.Subset.trans (List.dropWhile_suffix test).subset stuck.subset
  unclosed := stuck.unclosed.skip opener

theorem next (stuck : Stuck tokens s s') {token : Token TokenKind}
    (current : s.current = some token) (other : token.toLexeme ≠ ⟨.slashAsterisk, none⟩) :
    Stuck tokens s.next s'.next := by
  obtain ⟨rfl, subset, unclosed⟩ := stuck
  obtain ⟨before, rest, found⟩ := s'
  cases rest with
  | nil => cases current
  | cons first rest =>
    obtain rfl : first = token := Option.some.inj current
    exact ⟨rfl, List.Subset.trans (List.subset_cons_self _ _) subset, unclosed.tail other⟩

/-- Both sides go over a token that is no opener of a comment, and still face the comment that is
not closed. -/
theorem next_of_kind (stuck : Stuck tokens s s') {kind : TokenKind}
    (atKind : s.currentKind = some kind) (other : kind ≠ .slashAsterisk) :
    Stuck tokens s.next s'.next := by
  obtain ⟨token, current, ofKind⟩ := Option.map_eq_some_iff.mp atKind
  exact stuck.next current fun ofOpener => other (ofKind ▸ congrArg (·.kind) ofOpener)

theorem sight (stuck : Stuck tokens s s') (ends : List TokenKind) :
    Sight True ends s.rest s'.rest := by
  rw [stuck.same]
  generalize s.rest = rest
  cases rest with
  | nil => exact .ended
  | cons token rest => exact .same rfl

end Stuck

section Instance

variable (tokens : List (Token TokenKind))

/-- A parse that is stuck in front of a comment stays so. -/
def sticking : Lockstep where
  strict := True
  tokens := tokens
  near := Stuck tokens
  ready := Stuck tokens
  far := Stuck tokens
  near_of_ready := id
  far_of_near := id
  near_of_far far _ := far
  mem near x member := near.subset member
  sight near := near.sight _
  sight_ready ready := ready.sight _
  is_else far := by rw [far.same]
  trim_ready near := near.skip isSpace_of_opener
  trim_far far := far.skip isSpace_of_opener
  skip_far far := far.skip isSeparator_of_opener
  next_near near current free := near.next current fun ofOpener => by
    rcases free with solid | word
    · exact solid (by simp [ofOpener, rawKinds])
    · simp [ofOpener] at word
  followedBy_eq near _ _ := by rw [near.same]
  arrowFollows_eq near _ := by rw [near.same]
  esm_near near := ⟨by rw [near.same], near.subset, near.unclosed⟩

variable {tokens} {lost : Prop}

theorem Leaf.blockComment_last (t : Tree) (tokens : List (Token TokenKind))
    (ofKind : ∃ content, t.kind = .blockComment content) (leaf : Leaf .code tokens t.kind) :
    ∃ front last, tokens = front ++ [last] ∧ last.kind ∉ [.slashAsterisk, .commentText] := by
  obtain ⟨content, ofKind⟩ := ofKind
  rw [ofKind] at leaf
  cases leaf with
  | @blockComment opener closer content _ _ ofCloser =>
    exact ⟨opener :: content.toList, closer, by simp, by simp [ofCloser]⟩

/-- The last token of a regular expression is a slash or its flags, so none of them ends at the open
comment. -/
theorem Leaf.regExp_last (t : Tree) (tokens : List (Token TokenKind))
    (ofKind : t.kind.isRegExp = true) (leaf : Leaf .code tokens t.kind) :
    ∃ front last, tokens = front ++ [last] ∧ last.kind ∉ [.slashAsterisk, .commentText] := by
  generalize t.kind = c at ofKind leaf
  cases leaf with
  | @regExp opener body closer pattern flags _ closing ofFlags =>
    cases flags with
    | some word =>
      refine ⟨opener :: (body ++ [closer]), word, by simp, ?_⟩
      simp [ofFlags word rfl]
    | none =>
      refine ⟨opener :: body, closer, by simp, ?_⟩
      rcases closing with ⟨slash, -⟩ | ⟨asteriskSlash, -⟩
      · simp [slash]
      · simp [asteriskSlash]
  | _ => cases ofKind

/-- A node that is read off its tokens alone leaves the comment where it is, if its last
token does not belong to one. -/
theorem unclosed_of_leaf {p : Rule Tree} {s t : State} {a : Tree} {typed : Tree → Prop}
    (yields : Yields s.before {} s.rest p fun t step => MadeLeaf t step ∧ typed t)
    (closes : ∀ t tokens, typed t → Leaf .code tokens t.kind →
      ∃ front last, tokens = front ++ [last] ∧ last.kind ∉ [.slashAsterisk, .commentText])
    (run : p s = .ok a t) (unclosed : Unclosed s.rest) : t.rest ⊆ s.rest ∧ Unclosed t.rest := by
  obtain ⟨step, left, outcome, split, answer, found⟩ := yields
  have same : p s = settle _ outcome := answer s.properties
  rw [run] at same
  cases outcome with
  | error e => cases same
  | ok b =>
    cases same
    obtain ⟨⟨tokens, gap, made, leaf, -, layout⟩, ofSort⟩ := found
    obtain ⟨front, last, rfl, ofLast⟩ := closes _ _ ofSort leaf
    have taken : step.tokens = front ++ [last] ++ gap := congrArg Stretch.tokens made
    rw [taken] at split
    rw [split] at unclosed ⊢
    refine ⟨List.subset_append_right _ _, ?_⟩
    rw [List.append_assoc, List.append_assoc] at unclosed
    exact (unclosed.behind ofLast).behind_layout layout

theorem stuck_agree {p : Rule Tree} {s s' : State} {pre post : State → State → Prop}
    (within : (copying .none s.rest false).Within False pre post SameTree p p) (start : pre s s)
    (stuck : Stuck tokens s s')
    (keeps : ∀ a t, p s = .ok a t → t.rest ⊆ s.rest ∧ Unclosed t.rest) :
    (sticking tokens).Agree (Stuck tokens) SameTree (p s) (p s') := by
  rw [stuck.same]
  cases run : p s with
  | ok a t =>
    obtain ⟨fewer, unclosed⟩ := keeps a t run
    exact ⟨rfl, rfl, List.Subset.trans fewer stuck.subset, unclosed⟩
  | error e t =>
    have anchored := anchored_of_within within start run
    exact ⟨anchored.mono stuck.subset, fun _ => ⟨e, t, rfl, rfl⟩⟩

theorem lineEnd_stuck {a b : Tree} (same : SameTree a b) :
    (sticking tokens).Within lost (Stuck tokens) (Stuck tokens) SameTree (Lockstep.lineEnd a)
      (Lockstep.lineEnd b) := by
  refine Lockstep.within_of_agree fun {s s'} stuck => ?_
  have more := stuck.unclosed.ne_nil
  refine Lockstep.lineEnd_agree same more (stuck.same ▸ more) (by rw [stuck.same]) fun there => ?_
  have behind := stuck.next_of_kind (beq_iff_eq.mp there) (by decide)
  exact behind.skip isSpace_of_opener

/-- In front of a comment that is not closed both sides come to the same at the leaves, and no leaf
that is found takes the comment with it. -/
theorem sticking_leaves : (sticking tokens).Leaves where
  blockComment := by
    refine Lockstep.within_of_agree fun {s s'} here => ?_
    have stuck : Stuck tokens s s' := here.1
    refine stuck_agree copying_leaves.blockComment ⟨(Copy.refl s).mono (by simp), here.2⟩ stuck ?_
    exact fun a t run => unclosed_of_leaf (blockComment_yields here.2) Leaf.blockComment_last
      run stuck.unclosed
  lineComment := Lockstep.lineComment_within
    (fun here => Stuck.next_of_kind here.1 here.2 (by decide)) id
    (fun near atText => near.next_of_kind atText (by decide)) lineEnd_stuck
  regExpLiteral := by
    refine Lockstep.within_of_agree fun {s s'} here => ?_
    have stuck : Stuck tokens s s' := here.1
    refine stuck_agree copying_leaves.regExpLiteral ⟨(Copy.refl s).mono (by simp), here.2⟩ stuck ?_
    exact fun a t run => unclosed_of_leaf (regExpLiteral_yields here.2) Leaf.regExp_last run
      stuck.unclosed

end Instance

/-- No program ends in a comment that is not closed. -/
theorem not_unclosed_of_produce {tokens : List (Token TokenKind)} {options : Options}
    {program : Program Tree Properties} (run : produce tokens options = .ok program) :
    ¬ Unclosed tokens := by
  intro unclosed
  have start : Stuck tokens (State.ofTokens tokens options) (State.ofTokens tokens options) :=
    ⟨rfl, List.Subset.refl _, unclosed⟩
  have agree :=
    Lockstep.Within.agree (Lockstep.statementList_within sticking_leaves trivial) start
  unfold produce at run
  cases whole : grammar.produce (State.ofTokens tokens options) with
  | error e t =>
    rw [whole] at run
    cases run
  | ok found t =>
    rw [statementList_of_produce whole] at agree
    exact agree.2.unclosed.ne_nil (produce_exhausts whole)

end ScriptFront.Script
