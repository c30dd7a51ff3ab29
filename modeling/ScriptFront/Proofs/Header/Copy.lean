import ScriptFront.Proofs.Lockstep.Copied

namespace ScriptFront.Script

open ScriptFront.Parser

/-- What may stand right behind an expression without being taken for a part of it: a
semicolon. No parenthesis from before may be closed in front of an arrow in these tokens,
and no `else` may come first behind their separators. -/
structure Bounds (ext : List (Token TokenKind)) : Prop where
  first : firstKind ext = some .semicolon
  solid : ext.dropWhile Token.isSpace = ext
  noArrow : ∀ depth, arrowBehind (depth + 1) ext = false
  noElse : firstKind (ext.dropWhile isSeparator) ≠ some .kwElse

variable {ext tokens : List (Token TokenKind)} {ends ends' : List (List (Token TokenKind))}
  {s s' : State}

/-- What follows the copied part is not empty, so no rule sees the end of the tokens there. -/
theorem Bounds.ne_nil (bounds : Bounds ext) : ext ≠ [] := by
  rintro rfl
  cases bounds.first

/-- Nothing but the semicolon shows in front. -/
theorem Bounds.unlike {kind : TokenKind} (bounds : Bounds ext) (other : kind ≠ .semicolon) :
    firstKind ext ≠ some kind := by
  rw [bounds.first]
  exact fun same => other (Option.some.inj same).symm

/-- What follows the copied part begins with a semicolon. -/
theorem Bounds.kind_eq {y : Token TokenKind} {others : List (Token TokenKind)} (bounds : Bounds ext)
    (member : y :: others ∈ [ext]) : y.kind = .semicolon :=
  Option.some.inj ((congrArg firstKind (List.mem_singleton.mp member)).trans bounds.first)

/-- The cursors of two parses of which the second one goes over a copy of the tokens of the
first one. What the first one has ahead is the end of its tokens. -/
structure Abut (ext tokens : List (Token TokenKind)) (ends : List (List (Token TokenKind)))
    (s s' : State) : Prop where
  copy : Copy ext tokens false ends s s'
  suffix : s.rest <:+ tokens

/-- The same where tokens are left on both sides. -/
structure Running (ext tokens : List (Token TokenKind)) (s s' : State) : Prop where
  abut : Abut ext tokens [ext] s s'
  more : s.rest ≠ []

namespace Abut

theorem mono (abut : Abut ext tokens ends s s') (more : ends ⊆ ends') :
    Abut ext tokens ends' s s' where
  copy := abut.copy.mono more
  suffix := abut.suffix

/-- Skipping goes on in both copies alike, as long as it stops within the part or right behind it.
-/
theorem skip {test : Token TokenKind → Bool}
    (equal : ∀ {x y : Token TokenKind}, x.piece = y.piece → test x = test y)
    (abut : Abut ext tokens ends s s') (first : ext.dropWhile test ∈ ends')
    (others : ∀ tokens ∈ ends, tokens.dropWhile test ∈ ends') :
    Abut ext tokens ends' (s.skipWhile test) (s'.skipWhile test) where
  copy := abut.copy.skip equal first others
  suffix := (List.dropWhile_suffix test).trans abut.suffix

theorem next (abut : Abut ext tokens ends s s') (more : s.rest ≠ []) :
    Abut ext tokens [ext] s.next s'.next where
  copy := abut.copy.next more
  suffix := by
    refine List.IsSuffix.trans ?_ abut.suffix
    unfold TokenCursor.next
    split
    · exact List.suffix_rfl
    · rename_i token rest atRest
      rw [atRest]
      exact List.suffix_cons token rest

/-- Where the last token is a closing brace, tokens follow any other one. -/
theorem running (abut : Abut ext tokens ends s s') {kind : TokenKind}
    (closing : ∀ token ∈ tokens.getLast?, token.kind = .closeBrace)
    (atKind : s.currentKind = some kind) (other : kind ≠ .closeBrace) :
    Running ext tokens s.next s'.next := by
  refine ⟨abut.next (more_of_currentKind atKind), fun ended => ?_⟩
  obtain ⟨token, current, ofKind⟩ := Option.map_eq_some_iff.mp atKind
  have suffix := abut.suffix
  rw [TokenCursor.current] at current
  rw [TokenCursor.next] at ended
  cases atRest : s.rest with
  | nil => simp [atRest] at current
  | cons first rest =>
    rw [atRest] at ended current suffix
    obtain rfl : first = token := Option.some.inj current
    obtain rfl : rest = [] := ended
    obtain ⟨front, rfl⟩ := suffix
    exact other (ofKind ▸ closing first (by simp))

end Abut

section Instance

variable (bounds : Bounds ext) (tokens : List (Token TokenKind))

/-- Two parses of which the second one goes over a copy of the tokens of the first one, right
in front of a semicolon. -/
def abutting : Lockstep where
  strict := ext = []
  tokens := tokens
  near := Abut ext tokens [ext]
  ready := Abut ext tokens [ext]
  far := Abut ext tokens [ext, ext.dropWhile isSeparator]
  near_of_ready := id
  far_of_near near := near.mono (by simp)
  near_of_far far together := by
    have more := together.resolve_left bounds.ne_nil
    exact ⟨⟨far.copy.place.of_more more, far.copy.subset, far.copy.marked⟩, far.suffix⟩
  mem near x member := near.copy.subset member
  sight near := near.copy.place.sight fun y others member =>
    ⟨bounds.ne_nil, by simp [bounds.kind_eq member]⟩
  sight_ready ready := ready.copy.place.sight fun y others member =>
    ⟨bounds.ne_nil, by simp [bounds.kind_eq member]⟩
  is_else far := far.copy.is_eq (by simpa using ⟨bounds.unlike (by decide), bounds.noElse⟩)
  trim_ready near := near.skip isSpace_eq (by simp [bounds.solid]) (by simp [bounds.solid])
  trim_far far := far.skip isSpace_eq (by simp [bounds.solid])
    (by simp [bounds.solid, dropWhile_isSeparator_isSpace])
  skip_far far := far.skip isSeparator_eq (by simp) (by simp [List.dropWhile_idempotent])
  next_near near current _ := near.next (more_of_current current)
  followedBy_eq near more free := near.copy.followedBy_eq more <| by
    rw [List.forall_mem_singleton, bounds.solid]
    exact bounds.unlike fun same => free (same ▸ by decide)
  arrowFollows_eq near there := near.copy.arrowFollows_eq bounds.noArrow
    (bounds.solid.symm ▸ bounds.unlike (by decide)) there
  esm_near near := ⟨near.copy.esm, near.suffix⟩

variable {bounds tokens} {lost : Prop}

theorem abutting_tokenwise :
    (abutting bounds tokens).Tokenwise (Abut ext tokens [ext]) where
  near := id
  next near more := by
    obtain ⟨x, y, current, current', alike, -⟩ := near.copy.current more
    exact ⟨x, y, current, current', alike, near.next more⟩

variable (closing : ∀ token ∈ tokens.getLast?, token.kind = .closeBrace)
include closing

/-- At the leaves of the grammar the two copies stay together. With the bound behind them neither
reads past it. -/
theorem abutting_leaves : (abutting bounds tokens).Leaves where
  blockComment := Lockstep.blockComment_within fun here => here.1.next here.more
  lineComment := Lockstep.lineComment_within
    (fun here => here.1.running closing here.2 (by decide)) Running.abut
    (fun running atText => running.abut.running closing atText (by decide))
    fun alike => Lockstep.within_of_agree fun ⟨abut, more⟩ =>
      Lockstep.lineEnd_agree alike more (abut.copy.more_of_more more)
        (abut.copy.is_eq_of_more more) fun _ =>
          (abut.next more).skip isSpace_eq (by simp [bounds.solid]) (by simp [bounds.solid])
  regExpLiteral := regExpLiteral_tokenwise abutting_tokenwise

end Instance

end ScriptFront.Script
