import ScriptFront.Proofs.Lockstep.Basic

namespace ScriptFront.Script.Lockstep

open ScriptFront.Parser

variable {sim : Lockstep} {lost : Prop} {r : Rules}

section Names

theorem nameText_within (anyWord : Bool) :
    sim.Within lost sim.near sim.near Eq (nameText anyWord) (nameText anyWord) := by
  refine .ite ?_ ?_
  · refine .bind (expectWord_within (by decide)) fun _ _ alike => ?_
    exact pure_within alike.text
  · exact .expect (by decide) nofun fun _ _ alike _ => pure_within alike.text

theorem anyName_within (anyWord : Bool) :
    sim.Within lost sim.near sim.near SameTree (anyName anyWord) (anyName anyWord) := by
  refine .mark fun _ _ => .acceptIte (by decide) ?_ ?_
  · exact (nameText_within anyWord).bind fun _ _ same => same ▸ makeNode_within rfl
  · exact (nameText_within anyWord).bind fun _ _ same => same ▸ makeNode_within rfl

theorem plainName_within :
    sim.Within lost sim.near sim.near SameTree plainName plainName :=
  .mark fun _ _ => (nameText_within false).bind fun _ _ same => same ▸ makeNode_within rfl

theorem stringLiteral_within :
    sim.Within lost sim.near sim.near SameTree stringLiteral stringLiteral := by
  refine .mark fun _ _ => .expect (by decide) nofun fun _ _ alike _ => ?_
  exact makeNode_within (by rw [alike.text])

/-- The node of a number, or the complaint that it cannot be read. -/
theorem numericNode_within {start start' : Nat} {float : Bool} {raw : String}
    (misread : Double.read? raw = none → Misread sim.tokens) :
    sim.Within lost sim.near sim.near SameTree
      (match Double.read? raw with
        | some value => makeNode start (.numericLiteral value raw float)
        | none => complain .numericLiteral : Rule Tree)
      (match Double.read? raw with
        | some value => makeNode start' (.numericLiteral value raw float)
        | none => complain .numericLiteral) := by
  cases read : Double.read? raw with
  | some value => exact makeNode_within rfl
  | none =>
    refine within_of_agree fun {s s'} _ => ⟨⟨by rw [text_error], fun _ => misread read⟩, fun _ => ?_⟩
    exact ⟨_, s', rfl, by rw [text_error, text_error]⟩

theorem numericLiteral_within :
    sim.Within lost sim.near sim.near SameTree numericLiteral numericLiteral := by
  refine .mark fun _ _ => .expect (by decide) nofun fun whole _ alike kind => ?_
  refine .accept (by decide) ?_ ?_
  · refine .expect (by decide) nofun fun fraction _ alike' kind' => .pure_bind ?_
    rw [← alike.text, ← alike'.text]
    exact numericNode_within fun none =>
      ⟨whole, alike.mem, kind, Or.inr ⟨fraction, alike'.mem, kind', none⟩⟩
  · refine .pure_bind ?_
    rw [← alike.text]
    exact numericNode_within fun none => ⟨whole, alike.mem, kind, Or.inl none⟩

end Names

section Comments

/-- A comment between slashes and stars, where it is known what comes after its opener. -/
theorem blockComment_within
    (opened : ∀ {s s'}, sim.At .slashAsterisk s s' → sim.near s.next s'.next) :
    sim.Within lost (sim.At .slashAsterisk) sim.near SameTree blockComment blockComment := by
  have rest {start start' : Nat} {content content' : Option (Token TokenKind)}
      (same : content.map (·.text) = content'.map (·.text)) :
      sim.Within lost sim.near sim.near SameTree
      (do
        let _ ← expect .asteriskSlash .blockCommentEnd
        let comment ← makeNode start (.blockComment ((content.map (·.text)).getD ""))
        trim
        return comment : Rule Tree)
      (do
        let _ ← expect .asteriskSlash .blockCommentEnd
        let comment ← makeNode start' (.blockComment ((content'.map (·.text)).getD ""))
        trim
        return comment) := by
    refine .expect (by decide) nofun fun _ _ _ _ => .makeNode (by rw [same]) fun _ _ comment => ?_
    exact trim_near_within.bind fun _ _ _ => pure_within comment
  refine .mark fun _ _ => (consume_to (by decide) opened).bind fun _ _ _ => ?_
  exact .consumeIf (by decide) (fun _ _ alike => rest (congrArg some alike.text)) (rest rfl)

/-- The end of a comment up to the end of its line. -/
def lineEnd (comment : Tree) : Rule Tree := do
  if ← observe (·.willContinue) then
    let _ ← expect .lineBreak .lineCommentEnd
  trim
  return comment

/-- A line ends where the tokens do. -/
theorem lineEnd_nil (comment : Tree) {s : State} (ended : s.rest = []) :
    lineEnd comment s = .ok comment (s.skipWhile Token.isSpace) := by
  unfold lineEnd
  rw [observe_bind, TokenCursor.willContinue, ended]
  rfl

theorem lineEnd_lineBreak (comment : Tree) {s : State} (there : s.is .lineBreak = true) :
    lineEnd comment s = .ok comment (s.next.skipWhile Token.isSpace) := by
  obtain ⟨token, current, -⟩ := s.current_of_is there
  have run : expect .lineBreak .lineCommentEnd s = .ok token s.next := by
    unfold expect Parser.expect
    rw [observe_bind, if_pos there, consume, current]
  have more : s.willContinue = true := by
    rw [TokenCursor.willContinue_eq_isSome, TokenCursor.currentKind, current]
    rfl
  unfold lineEnd
  rw [observe_bind, more, if_pos rfl, bind_ok run]
  rfl

/-- Where something else than a line break stands behind a comment of one line, the rule fails. The
text of the comment goes up to a line break, so this does not happen with tokens of a source. -/
theorem lineEnd_fails (comment : Tree) {s : State} (more : s.rest ≠ [])
    (absent : s.is .lineBreak = false) :
    lineEnd comment s = .error (s.error Complaint.lineCommentEnd.message) s := by
  have fails : expect .lineBreak .lineCommentEnd s =
      .error (s.error Complaint.lineCommentEnd.message) s := by
    unfold expect Parser.expect
    rw [observe_bind, absent]
    rfl
  have goesOn : s.willContinue = true := by simp [TokenCursor.willContinue, more]
  unfold lineEnd
  rw [observe_bind, goesOn, if_pos rfl, bind_error fails]

/-- Where tokens follow on both sides, a line ends alike on both. -/
theorem lineEnd_agree {a b : Tree} {s s' : State} (alike : SameTree a b) (more : s.rest ≠ [])
    (more' : s'.rest ≠ []) (equal : s.is .lineBreak = s'.is .lineBreak)
    (behind : s.is .lineBreak = true →
      post (s.next.skipWhile Token.isSpace) (s'.next.skipWhile Token.isSpace)) :
    sim.Agree post SameTree (lineEnd a s) (lineEnd b s') := by
  cases there : s.is .lineBreak with
  | true =>
    rw [lineEnd_lineBreak a there, lineEnd_lineBreak b (equal ▸ there)]
    exact ⟨alike, behind there⟩
  | false =>
    rw [lineEnd_fails a more there, lineEnd_fails b more' (equal ▸ there)]
    refine ⟨anchored_error s (Complaint.message_ne nofun), fun _ => ⟨_, s', rfl, ?_⟩⟩
    rw [text_error, text_error]

/-- A comment up to the end of its line, where it is known what comes after its opener and
its text. -/
theorem lineComment_within {fresh : State → State → Prop}
    (opened : ∀ {s s'}, sim.At .doubleSlash s s' → fresh s.next s'.next)
    (near : ∀ {s s'}, fresh s s' → sim.near s s')
    (behind : ∀ {s s'}, fresh s s' → s.currentKind = some .commentText → fresh s.next s'.next)
    (ended : ∀ {a b}, SameTree a b →
      sim.Within lost fresh sim.near SameTree (lineEnd a) (lineEnd b)) :
    sim.Within lost (sim.At .doubleSlash) sim.near SameTree lineComment lineComment := by
  have rest {start start' : Nat} {content content' : Option (Token TokenKind)}
      (same : content.map (·.text) = content'.map (·.text)) : sim.Within lost fresh sim.near SameTree
        (makeNode start (.lineComment ((content.map (withoutReturns ·.text)).getD "")) >>= lineEnd)
        (makeNode start' (.lineComment ((content'.map (withoutReturns ·.text)).getD "")) >>=
          lineEnd) := by
    have lines : content.map (withoutReturns ·.text) = content'.map (withoutReturns ·.text) := by
      have both := congrArg (Option.map withoutReturns) same
      rwa [Option.map_map, Option.map_map] at both
    exact .makeNode (by rw [lines]) fun _ _ comment => ended comment
  refine .mark fun _ _ => (consume_to (by decide) opened).bind fun _ _ _ => ?_
  rw [consumeIf_bind, consumeIf_bind]
  refine .test (fun here => sim.is_eq (near here) (by decide)) ?_ (rest rfl)
  refine .bind (within_of_agree fun ⟨here, there⟩ => ?_) fun _ _ alike => rest (congrArg some alike)
  have atText := beq_iff_eq.mp there
  obtain ⟨a, b, -, -, run, run', alike⟩ := consume_at (near here) (by decide) atText
  rw [run, run']
  exact ⟨alike.text, behind here atText⟩

end Comments

variable (inner : sim.Inner r) (allowIn : Bool)
include inner

section Patterns

/-- A tree and a flag. -/
abbrev SameFlagged (a b : Tree × Bool) : Prop := SameTree a.1 b.1 ∧ a.2 = b.2

/-- A key is computed on both sides or on neither, as both see the same bracket. -/
theorem propertyKey_within : sim.Within lost sim.near sim.near SameFlagged
    (propertyKey r allowIn) (propertyKey r allowIn) := by
  refine .acceptIte (by decide) ?_ ?_
  · refine trim_near_within.bind fun _ _ _ => (inner.expression _).bind fun _ _ key => ?_
    refine trim_near_within.bind fun _ _ _ => .expect (by decide) nofun fun _ _ _ _ => ?_
    exact pure_within ⟨key, rfl⟩
  · refine .byKind (forall_blank rfl rfl rfl rfl rfl) fun kind => .from ?_ And.left
    split
    · exact stringLiteral_within.bind fun _ _ key => pure_within ⟨key, rfl⟩
    · exact numericLiteral_within.bind fun _ _ key => pure_within ⟨key, rfl⟩
    · exact (anyName_within true).bind fun _ _ key => pure_within ⟨key, rfl⟩

theorem withDefault_within {start start' : Nat} {left left' : Tree} (same : SameTree left left') :
    sim.Within lost sim.near sim.near SameTree (withDefault r allowIn start left)
      (withDefault r allowIn start' left') := by
  refine .acceptIte (by decide) ?_ (pure_within same)
  refine trim_near_within.bind fun _ _ _ => (inner.expression _).bind fun _ _ right => ?_
  exact trim_near_within.bind fun _ _ _ => makeNode_within (by simp [Construct.erase, same, right])

theorem bindingWithDefault_within : sim.Within lost sim.near sim.near SameTree
    (bindingWithDefault r allowIn) (bindingWithDefault r allowIn) := by
  refine .mark fun _ _ => (inner.binding _).bind fun _ _ left => ?_
  exact trim_near_within.bind fun _ _ _ => withDefault_within inner allowIn left

theorem restOrBinding_within : sim.Within lost sim.near sim.near SameTree
    (restOrBinding r allowIn) (restOrBinding r allowIn) := by
  refine .at? (by decide) ?_ (bindingWithDefault_within inner allowIn)
  refine .mark fun _ _ => .eat (by decide) fun _ _ _ => ?_
  exact (inner.binding _).bind fun _ _ same => makeNode_within (by simp [Construct.erase, same])

theorem parameters_within : sim.Within lost sim.near sim.near SameTrees
    (parameters r allowIn) (parameters r allowIn) := by
  refine .listed (inner.ends.parameters _) (by decide) (restOrBinding_within inner allowIn)
    (fun _ => starves_expect nofun) fun _ _ params => ?_
  refine .expect (by decide) nofun fun _ _ _ _ => ?_
  exact trim_near_within.bind fun _ _ _ => pure_within params

theorem arrayPattern_within : sim.Within lost (sim.At .openSquare) sim.near SameTree
    (arrayPattern r allowIn) (arrayPattern r allowIn) := by
  refine .mark fun _ _ => .eat (by decide) fun _ _ _ => ?_
  refine .listed (inner.ends.parameters _) (by decide) (restOrBinding_within inner allowIn)
    (fun _ => starves_expect nofun) fun _ _ elements => ?_
  refine .expect (by decide) nofun fun _ _ _ _ => ?_
  exact makeNode_within (by simp [Construct.erase, elements])

theorem patternMember_within : sim.Within lost sim.near sim.near SameTree
    (patternMember r allowIn) (patternMember r allowIn) := by
  refine .mark fun _ _ => .acceptIte (by decide) ?_ ?_
  · refine trim_near_within.bind fun _ _ _ => (inner.binding _).bind fun _ _ argument => ?_
    exact makeNode_within (by simp [Construct.erase, argument])
  · refine (propertyKey_within inner allowIn).bind fun key key' same => ?_
    obtain ⟨key, computed⟩ := key
    obtain ⟨key', computed'⟩ := key'
    obtain ⟨alike, rfl⟩ := same
    refine trim_near_within.bind fun _ _ _ => .acceptIte (by decide) ?_ ?_
    · refine trim_near_within.bind fun _ _ _ => ?_
      refine (bindingWithDefault_within inner allowIn).bind fun _ _ value => ?_
      exact makeNode_within (by simp [Construct.erase, alike, value])
    · rw [alike.isIdentifier_eq]
      refine .ite (complain_within nofun) ?_
      refine (withDefault_within inner allowIn alike).bind fun _ _ value => ?_
      exact makeNode_within (by simp [Construct.erase, alike, value])

theorem objectPattern_within : sim.Within lost (sim.At .openBrace) sim.near SameTree
    (objectPattern r allowIn) (objectPattern r allowIn) := by
  refine .mark fun _ _ => .eat (by decide) fun _ _ _ => ?_
  refine .listed (inner.ends.patternMembers _) (by decide) (patternMember_within inner allowIn)
    (fun _ => starves_expect nofun) fun _ _ members => ?_
  refine .expect (by decide) nofun fun _ _ _ _ => ?_
  exact makeNode_within (by simp [Construct.erase, members])

theorem binding_within : sim.Within lost sim.near sim.near SameTree
    (binding r allowIn) (binding r allowIn) := by
  refine .byKind (forall_blank rfl rfl rfl rfl rfl) fun kind => ?_
  split
  · exact (objectPattern_within inner allowIn).seen
  · exact (arrayPattern_within inner allowIn).seen
  · exact (anyName_within false).from And.left
  · exact (anyName_within false).from And.left
  · exact complain_within nofun

end Patterns

section Callables

/-- A block needs its closing brace, so a side that has come to its end in the middle can only
complain. -/
theorem block_within : sim.Within lost sim.near sim.near SameTree
    (block r allowIn) (block r allowIn) := by
  refine .mark fun _ _ => .expect (by decide) nofun fun _ _ _ _ => ?_
  refine (trimSeparators_within.from sim.far_of_near).bind fun _ _ _ => ?_
  refine .separated (inner.ends.statements _) (by decide) (inner.statement _)
    (fun _ => starves_expect nofun) fun _ _ body => ?_
  refine .expectFar (by decide) nofun fun _ _ _ _ => ?_
  refine .makeNode (by simp [Construct.erase, body]) fun _ _ node => ?_
  exact trim_near_within.bind fun _ _ _ => pure_within node

/-- The parameters of a function and its body. -/
abbrev SameCallable (a b : List Tree × Tree) : Prop := SameTrees a.1 b.1 ∧ SameTree a.2 b.2

theorem parametersAndBody_within : sim.Within lost sim.near sim.near SameCallable
    (parametersAndBody r allowIn) (parametersAndBody r allowIn) := by
  refine trim_near_within.bind fun _ _ _ => (parameters_within inner allowIn).bind fun _ _ params => ?_
  exact (block_within inner allowIn).bind fun _ _ body => pure_within ⟨params, body⟩

omit inner in
theorem generatorStar_within : sim.Within lost sim.near sim.near Eq generatorStar generatorStar := by
  refine .accept (by decide) ?_ ?_ <;>
    exact trim_near_within.bind fun _ _ _ => pure_within rfl

/-- Up to the parenthesis both sides take the same tokens, and behind it the same rules are called.
-/
theorem functionDeclaration_within {start start' : Nat} (isAsync : Bool) :
    sim.Within lost (sim.At .kwFunction) sim.near SameTree
      (functionDeclaration r allowIn start isAsync)
      (functionDeclaration r allowIn start' isAsync) := by
  refine .eat (by decide) fun _ _ _ => generatorStar_within.bind fun _ _ star => ?_
  refine (anyName_within false).bind fun _ _ id => trim_near_within.bind fun _ _ _ => ?_
  refine .expect (by decide) nofun fun _ _ _ _ => ?_
  refine (parametersAndBody_within inner allowIn).bind fun _ _ ⟨params, body⟩ => ?_
  exact makeNode_within (by simp [Construct.erase, star, id, params, body])

/-- A function expression behind the place of its name. -/
theorem functionTail_within {start start' : Nat} {id id' : Option Tree} {star star' : Bool}
    (sameId : SameMaybe id id') (sameStar : star = star') (isAsync : Bool) :
    sim.Within lost sim.near sim.near SameTree
      (do
        let _ ← expect .openParen .functionParen
        let (params, body) ← parametersAndBody r allowIn
        makeNode start (.functionExpression id params body isAsync star) : Rule Tree)
      (do
        let _ ← expect .openParen .functionParen
        let (params, body) ← parametersAndBody r allowIn
        makeNode start' (.functionExpression id' params body isAsync star')) := by
  refine .expect (by decide) nofun fun _ _ _ _ => ?_
  refine (parametersAndBody_within inner allowIn).bind fun _ _ ⟨params, body⟩ => ?_
  exact makeNode_within (by simp [Construct.erase, sameStar, sameId, params, body])

theorem functionExpression_within {start start' : Nat} (isAsync : Bool) :
    sim.Within lost (sim.At .kwFunction) sim.near SameTree
      (functionExpression r allowIn start isAsync)
      (functionExpression r allowIn start' isAsync) := by
  refine .eat (by decide) fun _ _ _ => generatorStar_within.bind fun _ _ star => ?_
  refine .atAny? (by decide) ?_ (.pure_bind (functionTail_within inner allowIn rfl star isAsync))
  refine ((anyName_within false).from And.left).bind fun _ _ id => ?_
  refine trim_near_within.bind fun _ _ _ => ?_
  exact .pure_bind (functionTail_within inner allowIn id.maybe star isAsync)

/-- The body of an arrow function. -/
theorem arrowBody_within : sim.Within lost sim.near sim.near SameFlagged
    (arrowBody r allowIn) (arrowBody r allowIn) := by
  refine .at? (by decide) (.from ?_ And.left) ?_
  · exact (block_within inner allowIn).bind fun _ _ body => pure_within ⟨body, rfl⟩
  · exact (inner.expression _).bind fun _ _ body => pure_within ⟨body, rfl⟩

theorem arrowFunction_within {start start' : Nat} (isAsync : Bool) :
    sim.Within lost sim.near sim.near SameTree (arrowFunction r allowIn start isAsync)
      (arrowFunction r allowIn start' isAsync) := by
  refine .expect (by decide) nofun fun _ _ _ _ => trim_near_within.bind fun _ _ _ => ?_
  refine (parameters_within inner allowIn).bind fun _ _ params => ?_
  refine .expect (by decide) nofun fun _ _ _ _ => trim_near_within.bind fun _ _ _ => ?_
  refine (arrowBody_within inner allowIn).bind fun _ _ ⟨body, expression⟩ => ?_
  exact makeNode_within (by simp [Construct.erase, params, body, expression])

theorem singleParamArrow_within {start start' : Nat} (isAsync : Bool) :
    sim.Within lost sim.near sim.near SameTree (singleParamArrow r allowIn start isAsync)
      (singleParamArrow r allowIn start' isAsync) := by
  refine plainName_within.bind fun _ _ param => trim_near_within.bind fun _ _ _ => ?_
  refine .expect (by decide) nofun fun _ _ _ _ => trim_near_within.bind fun _ _ _ => ?_
  refine (arrowBody_within inner allowIn).bind fun _ _ ⟨body, expression⟩ => ?_
  exact makeNode_within (by simp [Construct.erase, param, body, expression])

theorem classHeritage_within : sim.Within lost sim.near sim.near SameMaybe
    (classHeritage r allowIn) (classHeritage r allowIn) := by
  refine .acceptIte (by decide) ?_ (pure_within rfl)
  refine trim_near_within.bind fun _ _ _ => (inner.expression _).bind fun _ _ base => ?_
  exact trim_near_within.bind fun _ _ _ => pure_within base.maybe

theorem classMember_within : sim.Within lost sim.near sim.near SameTree
    (classMember r allowIn) (classMember r allowIn) := by
  refine .mark fun _ _ => (anyName_within true).bind fun _ _ key => ?_
  refine trim_near_within.bind fun _ _ _ => .acceptIte (by decide) ?_ ?_
  · refine (parametersAndBody_within inner allowIn).bind fun _ _ ⟨params, body⟩ => ?_
    exact makeNode_within (by simp [Construct.erase, key, params, body])
  · refine .acceptIte (by decide) ?_ ?_
    · refine trim_near_within.bind fun _ _ _ => (inner.expression _).bind fun _ _ value => ?_
      exact .pure_bind (makeNode_within (by simp [Construct.erase, eraseMaybe, key, value]))
    · exact .pure_bind (makeNode_within (by simp [Construct.erase, key]))

theorem classBody_within : sim.Within lost sim.near sim.near SameTree
    (classBody r allowIn) (classBody r allowIn) := by
  refine .mark fun _ _ => .expect (by decide) nofun fun _ _ _ _ => ?_
  refine (trimSeparators_within.from sim.far_of_near).bind fun _ _ _ => ?_
  refine .separated (inner.ends.classMembers _) (by decide)
    ((classMember_within inner allowIn).to sim.far_of_near id)
    (fun _ => starves_expect nofun) fun _ _ members => ?_
  refine .expectFar (by decide) nofun fun _ _ _ _ => ?_
  refine .makeNode (by simp [Construct.erase, members]) fun _ _ body => ?_
  exact trim_near_within.bind fun _ _ _ => pure_within body

theorem classDeclaration_within : sim.Within lost (sim.At .kwClass) sim.near SameTree
    (classDeclaration r allowIn) (classDeclaration r allowIn) := by
  refine .mark fun _ _ => .eat (by decide) fun _ _ _ => ?_
  refine (anyName_within false).bind fun _ _ id => trim_near_within.bind fun _ _ _ => ?_
  refine (classHeritage_within inner allowIn).bind fun _ _ base => ?_
  refine (classBody_within inner allowIn).bind fun _ _ body => ?_
  exact makeNode_within (by simp [Construct.erase, id, base, body])

theorem classExpression_within : sim.Within lost (sim.At .kwClass) sim.near SameTree
    (classExpression r allowIn) (classExpression r allowIn) := by
  have rest {start start' : Nat} {id id' : Option Tree} (sameId : SameMaybe id id') :
      sim.Within lost sim.near sim.near SameTree
      (do
        let base ← classHeritage r allowIn
        let body ← classBody r allowIn
        makeNode start (.classExpression id base body) : Rule Tree)
      (do
        let base ← classHeritage r allowIn
        let body ← classBody r allowIn
        makeNode start' (.classExpression id' base body)) := by
    refine (classHeritage_within inner allowIn).bind fun _ _ base => ?_
    refine (classBody_within inner allowIn).bind fun _ _ body => ?_
    exact makeNode_within (by simp [Construct.erase, sameId, base, body])
  refine .mark fun _ _ => .eat (by decide) fun _ _ _ => .at? (by decide) ?_ ?_
  · refine ((anyName_within false).from And.left).bind fun _ _ id => ?_
    exact trim_near_within.bind fun _ _ _ => .pure_bind (rest id.maybe)
  · exact .pure_bind (rest rfl)

end Callables

end ScriptFront.Script.Lockstep
