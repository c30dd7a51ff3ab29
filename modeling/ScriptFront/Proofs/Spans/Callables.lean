import ScriptFront.Proofs.Spans.Laid
import ScriptFront.Script.Grammar.Callable

namespace ScriptFront.Script

open ScriptFront.Parser

variable {ts : List (Token TokenKind)} {i : Nat}

section Tools

/-- Skipping layout leaves a gap behind the place. -/
theorem trim_lands : Lands ts i trim fun _ j => Gap ts i j := by
  apply (lands_skipWhile Token.isSpace).mono
  intro _ j _ spaces k token after before atToken
  simp [isSeparator, spaces k token after before atToken]

theorem trimSeparators_lands : Lands ts i trimSeparators fun _ j => Gap ts i j :=
  lands_skipWhile isSeparator

/-- The token taken is the one at the place, and the layout behind it is gone. -/
theorem eat_lands : Lands ts i eat fun token j => ts[i]? = some token ∧ i < j := by
  apply lands_consume.bind
  rintro token j _ ⟨atToken, rfl⟩
  apply trim_lands.bind
  intro _ k _ _
  exact lands_pure ⟨atToken, by omega⟩

theorem commaFollows_onward : Lands ts i commaFollows fun _ _ => True := by
  apply trim_lands.bind
  intro _ j _ _
  apply lands_accept_ite
  · intro _ _ _
    exact trim_lands.bind fun _ _ _ _ => lands_pure trivial
  · exact lands_pure trivial

/-- Trees that a loop finds one behind the other. -/
theorem items_laid {stop : State → Bool} {item : Rule Tree} {more : Rule Bool}
    (each : ∀ i, Lands ts i item fun t j => Laid ts i j t)
    (goOn : ∀ i, Lands ts i more fun _ _ => True) (i : Nat) :
    Lands ts i (items stop item more) fun nodes j => LaidAll ts i j nodes := by
  have within : Lands ts i (items stop item more) fun nodes j => i ≤ j ∧ LaidAll ts i j nodes := by
    apply lands_items each goOn
    · exact fun i => ⟨Nat.le_refl i, trivial⟩
    · rintro i j k l t others first gap ⟨order, listed⟩
      have some := first.between.low_lt
      exact ⟨by omega, j, first, by omega, listed.mono gap (Nat.le_refl l)⟩
  exact within.mono fun _ _ _ listed => listed.2

variable {item : Rule Tree} (each : ∀ i, Lands ts i item fun t j => Laid ts i j t)
include each

/-- The items of a list are laid one after the other: each begins where the one before it and its
comma have ended. -/
theorem commaSeparated_laid (stop : List TokenKind) (i : Nat) :
    Lands ts i (commaSeparated stop item) fun nodes j => LaidAll ts i j nodes :=
  items_laid each (fun _ => commaFollows_onward) i

theorem separated_laid (stop : List TokenKind) (i : Nat) :
    Lands ts i (separated stop item) fun nodes j => LaidAll ts i j nodes := by
  apply items_laid each
  exact fun _ => trimSeparators_lands.bind fun _ _ _ _ => lands_pure trivial

end Tools

/-!
Every rule is shown to lay the tree that it makes over the tokens that it takes. The
place of the node comes from `lands_laid`, once some token in it is known to be no layout.
-/

variable (lexed : Lexed ts)
include lexed

/-- A token that is asked for by a kind that is no layout is solid, so a node that begins with it
begins there. -/
theorem expect_solid {kind : TokenKind} (complaint : Complaint) (other : kind ∉ layoutKinds) :
    Lands ts i (expect kind complaint) fun _ j => Solid ts i ∧ j = i + 1 := by
  apply (lands_expect kind complaint.message).mono
  rintro token j _ ⟨atToken, rfl, next⟩
  exact ⟨lexed.solid_of_token atToken other, next⟩

/-- A token that has to be there, and the layout behind it. -/
theorem lands_expect_trim {β : Type} {kind : TokenKind} {complaint : Complaint}
    {f : Token TokenKind → Rule β} {goal : β → Nat → Prop} (other : kind ∉ layoutKinds)
    (next : ∀ token j, i < j → Lands ts j (f token) goal) :
    Lands ts i (expect kind complaint >>= fun token => trim >>= fun _ => f token) goal := by
  apply (expect_solid lexed complaint other).bind
  rintro token _ _ ⟨-, rfl⟩
  apply trim_lands.bind
  intro _ j onward _
  exact next token j (by omega)

section Leaves

theorem nameText_solid (anyWord : Bool) :
    Lands ts i (nameText anyWord) fun _ j => Solid ts i ∧ j = i + 1 := by
  apply Lands.ite
  · apply (lands_expectTag .word _).bind
    rintro token j _ ⟨atToken, tagged, rfl⟩
    have solid : token.isSpace = false := by
      simp only [Token.hasTag, beq_iff_eq] at tagged
      simp [Token.isSpace, Token.hasTag, tagged]
    exact lands_pure ⟨⟨token, atToken, solid⟩, rfl⟩
  · apply (expect_solid lexed _ (by decide)).bind
    rintro token j _ found
    exact lands_pure found

/-- A name reaches over its token, a private one over its two. -/
theorem anyName_laid (anyWord : Bool) :
    Lands ts i (anyName anyWord) fun t j => Laid ts i j t := by
  apply lands_mark
  apply lands_accept_ite
  · intro _ _ _
    apply (nameText_solid lexed anyWord).bind
    rintro symbol j _ ⟨solid, rfl⟩
    exact lands_laid lexed ⟨i + 1, by omega, by omega, solid⟩ trivial
  · apply (nameText_solid lexed anyWord).bind
    rintro symbol j _ ⟨solid, rfl⟩
    exact lands_laid lexed ⟨i, by omega, by omega, solid⟩ trivial

theorem plainName_laid : Lands ts i plainName fun t j => Laid ts i j t := by
  apply lands_mark
  apply (nameText_solid lexed false).bind
  rintro symbol j _ ⟨solid, rfl⟩
  exact lands_laid lexed ⟨i, by omega, by omega, solid⟩ trivial

theorem stringLiteral_laid : Lands ts i stringLiteral fun t j => Laid ts i j t := by
  apply lands_mark
  apply (expect_solid lexed _ (by decide)).bind
  rintro token j _ ⟨solid, rfl⟩
  exact lands_laid lexed ⟨i, by omega, by omega, solid⟩ ⟨trivial, trivial⟩

/-- A number reaches from its first digit to the place where the last of its tokens was taken. -/
theorem numericNode_laid {k : Nat} (solid : Solid ts i) (onward : i + 1 ≤ k) (float : Bool)
    (raw : String) : Lands ts k
      (match Double.read? raw with
        | some value => makeNode i (.numericLiteral value raw float)
        | none => complain .numericLiteral : Rule Tree) fun t j => Laid ts i j t := by
  cases Double.read? raw with
  | some value => exact lands_laid lexed ⟨i, by omega, by omega, solid⟩ ⟨trivial, trivial, trivial⟩
  | none => exact lands_fail _

theorem numericLiteral_laid : Lands ts i numericLiteral fun t j => Laid ts i j t := by
  apply lands_mark
  apply (expect_solid lexed _ (by decide)).bind
  rintro whole j _ ⟨solid, rfl⟩
  apply (accept_onward _).bind
  intro float k onward _
  apply Lands.ite
  · apply (expect_solid lexed _ (by decide)).bind
    rintro fraction l _ ⟨-, rfl⟩
    exact numericNode_laid lexed solid (by omega) float _
  · exact numericNode_laid lexed solid onward float _

omit lexed in
theorem regExpText_onward (budget : Nat) :
    Lands ts i (regExpText budget) fun _ _ => True := by
  induction budget generalizing i with
  | zero => exact lands_pure trivial
  | succ budget ih =>
    unfold regExpText
    apply lands_if (lands_pure trivial)
    apply lands_consume.bind
    intro token j _ _
    split
    · exact lands_pure trivial
    · apply lands_if
      · apply lands_consume.bind
        intro next k _ _
        exact ih.bind fun _ _ _ _ => lands_pure trivial
      · exact ih.bind fun _ _ _ _ => lands_pure trivial
    · exact ih.bind fun _ _ _ _ => lands_pure trivial

/-- A regular expression reaches over whatever its text takes. The opening slash alone makes it
solid. -/
theorem regExpLiteral_laid (solid : Solid ts i) :
    Lands ts i regExpLiteral fun t j => Laid ts i j t := by
  have node (k : Nat) (onward : i + 1 ≤ k) (pattern : String) : Lands ts k
      (do
        let flags := (← consumeIf .identifier).map (·.text)
        makeNode i (.regExpLiteral pattern flags ("/" ++ pattern ++ "/" ++ flags.getD "")) :
        Rule Tree) fun t j => Laid ts i j t := by
    apply (consumeIf_onward _).bind
    intro flags l _ _
    exact lands_laid lexed ⟨i, by omega, by omega, solid⟩ ⟨trivial, trivial, trivial⟩
  apply lands_mark
  apply lands_consume.bind
  rintro _ j _ ⟨-, rfl⟩
  apply lands_observe
  intro budget
  apply (regExpText_onward budget).bind
  intro text k onward _
  apply Lands.ite
  · apply (expect_solid lexed _ (by decide)).bind
    rintro _ l _ ⟨-, rfl⟩
    exact node (k + 1) (by omega) text.1
  · exact node k onward text.1

/-- A comment reaches over all its tokens. The layout behind it is skipped after the node was made,
so it is left out. -/
theorem blockComment_spanned : Lands ts i blockComment fun t j => Spanned ts i j t := by
  apply lands_mark
  apply lands_consume.bind
  rintro _ j _ ⟨-, rfl⟩
  apply (consumeIf_onward _).bind
  intro content k _ _
  apply (expect_solid lexed _ (by decide)).bind
  rintro _ l _ ⟨solid, rfl⟩
  refine Lands.bind (lands_spanned lexed ⟨k, by omega, by omega, solid⟩ trivial) ?_
  intro comment m _ spanned
  apply trim_lands.bind
  intro _ n onward gap
  exact lands_pure (spanned.beyond gap onward)

/-- The line break behind a comment is layout, so it belongs to nothing. -/
theorem lineComment_spanned (solid : Solid ts i) :
    Lands ts i lineComment fun t j => Spanned ts i j t := by
  apply lands_mark
  apply lands_consume.bind
  rintro _ j _ ⟨-, rfl⟩
  apply (consumeIf_onward _).bind
  intro content k _ _
  refine Lands.bind (lands_spanned lexed ⟨i, by omega, by omega, solid⟩ trivial) ?_
  intro comment l _ spanned
  have ending (m : Nat) (onward : l ≤ m) (gap : Gap ts l m) : Lands ts m
      (do trim; return comment : Rule Tree) fun t j => Spanned ts i j t := by
    apply trim_lands.bind
    intro _ n further behind
    exact lands_pure (spanned.beyond (gap.append behind) (by omega))
  apply lands_if
  · apply (lands_expect _ _).bind
    rintro token m _ ⟨atToken, ofKind, rfl⟩
    have space := lexed.isSpace_of_token atToken (by rw [ofKind]; decide)
    apply ending (l + 1) (by omega)
    intro k other after before atOther
    obtain rfl : k = l := by omega
    cases atToken.symm.trans atOther
    simp [isSeparator, space]
  · apply ending l (Nat.le_refl l)
    intro k other after before
    omega

end Leaves

/-- Rules that lay what they make over the tokens that they take. Expressions, patterns and branches
are laid, and statements are spanned as well. -/
structure Rules.Lays (ts : List (Token TokenKind)) (r : Rules) : Prop where
  statement : ∀ allowIn i, Lands ts i (r.statement allowIn) fun t j => Laid ts i j t
  expression : ∀ allowIn i, Lands ts i (r.expression allowIn) fun t j => Laid ts i j t
  binding : ∀ allowIn i, Lands ts i (r.binding allowIn) fun t j => Laid ts i j t
  ifStatement : ∀ allowIn i, Lands ts i (r.ifStatement allowIn) fun t j => Laid ts i j t

variable {r : Rules} (inner : r.Lays ts) (allowIn : Bool)
include inner

section Patterns

theorem propertyKey_laid (i : Nat) :
    Lands ts i (propertyKey r allowIn) fun key j => Laid ts i j key.1 := by
  apply lands_accept_ite
  · intro _ _ _
    apply trim_lands.bind
    intro _ j _ _
    apply (inner.expression allowIn j).bind
    intro key k _ laid
    apply trim_lands.bind
    intro _ l _ _
    apply (expect_solid lexed _ (by decide)).bind
    intro _ m _ _
    exact lands_pure (laid.mono (by omega) (by omega))
  · apply lands_currentKind
    split
    · exact (stringLiteral_laid lexed).bind fun key j _ laid => lands_pure laid
    · exact (numericLiteral_laid lexed).bind fun key j _ laid => lands_pure laid
    · exact (anyName_laid lexed true).bind fun key j _ laid => lands_pure laid

/-- With a default value a new node reaches from the pattern to the value. -/
theorem withDefault_laid {start : Nat} {left : Tree} (laid : Laid ts start i left) :
    Lands ts i (withDefault r allowIn start left) fun t j => Laid ts start j t := by
  have since := laid.between.low_lt
  apply lands_accept_ite
  · intro _ _ _
    apply trim_lands.bind
    intro _ j _ _
    apply (inner.expression allowIn j).bind
    intro right k _ laidRight
    apply trim_lands.bind
    intro _ l _ _
    have before : Laid ts start l left := laid.mono (by omega) (by omega)
    have behind : Laid ts start l right := laidRight.mono (by omega) (by omega)
    exact lands_laid lexed before.solid ⟨before, behind⟩
  · exact lands_pure laid

theorem bindingWithDefault_laid (i : Nat) :
    Lands ts i (bindingWithDefault r allowIn) fun t j => Laid ts i j t := by
  apply lands_mark
  apply (inner.binding allowIn i).bind
  intro left j _ laid
  apply trim_lands.bind
  intro _ k _ _
  exact withDefault_laid lexed inner allowIn (laid.mono (by omega) (by omega))

theorem restOrBinding_laid (i : Nat) :
    Lands ts i (restOrBinding r allowIn) fun t j => Laid ts i j t := by
  apply lands_if
  · apply lands_mark
    apply eat_lands.bind
    intro _ j _ _
    apply (inner.binding allowIn j).bind
    intro argument k _ laid
    have inside : Laid ts i k argument := laid.mono (by omega) (by omega)
    exact lands_laid lexed inside.solid inside
  · exact bindingWithDefault_laid lexed inner allowIn i

theorem parameters_laid (i : Nat) :
    Lands ts i (parameters r allowIn) fun params j => LaidAll ts i j params := by
  apply (commaSeparated_laid (restOrBinding_laid lexed inner allowIn) _ i).bind
  intro params j _ laid
  apply lands_expect_trim lexed (by decide)
  intro _ l _
  exact lands_pure (laid.mono (by omega) (by omega))

theorem arrayPattern_laid (i : Nat) :
    Lands ts i (arrayPattern r allowIn) fun t j => Laid ts i j t := by
  apply lands_mark
  apply eat_lands.bind
  intro _ j _ _
  apply (commaSeparated_laid (restOrBinding_laid lexed inner allowIn) _ j).bind
  intro elements k _ laid
  apply (expect_solid lexed _ (by decide)).bind
  rintro _ l _ ⟨solid, rfl⟩
  have inside : LaidAll ts i (k + 1) elements := laid.mono (by omega) (by omega)
  exact lands_laid lexed ⟨k, by omega, by omega, solid⟩ inside

/-- A short member holds one tree as its key and as its value. Both fields are laid at the same
place, as fields need not follow each other. -/
theorem patternMember_laid (i : Nat) :
    Lands ts i (patternMember r allowIn) fun t j => Laid ts i j t := by
  apply lands_mark
  apply lands_accept_ite
  · intro _ _ _
    apply trim_lands.bind
    intro _ j _ _
    apply (inner.binding allowIn j).bind
    intro argument k _ laid
    have inside : Laid ts i k argument := laid.mono (by omega) (by omega)
    exact lands_laid lexed inside.solid inside
  · apply (propertyKey_laid lexed inner allowIn i).bind
    intro key j _ laidKey
    apply trim_lands.bind
    intro _ k onward _
    apply lands_accept_ite
    · intro _ _ _
      apply trim_lands.bind
      intro _ l _ _
      apply (bindingWithDefault_laid lexed inner allowIn l).bind
      intro value m _ laidValue
      have before : Laid ts i m key.1 := laidKey.mono (by omega) (by omega)
      have behind : Laid ts i m value := laidValue.mono (by omega) (by omega)
      exact lands_laid lexed before.solid ⟨before, behind, trivial, trivial⟩
    · apply Lands.ite (lands_fail _)
      apply (withDefault_laid lexed inner allowIn (laidKey.mono (Nat.le_refl i) onward)).bind
      intro value l _ laidValue
      have before : Laid ts i l key.1 := laidKey.mono (by omega) (by omega)
      exact lands_laid lexed before.solid ⟨before, laidValue, trivial, trivial⟩

theorem objectPattern_laid (i : Nat) :
    Lands ts i (objectPattern r allowIn) fun t j => Laid ts i j t := by
  apply lands_mark
  apply eat_lands.bind
  intro _ j _ _
  apply (commaSeparated_laid (patternMember_laid lexed inner allowIn) _ j).bind
  intro properties k _ laid
  apply (expect_solid lexed _ (by decide)).bind
  rintro _ l _ ⟨solid, rfl⟩
  have inside : LaidAll ts i (k + 1) properties := laid.mono (by omega) (by omega)
  exact lands_laid lexed ⟨k, by omega, by omega, solid⟩ inside

theorem binding_laid (i : Nat) : Lands ts i (binding r allowIn) fun t j => Laid ts i j t := by
  apply lands_currentKind
  split
  · exact objectPattern_laid lexed inner allowIn i
  · exact arrayPattern_laid lexed inner allowIn i
  · exact anyName_laid lexed false
  · exact anyName_laid lexed false
  · exact lands_fail _

end Patterns

section Callables

/-- A block reaches from brace to brace. Its statements are laid in between, and the layout behind
it is a gap. -/
theorem block_spanned (i : Nat) :
    Lands ts i (block r allowIn) fun t j => Spanned ts i j t := by
  apply lands_mark
  apply (expect_solid lexed _ (by decide)).bind
  rintro _ j _ ⟨solid, rfl⟩
  apply trimSeparators_lands.bind
  intro _ k _ _
  apply (separated_laid (inner.statement allowIn) _ k).bind
  intro body l _ laid
  apply (expect_solid lexed _ (by decide)).bind
  rintro _ m _ ⟨-, rfl⟩
  have inside : LaidAll ts i (l + 1) body := laid.mono (by omega) (by omega)
  refine Lands.bind (lands_spanned lexed ⟨i, by omega, by omega, solid⟩ inside) ?_
  intro node n _ spanned
  apply trim_lands.bind
  intro _ o onward gap
  exact lands_pure (spanned.beyond gap onward)

theorem block_laid (i : Nat) : Lands ts i (block r allowIn) fun t j => Laid ts i j t :=
  (block_spanned lexed inner allowIn i).mono fun _ _ _ spanned => spanned.laid

theorem parametersAndBody_laid (i : Nat) :
    Lands ts i (parametersAndBody r allowIn) fun found j =>
      LaidAll ts i j found.1 ∧ Laid ts i j found.2 := by
  apply trim_lands.bind
  intro _ j _ _
  apply (parameters_laid lexed inner allowIn j).bind
  intro params k _ laidParams
  apply (block_laid lexed inner allowIn k).bind
  intro body l _ laidBody
  exact lands_pure ⟨laidParams.mono (by omega) (by omega), laidBody.mono (by omega) (by omega)⟩

omit lexed inner in
theorem generatorStar_onward : Lands ts i generatorStar fun _ _ => True := by
  apply (accept_onward _).bind
  intro _ j _ _
  exact trim_lands.bind fun _ _ _ _ => lands_pure trivial

/-- A function reaches from where it was started, which may be the word `async` in front of it, to
the end of its body. -/
theorem functionDeclaration_spanned {start : Nat} (since : start ≤ i) (isAsync : Bool) :
    Lands ts i (functionDeclaration r allowIn start isAsync) fun t j => Spanned ts start j t := by
  apply eat_lands.bind
  intro _ j _ _
  apply generatorStar_onward.bind
  intro isGenerator k _ _
  apply (anyName_laid lexed false).bind
  intro id l _ laidId
  apply trim_lands.bind
  intro _ m _ _
  apply (expect_solid lexed _ (by decide)).bind
  intro _ n _ _
  apply (parametersAndBody_laid lexed inner allowIn n).bind
  rintro ⟨params, body⟩ o _ ⟨laidParams, laidBody⟩
  have name : Laid ts start o id := laidId.mono (by omega) (by omega)
  exact lands_spanned lexed name.solid
    ⟨name, laidParams.mono (by omega) (by omega), laidBody.mono (by omega) (by omega),
      trivial, trivial⟩

/-- A function expression behind the place of its name. -/
theorem functionTail_laid {start : Nat} (since : start ≤ i) {id : Option Tree}
    (laidId : MaybeLaid ts start i id) (isAsync isGenerator : Bool) :
    Lands ts i
      (do
        let _ ← expect .openParen .functionParen
        let (params, body) ← parametersAndBody r allowIn
        makeNode start (.functionExpression id params body isAsync isGenerator) : Rule Tree)
      fun t j => Laid ts start j t := by
  apply (expect_solid lexed _ (by decide)).bind
  intro _ m _ _
  apply (parametersAndBody_laid lexed inner allowIn m).bind
  rintro ⟨params, body⟩ n _ ⟨laidParams, laidBody⟩
  have inside : Laid ts start n body := laidBody.mono (by omega) (by omega)
  exact lands_laid lexed inside.solid
    ⟨laidId.mono (by omega) (by omega),
      laidParams.mono (by omega) (by omega), inside, trivial, trivial⟩

theorem functionExpression_laid {start : Nat} (since : start ≤ i) (isAsync : Bool) :
    Lands ts i (functionExpression r allowIn start isAsync) fun t j => Laid ts start j t := by
  apply eat_lands.bind
  intro _ j _ _
  apply generatorStar_onward.bind
  intro isGenerator k _ _
  apply lands_if
  · apply (anyName_laid lexed false).bind
    intro id l _ laidId
    apply trim_lands.bind
    intro _ m _ _
    have name : MaybeLaid ts start m (some id) := (laidId.mono (by omega) (by omega)).some
    exact functionTail_laid lexed inner allowIn (by omega) name isAsync isGenerator
  · exact functionTail_laid lexed inner allowIn (by omega) .none isAsync isGenerator

theorem arrowBody_laid (i : Nat) :
    Lands ts i (arrowBody r allowIn) fun found j => Laid ts i j found.1 := by
  apply lands_if
  · exact (block_laid lexed inner allowIn i).bind fun body j _ laid => lands_pure laid
  · exact (inner.expression allowIn i).bind fun body j _ laid => lands_pure laid

/-- An arrow function reaches from its parameters, or from the word `async`, to the end of its body.
-/
theorem arrowFunction_laid {start : Nat} (since : start ≤ i) (isAsync : Bool) :
    Lands ts i (arrowFunction r allowIn start isAsync) fun t j => Laid ts start j t := by
  apply lands_expect_trim lexed (by decide)
  intro _ k _
  apply (parameters_laid lexed inner allowIn k).bind
  intro params l _ laidParams
  apply lands_expect_trim lexed (by decide)
  intro _ n _
  apply (arrowBody_laid lexed inner allowIn n).bind
  intro body o _ laidBody
  have inside : Laid ts start o body.1 := laidBody.mono (by omega) (by omega)
  exact lands_laid lexed inside.solid
    ⟨laidParams.mono (by omega) (by omega), inside, trivial, trivial⟩

theorem singleParamArrow_laid {start : Nat} (since : start ≤ i) (isAsync : Bool) :
    Lands ts i (singleParamArrow r allowIn start isAsync) fun t j => Laid ts start j t := by
  apply (plainName_laid lexed).bind
  intro param j _ laidParam
  apply trim_lands.bind
  intro _ k _ _
  apply lands_expect_trim lexed (by decide)
  intro _ m _
  apply (arrowBody_laid lexed inner allowIn m).bind
  intro body n _ laidBody
  have inside : Laid ts start n body.1 := laidBody.mono (by omega) (by omega)
  exact lands_laid lexed inside.solid
    ⟨⟨n, laidParam.mono (by omega) (by omega), by omega, trivial⟩, inside, trivial, trivial⟩

omit lexed in
theorem classHeritage_laid (i : Nat) :
    Lands ts i (classHeritage r allowIn) fun base j => MaybeLaid ts i j base := by
  apply lands_accept_ite
  · intro _ _ _
    apply trim_lands.bind
    intro _ j _ _
    apply (inner.expression allowIn j).bind
    intro base k _ laid
    apply trim_lands.bind
    intro _ l _ _
    exact lands_pure (laid.mono (by omega) (by omega)).some
  · exact lands_pure .none

theorem classMember_laid (i : Nat) :
    Lands ts i (classMember r allowIn) fun t j => Laid ts i j t := by
  apply lands_mark
  apply (anyName_laid lexed true).bind
  intro key j _ laidKey
  apply trim_lands.bind
  intro _ k _ _
  apply lands_accept_ite
  · intro _ _ _
    apply (parametersAndBody_laid lexed inner allowIn (k + 1)).bind
    rintro ⟨params, body⟩ l _ ⟨laidParams, laidBody⟩
    have name : Laid ts i l key := laidKey.mono (by omega) (by omega)
    exact lands_laid lexed name.solid
      ⟨name, laidParams.mono (by omega) (by omega), laidBody.mono (by omega) (by omega)⟩
  · have node (l : Nat) (value : Option Tree) (onward : k ≤ l)
        (laidValue : MaybeLaid ts i l value) :
        Lands ts l (makeNode i (.classProperty key value) : Rule Tree) fun t j => Laid ts i j t := by
      have name : Laid ts i l key := laidKey.mono (by omega) (by omega)
      exact lands_laid lexed name.solid ⟨name, laidValue⟩
    apply lands_accept_ite
    · intro _ _ _
      apply trim_lands.bind
      intro _ l _ _
      apply (inner.expression allowIn l).bind
      intro value m _ laidValue
      exact node m (some value) (by omega) (laidValue.mono (by omega) (by omega)).some
    · exact node k none (by omega) .none

theorem classBody_laid (i : Nat) :
    Lands ts i (classBody r allowIn) fun t j => Laid ts i j t := by
  apply lands_mark
  apply (expect_solid lexed _ (by decide)).bind
  rintro _ j _ ⟨solid, rfl⟩
  apply trimSeparators_lands.bind
  intro _ k _ _
  apply (separated_laid (classMember_laid lexed inner allowIn) _ k).bind
  intro members l _ laid
  apply (expect_solid lexed _ (by decide)).bind
  rintro _ m _ ⟨-, rfl⟩
  have inside : LaidAll ts i (l + 1) members := laid.mono (by omega) (by omega)
  refine Lands.bind (lands_laid lexed ⟨i, by omega, by omega, solid⟩ inside) ?_
  intro body n _ laidBody
  apply trim_lands.bind
  intro _ o _ _
  exact lands_pure (laidBody.mono (by omega) (by omega))

theorem classDeclaration_spanned (i : Nat) :
    Lands ts i (classDeclaration r allowIn) fun t j => Spanned ts i j t := by
  apply lands_mark
  apply eat_lands.bind
  intro _ j _ _
  apply (anyName_laid lexed false).bind
  intro id k _ laidId
  apply trim_lands.bind
  intro _ l _ _
  apply (classHeritage_laid inner allowIn l).bind
  intro base m _ laidBase
  apply (classBody_laid lexed inner allowIn m).bind
  intro body n _ laidBody
  have inside : Laid ts i n body := laidBody.mono (by omega) (by omega)
  exact lands_spanned lexed inside.solid
    ⟨laidId.mono (by omega) (by omega),
      laidBase.mono (by omega) (by omega), inside⟩

theorem classExpression_laid (i : Nat) :
    Lands ts i (classExpression r allowIn) fun t j => Laid ts i j t := by
  apply lands_mark
  apply eat_lands.bind
  intro _ j _ _
  have rest (k : Nat) (id : Option Tree) (onward : j ≤ k)
      (laidId : MaybeLaid ts i k id) : Lands ts k
      (do
        let base ← classHeritage r allowIn
        let body ← classBody r allowIn
        makeNode i (.classExpression id base body) : Rule Tree) fun t j => Laid ts i j t := by
    apply (classHeritage_laid inner allowIn k).bind
    intro base l _ laidBase
    apply (classBody_laid lexed inner allowIn l).bind
    intro body m _ laidBody
    have inside : Laid ts i m body := laidBody.mono (by omega) (by omega)
    exact lands_laid lexed inside.solid
      ⟨laidId.mono (by omega) (by omega),
        laidBase.mono (by omega) (by omega), inside⟩
  apply lands_if
  · apply (anyName_laid lexed false).bind
    intro id k _ laidId
    apply trim_lands.bind
    intro _ l _ _
    exact rest l (some id) (by omega) (laidId.mono (by omega) (by omega)).some
  · exact rest j none (by omega) .none

end Callables

end ScriptFront.Script
