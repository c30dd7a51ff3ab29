import ScriptFront.Proofs.Header.Persists
import ScriptFront.Proofs.Refusals

namespace ScriptFront.Script

open ScriptFront.Parser

variable {ts : List (Token TokenKind)} {i start : Nat} {given : Prop} {r : Rules}
  (keep : r.Persist ts)
include keep

section Patterns

/-- A computed key is in brackets, but what is allowed there is what is allowed around; so of its
expression it is asked that `in` be sheltered or that it stand in parentheses. -/
theorem propertyKey_persists (i : Nat) : Persists ts i True (propertyKey r true) (propertyKey r false)
    fun key => key.2 = true → Covered ts key.1 := by
  refine .accept (fun _ atToken ofKind => .trim fun j _ unopened => ?_) ?_
  · refine (keep.operand (unopened (keep.behind atToken ofKind (by decide)))).bind fun key k _ => ?_
    exact .trim fun l _ _ => .expect fun _ _ _ => .pure fun covered => ⟨trivial, covered rfl⟩
  · refine .same (fun n => ?_) fun _ _ => trivial
    refine (steady_observe _).bind fun kind => ?_
    split
    · exact stringLiteral_taking.steady.bind fun _ => steady_pure _
    · exact numericLiteral_taking.steady.bind fun _ => steady_pure _
    · exact (anyName_taking true).steady.bind fun _ => steady_pure _

/-- A default value is an operand of the node around it, so what is asked of the node covers the
value. -/
theorem withDefault_persists {left : Tree} (holds : Sheltered ts left → given) :
    Persists ts i given (withDefault r true start left) (withDefault r false start left)
      (Sheltered ts) := by
  refine .accept (fun _ atToken ofKind => .trim fun j _ unopened => ?_) (.pure holds)
  refine (keep.operand (unopened (keep.behind atToken ofKind (by decide)))).bind fun right k _ => ?_
  refine .trim fun l _ _ => persists_makeNode fun span sheltered => ⟨?_, ?_⟩
  · exact holds (sheltered.body List.mem_cons_self)
  · exact sheltered.covered List.mem_cons_self

theorem bindingWithDefault_persists (i : Nat) : Persists ts i True (bindingWithDefault r true)
    (bindingWithDefault r false) (Sheltered ts) := by
  refine .mark ((keep.binding i).bind fun left j _ => .trim fun k _ _ => ?_)
  exact withDefault_persists keep fun sheltered => ⟨trivial, sheltered⟩

theorem restOrBinding_persists (i : Nat) : Persists ts i True (restOrBinding r true)
    (restOrBinding r false) (Sheltered ts) := by
  refine .test (.mark (.eat fun _ j _ _ _ => ?_)) (bindingWithDefault_persists keep i)
  refine (keep.binding j).bind fun argument k _ => persists_makeNode fun span sheltered => ?_
  exact ⟨trivial, sheltered.body List.mem_cons_self⟩

theorem parameters_persists (i : Nat) : Persists ts i True (parameters r true) (parameters r false)
    fun params => ∀ t ∈ params, Sheltered ts t := by
  refine (Persists.commaSeparated (restOrBinding_persists keep) i).bind fun params j _ => ?_
  exact .expect fun _ _ _ => .trim fun k _ _ => .pure fun sheltered => ⟨trivial, sheltered⟩

/-- The elements are bodies of the pattern, each asked for what the pattern is asked for. -/
theorem arrayPattern_persists (i : Nat) : Persists ts i True (arrayPattern r true)
    (arrayPattern r false) (Sheltered ts) := by
  refine .mark (.eat fun _ j _ _ _ => ?_)
  refine (Persists.commaSeparated (restOrBinding_persists keep) j).bind fun elements k _ => ?_
  refine .expect fun _ _ _ => persists_makeNode fun span sheltered => ⟨trivial, fun t member => ?_⟩
  exact sheltered.body member

/-- A member asks it of its value and, if that is computed, of its key. -/
theorem patternMember_persists (i : Nat) : Persists ts i True (patternMember r true)
    (patternMember r false) (Sheltered ts) := by
  refine .mark (.accept (fun _ _ _ => .trim fun j _ _ => ?_) ?_)
  · refine (keep.binding j).bind fun argument k _ => persists_makeNode fun span sheltered => ?_
    exact ⟨trivial, sheltered.body List.mem_cons_self⟩
  refine (propertyKey_persists keep i).bind fun ⟨key, computed⟩ j _ => .trim fun k _ _ => ?_
  refine .accept (fun _ _ _ => .trim fun l _ _ => ?_) ?_
  · refine (bindingWithDefault_persists keep l).bind fun value m _ => ?_
    refine persists_makeNode fun span sheltered => ⟨⟨trivial, ?_⟩, ?_⟩
    · rintro rfl
      exact sheltered.covered List.mem_cons_self
    · exact sheltered.body List.mem_cons_self
  · split
    · exact .complain _
    · rename_i plain
      have named : computed = false := by simp_all
      refine (withDefault_persists keep fun _ => trivial).bind fun value l _ => ?_
      refine persists_makeNode fun span sheltered => ⟨⟨trivial, ?_⟩, ?_⟩
      · rw [named]
        exact nofun
      · exact sheltered.body List.mem_cons_self

theorem objectPattern_persists (i : Nat) : Persists ts i True (objectPattern r true)
    (objectPattern r false) (Sheltered ts) := by
  refine .mark (.eat fun _ j _ _ _ => ?_)
  refine (Persists.commaSeparated (patternMember_persists keep) j).bind fun properties k _ => ?_
  exact .expect fun _ _ _ => persists_makeNode fun span sheltered => ⟨trivial, fun t => sheltered.body⟩

/-- A name is parsed without looking at `in`, and the two sorts of patterns are cases above. -/
theorem binding_persists (i : Nat) : Persists ts i True (binding r true) (binding r false)
    (Sheltered ts) := by
  refine .seen fun kind => ?_
  split
  · exact objectPattern_persists keep i
  · exact arrayPattern_persists keep i
  · exact .taking fun _ => anyName_taking false
  · exact .taking fun _ => anyName_taking false
  · exact .complain _

end Patterns

section Callables

theorem block_persists (i : Nat) : Persists ts i True (block r true) (block r false)
    (Sheltered ts) := by
  refine .mark (.expect fun _ _ _ => .separators fun j _ => ?_)
  refine (Persists.separated keep.statement j).bind fun body k _ => .expect fun _ _ _ => ?_
  refine .made fun t made => .trim fun l _ _ => .pure fun sheltered => ⟨trivial, ?_⟩
  exact fun inner member => sheltered.body (made ▸ member)

theorem parametersAndBody_persists (i : Nat) : Persists ts i True (parametersAndBody r true)
    (parametersAndBody r false) fun parts => ∀ t ∈ parts.2 :: parts.1, Sheltered ts t := by
  refine .trim fun j _ _ => (parameters_persists keep j).bind fun params k _ => ?_
  refine (block_persists keep k).bind fun body l _ => .pure fun sheltered => ?_
  obtain ⟨body, params⟩ := List.forall_mem_cons.mp sheltered
  exact ⟨⟨trivial, params⟩, body⟩

/-- Up to the parameters nothing depends on `in`, so the two rules take the same tokens there. -/
theorem functionDeclaration_persists (isAsync : Bool) (i : Nat) : Persists ts i True
    (functionDeclaration r true start isAsync) (functionDeclaration r false start isAsync)
    (Sheltered ts) := by
  refine .eat fun _ j _ _ _ => .skip (fun _ => generatorStar_steady) fun isGenerator k _ => ?_
  refine .skip (fun _ => (anyName_taking false).steady) fun id l _ => .trim fun m _ _ => ?_
  refine .expect fun _ _ _ => (parametersAndBody_persists keep _).bind fun (params, body) n _ => ?_
  exact persists_makeNode fun span sheltered => ⟨trivial, fun t => sheltered.body⟩

/-- The end of a function expression, behind its name if it has one. It begins behind its word, so
it is asked what a tree from `start` on is asked. -/
theorem functionTail_persists (isAsync isGenerator : Bool) (solid : Solid ts start)
    (id : Option Tree) (since : start ≤ i) :
    Persists ts i True
      (do
        let _ ← expect .openParen .functionParen
        let (params, body) ← parametersAndBody r true
        makeNode start (.functionExpression id params body isAsync isGenerator))
      (do
        let _ ← expect .openParen .functionParen
        let (params, body) ← parametersAndBody r false
        makeNode start (.functionExpression id params body isAsync isGenerator))
      (ShelteredAt ts start) := by
  refine .expect fun _ _ _ => (parametersAndBody_persists keep _).bind fun (params, body) k _ => ?_
  refine persists_begun keep.lexed.measured solid (by omega) fun span _ sheltered => ?_
  exact ⟨trivial, fun t => sheltered.body⟩

/-- The word `function` comes first and is no parenthesis, so the tree begins there. -/
theorem functionExpression_persists (isAsync : Bool) (solid : Solid ts start) (since : start ≤ i) :
    Persists ts i True (functionExpression r true start isAsync)
      (functionExpression r false start isAsync) (ShelteredAt ts start) := by
  have rest (isGenerator : Bool) (id : Option Tree) (j : Nat) (onward : start ≤ j) :=
    functionTail_persists keep isAsync isGenerator solid id onward
  refine .eat fun _ j _ _ _ => .skip (fun _ => generatorStar_steady) fun isGenerator k _ => ?_
  refine .test ?_ (rest isGenerator none k (by omega))
  refine .skip (fun _ => (anyName_taking false).steady) fun id l _ => .trim fun m _ _ => ?_
  exact rest isGenerator (some id) m (by omega)

/-- The body of an arrow function, which is an operand if it is an expression. -/
theorem arrowBody_persists (unopened : Unopened ts i) : Persists ts i True (arrowBody r true)
    (arrowBody r false) fun body =>
      (body.2 = true → Covered ts body.1) ∧ (body.2 = false → Sheltered ts body.1) := by
  refine .test ?_ ?_
  · exact (block_persists keep i).bind fun body j _ => .pure fun asked => ⟨trivial, asked.2 rfl⟩
  · exact (keep.operand unopened).bind fun body j _ => .pure fun asked => ⟨trivial, asked.1 rfl⟩

omit keep in
/-- What an arrow function is asked for falls on its parameters and on its body: as an operand if it
is an expression, as a body if it is a block. -/
theorem Sheltered.arrow {params : List Tree} {body : Tree} {expression isAsync : Bool} {span : Span}
    (sheltered : Sheltered ts ⟨.arrowFunctionExpression params body expression isAsync, span⟩) :
    (∀ t ∈ params, Sheltered ts t) ∧
      (expression = true → Covered ts body) ∧ (expression = false → Sheltered ts body) := by
  cases expression with
  | true => exact ⟨fun t => sheltered.body, fun _ => sheltered.covered List.mem_cons_self, nofun⟩
  | false =>
    exact ⟨fun t member => sheltered.body (List.mem_cons_of_mem _ member), nofun,
      fun _ => sheltered.body List.mem_cons_self⟩

/-- Neither the parentheses nor the arrow depends on `in`. -/
theorem arrowFunction_persists (isAsync : Bool) (solid : Solid ts start) (since : start ≤ i) :
    Persists ts i True (arrowFunction r true start isAsync) (arrowFunction r false start isAsync)
      (ShelteredAt ts start) := by
  refine .expect fun _ _ _ => .trim fun j _ _ => (parameters_persists keep j).bind fun params k _ => ?_
  refine .expect fun _ atToken ofKind => .trim fun l _ unopened => ?_
  have free := unopened (keep.behind atToken ofKind (by decide))
  refine (arrowBody_persists keep free).bind fun (body, expression) m _ => ?_
  refine persists_begun keep.lexed.measured solid (by omega) fun span _ sheltered => ?_
  obtain ⟨params, body⟩ := sheltered.arrow
  exact ⟨⟨trivial, params⟩, body⟩

theorem singleParamArrow_persists (isAsync : Bool) (solid : Solid ts start) (since : start ≤ i) :
    Persists ts i True (singleParamArrow r true start isAsync)
      (singleParamArrow r false start isAsync) (ShelteredAt ts start) := by
  refine .skip (fun _ => plainName_taking.steady) fun param j _ => .trim fun k _ _ => ?_
  refine .expect fun _ atToken ofKind => .trim fun l _ unopened => ?_
  have free := unopened (keep.behind atToken ofKind (by decide))
  refine (arrowBody_persists keep free).bind fun (body, expression) m _ => ?_
  refine persists_begun keep.lexed.measured solid (by omega) fun span _ sheltered => ?_
  exact ⟨trivial, sheltered.arrow.2⟩

theorem classHeritage_persists (i : Nat) : Persists ts i True (classHeritage r true)
    (classHeritage r false) fun base => ∀ t ∈ base, Covered ts t := by
  refine .accept (fun _ atToken ofKind => .trim fun j _ unopened => ?_) (.pure fun _ => trivial)
  refine (keep.operand (unopened (keep.behind atToken ofKind (by decide)))).bind fun base k _ => ?_
  exact .trim fun l _ _ => .pure fun covered => ⟨trivial, covered base rfl⟩

/-- A method is asked for its parameters and its body, and a property for its value. -/
theorem classMember_persists (i : Nat) : Persists ts i True (classMember r true)
    (classMember r false) (Sheltered ts) := by
  refine .mark (.skip (fun _ => (anyName_taking true).steady) fun key j _ => .trim fun k _ _ => ?_)
  refine .accept (fun _ _ _ => ?_) (.accept (fun _ atToken ofKind => .trim fun l _ unopened => ?_) ?_)
  · refine (parametersAndBody_persists keep _).bind fun (params, body) l _ => ?_
    exact persists_makeNode fun span sheltered => ⟨trivial, fun t => sheltered.body⟩
  · refine (keep.operand (unopened (keep.behind atToken ofKind (by decide)))).bind fun value m _ => ?_
    refine persists_makeNode fun span sheltered => ⟨trivial, ?_⟩
    exact sheltered.covered List.mem_cons_self
  · exact persists_makeNode fun span sheltered => trivial

theorem classBody_persists (i : Nat) : Persists ts i True (classBody r true) (classBody r false)
    (Sheltered ts) := by
  refine .mark (.expect fun _ _ _ => .separators fun j _ => ?_)
  refine (Persists.separated (classMember_persists keep) j).bind fun members k _ => ?_
  refine .expect fun _ _ _ => .made fun t made => .trim fun l _ _ => .pure fun sheltered => ?_
  exact ⟨trivial, fun inner member => sheltered.body (made ▸ member)⟩

theorem classDeclaration_persists (i : Nat) : Persists ts i True (classDeclaration r true)
    (classDeclaration r false) (Sheltered ts) := by
  refine .mark (.eat fun _ j _ _ _ => .skip (fun _ => (anyName_taking false).steady) fun id k _ => ?_)
  refine .trim fun l _ _ => (classHeritage_persists keep l).bind fun base m _ => ?_
  refine (classBody_persists keep m).bind fun body n _ => persists_makeNode fun span sheltered => ?_
  refine ⟨⟨trivial, fun t member => ?_⟩, sheltered.body List.mem_cons_self⟩
  exact sheltered.covered (Option.mem_toList.mpr member)

theorem classExpression_persists (solid : Solid ts i) : Persists ts i True (classExpression r true)
    (classExpression r false) (ShelteredAt ts i) := by
  have rest (id : Option Tree) (j : Nat) (onward : i ≤ j) : Persists ts j True
      (do
        let base ← classHeritage r true
        let body ← classBody r true
        makeNode i (.classExpression id base body))
      (do
        let base ← classHeritage r false
        let body ← classBody r false
        makeNode i (.classExpression id base body))
      (ShelteredAt ts i) := by
    refine (classHeritage_persists keep j).bind fun base k _ => ?_
    refine (classBody_persists keep k).bind fun body l _ => ?_
    refine persists_begun keep.lexed.measured solid (by omega) fun span _ sheltered => ?_
    refine ⟨⟨trivial, fun t member => ?_⟩, sheltered.body List.mem_cons_self⟩
    exact sheltered.covered (Option.mem_toList.mpr member)
  refine .mark (.eat fun _ j _ _ _ => .test ?_ (rest none j (by omega)))
  refine .skip (fun _ => (anyName_taking false).steady) fun id k _ => .trim fun l _ _ => ?_
  exact rest (some id) l (by omega)

end Callables

section Expressions

theorem asyncExpression_persists (solid : Solid ts start) (since : start ≤ i) : Persists ts i True
    (asyncExpression r true start) (asyncExpression r false start) (ShelteredAt ts start) := by
  refine .eat fun _ j _ _ _ => ?_
  have onward : start ≤ j := by omega
  refine .test (arrowFunction_persists keep true solid onward) (.test ?_ (.test ?_ (.complain _)))
  · exact singleParamArrow_persists keep true solid onward
  · exact functionExpression_persists keep true solid onward

/-- A token and the whole expression behind it. -/
theorem prefixed_persists {kind : TokenKind} (wrap : Token TokenKind → Tree → Construct)
    (atKind : ts[i]?.map (·.kind) = some kind) (free : kind ∉ TokenKind.openParen :: layoutKinds)
    (listed : ∀ token inner, (wrap token inner).operands = [inner]) : Persists ts i True
      (do
        let token ← eat
        let inner ← r.expression true
        makeNode i (wrap token inner))
      (do
        let token ← eat
        let inner ← r.expression false
        makeNode i (wrap token inner))
      (ShelteredAt ts i) := by
  have solid := keep.lexed.solid_of_kind atKind fun layout => free (List.mem_cons_of_mem _ layout)
  refine .eat fun token j _ _ unopened => ?_
  refine (keep.operand (unopened (keep.behind_kind atKind free))).bind fun inner k _ => ?_
  refine persists_begun keep.lexed.measured solid (by omega) fun span _ sheltered => ?_
  exact ⟨trivial, sheltered.covered (listed token inner ▸ List.mem_cons_self)⟩

/-- Most expressions that begin with a token of their own do not look at `in` at all: between their
marks it is always an operator. The others pass it on to what is asked for. -/
theorem primary_persists (i : Nat) : Persists ts i True (primary r true) (primary r false)
    (ShelteredAt ts i) := by
  have settled := keep.settled
  have solid {kind : TokenKind} (atKind : ts[i]?.map (·.kind) = some kind)
      (other : kind ∉ layoutKinds) : Solid ts i := keep.lexed.solid_of_kind atKind other
  have unary {kind : TokenKind} (atKind : ts[i]?.map (·.kind) = some kind)
      (free : kind ∉ TokenKind.openParen :: layoutKinds) : Persists ts i True
        (unaryExpression r true i) (unaryExpression r false i) (ShelteredAt ts i) :=
    prefixed_persists keep (fun operator inner => .unaryExpression operator.kind inner) atKind free
      fun _ _ => rfl
  refine .mark (.byKind ?_)
  split
  · rename_i atKind
    exact asyncExpression_persists keep (solid atKind (by decide)) (Nat.le_refl i)
  · rename_i atKind
    exact functionExpression_persists keep false (solid atKind (by decide)) (Nat.le_refl i)
  · rename_i atKind
    exact classExpression_persists keep (solid atKind (by decide))
  · exact .taking fun _ => lineComment_taking
  · exact .taking fun _ => stringLiteral_taking
  · exact .same (fun n => (templateLiteral_taking (settled n)).below) fun _ _ => trivial
  · rename_i atKind
    exact prefixed_persists keep (fun _ => .newExpression) atKind (by decide) fun _ _ => rfl
  · rename_i atKind
    exact prefixed_persists keep (fun _ => .awaitExpression) atKind (by decide) fun _ _ => rfl
  · exact .same (fun n => (objectExpression_taking (settled n)).below) fun _ _ => trivial
  · exact .same (fun n => (arrayExpression_taking (settled n)).below) fun _ _ => trivial
  · rename_i atKind
    refine .test (arrowFunction_persists keep false (solid atKind (by decide)) (Nat.le_refl i)) ?_
    exact .same (fun n => (group_taking (settled n)).below) fun _ _ => trivial
  · exact .taking fun _ => regExpLiteral_taking
  · exact .taking fun _ => numericLiteral_taking
  · exact .same (fun _ => jumpLabel_taking.steady.bind fun _ => steady_observe _) fun _ _ => trivial
  · exact .same (fun _ => jumpLabel_taking.steady.bind fun _ => steady_observe _) fun _ _ => trivial
  · exact .taking fun _ => nameOrUpdate_taking i
  · rename_i atKind
    refine .test (singleParamArrow_persists keep false (solid atKind (by decide)) (Nat.le_refl i)) ?_
    exact .taking fun _ => nameOrUpdate_taking i
  · exact unary ‹_› (by decide)
  · exact unary ‹_› (by decide)
  · exact unary ‹_› (by decide)
  · exact unary ‹_› (by decide)
  · exact unary ‹_› (by decide)
  · exact .taking fun _ => leadingUpdate_taking i
  · exact .taking fun _ => leadingUpdate_taking i
  · exact .complain _

section Suffixes

variable (solid : Solid ts start) (first : Tree)
include solid

/-- A node around an expression, with which it begins. -/
theorem around_persists {c : Construct} (since : start ≤ i) (listed : c.operands = [first]) :
    Persists ts i (ShelteredAt ts start first) (makeNode start c) (makeNode start c)
      (ShelteredAt ts start) :=
  persists_begun keep.lexed.measured solid since fun _ begins sheltered =>
    sheltered.leading (listed ▸ List.mem_cons_self) begins

/-- A name behind a period is parsed alike, so what is asked of the whole is asked of the object. -/
theorem namedMember_persists (optional : Bool) (i : Nat) (since : start ≤ i) :
    Persists ts i (ShelteredAt ts start first) (namedMember start first optional)
      (namedMember start first optional) (ShelteredAt ts start) :=
  .skip (fun _ => (anyName_taking true).steady) fun _ _ _ =>
    around_persists keep solid first (by omega) rfl

/-- Between brackets `in` is an operator in both rules. -/
theorem computedMember_persists (optional : Bool) (i : Nat) (since : start ≤ i) :
    Persists ts i (ShelteredAt ts start first) (computedMember r start first optional)
      (computedMember r start first optional) (ShelteredAt ts start) := by
  refine .eat fun _ j _ _ _ => ?_
  refine .skip (fun n => ((keep.settled n).expression true).steady) fun member k _ => ?_
  exact .trim fun l _ _ => .expect fun _ _ _ => around_persists keep solid first (by omega) rfl

theorem call_persists (optional : Bool) (i : Nat) (since : start ≤ i) :
    Persists ts i (ShelteredAt ts start first) (call r start first optional)
      (call r start first optional) (ShelteredAt ts start) := by
  refine .eat fun _ j _ _ _ => .skip (fun n => ?_) fun arguments k _ => .expect fun _ _ _ => ?_
  · exact commaSeparated_steady (spreadOrExpression_taking (keep.settled n) true)
  · exact around_persists keep solid first (by omega) rfl

/-- One more access, call or template keeps what is asked of the expression before it. -/
theorem suffix_persists (since : start ≤ i) : Persists ts i (ShelteredAt ts start first)
    (suffix? r start first) (suffix? r start first) fun longer =>
      ShelteredAt ts start (longer.getD first) := by
  refine .byKind ?_
  split
  · exact .eat fun _ j _ _ _ => .map (namedMember_persists keep solid first false j (by omega))
  · exact .map (computedMember_persists keep solid first false i since)
  · exact .map (call_persists keep solid first false i since)
  · refine .eat fun _ j _ _ _ => .byKind ?_
    split
    · exact .map (computedMember_persists keep solid first true j (by omega))
    · exact .map (call_persists keep solid first true j (by omega))
    · exact .map (namedMember_persists keep solid first true j (by omega))
  · refine .skip (fun n => (templateLiteral_taking (keep.settled n)).below) fun quasi j _ => ?_
    exact .map (around_persists keep solid first (by omega) rfl)
  · exact .pure id

/-- Each suffix hands what is asked for on to what it is behind. The induction is on the budget. -/
theorem suffixesWithin_persists (since : start ≤ i) (budget : Nat) :
    Persists ts i (ShelteredAt ts start first) (suffixesWithin r start budget first)
      (suffixesWithin r start budget first) (ShelteredAt ts start) := by
  induction budget generalizing i first with
  | zero => exact .pure id
  | succ budget ih =>
    refine (suffix_persists keep solid first since).chain fun longer j _ => ?_
    cases longer with
    | none => exact .pure id
    | some longer => exact .trim fun k _ _ => ih longer (by omega)

end Suffixes

theorem memberOrCall_persists (solid : Solid ts i) : Persists ts i True (memberOrCall r true)
    (memberOrCall r false) (ShelteredAt ts i) := by
  refine .mark ((primary_persists keep i).chain fun first j _ => .trim fun k _ _ => ?_)
  exact .seen fun budget => suffixesWithin_persists keep solid first (by omega) budget

section Joining

variable (solid : Solid ts i) (layer : OperatorLayer) (left : Tree) {k : Nat} (since : i ≤ k)

/-- What goes on with an operand: an operator and all of the expression behind it. -/
def joining (r : Rules) (allowIn : Bool) (start : Nat) (layer : OperatorLayer) (left : Tree) :
    Rule Tree := do
  let operator ← eat
  let right ← r.expression allowIn
  makeNode start (.binaryExpression layer operator.kind left right)

include keep solid since

/-- Behind an operator both rules parse the rest of the expression. The node begins with its left
operand, of which the same is asked, and its right operand has to be covered. -/
theorem joining_persists {kind : TokenKind} (atKind : ts[k]?.map (·.kind) = some kind)
    (free : kind ∉ TokenKind.openParen :: layoutKinds) :
    Persists ts k (ShelteredAt ts i left) (joining r true i layer left)
      (joining r false i layer left) (ShelteredAt ts i) := by
  refine .eat fun operator l _ _ unopened => ?_
  refine (keep.operand (unopened (keep.behind_kind atKind free))).bind fun right m _ => ?_
  refine persists_begun keep.lexed.measured solid (by omega) fun span begins sheltered => ⟨?_, ?_⟩
  · exact sheltered.leading List.mem_cons_self begins
  · exact sheltered.covered (List.mem_cons_of_mem _ List.mem_cons_self)

/-- What `in` joins is not sheltered, so that the operand may stand alone for it. -/
theorem joining_in_persists (atKind : ts[k]?.map (·.kind) = some .kwIn) :
    Persists ts k (ShelteredAt ts i left) (joining r true i layer left) (pure left)
      (ShelteredAt ts i) := by
  refine .never (eat_unopened.bind fun operator l _ ⟨atToken, _, _⟩ => ?_)
  have ofKind : operator.kind = .kwIn := by simpa [atToken] using atKind
  refine .skip (fun n => ((keep.settled n).expression true).steady) fun right m _ => ?_
  refine (lands_makeNode i _).mono fun t _ _ ⟨_, s, atTokens, atPlace, made⟩ sheltered => ?_
  subst made
  have begins := begins_makeNode keep.lexed.measured atTokens solid (by omega)
    (.binaryExpression layer operator.kind left right)
  have noIn := (sheltered begins).isIn_eq
  rw [ofKind] at noIn
  cases noIn

end Joining

omit keep in
/-- No operator is layout or opens a parenthesis. -/
theorem OperatorLayer.operators_solid (layer : OperatorLayer) :
    ∀ kind ∈ layer.operators, kind ∉ TokenKind.openParen :: layoutKinds := by
  cases layer <;> decide

/-- An operand, alone or joined by an operator other than `in` to the expression behind it. -/
theorem binary_persists (solid : Solid ts i) (layer : OperatorLayer) {operand operand' : Rule Tree}
    (each : Persists ts i True operand operand' (ShelteredAt ts i)) :
    Persists ts i True (binary r true layer operand) (binary r false layer operand')
      (ShelteredAt ts i) := by
  refine .mark (each.chain fun left j _ => .trim fun k _ _ => ?_)
  refine .seenAs
    (fun kind => kind.any fun kind => layer.operators.contains kind && (kind ≠ .kwIn || true))
    (fun kind => kind.any fun kind => layer.operators.contains kind && (kind ≠ .kwIn || false))
    (fun _ => rfl) (fun _ => rfl) ?_
  have since : i ≤ k := by omega
  cases atKind : ts[k]?.map (·.kind) with
  | none => exact .pure id
  | some kind =>
    by_cases isIn : kind = .kwIn
    · subst isIn
      cases layer with
      | comparative => exact joining_in_persists keep solid .comparative left since atKind
      | additive => exact .pure id
      | multiplicative => exact .pure id
    · have same (b : Bool) : (layer.operators.contains kind && (decide (kind ≠ .kwIn) || b)) =
          layer.operators.contains kind := by
        simp [isIn]
      simp only [Option.any_some, same]
      split
      · rename_i joined
        have free := layer.operators_solid kind (List.contains_iff_mem.mp joined)
        exact joining_persists keep solid layer left since atKind free
      · exact .pure id

/-- The first branch allows `in` in both rules; test and second branch are asked for what the node
is. -/
theorem conditional_persists (solid : Solid ts i) : Persists ts i True (conditional r true)
    (conditional r false) (ShelteredAt ts i) := by
  have additive : Persists ts i True (additive r true) (additive r false) (ShelteredAt ts i) :=
    binary_persists keep solid _ <| binary_persists keep solid _ <| binary_persists keep solid _ <|
      memberOrCall_persists keep solid
  refine .mark (additive.chain fun test j _ => .trim fun k _ _ => ?_)
  refine .accept (fun _ _ _ => .trim fun l _ _ => ?_) (.pure id)
  refine .skip (fun n => ((keep.settled n).expression true).steady) fun consequent m _ => ?_
  refine .trim fun n _ _ => .expect fun _ atToken ofKind => .trim fun o _ unopened => ?_
  refine (keep.operand (unopened (keep.behind atToken ofKind (by decide)))).bind fun alternate _ _ => ?_
  refine persists_begun keep.lexed.measured solid (by omega) fun span begins sheltered => ⟨?_, ?_⟩
  · exact sheltered.leading List.mem_cons_self begins
  · exact sheltered.covered (List.mem_cons_of_mem _ List.mem_cons_self)

theorem expression_persists_solid (solid : Solid ts i) : Persists ts i True (expression r true)
    (expression r false) (ShelteredAt ts i) := by
  refine .mark ((conditional_persists keep solid).chain fun target j _ => .trim fun k _ _ => ?_)
  refine .atAny (fun operator atToken listed => .eat fun _ l _ _ unopened => ?_) (.pure id)
  have free : ∀ kind ∈ assignmentOperators, kind ∉ TokenKind.openParen :: layoutKinds := by decide
  have behind := unopened (keep.behind atToken rfl (free _ listed))
  refine (keep.operand behind).bind fun value m _ => .trim fun n _ _ => ?_
  refine persists_begun keep.lexed.measured solid (by omega) fun span begins sheltered => ⟨?_, ?_⟩
  · exact sheltered.leading List.mem_cons_self begins
  · exact sheltered.covered (List.mem_cons_of_mem _ List.mem_cons_self)

omit keep in
/-- An expression begins with a token that is no layout. -/
theorem expression_solid (lexed : Lexed ts) (settled : ∀ n, Rules.Settled n r r) (allowIn : Bool) :
    Lands ts i (expression r allowIn) fun _ _ => Solid ts i := by
  have taking (n : Nat) := (expression_taking (settled n) allowIn).fewer
  refine (lands_of_taking taking).also (fun s a t atTokens atPlace run => ?_) |>.mono
    fun _ _ _ => And.right
  obtain ⟨same, -, further⟩ := lands_of_taking taking s a t atTokens atPlace run
  have total := t.position_add_left
  rw [same] at total
  have atToken := List.getElem?_eq_getElem (by omega : i < ts.length)
  refine lexed.solid_of_token atToken fun layout => ?_
  have there : s.currentKind = some ts[i].kind := by
    rw [TokenCursor.currentKind, s.current_eq, atTokens, atPlace, atToken]
    rfl
  obtain ⟨e, u, fails⟩ : Refuses (expression r allowIn) s :=
    refuses_expression there (List.mem_append_right _ layout)
  rw [run] at fails
  cases fails

/-- An expression is found only at a token that is no layout, so at any other place nothing is
asked. -/
theorem expression_persists (i : Nat) : Persists ts i True (expression r true) (expression r false)
    (ShelteredAt ts i) := by
  intro s a t atTokens atPlace run
  obtain ⟨-, -, solid⟩ := expression_solid keep.lexed keep.settled true s a t atTokens atPlace run
  exact expression_persists_solid keep solid s a t atTokens atPlace run

end Expressions

end ScriptFront.Script
