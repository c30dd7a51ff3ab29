import ScriptFront.Proofs.Lexed
import ScriptFront.Script.Tree

namespace ScriptFront.Script

namespace Construct

/-- Whether the construct joins two operands by the operator `in`. -/
def isIn : Construct → Bool
  | binaryExpression _ .kwIn _ _ => true
  | _ => false

/-- The expressions directly inside a construct in which `in` is an operator only if it is one
around the construct, and in parentheses. In all other expressions it always is one. -/
def operands : Construct → List Tree
  | variableDeclarator _ init => init.toList
  | classDeclaration _ base _ => base.toList
  | classProperty _ value => value.toList
  | exportDefaultDeclaration value => [value]
  | expressionStatement inner => [inner]
  | switchCase test _ => test.toList
  | forStatement _ test update _ => test.toList ++ update.toList
  | forInStatement _ right _ => [right]
  | forOfStatement _ right _ _ => [right]
  | doWhileStatement _ test => [test]
  | returnStatement argument => argument.toList
  | throwStatement argument => [argument]
  | assignmentExpression _ target value => [target, value]
  | conditionalExpression test _ alternate => [test, alternate]
  | binaryExpression _ _ left right => [left, right]
  | unaryExpression _ argument => [argument]
  | memberExpression object _ _ _ => [object]
  | callExpression callee _ _ => [callee]
  | taggedTemplateExpression tag _ => [tag]
  | newExpression callee => [callee]
  | awaitExpression argument => [argument]
  | arrowFunctionExpression _ body true _ => [body]
  | classExpression _ base _ => base.toList
  | propertyPattern key _ _ true => [key]
  | assignmentPattern _ right => [right]
  | _ => []

/-- The statements, patterns and bodies directly inside a construct in which `in` is an
operator only if it is one around the construct. -/
def bodies : Construct → List Tree
  | variableDeclaration _ declarators => declarators
  | usingDeclaration _ declarators => declarators
  | variableDeclarator id _ => [id]
  | functionDeclaration _ params body _ _ => body :: params
  | classDeclaration _ _ body => [body]
  | classBody members => members
  | classMethod _ params body => body :: params
  | exportNamedDeclaration declaration _ _ => declaration.toList
  | blockStatement body => body
  | ifStatement _ consequent alternate => consequent :: alternate.toList
  | withStatement _ body => [body]
  | tryStatement block handler finalizer => block :: (handler.toList ++ finalizer.toList)
  | catchClause param body => body :: param.toList
  | switchStatement _ cases => cases
  | switchCase _ consequent => consequent
  | forStatement _ _ _ body => [body]
  | forInStatement _ _ body => [body]
  | forOfStatement _ _ body _ => [body]
  | whileStatement _ body => [body]
  | doWhileStatement body _ => [body]
  | labeledStatement _ body => [body]
  | arrowFunctionExpression params _ true _ => params
  | arrowFunctionExpression params body false _ => body :: params
  | functionExpression _ params body _ _ => body :: params
  | classExpression _ _ body => [body]
  | objectPattern properties => properties
  | propertyPattern _ value _ _ => [value]
  | arrayPattern elements => elements
  | assignmentPattern left _ => [left]
  | restElement argument => [argument]
  | _ => []

end Construct

/-- The last token before the `i`-th one, layout aside. -/
def Precedes (ts : List (Token TokenKind)) (token : Token TokenKind) (i : Nat) : Prop :=
  ∃ k < i, ts[k]? = some token ∧ token.isSpace = false ∧ ∀ m, k < m → m < i → ¬ Solid ts m

/-- The tree begins with the `i`-th token. -/
def Begins (ts : List (Token TokenKind)) (i : Nat) (t : Tree) : Prop :=
  ∃ token, ts[i]? = some token ∧ t.span.start = token.span.start

/-- The tree begins right behind an opening parenthesis. -/
def Enclosed (ts : List (Token TokenKind)) (t : Tree) : Prop :=
  ∃ i paren, Begins ts i t ∧ Precedes ts paren i ∧ paren.kind = .openParen

/-- The inner one of two trees stands in parentheses in which the outer one does not stand.
Parentheses leave no node, so this can only be told from the tokens. -/
structure Parenthesized (ts : List (Token TokenKind)) (outer inner : Tree) : Prop where
  apart : inner.span.start ≠ outer.span.start
  enclosed : Enclosed ts inner

/-- The operator `in` occurs in the tree only where it is one in any surroundings: between brackets
of some sort, in an argument, or in parentheses of its own. -/
inductive Sheltered (ts : List (Token TokenKind)) : Tree → Prop
  | node {t} : t.kind.isIn = false →
      (∀ inner ∈ t.kind.operands, ¬ Parenthesized ts t inner → Sheltered ts inner) →
      (∀ inner ∈ t.kind.bodies, Sheltered ts inner) → Sheltered ts t

variable {ts : List (Token TokenKind)} {i j : Nat} {t inner : Tree}

theorem Precedes.unique {token other : Token TokenKind} (first : Precedes ts token i)
    (second : Precedes ts other i) : token = other := by
  obtain ⟨k, before, atToken, solid, gap⟩ := first
  obtain ⟨l, before', atOther, solid', gap'⟩ := second
  rcases Nat.lt_trichotomy k l with less | rfl | more
  · exact absurd ⟨other, atOther, solid'⟩ (gap l less before')
  · exact Option.some.inj (atToken.symm.trans atOther)
  · exact absurd ⟨token, atToken, solid⟩ (gap' k more before)

/-- No parenthesis is opened right before the `i`-th token. -/
def Unopened (ts : List (Token TokenKind)) (i : Nat) : Prop :=
  ∃ token, Precedes ts token i ∧ token.kind ≠ .openParen

/-- A token is right before the next one. -/
theorem unopened_next (lexed : Lexed ts) {token : Token TokenKind} (atToken : ts[i]? = some token)
    (free : token.kind ∉ TokenKind.openParen :: layoutKinds) : Unopened ts (i + 1) := by
  obtain ⟨other, atOther, solid⟩ :=
    lexed.solid_of_token atToken fun layout => free (List.mem_cons_of_mem _ layout)
  obtain rfl := Option.some.inj (atToken.symm.trans atOther)
  refine ⟨token, ⟨i, Nat.lt_succ_self i, atToken, solid, fun m after before => ?_⟩, fun opens => ?_⟩
  · omega
  · exact free (opens ▸ List.mem_cons_self)

/-- Layout does not come between. -/
theorem Unopened.onward (unopened : Unopened ts i) (onward : i ≤ j)
    (gap : ∀ m, i ≤ m → m < j → ¬ Solid ts m) : Unopened ts j := by
  obtain ⟨token, ⟨k, before, atToken, solid, behind⟩, other⟩ := unopened
  refine ⟨token, ⟨k, by omega, atToken, solid, fun m after upTo => ?_⟩, other⟩
  rcases Nat.lt_or_ge m i with earlier | later
  · exact behind m after earlier
  · exact gap m later upTo

/-- A tree that begins where no parenthesis is right before it does not stand in parentheses. -/
theorem Unopened.not_enclosed (measured : Measured ts) (unopened : Unopened ts i)
    (begins : Begins ts i t) : ¬ Enclosed ts t := by
  rintro ⟨j, paren, ⟨token, atToken, starts⟩, before, opens⟩
  obtain ⟨first, atFirst, starts'⟩ := begins
  obtain rfl := measured.place_eq atFirst atToken (starts'.symm.trans starts)
  obtain ⟨last, before', other⟩ := unopened
  exact other (before'.unique before ▸ opens)

/-- A tree in which `in` is an operator only in shelter, or that stands in parentheses. -/
abbrev Covered (ts : List (Token TokenKind)) (t : Tree) : Prop := ¬ Enclosed ts t → Sheltered ts t

/-- The same of a tree that is read from the `i`-th token on. -/
abbrev ShelteredAt (ts : List (Token TokenKind)) (i : Nat) (t : Tree) : Prop :=
  Begins ts i t → Sheltered ts t

namespace Sheltered

variable (sheltered : Sheltered ts t)
include sheltered

/-- The root of a sheltered tree does not join by `in`. -/
theorem isIn_eq : t.kind.isIn = false := by
  cases sheltered with
  | node noIn => exact noIn

theorem body (member : inner ∈ t.kind.bodies) : Sheltered ts inner := by
  cases sheltered with
  | node _ _ bodies => exact bodies inner member

/-- Operands of a sheltered tree are sheltered or stand in parentheses of their own. -/
theorem covered (member : inner ∈ t.kind.operands) : Covered ts inner := by
  intro bare
  cases sheltered with
  | node _ operands => exact operands inner member fun parenthesized => bare parenthesized.enclosed

/-- An operand with which the tree begins. -/
theorem leading (member : inner ∈ t.kind.operands) (outside : Begins ts i t) :
    ShelteredAt ts i inner := by
  intro begins
  obtain ⟨token, atToken, starts⟩ := outside
  obtain ⟨other, atOther, starts'⟩ := begins
  obtain rfl := Option.some.inj (atToken.symm.trans atOther)
  cases sheltered with
  | node _ operands =>
    exact operands inner member fun parenthesized => parenthesized.apart (starts'.trans starts.symm)

end Sheltered

end ScriptFront.Script
