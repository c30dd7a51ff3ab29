import ScriptFront.Proofs.Scopes

namespace ScriptFront

/-- What a value is, its contents left aside. There are five, and the variant of every outcome can
be told from the variants of what goes in. -/
inductive Variant where
  | undefined
  | nan
  | number
  | string
  | boolean
deriving DecidableEq, Repr

/-- What sort of value it is, whatever it holds. -/
def Value.variant : Value → Variant
  | undefined => .undefined
  | nan => .nan
  | number _ => .number
  | string _ => .string
  | boolean _ => .boolean

namespace Eval

open Script (TokenKind Tree Construct)

section Operators

/-- The operators that have a meaning on numbers. -/
def arithmeticOperators : List TokenKind := [.plus, .dash, .asterisk, .slash, .percent]

/-- What an operator makes of two variants. The left one decides first: nothing is made of
one that has no real view, and a text takes what has none as its text, whatever the
operator is. -/
def variantOperation (operator : TokenKind) : Variant → Variant → Except EvalError Variant
  | .undefined, _ => .ok .nan
  | .nan, _ => .ok .nan
  | .string, .undefined => .ok .string
  | .string, .nan => .ok .string
  | _, .undefined => .ok .nan
  | _, .nan => .ok .nan
  | .string, _ => .ok (if operator = .plus then .string else .nan)
  | _, .string => .ok (if operator = .plus then .string else .nan)
  | _, _ =>
    if operator ∈ arithmeticOperators then .ok .number
    else .error (.operatorNotAllowed operator.name)

/-- Whether an operator has a meaning on numbers does not depend on the numbers. -/
theorem arithmetic_variant (operator : TokenKind) (left right : Float) :
    (arithmetic operator left right).map Value.variant =
      variantOperation operator .number .number := by
  cases operator <;> rfl

/-- The variants of the operands tell the variant of the outcome. -/
theorem binaryOperation_variant (operator : TokenKind) (left right : Value) :
    (binaryOperation operator left right).map Value.variant =
      variantOperation operator left.variant right.variant := by
  have joined (text : String) :
      (Except.ok (if operator = .plus then .string text else .nan) : Except EvalError Value).map
        Value.variant = .ok (if operator = .plus then .string else .nan) := by
    split
    · rfl
    · rfl
  cases left with
  | undefined => rfl
  | nan => rfl
  | string text => cases right <;> first | rfl | exact joined _
  | number n =>
    cases right with
    | undefined => rfl
    | nan => rfl
    | number m => exact arithmetic_variant operator n m
    | string text => exact joined _
    | boolean c => cases c <;> exact arithmetic_variant operator n _
  | boolean b =>
    cases right with
    | undefined => rfl
    | nan => rfl
    | number m => cases b <;> exact arithmetic_variant operator _ m
    | string text => cases b <;> exact joined _
    | boolean c => cases b <;> cases c <;> exact arithmetic_variant operator _ _

end Operators

section Trees

/-- The variant of a name, when it is known of the names that have a value. -/
def resolve (variants : String → Option Variant) (name : String) : Except EvalError Variant :=
  match variants name with
  | some variant => .ok variant
  | none => .error (.unknownIdentifier name)

mutual

/-- The variant of a construct, computed from those of the names alone. -/
def constructVariant (variants : String → Option Variant) :
    Construct → Except EvalError Variant
  | .program body => lastVariant variants .undefined body
  | .expressionStatement inner => treeVariant variants inner
  | .numericLiteral _ _ _ => .ok .number
  | .stringLiteral _ _ => .ok .string
  | .identifier symbol => resolve variants symbol
  | .binaryExpression _ operator left right => do
    let a ← treeVariant variants left
    let b ← treeVariant variants right
    variantOperation operator a b
  | construct => .error (.notImplemented construct.name)

/-- The variant of a tree, computed from the variants of names without any values. Its theorem says
that the evaluation comes to the same. -/
def treeVariant (variants : String → Option Variant) :
    Node Construct → Except EvalError Variant
  | ⟨construct, _⟩ => constructVariant variants construct

/-- The variant of the last of some statements, or `last` if there are none. -/
def lastVariant (variants : String → Option Variant) (last : Variant) :
    List (Node Construct) → Except EvalError Variant
  | [] => .ok last
  | statement :: statements => do
    let variant ← treeVariant variants statement
    lastVariant variants variant statements

end

variable {lookup : String → Except EvalError Value} {variants : String → Option Variant}

mutual

/-- The variant of a node's value comes from the variants of the names in it alone. The induction
follows the evaluation, and each operator answers with a variant that its operands' variants
determine. -/
theorem evaluateConstruct_variant
    (resolves : ∀ name, (lookup name).map Value.variant = resolve variants name) (c : Construct) :
    (evaluateConstruct lookup c).map Value.variant = constructVariant variants c := by
  cases c with
  | program body => exact evaluateAll_variant resolves .undefined body
  | expressionStatement inner => exact evaluate_variant resolves inner
  | identifier symbol => exact resolves symbol
  | binaryExpression layer operator left right =>
    simp only [evaluateConstruct, constructVariant, ← evaluate_variant resolves left,
      ← evaluate_variant resolves right]
    cases evaluate lookup left with
    | error e => rfl
    | ok a =>
      cases evaluate lookup right with
      | error e => rfl
      | ok b => exact binaryOperation_variant operator a b
  | _ => rfl

/-- Computing with variants gives the variant of the value, and fails where computing the
value does, with the same error. -/
theorem evaluate_variant
    (resolves : ∀ name, (lookup name).map Value.variant = resolve variants name) (t : Tree) :
    (evaluate lookup t).map Value.variant = treeVariant variants t := by
  cases t with
  | mk kind span => exact evaluateConstruct_variant resolves kind

/-- The same for a body: the variant of the last value that counts. -/
theorem evaluateAll_variant
    (resolves : ∀ name, (lookup name).map Value.variant = resolve variants name) (last : Value)
    (ts : List Tree) :
    (evaluateAll lookup last ts).map Value.variant = lastVariant variants last.variant ts := by
  cases ts with
  | nil => rfl
  | cons t others =>
    simp only [evaluateAll, lastVariant, ← evaluate_variant resolves t]
    cases evaluate lookup t with
    | error e => rfl
    | ok value => exact evaluateAll_variant resolves value others

end

end Trees

section Environments

variable {scopes scopes' : Scopes} {i j : Nat}

/-- The variants of the names that have a value in scope `i` or around it. -/
def Scopes.variant? (scopes : Scopes) (i : Nat) (name : String) : Option Variant :=
  (scopes.find? i name).map Value.variant

/-- What a lookup finds has the variant that the chain of scopes records. -/
theorem Scopes.lookup_variant (scopes : Scopes) (i : Nat) (name : String) :
    (scopes.lookup i name).map Value.variant = resolve (scopes.variant? i) name := by
  unfold lookup resolve variant?
  cases scopes.find? i name with
  | none => rfl
  | some value => rfl

/-- In two environments that give values to the same names, and values of the same variants,
every tree has a value in both, of the same variant, or in both the same error. That variant
or error is found from the tree and the variants of the names alone. -/
theorem Scopes.evaluate_alike
    (alike : ∀ name, scopes.variant? i name = scopes'.variant? j name) (t : Tree) :
    (scopes.evaluate i t).map Value.variant = (scopes'.evaluate j t).map Value.variant ∧
      (scopes.evaluate i t).map Value.variant = treeVariant (scopes.variant? i) t := by
  have here := evaluate_variant (scopes.lookup_variant i) t
  have there := evaluate_variant (scopes'.lookup_variant j) t
  have same : scopes.variant? i = scopes'.variant? j := funext alike
  exact ⟨here.trans (same ▸ there.symm), here⟩

/-- Two numbers are joined to two texts, both of which are texts. -/
theorem Scopes.evaluate_alike_numbers :
    let scopes := (new {}).define 0 "x" (.number 1.5)
    let scopes' := (new {}).define 0 "x" (.number 0)
    let sum : Tree := ⟨.binaryExpression .additive .plus ⟨.identifier "x", default⟩
      ⟨.stringLiteral "a" "'a'", default⟩, default⟩
    (∀ name, scopes.variant? 0 name = scopes'.variant? 0 name) ∧
      (scopes.evaluate 0 sum).map Value.variant = .ok .string ∧
      (scopes'.evaluate 0 sum).map Value.variant = .ok .string := by
  intro scopes scopes' sum
  have defined (n : Float) (name : String) : ((new {}).define 0 "x" (.number n)).variant? 0 name =
      if "x" = name then some .number else none := by
    rw [variant?, find?_outermost rfl, own?_define Nat.one_pos]
    by_cases isX : "x" = name
    · simp [isX, Value.variant]
    · simp [isX, own?, new]
  have alike : ∀ name, scopes.variant? 0 name = scopes'.variant? 0 name := fun name =>
    (defined 1.5 name).trans (defined 0 name).symm
  obtain ⟨same, computed⟩ := evaluate_alike alike sum
  have isText : treeVariant (scopes.variant? 0) sum = .ok .string := by
    rw [show scopes.variant? 0 = _ from funext (defined 1.5)]
    rfl
  exact ⟨alike, computed.trans isText, same.symm.trans (computed.trans isText)⟩

end Environments

end Eval

end ScriptFront
