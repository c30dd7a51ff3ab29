import Std.Data.HashMap
import ScriptFront.Error
import ScriptFront.Value

namespace ScriptFront.Eval

/-- Named values, and the number of the scope around them, if there is one. Scopes refer to each
other by number, so that one of them can change without the others being rebuilt. -/
structure Scope where
  parent : Option Nat := none
  bindings : Std.HashMap String Value := ∅

/-- All scopes made so far. A scope is known by its number, counted in the order in
which they were made, so that what is defined in it later is seen by all inside it. -/
structure Scopes where
  all : Array Scope := #[]

namespace Scopes

/-- The number that the next scope will get. -/
def size (scopes : Scopes) : Nat := scopes.all.size

/-- Makes an empty scope with nothing around it. -/
def new (scopes : Scopes) : Scopes := ⟨scopes.all.push {}⟩

/-- What every script can name. -/
def seeds : List (String × Value) :=
  [("true", .boolean true), ("false", .boolean false), ("undefined", .undefined)]

/-- Makes a scope with nothing around it in which the seeds are defined. -/
def global (scopes : Scopes) : Scopes :=
  ⟨scopes.all.push { bindings := Std.HashMap.ofList seeds }⟩

/-- Makes an empty scope inside scope `i`; inside one that was never made, it has
nothing around it. -/
def child (scopes : Scopes) (i : Nat) : Scopes :=
  ⟨scopes.all.push { parent := if i < scopes.size then some i else none }⟩

/-- The value of a name in scope `i` itself. -/
def own? (scopes : Scopes) (i : Nat) (name : String) : Option Value :=
  scopes.all[i]?.bind (·.bindings[name]?)

/-- Whether the scope itself holds a variable of the name, those around it left aside. -/
def hasOwn (scopes : Scopes) (i : Nat) (name : String) : Bool := (scopes.own? i name).isSome

/-- The scope around scope `i`. -/
def parent? (scopes : Scopes) (i : Nat) : Option Nat := scopes.all[i]?.bind (·.parent)

/-- Gives a name a value in scope `i` itself. A value that it had there before is replaced, and one
of the same name further out is left as it is. -/
def define (scopes : Scopes) (i : Nat) (name : String) (value : Value) : Scopes :=
  ⟨scopes.all.modify i fun scope => { scope with bindings := scope.bindings.insert name value }⟩

/-- Gives a name a value in scope `i` itself, and tells which value it had there before. -/
def exchange (scopes : Scopes) (i : Nat) (name : String) (value : Value) :
    Option Value × Scopes :=
  (scopes.own? i name, scopes.define i name value)

/-- The value of a name in scope `i` or the nearest scope around it that has it. A
scope is younger than the one around it, so that the search ends. -/
def find? (scopes : Scopes) (i : Nat) (name : String) : Option Value :=
  match scopes.own? i name with
  | some value => some value
  | none =>
    match scopes.parent? i with
    | some p => if p < i then scopes.find? p name else none
    | none => none
termination_by i

/-- The value of a name seen from scope `i`: that of the nearest scope that has it, or an error that
carries the name. -/
def lookup (scopes : Scopes) (i : Nat) (name : String) : Except EvalError Value :=
  match scopes.find? i name with
  | some value => .ok value
  | none => .error (.unknownIdentifier name)

end Scopes

end ScriptFront.Eval
