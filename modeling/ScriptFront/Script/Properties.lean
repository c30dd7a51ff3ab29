namespace ScriptFront.Script

/-- Whether a source is a plain script or a module, which imports or exports. Every source is parsed
by the same rules, and only the answer to this question differs. -/
inductive SourceType where
  | cjs
  | esm
deriving DecidableEq, Repr

namespace SourceType

/-- The name of a source type, as options give it. -/
def name : SourceType → String
  | cjs => "cjs"
  | esm => "esm"

/-- The source type of a name, if it is one exactly. -/
def ofName? (name : String) : Option SourceType :=
  [cjs, esm].find? (·.name = name)

end SourceType

/-- What a caller may choose before a parse. The choice is where the properties start from, and a
declaration in the source can overrule it. -/
structure Options where
  sourceType : SourceType := .cjs
deriving DecidableEq, Repr

/-- What a parse finds out beside the tree. It is a part of the parser's state and is kept when a
rule fails. -/
structure Properties where
  sourceType : SourceType := .cjs
deriving DecidableEq, Repr

/-- A parse starts from the chosen type. -/
def Options.properties (options : Options) : Properties where
  sourceType := options.sourceType

end ScriptFront.Script
