import ScriptFront.Proofs.WellFormed

namespace ScriptFront.Script

open ScriptFront.Parser

/-- No module declaration stands anywhere in the tree. -/
def Plain (t : Tree) : Prop := Everywhere (·.kind.isModuleDeclaration = false) t

theorem Leaf.isModuleDeclaration_eq {region : Region} {tokens : List (Token TokenKind)}
    {c : Construct} (leaf : Leaf region tokens c) : c.isModuleDeclaration = false := by
  cases leaf <;> rfl

/-- The mark of a module is set exactly where a module declaration is made, and no tree
is lost on the way. -/
theorem Derives.marks_eq_false_iff {base opened : List Opening} {s : Stretch} {trees : List Tree}
    (derives : Derives base opened s trees) : s.marks = false ↔ ∀ t ∈ trees, Plain t := by
  induction derives with
  | nil => simp
  | token _ _ ih => simpa using ih
  | space _ _ ih => simpa using ih
  | append _ _ first second =>
    rw [Stretch.marks_append, Bool.or_eq_false_iff, first, second, List.forall_mem_append]
  | @leaf _ _ _ kind span _ leaf _ =>
    have plain : Plain ⟨kind, span⟩ := .node leaf.isModuleDeclaration_eq (by
      rw [leaf.children_eq]
      exact List.forall_mem_nil _)
    simpa using plain
  | @node _ s trees kind span _ parts _ plain ih =>
    have inside : Plain ⟨kind, span⟩ ↔ ∀ t ∈ trees, Plain t := by
      refine ⟨fun whole t member => whole.children t ((parts t).mpr member), fun all => ?_⟩
      refine .node (Bool.or_eq_false_iff.mp plain).2 fun child isChild => ?_
      exact all child ((parts child).mp isChild)
    simpa [inside] using ih
  | @module _ _ _ kind span _ _ _ ofSort =>
    have marked : ¬ Plain ⟨kind, span⟩ := fun plain => by
      have here := plain.here
      rw [ofSort] at here
      cases here
    simpa using marked
  | again _ isWhole isPart ih =>
    rw [ih, List.forall_mem_cons]
    exact ⟨fun all => ⟨(all _ isWhole).children _ isPart, all⟩, And.right⟩

/-- A stretch of a parse leaves the source a module when it marked one or found one. -/
theorem Stretch.properties_eq_esm_iff (s : Stretch) (found : Properties) :
    (s.properties found).sourceType = .esm ↔ s.marks = true ∨ found.sourceType = .esm := by
  unfold properties
  cases s.marks <;> simp

/-- A tree is not plain when some node of its walk is an import or an export, at whatever depth. -/
theorem not_plain_iff (t : Tree) :
    ¬ Plain t ↔ ∃ entry ∈ preorder 0 t, entry.2.kind.isModuleDeclaration = true := by
  have walked : Plain t ↔ ∀ entry ∈ preorder 0 t, entry.2.kind.isModuleDeclaration = false :=
    ⟨fun plain => plain.preorder 0, fun all => everywhere_of_preorder 0 t all⟩
  simp [walked]

/-- The place where a call leaves the parser, whether it succeeds or fails. -/
def leftBy {α : Type} : EStateM.Result ParseError State α → State
  | .ok _ t => t
  | .error _ t => t

/-- A rule never does more to the properties than to mark a module. -/
theorem Makes.keeps_esm {α : Type} {p : Rule α} {treesOf : α → List Tree} {typed : α → Prop}
    (makes : ∀ rest, Makes rest p treesOf typed) {s : State}
    (esm : s.properties.sourceType = .esm) : (leftBy (p s)).properties.sourceType = .esm := by
  obtain ⟨step, left, outcome, -, answer, -⟩ := makes s.rest [] s.before
  have same : p s = settle (step.state s.before left (step.properties s.properties)) outcome :=
    answer s.properties
  have kept : (step.properties s.properties).sourceType = .esm :=
    (step.properties_eq_esm_iff _).mpr (Or.inr esm)
  rw [same]
  cases outcome <;> exact kept

/-- The calls that a parser takes: for a statement, for an expression, for the layout in front, and
for a whole program. Each of them may fail, and may be followed by any other. -/
inductive Call where
  | statement
  | expression
  | program
  | trivia

/-- The state that a call leaves behind, whether it succeeded or failed, since a caller may go on
from it. -/
def Call.after (s : State) : Call → State
  | statement => leftBy (parseStatement s)
  | expression => leftBy (parseExpression s)
  | program => leftBy (grammar.produce s)
  | trivia => leftBy (grammar.trivia s)

/-- No call takes a module back, not even one that fails. -/
theorem Call.after_esm (call : Call) {s : State} (esm : s.properties.sourceType = .esm) :
    (call.after s).properties.sourceType = .esm := by
  cases call with
  | statement => exact Makes.keeps_esm (fun _ => parseStatement_makes) esm
  | expression => exact Makes.keeps_esm (fun _ => parseExpression_makes) esm
  | trivia => exact esm
  | program =>
    have listed := Makes.keeps_esm (fun _ => statementList_makes) esm
    rw [after, grammar_produce_eq]
    cases loop : statementList s with
    | error e t =>
      rw [bind_error loop]
      rwa [loop] at listed
    | ok body t =>
      rw [bind_ok loop]
      rwa [loop] at listed

/-- No sequence of calls takes a module back. The induction is on the calls. -/
theorem calls_keep_esm (calls : List Call) {s : State} (esm : s.properties.sourceType = .esm) :
    (calls.foldl Call.after s).properties.sourceType = .esm := by
  induction calls generalizing s with
  | nil => exact esm
  | cons call calls ih => exact ih (call.after_esm esm)

/-- What a source comes to, whatever the options are: a complaint, or a tree in which the
mark of a module shows. -/
theorem parseWith_marks (source : String) :
    ∃ (marks : Bool) (outcome : Except Error Tree),
      (∀ options, parseWith source options = outcome.map fun tree =>
        ⟨tree, Stretch.properties ⟨[], marks⟩ options.properties⟩) ∧
      ∀ tree, outcome = .ok tree → (marks = false ↔ Plain tree) := by
  cases lexing : tokenize source with
  | error e =>
    refine ⟨false, .error (.lex e), fun options => ?_, nofun⟩
    rw [parseWith, statements, lexing]
    rfl
  | ok ts =>
    obtain ⟨marks, outcome, answer, derived⟩ := produce_derives ts
    refine ⟨marks, (outcome.mapError .parse).map programNode, fun options => ?_, ?_⟩
    · have listed : statements source options = (produce ts options).mapError .parse := by
        rw [statements, lexing]
        rfl
      rw [parseWith, listed, answer]
      cases outcome <;> rfl
    · rintro tree ok
      cases outcome with
      | error e => cases ok
      | ok body =>
        cases ok
        rw [(derived body rfl).1.marks_eq_false_iff]
        exact ⟨fun all => everywhere_programNode.mpr ⟨rfl, all⟩,
          fun plain => (everywhere_programNode.mp plain).2⟩

/-- The options say nothing about the tree, and whether a source is a module shows in it:
the type that was chosen is kept unless it is overruled by a module declaration. No call
of a parser takes a mark back. -/
theorem parseWith_sourceType (source : String) (options options' : Options) :
    (parseWith source options).map (·.tree) = (parseWith source options').map (·.tree) ∧
      (∀ parsed, parseWith source options = .ok parsed →
        (parsed.properties.sourceType = .esm ↔ options.sourceType = .esm ∨
          ∃ entry ∈ preorder 0 parsed.tree, entry.2.kind.isModuleDeclaration = true)) ∧
      ∀ (s : State) (calls : List Call), s.properties.sourceType = .esm →
        (calls.foldl Call.after s).properties.sourceType = .esm := by
  obtain ⟨marks, outcome, answer, shows⟩ := parseWith_marks source
  refine ⟨?_, ?_, fun s calls esm => calls_keep_esm calls esm⟩
  · rw [answer, answer]
    cases outcome <;> rfl
  · intro parsed run
    rw [answer] at run
    cases outcome with
    | error e => cases run
    | ok tree =>
      cases run
      rw [Stretch.properties_eq_esm_iff, ← not_plain_iff, ← shows tree rfl, or_comm]
      simp [Options.properties]

/-- An export inside a block makes a module of the source, and the calls after it leave it one. -/
theorem parseWith_sourceType_export : (∃ parsed,
    parseWith "if (a) \x7b export default b \x7d" {} = .ok parsed ∧
      parsed.properties.sourceType = .esm ∧
      ∃ entry ∈ preorder 0 parsed.tree, entry.2.kind.isModuleDeclaration = true) ∧
    ([Call.statement, .trivia, .program].foldl Call.after
      (State.ofTokens [⟨⟨.closeParen, none⟩, ")", default⟩]
        { sourceType := .esm })).properties.sourceType = .esm := by
  have laws := parseWith_sourceType "if (a) \x7b export default b \x7d" {} {}
  constructor
  · have found : (parseWith "if (a) \x7b export default b \x7d" {}).map
        (·.properties.sourceType) = .ok .esm := by
      decide +kernel
    cases run : parseWith "if (a) \x7b export default b \x7d" {} with
    | error e =>
      rw [run] at found
      cases found
    | ok parsed =>
      rw [run] at found
      have esm : parsed.properties.sourceType = .esm := Except.ok.inj found
      rcases (laws.2.1 parsed run).mp esm with chosen | inside
      · cases chosen
      · exact ⟨parsed, rfl, esm, inside⟩
  · exact laws.2.2 _ [.statement, .trivia, .program] rfl

end ScriptFront.Script
