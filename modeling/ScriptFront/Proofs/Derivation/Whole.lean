import ScriptFront.Proofs.Derivation.Statements
import ScriptFront.Proofs.Everywhere

namespace ScriptFront.Script

open ScriptFront.Parser

variable {origin rest tokens : List (Token TokenKind)} {r : Rules}

/-- Rules one level deeper make what the rules make. Each field is the lemma about the whole rule.
-/
theorem Rules.Make.unfold (inner : r.Make) : r.unfold.Make where
  statement allowIn _ := statement_makes inner allowIn
  expression allowIn _ := expression_makes inner allowIn
  binding allowIn _ := binding_makes inner allowIn
  ifStatement allowIn _ first := ifStatement_makes inner allowIn first

/-- Rules that refuse everything make whatever they are asked for. -/
theorem Rules.make_unfolded (depth : Nat) : (Rules.refusing.unfolded depth).Make := by
  induction depth with
  | zero => exact ⟨fun _ _ _ _ _ => yields_complain _, fun _ _ _ _ _ => yields_complain _,
      fun _ _ _ _ _ => yields_complain _, fun _ _ _ _ _ _ => yields_complain _⟩
  | succ depth ih => exact ih.unfold

/-- How deep the rules have to be shows in the tokens ahead. -/
theorem makes_enough {sort : Construct → Bool} (rule : Rules → Rule Tree)
    (makes : MakesTree rest (rule (Rules.refusing.unfolded (rest.length + 1))) sort) :
    MakesTree rest (fun s => rule (Rules.enough s) s) sort := by
  intro base _ origin
  obtain ⟨step, left, outcome, split, run, found⟩ := makes base origin
  exact ⟨step, left, outcome, split, run, found⟩

theorem parseStatement_makes : MakesTree rest parseStatement Construct.isStatement :=
  makes_enough (·.statement true) ((Rules.make_unfolded _).statement true rest)

theorem parseExpression_makes : MakesTree rest parseExpression Construct.isExpression :=
  makes_enough (·.expression true) ((Rules.make_unfolded _).expression true rest)

/-- All statements up to the end of the tokens. -/
def statementList : Rule (List Tree) := do
  trimSeparators
  items (fun _ => false) parseStatement do
    trimSeparators
    return true

theorem statementList_makes :
    Makes rest statementList id fun found => ∀ t ∈ found, t.kind.isStatement = true := by
  intro base _ origin
  have made : Derives base base {} [] := .nil
  apply made.trimSeparators
  intro s left made
  have listed : Yields origin s left
      (items (fun _ => false) parseStatement do trimSeparators; return true)
      fun found s => Derives base base s ([] ++ found.flatMap fun t => [t]) ∧
        ∀ t ∈ found, t.kind.isStatement = true := by
    refine items_yields (fun _ => false) (fun _ => rfl)
      (fun made => parseStatement_makes.extends made) (fun made => ?_) made
    apply made.trimSeparators
    exact fun s left made => yields_pure made
  apply listed.mono
  rintro found s ⟨made, sorts⟩
  exact ⟨by simpa using made, sorts⟩

/-- The program of a token list is its list of statements, with the properties looked up at the end.
-/
theorem grammar_produce_eq :
    grammar.produce = statementList >>= fun found => observe fun s => ⟨found, s.properties⟩ := by
  unfold Grammar.produce statementList
  rw [bind_assoc]
  rfl

/-- What is found from some place on is derived by the tokens in between. -/
theorem Makes.found {α : Type} {p : Rule α} {treesOf : α → List Tree} {typed : α → Prop}
    (makes : ∀ rest, Makes rest p treesOf typed) {s u : State} {a : α} (run : p s = .ok a u) :
    ∃ step : Stretch, Derives [] [] step (treesOf a) ∧ typed a := by
  obtain ⟨step, left, outcome, split, answer, found⟩ := makes s.rest [] s.before
  have same : p s = settle (step.state s.before left (step.properties s.properties)) outcome :=
    answer s.properties
  cases outcome with
  | error e =>
    rw [run] at same
    cases same
  | ok b =>
    rw [run] at same
    cases same
    exact ⟨step, found⟩

/-- A program that was produced is a list of statements that was parsed. -/
theorem statementList_of_produce {s u : State} {program : Program Tree Properties}
    (run : grammar.produce s = .ok program u) : statementList s = .ok program.body u := by
  rw [grammar_produce_eq] at run
  cases loop : statementList s with
  | error e t =>
    rw [bind_error loop] at run
    cases run
  | ok body t =>
    rw [bind_ok loop] at run
    cases run
    rfl

/-- A parse of all statements ends only where no token is left. -/
theorem calls_exhaust {s t : State} {calls : List State} {found : List Tree}
    {answer : EStateM.Result ParseError State (List Tree)} (run : grammar.Calls s calls answer)
    (ok : answer = .ok found t) : t.rest = [] := by
  induction run generalizing found with
  | done ended =>
    cases ok
    exact ended
  | next _ _ _ _ ih =>
    cases ok
    exact ih rfl
  | _ => cases ok

/-- A program is found in all of the tokens or not at all. -/
theorem produce_exhausts {s t : State} {program : Program Tree Properties}
    (run : grammar.produce s = .ok program t) : t.rest = [] := by
  obtain ⟨calls, answer, loop, -, result⟩ := produce_calls s
  rw [result] at run
  cases answer with
  | error e u => cases run
  | ok found u =>
    cases run
    exact calls_exhaust loop rfl

/-- What a list of tokens comes to, whatever the options are: a complaint, or statements
that are made out of all the tokens. -/
theorem produce_derives (tokens : List (Token TokenKind)) :
    ∃ (marks : Bool) (outcome : Except ParseError (List Tree)),
      (∀ options, produce tokens options = outcome.map fun body =>
        ⟨body, Stretch.properties ⟨tokens, marks⟩ options.properties⟩) ∧
      ∀ body, outcome = .ok body → Derives [] [] ⟨tokens, marks⟩ body ∧
        ∀ t ∈ body, t.kind.isStatement = true := by
  have whole : Makes tokens statementList id fun found => ∀ t ∈ found, t.kind.isStatement = true :=
    statementList_makes
  obtain ⟨step, left, outcome, split, run, found⟩ := whole [] []
  have answered (options : Options) : grammar.produce (State.ofTokens tokens options) =
      settle (step.state [] left (step.properties options.properties))
        (outcome.map fun body => ⟨body, step.properties options.properties⟩) := by
    have loop : statementList (State.ofTokens tokens options) =
        settle (step.state [] left (step.properties options.properties)) outcome :=
      run options.properties
    rw [grammar_produce_eq]
    cases outcome with
    | error e => exact bind_error loop
    | ok body => exact bind_ok loop
  refine ⟨step.marks, outcome, fun options => ?_, ?_⟩
  · have produced : produce tokens options = outcome.map fun body =>
        ⟨body, step.properties options.properties⟩ := by
      unfold produce
      rw [answered]
      cases outcome <;> rfl
    exact produced
  · rintro body rfl
    obtain ⟨made, sorts⟩ := found
    have ended : left = [] := produce_exhausts (answered {})
    obtain rfl : tokens = step.tokens := by rw [split, ended, List.append_nil]
    exact ⟨made, sorts⟩

/-- The statements of a program are made out of its tokens. -/
theorem produce_derived {tokens : List (Token TokenKind)} {options : Options}
    {program : Program Tree Properties} (run : produce tokens options = .ok program) :
    ∃ marks, Derives [] [] ⟨tokens, marks⟩ program.body ∧
      program.properties = Stretch.properties ⟨tokens, marks⟩ options.properties := by
  obtain ⟨marks, outcome, answer, derived⟩ := produce_derives tokens
  rw [answer] at run
  cases outcome with
  | error e => cases run
  | ok body =>
    cases run
    exact ⟨marks, (derived body rfl).1, rfl⟩

/-- An accepted source derives its statements from all its tokens, beginning and ending with nothing
open. Every theorem about the trees of accepted sources that needs their tokens begins here. -/
theorem parseWith_derives {source : String} {options : Options} {parsed : Parsed}
    (run : parseWith source options = .ok parsed) :
    ∃ ts marks body, tokenize source = .ok ts ∧ Derives [] [] ⟨ts, marks⟩ body ∧
      parsed.tree = programNode body := by
  obtain ⟨ts, program, lexing, parsing, rfl⟩ := parseWith_eq_ok_iff.mp run
  obtain ⟨marks, derives, -⟩ := produce_derived parsing
  exact ⟨ts, marks, program.body, lexing, derives, rfl⟩

/-- What holds everywhere in a program holds at its root and everywhere in its statements. -/
theorem everywhere_programNode {P : Tree → Prop} {body : List Tree} :
    Everywhere P (programNode body) ↔ P (programNode body) ∧ ∀ t ∈ body, Everywhere P t := by
  have children : (programNode body).kind.children = body := List.append_nil body
  refine ⟨fun all => ⟨all.here, fun t member => all.children t (by rwa [children])⟩, ?_⟩
  rintro ⟨here, inside⟩
  exact .node here (by rwa [children])

end ScriptFront.Script
