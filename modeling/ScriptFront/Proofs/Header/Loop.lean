import ScriptFront.Proofs.Header.Copy
import ScriptFront.Proofs.Header.Lexing
import ScriptFront.Proofs.RoundTrip.Program

namespace ScriptFront.Script

open ScriptFront.Parser

variable {ext : List (Token TokenKind)} {front : List (Piece TokenKind)} {s t : State}
  {statement : Tree}

/-- What stands behind the first clause of a loop is no part of that clause. -/
theorem loopBack_bounds (alike : ext.map Token.piece = loopBack) : Bounds ext := by
  simp only [loopBack, List.map_eq_cons_iff, List.map_eq_nil_iff] at alike
  obtain ⟨a, _, rfl, ofA, b, _, rfl, ofB, c, _, rfl, ofC, d, _, rfl, ofD, e, _, rfl, ofE,
    f, _, rfl, ofF, g, _, rfl, ofG, rfl⟩ := alike
  have kind {x : Token TokenKind} {p : Piece TokenKind} (same : x.piece = p) : x.kind = p.kind :=
    congrArg (·.kind) same
  have layout {x : Token TokenKind} {p : Piece TokenKind} (same : x.piece = p) :
      x.isSpace = p.isSpace := congrArg Piece.isSpace same
  refine ⟨by simp [firstKind, kind ofA, semicolon], ?_, fun depth => ?_, ?_⟩
  · simp [layout ofA, semicolon, Piece.isSpace]
  · rcases depth with _ | depth <;>
      simp [arrowBehind, kind ofA, kind ofB, kind ofC, kind ofD, kind ofE, kind ofF, kind ofG,
        layout ofF, layout ofG, semicolon, space, Piece.isSpace]
  · simp [firstKind, isSeparator, kind ofA, kind ofC, kind ofE, layout ofA, layout ofB, layout ofC,
      layout ofD, layout ofE, semicolon, space, Piece.isSpace, symbolPiece, symbolTag, punctuators]

section Clause

/-- The opening of a loop, up to its first clause. -/
def loopOpening : Rule Bool := do
  let _ ← eat
  let isAwait ← accept .kwAwait
  trim
  let _ ← expect .openParen .forParen
  trim
  return isAwait

/-- What follows the first clause of a loop. -/
def behindClause (r : Rules) (allowIn : Bool) (start : Nat) (isAwait : Bool) (init : Tree) :
    Rule Tree := do
  trim
  if isAwait || (← at? .kwOf) then forOf r allowIn start init isAwait
  else if ← at? .kwIn then forIn r allowIn start init
  else forThree r allowIn start (some init)

variable (r : Rules) (allowIn : Bool)

/-- The rule for loops, cut into the opening of its header, the first clause, and what is decided
behind it. -/
theorem forStatement_eq : forStatement r allowIn =
    mark >>= fun start => loopOpening >>= fun isAwait => at? .semicolon >>= fun bare =>
      if bare then forThree r allowIn start none
      else forInit r >>= behindClause r allowIn start isAwait := by
  simp only [forStatement, loopOpening, bind_assoc, pure_bind]
  rfl

/-- The opening of a header in front of something firm is read up to it. -/
theorem loopOpening_reads (firm : Firm front) :
    Reads (loopFront ++ front) loopOpening fun isAwait after => isAwait = false ∧ after = front := by
  apply reads_eat.bind
  rintro _ _ ⟨-, rfl⟩
  change Reads (symbolPiece .openParen :: front) _ _
  apply reads_accept_no (by simp)
  apply reads_trim_firm (firm_cons rfl _)
  apply reads_expect rfl
  intro _ _
  apply reads_trim_firm firm
  exact reads_pure ⟨rfl, rfl⟩

/-- A clause that is left out. -/
theorem forClause_reads_none {stop : TokenKind} (first : headKind front = some stop) :
    Reads front (forClause r allowIn stop) fun clause after => clause = none ∧ after = front := by
  apply reads_if fun _ here => is_eq here stop
  rw [first, beq_self_eq_true, if_pos rfl]
  exact reads_pure ⟨rfl, rfl⟩

/-- A body that is a lone semicolon. -/
theorem branch_reads_empty : Reads (semicolon :: front) (branch r allowIn) fun _ after => after = front := by
  apply reads_if fun _ here => is_eq here .openBrace
  apply reads_any
  intro start
  apply reads_accept_yes rfl
  exact (reads_makeNode start _).mono fun _ _ => And.right

/-- Behind a clause the two semicolons and the empty body make the loop with three clauses. -/
theorem behindClause_reads (start : Nat) (init : Tree) :
    Reads loopBack (behindClause r allowIn start false init) fun loop after =>
      ∃ body, loop.kind = .forStatement (some init) none none body ∧ after = [] := by
  apply reads_trim_firm (firm_cons rfl _)
  apply reads_if fun _ here => is_eq here .kwOf
  apply reads_if fun _ here => is_eq here .kwIn
  apply reads_expect rfl
  intro _ _
  apply reads_trim.bind
  rintro _ _ rfl
  apply (forClause_reads_none r allowIn rfl).bind
  rintro _ _ ⟨rfl, rfl⟩
  apply reads_trim_firm (firm_cons rfl _)
  apply reads_expect rfl
  intro _ _
  apply reads_trim.bind
  rintro _ _ rfl
  apply (forClause_reads_none r allowIn rfl).bind
  rintro _ _ ⟨rfl, rfl⟩
  have lastClause : Reads [symbolPiece .closeParen, space, semicolon] (forBody r allowIn)
      fun _ after => after = [] := by
    apply reads_trim_firm (firm_cons rfl _)
    apply reads_expect rfl
    intro _ _
    apply reads_trim.bind
    rintro _ _ rfl
    exact branch_reads_empty r allowIn
  apply lastClause.bind
  rintro body _ rfl
  exact (reads_makeNode start _).mono fun _ _ ⟨made, ended⟩ => ⟨body, made, ended⟩

end Clause

section Runs

/-- A statement that begins with a name, and is not labelled by it, is an expression. -/
theorem parseStatement_named (firm : s.skipWhile Token.isSpace = s)
    (first : headKind (ahead s) = some .identifier) (unlabelled : Unlabelled (ahead s))
    (run : parseStatement s = .ok statement t) :
    ∃ e u, Rules.whole.expression true s = .ok e u ∧
      statement.kind = .expressionStatement e ∧ t = u.skipWhile isSeparator := by
  change Rules.whole.statement true s = .ok statement t at run
  rw [Rules.whole_statement, Script.statement, bind_ok (show trim s = .ok () _ from rfl), firm] at run
  have chosen : bareStatement Rules.whole true s = expressionStatement Rules.whole true s := by
    unfold bareStatement currentKind?
    rw [observe_bind, currentKind_eq rfl, first]
    dsimp only
    rw [observe_bind, followedBy_eq rfl, beq_false_of_ne (unlabelled first)]
    rfl
  cases inner : Rules.whole.expression true s with
  | error x u =>
    have fails : expressionStatement Rules.whole true s = .error x u := by
      unfold expressionStatement
      rw [← Rules.whole_expression, mark, observe_bind, bind_error inner]
    rw [bind_error (chosen.trans fails)] at run
    cases run
  | ok e u =>
    have found : expressionStatement Rules.whole true s =
        .ok ⟨.expressionStatement e, u.spanSince s.position⟩ u := by
      unfold expressionStatement
      rw [← Rules.whole_expression, mark, observe_bind, bind_ok inner]
      rfl
    rw [bind_ok (chosen.trans found)] at run
    cases run
    exact ⟨e, u, rfl, rfl, rfl⟩

/-- A loop is found around what its first clause is read as. -/
theorem parseStatement_loop (here : ahead s = loopFront ++ front)
    (first : headKind front = some .identifier) (firm : Firm front) :
    ∃ v, ahead v = front ∧ v.properties = s.properties ∧
      ∀ init u, Rules.whole.expression false v = .ok init u → ahead u = loopBack →
        ∃ loop body w, parseStatement s = .ok loop w ∧
          loop.kind = .forStatement (some init) none none body ∧ w.rest = [] ∧
          w.properties = u.properties := by
  have here' : ahead (s.skipWhile Token.isSpace) = loopFront ++ front :=
    (ahead_skipWhile (fun token => (Token.isSpace_piece token).symm) s).trans (by rw [here]; rfl)
  have begins : parseStatement s = (bareStatement Rules.whole true >>= fun node => do
      trimSeparators
      return node) (s.skipWhile Token.isSpace) := by
    change Rules.whole.statement true s = _
    rw [Rules.whole_statement, Script.statement, bind_ok (show trim s = .ok () _ from rfl)]
  have kept : (s.skipWhile Token.isSpace).properties = s.properties := rfl
  generalize s.skipWhile Token.isSpace = opening at here' begins kept
  obtain ⟨_, v, opened, kept', rfl, atFront⟩ := loopOpening_reads firm opening here'
  refine ⟨v, atFront, kept'.trans kept, fun init u inner behind => ?_⟩
  obtain ⟨loop, w, closed, kept'', body, made, ended⟩ :=
    behindClause_reads Rules.whole true opening.position init u behind
  have clause : forInit Rules.whole v = .ok init u := by
    rw [forInit, atAny?, observe_bind, isAny_eq atFront, first]
    exact inner
  have run : forStatement Rules.whole true opening = .ok loop w := by
    rw [forStatement_eq, mark, observe_bind, bind_ok opened, at?, observe_bind, is_eq atFront, first]
    exact (bind_ok clause).trans closed
  have chosen : bareStatement Rules.whole true opening = forStatement Rules.whole true opening := by
    rw [bareStatement, currentKind?, observe_bind, currentKind_eq here']
    rfl
  refine ⟨loop, body, w.skipWhile isSeparator, ?_, made, ?_, kept''⟩
  · rw [begins, bind_ok (chosen.trans run)]
    rfl
  · rw [TokenCursor.skipWhile, List.map_eq_nil_iff.mp ended]
    rfl

end Runs

end ScriptFront.Script
