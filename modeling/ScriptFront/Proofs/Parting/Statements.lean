import ScriptFront.Proofs.Parting.Nested

namespace ScriptFront.Script

open ScriptFront.Parser

variable {ts : List (Token TokenKind)} {r : Rules} (keeps : r.Keeps ts) (allowIn : Bool)
include keeps

section Declarations

theorem declarator_neat (keyword : String) : Finds ts (declarator r allowIn keyword) (Neat ts) := by
  refine .mark fun _ => .bind (keeps.binding allowIn) fun id neatId => .trim (.accept ?_ ?_)
  · refine .trim (.bind (keeps.expression allowIn) fun init neat => ?_)
    exact .plain rfl ⟨neatId, neat_some neat⟩
  · exact .test (.plain rfl ⟨neatId, nofun⟩) (.complain _)

theorem variableDeclaration_neat : Finds ts (variableDeclaration r allowIn) (Neat ts) := by
  refine .mark fun _ => .eat fun word => ?_
  refine .bind (.commaSeparated (declarator_neat keeps allowIn _)) fun declarators neat => ?_
  exact .plain rfl ⟨trivial, neat⟩

theorem usingDeclaration_neat (start : Nat) (isAwait : Bool) :
    Finds ts (usingDeclaration r allowIn start isAwait) (Neat ts) := by
  refine .eat fun _ => .bind (.commaSeparated (declarator_neat keeps allowIn _)) fun _ neat => ?_
  refine .bind (.plain rfl ⟨trivial, neat⟩) fun _ neat => ?_
  exact .skip (fun _ => trimSeparators_steady) fun _ => .pure neat

theorem declaration_neat : Finds ts (declaration r allowIn) (Neat ts) := by
  refine .mark fun start => .seen fun kind => ?_
  split
  · exact usingDeclaration_neat keeps allowIn start false
  · exact variableDeclaration_neat keeps allowIn
  · exact variableDeclaration_neat keeps allowIn
  · exact variableDeclaration_neat keeps allowIn
  · exact classDeclaration_neat keeps allowIn
  · exact functionDeclaration_neat keeps allowIn start false
  · exact .eat fun _ => .test (functionDeclaration_neat keeps allowIn start true) (.complain _)
  · exact .complain _

end Declarations

section Modules

omit keeps

theorem moduleSource_neat (complaint : Complaint) : Finds ts (moduleSource complaint) (Neat ts) :=
  .test stringLiteral_neat (.complain _)

theorem nameBehindAs_neat (anyWord : Bool) :
    Finds ts (nameBehindAs anyWord) fun name => ∀ t ∈ name, Neat ts t := by
  refine .accept (.trim (.bind (anyName_neat anyWord) fun name neat => .trim ?_)) (.pure nofun)
  exact .pure (neat_some neat)

theorem getD_neat {name : Tree} {renamed : Option Tree} (own : Neat ts name)
    (other : ∀ t ∈ renamed, Neat ts t) : Neat ts (renamed.getD name) := by
  cases renamed with
  | none => exact own
  | some t => exact other t rfl

/-- A specifier without a new name holds the same tree twice. -/
theorem importSpecifier_neat : Finds ts importSpecifier (Neat ts) := by
  refine .mark fun _ => .bind (anyName_neat true) fun imported neat => .trim ?_
  exact .bind (nameBehindAs_neat false) fun renamed other => .plain rfl ⟨neat, getD_neat neat other⟩

theorem exportSpecifier_neat : Finds ts exportSpecifier (Neat ts) := by
  refine .mark fun _ => .bind (anyName_neat false) fun name neat => .trim ?_
  exact .bind (nameBehindAs_neat true) fun renamed other => .plain rfl ⟨neat, getD_neat neat other⟩

theorem importClause_neat : Finds ts importClause fun found => ∀ t ∈ found, Neat ts t := by
  have alone (start : Nat) (c : Construct) (unlisted : c.statements = []) (parts : PartsNeat ts c) :
      Finds ts (do
        let specifier ← makeNode start c
        return [specifier] : Rule (List Tree)) fun found => ∀ t ∈ found, Neat ts t :=
    .bind (.plain unlisted parts) fun _ neat => .pure (List.forall_mem_singleton.mpr neat)
  refine .mark fun start => .test (.bind (anyName_neat false) fun name neat => ?_) (.accept ?_ ?_)
  · exact alone start _ rfl neat
  · refine .trim (.expect fun _ => .trim (.bind (anyName_neat false) fun name neat => ?_))
    exact alone start _ rfl neat
  · refine .expect fun _ => .trim (.bind (.commaSeparated importSpecifier_neat) fun _ neat => ?_)
    exact .trim (.expect fun _ => .pure neat)

theorem importDeclaration_neat : Finds ts importDeclaration (Neat ts) := by
  refine .mark fun _ => .eat fun _ => .test (.bind stringLiteral_neat fun source neat => ?_) ?_
  · exact .plain rfl ⟨nofun, neat⟩
  refine .bind (.commaSeparated importClause_neat) fun clauses neat => .trim (.expect fun _ => ?_)
  refine .trim (.bind (moduleSource_neat _) fun source neatSource => .plain rfl ⟨?_, neatSource⟩)
  intro t member
  obtain ⟨clause, isClause, inClause⟩ := List.mem_flatten.mp member
  exact neat clause isClause t inClause

theorem exportAll_neat (start : Nat) : Finds ts (exportAll start) (Neat ts) := by
  refine .eat fun _ => .bind (nameBehindAs_neat true) fun exported neat => .expect fun _ => ?_
  exact .trim (.bind (moduleSource_neat _) fun source neatSource => .plain rfl ⟨neat, neatSource⟩)

theorem exportList_neat (start : Nat) : Finds ts (exportList start) (Neat ts) := by
  refine .eat fun _ => .bind (.commaSeparated exportSpecifier_neat) fun specifiers neat => ?_
  refine .expect fun _ => .trim (.accept (.trim (.bind (moduleSource_neat _) fun _ other => ?_)) ?_)
  · exact .plain rfl ⟨nofun, neat, neat_some other⟩
  · exact .plain rfl ⟨nofun, neat, nofun⟩

include keeps

theorem exportDeclaration_neat : Finds ts (exportDeclaration r allowIn) (Neat ts) := by
  refine .mark fun start => .eat fun _ => .seen fun kind => ?_
  split
  · exact .eat fun _ => .bind (keeps.expression allowIn) fun _ neat => .plain rfl neat
  · exact exportAll_neat start
  · exact exportList_neat start
  · refine .bind (declaration_neat keeps allowIn) fun exported neat => ?_
    exact .plain rfl ⟨neat_some neat, nofun, nofun⟩

end Modules

section Control

theorem parenthesized_neat (head : Head) : Finds ts (parenthesized r head) (Neat ts) := by
  refine .expect fun _ => .trim (.bind (keeps.expression true) fun inner neat => ?_)
  exact .trim (.expect fun _ => .trim (.pure neat))

theorem branch_neat : Finds ts (branch r allowIn) (Neat ts) := by
  refine .test (block_neat keeps allowIn) (.mark fun _ => .accept ?_ (keeps.statement allowIn))
  exact .plain rfl trivial

theorem ifStatement_neat : Finds ts (ifStatement r allowIn) (Neat ts) := by
  refine .mark fun _ => .eat fun _ => .bind (parenthesized_neat keeps .ifHead) fun _ neatTest => ?_
  refine .bind (branch_neat keeps allowIn) fun _ neatConsequent => .trim (.accept ?_ ?_)
  · refine .trim (.test ?_ ?_)
    · refine .bind (keeps.ifStatement allowIn) fun _ neat => ?_
      exact .plain rfl ⟨neatTest, neatConsequent, neat_some neat⟩
    · refine .bind (branch_neat keeps allowIn) fun _ neat => ?_
      exact .plain rfl ⟨neatTest, neatConsequent, neat_some neat⟩
  · exact .plain rfl ⟨neatTest, neatConsequent, nofun⟩

theorem withStatement_neat : Finds ts (withStatement r allowIn) (Neat ts) := by
  refine .mark fun _ => .eat fun _ => .bind (parenthesized_neat keeps .withHead) fun _ neat => ?_
  exact .bind (branch_neat keeps allowIn) fun _ neatBody => .plain rfl ⟨neat, neatBody⟩

theorem whileStatement_neat : Finds ts (whileStatement r allowIn) (Neat ts) := by
  refine .mark fun _ => .eat fun _ => .bind (parenthesized_neat keeps .whileHead) fun _ neat => ?_
  exact .bind (branch_neat keeps allowIn) fun _ neatBody => .plain rfl ⟨neat, neatBody⟩

theorem doWhileStatement_neat : Finds ts (doWhileStatement r allowIn) (Neat ts) := by
  refine .mark fun _ => .eat fun _ => .bind (block_neat keeps allowIn) fun body neatBody => ?_
  refine .expect fun _ => .trim (.bind (keeps.expression allowIn) fun test neatTest => ?_)
  exact .plain rfl ⟨neatBody, neatTest⟩

theorem catchParam_neat : Finds ts (catchParam r allowIn) fun param => ∀ t ∈ param, Neat ts t := by
  refine .accept (.trim (.bind (keeps.binding allowIn) fun param neat => .trim ?_)) (.pure nofun)
  exact .expect fun _ => .trim (.pure (neat_some neat))

theorem catchClause_neat :
    Finds ts (catchClause r allowIn) fun handler => ∀ t ∈ handler, Neat ts t := by
  refine .test (.mark fun start => .eat fun _ => ?_) (.pure nofun)
  refine .bind (catchParam_neat keeps allowIn) fun param neatParam => ?_
  exact .bind (block_neat keeps allowIn) fun _ neatBody => .some (.plain rfl ⟨neatParam, neatBody⟩)

theorem finalizer_neat :
    Finds ts (finalizer r allowIn) fun handler => ∀ t ∈ handler, Neat ts t :=
  .accept (.trim (.some (block_neat keeps allowIn))) (.pure nofun)

theorem tryStatement_neat : Finds ts (tryStatement r allowIn) (Neat ts) := by
  refine .mark fun _ => .eat fun _ => .bind (block_neat keeps allowIn) fun body neatBody => ?_
  refine .bind (catchClause_neat keeps allowIn) fun handler neatHandler => ?_
  refine .bind (finalizer_neat keeps allowIn) fun finalizer neatFinalizer => .ite (.complain _) ?_
  exact .plain rfl ⟨neatBody, neatHandler, neatFinalizer⟩

theorem caseTest_neat : Finds ts (caseTest r allowIn) fun test => ∀ t ∈ test, Neat ts t := by
  refine .accept (.trim (.bind (keeps.expression allowIn) fun test neat => .expect fun _ => ?_)) ?_
  · exact .pure (neat_some neat)
  · exact .accept (.trim (.expect fun _ => .pure nofun)) (.complain _)

/-- The statements of a case are kept apart up to the next case. -/
theorem switchCase_neat : Finds ts (switchCase r allowIn) (Neat ts) := by
  refine .mark fun _ => .bind (caseTest_neat keeps allowIn) fun test neatTest => ?_
  refine .skip (fun _ => trimSeparators_steady) fun _ => ?_
  exact .bind (statements_neat keeps allowIn) fun _ ⟨chain, neat⟩ => .node chain ⟨neatTest, neat⟩

theorem switchStatement_neat : Finds ts (switchStatement r allowIn) (Neat ts) := by
  refine .mark fun _ => .eat fun _ => .bind (parenthesized_neat keeps .switchHead) fun _ neat => ?_
  refine .expect fun _ => .trim (.bind (.items (switchCase_neat keeps allowIn) fun _ => ?_) ?_)
  · exact steady_pure _
  · exact fun cases neatCases => .expect fun _ => .plain rfl ⟨neat, neatCases⟩

theorem forBody_neat : Finds ts (forBody r allowIn) (Neat ts) :=
  .trim (.expect fun _ => .trim (branch_neat keeps allowIn))

theorem forClause_neat (stop : TokenKind) :
    Finds ts (forClause r allowIn stop) fun clause => ∀ t ∈ clause, Neat ts t :=
  .test (.pure nofun) (.some (keeps.expression allowIn))

theorem forInit_neat : Finds ts (forInit r) (Neat ts) :=
  .test (variableDeclaration_neat keeps false) (keeps.expression false)

section Heads

variable {start : Nat} {left : Tree}

theorem forOf_neat (neatLeft : Neat ts left) (isAwait : Bool) :
    Finds ts (forOf r allowIn start left isAwait) (Neat ts) := by
  refine .expect fun _ => .trim (.bind (keeps.expression allowIn) fun right neatRight => ?_)
  refine .bind (forBody_neat keeps allowIn) fun body neatBody => ?_
  exact .plain rfl ⟨neatLeft, neatRight, neatBody, trivial⟩

theorem forIn_neat (neatLeft : Neat ts left) : Finds ts (forIn r allowIn start left) (Neat ts) := by
  refine .eat fun _ => .bind (keeps.expression allowIn) fun right neatRight => ?_
  refine .bind (forBody_neat keeps allowIn) fun body neatBody => ?_
  exact .plain rfl ⟨neatLeft, neatRight, neatBody⟩

theorem forThree_neat {init : Option Tree} (neatInit : ∀ t ∈ init, Neat ts t) :
    Finds ts (forThree r allowIn start init) (Neat ts) := by
  refine .expect fun _ => .trim (.bind (forClause_neat keeps allowIn _) fun test neatTest => ?_)
  refine .trim (.expect fun _ => .trim (.bind (forClause_neat keeps allowIn _) fun _ neatUpdate => ?_))
  refine .bind (forBody_neat keeps allowIn) fun body neatBody => ?_
  exact .plain rfl ⟨neatInit, neatTest, neatUpdate, neatBody⟩

end Heads

/-- The three loops list no statements themselves; their clauses and bodies are neat. -/
theorem forStatement_neat : Finds ts (forStatement r allowIn) (Neat ts) := by
  refine .mark fun _ => .eat fun _ => .skip (fun _ => steady_accept _) fun isAwait => .trim ?_
  refine .expect fun _ => .trim (.test (forThree_neat keeps allowIn nofun) ?_)
  refine .bind (forInit_neat keeps) fun init neat => .trim (.test (forOf_neat keeps allowIn neat _) ?_)
  exact .test (forIn_neat keeps allowIn neat) (forThree_neat keeps allowIn (neat_some neat))

end Control

section Statements

theorem expressionStatement_neat : Finds ts (expressionStatement r allowIn) (Neat ts) :=
  .mark fun _ => .bind (expression_neat keeps allowIn) fun _ neat => .plain rfl neat

theorem returnStatement_neat : Finds ts (returnStatement r allowIn) (Neat ts) := by
  refine .mark fun _ => .eat fun _ => .test (.plain rfl nofun) ?_
  exact .bind (keeps.expression allowIn) fun _ neat => .plain rfl (neat_some neat)

theorem throwStatement_neat : Finds ts (throwStatement r allowIn) (Neat ts) :=
  .mark fun _ => .eat fun _ => .bind (keeps.expression allowIn) fun _ neat => .plain rfl neat

theorem labeledStatement_neat : Finds ts (labeledStatement r allowIn) (Neat ts) := by
  refine .mark fun _ => .bind plainName_neat fun label neatLabel => .trim (.expect fun _ => .trim ?_)
  exact .bind (keeps.statement allowIn) fun body neatBody => .plain rfl ⟨neatLabel, neatBody⟩

theorem awaitUsing_neat : Finds ts (awaitUsing r allowIn) (Neat ts) :=
  .mark fun start => .eat fun _ => usingDeclaration_neat keeps allowIn start true

/-- Each sort of statement is neat by its own lemma. The cases are those of the first token. -/
theorem bareStatement_neat : Finds ts (bareStatement r allowIn) (Neat ts) := by
  have plain := expressionStatement_neat keeps allowIn
  have declared := declaration_neat keeps allowIn
  refine .seen fun kind => ?_
  split
  · exact declared
  · exact declared
  · exact declared
  · exact declared
  · exact declared
  · exact declared
  · exact .test declared plain
  · exact ifStatement_neat keeps allowIn
  · exact withStatement_neat keeps allowIn
  · exact tryStatement_neat keeps allowIn
  · exact forStatement_neat keeps allowIn
  · exact doWhileStatement_neat keeps allowIn
  · exact whileStatement_neat keeps allowIn
  · exact switchStatement_neat keeps allowIn
  · exact blockComment_neat
  · exact lineComment_neat
  · exact .skip (fun _ => steady_modifyProperties _) fun _ => importDeclaration_neat
  · exact .skip (fun _ => steady_modifyProperties _) fun _ => exportDeclaration_neat keeps allowIn
  · exact returnStatement_neat keeps allowIn
  · exact throwStatement_neat keeps allowIn
  · exact block_neat keeps allowIn
  · exact .test (awaitUsing_neat keeps allowIn) plain
  · exact .test (labeledStatement_neat keeps allowIn) plain
  · exact plain

theorem statement_neat : Finds ts (statement r allowIn) (Neat ts) :=
  .trim (.bind (bareStatement_neat keeps allowIn) fun _ neat =>
    .skip (fun _ => trimSeparators_steady) fun _ => .pure neat)

end Statements

omit keeps

/-- The rules of each depth find neat trees. The induction is on the depth. -/
theorem Rules.keeps_unfolded (lexed : Lexed ts) (depth : Nat) :
    (Rules.refusing.unfolded depth).Keeps ts := by
  induction depth with
  | zero => exact ⟨lexed.measured, Rules.settled_refusing 0, fun _ _ => lands_fail _,
      fun _ => .complain _, fun _ => .complain _, fun _ => .complain _, fun _ => .complain _⟩
  | succ depth ih =>
    have found (allowIn : Bool) (i : Nat) := statement_bounded lexed (Rules.settled_refusing depth)
      (Rules.stops_unfolded depth) (Rules.lays_unfolded lexed depth) allowIn i
    exact ⟨lexed.measured, Rules.settled_refusing (depth + 1), found, statement_neat ih,
      expression_neat ih, binding_neat ih, ifStatement_neat ih⟩

end ScriptFront.Script
