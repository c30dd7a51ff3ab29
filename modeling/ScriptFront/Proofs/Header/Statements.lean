import ScriptFront.Proofs.Header.Expressions
import ScriptFront.Proofs.Parting.Stops

namespace ScriptFront.Script

open ScriptFront.Parser

variable {ts : List (Token TokenKind)} {i start : Nat} {r : Rules} (keep : r.Persist ts)
include keep

section Declarations

/-- A declarator that ends where `in` is an operator ends there otherwise as well. -/
theorem declarator_persists (keyword : String) (i : Nat) : Persists ts i True
    (declarator r true keyword) (declarator r false keyword) (Sheltered ts) := by
  refine .mark ((keep.binding i).bind fun id j _ => .trim fun k _ _ => ?_)
  refine .accept (fun _ atToken ofKind => .trim fun l _ unopened => ?_) ?_
  · refine (keep.operand (unopened (keep.behind atToken ofKind (by decide)))).bind fun init m _ => ?_
    refine persists_makeNode fun span sheltered => ⟨⟨trivial, ?_⟩, ?_⟩
    · exact sheltered.body List.mem_cons_self
    · exact sheltered.covered List.mem_cons_self
  · refine .wider (fun s ends => ?_) (persists_makeNode fun span sheltered => ⟨trivial, ?_⟩)
    · simp only [declaratorEnds, Bool.not_true, Bool.false_and, Bool.or_false] at ends
      rw [declaratorEnds, ends, Bool.true_or]
    · exact sheltered.body List.mem_cons_self

theorem declarators_persists (keyword : String) (i : Nat) : Persists ts i True
    (declarators r true keyword) (declarators r false keyword) fun found =>
      ∀ t ∈ found, Sheltered ts t :=
  .commaSeparated (declarator_persists keep keyword) i

theorem variableDeclaration_persists (i : Nat) : Persists ts i True (variableDeclaration r true)
    (variableDeclaration r false) (Sheltered ts) := by
  refine .mark (.eat fun _ j _ _ _ => (declarators_persists keep _ j).bind fun declarators k _ => ?_)
  exact persists_makeNode fun span sheltered => ⟨trivial, fun t => sheltered.body⟩

theorem usingDeclaration_persists (isAwait : Bool) (i : Nat) : Persists ts i True
    (usingDeclaration r true start isAwait) (usingDeclaration r false start isAwait)
    (Sheltered ts) := by
  refine .eat fun _ j _ _ _ => (declarators_persists keep _ j).bind fun declarators k _ => ?_
  refine .made fun t made => .separators fun _ _ => .pure fun sheltered => ⟨trivial, ?_⟩
  exact fun inner member => sheltered.body (made ▸ member)

theorem declaration_persists (i : Nat) : Persists ts i True (declaration r true)
    (declaration r false) (Sheltered ts) := by
  have ofVariables := variableDeclaration_persists keep i
  refine .mark (.byKind ?_)
  split
  · exact usingDeclaration_persists keep false i
  · exact ofVariables
  · exact ofVariables
  · exact ofVariables
  · exact classDeclaration_persists keep i
  · exact functionDeclaration_persists keep false i
  · refine .eat fun _ j _ _ _ => .test (functionDeclaration_persists keep true j) (.complain _)
  · exact .complain _

theorem exportDeclaration_persists (i : Nat) : Persists ts i True (exportDeclaration r true)
    (exportDeclaration r false) (Sheltered ts) := by
  refine .mark (.eat fun _ j _ _ _ => .byKind ?_)
  split
  · rename_i atKind
    refine .eat fun _ k _ _ unopened => ?_
    have free := unopened (keep.behind_kind atKind (by decide))
    refine (keep.operand free).bind fun value l _ => persists_makeNode fun span sheltered => ?_
    exact ⟨trivial, sheltered.covered List.mem_cons_self⟩
  · exact .taking fun _ => exportAll_taking i
  · exact .taking fun _ => exportList_taking i
  · refine (declaration_persists keep j).bind fun exported k _ => ?_
    refine persists_makeNode fun span sheltered => ⟨trivial, ?_⟩
    exact sheltered.body List.mem_cons_self

end Declarations

section Control

theorem branch_persists (i : Nat) : Persists ts i True (branch r true) (branch r false)
    (Sheltered ts) := by
  refine .test (block_persists keep i) (.mark (.accept (fun _ _ _ => ?_) (keep.statement i)))
  exact persists_makeNode fun _ _ => trivial

/-- The test is in parentheses, where `in` is an operator in both rules, so only the branches are
asked for anything. -/
theorem ifStatement_persists (i : Nat) : Persists ts i True (ifStatement r true)
    (ifStatement r false) (Sheltered ts) := by
  refine .mark (.eat fun _ j _ _ _ => .skip (fun n => ?_) fun test k _ => ?_)
  · exact parenthesized_steady (keep.settled n) .ifHead
  refine (branch_persists keep k).bind fun consequent l _ => .trim fun m _ _ => ?_
  have node (alternate : Tree) (j : Nat) : Persists ts j
      ((True ∧ Sheltered ts consequent) ∧ Sheltered ts alternate)
      (makeNode i (.ifStatement test consequent (some alternate)))
      (makeNode i (.ifStatement test consequent (some alternate))) (Sheltered ts) := by
    refine persists_makeNode fun span sheltered => ⟨⟨trivial, ?_⟩, ?_⟩
    · exact sheltered.body List.mem_cons_self
    · exact sheltered.body (List.mem_cons_of_mem _ List.mem_cons_self)
  refine .accept (fun _ _ _ => .trim fun n _ _ => .test ?_ ?_) ?_
  · exact (keep.ifStatement n).bind fun alternate o _ => node alternate o
  · exact (branch_persists keep n).bind fun alternate o _ => node alternate o
  · exact persists_makeNode fun span sheltered => ⟨trivial, sheltered.body List.mem_cons_self⟩

theorem withStatement_persists (i : Nat) : Persists ts i True (withStatement r true)
    (withStatement r false) (Sheltered ts) := by
  refine .mark (.eat fun _ j _ _ _ => .skip (fun n => ?_) fun object k _ => ?_)
  · exact parenthesized_steady (keep.settled n) .withHead
  refine (branch_persists keep k).bind fun body l _ => persists_makeNode fun span sheltered => ?_
  exact ⟨trivial, sheltered.body List.mem_cons_self⟩

theorem whileStatement_persists (i : Nat) : Persists ts i True (whileStatement r true)
    (whileStatement r false) (Sheltered ts) := by
  refine .mark (.eat fun _ j _ _ _ => .skip (fun n => ?_) fun test k _ => ?_)
  · exact parenthesized_steady (keep.settled n) .whileHead
  refine (branch_persists keep k).bind fun body l _ => persists_makeNode fun span sheltered => ?_
  exact ⟨trivial, sheltered.body List.mem_cons_self⟩

/-- The test has no parentheses of its own, so it is an operand. -/
theorem doWhileStatement_persists (i : Nat) : Persists ts i True (doWhileStatement r true)
    (doWhileStatement r false) (Sheltered ts) := by
  refine .mark (.eat fun _ j _ _ _ => (block_persists keep j).bind fun body k _ => ?_)
  refine .expect fun _ atToken ofKind => .trim fun l _ unopened => ?_
  refine (keep.operand (unopened (keep.behind atToken ofKind (by decide)))).bind fun test m _ => ?_
  refine persists_makeNode fun span sheltered => ⟨⟨trivial, ?_⟩, ?_⟩
  · exact sheltered.body List.mem_cons_self
  · exact sheltered.covered List.mem_cons_self

theorem catchParam_persists (i : Nat) : Persists ts i True (catchParam r true) (catchParam r false)
    fun param => ∀ t ∈ param, Sheltered ts t := by
  refine .accept (fun _ _ _ => .trim fun j _ _ => ?_) (.pure fun _ => trivial)
  refine (keep.binding j).bind fun param k _ => .trim fun l _ _ => .expect fun _ _ _ => ?_
  exact .trim fun m _ _ => .pure fun sheltered => ⟨trivial, sheltered param rfl⟩

theorem catchClause_persists (i : Nat) : Persists ts i True (catchClause r true)
    (catchClause r false) fun handler => ∀ t ∈ handler, Sheltered ts t := by
  refine .test (.mark (.eat fun _ j _ _ _ => ?_)) (.pure fun _ => trivial)
  refine (catchParam_persists keep j).bind fun param k _ => ?_
  refine (block_persists keep k).bind fun body l _ => .map ?_
  refine (persists_makeNode fun span sheltered => ⟨⟨trivial, fun t member => ?_⟩, ?_⟩).mono
    fun t sheltered => sheltered t rfl
  · exact sheltered.body (List.mem_cons_of_mem _ (Option.mem_toList.mpr member))
  · exact sheltered.body List.mem_cons_self

theorem finalizer_persists (i : Nat) : Persists ts i True (finalizer r true) (finalizer r false)
    fun handler => ∀ t ∈ handler, Sheltered ts t := by
  refine .accept (fun _ _ _ => .trim fun j _ _ => .map ?_) (.pure fun _ => trivial)
  exact (block_persists keep j).mono fun t sheltered => sheltered t rfl

theorem tryStatement_persists (i : Nat) : Persists ts i True (tryStatement r true)
    (tryStatement r false) (Sheltered ts) := by
  refine .mark (.eat fun _ j _ _ _ => (block_persists keep j).bind fun body k _ => ?_)
  refine (catchClause_persists keep k).bind fun handler l _ => ?_
  refine (finalizer_persists keep l).bind fun finalizer m _ => .ite (.complain _) ?_
  refine persists_makeNode fun span sheltered => ?_
  obtain ⟨body, clauses⟩ := List.forall_mem_cons.mp fun t (member : t ∈ _) => sheltered.body member
  obtain ⟨handler, finalizer⟩ := List.forall_mem_append.mp clauses
  exact ⟨⟨⟨trivial, body⟩, fun t member => handler t (Option.mem_toList.mpr member)⟩,
    fun t member => finalizer t (Option.mem_toList.mpr member)⟩

/-- The test of a case is an operand of the case. -/
theorem caseTest_persists (i : Nat) : Persists ts i True (caseTest r true) (caseTest r false)
    fun test => ∀ t ∈ test, Covered ts t := by
  refine .accept (fun _ atToken ofKind => .trim fun j _ unopened => ?_) (.accept (fun _ _ _ => ?_) ?_)
  · refine (keep.operand (unopened (keep.behind atToken ofKind (by decide)))).bind fun test k _ => ?_
    exact .expect fun _ _ _ => .pure fun covered => ⟨trivial, covered test rfl⟩
  · exact .trim fun j _ _ => .expect fun _ _ _ => .pure fun _ => trivial
  · exact .complain _

theorem switchCase_persists (i : Nat) : Persists ts i True (switchCase r true) (switchCase r false)
    (Sheltered ts) := by
  refine .mark ((caseTest_persists keep i).bind fun test j _ => .separators fun k _ => ?_)
  refine (Persists.separated keep.statement k).bind fun consequent l _ => ?_
  refine persists_makeNode fun span sheltered => ⟨⟨trivial, fun t member => ?_⟩, fun t => sheltered.body⟩
  exact sheltered.covered (Option.mem_toList.mpr member)

theorem switchStatement_persists (i : Nat) : Persists ts i True (switchStatement r true)
    (switchStatement r false) (Sheltered ts) := by
  refine .mark (.eat fun _ j _ _ _ => .skip (fun n => ?_) fun discriminant k _ => ?_)
  · exact parenthesized_steady (keep.settled n) .switchHead
  refine .expect fun _ _ _ => .trim fun l _ _ => ?_
  refine (Persists.items (switchCase_persists keep) (fun _ => steady_pure _) l).bind fun cases m _ => ?_
  exact .expect fun _ _ _ => persists_makeNode fun span sheltered => ⟨trivial, fun t => sheltered.body⟩

theorem forBody_persists (i : Nat) : Persists ts i True (forBody r true) (forBody r false)
    (Sheltered ts) :=
  .trim fun _ _ _ => .expect fun _ _ _ => .trim fun l _ _ => branch_persists keep l

/-- What is gone over is an operand; the first clause was parsed without `in` in both rules. -/
theorem forOf_persists (left : Tree) (isAwait : Bool) (i : Nat) : Persists ts i True
    (forOf r true start left isAwait) (forOf r false start left isAwait) (Sheltered ts) := by
  refine .expect fun _ atToken ofKind => .trim fun j _ unopened => ?_
  refine (keep.operand (unopened (keep.behind atToken ofKind (by decide)))).bind fun right k _ => ?_
  refine (forBody_persists keep k).bind fun body l _ => ?_
  refine persists_makeNode fun span sheltered => ⟨⟨trivial, ?_⟩, ?_⟩
  · exact sheltered.covered List.mem_cons_self
  · exact sheltered.body List.mem_cons_self

/-- The word `in` of the header ends the first clause in both rules, so this is not the operator. -/
theorem forIn_persists (left : Tree) (atKind : ts[i]?.map (·.kind) = some .kwIn) :
    Persists ts i True (forIn r true start left) (forIn r false start left) (Sheltered ts) := by
  refine .eat fun _ j _ _ unopened => ?_
  refine (keep.operand (unopened (keep.behind_kind atKind (by decide)))).bind fun right k _ => ?_
  refine (forBody_persists keep k).bind fun body l _ => ?_
  refine persists_makeNode fun span sheltered => ⟨⟨trivial, ?_⟩, ?_⟩
  · exact sheltered.covered List.mem_cons_self
  · exact sheltered.body List.mem_cons_self

/-- A clause begins behind a semicolon, so it is not in parentheses even though the header is. This
is why it is asked that no parenthesis be right before it. -/
theorem forClause_persists (stop : TokenKind) (unopened : Unopened ts i) : Persists ts i True
    (forClause r true stop) (forClause r false stop) fun clause => ∀ t ∈ clause, Covered ts t := by
  refine .test (.pure fun _ => trivial) (.map ?_)
  exact (keep.operand unopened).mono fun t covered => covered t rfl

theorem forThree_persists (init : Option Tree) (i : Nat) : Persists ts i True
    (forThree r true start init) (forThree r false start init) (Sheltered ts) := by
  refine .expect fun _ atToken ofKind => .trim fun j _ unopened => ?_
  have first := unopened (keep.behind atToken ofKind (by decide))
  refine (forClause_persists keep .semicolon first).bind fun test k _ => .trim fun l _ _ => ?_
  refine .expect fun _ atToken ofKind => .trim fun m _ unopened => ?_
  have second := unopened (keep.behind atToken ofKind (by decide))
  refine (forClause_persists keep .closeParen second).bind fun update n _ => ?_
  refine (forBody_persists keep n).bind fun body _ _ => persists_makeNode fun span sheltered => ?_
  obtain ⟨test, update⟩ := List.forall_mem_append.mp fun t (member : t ∈ _) => sheltered.covered member
  exact ⟨⟨⟨trivial, fun t member => test t (Option.mem_toList.mpr member)⟩,
    fun t member => update t (Option.mem_toList.mpr member)⟩, sheltered.body List.mem_cons_self⟩

/-- The first clause is parsed without `in` by both rules. The other clauses and the body are asked
for. -/
theorem forStatement_persists (i : Nat) : Persists ts i True (forStatement r true)
    (forStatement r false) (Sheltered ts) := by
  refine .mark (.eat fun _ j _ _ _ => .skip (fun _ => steady_accept _) fun isAwait k _ => ?_)
  refine .trim fun l _ _ => .expect fun _ _ _ => .trim fun m _ _ => ?_
  refine .test (forThree_persists keep none m) (.skip (fun n => ?_) fun init n _ => .trim fun o _ _ => ?_)
  · exact forInit_steady (keep.settled n)
  refine .test (forOf_persists keep init isAwait o) ?_
  refine .seenAs (· == some .kwIn) (· == some .kwIn) (fun _ => rfl) (fun _ => rfl) ?_
  split
  · rename_i there
    exact forIn_persists keep init (beq_iff_eq.mp there)
  · exact forThree_persists keep (some init) o

end Control

section Statements

/-- The expression is an operand of the statement, and begins with it; so that the statement is
sheltered is asked of the expression itself. -/
theorem expressionStatement_persists (i : Nat) : Persists ts i True (expressionStatement r true)
    (expressionStatement r false) (Sheltered ts) := by
  refine .mark ?_
  by_cases solid : Solid ts i
  · refine (expression_persists keep i).bind fun inner j onward => ?_
    refine (persists_begun keep.lexed.measured solid onward fun span begins sheltered => ?_).mono
      fun t sheltered _ => sheltered
    exact ⟨trivial, sheltered.leading List.mem_cons_self begins⟩
  · exact .never ((expression_solid keep.lexed keep.settled true).bind fun _ _ _ begins =>
      absurd begins solid)

/-- The value stands behind its word, which is no parenthesis. -/
theorem returnStatement_persists (atKind : ts[i]?.map (·.kind) = some .kwReturn) : Persists ts i True
    (returnStatement r true) (returnStatement r false) (Sheltered ts) := by
  refine .mark (.eat fun _ j _ _ unopened => .test (persists_makeNode fun _ _ => trivial) ?_)
  have free := unopened (keep.behind_kind atKind (by decide))
  refine (keep.operand free).bind fun argument k _ => persists_makeNode fun span sheltered => ?_
  exact ⟨trivial, sheltered.covered List.mem_cons_self⟩

theorem throwStatement_persists (atKind : ts[i]?.map (·.kind) = some .kwThrow) : Persists ts i True
    (throwStatement r true) (throwStatement r false) (Sheltered ts) := by
  refine .mark (.eat fun _ j _ _ unopened => ?_)
  have free := unopened (keep.behind_kind atKind (by decide))
  refine (keep.operand free).bind fun argument k _ => persists_makeNode fun span sheltered => ?_
  exact ⟨trivial, sheltered.covered List.mem_cons_self⟩

theorem labeledStatement_persists (i : Nat) : Persists ts i True (labeledStatement r true)
    (labeledStatement r false) (Sheltered ts) := by
  refine .mark (.skip (fun _ => plainName_taking.steady) fun label j _ => .trim fun k _ _ => ?_)
  refine .expect fun _ _ _ => .trim fun l _ _ => (keep.statement l).bind fun body m _ => ?_
  exact persists_makeNode fun span sheltered => ⟨trivial, sheltered.body List.mem_cons_self⟩

theorem awaitUsing_persists (i : Nat) : Persists ts i True (awaitUsing r true) (awaitUsing r false)
    (Sheltered ts) :=
  .mark (.eat fun _ j _ _ _ => usingDeclaration_persists keep true j)

theorem bareStatement_persists (i : Nat) : Persists ts i True (bareStatement r true)
    (bareStatement r false) (Sheltered ts) := by
  have plain := expressionStatement_persists keep i
  have declared := declaration_persists keep i
  refine .byKind ?_
  split
  · exact declared
  · exact declared
  · exact declared
  · exact declared
  · exact declared
  · exact declared
  · exact .test declared plain
  · exact ifStatement_persists keep i
  · exact withStatement_persists keep i
  · exact tryStatement_persists keep i
  · exact forStatement_persists keep i
  · exact doWhileStatement_persists keep i
  · exact whileStatement_persists keep i
  · exact switchStatement_persists keep i
  · exact .taking fun _ => blockComment_taking
  · exact .taking fun _ => lineComment_taking
  · exact .skip (fun _ => steady_modifyProperties _) fun _ j _ => .taking fun _ => importDeclaration_taking
  · exact .skip (fun _ => steady_modifyProperties _) fun _ j _ => exportDeclaration_persists keep j
  · exact returnStatement_persists keep ‹_›
  · exact throwStatement_persists keep ‹_›
  · exact block_persists keep i
  · exact .test (awaitUsing_persists keep i) plain
  · exact .test (labeledStatement_persists keep i) plain
  · exact plain

theorem statement_persists (i : Nat) : Persists ts i True (statement r true) (statement r false)
    (Sheltered ts) :=
  .trim fun j _ _ => (bareStatement_persists keep j).bind fun _ _ _ =>
    .separators fun _ _ => .pure fun sheltered => ⟨trivial, sheltered⟩

end Statements

omit keep

theorem Rules.persist_unfolded (lexed : Lexed ts) (depth : Nat) :
    (Rules.refusing.unfolded depth).Persist ts := by
  induction depth with
  | zero => exact ⟨lexed, Rules.settled_refusing 0, fun _ => .complain _, fun _ => .complain _,
      fun _ => .complain _, fun _ => .complain _⟩
  | succ depth ih => exact ⟨lexed, Rules.settled_refusing (depth + 1), statement_persists ih,
      expression_persists ih, binding_persists ih, ifStatement_persists ih⟩

end ScriptFront.Script
