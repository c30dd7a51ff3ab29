import ScriptFront.Proofs.Lockstep.Expressions

namespace ScriptFront.Script.Lockstep

open ScriptFront.Parser

variable {sim : Lockstep} {lost : Prop} {r : Rules} (inner : sim.Inner r) (allowIn : Bool)
include inner

section Declarations

/-- Behind layout, the end of the tokens and a semicolon are the same to a declarator. -/
theorem declarator_within (keyword : String) : sim.Within lost sim.near sim.near SameTree
    (declarator r allowIn keyword) (declarator r allowIn keyword) := by
  have ends {s s' : State} (ready : sim.ready s s') :
      declaratorEnds allowIn s = declaratorEnds allowIn s' := by
    unfold declaratorEnds
    rw [sim.ends_eq ready (by decide) (by decide), sim.is_eq (sim.near_of_ready ready) (by decide)]
  refine .mark fun _ _ => (inner.binding _).bind fun _ _ id => trim_within.bind fun _ _ _ => ?_
  refine .acceptFrom (fun ready => sim.is_eq (sim.near_of_ready ready) (by decide))
    (fun ready => shown_of_is (by decide) (sim.near_of_ready ready)) ?_ ?_
  · refine trim_near_within.bind fun _ _ _ => (inner.expression _).bind fun _ _ init => ?_
    exact makeNode_within (by simp [Construct.erase, id, init.maybe])
  · refine .test ends (.from ?_ fun here => sim.near_of_ready here.1) (complain_within nofun)
    exact makeNode_within (by simp [Construct.erase, id])

theorem declarators_within (keyword : String) : sim.Within lost sim.ready sim.ready SameTrees
    (declarators r allowIn keyword) (declarators r allowIn keyword) := by
  refine .to (items_within (inner.ends.declarators _ _)
    (fun ready => Or.inl (sim.ends_eq ready (by decide) (by decide)))
    ((declarator_within inner allowIn keyword).from fun here => sim.near_of_ready here.1)
    commaFollows_within stays_commaFollows) id eraseAll_eq_of_forall₂

theorem variableDeclaration_within : sim.Within lost sim.Shown sim.near SameTree
    (variableDeclaration r allowIn) (variableDeclaration r allowIn) := by
  refine .mark fun _ _ => eat_ready_within.bind fun word word' alike => ?_
  rw [show variableKind word.kind = variableKind word'.kind by rw [alike.kind]]
  refine (declarators_within inner allowIn _).bind fun _ _ declared => ?_
  exact (makeNode_within (by simp [Construct.erase, declared])).from sim.near_of_ready

theorem usingDeclaration_within (isAwait : Bool) {start start' : Nat} :
    sim.Within lost (sim.At .kwUsing) sim.far SameTree
      (usingDeclaration r allowIn start isAwait) (usingDeclaration r allowIn start' isAwait) := by
  refine .bind (eat_ready_within.from fun here => here.shown (by decide)) fun _ _ _ => ?_
  refine (declarators_within inner allowIn _).bind fun _ _ declared => ?_
  refine .makeNode (by simp [Construct.erase, declared]) fun _ _ node => ?_
  refine .bind (trimSeparators_within.from fun ready => ?_) fun _ _ _ => pure_within node
  exact sim.far_of_near (sim.near_of_ready ready)

theorem declaration_within : sim.Within lost sim.near sim.far SameTree
    (declaration r allowIn) (declaration r allowIn) := by
  have words {kind : TokenKind} (free : kind ∉ rawKinds) :
      sim.Within lost (sim.Seen (some kind)) sim.far SameTree
        (variableDeclaration r allowIn) (variableDeclaration r allowIn) :=
    .seen (((variableDeclaration_within inner allowIn).from fun here => here.shown free).to
      sim.far_of_near id)
  refine .mark fun _ _ => .byKind (forall_blank rfl rfl rfl rfl rfl) fun kind => ?_
  split
  · exact (usingDeclaration_within inner allowIn false).seen
  · exact words (by decide)
  · exact words (by decide)
  · exact words (by decide)
  · exact .seen ((classDeclaration_within inner allowIn).to sim.far_of_near id)
  · exact .seen ((functionDeclaration_within inner allowIn false).to sim.far_of_near id)
  · refine .seen (.eat (by decide) fun _ _ _ => .at? (by decide) ?_ (complain_within nofun))
    exact (functionDeclaration_within inner allowIn true).to sim.far_of_near id
  · exact complain_within nofun

end Declarations

section Modules

omit inner

theorem moduleSource_within {complaint : Complaint} (other : complaint ≠ .numericLiteral) :
    sim.Within lost sim.near sim.near SameTree (moduleSource complaint)
      (moduleSource complaint) :=
  .at? (by decide) (stringLiteral_within.from And.left) (complain_within other)

theorem nameBehindAs_within (anyWord : Bool) : sim.Within lost sim.near sim.near SameMaybe
    (nameBehindAs anyWord) (nameBehindAs anyWord) := by
  refine .acceptIte (by decide) ?_ (pure_within rfl)
  refine trim_near_within.bind fun _ _ _ => (anyName_within anyWord).bind fun _ _ name => ?_
  exact trim_near_within.bind fun _ _ _ => pure_within name.maybe

theorem importSpecifier_within : sim.Within lost sim.near sim.near SameTree
    importSpecifier importSpecifier := by
  refine .mark fun _ _ => (anyName_within true).bind fun _ _ imported => ?_
  refine trim_near_within.bind fun _ _ _ => (nameBehindAs_within false).bind fun _ _ renamed => ?_
  exact makeNode_within (by simp [Construct.erase, imported, renamed.getD imported])

theorem exportSpecifier_within : sim.Within lost sim.near sim.near SameTree
    exportSpecifier exportSpecifier := by
  refine .mark fun _ _ => (anyName_within false).bind fun _ _ name => ?_
  refine trim_near_within.bind fun _ _ _ => (nameBehindAs_within true).bind fun _ _ renamed => ?_
  exact makeNode_within (by simp [Construct.erase, name, renamed.getD name])

theorem importClause_within (inner : sim.Inner r) : sim.Within lost sim.near sim.near SameTrees
    importClause importClause := by
  have single {a b : Tree} (same : SameTree a b) : SameTrees [a] [b] :=
    eraseAll_eq_of_forall₂ (.cons same .nil)
  refine .mark fun _ _ => .atAny? (by decide) (.from ?_ And.left) (.acceptIte (by decide) ?_ ?_)
  · refine (anyName_within false).bind fun _ _ name => ?_
    refine .makeNode (by simp [Construct.erase, name]) fun _ _ specifier => ?_
    exact pure_within (single specifier)
  · refine trim_near_within.bind fun _ _ _ => .expect (by decide) nofun fun _ _ _ _ => ?_
    refine trim_near_within.bind fun _ _ _ => (anyName_within false).bind fun _ _ name => ?_
    refine .makeNode (by simp [Construct.erase, name]) fun _ _ specifier => ?_
    exact pure_within (single specifier)
  · refine .expect (by decide) nofun fun _ _ _ _ => trim_near_within.bind fun _ _ _ => ?_
    refine .listed inner.ends.importSpecifiers (by decide) importSpecifier_within
      (fun _ => .trim (starves_expect nofun)) fun _ _ specifiers => ?_
    refine trim_near_within.bind fun _ _ _ => .expect (by decide) nofun fun _ _ _ _ => ?_
    exact pure_within specifiers

theorem importDeclaration_within (inner : sim.Inner r) :
    sim.Within lost (sim.At .kwImport) sim.near SameTree importDeclaration importDeclaration := by
  refine .mark fun _ _ => .eat (by decide) fun _ _ _ => .at? (by decide) (.from ?_ And.left) ?_
  · refine stringLiteral_within.bind fun _ _ source => ?_
    exact makeNode_within (by simp [Construct.erase, source])
  refine (commaSeparated_within inner.ends.importClauses (by decide)
    (importClause_within inner)).caught (fun _ _ clauses => ?_) fun _ => .trim (starves_expect nofun)
  refine trim_near_within.bind fun _ _ _ => .expect (by decide) nofun fun _ _ _ _ => ?_
  refine trim_near_within.bind fun _ _ _ => Within.bind (moduleSource_within nofun) fun _ _ source => ?_
  exact makeNode_within (by simp [Construct.erase, eraseAll_flatten clauses, source])

theorem exportAll_within {start start' : Nat} : sim.Within lost (sim.At .asterisk) sim.near SameTree
    (exportAll start) (exportAll start') := by
  refine .eat (by decide) fun _ _ _ => (nameBehindAs_within true).bind fun _ _ exported => ?_
  refine .expect (by decide) nofun fun _ _ _ _ => trim_near_within.bind fun _ _ _ => ?_
  refine Within.bind (moduleSource_within nofun) fun _ _ source => ?_
  exact makeNode_within (by simp [Construct.erase, exported, source])

theorem exportList_within (inner : sim.Inner r) {start start' : Nat} :
    sim.Within lost (sim.At .openBrace) sim.near SameTree (exportList start)
      (exportList start') := by
  refine .eat (by decide) fun _ _ _ => ?_
  refine .listed inner.ends.exportSpecifiers (by decide) exportSpecifier_within
    (fun _ => starves_expect nofun) fun _ _ specifiers => ?_
  refine .expect (by decide) nofun fun _ _ _ _ => trim_near_within.bind fun _ _ _ => ?_
  refine .acceptIte (by decide) ?_ ?_
  · refine trim_near_within.bind fun _ _ _ => ?_
    refine Within.bind (moduleSource_within nofun) fun _ _ source => ?_
    exact .pure_bind (makeNode_within (by simp [Construct.erase, specifiers, source.maybe]))
  · exact .pure_bind (makeNode_within (by simp [Construct.erase, specifiers]))

include inner

theorem exportDeclaration_within : sim.Within lost (sim.At .kwExport) sim.far SameTree
    (exportDeclaration r allowIn) (exportDeclaration r allowIn) := by
  refine .mark fun _ _ => .eat (by decide) fun _ _ _ => ?_
  refine .byKind (forall_blank rfl rfl rfl rfl rfl) fun kind => ?_
  split
  · refine .seen (.eat (by decide) fun _ _ _ => (inner.expression _).bind fun _ _ value => ?_)
    exact (makeNode_within (by simp [Construct.erase, value])).to sim.far_of_near id
  · exact .seen (exportAll_within.to sim.far_of_near id)
  · exact .seen ((exportList_within inner).to sim.far_of_near id)
  · refine .from ((declaration_within inner allowIn).bind fun _ _ exported => ?_) And.left
    exact makeNode_within (by simp [Construct.erase, exported.maybe])

end Modules

section Control

theorem parenthesized_within (head : Head) : sim.Within lost sim.near sim.near SameTree
    (parenthesized r head) (parenthesized r head) := by
  refine .expect (by decide) nofun fun _ _ _ _ => trim_near_within.bind fun _ _ _ => ?_
  refine (inner.expression _).bind fun _ _ test => trim_near_within.bind fun _ _ _ => ?_
  refine .expect (by decide) nofun fun _ _ _ _ => ?_
  exact trim_near_within.bind fun _ _ _ => pure_within test

/-- A body that is missing on the first side is a complaint there, also where the second
side has a semicolon for it. -/
theorem branch_within : sim.Within lost sim.near sim.far SameTree
    (branch r allowIn) (branch r allowIn) := by
  refine .at? (by decide) (.from ((block_within inner allowIn).to sim.far_of_near id) And.left) ?_
  refine .mark fun _ _ => ?_
  rw [accept_bind, accept_bind, consumeIf_bind, consumeIf_bind]
  refine .hungry sim.is_semicolon ?_ (inner.statement _)
    (hungry_of_taking ((inner.settled 1).statement allowIn))
  refine .bind (consume_within.from fun here => shown_of_is (by decide) here.1 here.2) ?_
  exact fun _ _ _ => (makeNode_within rfl).to sim.far_of_near id

/-- Behind the branch the first side may be at its end while the second sees what stands behind the
copy. No `else` stands there, so both leave the alternative out. -/
theorem ifStatement_within : sim.Within lost (sim.At .kwIf) sim.far SameTree
    (ifStatement r allowIn) (ifStatement r allowIn) := by
  refine .mark fun _ _ => .eat (by decide) fun _ _ _ => ?_
  refine (parenthesized_within inner .ifHead).bind fun _ _ test => ?_
  refine (branch_within inner allowIn).bind fun _ _ consequent => trim_far_within.bind fun _ _ _ => ?_
  refine .acceptFrom sim.is_else (fun far there => ?_) ?_ ?_
  · have atElse := beq_iff_eq.mp there
    have more {s : State} (seen : s.currentKind = some .kwElse) : s.rest ≠ [] :=
      fun ended => by simp [currentKind_nil ended] at seen
    exact shown_of_is (by decide) (sim.near_of_far far (Or.inr (more atElse))) there
  · refine trim_near_within.bind fun _ _ _ => .at? (by decide) ?_ ?_
    · refine (inner.ifStatement _).bind fun _ _ alternate => .pure_bind ?_
      exact makeNode_within (by simp [Construct.erase, test, consequent, alternate.maybe])
    · refine (branch_within inner allowIn).bind fun _ _ alternate => .pure_bind ?_
      exact makeNode_within (by simp [Construct.erase, test, consequent, alternate.maybe])
  · exact .pure_bind (makeNode_within (by simp [Construct.erase, test, consequent]))

theorem withStatement_within : sim.Within lost (sim.At .kwWith) sim.far SameTree
    (withStatement r allowIn) (withStatement r allowIn) := by
  refine .mark fun _ _ => .eat (by decide) fun _ _ _ => ?_
  refine (parenthesized_within inner .withHead).bind fun _ _ object => ?_
  refine (branch_within inner allowIn).bind fun _ _ body => ?_
  exact makeNode_within (by simp [Construct.erase, object, body])

theorem whileStatement_within : sim.Within lost (sim.At .kwWhile) sim.far SameTree
    (whileStatement r allowIn) (whileStatement r allowIn) := by
  refine .mark fun _ _ => .eat (by decide) fun _ _ _ => ?_
  refine (parenthesized_within inner .whileHead).bind fun _ _ test => ?_
  refine (branch_within inner allowIn).bind fun _ _ body => ?_
  exact makeNode_within (by simp [Construct.erase, test, body])

theorem doWhileStatement_within : sim.Within lost (sim.At .kwDo) sim.near SameTree
    (doWhileStatement r allowIn) (doWhileStatement r allowIn) := by
  refine .mark fun _ _ => .eat (by decide) fun _ _ _ => ?_
  refine (block_within inner allowIn).bind fun _ _ body => ?_
  refine .expect (by decide) nofun fun _ _ _ _ => trim_near_within.bind fun _ _ _ => ?_
  refine (inner.expression _).bind fun _ _ test => ?_
  exact makeNode_within (by simp [Construct.erase, body, test])

theorem catchParam_within : sim.Within lost sim.near sim.near SameMaybe
    (catchParam r allowIn) (catchParam r allowIn) := by
  refine .acceptIte (by decide) ?_ (pure_within rfl)
  refine trim_near_within.bind fun _ _ _ => (inner.binding _).bind fun _ _ param => ?_
  refine trim_near_within.bind fun _ _ _ => .expect (by decide) nofun fun _ _ _ _ => ?_
  exact trim_near_within.bind fun _ _ _ => pure_within param.maybe

theorem catchClause_within : sim.Within lost sim.near sim.near SameMaybe
    (catchClause r allowIn) (catchClause r allowIn) := by
  refine .at? (by decide) (.mark fun _ _ => .eat (by decide) fun _ _ _ => ?_) (pure_within rfl)
  refine (catchParam_within inner allowIn).bind fun _ _ param => ?_
  refine (block_within inner allowIn).bind fun _ _ body => ?_
  exact (makeNode_within (by simp [Construct.erase, param, body])).map SameTree.maybe

theorem finalizer_within : sim.Within lost sim.near sim.near SameMaybe
    (finalizer r allowIn) (finalizer r allowIn) := by
  refine .acceptIte (by decide) (trim_near_within.bind fun _ _ _ => ?_) (pure_within rfl)
  exact (block_within inner allowIn).map SameTree.maybe

theorem tryStatement_within : sim.Within lost (sim.At .kwTry) sim.near SameTree
    (tryStatement r allowIn) (tryStatement r allowIn) := by
  refine .mark fun _ _ => .eat (by decide) fun _ _ _ => ?_
  refine (block_within inner allowIn).bind fun _ _ body => ?_
  refine (catchClause_within inner allowIn).bind fun _ _ handler => ?_
  refine (finalizer_within inner allowIn).bind fun _ _ final => ?_
  rw [handler.isNone_eq, final.isNone_eq]
  exact .ite (complain_within nofun)
    (makeNode_within (by simp [Construct.erase, body, handler, final]))

theorem caseTest_within : sim.Within lost sim.near sim.near SameMaybe
    (caseTest r allowIn) (caseTest r allowIn) := by
  refine .acceptIte (by decide) ?_ (.acceptIte (by decide) ?_ (complain_within nofun))
  · refine trim_near_within.bind fun _ _ _ => (inner.expression _).bind fun _ _ test => ?_
    exact .expect (by decide) nofun fun _ _ _ _ => pure_within test.maybe
  · refine trim_near_within.bind fun _ _ _ => ?_
    exact .expect (by decide) nofun fun _ _ _ _ => pure_within rfl

/-- The statements of a case need nothing behind them, so the case may be lost with the
last of them. -/
theorem switchCase_within : sim.Within (¬ sim.strict) sim.near sim.far SameTree
    (switchCase r allowIn) (switchCase r allowIn) := by
  refine .mark fun _ _ => (caseTest_within inner allowIn).bind fun _ _ test => ?_
  refine (trimSeparators_within.from sim.far_of_near).bind fun _ _ _ => ?_
  refine (separated_within (inner.ends.statements _) (by decide) (inner.statement _)).andThen
    (fun _ _ body => ?_) fun _ => stays_makeNode _ _
  exact makeNode_within (by simp [Construct.erase, test, eraseAll_eq_of_forall₂ body])

theorem switchStatement_within : sim.Within lost (sim.At .kwSwitch) sim.near SameTree
    (switchStatement r allowIn) (switchStatement r allowIn) := by
  have cases : sim.Within (¬ sim.strict) sim.far sim.far (List.Forall₂ SameTree)
      (items (·.is .closeBrace) (switchCase r allowIn) (pure true))
      (items (·.is .closeBrace) (switchCase r allowIn) (pure true)) :=
    items_within (inner.ends.switchCases _)
      (stops_inside sim.near_of_far fun near => sim.is_eq near (by decide))
      ((switchCase_within inner allowIn).from fun here => sim.near_of_far here.1 (Or.inr here.2))
      (pure_within rfl) (stays_pure true)
  refine .mark fun _ _ => .eat (by decide) fun _ _ _ => ?_
  refine (parenthesized_within inner .switchHead).bind fun _ _ discriminant => ?_
  refine .expect (by decide) nofun fun _ _ _ _ => trim_near_within.bind fun _ _ _ => ?_
  refine .caught (cases.from sim.far_of_near) (fun _ _ body => ?_) fun _ => starves_expect nofun
  refine .expectFar (by decide) nofun fun _ _ _ _ => ?_
  exact makeNode_within (by simp [Construct.erase, discriminant, eraseAll_eq_of_forall₂ body])

theorem forBody_within : sim.Within lost sim.near sim.far SameTree
    (forBody r allowIn) (forBody r allowIn) := by
  refine trim_near_within.bind fun _ _ _ => .expect (by decide) nofun fun _ _ _ _ => ?_
  exact trim_near_within.bind fun _ _ _ => branch_within inner allowIn

theorem forOf_within {start start' : Nat} {left left' : Tree} (same : SameTree left left')
    (isAwait : Bool) : sim.Within lost sim.near sim.far SameTree
      (forOf r allowIn start left isAwait) (forOf r allowIn start' left' isAwait) := by
  refine .expect (by decide) nofun fun _ _ _ _ => trim_near_within.bind fun _ _ _ => ?_
  refine (inner.expression _).bind fun _ _ right => ?_
  refine (forBody_within inner allowIn).bind fun _ _ body => ?_
  exact makeNode_within (by simp [Construct.erase, same, right, body])

theorem forIn_within {start start' : Nat} {left left' : Tree} (same : SameTree left left') :
    sim.Within lost (sim.At .kwIn) sim.far SameTree (forIn r allowIn start left)
      (forIn r allowIn start' left') := by
  refine .eat (by decide) fun _ _ _ => (inner.expression _).bind fun _ _ right => ?_
  refine (forBody_within inner allowIn).bind fun _ _ body => ?_
  exact makeNode_within (by simp [Construct.erase, same, right, body])

/-- Where one side has ended and the other sees a semicolon, the clause is missing on one side only.
The rule then needs a token on the first side and fails there. -/
theorem forClause_within {stop : TokenKind}
    (equal : ∀ {s s'}, sim.near s s' → s.is stop = s'.is stop ∨
      ¬ sim.strict ∧ s.rest = [] ∧ s.is stop = false) :
    sim.Within lost sim.near sim.near SameMaybe (forClause r allowIn stop)
      (forClause r allowIn stop) :=
  .hungry equal (.from (pure_within rfl) And.left) ((inner.expression _).map SameTree.maybe)
    (hungry_of_taking ((inner.settled 1).expression allowIn).map)

theorem forThree_within {start start' : Nat} {init init' : Option Tree}
    (same : SameMaybe init init') : sim.Within lost sim.near sim.far SameTree
      (forThree r allowIn start init) (forThree r allowIn start' init') := by
  refine .expect (by decide) nofun fun _ _ _ _ => trim_near_within.bind fun _ _ _ => ?_
  refine (forClause_within inner allowIn sim.is_semicolon).bind fun _ _ test => ?_
  refine trim_near_within.bind fun _ _ _ => .expect (by decide) nofun fun _ _ _ _ => ?_
  refine trim_near_within.bind fun _ _ _ => ?_
  refine (forClause_within inner allowIn fun near => Or.inl (sim.is_eq near (by decide))).bind
    fun _ _ update => ?_
  refine (forBody_within inner allowIn).bind fun _ _ body => ?_
  exact makeNode_within (by simp [Construct.erase, same, test, update, body])

theorem forInit_within : sim.Within lost sim.near sim.near SameTree (forInit r) (forInit r) :=
  .atAny? (by decide) (variableDeclaration_within inner false) (inner.expression false)

theorem forInit_hungry : Hungry (forInit r) := by
  have settled := inner.settled 1
  have taking : Taking 1 (forInit r) (forInit r) :=
    (steady_observe _).then fun _ =>
      .ite (variableDeclaration_taking settled false).fewer (settled.expression false)
  exact hungry_of_taking taking

theorem forStatement_within : sim.Within lost (sim.At .kwFor) sim.far SameTree
    (forStatement r allowIn) (forStatement r allowIn) := by
  refine .mark fun _ _ => .eat (by decide) fun _ _ _ => ?_
  refine (accept_within (by decide)).bind fun isAwait _ same => same ▸ ?_
  refine trim_near_within.bind fun _ _ _ => .expect (by decide) nofun fun _ _ _ _ => ?_
  refine trim_near_within.bind fun _ _ _ => .hungry sim.is_semicolon (.from ?_ And.left) ?_ ?_
  · exact forThree_within inner allowIn rfl
  · refine (forInit_within inner).bind fun _ _ init => trim_near_within.bind fun _ _ _ => ?_
    refine (at?_within (by decide)).bind fun atOf _ same => same ▸ .ite ?_ ?_
    · exact forOf_within inner allowIn init isAwait
    · exact .at? (by decide) (forIn_within inner allowIn init)
        (forThree_within inner allowIn init.maybe)
  · exact (forInit_hungry inner).bind

end Control

section Statements

theorem expressionStatement_within : sim.Within lost sim.near sim.near SameTree
    (expressionStatement r allowIn) (expressionStatement r allowIn) :=
  .mark fun _ _ => (expression_within inner allowIn).bind fun _ _ expression =>
    makeNode_within (by simp [Construct.erase, expression])

/-- Behind layout, the end of the tokens and a semicolon are the same to `return`. -/
theorem returnStatement_within : sim.Within lost (sim.At .kwReturn) sim.near SameTree
    (returnStatement r allowIn) (returnStatement r allowIn) := by
  refine .mark fun _ _ => .bind (eat_ready_within.from fun here => here.shown (by decide)) ?_
  refine fun _ _ _ => .test (fun ready => sim.ends_eq ready (by decide) (by decide))
    (.from (makeNode_within rfl) fun here => ?_) ?_
  · exact sim.near_of_ready here.1
  · refine .from ((inner.expression _).bind fun _ _ argument => ?_) sim.near_of_ready
    exact makeNode_within (by simp [Construct.erase, argument.maybe])

theorem throwStatement_within : sim.Within lost (sim.At .kwThrow) sim.near SameTree
    (throwStatement r allowIn) (throwStatement r allowIn) := by
  refine .mark fun _ _ => .eat (by decide) fun _ _ _ => ?_
  refine (inner.expression _).bind fun _ _ argument => ?_
  exact makeNode_within (by simp [Construct.erase, argument])

theorem labeledStatement_within : sim.Within lost sim.near sim.far SameTree
    (labeledStatement r allowIn) (labeledStatement r allowIn) := by
  refine .mark fun _ _ => plainName_within.bind fun _ _ label => trim_near_within.bind fun _ _ _ => ?_
  refine .expect (by decide) nofun fun _ _ _ _ => trim_near_within.bind fun _ _ _ => ?_
  refine (inner.statement _).bind fun _ _ body => ?_
  exact makeNode_within (by simp [Construct.erase, label, body])

omit inner in
/-- Behind a token and the layout after it stands what was seen there before. -/
theorem eat_followed {kind behind : TokenKind} (free : kind ∉ rawKinds) :
    sim.Within lost (fun s s' => sim.At kind s s' ∧ followedBy behind s = true) (sim.At behind)
      sim.SameToken eat eat := by
  refine within_of_agree fun {s s'} ⟨here, follows⟩ => ?_
  obtain ⟨a, b, ofKind, atA, run, run', alike⟩ :=
    consume_at here.1 (not_layout_of_not_raw free) here.2
  have near := sim.next_near here.1 atA (Or.inl (ofKind ▸ free))
  have eats {s t : State} {token : Token TokenKind} (run : consume s = .ok token t) :
      eat s = .ok token (t.skipWhile Token.isSpace) := bind_ok run
  rw [eats run, eats run']
  refine ⟨alike, sim.near_of_ready (sim.trim_ready near), ?_⟩
  cases atRest : s.rest with
  | nil => exact absurd atRest here.more
  | cons token rest =>
    rw [followedBy, atRest] at follows
    have next : s.next.rest = rest := by rw [TokenCursor.next, atRest]
    obtain ⟨first, atFirst, ofKind⟩ := Option.any_eq_true .. |>.mp follows
    rw [TokenCursor.currentKind, TokenCursor.current, TokenCursor.skipWhile, next, atFirst]
    exact congrArg some (of_decide_eq_true ofKind)

theorem awaitUsing_within : sim.Within lost
    (fun s s' => sim.At .kwAwait s s' ∧ followedBy .kwUsing s = true) sim.far SameTree
    (awaitUsing r allowIn) (awaitUsing r allowIn) :=
  .mark fun _ _ => (eat_followed (by decide)).bind fun _ _ _ =>
    usingDeclaration_within inner allowIn true

theorem bareStatement_within : sim.Within lost sim.near sim.far SameTree
    (bareStatement r allowIn) (bareStatement r allowIn) := by
  have plain : sim.Within lost sim.near sim.far SameTree
      (expressionStatement r allowIn) (expressionStatement r allowIn) :=
    (expressionStatement_within inner allowIn).to sim.far_of_near id
  have declared {kind : Option TokenKind} : sim.Within lost (sim.Seen kind) sim.far SameTree
      (declaration r allowIn) (declaration r allowIn) :=
    (declaration_within inner allowIn).from And.left
  have whole {kind : TokenKind} {p : Rule Tree}
      (within : sim.Within lost (sim.At kind) sim.near SameTree p p) :
      sim.Within lost (sim.Seen (some kind)) sim.far SameTree p p :=
    .seen (within.to sim.far_of_near id)
  have behind {kind other : TokenKind} (free : other ∉ gapKinds) {s s' : State}
      (here : sim.At kind s s') : followedBy other s = followedBy other s' :=
    sim.followedBy_eq here.1 here.more free
  refine .byKind (forall_blank rfl rfl rfl rfl rfl) fun kind => ?_
  split
  · exact declared
  · exact declared
  · exact declared
  · exact declared
  · exact declared
  · exact declared
  · refine .seen (.test (behind (by decide)) ?_ (plain.from And.left))
    exact (declaration_within inner allowIn).from (·.1.1)
  · exact (ifStatement_within inner allowIn).seen
  · exact (withStatement_within inner allowIn).seen
  · exact whole (tryStatement_within inner allowIn)
  · exact (forStatement_within inner allowIn).seen
  · exact whole (doWhileStatement_within inner allowIn)
  · exact (whileStatement_within inner allowIn).seen
  · exact whole (switchStatement_within inner allowIn)
  · exact whole inner.blockComment
  · exact whole inner.lineComment
  · exact whole (markModule_within.bind fun _ _ _ => importDeclaration_within inner)
  · exact .seen (markModule_within.bind fun _ _ _ => exportDeclaration_within inner allowIn)
  · exact whole (returnStatement_within inner allowIn)
  · exact whole (throwStatement_within inner allowIn)
  · exact whole ((block_within inner allowIn).from And.left)
  · exact .seen (.test (behind (by decide)) (awaitUsing_within inner allowIn) (plain.from And.left))
  · refine .seen (.test (behind (by decide)) ?_ (plain.from And.left))
    exact (labeledStatement_within inner allowIn).from (·.1.1)
  · exact plain.from And.left

/-- Layout in front of a statement and separators behind it are skipped on both sides; behind them
the second side may have gone on further than the first. -/
theorem statement_within : sim.Within lost sim.near sim.far SameTree
    (statement r allowIn) (statement r allowIn) := by
  refine trim_near_within.bind fun _ _ _ => (bareStatement_within inner allowIn).bind fun _ _ node => ?_
  exact trimSeparators_within.bind fun _ _ _ => pure_within node

end Statements

/-- One unfolding of rules that keep in step keeps in step. -/
theorem Inner.unfold : sim.Inner r.unfold where
  toLeaves := inner.toLeaves
  settled n := by
    cases n with
    | zero => exact ⟨fun _ _ short => absurd short (Nat.not_lt_zero _),
        fun _ _ short => absurd short (Nat.not_lt_zero _),
        fun _ _ short => absurd short (Nat.not_lt_zero _),
        fun _ _ short => absurd short (Nat.not_lt_zero _)⟩
    | succ n => exact (inner.settled n).unfold
  statement := statement_within inner
  expression := expression_within inner
  binding := binding_within inner
  ifStatement := ifStatement_within inner

omit inner

/-- The rules of each depth keep in step when the leaves do. The induction is on the depth. -/
theorem Leaves.inner_unfolded (leaves : sim.Leaves) (depth : Nat) :
    sim.Inner (Rules.refusing.unfolded depth) := by
  induction depth with
  | zero => exact {
      toLeaves := leaves
      settled := fun _ => ⟨fun _ => complain_taking _, fun _ => complain_taking _,
        fun _ => complain_taking _, fun _ => complain_taking _⟩
      statement := fun _ => complain_within nofun
      expression := fun _ => complain_within nofun
      binding := fun _ => complain_within nofun
      ifStatement := fun _ => complain_within nofun }
  | succ depth ih => exact ih.unfold

end ScriptFront.Script.Lockstep
