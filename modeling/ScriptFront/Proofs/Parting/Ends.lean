import ScriptFront.Proofs.Parting.Stops
import ScriptFront.Proofs.Refusals

namespace ScriptFront.Script

open ScriptFront.Parser

variable {ts : List (Token TokenKind)} {i j : Nat}

namespace Construct

/-- Whether a declarator has no value. -/
def isBare : Construct → Bool
  | variableDeclarator _ none => true
  | _ => false

/-- Whether a statement has no token of its own at its end, so that only what stands
behind it can tell that it is over. -/
def endsOpen : Construct → Bool
  | expressionStatement _ => true
  | variableDeclaration .. => true
  | _ => false

/-- Whether a declaration ends where a value is still missing. -/
def endsBare : Construct → Bool
  | variableDeclaration _ declarators => declarators.getLast?.all (·.kind.isBare)
  | _ => false

end Construct

/-- At the place stands nothing, or a token of one of the kinds. -/
def Only (ts : List (Token TokenKind)) (kinds : List TokenKind) (i : Nat) : Prop :=
  ∀ token, ts[i]? = some token → token.kind ∈ kinds

theorem Only.mono {kinds kinds' : List TokenKind} (only : Only ts kinds i)
    (more : kinds ⊆ kinds') : Only ts kinds' i :=
  fun token atToken => more (only token atToken)

/-- Where a statement has ended: no expression could go on there, and where a value is
missing no statement could begin. -/
def Ended (ts : List (Token TokenKind)) (bare : Bool) (i : Nat) : Prop :=
  Stop ts (joiningKinds false) i ∧ (bare = true → Only ts strayKinds i)

/-- No expression goes on with a token with which none begins. -/
theorem Only.ended {kinds : List TokenKind} (only : Only ts kinds i) (solid : Stop ts [] i)
    (stray : kinds ⊆ strayKinds) (bare : Bool) : Ended ts bare i := by
  have apart : ∀ kind ∈ strayKinds, kind ∉ joiningKinds false := by decide
  refine ⟨fun token atToken => ⟨(solid token atToken).1, ?_⟩, fun _ => only.mono stray⟩
  exact apart token.kind (stray (only token atToken))

theorem joiningKinds_subset (allowIn : Bool) : joiningKinds false ⊆ joiningKinds allowIn := by
  cases allowIn <;> decide

theorem lands_kind (start : Nat) (c : Construct) :
    Lands ts i (Parser.makeNode start c : Rule Tree) fun t j => j = i ∧ t.kind = c :=
  (lands_makeNode start c).mono fun _ _ _ ⟨same, _, _, _, made⟩ => ⟨same, made ▸ rfl⟩

section Lists

variable {α : Type} {kinds : List TokenKind} {item : Rule α} {Last : α → Nat → Prop}
  (takes : ∀ n, Taking n item item)
  (each : ∀ i, Lands ts i item fun a j => Stop ts [] j ∧ Last a j)
include takes each

/-- A list with commas in it ends behind its last item, or at one of the tokens that
stop it. -/
theorem commaSeparated_ends (solid : Stop ts [] i) :
    Lands ts i (commaSeparated kinds item) fun as j => Stop ts [] j ∧
      (Only ts kinds j ∨ ∃ a ∈ as.getLast?, Last a j) := by
  have within : ∀ budget i, ts.length - i ≤ budget → Stop ts [] i →
      Lands ts i (itemsWithin (·.isAny kinds) item commaFollows budget) fun as j =>
        Stop ts [] j ∧ (Only ts kinds j ∨ ∃ a ∈ as.getLast?, Last a j) := by
    intro budget
    induction budget with
    | zero =>
      intro i enough solid
      refine lands_pure ⟨solid, Or.inl fun token atToken => ?_⟩
      have inside := (List.getElem?_eq_some_iff.mp atToken).1
      omega
    | succ budget ih =>
      intro i enough solid
      apply lands_seen (fun kind => !kind.isSome || kind.any (kinds.contains ·)) fun s => by
        rw [s.willContinue_eq_isSome]
        rfl
      split
      · rename_i stopped
        refine lands_pure ⟨solid, Or.inl fun token atToken => ?_⟩
        rw [atToken] at stopped
        simpa using stopped
      · -- The item takes a token, so the budget is enough for the items behind it.
        apply ((lands_of_taking takes).and (each i)).bind
        rintro first j _ ⟨further, ended, last⟩
        rw [commaFollows, bind_assoc]
        apply ended.trim.bind
        rintro _ _ _ rfl
        rw [bind_assoc]
        apply lands_accept TokenKind.comma
        · intro _ _ _
          rw [if_pos rfl, bind_assoc]
          apply trim_stop.bind
          intro _ k onward solid
          rw [pure_bind, if_pos rfl]
          apply (ih k (by omega) solid).bind
          rintro others l _ ⟨solid, ended⟩
          refine lands_pure ⟨solid, ended.imp_right ?_⟩
          rintro ⟨a, isLast, last⟩
          exact ⟨a, by simp [List.getLast?_cons, Option.mem_def.mp isLast], last⟩
        · exact lands_pure ⟨ended, Or.inr ⟨first, rfl, last⟩⟩
  exact lands_left (within _ i (Nat.le_refl _) solid)

end Lists

section Declarations

variable {r : Rules} (settled : ∀ n, Rules.Settled n r r) (stops : r.Stops ts) (allowIn : Bool)
include settled stops

/-- A declarator without a value ends in front of a token that no statement begins with. -/
theorem declarator_ends (keyword : String) (i : Nat) :
    Lands ts i (declarator r allowIn keyword) fun t j =>
      Stop ts [] j ∧ Ended ts t.kind.isBare j := by
  apply lands_mark
  refine .skip (fun n => ((settled n).binding allowIn).steady) fun id j _ => ?_
  apply trim_stop.bind
  intro _ k _ solid
  apply lands_accept_ite
  · intro _ _ _
    refine .skip (fun _ => trim_steady) fun _ l _ => ?_
    apply (stops allowIn l).bind
    intro init m _ stop
    apply (lands_kind _ _).mono
    rintro t _ _ ⟨rfl, made⟩
    refine ⟨stop.mono (List.nil_subset _), stop.mono (joiningKinds_subset allowIn), ?_⟩
    rw [made]
    exact nofun
  · apply lands_seen (fun kind => !kind.isSome ||
      kind.any ([TokenKind.semicolon, .comma, .kwOf, .closeBrace].contains ·) ||
      !allowIn && kind == some TokenKind.kwIn) fun s => by
        rw [declaratorEnds, s.willContinue_eq_isSome]
        rfl
    split
    · rename_i seen
      have only : Only ts [.semicolon, .comma, .kwOf, .closeBrace, .kwIn] k := by
        intro token atToken
        rw [atToken] at seen
        simp at seen ⊢
        grind
      apply (lands_kind _ _).mono
      rintro t _ _ ⟨rfl, -⟩
      exact ⟨solid, only.ended solid (by decide) _⟩
    · exact lands_fail _

/-- A declaration of variables ends behind its last declarator or at a token that stops the list.
Without a value the latter is a token with which no statement begins. -/
theorem variableDeclaration_ends (i : Nat) :
    Lands ts i (variableDeclaration r allowIn) fun t j => Ended ts t.kind.endsBare j := by
  apply lands_mark
  unfold eat
  simp only [bind_assoc, pure_bind]
  refine .skip (fun _ => taking_consume.steady) fun word j _ => ?_
  apply trim_stop.bind
  intro _ k _ solid
  apply (commaSeparated_ends (fun n => declarator_taking (settled n) allowIn _)
    (declarator_ends settled stops allowIn _) solid).bind
  rintro declarators l _ ⟨solid, ended⟩
  apply (lands_kind _ _).mono
  rintro t _ _ ⟨rfl, made⟩
  rw [made]
  rcases ended with only | ⟨last, isLast, ended⟩
  · exact only.ended solid (by decide) _
  · rwa [Construct.endsBare, Option.mem_def.mp isLast]

end Declarations

section Statements

variable {α β : Type}

/-- Whatever the rule finds satisfies the property. -/
def Results (p : Rule α) (post : α → Prop) : Prop := ∀ s a t, p s = .ok a t → post a

theorem Results.bind {p : Rule α} {f : α → Rule β} {post : α → Prop} {goal : β → Prop}
    (first : Results p post) (next : ∀ a, post a → Results (f a) goal) :
    Results (p >>= f) goal := by
  intro s b u run
  cases found : p s with
  | error e t =>
    rw [bind_error found] at run
    cases run
  | ok a t =>
    rw [bind_ok found] at run
    exact next a (first s a t found) t b u run

/-- What a first step finds may be of no interest. -/
theorem Results.behind {p : Rule α} {f : α → Rule β} {goal : β → Prop}
    (next : ∀ a, Results (f a) goal) : Results (p >>= f) goal :=
  .bind (fun _ _ _ _ => trivial) fun a _ => next a

theorem Results.ite {p q : Rule α} {post : α → Prop} {c : Bool} (yes : Results p post)
    (no : Results q post) : Results (if c then p else q) post := by
  cases c with
  | true => exact yes
  | false => exact no

theorem results_complain {post : α → Prop} (complaint : Complaint) :
    Results (complain complaint) post :=
  fun _ _ _ => nofun

theorem results_pure {post : α → Prop} {a : α} (holds : post a) : Results (pure a) post := by
  rintro s _ t ⟨⟩
  exact holds

/-- The rule makes no statement of the two sorts that have to look behind themselves for their end,
which are expressions that stand alone and declarations of variables. -/
def Closes (p : Rule Tree) : Prop := Results p fun t => t.kind.endsOpen = false

/-- A construct that is neither a bare expression nor a declaration of variables closes. -/
theorem closes_makeNode (start : Nat) {c : Construct} (closed : c.endsOpen = false) :
    Closes (makeNode start c) := by
  rintro s _ t ⟨⟩
  exact closed

variable (r : Rules) (allowIn : Bool)

theorem usingDeclaration_closes (start : Nat) (isAwait : Bool) :
    Closes (usingDeclaration r allowIn start isAwait) :=
  .behind fun _ => .behind fun _ => .bind (closes_makeNode start rfl) fun _ closed =>
    .behind fun _ => results_pure closed

theorem functionDeclaration_closes (start : Nat) (isAsync : Bool) :
    Closes (functionDeclaration r allowIn start isAsync) := by
  refine .behind fun _ => .behind fun _ => .behind fun _ => .behind fun _ => .behind fun _ => ?_
  exact .behind fun _ => closes_makeNode start rfl

theorem classDeclaration_closes : Closes (classDeclaration r allowIn) := by
  refine .behind fun start => .behind fun _ => .behind fun _ => .behind fun _ => .behind fun _ => ?_
  exact .behind fun _ => closes_makeNode start rfl

theorem block_closes : Closes (block r allowIn) := by
  refine .behind fun start => .behind fun _ => .behind fun _ => .behind fun _ => .behind fun _ => ?_
  exact .bind (closes_makeNode start rfl) fun _ closed => .behind fun _ => results_pure closed

theorem ifStatement_closes : Closes (ifStatement r allowIn) := by
  refine .behind fun start => .behind fun _ => .behind fun _ => .behind fun _ => .behind fun _ => ?_
  have node (test consequent : Tree) (alternate : Option Tree) :
      Closes (makeNode start (.ifStatement test consequent alternate)) := closes_makeNode start rfl
  refine .behind fun there => .ite (.behind fun _ => .behind fun _ => .ite ?_ ?_) (node _ _ _)
  · exact .behind fun _ => node _ _ _
  · exact .behind fun _ => node _ _ _

theorem withStatement_closes : Closes (withStatement r allowIn) :=
  .behind fun start => .behind fun _ => .behind fun _ => .behind fun _ => closes_makeNode start rfl

theorem whileStatement_closes : Closes (whileStatement r allowIn) :=
  .behind fun start => .behind fun _ => .behind fun _ => .behind fun _ => closes_makeNode start rfl

theorem doWhileStatement_closes : Closes (doWhileStatement r allowIn) := by
  refine .behind fun start => .behind fun _ => .behind fun _ => .behind fun _ => .behind fun _ => ?_
  exact .behind fun _ => closes_makeNode start rfl

theorem tryStatement_closes : Closes (tryStatement r allowIn) := by
  refine .behind fun start => .behind fun _ => .behind fun _ => .behind fun _ => .behind fun _ => ?_
  exact .ite (results_complain _) (closes_makeNode start rfl)

theorem switchStatement_closes : Closes (switchStatement r allowIn) := by
  refine .behind fun start => .behind fun _ => .behind fun _ => .behind fun _ => .behind fun _ => ?_
  exact .behind fun _ => .behind fun _ => closes_makeNode start rfl

theorem forThree_closes (start : Nat) (init : Option Tree) :
    Closes (forThree r allowIn start init) := by
  refine .behind fun _ => .behind fun _ => .behind fun _ => .behind fun _ => .behind fun _ => ?_
  exact .behind fun _ => .behind fun _ => .behind fun _ => closes_makeNode start rfl

theorem forStatement_closes : Closes (forStatement r allowIn) := by
  refine .behind fun start => .behind fun _ => .behind fun _ => .behind fun _ => .behind fun _ => ?_
  refine .behind fun _ => .behind fun _ => .ite (forThree_closes r allowIn start _) ?_
  refine .behind fun init => .behind fun _ => .behind fun _ => .ite ?_ ?_
  · exact .behind fun _ => .behind fun _ => .behind fun _ => .behind fun _ =>
      closes_makeNode start rfl
  · refine .behind fun _ => .ite ?_ (forThree_closes r allowIn start _)
    exact .behind fun _ => .behind fun _ => .behind fun _ => closes_makeNode start rfl

theorem blockComment_closes : Closes blockComment := by
  refine .behind fun start => .behind fun _ => .behind fun _ => .behind fun _ => ?_
  exact .bind (closes_makeNode start rfl) fun _ closed => .behind fun _ => results_pure closed

theorem lineComment_closes : Closes lineComment := by
  refine .behind fun start => .behind fun _ => .behind fun _ => ?_
  refine .bind (closes_makeNode start rfl) fun _ closed => .behind fun _ => .ite ?_ ?_
  · exact .behind fun _ => .behind fun _ => results_pure closed
  · exact .behind fun _ => results_pure closed

theorem importDeclaration_closes : Closes importDeclaration := by
  refine .behind fun start => .behind fun _ => .behind fun _ => .ite ?_ ?_
  · exact .behind fun _ => closes_makeNode start rfl
  · refine .behind fun _ => .behind fun _ => .behind fun _ => .behind fun _ => ?_
    exact .behind fun _ => closes_makeNode start rfl

theorem exportAll_closes (start : Nat) : Closes (exportAll start) := by
  refine .behind fun _ => .behind fun _ => .behind fun _ => .behind fun _ => ?_
  exact .behind fun _ => closes_makeNode start rfl

theorem exportList_closes (start : Nat) : Closes (exportList start) := by
  have node (specifiers : List Tree) (source : Option Tree) :
      Closes (makeNode start (.exportNamedDeclaration none specifiers source)) :=
    closes_makeNode start rfl
  refine .behind fun _ => .behind fun _ => .behind fun _ => .behind fun _ => .behind fun _ => ?_
  exact .ite (.behind fun _ => .behind fun _ => node _ _) (node _ _)

theorem exportDeclaration_closes : Closes (exportDeclaration r allowIn) := by
  refine .behind fun start => .behind fun _ => .behind fun _ => ?_
  split
  · exact .behind fun _ => .behind fun _ => closes_makeNode start rfl
  · exact exportAll_closes start
  · exact exportList_closes start
  · exact .behind fun _ => closes_makeNode start rfl

theorem returnStatement_closes : Closes (returnStatement r allowIn) :=
  .behind fun start => .behind fun _ => .behind fun _ =>
    .ite (closes_makeNode start rfl) (.behind fun _ => closes_makeNode start rfl)

theorem throwStatement_closes : Closes (throwStatement r allowIn) :=
  .behind fun start => .behind fun _ => .behind fun _ => closes_makeNode start rfl

theorem labeledStatement_closes : Closes (labeledStatement r allowIn) := by
  refine .behind fun start => .behind fun _ => .behind fun _ => .behind fun _ => .behind fun _ => ?_
  exact .behind fun _ => closes_makeNode start rfl

theorem awaitUsing_closes : Closes (awaitUsing r allowIn) :=
  .behind fun start => .behind fun _ => usingDeclaration_closes r allowIn start true

end Statements

section Whole

/-- A statement that looks behind itself for its end has found it: no token with which it could have
gone on stands there. -/
def EndFound (ts : List (Token TokenKind)) (t : Tree) (j : Nat) : Prop :=
  t.kind.endsOpen = true → Ended ts t.kind.endsBare j

/-- A statement that does not look behind itself may end anywhere. -/
theorem Closes.lands {p : Rule Tree} (closes : Closes p) (steady : ∀ n, Steady n p p) :
    Lands ts i p fun t j => EndFound ts t j := by
  refine ((lands_of_steady steady).also fun s a t _ _ run looks => ?_).mono fun _ _ _ => And.right
  rw [closes s a t run] at looks
  cases looks

variable {r : Rules} (settled : ∀ n, Rules.Settled n r r) (stops : r.Stops ts) (allowIn : Bool)
include settled stops

/-- An expression that stands as a statement ends where no expression could go on. -/
theorem expressionStatement_ends (i : Nat) :
    Lands ts i (expressionStatement r allowIn) fun t j => EndFound ts t j := by
  apply lands_mark
  apply (expression_stops settled stops allowIn).bind
  intro inner j _ stop
  apply (lands_kind _ _).mono
  rintro t _ _ ⟨rfl, made⟩ -
  rw [made]
  exact ⟨stop.mono (joiningKinds_subset allowIn), nofun⟩

/-- Of all declarations only those of variables have to look behind themselves for their end. -/
theorem declaration_ends (i : Nat) :
    Lands ts i (declaration r allowIn) fun t j => EndFound ts t j := by
  have ofVariables : Lands ts i (variableDeclaration r allowIn) fun t j => EndFound ts t j :=
    (variableDeclaration_ends settled stops allowIn i).mono fun _ _ _ ended _ => ended
  apply lands_mark
  apply lands_currentKind
  split
  · exact (usingDeclaration_closes r allowIn i false).lands fun n =>
      (usingDeclaration_taking (settled n) allowIn i false).below
  · exact ofVariables
  · exact ofVariables
  · exact ofVariables
  · exact (classDeclaration_closes r allowIn).lands fun n =>
      (classDeclaration_taking (settled n) allowIn).below
  · exact (functionDeclaration_closes r allowIn i false).lands fun n =>
      (functionDeclaration_taking (settled n) allowIn i false).below
  · refine .skip (fun _ => eat_taking.steady) fun _ j _ => lands_if ?_ (lands_fail _)
    exact (functionDeclaration_closes r allowIn i true).lands fun n =>
      (functionDeclaration_taking (settled n) allowIn i true).below
  · exact lands_fail _

/-- Every statement has found its end where it had to look for it. The cases are those of the first
token, and two sorts of statements look. -/
theorem bareStatement_ends (i : Nat) :
    Lands ts i (bareStatement r allowIn) fun t j => EndFound ts t j := by
  have plain := expressionStatement_ends settled stops allowIn i
  have declared := declaration_ends settled stops allowIn i
  apply lands_currentKind
  split
  · exact declared
  · exact declared
  · exact declared
  · exact declared
  · exact declared
  · exact declared
  · exact lands_if declared plain
  · exact (ifStatement_closes r allowIn).lands fun n => (ifStatement_taking (settled n) allowIn).below
  · exact (withStatement_closes r allowIn).lands fun n =>
      (withStatement_taking (settled n) allowIn).below
  · exact (tryStatement_closes r allowIn).lands fun n =>
      (tryStatement_taking (settled n) allowIn).below
  · exact (forStatement_closes r allowIn).lands fun n =>
      (forStatement_taking (settled n) allowIn).below
  · exact (doWhileStatement_closes r allowIn).lands fun n =>
      (doWhileStatement_taking (settled n) allowIn).below
  · exact (whileStatement_closes r allowIn).lands fun n =>
      (whileStatement_taking (settled n) allowIn).below
  · exact (switchStatement_closes r allowIn).lands fun n =>
      (switchStatement_taking (settled n) allowIn).below
  · exact blockComment_closes.lands fun _ => blockComment_taking.steady
  · exact lineComment_closes.lands fun _ => lineComment_taking.steady
  · refine .skip (fun _ => steady_modifyProperties _) fun _ j _ => ?_
    exact importDeclaration_closes.lands fun _ => importDeclaration_taking.steady
  · refine .skip (fun _ => steady_modifyProperties _) fun _ j _ => ?_
    exact (exportDeclaration_closes r allowIn).lands fun n =>
      (exportDeclaration_taking (settled n) allowIn).below
  · exact (returnStatement_closes r allowIn).lands fun n =>
      (returnStatement_taking (settled n) allowIn).below
  · exact (throwStatement_closes r allowIn).lands fun n =>
      (throwStatement_taking (settled n) allowIn).below
  · exact (block_closes r allowIn).lands fun n => (block_taking (settled n) allowIn).below
  · refine lands_if ?_ plain
    exact (awaitUsing_closes r allowIn).lands fun n => (awaitUsing_taking (settled n) allowIn).below
  · refine lands_if ?_ plain
    exact (labeledStatement_closes r allowIn).lands fun n =>
      (labeledStatement_taking (settled n) allowIn).below
  · exact plain

end Whole

end ScriptFront.Script
