import ScriptFront.Proofs.Grammar.Forward

namespace ScriptFront

variable {κ π α : Type}

/-- The loop over the top-level nodes of a token list, without a budget: the places at which a node
is asked for, and the answer. That it has one for every list is part of what is proved. -/
inductive Grammar.Calls (grammar : Grammar κ π α) : TokenCursor κ π → List (TokenCursor κ π) →
    EStateM.Result ParseError (TokenCursor κ π) (List α) → Prop
  | done {s} : s.rest = [] → Calls grammar s [] (.ok [] s)
  | nodeFails {s e t} : s.rest ≠ [] → grammar.node s = .error e t →
      Calls grammar s [s] (.error e t)
  | triviaFails {s node t e u} : s.rest ≠ [] → grammar.node s = .ok node t →
      grammar.trivia t = .error e u → Calls grammar s [s] (.error e u)
  | thenFails {s node t u calls e v} : s.rest ≠ [] → grammar.node s = .ok node t →
      grammar.trivia t = .ok () u → Calls grammar u calls (.error e v) →
      Calls grammar s (s :: calls) (.error e v)
  | next {s node t u calls nodes v} : s.rest ≠ [] → grammar.node s = .ok node t →
      grammar.trivia t = .ok () u → Calls grammar u calls (.ok nodes v) →
      Calls grammar s (s :: calls) (.ok (node :: nodes) v)

namespace Grammar

open ScriptFront.Parser

variable {grammar : Grammar κ π α}

/-- A node that takes a token leaves fewer of them for the next one, so there are at
most as many calls as tokens. -/
theorem itemsWithin_calls (node : ∀ n, Taking n grammar.node grammar.node)
    (trivia : ∀ n, Steady n grammar.trivia grammar.trivia) (budget : Nat) (s : TokenCursor κ π)
    (enough : s.rest.length ≤ budget) :
    ∃ calls, grammar.Calls s calls
        (itemsWithin (fun _ => false) grammar.node (do grammar.trivia; pure true) budget s) ∧
      calls.length ≤ s.rest.length := by
  induction budget generalizing s with
  | zero =>
    have ended : s.rest = [] := List.length_eq_zero_iff.mp (by omega)
    exact ⟨[], .done ended, by simp⟩
  | succ budget ih =>
    rw [itemsWithin_succ]
    by_cases ended : s.rest = []
    · rw [if_pos (by simp [TokenCursor.willContinue, ended])]
      exact ⟨[], .done ended, by simp⟩
    rw [if_neg (by simp [TokenCursor.willContinue, ended])]
    have some : 0 < s.rest.length := List.length_pos_iff.mpr ended
    have taken := (node (s.rest.length + 1) s (Nat.lt_succ_self _)).2
    cases run : grammar.node s with
    | error e t => exact ⟨[s], .nodeFails ended run, some⟩
    | ok first t =>
      rw [run] at taken
      obtain ⟨-, fewer⟩ := taken
      have moved := (trivia (t.rest.length + 1) t (Nat.lt_succ_self _)).2
      dsimp only
      cases skip : grammar.trivia t with
      | error e u =>
        rw [bind_error skip]
        exact ⟨[s], .triviaFails ended run skip, some⟩
      | ok _ u =>
        rw [skip] at moved
        have left := moved.left
        rw [bind_ok skip]
        obtain ⟨calls, others, atMost⟩ := ih u (by omega)
        refine ⟨s :: calls, ?_, by simp only [List.length_cons]; omega⟩
        dsimp only [pure, EStateM.pure]
        revert others
        cases itemsWithin (fun _ => false) grammar.node (do grammar.trivia; pure true) budget u with
        | error e v => exact .thenFails ended run skip
        | ok nodes v => exact .next ended run skip

/-- When the loop comes to nodes, it comes to nothing else. -/
theorem Calls.unique {s t : TokenCursor κ π} {nodes : List α} {calls calls' : List (TokenCursor κ π)}
    {answer : EStateM.Result ParseError (TokenCursor κ π) (List α)}
    (run : grammar.Calls s calls (.ok nodes t)) (other : grammar.Calls s calls' answer) :
    answer = .ok nodes t := by
  generalize found : EStateM.Result.ok nodes t = result at run
  induction run generalizing nodes t calls' answer with
  | done ended =>
    cases found
    cases other with
    | done => rfl
    | nodeFails more => exact absurd ended more
    | triviaFails more => exact absurd ended more
    | thenFails more => exact absurd ended more
    | next more => exact absurd ended more
  | next more step skip rest ih =>
    cases found
    cases other with
    | done ended => exact absurd ended more
    | nodeFails _ fails => exact absurd (step.symm.trans fails) nofun
    | triviaFails _ step' fails =>
      cases step.symm.trans step'
      exact absurd (skip.symm.trans fails) nofun
    | thenFails _ step' skip' rest' =>
      cases step.symm.trans step'
      cases skip.symm.trans skip'
      exact absurd (ih rest' rfl) nofun
    | next _ step' skip' rest' =>
      cases step.symm.trans step'
      cases skip.symm.trans skip'
      cases ih rest' rfl
      rfl
  | _ => cases found

end Grammar

namespace Script

open ScriptFront.Parser

/-- The rules of the grammar, each as deep as the tokens ahead of it need. They solve the equations
of the grammar, in which no depth is left. -/
def Rules.whole : Rules where
  statement allowIn s := (Rules.enough s).statement allowIn s
  expression allowIn s := (Rules.enough s).expression allowIn s
  binding allowIn s := (Rules.enough s).binding allowIn s
  ifStatement allowIn s := (Rules.enough s).ifStatement allowIn s

theorem Rules.unfolded_add (deepest : Rules) (outer depth : Nat) :
    deepest.unfolded (depth + outer) = (deepest.unfolded depth).unfolded outer := by
  induction outer with
  | zero => rfl
  | succ outer ih => exact congrArg Rules.unfold ih

/-- Unfolding beyond the tokens left changes nothing, whatever lies deepest. -/
theorem Rules.settled_whole (deepest : Rules) (n : Nat) :
    Rules.Settled n Rules.whole (deepest.unfolded n) := by
  have deep (s : State) (short : s.rest.length < n) :
      Rules.Settled (s.rest.length + 1) (Rules.enough s) (deepest.unfolded n) := by
    have split : n = n - (s.rest.length + 1) + (s.rest.length + 1) := by omega
    rw [split, Rules.unfolded_add]
    exact Rules.settled_unfolded _ _ _
  have here (s : State) : s.rest.length < s.rest.length + 1 := Nat.lt_succ_self _
  exact {
    statement := fun allowIn s short => (deep s short).statement allowIn s (here s)
    expression := fun allowIn s short => (deep s short).expression allowIn s (here s)
    binding := fun allowIn s short => (deep s short).binding allowIn s (here s)
    ifStatement := fun allowIn s short => (deep s short).ifStatement allowIn s (here s) }

/-- Rules that agree with others and take a token take one on their own account. -/
theorem Rules.Settled.self {n : Nat} {r r' : Rules} (settled : Rules.Settled n r r') :
    Rules.Settled n r r where
  statement allowIn s short := ⟨rfl, (settled.statement allowIn s short).2⟩
  expression allowIn s short := ⟨rfl, (settled.expression allowIn s short).2⟩
  binding allowIn s short := ⟨rfl, (settled.binding allowIn s short).2⟩
  ifStatement allowIn s short := ⟨rfl, (settled.ifStatement allowIn s short).2⟩

/-- The rules of the whole grammar take a token whenever they succeed, with any number of tokens
left, and go back behind none that they were given. -/
theorem Rules.whole_settled (n : Nat) : Rules.Settled n Rules.whole Rules.whole :=
  (Rules.settled_whole Rules.refusing n).self

/-- The rules are what the grammar makes of them: no bound on the depth is left in
this equation. -/
theorem Rules.whole_unfold : Rules.whole.unfold = Rules.whole := by
  have agree (s : State) : Rules.Settled (s.rest.length + 1) Rules.whole.unfold (Rules.enough s) :=
    (Rules.settled_whole Rules.refusing s.rest.length).unfold
  have here (s : State) : s.rest.length < s.rest.length + 1 := Nat.lt_succ_self _
  have statement : Rules.whole.unfold.statement = Rules.whole.statement := by
    funext allowIn s
    exact ((agree s).statement allowIn s (here s)).1
  have expression : Rules.whole.unfold.expression = Rules.whole.expression := by
    funext allowIn s
    exact ((agree s).expression allowIn s (here s)).1
  have binding : Rules.whole.unfold.binding = Rules.whole.binding := by
    funext allowIn s
    exact ((agree s).binding allowIn s (here s)).1
  have ifStatement : Rules.whole.unfold.ifStatement = Rules.whole.ifStatement := by
    funext allowIn s
    exact ((agree s).ifStatement allowIn s (here s)).1
  exact Rules.mk.injEq .. |>.mpr ⟨statement, expression, binding, ifStatement⟩

/-- The rule for statements calls itself behind the tokens that it takes. The equation has no depth
in it. -/
theorem Rules.whole_statement : Rules.whole.statement true = Script.statement Rules.whole true :=
  congrArg (fun rules => rules.statement true) Rules.whole_unfold.symm

theorem Rules.whole_expression :
    Rules.whole.expression true = Script.expression Rules.whole true :=
  congrArg (fun rules => rules.expression true) Rules.whole_unfold.symm

section Loops

/-- The loop gives the same items with every budget that is no less than the tokens
left; it starts with exactly these. -/
def EndsInTime {α : Type} (item : Rule α) (more : Rule Bool) : Prop :=
  ∀ stop (s : State) budget, s.rest.length ≤ budget →
    itemsWithin stop item more budget s = items stop item more s

/-- A list whose items take a token each has come to its end before its budget. -/
theorem endsInTime {α : Type} {item : Rule α} {more : Rule Bool} (each : ∀ n, Taking n item item)
    (goOn : ∀ n, Steady n more more) : EndsInTime item more :=
  fun _ s _ enough => items_eq each goOn s enough

/-- All loops of the grammar over the rules `r`, none of which uses up its budget. Each field names
one loop, and says that a larger budget would have given the same. -/
structure Rules.LoopsEnd (r : Rules) : Prop where
  arguments : ∀ allowIn, EndsInTime (spreadOrExpression r allowIn) commaFollows
  sequence : ∀ allowIn, EndsInTime (r.expression allowIn) commaFollows
  objectMembers : EndsInTime (objectMember r) commaFollows
  parameters : ∀ allowIn, EndsInTime (restOrBinding r allowIn) commaFollows
  patternMembers : ∀ allowIn, EndsInTime (patternMember r allowIn) commaFollows
  declarators : ∀ allowIn keyword, EndsInTime (declarator r allowIn keyword) commaFollows
  importSpecifiers : EndsInTime importSpecifier commaFollows
  importClauses : EndsInTime importClause commaFollows
  exportSpecifiers : EndsInTime exportSpecifier commaFollows
  statements : ∀ allowIn, EndsInTime (r.statement allowIn) (do trimSeparators; return true)
  classMembers : ∀ allowIn, EndsInTime (classMember r allowIn) (do trimSeparators; return true)
  templateParts : EndsInTime (templatePart r) (pure true)
  switchCases : ∀ allowIn, EndsInTime (switchCase r allowIn) (pure true)
  suffixes : ∀ start expression (s : State) budget, s.rest.length ≤ budget →
    suffixesWithin r start budget expression s =
      suffixesWithin r start s.rest.length expression s
  regExpTexts : ∀ (s : State) budget, s.rest.length ≤ budget →
    regExpText budget s = regExpText s.rest.length s

variable {r : Rules} (settled : ∀ n, Rules.Settled n r r)
include settled

/-- An access, a call or a template behind an expression takes at least one token. -/
theorem suffix_some {start : Nat} {expression longer : Tree} {s t : State}
    (run : suffix? r start expression s = .ok (some longer) t) :
    t.rest.length < s.rest.length := by
  have takes {p : Rule (Option Tree)} (taking : Taking (s.rest.length + 1) p p)
      (run : p s = .ok (some longer) t) : t.rest.length < s.rest.length := by
    have taken := (taking s (Nat.lt_succ_self _)).2
    rw [run] at taken
    exact taken.2
  have inner := settled s.rest.length
  unfold suffix? currentKind? at run
  rw [observe_bind] at run
  generalize s.currentKind = kind at run
  split at run
  · refine takes (eat_taking.bind fun _ => ?_) run
    exact (namedMember_taking start expression false).steady.map
  · exact takes (computedMember_taking inner start expression false).map run
  · exact takes (call_taking inner start expression false).map run
  · refine takes (eat_taking.bind fun _ => (steady_observe _).bind fun kind => ?_) run
    split
    · exact (computedMember_taking inner start expression true).below.map
    · exact (call_taking inner start expression true).below.map
    · exact (namedMember_taking start expression true).steady.map
  · exact takes ((templateLiteral_taking inner).bind fun _ => (steady_observe _).map) run
  · cases run

/-- A budget of the tokens that are left is enough for what follows an expression; a larger one
finds the same. -/
theorem suffixesWithin_eq {small large start : Nat} (expression : Tree) (s : State)
    (enough : s.rest.length ≤ small) (larger : small ≤ large) :
    suffixesWithin r start large expression s = suffixesWithin r start small expression s := by
  induction small generalizing large expression s with
  | zero =>
    have empty : s.rest = [] := List.length_eq_zero_iff.mp (by omega)
    have none : suffix? r start expression s = .ok none s := by
      unfold suffix? currentKind?
      rw [observe_bind]
      simp only [TokenCursor.currentKind, TokenCursor.current, empty]
      rfl
    cases large with
    | zero => rfl
    | succ large =>
      unfold suffixesWithin
      rw [bind_ok none]
  | succ small ih =>
    obtain ⟨large, rfl⟩ : ∃ m, large = m + 1 := ⟨large - 1, by omega⟩
    unfold suffixesWithin
    cases run : suffix? r start expression s with
    | error e t => rw [bind_error run, bind_error run]
    | ok found t =>
      rw [bind_ok run, bind_ok run]
      cases found with
      | none => rfl
      | some longer =>
        have fewer := suffix_some settled run
        have trimmed := (t.reach_skipWhile Token.isSpace).left
        have skip : trim t = .ok () (t.skipWhile Token.isSpace) := rfl
        dsimp only
        rw [bind_ok skip, bind_ok skip]
        exact ih longer _ (by omega) (by omega)

omit settled in
/-- A budget of the tokens that are left is enough for the text of a regular expression. -/
theorem regExpText_eq {small large : Nat} (larger : small ≤ large) :
    Steady (small + 1) (regExpText large) (regExpText small) := by
  induction small generalizing large with
  | zero =>
    intro s short
    have empty : s.rest = [] := List.length_eq_zero_iff.mp (by omega)
    have ended : regExpText large s = .ok ("", false) s := by
      cases large with
      | zero => rfl
      | succ large =>
        unfold regExpText
        rw [observe_bind, if_pos (by simp [TokenCursor.willContinue, empty])]
        rfl
    rw [ended]
    exact ⟨rfl, .refl s⟩
  | succ small ih =>
    obtain ⟨large, rfl⟩ : ∃ m, large = m + 1 := ⟨large - 1, by omega⟩
    have rest := ih (by omega : small ≤ large)
    unfold regExpText
    refine (steady_observe _).bind fun _ => .ite (steady_pure _) (Taking.steady ?_)
    refine taking_consume.bind fun token => ?_
    split
    · exact steady_pure _
    · refine (steady_observe _).bind fun _ => .ite ?_ ?_
      · refine taking_consume.steady.bind fun next => (steady_pure _).bind fun _ => ?_
        exact rest.bind fun _ => steady_pure _
      · exact (steady_pure _).bind fun _ => rest.bind fun _ => steady_pure _
    · exact rest.bind fun _ => steady_pure _

/-- Every loop takes a token in each turn, also the two that collect something else
than items. -/
theorem Rules.loopsEnd : r.LoopsEnd := by
  have commas (n : Nat) : Steady n commaFollows commaFollows := commaFollows_steady
  have separators (n : Nat) : Steady n (do trimSeparators; return true : Rule Bool) _ :=
    trimSeparators_steady.bind fun _ => steady_pure _
  have always (n : Nat) : Steady n (pure true : Rule Bool) (pure true) := steady_pure _
  exact {
    arguments := fun allowIn =>
      endsInTime (fun n => spreadOrExpression_taking (settled n) allowIn) commas
    sequence := fun allowIn => endsInTime (fun n => (settled n).expression allowIn) commas
    objectMembers := endsInTime (fun n => (objectMember_taking (settled n)).fewer) commas
    parameters := fun allowIn =>
      endsInTime (fun n => restOrBinding_taking (settled n) allowIn) commas
    patternMembers := fun allowIn =>
      endsInTime (fun n => (patternMember_taking (settled n) allowIn).fewer) commas
    declarators := fun allowIn keyword =>
      endsInTime (fun n => declarator_taking (settled n) allowIn keyword) commas
    importSpecifiers := endsInTime (fun _ => importSpecifier_taking) commas
    importClauses := endsInTime (fun _ => importClause_taking.fewer) commas
    exportSpecifiers := endsInTime (fun _ => exportSpecifier_taking) commas
    statements := fun allowIn => endsInTime (fun n => (settled n).statement allowIn) separators
    classMembers := fun allowIn =>
      endsInTime (fun n => (classMember_taking (settled n) allowIn).fewer) separators
    templateParts := endsInTime (fun n => (templatePart_taking (settled n)).fewer) always
    switchCases := fun allowIn =>
      endsInTime (fun n => (switchCase_taking (settled n) allowIn).fewer) always
    suffixes := fun _ expression s _ enough =>
      suffixesWithin_eq settled expression s (Nat.le_refl _) enough
    regExpTexts := fun s _ enough => (regExpText_eq enough s (Nat.lt_succ_self _)).1 }

end Loops

/-- An answer that leaves the parse in the same list of tokens, not before `s`, and
behind it if something was found. -/
def Progresses {α : Type} (s : State) : EStateM.Result ParseError State α → Prop
  | .ok _ t => t.tokens = s.tokens ∧ s.position < t.position ∧ t.position ≤ s.tokens.length
  | .error _ t => t.tokens = s.tokens ∧ s.position ≤ t.position ∧ t.position ≤ s.tokens.length

/-- To take a token is to make progress: behind a success the place is further on, and behind a
failure not further back. -/
theorem progresses_of_taken {α : Type} {s : State} {answer : EStateM.Result ParseError State α}
    (taken : Taken s answer) : Progresses s answer := by
  have within {t : State} (reach : s.Reach t) : t.position ≤ s.tokens.length := by
    have total := t.position_add_left
    rw [reach.tokens] at total
    omega
  cases answer with
  | ok a t => exact ⟨taken.1.tokens, taken.1.position_lt taken.2, within taken.1⟩
  | error e t => exact ⟨taken.tokens, TokenCursor.Reach.position taken, within taken⟩

/-- The whole list of tokens is gone over with at most one call for each token that
is left at the start. -/
theorem produce_calls (s : State) :
    ∃ calls answer, grammar.Calls (s.skipWhile isSeparator) calls answer ∧
      calls.length ≤ s.rest.length ∧
      grammar.produce s = match answer with
        | .ok body t => .ok ⟨body, t.properties⟩ t
        | .error e t => .error e t := by
  have node (n : Nat) : Taking n grammar.node grammar.node :=
    (Rules.whole_settled n).statement true
  have trivia (n : Nat) : Steady n grammar.trivia grammar.trivia := trimSeparators_steady
  have start := s.reach_skipWhile isSeparator
  obtain ⟨calls, run, atMost⟩ :=
    Grammar.itemsWithin_calls node trivia _ (s.skipWhile isSeparator) (Nat.le_refl _)
  refine ⟨calls, _, run, Nat.le_trans atMost start.left, ?_⟩
  have skip : grammar.trivia s = .ok () (s.skipWhile isSeparator) := rfl
  unfold Grammar.produce
  rw [bind_ok skip]
  unfold Parser.items
  cases body : (itemsWithin (fun _ => false) grammar.node (do grammar.trivia; pure true)
      (s.skipWhile isSeparator).rest.length (s.skipWhile isSeparator)) with
  | error e t => rw [bind_error ((observe_bind ..).trans body)]
  | ok nodes t =>
    rw [bind_ok ((observe_bind ..).trans body)]
    rfl

/-- A parse always ends: whatever the tokens are, a statement or an expression never
moves back nor beyond the end, and takes a token when it is found. The bounds on the
depth of the rules and on the turns of their loops are never felt, so the rules solve
the equations of the grammar; and a program asks for at most one node for each token. -/
theorem parse_progress (s : State) :
    (Progresses s (parseStatement s) ∧ Progresses s (parseExpression s)) ∧
      (∀ deepest depth, s.rest.length < depth →
        (Rules.unfolded deepest depth).statement true s = parseStatement s ∧
          (Rules.unfolded deepest depth).expression true s = parseExpression s) ∧
      (parseStatement = statement Rules.whole true ∧
        parseExpression = expression Rules.whole true ∧
        Rules.whole.unfold = Rules.whole ∧ Rules.whole.LoopsEnd) ∧
      ∃ calls answer, grammar.Calls (s.skipWhile isSeparator) calls answer ∧
        calls.length ≤ s.rest.length ∧
        grammar.produce s = match answer with
          | .ok body t => .ok ⟨body, t.properties⟩ t
          | .error e t => .error e t := by
  have here : s.rest.length < s.rest.length + 1 := Nat.lt_succ_self _
  have settled := Rules.whole_settled (s.rest.length + 1)
  refine ⟨⟨?_, ?_⟩, ?_, ⟨Rules.whole_statement, Rules.whole_expression, Rules.whole_unfold,
    Rules.loopsEnd Rules.whole_settled⟩, produce_calls s⟩
  · exact progresses_of_taken (settled.statement true s here).2
  · exact progresses_of_taken (settled.expression true s here).2
  · intro deepest depth deep
    have same := Rules.settled_whole deepest depth
    exact ⟨(same.statement true s deep).1.symm, (same.expression true s deep).1.symm⟩

end Script

end ScriptFront
