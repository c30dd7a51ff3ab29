import ScriptFront.Proofs.Composition.Program
import ScriptFront.Proofs.Header.Loop
import ScriptFront.Proofs.Header.Statements

namespace ScriptFront.Script

open ScriptFront.Parser

variable {ts : List (Token TokenKind)} {s : State}

/-- Where `in` is only used in shelter, an expression of a script is read without that
operator as it is read with it. -/
theorem whole_expression_persists (lexed : Lexed ts) (i : Nat) :
    Persists ts i True (Rules.whole.expression true) (Rules.whole.expression false)
      (ShelteredAt ts i) := by
  intro s e t atTokens atPlace run
  have deep := Nat.lt_succ_self s.rest.length
  have settled := Rules.settled_whole Rules.refusing (s.rest.length + 1)
  rw [(settled.expression true s deep).1] at run
  rw [(settled.expression false s deep).1]
  exact (Rules.persist_unfolded lexed _).expression i s e t atTokens atPlace run

theorem skipWhile_first {test : Token TokenKind → Bool} {token : Token TokenKind}
    {rest : List (Token TokenKind)} (atRest : s.rest = token :: rest) (other : test token = false) :
    s.skipWhile test = s := by
  obtain ⟨before, _, found⟩ := s
  obtain rfl := atRest
  simp [TokenCursor.skipWhile, other]

/-- Tokens that may be a statement as well as a clause of a loop: they begin with a name that
is not labelled, and end in a closing brace. -/
structure Clausal (ts : List (Token TokenKind)) : Prop where
  lexed : Lexed ts
  named : headKind (ts.map Token.piece) = some .identifier
  unlabelled : Unlabelled (ts.map Token.piece)
  closing : ∀ token ∈ ts.getLast?, token.kind = .closeBrace

section Clausal

variable (clausal : Clausal ts) {options : Options} {found : Properties} {statement e : Tree}
include clausal

/-- The first token is no separator. -/
theorem Clausal.first : ∃ name others, ts = name :: others ∧ isSeparator name = false := by
  obtain ⟨name, others, rfl⟩ : ∃ name others, ts = name :: others := by
    refine List.exists_cons_of_ne_nil fun none => ?_
    have named := clausal.named
    rw [none] at named
    cases named
  refine ⟨name, others, rfl, by_contra fun separator => ?_⟩
  have blank := kind_of_separator (clausal.lexed.marked name List.mem_cons_self)
    (by simpa using separator)
  rw [Option.some.inj (show some name.kind = some .identifier from clausal.named)] at blank
  exact absurd blank (by decide)

/-- The clause begins with a name, so the rules that look at its first token take it for an
expression. -/
theorem Clausal.begins (back : List (Piece TokenKind)) :
    headKind (ts.map Token.piece ++ back) = some .identifier ∧
      Firm (ts.map Token.piece ++ back) := by
  have named := clausal.named
  obtain ⟨name, others, rfl, plain⟩ := clausal.first
  have solid : name.piece.isSpace = false := (Bool.or_eq_false_iff.mp plain).1
  exact ⟨named, firm_cons solid _⟩

/-- Nor is the last one. -/
theorem Clausal.exhausted (suffix : s.rest <:+ ts) (gone : s.rest.dropWhile isSeparator = []) :
    s.rest = [] := by
  by_contra more
  obtain ⟨init, last, atRest⟩ := (List.eq_nil_or_concat' s.rest).resolve_left more
  obtain ⟨front, rfl⟩ := suffix
  have ofKind := clausal.closing last (by simp [atRest])
  have separator := List.dropWhile_eq_nil_iff.mp gone last (by simp [atRest])
  have blank := kind_of_separator (clausal.lexed.marked last (by simp [atRest])) separator
  rw [ofKind] at blank
  exact absurd blank (by decide)

/-- If such tokens are one statement, this is an expression over all of them. -/
theorem Clausal.expression (run : produce ts options = .ok ⟨[statement], found⟩) :
    ∃ e v, Rules.whole.expression true (State.ofTokens ts options) = .ok e v ∧
      statement.kind = .expressionStatement e ∧ v.rest = [] ∧ v.properties = found := by
  obtain ⟨name, others, ofName, plain⟩ := clausal.first
  have stays {test : Token TokenKind → Bool} (other : test name = false) :
      (State.ofTokens ts options).skipWhile test = State.ofTokens ts options :=
    skipWhile_first ofName other
  obtain ⟨calls, t, loop, rfl⟩ := produce_eq_ok_iff.mp run
  rw [stays plain] at loop
  cases loop with
  | next _ step skip rest =>
    cases rest with
    | done ended =>
      cases skip
      obtain ⟨e, v, inner, ofKind, rfl⟩ :=
        parseStatement_named (stays (Bool.or_eq_false_iff.mp plain).1) clausal.named
          clausal.unlabelled step
      refine ⟨e, v, inner, ofKind, clausal.exhausted ?_ ?_, rfl⟩
      · obtain ⟨tokens, -⟩ :=
          whole_expression_persists clausal.lexed 0 (State.ofTokens ts options) e v rfl rfl inner
        exact ⟨v.before.reverse, tokens⟩
      · simpa [TokenCursor.skipWhile, List.dropWhile_idempotent] using ended

variable {ts' : List (Token TokenKind)} {v : State}

/-- The expression is found as well in front of what stands behind the first clause of a loop. -/
theorem Clausal.copied (inner : Rules.whole.expression false (State.ofTokens ts options) = .ok e v)
    (ended : v.rest = []) (here : ahead s = ts.map Token.piece ++ loopBack)
    (alike : s.properties = options.properties) :
    ∃ init u, Rules.whole.expression false s = .ok init u ∧ SameTree init e ∧
      ahead u = loopBack ∧ u.properties = v.properties := by
  obtain ⟨front, ext, atRest, ofFront, ofExt⟩ := List.map_eq_append_iff.mp here
  have start : Abut ext ts [ext] (State.ofTokens ts options) s :=
    ⟨⟨atRest ▸ (copied_append ofFront).place, List.Subset.refl ts, alike⟩, List.suffix_rfl⟩
  have leaves : (abutting (loopBack_bounds ofExt) ts).Leaves := abutting_leaves clausal.closing
  have agree := Lockstep.Within.agree (leaves.inner_whole.expression false) start
  rw [inner] at agree
  cases found : Rules.whole.expression false s with
  | error x u =>
    rw [found] at agree
    exact agree.elim
  | ok init u =>
    rw [found] at agree
    obtain ⟨same, abut⟩ := agree
    refine ⟨init, u, rfl, same.symm, ?_, abut.copy.marked⟩
    rw [ahead, ← abut.copy.eq_of_nil ended, ofExt]

/-- Tokens that are read as one expression are read as that expression in the first clause of
a loop, if `in` is only used in shelter. -/
theorem Clausal.produce_header (alike : ts'.map Token.piece = loopFront ++ ts.map Token.piece ++ loopBack)
    (run : produce ts options = .ok ⟨[statement], found⟩)
    (value : statement.kind = .expressionStatement e) (sheltered : Sheltered ts e) :
    ∃ loop init body, produce ts' options = .ok ⟨[loop], found⟩ ∧
      loop.kind = .forStatement (some init) none none body ∧ SameTree init e := by
  obtain ⟨e', v, inner, ofKind, ended, rfl⟩ := clausal.expression run
  obtain rfl : e = e' := Construct.expressionStatement.inj (value.symm.trans ofKind)
  obtain ⟨-, -, persists⟩ :=
    whole_expression_persists clausal.lexed 0 (State.ofTokens ts options) e v rfl rfl inner
  obtain ⟨first, firm⟩ := clausal.begins loopBack
  have here : ahead (State.ofTokens ts' options) = loopFront ++ (ts.map Token.piece ++ loopBack) :=
    alike.trans (List.append_assoc ..)
  obtain ⟨w, atClause, kept, goesOn⟩ := parseStatement_loop here first firm
  obtain ⟨init, u, inner', same, behind, kept'⟩ :=
    clausal.copied (persists fun _ => sheltered).2 ended atClause kept
  obtain ⟨loop, body, z, step, made, gone, kept''⟩ := goesOn init u inner' behind
  refine ⟨loop, init, body, produce_eq_ok_iff.mpr ⟨[State.ofTokens ts' options],
    z.skipWhile isSeparator, ?_, kept''.trans kept'⟩, made, same⟩
  obtain ⟨word, rest, atWord, ofWord, -⟩ := List.map_eq_cons_iff.mp here
  have plain : isSeparator word = false := congrArg separates ofWord
  rw [skipWhile_first atWord plain]
  refine .next (fun none => ?_) step rfl (.done ?_)
  · rw [none] at atWord
    cases atWord
  · rw [TokenCursor.skipWhile, gone]
    rfl

end Clausal

section Sources

variable {body : String} {options : Options} {parsed : Parsed} {statement e : Tree}

/-- An assignment to `x` begins with a name that is not labelled. -/
theorem assignment_named {pieces : List (Piece TokenKind)} {cs : List Char} (spells : Spells {} pieces)
    (spelled : Piece.spelled pieces = "x = ".toList ++ cs) :
    headKind pieces = some .identifier ∧ Unlabelled pieces := by
  obtain ⟨_, afterName, rfl, spells, spelled⟩ := spells.uncons spelled nofun rfl
  obtain ⟨_, afterSpace, rfl, spells, spelled⟩ := spells.uncons spelled nofun rfl
  obtain ⟨_, afterEquals, rfl, -⟩ := spells.uncons spelled nofun rfl
  exact ⟨rfl, fun _ => by simp [Piece.isSpace]⟩

/-- A script that assigns a function with some body. -/
def assigning (body : String) : String := "x = " ++ ("function () \x7b" ++ body ++ "\n\x7d")

/-- A loop of which only the first clause is not empty. -/
def looping (clause : String) : String := "for (" ++ clause ++ "; ; ) ;"

/-- A function that is assigned is read alike in the first clause of a loop if its body leaves
no template open and `in` is only used in shelter. In that clause `in` is no operator, and a
function does not make it one again, as parentheses and other brackets do. -/
theorem parseWith_header (run : parseWith (assigning body) options = .ok parsed)
    (lexing : tokenize (assigning body) = .ok ts) (alone : parsed.tree.kind = .program [statement])
    (value : statement.kind = .expressionStatement e)
    (code : ((ts.map (·.kind)).foldl Modes.after {}).stack = []) (sheltered : Sheltered ts e) :
    ∃ parsed' loop init body', parseWith (looping (assigning body)) options = .ok parsed' ∧
      parsed'.tree.kind = .program [loop] ∧ loop.kind = .forStatement (some init) none none body' ∧
      erase init = erase e ∧ parsed'.properties = parsed.properties := by
  obtain ⟨_, ⟨_, found⟩, lexing', parsing, rfl⟩ := parseWith_eq_ok_iff.mp run
  obtain rfl := Except.ok.inj (lexing.symm.trans lexing')
  obtain rfl := Construct.program.inj alone
  obtain ⟨spells, spelled⟩ := tokenize_spells lexing
  have ends : (assigning body).toList =
      "x = ".toList ++ ("function () \x7b" ++ body).toList ++ "\n\x7d".toList := by
    rw [assigning, String.toList_append, String.toList_append, List.append_assoc]
  have closing := last_closeBrace lexing ends code (not_unclosed_of_produce parsing)
  obtain ⟨named, unlabelled⟩ := assignment_named spells (spelled.trans String.toList_append)
  have clausal : Clausal ts := ⟨tokenize_lexed lexing, named, unlabelled, closing⟩
  obtain ⟨ts', lexing', alike⟩ := tokenize_header lexing code fun token isLast => by
    rw [closing token isLast]
    decide
  obtain ⟨loop, init, body', parsing', made, same⟩ :=
    clausal.produce_header alike parsing value sheltered
  have run' := parseWith_eq_ok_iff.mpr ⟨ts', _, lexing', parsing', rfl⟩
  exact ⟨_, loop, init, body', run', rfl, made, same, rfl⟩

/-- In brackets `in` is an operator: the tree of a source in which it stands there. -/
theorem parseWith_assigning_brackets :
    (match parseWith (assigning "[a in b]") {}, tokenize (assigning "[a in b]") with
    | .ok ⟨⟨.program [⟨.expressionStatement ⟨.assignmentExpression _ ⟨.identifier _, _⟩
        ⟨.functionExpression none [] ⟨.blockStatement [⟨.expressionStatement ⟨.arrayExpression _, _⟩,
          _⟩], _⟩ false false, _⟩, _⟩, _⟩], _⟩, _⟩, .ok ts =>
      ((ts.map (·.kind)).foldl Modes.after {}).stack.isEmpty
    | _, _ => false) = true := by decide +kernel

/-- The theorem at a source in which `in` stands in brackets and is therefore sheltered: all its
conditions hold, and so the loop with this clause is accepted. -/
theorem parseWith_header_brackets : ∃ parsed ts statement e parsed' loop init body',
    parseWith (assigning "[a in b]") {} = .ok parsed ∧ tokenize (assigning "[a in b]") = .ok ts ∧
      parsed.tree.kind = .program [statement] ∧ statement.kind = .expressionStatement e ∧
      ((ts.map (·.kind)).foldl Modes.after {}).stack = [] ∧ Sheltered ts e ∧
      parseWith (looping (assigning "[a in b]")) {} = .ok parsed' ∧
      parsed'.tree.kind = .program [loop] ∧ loop.kind = .forStatement (some init) none none body' ∧
      erase init = erase e ∧ parsed'.properties = parsed.properties := by
  have found := parseWith_assigning_brackets
  split at found
  · rename_i operator name atName elements atElements atLine atBlock atFunction atValue atStatement
      atProgram properties ts run lexing
    have code := List.isEmpty_iff.mp found
    -- The brackets of the array make `in` an operator; nothing else has to be looked into.
    have line : Sheltered ts ⟨.expressionStatement ⟨.arrayExpression elements, atElements⟩, atLine⟩ :=
      .node rfl (List.forall_mem_singleton.mpr fun _ =>
        .node rfl (List.forall_mem_nil _) (List.forall_mem_nil _)) (List.forall_mem_nil _)
    have block : Sheltered ts ⟨.blockStatement [⟨.expressionStatement
        ⟨.arrayExpression elements, atElements⟩, atLine⟩], atBlock⟩ :=
      .node rfl (List.forall_mem_nil _) (List.forall_mem_singleton.mpr line)
    have target : Sheltered ts ⟨.identifier name, atName⟩ :=
      .node rfl (List.forall_mem_nil _) (List.forall_mem_nil _)
    have value : Sheltered ts ⟨.functionExpression none [] ⟨.blockStatement
        [⟨.expressionStatement ⟨.arrayExpression elements, atElements⟩, atLine⟩], atBlock⟩
        false false, atFunction⟩ :=
      .node rfl (List.forall_mem_nil _) (List.forall_mem_singleton.mpr block)
    have sheltered := Sheltered.node (t := ⟨.assignmentExpression operator ⟨.identifier name, atName⟩
      _, atValue⟩) rfl (List.forall_mem_cons.mpr ⟨fun _ => target, List.forall_mem_singleton.mpr
        fun _ => value⟩) (List.forall_mem_nil _)
    obtain ⟨parsed', loop, init, body', header⟩ :=
      parseWith_header run lexing rfl rfl code sheltered
    exact ⟨_, ts, _, _, parsed', loop, init, body', run, lexing, rfl, rfl, code, sheltered, header⟩
  · cases found

/-- Out of shelter `in` ends the clause: the same assignment alone and in a header are two different
things. -/
theorem parse_assigning_in :
    (match parse (assigning "a in b"), parse (looping (assigning "a in b")) with
    | .ok ⟨⟨.program [⟨.expressionStatement ⟨.assignmentExpression .equals _
        ⟨.functionExpression none _ _ false false, _⟩, _⟩, _⟩], _⟩, _⟩, .error _ => true
    | _, _ => false) = true := by decide +kernel

/-- The function is accepted where it stands alone, but not in the first clause of a loop. -/
theorem header_refuses_in : ∃ parsed statement e target value params body,
    parse (assigning "a in b") = .ok parsed ∧ parsed.tree.kind = .program [statement] ∧
      statement.kind = .expressionStatement e ∧ e.kind = .assignmentExpression .equals target value ∧
      value.kind = .functionExpression none params body false false ∧
      ∀ parsed', parse (looping (assigning "a in b")) ≠ .ok parsed' := by
  have found := parse_assigning_in
  split at found
  · rename_i run fails
    refine ⟨_, _, _, _, _, _, _, run, rfl, rfl, rfl, rfl, fun parsed' accepted => ?_⟩
    rw [fails] at accepted
    cases accepted
  · cases found

end Sources

end ScriptFront.Script
