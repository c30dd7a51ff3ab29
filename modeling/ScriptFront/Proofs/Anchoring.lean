import ScriptFront.Proofs.Lockstep.Copied
import ScriptFront.Proofs.RoundTrip.Parsing
import ScriptFront.Proofs.Scanned

namespace ScriptFront.Script

open ScriptFront.Parser

/-- Where the last of some tokens ends. -/
def endOf (tokens : List (Token TokenKind)) : Position :=
  (tokens.getLast?.map (·.span.stop)).getD .start

/-- A parse that started at `s` and failed at `t` complains about the token there, or about the end
of the tokens if none is left. It cannot have gone back, so the token lies behind the start. -/
structure FailsAt (s : State) (e : ParseError) (t : State) : Prop where
  reach : s.Reach t
  here : e = t.error e.text
  atToken : ∀ token, t.current = some token →
    token ∈ s.tokens ∧ e.found = some token.text ∧ e.span = some token.span
  atEnd : t.current = none → e.found = none ∧ e.span = some (.emptyAt (endOf s.tokens))

/-- Every failure is a complaint about the place where the parse really stopped. -/
def FailsInPlace {α : Type} (s : State) : Answer α → Prop
  | .ok _ _ => True
  | .error e t => FailsAt s e t

/-- Where no token is left the place is the end of the last one. -/
theorem here_of_ended {t : State} (ended : t.rest = []) : t.here = endOf t.tokens := by
  obtain ⟨before, rest, found⟩ := t
  obtain rfl : rest = [] := ended
  cases before with
  | nil => rfl
  | cons last before => simp [TokenCursor.here, TokenCursor.tokens, endOf]

/-- An error anchored at one of some tokens is anchored at one of more tokens. -/
theorem Anchored.mono {tokens tokens' : List (Token TokenKind)} {e : ParseError} {t : State}
    (anchored : Anchored tokens e t) (more : tokens ⊆ tokens') : Anchored tokens' e t where
  here := anchored.here
  number same := by
    obtain ⟨whole, member, ofKind, misread⟩ := anchored.number same
    refine ⟨whole, more member, ofKind, misread.imp_right ?_⟩
    exact fun ⟨fraction, member', found⟩ => ⟨fraction, more member', found⟩

/-- An error anchored where a parse has come to points at that very place, with the message the rule
gave. -/
theorem Anchored.failsAt {tokens : List (Token TokenKind)} {s t : State} {e : ParseError}
    (anchored : Anchored tokens e t) (reach : s.Reach t) : FailsAt s e t where
  reach := reach
  here := anchored.here
  atToken token current := by
    have member : token ∈ t.rest := List.mem_of_mem_head? (Option.mem_def.mpr current)
    refine ⟨reach.tokens ▸ List.mem_append_right _ member, ?_⟩
    rw [anchored.here, TokenCursor.error, current]
    exact ⟨rfl, rfl⟩
  atEnd current := by
    have ended : t.rest = [] := List.head?_eq_none_iff.mp current
    rw [anchored.here, TokenCursor.error, current, here_of_ended ended, reach.tokens]
    exact ⟨rfl, rfl⟩

section Rules

/-- A list of tokens is a copy of itself. -/
theorem Copy.refl (s : State) : Copy [] s.rest false [[]] s s :=
  ⟨(copied_nil rfl).place, List.Subset.refl _, rfl⟩

variable {α : Type} {p : Rule α} {s t : State} {e : ParseError}
  {pre post : State → State → Prop} {same : α → α → Prop}

/-- A rule that keeps in step with itself only fails with a complaint about the place where
it stopped. -/
theorem anchored_of_within
    (within : (copying .none s.rest false).Within False pre post same p p) (start : pre s s)
    (run : p s = .error e t) : Anchored s.rest e t := by
  have agree := within.agree start
  rw [run] at agree
  exact agree.1

/-- A rule that copies itself, step by step, with no change allowed at all, fails in place. So the
walk over the grammar that compares two parses also tells where one parse fails. -/
theorem failsInPlace_of_within
    (within : (copying .none s.rest false).Within False pre post same p p) (start : pre s s)
    (moved : Moved s (p s)) : FailsInPlace s (p s) := by
  cases run : p s with
  | ok a t => trivial
  | error e t =>
    rw [run] at moved
    exact (anchored_of_within within start run).failsAt moved

theorem statement_failsInPlace (s : State) (allowIn : Bool) :
    FailsInPlace s (Rules.whole.statement allowIn s) :=
  failsInPlace_of_within (copying_leaves.inner_whole.statement allowIn) ((Copy.refl s).mono (by simp))
    ((Rules.whole_settled _).statement allowIn s (Nat.lt_succ_self _)).2.moved

theorem expression_failsInPlace (s : State) (allowIn : Bool) :
    FailsInPlace s (Rules.whole.expression allowIn s) :=
  failsInPlace_of_within (copying_leaves.inner_whole.expression allowIn)
    ((Copy.refl s).mono (by simp))
    ((Rules.whole_settled _).expression allowIn s (Nat.lt_succ_self _)).2.moved

theorem statementList_failsInPlace (s : State) : FailsInPlace s (statementList s) := by
  have steady : Steady (s.rest.length + 1) statementList statementList :=
    trimSeparators_steady.bind fun _ => steady_items ((Rules.whole_settled _).statement true)
      (trimSeparators_steady.bind fun _ => steady_pure _)
  exact failsInPlace_of_within (Lockstep.statementList_within copying_leaves rfl)
    ((Copy.refl s).mono (by simp)) (steady s (Nat.lt_succ_self _)).2

end Rules

section Sources

variable {source : String} {ts : List (Token TokenKind)}

/-- The lexer makes a number of digits only. -/
theorem digits_of_number {token : Token TokenKind} (run : tokenize source = .ok ts)
    (member : token ∈ ts) (number : token.kind = .number) :
    ∃ digits : Digits, token.text = digits.text := by
  have isRun := (tokenize_genuine run token member).spelled.number number
  have filled := (tokenize_lexed run).measured.filled token member
  cases spelled : token.text.toList with
  | nil => exact absurd (String.toList_eq_nil_iff.mp spelled) filled
  | cons first others =>
    rw [spelled] at isRun
    refine ⟨⟨first, others, isRun⟩, ?_⟩
    rw [Digits.text, ← spelled, String.ofList_toList]

/-- Every number that the lexer makes can be read, alone and with another one behind a
period. -/
theorem not_misread (run : tokenize source = .ok ts) : ¬ Misread ts := by
  rintro ⟨whole, member, ofKind, alone | ⟨fraction, member', ofKind', both⟩⟩
  · obtain ⟨digits, text⟩ := digits_of_number run member ofKind
    have read := (Numeral.whole digits).read?_raw
    rw [Numeral.raw, ← text, alone] at read
    cases read
  · obtain ⟨digits, text⟩ := digits_of_number run member ofKind
    obtain ⟨digits', text'⟩ := digits_of_number run member' ofKind'
    have read := (Numeral.decimal digits digits').read?_raw
    rw [Numeral.raw, ← text, ← text', both] at read
    cases read

theorem endOf_of_tokenize (run : tokenize source = .ok ts) :
    endOf ts = .behind source.toList := by
  obtain ⟨spelled, measured⟩ := LexRule.tokenize_measured run
  unfold endOf
  cases last : ts.getLast? with
  | none =>
    rw [← spelled, List.getLast?_eq_none_iff.mp last]
    rfl
  | some token =>
    rw [Option.map_some, Option.getD_some, measured.stop_of_last (Option.mem_def.mpr last), spelled]

/-- A complaint about a source: it points at one of its tokens or at its end, and numbers are not
what it is about. A number that cannot be read would need digits that the lexer does not make. -/
structure PointsInto (source : String) (e : ParseError) : Prop where
  place : ∃ ts, tokenize source = .ok ts ∧
    ((∃ token ∈ ts, e.found = some token.text ∧ e.span = some token.span) ∨
      e.found = none ∧ e.span = some (.emptyAt (.behind source.toList)))
  readable : e.text ≠ Complaint.numericLiteral.message

/-- An error of a whole parse points at a token of the source or at its end. -/
theorem produce_points {options : Options} {e : ParseError} (lexing : tokenize source = .ok ts)
    (run : produce ts options = .error e) : PointsInto source e := by
  obtain ⟨t, failed⟩ : ∃ t, statementList (State.ofTokens ts options) = .error e t := by
    unfold produce at run
    rw [grammar_produce_eq] at run
    cases loop : statementList (State.ofTokens ts options) with
    | ok body t =>
      rw [bind_ok loop] at run
      cases run
    | error e' t =>
      rw [bind_error loop] at run
      cases run
      exact ⟨t, rfl⟩
  have place := statementList_failsInPlace (State.ofTokens ts options)
  have anchored := anchored_of_within (s := State.ofTokens ts options)
    (Lockstep.statementList_within copying_leaves rfl) ((Copy.refl _).mono (by simp)) failed
  rw [failed] at place
  refine ⟨⟨ts, lexing, ?_⟩, fun same => not_misread lexing (anchored.number same)⟩
  cases current : t.current with
  | some token => exact Or.inl ⟨token, place.atToken token current⟩
  | none =>
    refine Or.inr ?_
    rw [← endOf_of_tokenize lexing]
    exact place.atEnd current

end Sources

/-- A parse error, as opposed to a lexical one, comes behind tokens. -/
theorem parseWith_error_parse {source : String} {options : Options} {e : ParseError}
    (run : parseWith source options = .error (.parse e)) :
    ∃ ts, tokenize source = .ok ts ∧ produce ts options = .error e := by
  unfold parseWith statements at run
  cases lexing : tokenize source with
  | error e => simp [lexing, mapError_error, bind, Except.bind] at run
  | ok ts =>
    cases parsing : produce ts options with
    | error e' =>
      simp only [lexing, parsing, mapError_ok, mapError_error, bind, Except.bind] at run
      cases run
      exact ⟨ts, rfl, parsing⟩
    | ok program => simp [lexing, parsing, mapError_ok, bind, Except.bind, pure, Except.pure] at run

/-- Wherever a statement or an expression fails, the complaint is the one that can be made
about the token at which the parse stopped, or about the end of the tokens. So what is said
about a source always points at one of its tokens or at its end, and the lexer
makes no number that cannot be read. -/
theorem failures_anchored (s : State) (allowIn : Bool) (source : String) (options : Options) :
    (FailsInPlace s (parseStatement s) ∧ FailsInPlace s (parseExpression s) ∧
      FailsInPlace s (Rules.whole.statement allowIn s) ∧
      FailsInPlace s (Rules.whole.expression allowIn s)) ∧
      match parseWith source options with
      | .error (.parse e) => PointsInto source e
      | _ => True := by
  refine ⟨⟨statement_failsInPlace s true, expression_failsInPlace s true,
    statement_failsInPlace s allowIn, expression_failsInPlace s allowIn⟩, ?_⟩
  split
  · rename_i e run
    obtain ⟨ts, lexing, parsing⟩ := parseWith_error_parse run
    exact produce_points lexing parsing
  · trivial

/-- The end of the source is pointed at by the empty extent behind its last character. -/
example : (parseWith "f(1" {}).map (fun _ => ()) = .error (.parse
    { text := Complaint.argumentsEnd.message, span := some (.emptyAt ⟨1, 4, 3⟩) }) := by
  decide +kernel

end ScriptFront.Script
