import ScriptFront.Proofs.Grammar.Progress
import ScriptFront.Proofs.Spans.Statements

namespace ScriptFront.Script

open ScriptFront.Parser

variable {ts : List (Token TokenKind)} {i j k : Nat} {body : List Tree}

/-- Statements over the tokens from the `i`-th on, one behind the other, that leave out nothing but
separators, in front of, between and behind them. -/
structure Covers (ts : List (Token TokenKind)) (i : Nat) (body : List Tree) : Prop where
  laid : LaidAll ts i ts.length body
  whole : ∀ k token, i ≤ k → ts[k]? = some token → isSeparator token = false →
    ∃ t ∈ body, t.span.Holds token

theorem Covers.nil (ended : ts.length ≤ i) : Covers ts i [] where
  laid := trivial
  whole k token after atToken _ := by
    obtain ⟨inside, -⟩ := List.getElem?_eq_some_iff.mp atToken
    omega

/-- A statement, the separators behind it and statements that cover the rest cover all of it. -/
theorem Covers.cons {t : Tree} (first : Spanned ts i j t) (gap : Gap ts j k)
    (onward : j ≤ k) (within : k ≤ ts.length) (rest : Covers ts k body) :
    Covers ts i (t :: body) where
  laid := ⟨j, first.laid, by omega, rest.laid.mono onward (Nat.le_refl _)⟩
  whole n token after atToken other := by
    rcases Nat.lt_or_ge n j with inFirst | behind
    · exact ⟨t, List.mem_cons_self, first.tight n token after inFirst atToken other⟩
    rcases Nat.lt_or_ge n k with between | later
    · rw [gap n token behind between atToken] at other
      cases other
    · obtain ⟨holder, member, holds⟩ := rest.whole n token later atToken other
      exact ⟨holder, List.mem_cons_of_mem t member, holds⟩

/-- Between two statements only separators are skipped, however many there are. -/
theorem calls_cover (lexed : Lexed ts) {s u : State} {calls : List State}
    {answer : EStateM.Result ParseError State (List Tree)} (run : grammar.Calls s calls answer)
    (atTokens : s.tokens = ts) (ok : answer = .ok body u) : Covers ts s.position body := by
  induction run generalizing body with
  | @done s ended =>
    have total := s.position_add_left
    rw [ended, atTokens] at total
    cases ok
    exact .nil (by simpa using Nat.le_of_eq total.symm)
  | nodeFails => cases ok
  | triviaFails => cases ok
  | thenFails => cases ok
  | @next s node t u calls nodes v more found skipped rest ih =>
    cases ok
    obtain ⟨same, -, spanned⟩ :=
      parseStatement_spanned lexed s.position s node t atTokens rfl found
    obtain ⟨same', onward, gap⟩ := trimSeparators_lands t () u same rfl skipped
    have total := u.position_add_left
    rw [same'] at total
    exact (ih same' rfl).cons spanned gap onward (by omega)

/-- The statements of a program cover its tokens: only separators stand in front of, between and
behind them. -/
theorem produce_covers (lexed : Lexed ts) {options : Options} {program : Program Tree Properties}
    (run : produce ts options = .ok program) : Covers ts 0 program.body := by
  have atTokens : (State.ofTokens ts options).tokens = ts := TokenCursor.tokens_ofTokens ts _
  obtain ⟨calls, answer, loop, -, result⟩ := produce_calls (State.ofTokens ts options)
  obtain ⟨same, onward, gap⟩ := trimSeparators_lands (State.ofTokens ts options) () _ atTokens rfl rfl
  unfold produce at run
  rw [result] at run
  cases answer with
  | error e t => cases run
  | ok body t =>
    cases run
    have covers := calls_cover lexed loop same rfl
    refine ⟨covers.laid.mono (Nat.zero_le _) (Nat.le_refl _), fun k token _ atToken other => ?_⟩
    rcases Nat.lt_or_ge k (State.ofTokens ts options |>.skipWhile isSeparator).position with
      skipped | later
    · rw [gap k token (Nat.zero_le k) skipped atToken] at other
      cases other
    · exact covers.whole k token later atToken other

section Program

variable (lexed : Lexed ts) {low high : Nat} {first last : Tree}
include lexed

/-- The first of some trees in a row begins before all others. -/
theorem LaidAll.first_le (laid : LaidAll ts low high body) (atFirst : body.head? = some first) :
    ∀ t ∈ body, first.span.start.offset ≤ t.span.start.offset := by
  obtain ⟨others, rfl⟩ := List.head?_eq_some_iff.mp atFirst
  have order := (List.pairwise_cons.mp (laid.pairwise lexed.measured)).1
  have filled := ((laid.mem List.mem_cons_self).between.offsets lexed.measured).2.1
  intro t member
  rcases List.mem_cons.mp member with rfl | later
  · exact Nat.le_refl _
  · have behind := order t later
    omega

theorem LaidAll.le_last (laid : LaidAll ts low high body) (atLast : body.getLast? = some last) :
    ∀ t ∈ body, t = last ∨ t.span.stop.offset < last.span.stop.offset := by
  obtain ⟨others, rfl⟩ := List.getLast?_eq_some_iff.mp atLast
  have order := (List.pairwise_append.mp (laid.pairwise lexed.measured)).2.2
  have filled := ((laid.mem (by simp : last ∈ others ++ [last])).between.offsets
    lexed.measured).2.1
  intro t member
  rcases List.mem_append.mp member with earlier | here
  · have before := order t earlier last (List.mem_singleton_self last)
    exact Or.inr (by omega)
  · exact Or.inl (List.mem_singleton.mp here)

/-- The node for the whole script reaches from its first statement to its last. -/
theorem programNode_placed (covers : Covers ts i body) (filled : body ≠ []) :
    Everywhere (Placed ts) (programNode body) := by
  obtain ⟨first, atFirst⟩ := Option.isSome_iff_exists.mp (List.isSome_head?.mpr filled)
  obtain ⟨last, atLast⟩ := Option.isSome_iff_exists.mp (List.getLast?_isSome.mpr filled)
  have isFirst : first ∈ body := List.mem_of_head? atFirst
  have isLast : last ∈ body := List.mem_of_getLast? atLast
  have low := covers.laid.first_le lexed atFirst
  have high := covers.laid.le_last lexed atLast
  have span : (programNode body).span = ⟨first.span.start, last.span.stop⟩ := by
    simp only [programNode, atFirst, atLast]
    have order := low last isLast
    unfold Span.cover
    rw [if_neg (by omega)]
    rcases high first isFirst with rfl | before
    · rw [ite_self]
    · rw [if_pos before]
  have placed (t : Tree) (member : t ∈ body) : Everywhere (Placed ts) t :=
    (covers.laid.mem member).placed
  have children : (programNode body).kind.children = body := List.append_nil body
  refine .node ⟨?_, ?_, ?_, ?_, ?_⟩ (by rw [children]; exact placed)
  · rw [span]
    exact (placed first isFirst).here.starts
  · rw [span]
    exact (placed last isLast).here.stops
  · rw [span]
    have order := low last isLast
    have some := (placed last isLast).here.filled
    dsimp only
    omega
  · rw [children, span]
    intro child member
    refine ⟨low child member, ?_⟩
    rcases high child member with rfl | before
    · exact Nat.le_refl _
    · exact Nat.le_of_lt before
  · intro name nodes isPart
    obtain ⟨-, rfl⟩ : name = "body" ∧ nodes = body := by
      simpa [programNode, Construct.view] using isPart
    exact covers.laid.pairwise lexed.measured

end Program

/-- How the nodes of a script stand in its source: each is in its place among the
tokens, and a character outside all statements belongs to layout or to a semicolon. -/
structure InPlace (source : String) (tree : Tree) (ts : List (Token TokenKind))
    (body : List Tree) : Prop where
  tokens : tokenize source = .ok ts
  statements : tree.kind = .program body
  placed : ∀ entry ∈ preorder 0 tree, entry.2.kind ≠ .program [] → Placed ts entry.2
  covered : ∀ offset < source.length, (∃ statement ∈ body, statement.span.Includes offset) ∨
    ∃ token ∈ ts, (token.isSpace = true ∨ token.kind = .semicolon) ∧ token.span.Includes offset

/-- The characters of a token that no statement holds are characters of a separator. -/
theorem Covers.characters (measured : Measured ts) (covers : Covers ts 0 body) {offset : Nat}
    (inside : offset < (Token.spelled ts).length) :
    (∃ statement ∈ body, statement.span.Includes offset) ∨
      ∃ token ∈ ts, isSeparator token = true ∧ token.span.Includes offset := by
  have whole : (Token.spelled ts).length = edge ts ts.length := by rw [edge, List.take_length]
  obtain ⟨k, isIndex, after, before⟩ := edge_find ts.length (whole ▸ inside)
  have atToken := List.getElem?_eq_getElem isIndex
  obtain ⟨start, stop⟩ := measured.span_at atToken
  cases separator : isSeparator ts[k] with
  | true =>
    exact Or.inr ⟨ts[k], List.getElem_mem isIndex, separator, by rw [start]; exact after,
      by rw [stop]; exact before⟩
  | false =>
    obtain ⟨statement, member, holds⟩ := covers.whole k ts[k] (Nat.zero_le k) atToken separator
    obtain ⟨lower, upper⟩ := holds
    exact Or.inl ⟨statement, member, by omega, by omega⟩

/-- Every node of a parsed script is in its place: it reaches from the start of a token
to the end of one, neither of them layout, holds what is inside it, and lists its parts
in order; and between the statements nothing else than separators is left out. -/
theorem parseWith_inPlace {source : String} {options : Options} {parsed : Parsed}
    (run : parseWith source options = .ok parsed) :
    ∃ ts body, InPlace source parsed.tree ts body := by
  obtain ⟨ts, program, lexing, parsing, rfl⟩ := parseWith_eq_ok_iff.mp run
  have lexed := tokenize_lexed lexing
  have covers := produce_covers lexed parsing
  have spelled := (LexRule.tokenize_measured lexing).1
  refine ⟨ts, program.body, lexing, rfl, ?_, ?_⟩
  · intro entry member filled
    by_cases empty : program.body = []
    · -- The walk over the node of an empty script meets only that node.
      rw [empty, preorder] at member
      rcases List.mem_cons.mp member with rfl | inside
      · exact absurd rfl filled
      · cases inside
    · exact (programNode_placed lexed covers empty).preorder 0 entry member
  · intro offset inside
    have within : offset < (Token.spelled ts).length := by
      rw [spelled, String.length_toList]
      exact inside
    rcases covers.characters lexed.measured within with held | ⟨token, member, separator, included⟩
    · exact Or.inl held
    · exact Or.inr ⟨token, member, by simpa [isSeparator] using separator, included⟩

/-- The theorem at a source with two statements and a lone semicolon between them. -/
theorem parseWith_inPlace_statements :
    ∃ parsed, parseWith "if (a) b; ; f(c)" {} = .ok parsed ∧
      ∃ ts body, InPlace "if (a) b; ; f(c)" parsed.tree ts body := by
  have accepted : (parseWith "if (a) b; ; f(c)" {}).isOk = true := by decide +kernel
  cases run : parseWith "if (a) b; ; f(c)" {} with
  | error e =>
    rw [run] at accepted
    cases accepted
  | ok parsed => exact ⟨parsed, rfl, parseWith_inPlace run⟩

end ScriptFront.Script
