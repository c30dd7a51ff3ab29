import ScriptFront.Proofs.Derivation.Whole
import ScriptFront.Proofs.Lockstep.Basic
import ScriptFront.Proofs.Parting.Statements
import ScriptFront.Proofs.Scanned

namespace ScriptFront.Script

open ScriptFront.Parser

variable {source : String} {ts : List (Token TokenKind)} {a b : Tree} {low high : Nat}

/-- The characters behind the first node and before the second one. -/
def charsBetween (source : String) (a b : Tree) : List Char :=
  (source.toList.take b.span.start.offset).drop a.span.stop.offset

/-- What a source has between a statement and the one behind it. There are only layout and
semicolons. One of them is a semicolon if the first statement ends in an expression and the second
one begins with a token that goes on with every expression, and also if the first one ends where a
value is missing; a line break is not enough there. -/
structure Apart (source : String) (ts : List (Token TokenKind)) (a b : Tree) : Prop where
  ordered : a.span.stop.offset ≤ b.span.start.offset
  blank : ∀ c ∈ charsBetween source a b, c ∈ ['\n', '\r', '\t', ' ', ';']
  joining : a.kind.endsOpen = true → ∀ token ∈ ts, token.span.start = b.span.start →
    token.kind ∈ joiningKinds false → ';' ∈ charsBetween source a b
  bare : a.kind.endsBare = true → ';' ∈ charsBetween source a b

/-- The kinds of separators, each of which is one character. -/
theorem separator_entry : ∀ kind ∈ blankKinds,
    ∃ entry ∈ punctuators, entry.2.kind = kind ∧
      entry.1.toList ∈ ['\n', '\r', '\t', ' ', ';'].map (fun c => [c]) := by
  decide

/-- A separator of a source is a single character, so that the characters between two statements can
be told by the tokens. -/
theorem Genuine.separator {token : Token TokenKind} (genuine : Genuine token)
    (separator : isSeparator token = true) :
    ∃ c ∈ ['\n', '\r', '\t', ' ', ';'], token.text.toList = [c] := by
  obtain ⟨entry, listed, same, single⟩ :=
    separator_entry token.kind (kind_of_separator genuine.marked separator)
  obtain ⟨c, member, spelled⟩ := List.mem_map.mp single
  exact ⟨c, member, by rw [genuine.text_eq entry listed same.symm, spelled]⟩

section Text

variable (measured : Measured ts) (behind : a.span.stop.offset = edge ts low)
  (before : b.span.start.offset = edge ts high)

include measured behind before in
/-- The tokens between two nodes. -/
theorem mem_window_iff {token : Token TokenKind} :
    token ∈ window ts low high ↔ token ∈ ts ∧ Amid token a b := by
  constructor
  · intro member
    obtain ⟨n, atToken⟩ := List.getElem?_of_mem member
    rw [window, List.getElem?_drop, List.getElem?_take] at atToken
    split at atToken
    · rename_i inside
      obtain ⟨start, stop⟩ := measured.span_at atToken
      have lower := edge_mono ts (Nat.le_add_right low n)
      have upper := edge_mono ts (by omega : low + n + 1 ≤ high)
      exact ⟨List.mem_of_getElem? atToken, by omega, by omega⟩
    · cases atToken
  · rintro ⟨member, after, upTo⟩
    obtain ⟨k, atToken⟩ := List.getElem?_of_mem member
    obtain ⟨start, stop⟩ := measured.span_at atToken
    have filled := measured.edge_lt atToken
    have lower : low ≤ k := by
      refine Nat.le_of_not_lt fun less => ?_
      have order := edge_mono ts (by omega : k + 1 ≤ low)
      omega
    have upper : k < high := by
      refine Nat.lt_of_not_le fun more => ?_
      have order := edge_mono ts more
      omega
    exact List.mem_of_getElem? ((getElem?_window ts lower upper).trans atToken)

variable (spelled : Token.spelled ts = source.toList)
include spelled

include behind before in
/-- The characters between two nodes are those of the tokens between them. -/
theorem charsBetween_eq (order : low ≤ high) :
    charsBetween source a b = Token.spelled (window ts low high) := by
  have whole : source.toList = Token.spelled (ts.take high) ++ Token.spelled (ts.drop high) := by
    rw [← Token.spelled_append, List.take_append_drop, spelled]
  have front : ts.take high = ts.take low ++ window ts low high := by
    conv_lhs => rw [← List.take_append_drop low (ts.take high), List.take_take, Nat.min_eq_left order]
    rfl
  have upTo : edge ts high = (Token.spelled (ts.take high)).length := rfl
  rw [charsBetween, behind, before, whole, upTo, List.take_left, front, Token.spelled_append, edge,
    List.drop_left]

include measured

/-- What keeps two statements apart in terms of tokens, in terms of the characters of the source. -/
theorem Parted.apart (genuine : ∀ token ∈ ts, Genuine token) (parted : Parted ts a b) :
    Apart source ts a b := by
  obtain ⟨low, high, order, behind, before⟩ := parted.places
  have between (c : Char) : c ∈ charsBetween source a b ↔
      ∃ token, (token ∈ ts ∧ Amid token a b) ∧ c ∈ token.text.toList := by
    rw [charsBetween_eq behind before spelled order, Token.spelled, List.mem_flatMap]
    simp only [mem_window_iff measured behind before]
  have semicolon (stands : ∃ token ∈ ts, Amid token a b ∧ token.kind = .semicolon) :
      ';' ∈ charsBetween source a b := by
    obtain ⟨token, member, amid, ofKind⟩ := stands
    have text := (genuine token member).text_eq (";", ⟨.semicolon, none⟩) (by decide) ofKind
    exact (between ';').mpr ⟨token, ⟨member, amid⟩, by rw [text]; decide⟩
  refine ⟨by rw [behind, before]; exact edge_mono ts order, fun c inside => ?_, ?_,
    fun isBare => semicolon (parted.bare isBare)⟩
  · obtain ⟨token, ⟨member, amid⟩, inText⟩ := (between c).mp inside
    obtain ⟨d, listed, text⟩ := (genuine token member).separator (parted.separators token member amid)
    rw [text, List.mem_singleton] at inText
    exact inText ▸ listed
  · exact fun looks token member starts joins =>
      semicolon (parted.joining looks token member starts joins)

end Text

section Program

variable (lexed : Lexed ts)
include lexed

theorem parseStatement_keeps (i : Nat) :
    Lands ts i parseStatement fun t j => Bounded ts i j t ∧ Neat ts t := by
  intro s t u atTokens atPlace run
  have keeps := Rules.keeps_unfolded lexed (s.rest.length + 1)
  exact ((keeps.bounded true i).and (keeps.statement true i)) s t u atTokens atPlace run

/-- In an accepted list of tokens all lists of statements, at whatever depth, are kept apart. -/
theorem produce_neat {options : Options} {program : Program Tree Properties}
    (run : produce ts options = .ok program) : Neat ts (programNode program.body) := by
  have listed : Finds ts statementList fun body =>
      body.IsChain (Parted ts) ∧ ∀ t ∈ body, Neat ts t := by
    refine .skip (fun _ => trimSeparators_steady) fun _ i => ?_
    have inside : Finds ts (items (fun _ => false) parseStatement do trimSeparators; return true)
        fun body => ∀ t ∈ body, Neat ts t := by
      refine .items (fun i => ?_) fun _ => trimSeparators_steady.bind fun _ => steady_pure _
      exact (parseStatement_keeps lexed i).mono fun _ _ _ => And.right
    have bounded (i : Nat) : Lands ts i parseStatement fun t j => Bounded ts i j t :=
      (parseStatement_keeps lexed i).mono fun _ _ _ => And.left
    apply ((items_parted lexed.measured bounded i).and (inside i)).mono
    exact fun _ _ _ ⟨⟨chain, _⟩, neat⟩ => ⟨chain, neat⟩
  unfold produce at run
  cases answer : grammar.produce (State.ofTokens ts options) with
  | error e t =>
    rw [answer] at run
    cases run
  | ok found t =>
    rw [answer] at run
    cases run
    obtain ⟨-, -, chain, neat⟩ :=
      listed 0 _ _ _ (TokenCursor.tokens_ofTokens ts _) rfl (statementList_of_produce answer)
    exact everywhere_programNode.mpr ⟨chain, neat⟩

end Program

/-- In a parsed script all lists of statements, in whatever construct, have only layout and
semicolons between two neighbours, and a semicolon in the two cases that `Apart` names. -/
theorem parseWith_apart {options : Options} {parsed : Parsed}
    (run : parseWith source options = .ok parsed) :
    ∃ ts, tokenize source = .ok ts ∧
      ∀ entry ∈ preorder 0 parsed.tree, entry.2.kind.statements.IsChain (Apart source ts) := by
  obtain ⟨ts, program, lexing, parsing, rfl⟩ := parseWith_eq_ok_iff.mp run
  have lexed := tokenize_lexed lexing
  have spelled := (LexRule.tokenize_measured lexing).1
  have neat := produce_neat lexed parsing
  refine ⟨ts, lexing, fun entry member => (neat.preorder 0 entry member).imp ?_⟩
  exact fun a b parted => parted.apart lexed.measured spelled (tokenize_genuine lexing)

/-- The theorem at a source with a declaration without a value, an operator behind a semicolon and a
line break, all inside a block. -/
theorem parseWith_apart_nested : ∃ parsed, parseWith "\x7b var a; -b\nc \x7d" {} = .ok parsed ∧
    ∃ ts, tokenize "\x7b var a; -b\nc \x7d" = .ok ts ∧ ∀ entry ∈ preorder 0 parsed.tree,
      entry.2.kind.statements.IsChain (Apart "\x7b var a; -b\nc \x7d" ts) := by
  have accepted : (parseWith "\x7b var a; -b\nc \x7d" {}).isOk = true := by decide +kernel
  cases run : parseWith "\x7b var a; -b\nc \x7d" {} with
  | error e =>
    rw [run] at accepted
    cases accepted
  | ok parsed => exact ⟨parsed, rfl, parseWith_apart run⟩

/-- Two names with a space between them are two statements, with no separator asked for. -/
theorem parse_names : (match parse "a b" with
    | .ok ⟨⟨.program [⟨.expressionStatement x, first⟩, ⟨.expressionStatement y, second⟩], _⟩, _⟩ =>
      charsBetween "a b" ⟨.expressionStatement x, first⟩ ⟨.expressionStatement y, second⟩ == [' ']
    | _ => false) = true := by decide +kernel

/-- Neither a semicolon nor a line break stands between these two statements. -/
theorem parse_unseparated : ∃ parsed a b x y, parse "a b" = .ok parsed ∧
    parsed.tree.kind = .program [a, b] ∧ a.kind = .expressionStatement x ∧
    b.kind = .expressionStatement y ∧
    ';' ∉ charsBetween "a b" a b ∧ '\n' ∉ charsBetween "a b" a b := by
  have found := parse_names
  split at found
  · rename_i x first y second span properties run
    have chars := beq_iff_eq.mp found
    exact ⟨_, _, _, x, y, run, rfl, rfl, rfl, by rw [chars]; decide, by rw [chars]; decide⟩
  · cases found

end ScriptFront.Script
