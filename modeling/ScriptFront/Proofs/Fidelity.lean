import ScriptFront.Proofs.Scanned
import ScriptFront.Proofs.WellFormed

namespace ScriptFront.Script

variable {source : String} {ts before tokens after : List (Token TokenKind)}

/-- The text of the source that a node stands for. -/
def textUnder (source : String) (t : Tree) : Option String :=
  (Cursor.ofString source).slice? t.span.start.offset t.span.stop.offset

/-- A node without anything inside says what its text says. -/
def Faithful (source : String) (t : Tree) : Prop :=
  match t.kind with
  | .identifier symbol => textUnder source t = some symbol
  | .privateIdentifier symbol => textUnder source t = some ("#" ++ symbol)
  | .stringLiteral value raw => textUnder source t = some raw ∧
    ∃ quote body, (quote = '"' ∨ quote = '\'') ∧ raw.toList = quote :: (body ++ [quote]) ∧
      value = cook (String.ofList body)
  | .numericLiteral _ raw float => textUnder source t = some raw ∧
    (float = true ↔ '.' ∈ raw.toList)
  | .regExpLiteral pattern flags raw => textUnder source t = some raw ∧
    raw = "/" ++ pattern ++ "/" ++ flags.getD ""
  | .templateElement raw cooked _ => textUnder source t = some raw ∧ cooked = cook raw
  | .blockComment content => textUnder source t = some ("/*" ++ content ++ "*/")
  | .lineComment content => ∃ returns, textUnder source t =
    some ("//" ++ content ++ String.ofList (List.replicate returns '\r'))
  | _ => True

section Slices

/-- The tokens in the middle of a source are the text between their ends. -/
theorem slice_spelled (spelled : Token.spelled (before ++ tokens ++ after) = source.toList) :
    (Cursor.ofString source).slice? (Token.spelled before).length
      (Token.spelled (before ++ tokens)).length = some (String.ofList (Token.spelled tokens)) := by
  have size : source.toList.length = (Token.spelled before).length +
      (Token.spelled tokens).length + (Token.spelled after).length := by
    rw [← spelled, Token.spelled_append, Token.spelled_append, List.length_append,
      List.length_append]
  unfold Cursor.slice? Cursor.ofString
  simp only [Token.spelled_append, List.length_append]
  rw [size, Nat.min_eq_left (by omega), Nat.min_eq_left (by omega), if_pos (by omega), ← spelled]
  simp [List.take_append, List.take_of_length_le]

/-- Tokens with no layout at either end. -/
def Closed (tokens : List (Token TokenKind)) : Prop :=
  ∃ first last others init, tokens = first :: others ∧ first.isSpace = false ∧
    tokens = init ++ [last] ∧ last.isSpace = false

/-- The offsets of an extent count the characters in front of its tokens and those up to their end,
so a slice of the source by it is the text of its tokens. -/
theorem extent_offsets (measured : Measured (before ++ tokens ++ after)) (closed : Closed tokens)
    {span : Span} (extent : Extent tokens span) :
    span.start.offset = (Token.spelled before).length ∧
      span.stop.offset = (Token.spelled (before ++ tokens)).length := by
  obtain ⟨first, last, others, init, isFirst, solidFirst, isLast, solidLast⟩ := closed
  obtain rfl := extent first last (by simp [isFirst, solidFirst]) (by simp [isLast, solidLast])
  have start : first.span.start.offset = (Token.spelled before).length ∧
      first.span.stop.offset ≤ (Token.spelled (before ++ tokens)).length := by
    rw [measured.placed before first (others ++ after) (by simp [isFirst])]
    simp [Position.behind, isFirst]
  have stop : last.span.stop.offset = (Token.spelled (before ++ tokens)).length ∧
      (Token.spelled before).length ≤ last.span.start.offset := by
    rw [measured.placed (before ++ init) last after (by simp [isLast])]
    simp [Position.behind, isLast]
  unfold Span.cover
  refine ⟨?_, ?_⟩
  · rw [if_neg (by omega)]
    exact start.1
  · dsimp only
    split <;> omega

end Slices

section Leaves

theorem NameToken.solid {token : Token TokenKind} (isName : NameToken token)
    (genuine : Genuine token) : token.isSpace = false := by
  rcases isName with ofKind | word
  · exact genuine.solid ofKind (by decide)
  · have tagged : token.tag = some .word := beq_iff_eq.mp word
    simp [Token.isSpace, Token.hasTag, tagged]

variable (genuine : ∀ token ∈ tokens, Genuine token)
include genuine

/-- The tokens of a leaf begin and end with tokens that are no layout. -/
theorem Leaf.closed {region : Region} {c : Construct} (leaf : Leaf region tokens c) :
    Closed tokens := by
  have alone {token : Token TokenKind} (solid : token.isSpace = false) : Closed [token] :=
    ⟨token, token, [], [], rfl, solid, rfl, solid⟩
  cases leaf with
  | name isName => exact alone (isName.solid (genuine _ (by simp)))
  | string ofKind => exact alone ((genuine _ (by simp)).solid ofKind (by decide))
  | whole ofKind _ => exact alone ((genuine _ (by simp)).solid ofKind (by decide))
  | segment ofKind => exact alone ((genuine _ (by simp)).solid ofKind (by decide))
  | @privateName hash token ofHash isName =>
    exact ⟨hash, token, [token], [hash], rfl, (genuine _ (by simp)).solid ofHash (by decide), rfl,
      isName.solid (genuine _ (by simp))⟩
  | @decimal whole period fraction _ ofWhole _ ofFraction _ =>
    exact ⟨whole, fraction, [period, fraction], [whole, period], rfl,
      (genuine _ (by simp)).solid ofWhole (by decide), rfl,
      (genuine _ (by simp)).solid ofFraction (by decide)⟩
  | @blockComment opener closer content ofOpener _ ofCloser =>
    exact ⟨opener, closer, _, opener :: content.toList, rfl,
      (genuine _ (by simp)).solid ofOpener (by decide), rfl,
      (genuine _ (by simp)).solid ofCloser (by decide)⟩
  | @lineComment opener content ofOpener ofContent =>
    have first := (genuine _ (by simp)).solid ofOpener (by decide)
    cases content with
    | none => exact alone first
    | some text =>
      exact ⟨opener, text, [text], [opener], rfl, first, rfl,
        (genuine _ (by simp)).solid (ofContent text rfl) (by decide)⟩
  | @regExp opener body closer _ flags ofOpener closing ofFlags =>
    have first := (genuine _ (by simp)).solid ofOpener (by decide)
    cases flags with
    | none =>
      refine ⟨opener, closer, _, opener :: body, rfl, first, rfl, ?_⟩
      rcases closing with ⟨ofCloser, -⟩ | ⟨ofCloser, -⟩
      · exact (genuine _ (by simp)).solid ofCloser (by decide)
      · exact (genuine _ (by simp)).solid ofCloser (by decide)
    | some word =>
      exact ⟨opener, word, _, opener :: (body ++ [closer]), rfl, first, by simp,
        (genuine _ (by simp)).solid (ofFlags word rfl) (by decide)⟩

omit genuine in
/-- A line is its text with some carriage returns behind it. -/
theorem withoutReturns_append (line : String) : ∃ returns,
    line = withoutReturns line ++ String.ofList (List.replicate returns '\r') := by
  obtain ⟨returns, atEnd⟩ : ∃ returns,
      line.toList.reverse.takeWhile (· = '\r') = List.replicate returns '\r' :=
    ⟨_, List.eq_replicate_of_mem fun c member => by
      simpa using List.all_eq_true.mp List.all_takeWhile c member⟩
  refine ⟨returns, String.toList_inj.mp ?_⟩
  rw [withoutReturns, String.toList_append, String.toList_ofList, String.toList_ofList,
    ← List.reverse_replicate, ← atEnd, ← List.reverse_append, List.takeWhile_append_dropWhile,
    List.reverse_reverse]

/-- What a leaf tells is what its tokens spell. -/
theorem Leaf.faithful {region : Region} {c : Construct} (leaf : Leaf region tokens c) {t : Tree}
    (same : t.kind = c)
    (slice : textUnder source t = some (String.ofList (Token.spelled tokens))) :
    Faithful source t := by
  have spells {text : String} (spelled : Token.spelled tokens = text.toList) :
      some (String.ofList (Token.spelled tokens)) = some text := by
    rw [spelled, String.ofList_toList]
  have text (entry : String × Lexeme TokenKind) (listed : entry ∈ punctuators)
      {token : Token TokenKind} (ofKind : token.kind = entry.2.kind) (member : token ∈ tokens) :
      token.text = entry.1 := (genuine token member).text_eq entry listed ofKind
  unfold Faithful
  rw [same, slice]
  cases leaf with
  | name => simp
  | segment => simp
  | privateName ofHash _ =>
    have hash := text ("#", ⟨.hash, none⟩) (by decide) ofHash (by simp)
    simp [hash]
  | @string token ofKind =>
    obtain ⟨quote, body, isQuote, spelled⟩ := (genuine token (by simp)).spelled.string ofKind
    refine ⟨by simp, quote, body, isQuote, spelled, ?_⟩
    simp [unquoted, spelled]
  | @whole token _ ofKind _ =>
    have digits := (genuine token (by simp)).spelled.number ofKind
    refine ⟨by simp, nofun, fun period => ?_⟩
    cases digits '.' period
  | decimal ofWhole ofPeriod ofFraction _ =>
    have period := text (".", ⟨.period, none⟩) (by decide) ofPeriod (by simp)
    refine ⟨by simp [period, String.ofList_append, String.append_assoc], by simp⟩
  | @regExp opener body closer pattern flags ofOpener closing _ =>
    have slash := text ("/", ⟨.slash, some .operator⟩) (by decide) ofOpener (by simp)
    have behind : Token.spelled (body ++ [closer]) = pattern.toList ++ ['/'] := by
      rcases closing with ⟨ofCloser, rfl⟩ | ⟨ofCloser, rfl⟩
      · have slash := text ("/", ⟨.slash, some .operator⟩) (by decide) ofCloser (by simp)
        simp [slash]
      · have closing := text ("*/", ⟨.asteriskSlash, none⟩) (by decide) ofCloser (by simp)
        simp [closing]
    have split : opener :: (body ++ closer :: flags.toList) =
        [opener] ++ (body ++ [closer]) ++ flags.toList := by simp
    refine ⟨spells ?_, rfl⟩
    rw [split, Token.spelled_append, Token.spelled_append, behind]
    cases flags <;> simp [slash]
  | @blockComment opener closer content ofOpener _ ofCloser =>
    have opening := text ("/*", ⟨.slashAsterisk, none⟩) (by decide) ofOpener (by simp)
    have closing := text ("*/", ⟨.asteriskSlash, none⟩) (by decide) ofCloser (by simp)
    apply spells
    cases content <;> simp [opening, closing]
  | @lineComment opener content ofOpener _ =>
    have opening := text ("//", ⟨.doubleSlash, none⟩) (by decide) ofOpener (by simp)
    cases content with
    | none => exact ⟨0, by simp [opening]⟩
    | some line =>
      obtain ⟨returns, ended⟩ := withoutReturns_append line.text
      refine ⟨returns, spells ?_⟩
      have lineText := congrArg String.toList ended
      simpa [opening] using lineText

end Leaves

/-- Every leaf of a parsed script is a piece of its source: the text under the node is the
spelling that it carries, and what the spelling stands for is read off it alone. -/
theorem parseWith_faithful {options : Options} {parsed : Parsed}
    (run : parseWith source options = .ok parsed) :
    ∀ entry ∈ preorder 0 parsed.tree, Faithful source entry.2 := by
  obtain ⟨ts, marks, body, lexing, derives, same⟩ := parseWith_derives run
  obtain ⟨spelled, measured⟩ := LexRule.tokenize_measured lexing
  have genuine := tokenize_genuine lexing
  have everywhere := derives.everywhere (P := Faithful source) (List.infix_refl ts)
    (fun {region tokens kind span} within leaf extent => ?_) fun {kind span} _ composite => ?_
  · rw [same]
    exact (everywhere_programNode.mpr ⟨trivial, everywhere⟩).preorder 0
  · obtain ⟨before, after, rfl⟩ := within
    have here : ∀ token ∈ tokens, Genuine token := fun token member =>
      genuine token (by simp [member])
    obtain ⟨start, stop⟩ := extent_offsets measured (leaf.closed here) extent
    refine leaf.faithful here rfl ?_
    rw [textUnder, start, stop]
    exact slice_spelled spelled
  · cases kind <;> trivial

theorem parseWith_faithful_leaves : ∃ parsed,
    parseWith "#a + /b*/g + \"c\" + 1.5; // d\r\n\x60e\x60" {} = .ok parsed ∧
      ∀ entry ∈ preorder 0 parsed.tree,
        Faithful "#a + /b*/g + \"c\" + 1.5; // d\r\n\x60e\x60" entry.2 := by
  have accepted :
      (parseWith "#a + /b*/g + \"c\" + 1.5; // d\r\n\x60e\x60" {}).isOk = true := by
    decide +kernel
  cases run : parseWith "#a + /b*/g + \"c\" + 1.5; // d\r\n\x60e\x60" {} with
  | error e =>
    rw [run] at accepted
    cases accepted
  | ok parsed => exact ⟨parsed, rfl, parseWith_faithful run⟩

end ScriptFront.Script
