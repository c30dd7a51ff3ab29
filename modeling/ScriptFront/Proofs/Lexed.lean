import ScriptFront.Proofs.Guarded
import ScriptFront.Proofs.Spans.Extent

namespace ScriptFront.Script

/-- The kinds of tokens that are mere layout. -/
def layoutKinds : List TokenKind := [.lineBreak, .carriageReturn, .tab, .space]

/-- A lexeme carries the tag of layout exactly when its kind is one of layout. The parser skips by
the tag and distinguishes by the kind, so the two have to go together. -/
def Lexeme.Marked (lexeme : Lexeme TokenKind) : Prop :=
  lexeme.tag = some .whiteSpace ↔ lexeme.kind ∈ layoutKinds

/-- What the scanner finds carries the right tag, when it is a lexeme at all. -/
def Scan.Marked : Scan → Prop
  | .lexeme found _ => Lexeme.Marked found
  | _ => True

/-- The kinds of lexemes that have no tag and no fixed spelling, or are found in templates. -/
def plainKinds : List TokenKind :=
  [.string, .openTemplate, .number, .unknown, .backQuote, .templateText, .commentText]

/-- The lexemes that there are: those of the plain kinds, words, and the entries of the table of
punctuators. What is to be known of all of them is checked on these three. -/
inductive Lexeme.Listed : Lexeme TokenKind → Prop
  | plain {kind} : kind ∈ plainKinds → Listed ⟨kind, none⟩
  | word (text) : Listed ⟨wordKind text, some .word⟩
  | punctuator {entry} : entry ∈ punctuators → Listed entry.2

/-- What the scanner finds is one of the lexemes that there are, when it is a lexeme at all. -/
def Scan.Listed : Scan → Prop
  | .lexeme found _ => Lexeme.Listed found
  | _ => True

theorem Scan.Listed.later {scan : Scan} (listed : scan.Listed) (n : Nat) :
    (scan.later n).Listed := by
  cases scan with
  | lexeme lexeme length => exact listed
  | unterminated => trivial
  | escapeAtEnd before => trivial

theorem Scan.listed_plain {kind : TokenKind} (plain : kind ∈ plainKinds) (length : Nat) :
    (Scan.plain kind length).Listed :=
  .plain plain

theorem scanString_listed (quote : Char) (cs : List Char) : (scanString quote cs).Listed := by
  fun_induction scanString quote cs with
  | case1 => trivial
  | case2 => exact Scan.listed_plain (by decide) 1
  | case3 => trivial
  | case4 _ _ _ ih => exact ih.later 2
  | case5 _ _ _ _ ih => exact ih.later 1

theorem scanPunctuator_listed (cs : List Char) : (scanPunctuator cs).Listed := by
  unfold scanPunctuator
  split
  · rename_i found
    exact .punctuator (List.mem_of_find?_eq_some found)
  · exact Scan.listed_plain (by decide) 1

/-- In code a token is white space, a word, a number, a string or an entry of the table of
punctuators. -/
theorem scanCode_listed (cs : List Char) : (scanCode cs).Listed := by
  cases cs with
  | nil => exact Scan.listed_plain (by decide) 0
  | cons c cs =>
    rw [scanCode]
    split
    · exact (scanString_listed c cs).later 1
    split
    · exact Scan.listed_plain (by decide) 2
    split
    · exact .word _
    split
    · exact Scan.listed_plain (by decide) _
    · exact scanPunctuator_listed (c :: cs)

/-- In a template a token is the back quote, the opening of an interpolation or text. -/
theorem scanTemplate_listed (cs : List Char) : (scanTemplate cs).Listed := by
  unfold scanTemplate
  split
  · exact Scan.listed_plain (by decide) 1
  split
  · exact Scan.listed_plain (by decide) 2
  · exact Scan.listed_plain (by decide) _

/-- In all the modes the kind and the tag of a token are one of the listed pairs, so a property of
kinds and tags needs to be looked up in the lists only. -/
theorem Modes.scan_listed (modes : Modes) (cs : List Char) : (modes.scan cs).Listed :=
  Modes.scan_induct (fun _ _ _ => Scan.listed_plain (by decide) _)
    (fun _ _ => scanTemplate_listed cs) fun _ => scanCode_listed cs

/-- No word is layout. -/
theorem wordKind_solid (word : String) : wordKind word ∉ layoutKinds :=
  wordKind_induct (· ∉ layoutKinds) (by decide) (by decide) word

/-- The pairs of the lists have the mark of layout exactly where their kind is a layout kind. -/
theorem Lexeme.Listed.marked {lexeme : Lexeme TokenKind} (listed : Lexeme.Listed lexeme) :
    Lexeme.Marked lexeme := by
  cases listed with
  | plain plain =>
    have solid : ∀ kind ∈ plainKinds, kind ∉ layoutKinds := by decide
    exact ⟨nofun, fun layout => absurd layout (solid _ plain)⟩
  | word text => exact ⟨nofun, fun layout => absurd layout (wordKind_solid text)⟩
  | punctuator member =>
    have all : ∀ entry ∈ punctuators, Lexeme.Marked entry.2 := by
      unfold Lexeme.Marked
      decide
    exact all _ member

theorem Modes.scan_marked (modes : Modes) (cs : List Char) : (modes.scan cs).Marked := by
  have listed := modes.scan_listed cs
  cases found : modes.scan cs with
  | lexeme lexeme length =>
    rw [found] at listed
    exact Lexeme.Listed.marked listed
  | _ => trivial

/-- Tokens as the lexer hands them out: each stands where its text does, and the tag of layout is on
the layout and on nothing else. Extents of nodes are proved from this and from nothing else about
the lexer. -/
structure Lexed (ts : List (Token TokenKind)) : Prop where
  measured : Measured ts
  marked : ∀ token ∈ ts, Lexeme.Marked token.toLexeme

/-- The invariant of a run: each token so far carries the mark of layout exactly when its kind is
one of layout. -/
theorem reach_marked {source : String} {ts : List (Token TokenKind)} {modes : Modes}
    {cursor : Cursor} (reach : lexRule.Reach source ts modes cursor) :
    ∀ token ∈ ts, Lexeme.Marked token.toLexeme := by
  induction reach with
  | start => exact List.forall_mem_nil _
  | @next ts modes cursor token modes' cursor' previous more step ih =>
    intro other member
    rcases List.mem_append.mp member with old | new
    · exact ih other old
    · obtain rfl := List.mem_singleton.mp new
      have scanned := modes.scan_marked cursor.rest
      obtain ⟨length, -, found, -⟩ := lexRule_step more step
      rwa [found] at scanned

/-- The tokens of a source are lexed tokens. The parser's theorems about sources use the lexer
through this fact and need nothing else of it. -/
theorem tokenize_lexed {source : String} {ts : List (Token TokenKind)}
    (run : tokenize source = .ok ts) : Lexed ts := by
  obtain ⟨modes, cursor, reach, -⟩ := (LexRule.tokenize_run lexRule source).reaches .start run
  exact ⟨(LexRule.tokenize_measured run).2, reach_marked reach⟩

section Kinds

variable {ts : List (Token TokenKind)} {k : Nat} {token : Token TokenKind} (lexed : Lexed ts)
include lexed

/-- At a token of another kind than layout the parser's skipping stops. -/
theorem Lexed.solid_of_token (atToken : ts[k]? = some token) (kind : token.kind ∉ layoutKinds) :
    Solid ts k := by
  have marked := lexed.marked token (List.mem_of_getElem? atToken)
  have untagged : token.tag ≠ some .whiteSpace := fun tagged => kind (marked.mp tagged)
  exact ⟨token, atToken, by simpa [Token.isSpace, Token.hasTag] using untagged⟩

/-- The same where only the kind of the token is known, as it is behind the checks that the rules
make. -/
theorem Lexed.solid_of_kind {kind : TokenKind} (atKind : ts[k]?.map (·.kind) = some kind)
    (other : kind ∉ layoutKinds) : Solid ts k := by
  obtain ⟨token, atToken, rfl⟩ := Option.map_eq_some_iff.mp atKind
  exact lexed.solid_of_token atToken other

theorem Lexed.isSpace_of_token (atToken : ts[k]? = some token) (kind : token.kind ∈ layoutKinds) :
    token.isSpace = true := by
  have tagged := (lexed.marked token (List.mem_of_getElem? atToken)).mpr kind
  simpa [Token.isSpace, Token.hasTag] using tagged

end Kinds

end ScriptFront.Script
