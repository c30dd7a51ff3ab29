import ScriptFront.Proofs.Lexed
import ScriptFront.Proofs.Nesting

namespace ScriptFront.Script

/-- What the kind and the tag of a lexeme tell about its characters. Punctuators are spelled in one
way only, numbers by digits and strings between quotes; of all other kinds nothing is told. -/
structure Lexeme.Spelled (lexeme : Lexeme TokenKind) (cs : List Char) : Prop where
  punctuator : ∀ entry ∈ punctuators, entry.2.kind = lexeme.kind → cs = entry.1.toList
  number : lexeme.kind = .number → ∀ c ∈ cs, c.isDigit = true
  string : lexeme.kind = .string → ∃ quote body, (quote = '"' ∨ quote = '\'') ∧
    cs = quote :: (body ++ [quote])
  word : lexeme.tag = some .word → lexeme.kind ∉ strictKinds

/-- A kind of tokens of which the spelling is not told. -/
def Loose (kind : TokenKind) : Prop :=
  (∀ entry ∈ punctuators, entry.2.kind ≠ kind) ∧ kind ≠ .number ∧ kind ≠ .string

instance (kind : TokenKind) : Decidable (Loose kind) :=
  inferInstanceAs (Decidable (_ ∧ _))

/-- A kind of which the text need not be known spells anything; a word among them has to be no
strict kind. -/
theorem Loose.spelled {lexeme : Lexeme TokenKind} (loose : Loose lexeme.kind)
    (word : lexeme.tag = some .word → lexeme.kind ∉ strictKinds) (cs : List Char) :
    Lexeme.Spelled lexeme cs where
  punctuator entry listed same := absurd same (loose.1 entry listed)
  number same := absurd same loose.2.1
  string same := absurd same loose.2.2
  word := word

/-- The characters that a scan goes over are spelled as its lexeme tells. -/
def Scan.Spelled (cs : List Char) : Scan → Prop
  | .lexeme found length => Lexeme.Spelled found (cs.take length)
  | _ => True

/-- A token without a tag and of a loose kind spells whatever text it was found in. -/
theorem Scan.spelled_plain {kind : TokenKind} (loose : Loose kind) (cs : List Char) (length : Nat) :
    (Scan.plain kind length).Spelled cs :=
  loose.spelled (by simp) _

section Scans

/-- Keywords and identifiers alike are loose kinds and none is strict, so that the text of a word is
free. -/
theorem wordKind_loose (word : String) : Loose (wordKind word) ∧ wordKind word ∉ strictKinds :=
  wordKind_induct (fun kind => Loose kind ∧ kind ∉ strictKinds) (by decide)
    (by decide) word

/-- In the table of punctuators the kind determines the text. This is decided by looking at every
pair of entries. -/
theorem punctuators_spelled : ∀ entry ∈ punctuators,
    entry.2.kind ≠ .number ∧ entry.2.kind ≠ .string ∧ entry.2.tag ≠ some .word ∧
    ∀ other ∈ punctuators, other.2.kind = entry.2.kind → entry.1 = other.1 := by
  decide

/-- A sign spells the text of its entry: the characters ahead were compared with it. -/
theorem scanPunctuator_spelled (cs : List Char) : (scanPunctuator cs).Spelled cs := by
  unfold scanPunctuator
  split
  · rename_i text lexeme found
    obtain ⟨number, string, word, only⟩ :=
      punctuators_spelled (text, lexeme) (List.mem_of_find?_eq_some found)
    have front : text.toList <+: cs := by simpa using List.find?_some found
    have taken : cs.take text.length = text.toList := by
      rw [← String.length_toList]
      exact (List.prefix_iff_eq_take.mp front).symm
    refine ⟨fun entry listed same => ?_, fun same => absurd same number,
      fun same => absurd same string, fun tagged => absurd tagged word⟩
    rw [taken]
    exact congrArg String.toList (only entry listed same)
  · exact Scan.spelled_plain (by decide) cs 1

/-- In code a number is spelled by digits, a string by its two quotes and what stands between, and a
sign by its characters. -/
theorem scanCode_spelled (cs : List Char) : (scanCode cs).Spelled cs := by
  cases cs with
  | nil => exact Scan.spelled_plain (by decide) [] 0
  | cons c cs =>
    rw [scanCode]
    split
    · rename_i isQuote
      cases found : (scanString c cs).later 1 with
      | lexeme lexeme length =>
        obtain ⟨shorter, inner, rfl⟩ := Scan.lexeme_of_later found
        obtain ⟨rfl, body, taken⟩ := scanString_lexeme inner
        have loose : ∀ entry ∈ punctuators, entry.2.kind ≠ .string := fun entry listed =>
          (punctuators_spelled entry listed).2.1
        exact ⟨fun entry listed same => absurd same (loose entry listed), by simp,
          fun _ => ⟨c, body, isQuote, by simp [taken]⟩, by simp⟩
      | _ => trivial
    split
    · exact Scan.spelled_plain (by decide) _ 2
    split
    · obtain ⟨loose, free⟩ := wordKind_loose (String.ofList (c :: cs.takeWhile isWordPart))
      exact loose.spelled (fun _ => free) _
    split
    · rename_i digit
      have loose : ∀ entry ∈ punctuators, entry.2.kind ≠ .number := fun entry listed =>
        (punctuators_spelled entry listed).1
      have word : (c :: cs).take (c :: cs.takeWhile Char.isDigit).length =
          c :: cs.takeWhile Char.isDigit := by
        rw [List.length_cons, List.take_succ_cons,
          ← List.prefix_iff_eq_take.mp (List.takeWhile_prefix _)]
      refine ⟨fun entry listed same => absurd same (loose entry listed), fun _ => ?_,
        by simp, by simp⟩
      rw [word]
      exact List.forall_mem_cons.mpr
        ⟨digit, fun d member => List.all_eq_true.mp List.all_takeWhile d member⟩
    · exact scanPunctuator_spelled (c :: cs)

/-- In a template the back quote and the opening of an interpolation spell themselves, and the text
is loose. -/
theorem scanTemplate_spelled (cs : List Char) : (scanTemplate cs).Spelled cs := by
  unfold scanTemplate
  split
  · rename_i first
    obtain ⟨rest, rfl⟩ := List.head?_eq_some_iff.mp first
    refine ⟨fun entry listed same => ?_, nofun, nofun, nofun⟩
    have quote := (punctuators_spelled entry listed).2.2.2 ("\x60", ⟨.backQuote, none⟩)
      (by decide) same.symm
    rw [quote]
    rfl
  split
  · exact Scan.spelled_plain (by decide) _ 2
  · exact Scan.spelled_plain (by decide) _ _

theorem Modes.scan_spelled (modes : Modes) (cs : List Char) : (modes.scan cs).Spelled cs :=
  Modes.scan_induct (fun _ _ _ => Scan.spelled_plain (by decide) _ _)
    (fun _ _ => scanTemplate_spelled cs) fun _ => scanCode_spelled cs

end Scans

/-- The invariant of a run: each token so far spells its own text, and the modes are those that the
kinds of the tokens lead to. -/
theorem reach_spelled {source : String} {ts : List (Token TokenKind)} {modes : Modes}
    {cursor : Cursor} (reach : lexRule.Reach source ts modes cursor) :
    (∀ token ∈ ts, Lexeme.Spelled token.toLexeme token.text.toList) ∧
      modes = (ts.map (·.kind)).foldl Modes.after {} := by
  induction reach with
  | start => exact ⟨List.forall_mem_nil _, rfl⟩
  | @next ts modes cursor token modes' cursor' previous more step ih =>
    obtain ⟨earlier, atModes⟩ := ih
    have scanned := modes.scan_spelled cursor.rest
    obtain ⟨length, -, found, text, rfl, -⟩ := lexRule_step more step
    rw [found] at scanned
    refine ⟨List.forall_mem_append.mpr ⟨earlier, ?_⟩, by simp [← atModes]⟩
    simpa [text, Scan.Spelled] using scanned

/-- A token as the lexer makes it: its text is spelled as its kind tells, and it has the mark of
layout exactly if its kind is one of layout. The parser's theorems about sources take the tokens to
be so. -/
structure Genuine (token : Token TokenKind) : Prop where
  marked : Lexeme.Marked token.toLexeme
  spelled : Lexeme.Spelled token.toLexeme token.text.toList

/-- Each token of a source is genuine, so from its kind the parser may read off what its text looks
like. -/
theorem tokenize_genuine {source : String} {ts : List (Token TokenKind)}
    (run : tokenize source = .ok ts) : ∀ token ∈ ts, Genuine token := by
  obtain ⟨modes, cursor, reach, -⟩ := (LexRule.tokenize_run lexRule source).reaches .start run
  exact fun token member =>
    ⟨(tokenize_lexed run).marked token member, (reach_spelled reach).1 token member⟩

namespace Genuine

variable {token : Token TokenKind} (genuine : Genuine token)
include genuine

/-- A genuine token of another kind than layout is not skipped by the parser. -/
theorem solid {kind : TokenKind} (ofKind : token.kind = kind) (other : kind ∉ layoutKinds) :
    token.isSpace = false := by
  have untagged : token.tag ≠ some .whiteSpace := fun tagged =>
    other (ofKind ▸ genuine.marked.mp tagged)
  simpa [Token.isSpace, Token.hasTag] using untagged

/-- A genuine token of the kind of a punctuator has the text of this punctuator. -/
theorem text_eq (entry : String × Lexeme TokenKind) (listed : entry ∈ punctuators)
    (ofKind : token.kind = entry.2.kind) : token.text = entry.1 :=
  String.toList_inj.mp (genuine.spelled.punctuator entry listed ofKind.symm)

/-- Layout and words stand freely in code. -/
theorem free (plain : token.isSpace = true ∨ token.hasTag .word = true) :
    token.kind ∉ strictKinds := by
  rcases plain with space | word
  · have free : ∀ kind ∈ layoutKinds, kind ∉ strictKinds := by decide
    exact free token.kind (genuine.marked.mp (beq_iff_eq.mp space))
  · exact genuine.spelled.word (beq_iff_eq.mp word)

end Genuine

end ScriptFront.Script
