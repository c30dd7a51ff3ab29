import ScriptFront.Proofs.Delimiters
import ScriptFront.Proofs.Framing

namespace ScriptFront.Script

section Cooking

/-- Characters in which behind every backslash stands the character that it escapes. More characters
can follow without changing what these stand for. -/
inductive WholeEscapes : List Char → Prop
  | nil : WholeEscapes []
  | escape {c cs} : WholeEscapes cs → WholeEscapes ('\\' :: c :: cs)
  | plain {c cs} : c ≠ '\\' → WholeEscapes cs → WholeEscapes (c :: cs)

/-- What cooking gives, if it comes to no backslash with nothing behind it. -/
def cookStrict : List Char → Option (List Char)
  | [] => some []
  | ['\\'] => none
  | '\\' :: c :: cs => (cookStrict cs).map (c :: ·)
  | c :: cs => (cookStrict cs).map (c :: ·)

variable {c : Char} {cs : List Char} {text : String}

theorem cookChars_plain (other : c ≠ '\\') (cs : List Char) :
    cookChars (c :: cs) = c :: cookChars cs := by
  rw [cookChars]
  simp [other]

theorem cookStrict_plain (other : c ≠ '\\') (cs : List Char) :
    cookStrict (c :: cs) = (cookStrict cs).map (c :: ·) := by
  rw [cookStrict]
  · simp [other]
  · simp [other]

/-- Where no escape is cut in two, cooking two texts is cooking each, since the first one ends
between escapes. -/
theorem WholeEscapes.cookChars_append (whole : WholeEscapes cs) (rest : List Char) :
    cookChars (cs ++ rest) = cookChars cs ++ cookChars rest := by
  induction whole with
  | nil => rfl
  | @escape c cs _ ih => exact congrArg (c :: ·) ih
  | plain other _ ih =>
    rw [List.cons_append, cookChars_plain other, cookChars_plain other, ih, List.cons_append]

/-- On whole escapes the strict reading succeeds and gives what cooking gives. -/
theorem WholeEscapes.cookStrict_eq (whole : WholeEscapes cs) :
    cookStrict cs = some (cookChars cs) := by
  induction whole with
  | nil => rfl
  | @escape c cs _ ih => exact congrArg (Option.map (c :: ·)) ih
  | plain other _ ih => rw [cookStrict_plain other, cookChars_plain other, ih, Option.map_some]

/-- A text that ends in no half of an escape: it is cooked in the same way whatever stands
behind it, and none of its backslashes stands for itself because nothing follows. -/
structure EscapeComplete (text : String) : Prop where
  append : ∀ rest : String, cook (text ++ rest) = cook text ++ cook rest
  strict : cookStrict text.toList = some (cook text).toList

/-- A text with whole escapes stands for the same in front of any other text. -/
theorem WholeEscapes.complete (whole : WholeEscapes text.toList) : EscapeComplete text where
  append rest := by
    rw [cook, String.toList_append, whole.cookChars_append, String.ofList_append]
    rfl
  strict := by rw [whole.cookStrict_eq, cook, String.toList_ofList]

end Cooking

section Scans

variable {quote : Char} {cs : List Char} {lexeme : Lexeme TokenKind} {length : Nat}

/-- The quote that closes a string is not escaped, so every escape in front of it is whole. -/
theorem scanString_whole (found : scanString quote cs = .lexeme lexeme length) :
    ∃ body, cs.take length = body ++ [quote] ∧ WholeEscapes body := by
  fun_induction scanString quote cs generalizing length with
  | case1 => cases found
  | case2 =>
    cases found
    exact ⟨[], rfl, .nil⟩
  | case3 => cases found
  | case4 escaped cs _ ih =>
    obtain ⟨shorter, inner, rfl⟩ := Scan.lexeme_of_later found
    obtain ⟨body, taken, whole⟩ := ih inner
    exact ⟨'\\' :: escaped :: body, by simp [taken], .escape whole⟩
  | case5 c cs _ noEscape ih =>
    obtain ⟨shorter, inner, rfl⟩ := Scan.lexeme_of_later found
    obtain ⟨body, taken, whole⟩ := ih inner
    exact ⟨c :: body, by simp [taken], .plain noEscape whole⟩

/-- A string of code is quotes around whole escapes: the scan takes a backslash with the next
character, so the closing quote is never an escaped one. -/
theorem scanCode_string (found : scanCode cs = .lexeme lexeme length)
    (isString : lexeme.kind = .string) :
    ∃ quote body, cs.take length = quote :: (body ++ [quote]) ∧ WholeEscapes body := by
  have spelled := scanCode_spelled cs
  rw [found] at spelled
  obtain ⟨quote, _, isQuote, front⟩ := spelled.string isString
  cases cs with
  | nil => simp at front
  | cons c cs =>
    obtain rfl : c = quote := by
      cases length with
      | zero => cases front
      | succ n => exact (List.cons.inj front).1
    rw [scanCode, if_pos isQuote] at found
    obtain ⟨shorter, inner, rfl⟩ := Scan.lexeme_of_later found
    obtain ⟨body, taken, whole⟩ := scanString_whole inner
    exact ⟨c, body, by rw [List.take_succ_cons, taken], whole⟩

/-- Template text that does not go on to the end of the source ends before a mark, which is
not escaped. -/
theorem templateTextLength_whole (more : templateTextLength cs < cs.length) :
    WholeEscapes (cs.take (templateTextLength cs)) := by
  fun_induction templateTextLength cs with
  | case1 => exact .nil
  | case2 => exact .nil
  | case3 => simp at more
  | case4 escaped cs _ ih => exact .escape (ih (by simpa using more))
  | case5 c cs _ noEscape ih => exact .plain noEscape (ih (by simpa using more))

end Scans

section Tokens

variable {source : String} {ts before after : List (Token TokenKind)} {token : Token TokenKind}
  {modes : Modes} {cursor : Cursor}

theorem reach_string (reach : lexRule.Reach source ts modes cursor) (member : token ∈ ts)
    (isString : token.kind = .string) : WholeEscapes (unquoted token.text).toList := by
  obtain ⟨modes', read⟩ := reach_readIn reach token member
  obtain ⟨c, cs, ahead⟩ := List.exists_cons_of_ne_nil read.more
  have scan := read.scan
  have front := List.prefix_iff_eq_take.mp read.front
  rw [ahead] at scan front
  have found := Modes.scanCode_of_scan scan (by simp [textKinds, isString])
  obtain ⟨quote, body, taken, whole⟩ := scanCode_string found isString
  rw [String.length_toList, taken] at front
  simpa [unquoted, front] using whole

/-- The invariant of a run for template text. Only the last token of an unfinished source can end in
half an escape. -/
theorem reach_text (reach : lexRule.Reach source (before ++ token :: after) modes cursor)
    (isText : token.kind = .templateText) (more : after ≠ []) :
    WholeEscapes token.text.toList := by
  obtain ⟨next, others, rfl⟩ := List.exists_cons_of_ne_nil more
  rw [List.append_cons] at reach
  obtain ⟨modes', cursor', reached, further⟩ := reach.between
  obtain ⟨ahead, -⟩ := further next rfl
  obtain ⟨modes'', cursor'', length, -, -, found, spelled, -, behind⟩ := reach_last reached
  obtain ⟨-, rfl, -⟩ := Modes.scan_templateText found isText
  rw [spelled, String.toList_ofList]
  refine templateTextLength_whole (Nat.lt_of_not_le fun all => ahead ?_)
  rw [behind]
  exact List.drop_eq_nil_of_le all

end Tokens

section Ends

variable {base opened : List Opening} {s : Stretch} {trees : List Tree}

/-- Template text is read only where a template is the innermost thing open. -/
theorem Turn.open_of_text {opened' : List Opening} (turn : Turn opened .templateText opened') :
    regionIn opened' = .template := by
  generalize ofText : TokenKind.templateText = kind at turn
  cases turn with
  | plain free => exact absurd (by simp [← ofText, strictKinds]) free
  | text => rfl
  | opens o => cases o <;> cases ofText
  | closes o => cases o <;> cases ofText

theorem Derives.same_of_empty (derives : Derives base opened s trees) (empty : s.tokens = []) :
    base = opened := by
  induction derives with
  | nil => rfl
  | token => simp at empty
  | space => simp at empty
  | append _ _ first second =>
    obtain ⟨front, back⟩ := List.append_eq_nil_iff.mp empty
    exact (first front).trans (second back)
  | leaf => rfl
  | node => rfl
  | module => rfl
  | again _ _ _ ih => exact ih empty

/-- A leaf in code does not end in the text of a template. Within a regular expression there
may be such text, but at its end is a slash or a name. -/
theorem Leaf.last_ne_text {tokens : List (Token TokenKind)} {c : Construct}
    (leaf : Leaf .code tokens c) (genuine : ∀ token ∈ tokens, Genuine token) :
    ∀ last ∈ tokens.getLast?, last.kind ≠ .templateText := by
  intro last isLast isText
  by_cases plain : c.isRegExp = false
  · have free := leaf.kinds_free genuine plain last (List.mem_of_getLast? isLast)
    exact free (by simp [isText, strictKinds])
  · cases leaf with
    | @regExp opener body closer pattern flags _ closing ofFlags =>
      cases flags with
      | some word =>
        obtain rfl : word = last := by simpa [List.getLast?_cons] using isLast
        cases isText.symm.trans (ofFlags word rfl)
      | none =>
        obtain rfl : closer = last := by simpa [List.getLast?_cons] using isLast
        rcases closing with ⟨slash, -⟩ | ⟨asteriskSlash, -⟩
        · cases isText.symm.trans slash
        · cases isText.symm.trans asteriskSlash
    | _ => exact plain rfl

/-- Where tokens end in the text of a template, that template is still open. -/
theorem Derives.open_of_text (derives : Derives base opened s trees)
    (genuine : ∀ token ∈ s.tokens, Genuine token) :
    ∀ last ∈ s.tokens.getLast?, last.kind = .templateText → regionIn opened = .template := by
  induction derives with
  | nil => simp
  | @token base opened opened' s trees token _ turn _ =>
    intro last isLast isText
    obtain rfl : token = last := by simpa using isLast
    rw [isText] at turn
    exact turn.open_of_text
  | @space base opened s trees token _ _ layout _ =>
    intro last isLast isText
    obtain rfl : token = last := by simpa using isLast
    have free := (genuine token (by simp)).free (.inl layout)
    exact absurd (by simp [isText, strictKinds]) free
  | @append base opened opened' s s' trees trees' _ rest first second =>
    obtain ⟨inFirst, inSecond⟩ := List.forall_mem_append.mp genuine
    intro last isLast isText
    rw [Stretch.tokens_append, List.getLast?_append] at isLast
    cases atEnd : s'.tokens.getLast? with
    | none =>
      obtain rfl := rest.same_of_empty (List.getLast?_eq_none_iff.mp atEnd)
      rw [atEnd] at isLast
      exact first inFirst last isLast isText
    | some other =>
      rw [atEnd] at isLast
      exact second inSecond last (atEnd.trans isLast) isText
  | @leaf _ region _ _ _ fits leaf _ =>
    intro last isLast isText
    cases region with
    | code => exact absurd isText (leaf.last_ne_text genuine last isLast)
    | template => exact fits
  | node _ _ _ _ ih => exact ih genuine
  | module _ _ _ _ ih => exact ih genuine
  | again _ _ _ ih => exact ih genuine

end Ends

/-- The spelling of a string between its quotes, or of a text in a template, holds no half of
an escape. -/
def EscapesWhole (t : Tree) : Prop :=
  match t.kind with
  | .stringLiteral _ raw => EscapeComplete (unquoted raw)
  | .templateElement raw _ _ => EscapeComplete raw
  | _ => True

/-- In a source that is parsed, the quote that ends a string and the mark that ends the text of
a template are found as such by the lexer and by cooking alike, whatever backslashes stand in
front of them. -/
theorem parseWith_escapesWhole {source : String} {options : Options} {parsed : Parsed}
    (run : parseWith source options = .ok parsed) :
    ∀ entry ∈ preorder 0 parsed.tree, EscapesWhole entry.2 := by
  obtain ⟨ts, marks, body, lexing, derives, same⟩ := parseWith_derives run
  have genuine := tokenize_genuine lexing
  obtain ⟨modes, cursor, reach, -⟩ := (LexRule.tokenize_run lexRule source).reaches .start lexing
  have everywhere := derives.everywhere (P := EscapesWhole) (List.infix_refl ts)
    (fun {region tokens kind span} within leaf extent => ?_) fun {kind span} _ composite => ?_
  · rw [same]
    exact (everywhere_programNode.mpr ⟨trivial, everywhere⟩).preorder 0
  · -- Only these two leaves carry a spelling that is cooked.
    cases leaf with
    | @string token isString =>
      exact (reach_string reach (within.subset (by simp)) isString).complete
    | @segment token tail isText =>
      obtain ⟨before, after, rfl⟩ := within
      rw [List.append_assoc] at reach
      refine (reach_text reach isText ?_).complete
      rintro rfl
      -- The last token of all: no program ends within a template.
      have inside := derives.open_of_text genuine token (by simp) isText
      cases inside
    | _ => trivial
  · cases kind <;> trivial

/-- Runs of backslashes of every length in front of a quote, a mark and an interpolation. -/
theorem parseWith_escapesWhole_runs : ∃ parsed,
    parseWith "'\\\\' + \"\\\"\" + \x60\\\x60\\\\$\x7b'\\\\\\'' + a\x7d\\$\x7b\x60" {} =
      .ok parsed ∧ ∀ entry ∈ preorder 0 parsed.tree, EscapesWhole entry.2 := by
  have accepted :
      (parseWith "'\\\\' + \"\\\"\" + \x60\\\x60\\\\$\x7b'\\\\\\'' + a\x7d\\$\x7b\x60"
        {}).isOk = true := by
    decide +kernel
  cases run : parseWith "'\\\\' + \"\\\"\" + \x60\\\x60\\\\$\x7b'\\\\\\'' + a\x7d\\$\x7b\x60" {} with
  | error e =>
    rw [run] at accepted
    cases accepted
  | ok parsed => exact ⟨parsed, rfl, parseWith_escapesWhole run⟩

end ScriptFront.Script
