import ScriptFront.Proofs.Evaluation
import ScriptFront.Proofs.Template.Reading

namespace ScriptFront.Script

section Escapes

/-- The same characters with a backslash in front of the marks among them. -/
def escapeChars (marks cs : List Char) : List Char :=
  cs.flatMap fun c => if c ∈ marks then ['\\', c] else [c]

/-- A text with a backslash in front of each of the marked characters and of each backslash. -/
def escaped (marks : List Char) (s : String) : String := String.ofList (escapeChars marks s.toList)

/-- A text between two quotes, with a backslash in front of the marks in it. -/
def enclosed (quote : Char) (marks : List Char) (s : String) : String :=
  String.ofList (quote :: escapeChars marks s.toList ++ [quote])

variable {marks : List Char}

@[simp] theorem escapeChars_nil : escapeChars marks [] = [] := rfl

/-- The escape of a text goes character by character; a mark gets a backslash. -/
theorem escapeChars_cons (c : Char) (cs : List Char) : escapeChars marks (c :: cs) =
    (if c ∈ marks then ['\\', c] else [c]) ++ escapeChars marks cs := List.flatMap_cons

/-- Escaping leaves nothing out, so only the empty text becomes empty. -/
theorem escapeChars_eq_nil_iff {cs : List Char} : escapeChars marks cs = [] ↔ cs = [] := by
  cases cs with
  | nil => simp
  | cons c cs =>
    rw [escapeChars_cons]
    split
    · simp
    · simp

/-- Cooking takes every backslash away again, if the backslash is a mark itself. -/
theorem cookChars_escapeChars (slash : '\\' ∈ marks) (cs : List Char) :
    cookChars (escapeChars marks cs) = cs := by
  induction cs with
  | nil => rfl
  | cons c cs ih =>
    rw [escapeChars_cons]
    split
    · exact congrArg (c :: ·) ih
    · rename_i unmarked
      have other : c ≠ '\\' := fun same => unmarked (same ▸ slash)
      rw [List.singleton_append, cookChars, ih]
      simp [other]

/-- Taking the backslashes away gives the text back, provided that a backslash is itself escaped. -/
theorem cook_escaped (slash : '\\' ∈ marks) (s : String) : cook (escaped marks s) = s := by
  rw [cook, escaped, String.toList_ofList, cookChars_escapeChars slash, String.ofList_toList]

end Escapes

section Strings

/-- A character between two quotes, with a backslash in front of it if it needs one. -/
def StringUnit.ofChar (quote c : Char) : StringUnit quote :=
  if marked : c = '\\' ∨ c = quote then .escape c
  else .plain c (fun same => marked (Or.inr same)) fun same => marked (Or.inl same)

/-- The unit that stands for a character spells it, with a backslash where it has to be. -/
theorem StringUnit.chars_ofChar (quote c : Char) :
    (ofChar quote c).chars = if c ∈ ['\\', quote] then ['\\', c] else [c] := by
  simp only [List.mem_cons, List.not_mem_nil, or_false, ofChar]
  split
  · rfl
  · rfl

theorem StringUnit.value_ofChar (quote c : Char) : (ofChar quote c).value = c := by
  unfold ofChar
  split
  · rfl
  · rfl

/-- A text written between two quotes of the given sort, with a backslash in front of each character
that could not stand there alone. -/
def Quoted.ofString (quote : Char) (isQuote : quote = '"' ∨ quote = '\'') (s : String) : Quoted where
  quote := quote
  isQuote := isQuote
  units := s.toList.map (StringUnit.ofChar quote)

variable {quote : Char} (isQuote : quote = '"' ∨ quote = '\'')

/-- The quoted form of a text is its escaped characters between two quotes. -/
theorem Quoted.raw_ofString (s : String) :
    (ofString quote isQuote s).raw = enclosed quote ['\\', quote] s := by
  simp only [raw, ofString, enclosed, escapeChars, List.flatMap_map, StringUnit.chars_ofChar]

theorem Quoted.value_ofString (s : String) : (ofString quote isQuote s).value = s := by
  have same : StringUnit.value ∘ StringUnit.ofChar quote = id :=
    funext (StringUnit.value_ofChar quote)
  rw [value, ofString, List.map_map, same, List.map_id, String.ofList_toList]

/-- The value of a source that is read as some tree. -/
theorem run_eq {source : String} {parsed : Parsed} {t : Tree} (run : parse source = .ok parsed)
    (shape : erase parsed.tree = t) : Eval.run source = (Eval.interpret t).mapError .eval := by
  have same : Eval.interpret parsed.tree = Eval.interpret t := by
    rw [← shape]
    exact (Eval.evaluate_erase parsed.tree).symm
  rw [Eval.run, run, ← same]
  rfl

include isQuote

/-- A text that is written between two quotes has itself as its value. -/
theorem run_enclosed (s : String) :
    Eval.run (enclosed quote ['\\', quote] s) = .ok (.string s) := by
  obtain ⟨parsed, run, shape, -⟩ :=
    (Expr.string (.ofString quote isQuote s)).standalone.parseWith {} (Expr.tokenize_text _)
  have text : (Expr.string (.ofString quote isQuote s)).text = enclosed quote ['\\', quote] s :=
    Quoted.raw_ofString isQuote s
  rw [text] at run
  rw [run_eq run shape, Expr.tree, Quoted.value_ofString]
  rfl

end Strings

section Templates

/-- The characters that need a backslash in a template. -/
def templateMarks : List Char := ['\\', '\x60', '$']

/-- Escaped characters have no back quote and no opening of an interpolation that counts, so they
are one text of a template. -/
theorem templateText_escapeChars (cs : List Char) : TemplateText (escapeChars templateMarks cs) := by
  induction cs with
  | nil => exact .nil
  | cons c cs ih =>
    rw [escapeChars_cons]
    split
    · exact .escape ih
    · rename_i unmarked
      simp only [templateMarks, List.mem_cons, List.not_mem_nil, or_false, not_or] at unmarked
      obtain ⟨noSlash, noQuote, noDollar⟩ := unmarked
      exact .plain noQuote noSlash (fun dollar => absurd dollar noDollar) ih

/-- The template of a text alone. -/
def Template.ofString (s : String) : Template where
  parts :=
    if empty : s.toList = [] then []
    else [.text {
      chars := escapeChars templateMarks s.toList
      filled := fun none => empty (escapeChars_eq_nil_iff.mp none)
      text := templateText_escapeChars s.toList }]
  apart := by
    split
    · exact .nil
    · exact .singleton _

/-- The template form of a text is its escaped characters between back quotes. -/
theorem Template.text_ofString (s : String) :
    (ofString s).text = enclosed '\x60' templateMarks s := by
  by_cases empty : s.toList = []
  · simp [text, pieces, ofString, enclosed, empty, backQuote]
  · simp [text, pieces, ofString, enclosed, empty, backQuote, partPieces_text, Segment.piece,
      Segment.raw]

/-- The template form has one segment, except that the empty text has none. -/
theorem Template.contents_ofString (s : String) :
    (ofString s).contents = if s = "" then [] else [.inl (escaped templateMarks s)] := by
  by_cases empty : s = ""
  · simp [contents, ofString, empty]
  · simp [contents, ofString, empty, Part.content, Segment.raw, escaped]

/-- The tree of the template form. Its one segment is also its tail, and an empty template has
neither segments nor expressions. -/
theorem Template.tree_ofString (s : String) : (ofString s).tree = bare (.templateLiteral
    (if s = "" then [] else [bare (.templateElement (escaped templateMarks s) s true)]) []) := by
  have cooked : cook (escaped templateMarks s) = s := cook_escaped (by decide) s
  rw [tree, contents_ofString]
  split
  · rfl
  · rw [quasisOf, quasi, cooked]
    rfl

end Templates

/-- What is quoted is read back: between quotes as a string with that value, and between back
quotes as a template that consists of that text alone. -/
theorem quoted_readBack (s : String) :
    Eval.run (enclosed '"' ['\\', '"'] s) = .ok (.string s) ∧
      Eval.run (enclosed '\'' ['\\', '\''] s) = .ok (.string s) ∧
      ∃ parsed, parse (enclosed '\x60' ['\\', '\x60', '$'] s) = .ok parsed ∧
        erase parsed.tree = bare (.program [bare (.expressionStatement (bare (.templateLiteral
          (if s = "" then []
            else [bare (.templateElement (escaped ['\\', '\x60', '$'] s) s true)]) [])))]) := by
  refine ⟨run_enclosed (Or.inl rfl) s, run_enclosed (Or.inr rfl) s, ?_⟩
  obtain ⟨parsed, run, shape, -⟩ := (Template.ofString s).parseWith_pieces {}
  rw [Template.text_ofString] at run
  rw [Template.tree_ofString] at shape
  exact ⟨parsed, run, shape⟩

end ScriptFront.Script
