import ScriptFront.Proofs.Template.Reading

namespace ScriptFront.Script

section Contents

variable {contents : List (String ⊕ String)}

/-- The texts among some contents. -/
def textsOf (contents : List (String ⊕ String)) : List String := contents.filterMap Sum.getLeft?

/-- Whether nothing stands behind the last text. -/
def endsInText (contents : List (String ⊕ String)) : Bool := contents.getLast?.any Sum.isLeft

theorem endsInText_text (raw : String) (contents : List (String ⊕ String)) :
    endsInText (.inl raw :: contents) = (contents.isEmpty || endsInText contents) := by
  cases contents with
  | nil => rfl
  | cons content contents => simp [endsInText, List.getLast?_cons_cons]

theorem endsInText_name (name : String) (contents : List (String ⊕ String)) :
    endsInText (.inr name :: contents) = endsInText contents := by
  cases contents with
  | nil => rfl
  | cons content contents => simp [endsInText, List.getLast?_cons_cons]

theorem endsInText_eq_false (none : textsOf contents = []) : endsInText contents = false := by
  induction contents with
  | nil => rfl
  | cons content contents ih =>
    cases content with
    | inl raw => cases none
    | inr name =>
      rw [endsInText_name]
      exact ih none

/-- The raw text of the tree of a text. -/
def rawOf (t : Tree) : Option String :=
  match t.kind with
  | .templateElement raw _ _ => some raw
  | _ => none

/-- Whether a node is the last piece of text of its template. -/
def isTail (t : Tree) : Bool :=
  match t.kind with
  | .templateElement _ _ tail => tail
  | _ => false

/-- The raw texts of the segments are the texts of the template in order. -/
theorem raws_quasisOf (contents : List (String ⊕ String)) :
    (quasisOf contents).filterMap rawOf = textsOf contents := by
  induction contents with
  | nil => rfl
  | cons content contents ih =>
    cases content with
    | inl raw => exact congrArg (raw :: ·) ih
    | inr name => exact ih

/-- One segment is marked as the tail exactly when the template ends in text. -/
theorem tail_quasisOf (contents : List (String ⊕ String)) :
    (quasisOf contents).any isTail = endsInText contents := by
  induction contents with
  | nil => rfl
  | cons content contents ih =>
    cases content with
    | inl raw =>
      rw [endsInText_text, ← ih]
      rfl
    | inr name =>
      rw [endsInText_name]
      exact ih

/-- The trees of some texts, of which the last one may be the tail. -/
def tailed (tail : Bool) : List String → List Tree
  | [] => []
  | [raw] => [quasi raw tail]
  | raw :: next :: raws => quasi raw false :: tailed tail (next :: raws)

/-- The names between the texts leave no trace in the trees of the texts. -/
theorem quasisOf_eq_tailed (contents : List (String ⊕ String)) :
    quasisOf contents = tailed (endsInText contents) (textsOf contents) := by
  induction contents with
  | nil => rfl
  | cons content contents ih =>
    cases content with
    | inr name =>
      rw [endsInText_name]
      exact ih
    | inl raw =>
      have texts : textsOf (.inl raw :: contents) = raw :: textsOf contents := rfl
      rw [endsInText_text, texts, quasisOf, ih]
      cases others : textsOf contents with
      | nil => simp [tailed, endsInText_eq_false others]
      | cons next raws =>
        have filled : contents.isEmpty = false := by
          cases contents with
          | nil => cases others
          | cons content contents => rfl
        rw [filled]
        rfl

/-- Two templates have the same segments when they have the same texts in order and both or neither
end in one. Where the expressions stood in between does not count. -/
theorem quasisOf_eq_iff (first second : List (String ⊕ String)) :
    quasisOf first = quasisOf second ↔
      textsOf first = textsOf second ∧ endsInText first = endsInText second := by
  constructor
  · intro same
    rw [← raws_quasisOf, ← raws_quasisOf, ← tail_quasisOf, ← tail_quasisOf, same]
    exact ⟨rfl, rfl⟩
  · rintro ⟨texts, ends⟩
    rw [quasisOf_eq_tailed, quasisOf_eq_tailed, texts, ends]

theorem namesOf_eq_iff (first second : List (String ⊕ String)) :
    namesOf first = namesOf second ↔
      first.filterMap Sum.getRight? = second.filterMap Sum.getRight? := by
  refine (List.map_injective_iff.mpr fun name name' same => ?_).eq_iff
  simpa [bare] using same

end Contents

/-- The tree of a template keeps its texts in order, its names in order and whether it ends in
a text; in which order the texts and the names stand among each other it does not tell. -/
theorem Template.erase_eq_iff (first second : Template) (options : Options) :
    ∃ parsed₁ parsed₂, parseWith first.text options = .ok parsed₁ ∧
      parseWith second.text options = .ok parsed₂ ∧
      (erase parsed₁.tree = erase parsed₂.tree ↔
        textsOf first.contents = textsOf second.contents ∧
        first.contents.filterMap Sum.getRight? = second.contents.filterMap Sum.getRight? ∧
        endsInText first.contents = endsInText second.contents) := by
  obtain ⟨parsed₁, run₁, tree₁, -⟩ := first.parseWith_pieces options
  obtain ⟨parsed₂, run₂, tree₂, -⟩ := second.parseWith_pieces options
  refine ⟨parsed₁, parsed₂, run₁, run₂, ?_⟩
  have trees : erase parsed₁.tree = erase parsed₂.tree ↔
      quasisOf first.contents = quasisOf second.contents ∧
        namesOf first.contents = namesOf second.contents := by
    simp [tree₁, tree₂, Template.tree, bare]
  rw [trees, quasisOf_eq_iff, namesOf_eq_iff, and_assoc]
  exact and_congr_right fun _ => and_comm

section Lost

/-- An interpolation of one letter, without layout. -/
def letter (c : Char) (starts : isWordStart c = true)
    (free : String.ofList [c] ∉ keywords.map Prod.fst) : Interpolation where
  before := []
  name := ⟨⟨c, [], starts, List.forall_mem_nil _⟩, free⟩
  behind := []

/-- A piece of text that is one letter. -/
def letterA : Segment where
  chars := ['a']
  filled := by decide
  text := .plain (by decide) (by decide) (by decide) .nil

/-- A text, and two names behind it. -/
def textFirst : Template where
  parts := [.text letterA, .name (letter 'x' rfl (by decide)), .name (letter 'y' rfl (by decide))]
  apart := by simp [Part.Apart, Part.isText]

/-- The same text between the two names. -/
def textBetween : Template where
  parts := [.name (letter 'x' rfl (by decide)), .text letterA, .name (letter 'y' rfl (by decide))]
  apart := by simp [Part.Apart, Part.isText]

/-- Two templates that differ in the order of text and expressions have the same tree, extents
aside. -/
theorem Template.order_lost : ∃ parsed₁ parsed₂,
    textFirst.text = "\x60a$\x7bx\x7d$\x7by\x7d\x60" ∧ parse textFirst.text = .ok parsed₁ ∧
      textBetween.text = "\x60$\x7bx\x7da$\x7by\x7d\x60" ∧ parse textBetween.text = .ok parsed₂ ∧
      erase parsed₁.tree = erase parsed₂.tree ∧ textFirst.contents ≠ textBetween.contents := by
  obtain ⟨parsed₁, run₁, tree₁, -⟩ := textFirst.parseWith_pieces {}
  obtain ⟨parsed₂, run₂, tree₂, -⟩ := textBetween.parseWith_pieces {}
  have same : textFirst.tree = textBetween.tree := rfl
  refine ⟨parsed₁, parsed₂, by decide, run₁, by decide, run₂, ?_, by decide⟩
  rw [tree₁, tree₂, same]

end Lost

end ScriptFront.Script
