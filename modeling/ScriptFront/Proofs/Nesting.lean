import ScriptFront.Proofs.Guarded

namespace ScriptFront.Script

/-- The two languages in a script: code, and what stands between the back quotes of a template. An
interpolation is code again, so the two may be nested to any depth. -/
inductive Region where
  | code
  | template
deriving DecidableEq, Repr

/-- The kinds of tokens that do not stand freely in code: the delimiters, what only
templates hold, and what no rule of the grammar takes outside a regular expression. -/
def strictKinds : List TokenKind := [
  .openParen, .closeParen, .openSquare, .closeSquare, .openBrace, .closeBrace, .backQuote,
  .templateText, .openTemplate, .unknown, .backSlash, .ampersand, .pipe]

/-- Words in which every delimiter is closed by its partner, in code and in templates. It is the
grammar of brackets alone, with every other token of code left free. -/
inductive Delimited : Region → List TokenKind → Prop
  | nil {region} : Delimited region []
  | plain {kind rest} : kind ∉ strictKinds → Delimited .code rest → Delimited .code (kind :: rest)
  | parens {inner rest} : Delimited .code inner → Delimited .code rest →
      Delimited .code (.openParen :: inner ++ .closeParen :: rest)
  | squares {inner rest} : Delimited .code inner → Delimited .code rest →
      Delimited .code (.openSquare :: inner ++ .closeSquare :: rest)
  | braces {inner rest} : Delimited .code inner → Delimited .code rest →
      Delimited .code (.openBrace :: inner ++ .closeBrace :: rest)
  | quotes {inner rest} : Delimited .template inner → Delimited .code rest →
      Delimited .code (.backQuote :: inner ++ .backQuote :: rest)
  | text {rest} : Delimited .template rest → Delimited .template (.templateText :: rest)
  | interpolation {inner rest} : Delimited .code inner → Delimited .template rest →
      Delimited .template (.openTemplate :: inner ++ .closeBrace :: rest)

/-- A delimiter that is still open. A list of them says where a parse is with respect to brackets,
the innermost first, as the stack of the lexer does for templates. -/
inductive Opening where
  | paren
  | square
  | brace
  | quote
  | interpolation
deriving DecidableEq, Repr

namespace Opening

/-- The token that opens a pair. An interpolation is opened by a token of its own, which no other
pair has. -/
def opener : Opening → TokenKind
  | paren => .openParen
  | square => .openSquare
  | brace => .openBrace
  | quote => .backQuote
  | interpolation => .openTemplate

/-- The token that closes a pair. A brace closes blocks and interpolations, and a back quote both
opens a template and closes it. -/
def closer : Opening → TokenKind
  | paren => .closeParen
  | square => .closeSquare
  | brace => .closeBrace
  | quote => .backQuote
  | interpolation => .closeBrace

/-- What stands behind the delimiter. -/
def inside : Opening → Region
  | quote => .template
  | _ => .code

/-- Where the delimiter stands. -/
def outside : Opening → Region
  | interpolation => .template
  | _ => .code

end Opening

/-- The region behind some open delimiters, the innermost of which stands first. -/
def regionIn : List Opening → Region
  | [] => .code
  | opening :: _ => opening.inside

/-- Behind these delimiters stands code. -/
class InCode (opened : List Opening) : Prop where
  region : regionIn opened = .code

instance : InCode [] := ⟨rfl⟩
instance {opened : List Opening} : InCode (.paren :: opened) := ⟨rfl⟩
instance {opened : List Opening} : InCode (.square :: opened) := ⟨rfl⟩
instance {opened : List Opening} : InCode (.brace :: opened) := ⟨rfl⟩
instance {opened : List Opening} : InCode (.interpolation :: opened) := ⟨rfl⟩

/-- What one token does to the delimiters that are open: nothing, to open one more where it may
stand, or to close the innermost. A token for which none of these holds cannot come at that place.
-/
inductive Turn : List Opening → TokenKind → List Opening → Prop
  | plain {opened kind} [code : InCode opened] : kind ∉ strictKinds → Turn opened kind opened
  | text {opened} : Turn (.quote :: opened) .templateText (.quote :: opened)
  | opens (o : Opening) {opened} : regionIn opened = o.outside → Turn opened o.opener (o :: opened)
  | closes (o : Opening) {opened} : Turn (o :: opened) o.closer opened

namespace Turn

variable {opened : List Opening} [code : InCode opened]

theorem openParen : Turn opened .openParen (.paren :: opened) := .opens .paren code.region
theorem openSquare : Turn opened .openSquare (.square :: opened) := .opens .square code.region
theorem openBrace : Turn opened .openBrace (.brace :: opened) := .opens .brace code.region
theorem openQuote : Turn opened .backQuote (.quote :: opened) := .opens .quote code.region

omit code

theorem openTemplate :
    Turn (.quote :: opened) .openTemplate (.interpolation :: .quote :: opened) :=
  .opens .interpolation rfl

end Turn

namespace Delimited

variable {region : Region} {kind : TokenKind} {inner first second rest word : List TokenKind}

/-- A word between a delimiter and its partner. -/
theorem group (o : Opening) (within : Delimited o.inside inner) (after : Delimited o.outside rest) :
    Delimited o.outside (o.opener :: inner ++ o.closer :: rest) := by
  cases o with
  | paren => exact .parens within after
  | square => exact .squares within after
  | brace => exact .braces within after
  | quote => exact .quotes within after
  | interpolation => exact .interpolation within after

/-- Induction over a word in which all pairs of delimiters are one case. -/
theorem byGroups {motive : ∀ region word, Delimited region word → Prop}
    (nil : ∀ {region}, motive region [] .nil)
    (plain : ∀ {kind rest} (free : kind ∉ strictKinds) (after : Delimited .code rest),
      motive .code rest after → motive .code (kind :: rest) (.plain free after))
    (text : ∀ {rest} (after : Delimited .template rest),
      motive .template rest after → motive .template (.templateText :: rest) (.text after))
    (group : ∀ (o : Opening) {inner rest} (within : Delimited o.inside inner)
      (after : Delimited o.outside rest), motive o.inside inner within →
      motive o.outside rest after →
      motive o.outside (o.opener :: inner ++ o.closer :: rest) (.group o within after))
    (delimited : Delimited region word) : motive region word delimited := by
  induction delimited with
  | nil => exact nil
  | plain free after ih => exact plain free after ih
  | text after ih => exact text after ih
  | parens within after inInner inRest => exact group .paren within after inInner inRest
  | squares within after inInner inRest => exact group .square within after inInner inRest
  | braces within after inInner inRest => exact group .brace within after inInner inRest
  | quotes within after inInner inRest => exact group .quote within after inInner inRest
  | interpolation within after inInner inRest =>
    exact group .interpolation within after inInner inRest

theorem append (one : Delimited region first) (other : Delimited region second) :
    Delimited region (first ++ second) := by
  induction one using byGroups with
  | nil => exact other
  | plain free _ ih => exact .plain free (ih other)
  | text _ ih => exact .text (ih other)
  | group o within _ _ ih => simpa using Delimited.group o within (ih other)

/-- Characters of no known kind and half operators stand nowhere. -/
theorem known (delimited : Delimited region word) (member : kind ∈ word) :
    kind ∉ [.unknown, .backSlash, .ampersand, .pipe] := by
  have strict : ∀ kind ∈ [.unknown, .backSlash, .ampersand, .pipe], kind ∈ strictKinds := by decide
  induction delimited using byGroups with
  | nil => cases member
  | plain free _ ih =>
    rcases List.mem_cons.mp member with rfl | later
    · exact fun stray => free (strict _ stray)
    · exact ih later
  | text _ ih =>
    rcases List.mem_cons.mp member with rfl | later
    · decide
    · exact ih later
  | group o _ _ inInner inRest =>
    simp only [List.cons_append, List.mem_cons, List.mem_append] at member
    rcases member with rfl | inside | rfl | behind
    · cases o <;> decide
    · exact inInner inside
    · cases o <;> decide
    · exact inRest behind

end Delimited

/-- A word in which some delimiters are still open, and all others are closed. With none open it is
a delimited word, and every front of a delimited word is of this sort. -/
inductive Opens : List Opening → List TokenKind → Prop
  | whole {kinds} : Delimited .code kinds → Opens [] kinds
  | within {o opened kinds inner} : Opens opened kinds → regionIn opened = o.outside →
      Delimited o.inside inner → Opens (o :: opened) (kinds ++ o.opener :: inner)

namespace Opens

variable {o : Opening} {opened opened' : List Opening} {kind : TokenKind}
  {kinds more : List TokenKind}

theorem append (opens : Opens opened kinds) (closed : Delimited (regionIn opened) more) :
    Opens opened (kinds ++ more) := by
  cases opens with
  | whole delimited => exact .whole (delimited.append closed)
  | within outer fits inner =>
    rw [List.append_assoc, List.cons_append]
    exact .within outer fits (inner.append closed)

theorem close (opens : Opens (o :: opened) kinds) : Opens opened (kinds ++ [o.closer]) := by
  cases opens with
  | within outer fits inner =>
    rw [List.append_assoc]
    exact outer.append (fits ▸ Delimited.group o inner .nil)

/-- Token by token, the word and the open delimiters go together. -/
theorem turn (opens : Opens opened kinds) (step : Turn opened kind opened') :
    Opens opened' (kinds ++ [kind]) := by
  cases step with
  | plain free =>
    rename_i code
    exact opens.append (code.region ▸ .plain free .nil)
  | text => exact opens.append (.text .nil)
  | opens o fits => exact .within opens fits .nil
  | closes o => exact opens.close

end Opens

/-- Wherever the word stands, at every place in it some delimiters are open. -/
def Followed (region : Region) (word : List TokenKind) : Prop :=
  ∀ before after, word = before ++ after → ∀ opened sofar, Opens opened sofar →
    regionIn opened = region → ∃ further, Opens further (sofar ++ before)

section Places

variable {o : Opening} {region : Region} {kind : TokenKind} {inner rest word : List TokenKind}

/-- A token that leaves open what is open may stand in front of any word. -/
theorem Followed.step (next : Followed region rest)
    (turn : ∀ opened, regionIn opened = region → Turn opened kind opened) :
    Followed region (kind :: rest) := by
  intro before after split opened sofar opens fits
  cases before with
  | nil => exact ⟨opened, by simpa using opens⟩
  | cons head before =>
    obtain ⟨rfl, within⟩ := List.cons.inj split
    have entered := opens.turn (turn opened fits)
    obtain ⟨further, found⟩ := next before after within opened _ entered fits
    exact ⟨further, by simpa using found⟩

theorem Followed.group (within : Delimited o.inside inner) (inInner : Followed o.inside inner)
    (inRest : Followed o.outside rest) :
    Followed o.outside (o.opener :: inner ++ o.closer :: rest) := by
  intro before after split opened sofar opens fits
  cases before with
  | nil => exact ⟨opened, by simpa using opens⟩
  | cons head before =>
    obtain ⟨rfl, tail⟩ := List.cons.inj split
    rcases List.append_eq_append_iff.mp tail with ⟨passed, rfl, closing⟩ | ⟨left, atInner, -⟩
    · have entered : Opens (o :: opened) (sofar ++ o.opener :: inner) := .within opens fits within
      cases passed with
      | nil => exact ⟨o :: opened, by simpa using entered⟩
      | cons head passed =>
        obtain ⟨rfl, behind⟩ := List.cons.inj closing
        obtain ⟨further, found⟩ := inRest passed after behind opened _ entered.close fits
        exact ⟨further, by simpa using found⟩
    · have entered : Opens (o :: opened) (sofar ++ [o.opener]) := .within opens fits .nil
      obtain ⟨further, found⟩ := inInner before left atInner (o :: opened) _ entered rfl
      exact ⟨further, by simpa using found⟩

/-- At each place within a delimited word some delimiters are open, and those around the word are
still open then. -/
theorem Delimited.followed (delimited : Delimited region word) : Followed region word := by
  induction delimited using byGroups with
  | nil =>
    intro before after split opened sofar opens _
    obtain ⟨rfl, -⟩ := List.nil_eq_append_iff.mp split
    exact ⟨opened, by simpa using opens⟩
  | plain free _ ih =>
    refine ih.step fun opened fits => ?_
    have code : InCode opened := ⟨fits⟩
    exact .plain free
  | text _ ih =>
    refine ih.step fun opened fits => ?_
    cases opened with
    | nil => cases fits
    | cons o opened => cases o <;> first | exact .text | cases fits
  | group o within _ inInner inRest => exact .group within inInner inRest

end Places

/-- The modes that the lexer is in behind some open delimiters. -/
def modesIn : List Opening → List Mode
  | [] => []
  | .quote :: opened => .template :: modesIn opened
  | .interpolation :: opened => .interpolation 0 :: modesIn opened
  | .brace :: opened =>
    match modesIn opened with
    | .interpolation depth :: outer => .interpolation (depth + 1) :: outer
    | modes => modes
  | _ :: opened => modesIn opened

/-- The region that the lexer is in. -/
def Modes.region (modes : Modes) : Region :=
  match modes.stack with
  | .template :: _ => .template
  | _ => .code

section Lexing

variable {modes : Modes} {region : Region} {kind : TokenKind} {word : List TokenKind}

theorem Modes.stack_of_template (inside : modes.region = .template) :
    ∃ outer, modes.stack = .template :: outer := by
  obtain ⟨stack, comment⟩ := modes
  rcases stack with _ | ⟨_ | depth, outer⟩
  · cases inside
  · exact ⟨outer, rfl⟩
  · cases inside

theorem Modes.code_of_stack (free : ∀ outer, modes.stack = .template :: outer → False) :
    modes.region = .code := by
  cases region : modes.region with
  | code => rfl
  | template =>
    obtain ⟨outer, inside⟩ := Modes.stack_of_template region
    exact (free outer inside).elim

/-- A token of no strict kind changes nothing in the lexer's stack. -/
theorem Modes.after_plain (code : modes.region = .code) (free : kind ∉ strictKinds) :
    (modes.after kind).stack = modes.stack := by
  obtain ⟨stack, comment⟩ := modes
  unfold Modes.after
  split <;> simp_all [Modes.region, strictKinds]

theorem Modes.after_text (inside : modes.region = .template) :
    (modes.after .templateText).stack = modes.stack := by
  obtain ⟨stack, comment⟩ := modes
  unfold Modes.after
  split <;> simp_all [Modes.region]

/-- Behind an opening the lexer reads what the grammar expects there: the text of a template behind
a back quote, and code behind all others. -/
theorem Modes.region_after_opener (o : Opening) (fits : modes.region = o.outside) :
    (modes.after o.opener).region = o.inside := by
  obtain ⟨stack, comment⟩ := modes
  rcases stack with _ | ⟨_ | depth, outer⟩ <;> cases o <;>
    simp_all [Modes.region, Modes.after, Opening.opener, Opening.inside, Opening.outside]

/-- A closing delimiter leads back to the modes from before its partner. -/
theorem Modes.after_closer (o : Opening) (fits : modes.region = o.outside) {modes' : Modes}
    (same : modes'.stack = (modes.after o.opener).stack) :
    (modes'.after o.closer).stack = modes.stack := by
  obtain ⟨stack, comment⟩ := modes
  rcases stack with _ | ⟨_ | depth, outer⟩ <;> cases o <;>
    simp_all [Modes.region, Modes.after, Opening.opener, Opening.closer, Opening.outside]

/-- Reading a whole word leaves the lexer in the modes that it was in before. -/
theorem Delimited.modes_after (delimited : Delimited region word)
    (fits : modes.region = region) : (word.foldl Modes.after modes).stack = modes.stack := by
  induction delimited using byGroups generalizing modes with
  | nil => rfl
  | plain free _ ih =>
    have kept := Modes.after_plain fits free
    rw [List.foldl_cons, ih (by rw [Modes.region, kept]; exact fits), kept]
  | text _ ih =>
    have kept := Modes.after_text fits
    rw [List.foldl_cons, ih (by rw [Modes.region, kept]; exact fits), kept]
  | group o _ _ inInner inRest =>
    rw [List.cons_append, List.foldl_cons, List.foldl_append, List.foldl_cons]
    have within := inInner (Modes.region_after_opener o fits)
    have behind := Modes.after_closer o fits within
    rw [inRest (by rw [Modes.region, behind]; exact fits), behind]

/-- An opening pushes onto the lexer's stack what the grammar opens. -/
theorem Modes.after_opener (o : Opening) {opened : List Opening}
    (atStack : modes.stack = modesIn opened) (fits : modes.region = o.outside) :
    (modes.after o.opener).stack = modesIn (o :: opened) := by
  obtain ⟨stack, comment⟩ := modes
  cases o <;> rcases stack with _ | ⟨_ | depth, outer⟩ <;>
    simp_all [Modes.region, Modes.after, Opening.opener, Opening.outside, modesIn, ← atStack]

/-- Where some delimiters are open, the lexer is in exactly their modes. -/
theorem Opens.lexer_modes {opened : List Opening} (opens : Opens opened word) :
    (word.foldl Modes.after {}).stack = modesIn opened ∧
      (word.foldl Modes.after {}).region = regionIn opened := by
  induction opens with
  | whole delimited =>
    have kept : (_ : Modes).stack = Modes.stack {} := delimited.modes_after rfl
    exact ⟨kept, by rw [Modes.region, kept]; rfl⟩
  | @within o opened word inner _ fits delimited ih =>
    obtain ⟨atStack, atRegion⟩ := ih
    rw [fits] at atRegion
    have entered := Modes.region_after_opener o atRegion
    have kept := delimited.modes_after entered
    rw [List.foldl_append, List.foldl_cons]
    refine ⟨kept.trans (Modes.after_opener o atStack atRegion), ?_⟩
    rw [Modes.region, kept]
    exact entered

end Lexing

end ScriptFront.Script
