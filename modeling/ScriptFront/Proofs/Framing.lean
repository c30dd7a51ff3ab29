import ScriptFront.Proofs.Comments
import ScriptFront.Proofs.Munch
import ScriptFront.Proofs.Template.Spelling

namespace ScriptFront

namespace LexRule.Reach

variable {σ κ : Type} {rule : LexRule σ κ} {source : String} {before back : List (Token κ)}
  {token : Token κ} {state : σ} {cursor : Cursor}

/-- The last token was read at a place that was reached without it. -/
theorem last (reach : rule.Reach source (before ++ [token]) state cursor) :
    ∃ state' cursor', rule.Reach source before state' cursor' ∧ cursor'.rest ≠ [] ∧
      rule.step (state', cursor') = .ok token (state, cursor) := by
  generalize whole : before ++ [token] = taken at reach
  cases reach with
  | start => simp at whole
  | next previous more step =>
    obtain ⟨rfl, same⟩ := List.append_inj' whole rfl
    obtain rfl := List.singleton_inj.mp same
    exact ⟨_, _, previous, more, step⟩

/-- Tokens reached were reached one after the other, so every front of them was reached as well. -/
theorem front (reach : rule.Reach source (before ++ back) state cursor) :
    ∃ state' cursor', rule.Reach source before state' cursor' := by
  induction back using List.reverseRecOn generalizing state cursor with
  | nil => exact ⟨state, cursor, by rwa [List.append_nil] at reach⟩
  | append_singleton back token ih =>
    rw [← List.append_assoc] at reach
    obtain ⟨_, _, previous, -⟩ := reach.last
    exact ih previous

/-- Between two tokens that it reads, the rule is at a place that it reaches, and there it
reads the second one. -/
theorem between (reach : rule.Reach source (before ++ back) state cursor) :
    ∃ state' cursor', rule.Reach source before state' cursor' ∧
      ∀ next ∈ back.head?, cursor'.rest ≠ [] ∧
        ∃ state'' cursor'', rule.step (state', cursor') = .ok next (state'', cursor'') := by
  cases back with
  | nil =>
    obtain ⟨state', cursor', reached⟩ := reach.front
    exact ⟨state', cursor', reached, by simp⟩
  | cons next back =>
    rw [List.append_cons] at reach
    obtain ⟨state'', cursor'', reached⟩ := reach.front
    obtain ⟨state', cursor', previous, more, step⟩ := reached.last
    refine ⟨state', cursor', previous, fun other first => ?_⟩
    obtain rfl : next = other := Option.some.inj first
    exact ⟨more, state'', cursor'', step⟩

end LexRule.Reach

namespace Script

/-- Templates and interpolations stand in each other by turns, and a template is outermost. -/
inductive Alternating : List Mode → Prop
  | outside : Alternating []
  | outermost : Alternating [.template]
  | interpolation {depth outer} : Alternating (.template :: outer) →
      Alternating (.interpolation depth :: .template :: outer)
  | template {depth outer} : Alternating (.interpolation depth :: outer) →
      Alternating (.template :: .interpolation depth :: outer)

section Alternation

variable {modes : Modes} {mode : Mode} {outer : List Mode} {depth : Nat} {kind : TokenKind}

theorem Alternating.tail (alternating : Alternating (mode :: outer)) : Alternating outer := by
  cases alternating with
  | outermost => exact .outside
  | interpolation inside => exact inside
  | template inside => exact inside

/-- The depth of braces of an interpolation has no part in what may be open around it. -/
theorem Alternating.recount (alternating : Alternating (.interpolation depth :: outer))
    (depth' : Nat) : Alternating (.interpolation depth' :: outer) := by
  cases alternating with
  | interpolation inside => exact .interpolation inside

/-- A template may open wherever a template is not innermost: at code and in an interpolation. -/
theorem Alternating.enter (alternating : Alternating outer)
    (code : ∀ inner, outer = .template :: inner → False) : Alternating (.template :: outer) := by
  cases alternating with
  | outside => exact .outermost
  | outermost => exact (code _ rfl).elim
  | interpolation inside => exact .template (.interpolation inside)
  | template inside => exact (code _ rfl).elim

/-- No token brings a template into a template or an interpolation into an interpolation. -/
theorem Alternating.after (alternating : Alternating modes.stack) (kind : TokenKind) :
    Alternating (modes.after kind).stack := by
  unfold Modes.after
  generalize modes.stack = stack at alternating
  split
  · exact alternating.tail
  · exact .interpolation alternating
  · exact alternating
  · exact alternating.recount _
  · exact alternating.tail
  · exact alternating.recount _
  · -- A mark in code, the one token that begins a template.
    rename_i code
    exact alternating.enter code
  all_goals exact alternating

end Alternation

section Scans

variable {modes : Modes} {cs : List Char} {lexeme : Lexeme TokenKind} {length : Nat}
  {kind : TokenKind}

/-- What is found is the body of a pending comment, or else belongs to the region. -/
theorem Modes.scan_cases (found : modes.scan cs = .lexeme lexeme length) :
    (∃ style, modes.comment = some style ∧ lexeme.kind = .commentText ∧
      length = style.bodyLength cs) ∨
    (modes.region = .template ∧ scanTemplate cs = .lexeme lexeme length) ∨
    (modes.region = .code ∧ scanCode cs = .lexeme lexeme length) := by
  revert found
  refine Modes.scan_induct (P := fun scan => scan = .lexeme lexeme length → _)
    (fun style pending _ found => ?_) (fun outer atStack found => ?_) fun free found => ?_
  · cases found
    exact .inl ⟨style, pending, rfl, rfl⟩
  · exact .inr (.inl ⟨by rw [Modes.region, atStack], found⟩)
  · exact .inr (.inr ⟨Modes.code_of_stack free, found⟩)

/-- In a template there is its end or an interpolation, and text where neither begins. -/
theorem scanTemplate_cases (found : scanTemplate cs = .lexeme lexeme length) :
    lexeme.kind ∈ [.backQuote, .openTemplate] ∨
      lexeme.kind = .templateText ∧ length = templateTextLength cs ∧ ¬ TextEnds cs := by
  unfold scanTemplate at found
  split at found
  · cases found
    exact .inl (by decide)
  rename_i noQuote
  split at found
  · cases found
    exact .inl (by decide)
  rename_i noOpening
  cases found
  refine .inr ⟨rfl, rfl, ?_⟩
  rintro (⟨rest, rfl⟩ | ⟨rest, rfl⟩)
  · exact noQuote rfl
  · exact noOpening rfl

/-- Code has no text in it. -/
theorem scanCode_noText (found : scanCode cs = .lexeme lexeme length) :
    lexeme.kind ∉ textKinds := by
  cases cs with
  | nil =>
    cases found
    decide
  | cons c cs =>
    rw [scanCode] at found
    split at found
    · obtain ⟨shorter, inner, -⟩ := Scan.lexeme_of_later found
      rw [(scanString_lexeme inner).1]
      decide
    split at found
    · cases found
      decide
    split at found
    · cases found
      exact wordKind_induct (· ∉ textKinds) (by decide) (by decide) _
    split at found
    · cases found
      decide
    unfold scanPunctuator at found
    split at found
    · rename_i entry
      cases found
      have all : ∀ entry ∈ punctuators, entry.2.kind ∉ textKinds := by decide
      exact all _ (List.mem_of_find?_eq_some entry)
    · cases found
      decide

/-- Template text goes up to its end, or to that of the source. -/
theorem templateTextLength_ends (cs : List Char) :
    cs.drop (templateTextLength cs) = [] ∨ TextEnds (cs.drop (templateTextLength cs)) := by
  fun_induction templateTextLength cs with
  | case1 => exact .inl rfl
  | case2 c cs stops =>
    rcases stops with rfl | ⟨rfl, brace⟩
    · exact .inr (.inl ⟨cs, rfl⟩)
    · obtain ⟨rest, rfl⟩ := List.head?_eq_some_iff.mp brace
      exact .inr (.inr ⟨rest, rfl⟩)
  | case3 => exact .inl rfl
  | case4 escaped cs _ ih => exact ih
  | case5 c cs _ _ ih => exact ih

/-- So does the body of a comment. -/
theorem CommentStyle.bodyLength_ends (style : CommentStyle) (cs : List Char) :
    cs.drop (style.bodyLength cs) = [] ∨
      style.closer.text.toList <+: cs.drop (style.bodyLength cs) := by
  cases style with
  | line =>
    induction cs with
    | nil => exact .inl rfl
    | cons c cs ih =>
      by_cases feed : c = '\n'
      · subst feed
        exact .inr ⟨cs, rfl⟩
      · have goesOn : line.bodyLength (c :: cs) = line.bodyLength cs + 1 := by
          simp [bodyLength, feed]
        rwa [goesOn, List.drop_succ_cons]
  | block =>
    induction cs with
    | nil => exact .inl rfl
    | cons c cs ih =>
      rw [bodyLength]
      split
      · rename_i closes
        obtain ⟨rest, rfl⟩ := List.head?_eq_some_iff.mp closes.2
        rw [closes.1]
        exact .inr ⟨rest, rfl⟩
      · exact ih

/-- Template text comes from the region of a template only, is as long as the text goes and not
empty. -/
theorem Modes.scan_templateText (found : modes.scan cs = .lexeme lexeme length)
    (isText : lexeme.kind = .templateText) :
    modes.region = .template ∧ length = templateTextLength cs ∧ ¬ TextEnds cs := by
  rcases Modes.scan_cases found with ⟨-, -, isComment, -⟩ | ⟨inside, behind⟩ | ⟨-, behind⟩
  · cases isText.symm.trans isComment
  · rcases scanTemplate_cases behind with mark | ⟨-, taken, goesOn⟩
    · simp [isText] at mark
    · exact ⟨inside, taken, goesOn⟩
  · exact absurd (by simp [isText, textKinds]) (scanCode_noText behind)

/-- The text of a comment comes from behind an opener only, and is the whole body of its style. -/
theorem Modes.scan_commentText (found : modes.scan cs = .lexeme lexeme length)
    (isText : lexeme.kind = .commentText) :
    ∃ style, modes.comment = some style ∧ length = style.bodyLength cs := by
  rcases Modes.scan_cases found with ⟨style, pending, -, taken⟩ | ⟨-, behind⟩ | ⟨-, behind⟩
  · exact ⟨style, pending, taken⟩
  · rcases scanTemplate_cases behind with mark | ⟨other, -⟩
    · simp [isText] at mark
    · cases isText.symm.trans other
  · exact absurd (by simp [isText, textKinds]) (scanCode_noText behind)

/-- Code becomes the text of a template behind a mark, which begins one, and behind a brace,
which ends an interpolation. -/
theorem Modes.entered (inside : (modes.after kind).region = .template) :
    kind ∈ [.backQuote, .closeBrace] ∨ modes.region = .template ∧ kind ≠ .openTemplate := by
  have outside {stack : List Mode} {comment : Option CommentStyle}
      (free : ∀ outer, stack = .template :: outer → False) :
      (Modes.mk stack comment).region ≠ .template := by
    rw [Modes.code_of_stack free]
    decide
  unfold after at inside
  split at inside
  case h_1 => exact .inl (by decide)
  case h_2 => cases inside
  case h_3 atStack _ noOpening => exact .inr ⟨by rw [Modes.region, atStack], noOpening⟩
  case h_4 => cases inside
  case h_5 => exact .inl (by decide)
  case h_6 => cases inside
  case h_7 => exact .inl (by decide)
  case h_8 free => exact absurd inside (outside free)
  case h_9 free => exact absurd inside (outside free)
  case h_10 free _ _ _ _ _ => exact absurd inside (outside free)

end Scans

section Reaching

variable {source : String} {ts before after : List (Token TokenKind)} {text : Token TokenKind}
  {modes : Modes} {cursor : Cursor}

/-- The modes that the lexer can be in behind some tokens. A pending comment is known to stand right
behind its opener and outside the text of templates, which is all that ties the modes to the tokens.
-/
structure Orderly (ts : List (Token TokenKind)) (modes : Modes) : Prop where
  alternating : Alternating modes.stack
  opener : ∀ style, modes.comment = some style → ∃ last ∈ ts.getLast?, last.kind = style.opener.kind
  code : modes.comment ≠ none → modes.region = .code

/-- One more token keeps the modes orderly: if a comment is pending behind it, then this very token
opened it, which happens at code only. -/
theorem Orderly.next (orderly : Orderly ts modes) (token : Token TokenKind) :
    Orderly (ts ++ [token]) (modes.after token.kind) where
  alternating := orderly.alternating.after token.kind
  opener style pending := ⟨token, by simp, (Modes.pending_after pending).1⟩
  code pending := by
    obtain ⟨style, pending⟩ := Option.ne_none_iff_exists'.mp pending
    exact (Modes.pending_after pending).2

/-- Where no comment is pending, only the templates matter. -/
theorem Orderly.calm {stack : List Mode} (alternating : Alternating stack)
    (ts : List (Token TokenKind)) : Orderly ts { stack } where
  alternating := alternating
  opener := by simp
  code := by simp

/-- Every run is orderly, since each step changes the modes by the kind of the token that it found.
-/
theorem reach_orderly (reach : lexRule.Reach source ts modes cursor) : Orderly ts modes := by
  induction reach with
  | start => exact .calm .outside []
  | @next ts modes cursor token modes' cursor' previous more step ih =>
    obtain ⟨length, -, -, -, rfl, -⟩ := lexRule_step more step
    exact ih.next token

/-- No comment is pending in a template. -/
theorem Orderly.scan_template (orderly : Orderly ts modes) (inside : modes.region = .template)
    (cs : List Char) : modes.scan cs = scanTemplate cs := by
  have calm : modes.comment = none := by
    by_contra pending
    have code := orderly.code pending
    rw [inside] at code
    cases code
  obtain ⟨outer, atStack⟩ := Modes.stack_of_template inside
  simp only [Modes.scan, calm, Modes.scanBehindComment, atStack]

/-- A template goes on behind a mark or a brace, or else its text has just ended. -/
theorem reach_template (reach : lexRule.Reach source ts modes cursor)
    (inside : modes.region = .template) :
    (∃ last ∈ ts.getLast?, last.kind ∈ [.backQuote, .closeBrace]) ∨
      cursor.rest = [] ∨ TextEnds cursor.rest := by
  cases reach with
  | start => cases inside
  | @next ts modes cursor token _ _ previous more step =>
    obtain ⟨length, -, found, -, rfl, rfl⟩ := lexRule_step more step
    rcases Modes.entered inside with mark | ⟨around, noOpening⟩
    · exact .inl ⟨token, by simp, mark⟩
    rw [(reach_orderly previous).scan_template around] at found
    rcases scanTemplate_cases found with mark | ⟨-, rfl, -⟩
    · have closes : token.kind = .backQuote := by simpa [noOpening] using mark
      exact .inl ⟨token, by simp, by simp [closes]⟩
    · rw [Cursor.rest_advanceBy]
      exact .inr (templateTextLength_ends cursor.rest)

/-- The last token is what the lexer found where it had come to without it. -/
theorem reach_last (reach : lexRule.Reach source (before ++ [text]) modes cursor) :
    ∃ modes' cursor' length, lexRule.Reach source before modes' cursor' ∧ cursor'.rest ≠ [] ∧
      modes'.scan cursor'.rest = .lexeme text.toLexeme length ∧
      text.text = String.ofList (cursor'.rest.take length) ∧ modes = modes'.after text.kind ∧
      cursor.rest = cursor'.rest.drop length := by
  obtain ⟨modes', cursor', previous, more, step⟩ := reach.last
  obtain ⟨length, -, found, spelled, after, rfl⟩ := lexRule_step more step
  exact ⟨modes', cursor', length, previous, more, found, spelled, after, cursor'.rest_advanceBy length⟩

/-- Template text is read in front of none, up to where none can follow. -/
theorem reach_templateText (reach : lexRule.Reach source (before ++ [text]) modes cursor)
    (isText : text.kind = .templateText) :
    (∃ last ∈ before.getLast?, last.kind ∈ [.backQuote, .closeBrace]) ∧
      modes.region = .template ∧ (cursor.rest = [] ∨ TextEnds cursor.rest) := by
  obtain ⟨modes', cursor', length, previous, more, found, -, rfl, behind⟩ := reach_last reach
  obtain ⟨around, rfl, goesOn⟩ := Modes.scan_templateText found isText
  refine ⟨?_, ?_, ?_⟩
  · rcases reach_template previous around with mark | ended | ends
    · exact mark
    · exact absurd ended more
    · exact absurd ends goesOn
  · rw [isText, Modes.region, Modes.after_text around]
    exact around
  · rw [behind]
    exact templateTextLength_ends cursor'.rest

/-- The body of a comment is read behind its opener, up to its end. -/
theorem reach_commentText (reach : lexRule.Reach source (before ++ [text]) modes cursor)
    (isText : text.kind = .commentText) :
    ∃ style : CommentStyle, (∃ last ∈ before.getLast?, last.kind = style.opener.kind) ∧
      modes.region = .code ∧ modes.comment = none ∧
      (cursor.rest = [] ∨ style.closer.text.toList <+: cursor.rest) := by
  obtain ⟨modes', cursor', length, previous, more, found, -, rfl, behind⟩ := reach_last reach
  obtain ⟨style, pending, rfl⟩ := Modes.scan_commentText found isText
  have orderly := reach_orderly previous
  have code := orderly.code (by simp [pending])
  refine ⟨style, orderly.opener style pending, ?_, ?_, ?_⟩
  · rw [isText, Modes.region, Modes.after_plain code (by decide)]
    exact code
  · rw [isText]
    by_contra other
    obtain ⟨style, other⟩ := Option.ne_none_iff_exists'.mp other
    cases style <;> cases (Modes.pending_after other).1
  · rw [behind]
    exact style.bodyLength_ends cursor'.rest

/-- The last of the tokens before a place is of one of some kinds, and the first one behind it
is of one of others, if there is one. -/
def Between (before after : List (Token TokenKind)) (opening closing : List TokenKind) : Prop :=
  (∃ last ∈ before.getLast?, last.kind ∈ opening) ∧ ∀ next ∈ after.head?, next.kind ∈ closing

/-- The text of templates and of comments stands between the marks that set it off. Text that
has no end goes on to the end of the source. -/
structure Framed (ts : List (Token TokenKind)) : Prop where
  template : ∀ before text after, ts = before ++ text :: after → text.kind = .templateText →
    Between before after [.backQuote, .closeBrace] [.backQuote, .openTemplate]
  comment : ∀ before text after, ts = before ++ text :: after → text.kind = .commentText →
    Between before after [.slashAsterisk] [.asteriskSlash] ∨
      Between before after [.doubleSlash] [.lineBreak]

/-- The text of a template stands between the marks of one and the text of a comment between its
opener and its closer, which are missing only at the end of the source. What stands in front is
known from the step that found the text, and what stands behind from the place at which the next
token is read. -/
theorem reach_framed (reach : lexRule.Reach source ts modes cursor) : Framed ts where
  template before text after split isText := by
    rw [split, List.append_cons] at reach
    -- The place right behind the text, at which the next token is read.
    obtain ⟨modes', cursor', reached, further⟩ := reach.between
    obtain ⟨behind, inside, ends⟩ := reach_templateText reached isText
    refine ⟨behind, fun next ahead => ?_⟩
    obtain ⟨more, modes'', cursor'', step⟩ := further next ahead
    obtain ⟨length, -, found, -⟩ := lexRule_step more step
    rw [(reach_orderly reached).scan_template inside] at found
    rcases scanTemplate_cases found with mark | ⟨-, -, goesOn⟩
    · exact mark
    · exact absurd (ends.resolve_left more) goesOn
  comment before text after split isText := by
    rw [split, List.append_cons] at reach
    obtain ⟨modes', cursor', reached, further⟩ := reach.between
    obtain ⟨style, ⟨last, isLast, opens⟩, code, calm, ends⟩ := reach_commentText reached isText
    have closes (next : Token TokenKind) (ahead : next ∈ after.head?) :
        next.kind = style.closer.kind := by
      obtain ⟨more, modes'', cursor'', step⟩ := further next ahead
      obtain ⟨length, -, found, -⟩ := lexRule_step more step
      obtain ⟨rest, begins⟩ := ends.resolve_left more
      have closer := style.closer_scan code (.inl calm) rest
      rw [begins, found] at closer
      exact congrArg Lexeme.kind (Scan.lexeme.inj closer).1
    cases style with
    | block =>
      exact .inl ⟨⟨last, isLast, by simp [opens, CommentStyle.opener]⟩, fun next ahead => by
        simp [closes next ahead, CommentStyle.closer]⟩
    | line =>
      exact .inr ⟨⟨last, isLast, by simp [opens, CommentStyle.opener]⟩, fun next ahead => by
        simp [closes next ahead, CommentStyle.closer, newLine]⟩

/-- What a reading has moved stands some characters further on, so that the guard against one that
takes none sees a new place. Both are said, since the guard compares offsets only. -/
structure Advances (cursor moved : Cursor) : Prop where
  further : ∃ n, 0 < n ∧ n ≤ cursor.rest.length ∧ moved = cursor.advanceBy n
  unguarded : moved.position.offset ≠ cursor.position.offset

theorem Advances.advanceBy {n : Nat} (some : 0 < n) (within : n ≤ cursor.rest.length) :
    Advances cursor (cursor.advanceBy n) where
  further := ⟨n, some, within, rfl⟩
  unguarded := by
    rw [Cursor.offset_advanceBy within]
    omega

/-- Every reading goes over a character, one that fails as well. -/
theorem read_advances (modes : Modes) (more : cursor.rest ≠ []) :
    Advances cursor (leaves (lexRule.read (modes, cursor))).2 := by
  obtain ⟨c, cs, ahead⟩ := List.exists_cons_of_ne_nil more
  have fits := modes.scan_fits c cs
  have positive := List.length_pos_iff.mpr more
  rw [← ahead] at fits
  rw [lexRule_read modes more]
  cases found : modes.scan cursor.rest with
  | lexeme lexeme length =>
    rw [found] at fits
    exact .advanceBy fits.1 fits.2
  | unterminated => exact .advanceBy positive (Nat.le_refl _)
  | escapeAtEnd before => exact .advanceBy positive (Nat.le_refl _)

/-- A string without an end leaves no comment pending, and the templates around it as they are. -/
theorem Orderly.failed (orderly : Orderly ts modes) (more : cursor.rest ≠ []) {e : LexError}
    {left : Modes × Cursor} (read : lexRule.read (modes, cursor) = .error e left) :
    Orderly ts left.1 := by
  rw [(lexRule_error more read).1]
  exact .calm orderly.alternating ts

end Reaching

/-- Wherever the lexer comes to in a source, templates and interpolations alternate, a comment
is pending only behind its opener and outside the text of templates, and the next reading goes
over a character, so that it is never moved by force; one that fails keeps that order too. What
the lexer has read by then has all text of templates and comments between its marks. -/
theorem lexRule_orderly (source : String) :
    (∀ ts modes cursor, lexRule.Reach source ts modes cursor →
      Orderly ts modes ∧ Framed ts ∧ (cursor.rest ≠ [] →
        Advances cursor (leaves (lexRule.read (modes, cursor))).2 ∧
          ∀ e left, lexRule.read (modes, cursor) = .error e left → Orderly ts left.1)) ∧
      ∀ ts, tokenize source = .ok ts → Framed ts := by
  refine ⟨fun ts modes cursor reach => ?_, fun ts run => ?_⟩
  · have orderly := reach_orderly reach
    exact ⟨orderly, reach_framed reach, fun more =>
      ⟨read_advances modes more, fun _ _ => orderly.failed more⟩⟩
  · obtain ⟨modes, cursor, reach, -⟩ := (LexRule.tokenize_run lexRule source).reaches .start run
    exact reach_framed reach

/-- A comment in an interpolation between two texts, and a string without an end where the
lexer is in the same modes. -/
theorem lexRule_orderly_interpolation :
    (∃ ts, tokenize "\x60a$\x7b/*b*/c\x7dd\x60" = .ok ts ∧
      ts.map (·.kind) = [.backQuote, .templateText, .openTemplate, .slashAsterisk, .commentText,
        .asteriskSlash, .identifier, .closeBrace, .templateText, .backQuote] ∧ Framed ts) ∧
    ∃ ts modes cursor left, lexRule.Reach "\x60a$\x7b//\n'c" ts modes cursor ∧
      cursor.rest ≠ [] ∧
      lexRule.read (modes, cursor) = .error (.unterminatedString ⟨2, 1, 7⟩) left ∧
      Orderly ts modes ∧ Framed ts ∧ Advances cursor left.2 ∧ Orderly ts left.1 := by
  constructor
  · have listed : (tokenize "\x60a$\x7b/*b*/c\x7dd\x60").map (·.map (·.kind)) =
        .ok [.backQuote, .templateText, .openTemplate, .slashAsterisk, .commentText,
          .asteriskSlash, .identifier, .closeBrace, .templateText, .backQuote] := by decide +kernel
    cases run : tokenize "\x60a$\x7b/*b*/c\x7dd\x60" with
    | error e =>
      rw [run] at listed
      cases listed
    | ok ts =>
      rw [run] at listed
      exact ⟨ts, rfl, Except.ok.inj listed, (lexRule_orderly _).2 ts run⟩
  · have failed : tokenize "\x60a$\x7b//\n'c" = .error (.unterminatedString ⟨2, 1, 7⟩) := by
      decide +kernel
    obtain ⟨ts, modes, cursor, left, reach, more, read⟩ :=
      (LexRule.tokenize_run lexRule "\x60a$\x7b//\n'c").fails .start failed
    obtain ⟨orderly, framed, goesOn⟩ := (lexRule_orderly _).1 ts modes cursor reach
    obtain ⟨advances, failed⟩ := goesOn more
    rw [read] at advances
    exact ⟨ts, modes, cursor, left, reach, more, read, orderly, framed, advances,
      failed _ _ read⟩

end Script

end ScriptFront
