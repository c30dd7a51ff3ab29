import ScriptFront.Proofs.Derivation.Steps

namespace ScriptFront.Script

open ScriptFront.Parser

variable {origin rest : List (Token TokenKind)} {so : Stretch}

/-- A name is the text of one token, which may be a reserved word where any word is allowed. -/
theorem nameText_yields (anyWord : Bool) :
    Yields origin so rest (nameText anyWord) fun symbol s =>
      ∃ token, NameToken token ∧ symbol = token.text ∧ s = so ++ ⟨[token], false⟩ := by
  have taken (p : Rule (Token TokenKind))
      (word : Yields origin so rest p fun token s => NameToken token ∧ s = so ++ ⟨[token], false⟩) :
      Yields origin so rest (do let token ← p; return token.text) fun symbol s =>
        ∃ token, NameToken token ∧ symbol = token.text ∧ s = so ++ ⟨[token], false⟩ := by
    apply word.bind
    rintro token s left ⟨isName, rfl⟩
    exact yields_pure ⟨token, isName, rfl, rfl⟩
  cases anyWord with
  | true =>
    apply taken
    apply yields_if (fun rest => rest.head?.any (·.hasTag .word)) fun _ => rfl
    · intro tagged
      rw [← bind_pure consume]
      apply yields_consume
      rintro token left rfl
      exact yields_pure ⟨Or.inr tagged, rfl⟩
    · intro _
      exact yields_complain .word
  | false =>
    apply taken
    rw [← bind_pure (expect _ _)]
    apply yields_expect
    intro token left ofKind
    exact yields_pure ⟨Or.inl ofKind, rfl⟩

section Code

variable (base : List Opening) [code : InCode base]
include code

/-- A leaf of one of the constructs in question. -/
theorem leaf_makes {c : Construct} (typed : Construct → Bool) (leaf : Leaf .code so.tokens c)
    (unmarked : so.marks = false) (ofSort : typed c = true) :
    Yields origin so rest (makeNode origin.length c : Rule Tree) fun t s =>
      Derives base base s [t] ∧ typed t.kind = true :=
  (leaf_yields code.region leaf unmarked).mono fun _ _ ⟨made, same⟩ => ⟨made, same ▸ ofSort⟩

end Code

/-- A name is a leaf of one token, and a private name one of two. -/
theorem anyName_makes (anyWord : Bool) :
    MakesTree rest (anyName anyWord) Construct.isIdentifier := by
  intro base code origin
  apply yields_start
  apply yields_accept
  · intro hash left ofHash
    apply (nameText_yields anyWord).bind
    rintro _ _ left ⟨token, isName, rfl, rfl⟩
    exact leaf_makes base _ (.privateName ofHash isName) rfl rfl
  · apply (nameText_yields anyWord).bind
    rintro _ _ left ⟨token, isName, rfl, rfl⟩
    exact leaf_makes base _ (.name isName) rfl rfl

theorem plainName_makes : MakesTree rest plainName Construct.isIdentifier := by
  intro base code origin
  apply yields_start
  apply (nameText_yields false).bind
  rintro _ _ left ⟨token, isName, rfl, rfl⟩
  exact leaf_makes base _ (.name isName) rfl rfl

/-- A string is a leaf with its spelling as it is and its value with the escapes read. -/
theorem stringLiteral_makes : MakesTree rest stringLiteral Construct.isStringLiteral := by
  intro base code origin
  apply yields_start
  apply yields_expect
  intro token left ofKind
  exact leaf_makes base _ (.string ofKind) rfl rfl

/-- Digits are a leaf if they can be read as a number. Otherwise the rule fails, and nothing is
promised. -/
theorem numericNode_makes {raw : String} {float : Bool} (base : List Opening) [InCode base]
    (leaf : ∀ value, Double.read? raw = some value →
      Leaf .code so.tokens (.numericLiteral value raw float)) (unmarked : so.marks = false) :
    Yields origin so rest
      (match Double.read? raw with
        | some value => makeNode origin.length (.numericLiteral value raw float)
        | none => complain .numericLiteral : Rule Tree) fun t s =>
      Derives base base s [t] ∧ t.kind.isKey false = true := by
  cases read : Double.read? raw with
  | some value => exact leaf_makes base _ (leaf value read) unmarked rfl
  | none => exact yields_complain _

/-- A number is a leaf of one token, or of three with a period between them. -/
theorem numericLiteral_makes : MakesTree rest numericLiteral (Construct.isKey false) := by
  intro base code origin
  apply yields_start
  apply yields_expect
  intro whole left ofWhole
  apply yields_accept
  · intro period left ofPeriod
    apply yields_expect
    intro fraction left ofFraction
    rw [pure_bind]
    exact numericNode_makes base (fun value read => .decimal ofWhole ofPeriod ofFraction read) rfl
  · rw [if_neg Bool.false_ne_true, pure_bind]
    exact numericNode_makes base (fun value read => .whole ofWhole read) rfl

/-- The text of a regular expression is that of the tokens in it; a star that was one token
with the closing slash is part of the text. -/
def RegExpText (so : Stretch) (found : String × Bool) (s : Stretch) : Prop :=
  ∃ body, (found = (String.ofList (Token.spelled body), false) ∧ s = so ++ ⟨body, false⟩) ∨
    ∃ closer, closer.kind = .asteriskSlash ∧
      found = (String.ofList (Token.spelled body) ++ "*", true) ∧
      s = so ++ ⟨body ++ [closer], false⟩

/-- Tokens in front of a text belong to it. -/
theorem regExpText_front {p : Rule (String × Bool)} (front : List (Token TokenKind))
    {text : String} (spelled : text = String.ofList (Token.spelled front))
    (others : Yields origin (so ++ ⟨front, false⟩) rest p (RegExpText (so ++ ⟨front, false⟩))) :
    Yields origin (so ++ ⟨front, false⟩) rest (do
      let (inner, closed) ← p
      return (text ++ inner, closed)) (RegExpText so) := by
  apply others.bind
  rintro _ _ left ⟨body, ⟨rfl, rfl⟩ | ⟨closer, ofCloser, rfl, rfl⟩⟩
  · refine yields_pure ⟨front ++ body, Or.inl ⟨?_, Stretch.append_assoc ..⟩⟩
    simp [spelled]
  · refine yields_pure ⟨front ++ body, Or.inr ⟨closer, ofCloser, ?_, ?_⟩⟩
    · simp [spelled, String.append_assoc]
    · rw [Stretch.append_assoc, List.append_assoc]
      rfl

/-- The text that is collected is the concatenation of the tokens taken. The induction is on the
budget. -/
theorem regExpText_yields (budget : Nat) :
    Yields origin so rest (regExpText budget) (RegExpText so) := by
  induction budget generalizing so rest with
  | zero => exact yields_pure ⟨[], Or.inl ⟨rfl, so.append_empty.symm⟩⟩
  | succ budget ih =>
    unfold regExpText
    apply yields_if (fun rest => rest.isEmpty || firstKind rest == some .slash) fun s => by
      simp [TokenCursor.willContinue]; rfl
    · exact fun _ => yields_pure ⟨[], Or.inl ⟨rfl, so.append_empty.symm⟩⟩
    intro _
    apply yields_consume
    rintro token left rfl
    split
    · rename_i ofKind
      exact yields_pure ⟨[], Or.inr ⟨token, ofKind, rfl, rfl⟩⟩
    · apply yields_if (fun rest => !rest.isEmpty) fun _ => rfl
      · intro _
        apply yields_consume
        rintro next left rfl
        rw [pure_bind, Stretch.append_assoc]
        exact regExpText_front [token, next] (by simp) ih
      · intro _
        rw [pure_bind]
        exact regExpText_front [token] (by simp) ih
    · exact regExpText_front [token] (by simp) ih

/-- A leaf and the layout behind it. Comments skip the layout that follows them, which is why the
tokens taken are more than those of the leaf. -/
def MadeLeaf (t : Tree) (s : Stretch) : Prop :=
  ∃ tokens gap, s = ⟨tokens ++ gap, false⟩ ∧ Leaf .code tokens t.kind ∧ Extent tokens t.span ∧
    ∀ token ∈ gap, token.isSpace = true

theorem MadeLeaf.derives (base : List Opening) [code : InCode base] {t : Tree} {s : Stretch}
    (made : MadeLeaf t s) : Derives base base s [t] := by
  obtain ⟨tokens, gap, rfl, leaf, extent, layout⟩ := made
  exact (Derives.leaf code.region leaf extent).spaces layout

theorem madeLeaf_yields {c : Construct} (leaf : Leaf .code so.tokens c) (unmarked : so.marks = false) :
    Yields origin so rest (makeNode origin.length c : Rule Tree) fun t s =>
      MadeLeaf t s ∧ t.kind = c := by
  apply (makeNode_yields origin.length c).mono
  rintro ⟨kind, span⟩ s ⟨rfl, rfl, extent⟩
  obtain ⟨tokens, marks⟩ := s
  obtain rfl : marks = false := unmarked
  exact ⟨⟨tokens, [], by simp, leaf, extent rfl, by simp⟩, rfl⟩

/-- A regular expression is a leaf over all the tokens between its slashes and its flags. It is the
one leaf of which the number of tokens is not bounded. -/
theorem regExpLiteral_yields (first : firstKind rest = some .slash) :
    Yields origin {} rest regExpLiteral fun t s => MadeLeaf t s ∧ t.kind.isRegExp = true := by
  apply yields_start
  apply yields_consume
  rintro opener left rfl
  have ofOpener : opener.kind = .slash := Option.some.inj first
  -- The flags follow the closing slash at once, whichever token that was.
  have flags {body left : List (Token TokenKind)} {closer : Token TokenKind} {pattern : String}
      (closing : closer.kind = .slash ∧ pattern = String.ofList (Token.spelled body) ∨
        closer.kind = .asteriskSlash ∧ pattern = String.ofList (Token.spelled body) ++ "*") :
      Yields origin ⟨opener :: (body ++ [closer]), false⟩ left
        (do
          let flags := (← consumeIf .identifier).map (·.text)
          makeNode origin.length
            (.regExpLiteral pattern flags ("/" ++ pattern ++ "/" ++ flags.getD "")) :
          Rule Tree) fun t s => MadeLeaf t s ∧ t.kind.isRegExp = true := by
    have node (flags : Option (Token TokenKind)) {left : List (Token TokenKind)}
        (ofFlags : ∀ token ∈ flags, token.kind = .identifier) :
        Yields origin ⟨opener :: (body ++ closer :: flags.toList), false⟩ left
          (makeNode origin.length (.regExpLiteral pattern (flags.map (·.text))
            ("/" ++ pattern ++ "/" ++ (flags.map (·.text)).getD "")) : Rule Tree) fun t s =>
          MadeLeaf t s ∧ t.kind.isRegExp = true :=
      (madeLeaf_yields (.regExp ofOpener closing ofFlags) rfl).mono
        fun _ _ ⟨made, same⟩ => ⟨made, same ▸ rfl⟩
    apply yields_consumeIf
    · intro word left ofWord
      have joined : (⟨opener :: (body ++ [closer]), false⟩ ++ ⟨[word], false⟩ : Stretch) =
          ⟨opener :: (body ++ closer :: [word]), false⟩ := by
        change Stretch.mk _ _ = _
        simp
      rw [joined]
      exact node (some word) (by simpa using ofWord)
    · exact node none (by simp)
  apply yields_observe List.length fun _ => rfl
  apply (regExpText_yields _).bind
  rintro _ _ left ⟨body, ⟨rfl, rfl⟩ | ⟨closer, ofCloser, rfl, rfl⟩⟩
  · apply yields_expect
    intro closer left ofCloser
    exact flags (Or.inl ⟨ofCloser, rfl⟩)
  · exact flags (Or.inr ⟨ofCloser, rfl⟩)

theorem regExpLiteral_makes (first : firstKind rest = some .slash) :
    MakesTree rest regExpLiteral Construct.isRegExp :=
  fun base _ _ => (regExpLiteral_yields first).mono fun _ _ ⟨made, ofSort⟩ =>
    ⟨made.derives base, ofSort⟩

/-- A comment is a leaf of its opener, its text if there is any, and its closer. -/
theorem blockComment_yields (first : firstKind rest = some .slashAsterisk) :
    Yields origin {} rest blockComment fun t s =>
      MadeLeaf t s ∧ ∃ content, t.kind = .blockComment content := by
  apply yields_start
  apply yields_consume
  rintro opener left rfl
  have ofOpener : opener.kind = .slashAsterisk := Option.some.inj first
  have comment (content : Option (Token TokenKind)) {left : List (Token TokenKind)}
      (ofContent : ∀ token ∈ content, token.kind = .commentText) :
      Yields origin ⟨opener :: content.toList, false⟩ left
        (do
          let _ ← expect .asteriskSlash .blockCommentEnd
          let comment ← makeNode origin.length (.blockComment ((content.map (·.text)).getD ""))
          trim
          return comment : Rule Tree) fun t s =>
        MadeLeaf t s ∧ ∃ content, t.kind = .blockComment content := by
    apply yields_expect
    intro closer left ofCloser
    apply (makeNode_yields origin.length _).bind
    rintro t _ left ⟨rfl, ofKind, extent⟩
    refine yields_skip Token.isSpace (fun _ => rfl) (yields_pure ⟨?_, _, ofKind⟩)
    refine ⟨_, _, rfl, ofKind ▸ .blockComment ofOpener ofContent ofCloser, extent rfl, ?_⟩
    exact fun token member => List.all_eq_true.mp List.all_takeWhile token member
  apply yields_consumeIf
  · intro content left ofContent
    exact comment (some content) (by simpa using ofContent)
  · exact comment none (by simp)

theorem blockComment_makes (first : firstKind rest = some .slashAsterisk) :
    MakesTree rest blockComment Construct.isStatement :=
  fun base _ _ => (blockComment_yields first).mono fun _ _ ⟨made, _, ofKind⟩ =>
    ⟨made.derives base, congrArg Construct.isStatement ofKind⟩

/-- A comment of one line may stand as an expression and as a statement, so the sort that is asked
for is a parameter. The line break behind it is not part of the leaf. -/
theorem lineComment_makes {typed : Construct → Bool}
    (ofSort : ∀ content, typed (.lineComment content) = true)
    (first : firstKind rest = some .doubleSlash) : MakesTree rest lineComment typed := by
  intro base code origin
  apply yields_start
  apply yields_consume
  rintro opener left rfl
  have ofOpener : opener.kind = .doubleSlash := Option.some.inj first
  have comment (content : Option (Token TokenKind)) {left : List (Token TokenKind)}
      (ofContent : ∀ token ∈ content, token.kind = .commentText) :
      Yields origin ⟨opener :: content.toList, false⟩ left
        (do
          let comment ← makeNode origin.length
            (.lineComment ((content.map (withoutReturns ·.text)).getD ""))
          if ← observe (·.willContinue) then
            let _ ← expect .lineBreak .lineCommentEnd
          trim
          return comment : Rule Tree) fun t s => Derives base base s [t] ∧ typed t.kind = true := by
    apply (leaf_makes base typed (.lineComment ofOpener ofContent) rfl (ofSort _)).bind
    rintro t s left ⟨made, ofSort⟩
    apply yields_if (fun rest => !rest.isEmpty) fun _ => rfl
    · intro _
      apply made.expect (.plain (by decide))
      intro _ s left _ made
      apply made.trim
      exact fun s left made => yields_pure ⟨made, ofSort⟩
    · intro _
      apply made.trim
      exact fun s left made => yields_pure ⟨made, ofSort⟩
  apply yields_consumeIf
  · intro content left ofContent
    exact comment (some content) (by simpa using ofContent)
  · exact comment none (by simp)

end ScriptFront.Script
