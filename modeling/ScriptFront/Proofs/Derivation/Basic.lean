import ScriptFront.Proofs.Nesting
import ScriptFront.Proofs.Shape

namespace ScriptFront.Script

/-- What a stretch of a parse has done: the tokens that it took, and whether it found that the
source is a module. Stretches are joined as the steps of a rule follow each other. -/
structure Stretch where
  tokens : List (Token TokenKind) := []
  marks : Bool := false

namespace Stretch

/-- One stretch after the other. -/
instance : Append Stretch where
  append first second := ⟨first.tokens ++ second.tokens, first.marks || second.marks⟩

@[simp] theorem tokens_append (first second : Stretch) :
    (first ++ second).tokens = first.tokens ++ second.tokens := rfl

@[simp] theorem marks_append (first second : Stretch) :
    (first ++ second).marks = (first.marks || second.marks) := rfl

@[simp] theorem append_empty (s : Stretch) : s ++ {} = s := by
  change Stretch.mk (s.tokens ++ []) (s.marks || false) = s
  simp

/-- Stretches compose in any grouping, so a rule's steps may be collected one after the other. -/
theorem append_assoc (first second third : Stretch) :
    first ++ second ++ third = first ++ (second ++ third) := by
  change Stretch.mk _ _ = Stretch.mk _ _
  simp [List.append_assoc, Bool.or_assoc]

/-- The properties behind a stretch. -/
def properties (s : Stretch) (found : Properties) : Properties :=
  if s.marks then { found with sourceType := .esm } else found

/-- What two stretches do to the properties is what the first does and then the second: a module
stays one. -/
theorem properties_append (first second : Stretch) (found : Properties) :
    (first ++ second).properties found = second.properties (first.properties found) := by
  unfold properties
  cases atFirst : first.marks <;> cases atSecond : second.marks <;> simp [atFirst, atSecond]

end Stretch

/-- The extent of some tokens, layout at either end left out; of mere layout nothing
is said. -/
def Extent (tokens : List (Token TokenKind)) (span : Span) : Prop :=
  ∀ first last, (tokens.filter (!·.isSpace)).head? = some first →
    (tokens.filter (!·.isSpace)).getLast? = some last → span = first.span.cover last.span

/-- A word that may be the text of a name. -/
def NameToken (token : Token TokenKind) : Prop :=
  token.kind = .identifier ∨ token.hasTag .word = true

/-- How the nodes without anything inside are read off their tokens. Everything that such a node
carries is a function of the texts of these tokens. -/
inductive Leaf : Region → List (Token TokenKind) → Construct → Prop
  | name {token} : NameToken token → Leaf .code [token] (.identifier token.text)
  | privateName {hash token} : hash.kind = .hash → NameToken token →
      Leaf .code [hash, token] (.privateIdentifier token.text)
  | string {token} : token.kind = .string →
      Leaf .code [token] (.stringLiteral (cook (unquoted token.text)) token.text)
  | whole {token value} : token.kind = .number → Double.read? token.text = some value →
      Leaf .code [token] (.numericLiteral value token.text false)
  | decimal {whole period fraction value} : whole.kind = .number → period.kind = .period →
      fraction.kind = .number → Double.read? (whole.text ++ "." ++ fraction.text) = some value →
      Leaf .code [whole, period, fraction]
        (.numericLiteral value (whole.text ++ "." ++ fraction.text) true)
  | regExp {opener body closer pattern} {flags : Option (Token TokenKind)} :
      opener.kind = .slash →
      closer.kind = .slash ∧ pattern = String.ofList (Token.spelled body) ∨
        closer.kind = .asteriskSlash ∧ pattern = String.ofList (Token.spelled body) ++ "*" →
      (∀ token ∈ flags, token.kind = .identifier) →
      Leaf .code (opener :: (body ++ closer :: flags.toList))
        (.regExpLiteral pattern (flags.map (·.text))
          ("/" ++ pattern ++ "/" ++ (flags.map (·.text)).getD ""))
  | blockComment {opener closer} {content : Option (Token TokenKind)} :
      opener.kind = .slashAsterisk → (∀ token ∈ content, token.kind = .commentText) →
      closer.kind = .asteriskSlash →
      Leaf .code (opener :: (content.toList ++ [closer]))
        (.blockComment ((content.map (·.text)).getD ""))
  | lineComment {opener} {content : Option (Token TokenKind)} :
      opener.kind = .doubleSlash → (∀ token ∈ content, token.kind = .commentText) →
      Leaf .code (opener :: content.toList)
        (.lineComment ((content.map (withoutReturns ·.text)).getD ""))
  | segment {token tail} : token.kind = .templateText →
      Leaf .template [token] (.templateElement token.text (cook token.text) tail)

/-- How trees come out of tokens. A stretch that starts behind the delimiters `base` and
ends behind the delimiters `opened` takes tokens one by one and holds the trees in order,
each over tokens of its own; no tree that was made is lost, since the parts of a node
are exactly the trees made on the way to it. A part of a tree may be used once more. -/
inductive Derives : List Opening → List Opening → Stretch → List Tree → Prop
  | nil {base} : Derives base base {} []
  | token {base opened opened' s trees token} : Derives base opened s trees →
      Turn opened token.kind opened' → Derives base opened' (s ++ ⟨[token], false⟩) trees
  | space {base opened s trees token} [InCode opened] : Derives base opened s trees →
      token.isSpace = true → Derives base opened (s ++ ⟨[token], false⟩) trees
  | append {base opened opened' s s' trees trees'} : Derives base opened s trees →
      Derives opened opened' s' trees' → Derives base opened' (s ++ s') (trees ++ trees')
  | leaf {base region tokens kind span} : regionIn base = region → Leaf region tokens kind →
      Extent tokens span → Derives base base ⟨tokens, false⟩ [⟨kind, span⟩]
  | node {base s trees kind span} : Derives base base s trees →
      (∀ t, t ∈ kind.children ↔ t ∈ trees) → kind.WellFormed →
      (kind.isLeaf || kind.isModuleDeclaration) = false → Derives base base s [⟨kind, span⟩]
  | module {base s trees kind span} : Derives base base s trees →
      (∀ t, t ∈ kind.children ↔ t ∈ trees) → kind.WellFormed →
      kind.isModuleDeclaration = true → Derives base base ⟨s.tokens, true⟩ [⟨kind, span⟩]
  | again {base opened s trees part whole} : Derives base opened s trees → whole ∈ trees →
      part ∈ whole.kind.children → Derives base opened s (part :: trees)

namespace Derives

variable {base opened : List Opening} {s : Stretch} {trees : List Tree}

/-- Any number of layout tokens may follow. -/
theorem spaces [InCode opened] (so : Derives base opened s trees)
    {gap : List (Token TokenKind)} (layout : ∀ token ∈ gap, token.isSpace = true) :
    Derives base opened (s ++ ⟨gap, false⟩) trees := by
  induction gap generalizing s with
  | nil => simpa using so
  | cons token gap ih =>
    obtain ⟨first, others⟩ := List.forall_mem_cons.mp layout
    have longer := ih (so.space first) others
    rwa [Stretch.append_assoc] at longer

/-- So may any number of separators. -/
theorem separators [InCode opened] (so : Derives base opened s trees)
    {gap : List (Token TokenKind)} (free : ∀ token ∈ gap, isSeparator token = true) :
    Derives base opened (s ++ ⟨gap, false⟩) trees := by
  induction gap generalizing s with
  | nil => simpa using so
  | cons token gap ih =>
    obtain ⟨first, others⟩ := List.forall_mem_cons.mp free
    have next : Derives base opened (s ++ ⟨[token], false⟩) trees := by
      rcases Bool.or_eq_true_iff.mp first with layout | semicolon
      · exact so.space layout
      · have ofKind : token.kind = .semicolon := of_decide_eq_true semicolon
        exact so.token (ofKind ▸ .plain (by decide))
    have longer := ih next others
    rwa [Stretch.append_assoc] at longer

end Derives

end ScriptFront.Script
