import ScriptFront.Proofs.Derivation.Yields

namespace ScriptFront.Script

open ScriptFront.Parser

variable {α β : Type} {origin rest : List (Token TokenKind)} {so : Stretch} {kind : TokenKind}
  {base opened opened' : List Opening} {trees : List Tree} {post : α → Stretch → Prop}
  {goal : β → Stretch → Prop}

/-!
The steps of a rule, each with what it makes of the derivation that the rule has got so
far: a rule is followed token by token, and the only thing that is carried along is the
derivation.
-/

attribute [simp] Construct.children Field.trees

namespace Derives

section Tokens

variable (made : Derives base opened so trees)
include made

/-- Layout that is skipped is taken into the derivation, token by token. -/
theorem trim [InCode opened] {f : Unit → Rule β}
    (next : ∀ s left, Derives base opened s trees → Yields origin s left (f ()) goal) :
    Yields origin so rest (Script.trim >>= f) goal :=
  yields_skip Token.isSpace (fun _ => rfl) <| next _ _ <|
    made.spaces fun _ member => List.all_eq_true.mp List.all_takeWhile _ member

/-- Semicolons are plain tokens, so separators can be taken into it like layout. -/
theorem trimSeparators [InCode opened] {f : Unit → Rule β}
    (next : ∀ s left, Derives base opened s trees → Yields origin s left (f ()) goal) :
    Yields origin so rest (Script.trimSeparators >>= f) goal :=
  yields_skip isSeparator (fun _ => rfl) <| next _ _ <|
    made.separators fun _ member => List.all_eq_true.mp List.all_takeWhile _ member

variable (turn : Turn opened kind opened')
include turn

/-- A token that is asked for turns the open delimiters as its kind does. -/
theorem expect {complaint : Complaint} {f : Token TokenKind → Rule β}
    (next : ∀ token s left, token.kind = kind → Derives base opened' s trees →
      Yields origin s left (f token) goal) :
    Yields origin so rest (Script.expect kind complaint >>= f) goal :=
  yields_expect fun token left ofKind => next token _ left ofKind (made.token (ofKind ▸ turn))

/-- The derivation goes on behind the token, or as it was when the token is not there. -/
theorem accept {f : Bool → Rule β}
    (yes : ∀ s left, Derives base opened' s trees → Yields origin s left (f true) goal)
    (no : Yields origin so rest (f false) goal) :
    Yields origin so rest (Parser.accept kind >>= f) goal :=
  yields_accept (fun _ left ofKind => yes _ left (made.token (ofKind ▸ turn))) no

/-- A token that is known to be there, and the layout behind it. -/
theorem eat [InCode opened'] (first : firstKind rest = some kind) {f : Token TokenKind → Rule β}
    (next : ∀ token s, token.kind = kind → Derives base opened' s trees →
      Yields origin s (rest.tail.dropWhile Token.isSpace) (f token) goal) :
    Yields origin so rest (Script.eat >>= f) goal := by
  have whole : Script.eat >>= f =
      Parser.consume >>= fun token => Script.trim >>= fun _ => f token := by
    simp [Script.eat]
  rw [whole]
  apply yields_consume
  rintro token left rfl
  have ofKind : token.kind = kind := Option.some.inj first
  exact yields_skip Token.isSpace (fun _ => rfl) <| next token _ ofKind <|
    (made.token (ofKind ▸ turn)).spaces fun _ member =>
      List.all_eq_true.mp List.all_takeWhile _ member

end Tokens

end Derives

section Nodes

/-- A rule begins with nothing made. -/
theorem yields_begin (base : List Opening) {f : Nat → Rule β}
    (next : ∀ start, Derives base base {} [] → Yields origin {} rest (f start) goal) :
    Yields origin {} rest (mark >>= f) goal :=
  yields_mark fun start => next start .nil

/-- A node over all that was taken since the rule began. -/
theorem leaf_yields {region : Region} {c : Construct} (fits : regionIn base = region)
    (leaf : Leaf region so.tokens c) (unmarked : so.marks = false) :
    Yields origin so rest (makeNode origin.length c : Rule Tree) fun t s =>
      Derives base base s [t] ∧ t.kind = c := by
  apply (makeNode_yields origin.length c).mono
  rintro ⟨kind, span⟩ s ⟨rfl, rfl, extent⟩
  obtain ⟨tokens, marks⟩ := s
  obtain rfl : marks = false := unmarked
  exact ⟨.leaf fits leaf (extent rfl), rfl⟩

/-- A node with exactly the trees in it that were made since the rule began. -/
theorem Derives.makeNode {start : Nat} {c : Construct} {post : Tree → Stretch → Prop}
    (made : Derives base base so trees) (parts : ∀ t, t ∈ c.children ↔ t ∈ trees)
    (wellFormed : c.WellFormed) (plain : (c.isLeaf || c.isModuleDeclaration) = false)
    (found : ∀ t s, t.kind = c → Derives base base s [t] → post t s) :
    Yields origin so rest (Parser.makeNode start c : Rule Tree) post := by
  apply (makeNode_yields start c).mono
  rintro ⟨kind, span⟩ s ⟨rfl, rfl, -⟩
  exact found _ _ rfl (made.node parts wellFormed plain)

/-- A node over the parts made so far closes their derivation into one tree, from which the rule
goes on. -/
theorem Derives.makeNode_bind {start : Nat} {c : Construct} {f : Tree → Rule β}
    (made : Derives base base so trees) (parts : ∀ t, t ∈ c.children ↔ t ∈ trees)
    (wellFormed : c.WellFormed) (plain : (c.isLeaf || c.isModuleDeclaration) = false)
    (next : ∀ t s left, t.kind = c → Derives base base s [t] → Yields origin s left (f t) goal) :
    Yields origin so rest ((Parser.makeNode start c : Rule Tree) >>= f) goal :=
  (made.makeNode parts wellFormed plain fun _ _ same derived => And.intro same derived).bind
    fun t s left ⟨same, derived⟩ => next t s left same derived

/-- A rule that ends by making a node makes one tree of the sort that this node is. -/
theorem yields_tree {start : Nat} {c : Construct} {typed : Construct → Bool}
    (made : Derives base base so trees) (parts : ∀ t, t ∈ c.children ↔ t ∈ trees)
    (wellFormed : c.WellFormed) (plain : (c.isLeaf || c.isModuleDeclaration) = false)
    (ofSort : typed c = true) :
    Yields origin so rest (Parser.makeNode start c : Rule Tree) fun t s =>
      Derives base base s [t] ∧ typed t.kind = true :=
  made.makeNode parts wellFormed plain fun _ _ same derived => ⟨derived, same ▸ ofSort⟩

end Nodes

section Rules

/-- Wherever code stands, the rule makes some trees out of the tokens that it takes, and
what it finds is of the right sort. -/
def Makes (rest : List (Token TokenKind)) (p : Rule α) (treesOf : α → List Tree)
    (typed : α → Prop) : Prop :=
  ∀ base [InCode base] origin, Yields origin {} rest p fun a s =>
    Derives base base s (treesOf a) ∧ typed a

/-- The rule makes one tree, of one of the constructs in question. -/
def MakesTree (rest : List (Token TokenKind)) (p : Rule Tree) (typed : Construct → Bool) : Prop :=
  Makes rest p (fun t => [t]) fun t => typed t.kind = true

variable {p : Rule α} {treesOf : α → List Tree} {typed : α → Prop} [InCode opened]

/-- What a rule makes from a fresh start it adds to what was made before. -/
theorem Makes.extends (makes : Makes rest p treesOf typed) (made : Derives base opened so trees) :
    Yields origin so rest p fun a s => Derives base opened s (trees ++ treesOf a) ∧ typed a := by
  apply (makes opened (so.tokens.reverse ++ origin)).behind.mono
  rintro a s ⟨step, rfl, derived, ofSort⟩
  exact ⟨made.append derived, ofSort⟩

/-- The step from one rule to the next: the trees of the first are at hand in the second. -/
theorem Makes.bind {f : α → Rule β} (makes : Makes rest p treesOf typed)
    (made : Derives base opened so trees)
    (next : ∀ a s left, Derives base opened s (trees ++ treesOf a) → typed a →
      Yields origin s left (f a) goal) :
    Yields origin so rest (p >>= f) goal :=
  (makes.extends made).bind fun a s left ⟨longer, ofSort⟩ => next a s left longer ofSort

end Rules

section Loops

variable {item : Rule α} {more : Rule Bool} {stop : State → Bool}
  {treesOf : α → List Tree} {typed : α → Prop}

/-- What a loop finds, when each item makes its trees and what stands between two items
makes none. -/
theorem items_yields (value : List (Token TokenKind) → Bool)
    (shows : ∀ s : State, stop s = value s.rest)
    (each : ∀ {so rest trees}, Derives base opened so trees →
      Yields origin so rest item fun a s => Derives base opened s (trees ++ treesOf a) ∧ typed a)
    (goOn : ∀ {so rest trees}, Derives base opened so trees →
      Yields origin so rest more fun _ s => Derives base opened s trees)
    (made : Derives base opened so trees) :
    Yields origin so rest (items stop item more) fun found s =>
      Derives base opened s (trees ++ found.flatMap treesOf) ∧ ∀ a ∈ found, typed a := by
  have within (budget : Nat) : ∀ {so rest trees}, Derives base opened so trees →
      Yields origin so rest (itemsWithin stop item more budget) fun found s =>
        Derives base opened s (trees ++ found.flatMap treesOf) ∧ ∀ a ∈ found, typed a := by
    induction budget with
    | zero => exact fun made => yields_pure ⟨by simpa using made, by simp⟩
    | succ budget ih =>
      intro so rest trees made
      apply yields_if (fun rest => rest.isEmpty || value rest) fun s => by
        simp [TokenCursor.willContinue, shows]
      · exact fun _ => yields_pure ⟨by simpa using made, by simp⟩
      intro _
      apply (each made).bind
      rintro first s left ⟨longer, ofSort⟩
      apply (goOn longer).bind
      intro again s left further
      apply Yields.ite
      · apply (ih further).bind
        rintro others s left ⟨all, sorts⟩
        exact yields_pure ⟨by simpa using all, List.forall_mem_cons.mpr ⟨ofSort, sorts⟩⟩
      · exact yields_pure ⟨by simpa using further, by simpa using ofSort⟩
  exact yields_observe List.length (fun _ => rfl) (within rest.length made)

variable [InCode opened]

theorem commaFollows_yields (made : Derives base opened so trees) :
    Yields origin so rest commaFollows fun _ s => Derives base opened s trees := by
  apply made.trim
  intro s left made
  apply made.accept (.plain (by decide))
  · intro s left made
    apply made.trim
    exact fun s left made => yields_pure made
  · exact yields_pure made

/-- The items of a list make their trees one after the other, and each has its sort. -/
theorem commaSeparated_yields {kinds : List TokenKind}
    (each : ∀ rest, Makes rest item treesOf typed) (made : Derives base opened so trees) :
    Yields origin so rest (commaSeparated kinds item) fun found s =>
      Derives base opened s (trees ++ found.flatMap treesOf) ∧ ∀ a ∈ found, typed a :=
  items_yields (fun rest => (firstKind rest).any (kinds.contains ·)) (fun _ => rfl)
    (fun made => (each _).extends made) commaFollows_yields made

theorem separated_yields {kinds : List TokenKind}
    (each : ∀ rest, Makes rest item treesOf typed) (made : Derives base opened so trees) :
    Yields origin so rest (separated kinds item) fun found s =>
      Derives base opened s (trees ++ found.flatMap treesOf) ∧ ∀ a ∈ found, typed a := by
  refine items_yields (fun rest => (firstKind rest).any (kinds.contains ·)) (fun _ => rfl)
    (fun made => (each _).extends made) (fun made => ?_) made
  apply made.trimSeparators
  exact fun s left made => yields_pure made

variable {each : Rule Tree} {sort : Construct → Bool} {kinds : List TokenKind}
  (one : ∀ rest, MakesTree rest each sort) (made : Derives base opened so trees)
include one made

theorem commaSeparated_trees : Yields origin so rest (commaSeparated kinds each) fun found s =>
    Derives base opened s (trees ++ found) ∧ ∀ t ∈ found, sort t.kind = true := by
  apply (commaSeparated_yields one made).mono
  rintro found s ⟨longer, sorts⟩
  exact ⟨by simpa using longer, sorts⟩

theorem separated_trees : Yields origin so rest (separated kinds each) fun found s =>
    Derives base opened s (trees ++ found) ∧ ∀ t ∈ found, sort t.kind = true := by
  apply (separated_yields one made).mono
  rintro found s ⟨longer, sorts⟩
  exact ⟨by simpa using longer, sorts⟩

end Loops

end ScriptFront.Script
