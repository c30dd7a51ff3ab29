import Mathlib.Data.List.DropRight
import ScriptFront.Proofs.Lockstep.Whole

namespace ScriptFront.Script

open ScriptFront.Parser

section Skipping

variable (tokens : List (Token TokenKind))

/-- Layout is skipped with the separators. -/
theorem dropWhile_isSpace_isSeparator :
    (tokens.dropWhile Token.isSpace).dropWhile isSeparator = tokens.dropWhile isSeparator := by
  induction tokens with
  | nil => rfl
  | cons token tokens ih =>
    rw [List.dropWhile_cons]
    split
    · rename_i layout
      rw [ih, List.dropWhile_cons, if_pos (isSeparator_of_isSpace layout)]
    · rfl

theorem dropWhile_isSeparator_isSpace :
    (tokens.dropWhile isSeparator).dropWhile Token.isSpace = tokens.dropWhile isSeparator := by
  induction tokens with
  | nil => rfl
  | cons token tokens ih =>
    rw [List.dropWhile_cons]
    split
    · exact ih
    · rename_i solid
      rw [List.dropWhile_cons, if_neg fun layout => solid (isSeparator_of_isSpace layout)]

/-- What stands between two statements is skipped with the separators. -/
theorem dropWhile_joint {gap semicolon : Token TokenKind} (layout : gap.isSpace = true)
    (ofKind : semicolon.kind = .semicolon) :
    (gap :: semicolon :: tokens).dropWhile isSeparator = tokens.dropWhile isSeparator := by
  rw [List.dropWhile_cons, if_pos (isSeparator_of_isSpace layout), List.dropWhile_cons,
    if_pos (by simp [isSeparator, ofKind])]

end Skipping

/-- What may stand behind some tokens without being taken for a part of them: nothing, or
a line break and a semicolon. No parenthesis from before may be closed in front of an
arrow in the tokens behind these, and no `else` may come first there. -/
inductive Tail : List (Token TokenKind) → Prop
  | none : Tail []
  | after {gap semicolon others} : gap.kind = .lineBreak → gap.isSpace = true →
      semicolon.kind = .semicolon → semicolon.isSpace = false →
      (∀ depth, arrowBehind (depth + 1) others = false) →
      firstKind (others.dropWhile isSeparator) ≠ some .kwElse → Tail (gap :: semicolon :: others)

/-- Tokens, and a copy of them in front of `ext`. The copy may have other extents, and what stands
behind it is not looked at before the original has come to its end. -/
inductive Copied (ext : List (Token TokenKind)) :
    List (Token TokenKind) → List (Token TokenKind) → Prop
  | nil : Copied ext [] ext
  | cons {x y l l'} : x.piece = y.piece → Copied ext l l' → Copied ext (x :: l) (y :: l')

/-- The same, but at the end of the tokens the other side may be at any of some places. -/
inductive Place (ext : List (Token TokenKind)) (ends : List (List (Token TokenKind))) :
    List (Token TokenKind) → List (Token TokenKind) → Prop
  | ahead {x y l l'} : x.piece = y.piece → Copied ext l l' → Place ext ends (x :: l) (y :: l')
  | past {l'} : l' ∈ ends → Place ext ends [] l'

variable {ext l l' : List (Token TokenKind)} {ends ends' : List (List (Token TokenKind))}
  {kind : TokenKind}

/-- Tokens that are alike but for their extents are a copy, whatever follows them. -/
theorem copied_append {front : List (Token TokenKind)}
    (alike : front.map Token.piece = l.map Token.piece) : Copied ext l (front ++ ext) := by
  induction l generalizing front with
  | nil =>
    obtain rfl := List.map_eq_nil_iff.mp alike
    exact .nil
  | cons token l ih =>
    obtain ⟨first, others, rfl, here, same⟩ := List.map_eq_cons_iff.mp alike
    exact .cons here.symm (ih same)

/-- Tokens that agree but for their extents are copies with nothing behind them. -/
theorem copied_nil (alike : l'.map Token.piece = l.map Token.piece) : Copied [] l l' := by
  have copied : Copied [] l (l' ++ []) := copied_append alike
  rwa [List.append_nil] at copied

/-- A copy is at the same place as its original, or at what stands behind it when the original has
ended. -/
theorem Copied.place (copied : Copied ext l l') : Place ext [ext] l l' := by
  cases copied with
  | nil => exact .past (List.mem_singleton_self _)
  | cons alike rest => exact .ahead alike rest

theorem Place.mono (place : Place ext ends l l') (more : ends ⊆ ends') : Place ext ends' l l' := by
  cases place with
  | ahead alike rest => exact .ahead alike rest
  | past member => exact .past (more member)

theorem Place.of_more (place : Place ext ends l l') (more : l ≠ []) : Place ext ends' l l' := by
  cases place with
  | ahead alike rest => exact .ahead alike rest
  | past => exact absurd rfl more

/-- Skipping stops at the same token in both, or goes on into what stands behind the copy where the
original has ended. -/
theorem Copied.skip {test : Token TokenKind → Bool}
    (equal : ∀ {x y : Token TokenKind}, x.piece = y.piece → test x = test y)
    (copied : Copied ext l l') :
    Place ext [ext.dropWhile test] (l.dropWhile test) (l'.dropWhile test) := by
  induction copied with
  | nil => exact .past (List.mem_singleton_self _)
  | @cons x y l l' alike rest ih =>
    rw [List.dropWhile_cons, List.dropWhile_cons, ← equal alike]
    split
    · exact ih
    · exact .ahead alike rest

/-- Both sides go over the tokens in front that satisfy a test. -/
theorem Place.skip {test : Token TokenKind → Bool}
    (equal : ∀ {x y : Token TokenKind}, x.piece = y.piece → test x = test y)
    (place : Place ext ends l l') (first : ext.dropWhile test ∈ ends')
    (others : ∀ tokens ∈ ends, tokens.dropWhile test ∈ ends') :
    Place ext ends' (l.dropWhile test) (l'.dropWhile test) := by
  cases place with
  | ahead alike rest =>
    exact (Copied.skip equal (.cons alike rest)).mono (by simpa using first)
  | past member => exact .past (others _ member)

theorem Place.firstKind_eq (place : Place ext ends l l')
    (unlike : ∀ tokens ∈ ends, firstKind tokens ≠ some kind) :
    (firstKind l == some kind) = (firstKind l' == some kind) := by
  cases place with
  | ahead alike => exact congrArg (fun piece => some piece.kind == some kind) alike
  | past member => exact (beq_eq_false_iff_ne.mpr (unlike _ member)).symm

theorem Place.sight {kinds : List TokenKind} (place : Place ext ends l l')
    (listed : ∀ y others, y :: others ∈ ends → ext ≠ [] ∧ y.kind ∈ kinds) :
    Sight (ext = []) kinds l l' := by
  cases place with
  | ahead alike => exact .same alike
  | past member =>
    cases l' with
    | nil => exact .ended
    | cons y others =>
      obtain ⟨some, ofKind⟩ := listed y others member
      exact .beyond some ofKind

namespace Tail

variable (tail : Tail ext)
include tail

theorem lineBreak_of_firstKind (first : firstKind ext = some kind) : kind = .lineBreak := by
  cases tail with
  | none => cases first
  | after gap => exact (Option.some.inj first).symm.trans gap

theorem semicolon_of_firstKind (first : firstKind (ext.dropWhile Token.isSpace) = some kind) :
    kind = .semicolon := by
  cases tail with
  | none => cases first
  | after _ layout semicolon solid =>
    rw [List.dropWhile_cons, if_pos layout, List.dropWhile_cons, if_neg (by simp [solid])] at first
    exact (Option.some.inj first).symm.trans semicolon

/-- A rule that goes by what stands between two statements sees nothing else there. -/
theorem unlike (free : kind ∉ gapKinds) :
    ∀ tokens ∈ [ext, ext.dropWhile Token.isSpace], firstKind tokens ≠ some kind := by
  refine List.forall_mem_cons.mpr ⟨fun first => ?_, List.forall_mem_singleton.mpr fun first => ?_⟩
  · exact free (tail.lineBreak_of_firstKind first ▸ by decide)
  · exact free (tail.semicolon_of_firstKind first ▸ by decide)

theorem noElse : firstKind (ext.dropWhile isSeparator) ≠ some .kwElse := by
  cases tail with
  | none => nofun
  | after _ layout semicolon _ _ noElse => rwa [dropWhile_joint _ layout semicolon]

theorem noArrow (depth : Nat) : arrowBehind (depth + 1) ext = false := by
  cases tail with
  | none => rfl
  | after gap _ semicolon _ noArrow =>
    simp only [arrowBehind, gap, semicolon]
    exact noArrow depth

theorem noArrowFirst : firstKind (ext.dropWhile Token.isSpace) ≠ some .arrow :=
  tail.unlike (by decide) _ (List.mem_cons_of_mem _ (List.mem_singleton_self _))

theorem kind_of_mem {y : Token TokenKind} {others : List (Token TokenKind)}
    (member : y :: others ∈ [ext, ext.dropWhile Token.isSpace]) :
    ext ≠ [] ∧ y.kind ∈ [.lineBreak, .semicolon] := by
  refine ⟨fun ended => by simp [ended] at member, ?_⟩
  rcases List.mem_pair.mp member with first | first
  · simp [tail.lineBreak_of_firstKind (congrArg firstKind first.symm)]
  · simp [tail.semicolon_of_firstKind (congrArg firstKind first.symm)]

end Tail

/-- An arrow behind a closing parenthesis is looked for no further than the copy goes, if no
parenthesis from before is closed in front of an arrow behind it. -/
theorem Copied.arrowBehind_eq (noArrow : ∀ depth, arrowBehind (depth + 1) ext = false)
    (other : firstKind (ext.dropWhile Token.isSpace) ≠ some .arrow) (copied : Copied ext l l')
    (depth : Nat) : arrowBehind (depth + 1) l = arrowBehind (depth + 1) l' := by
  induction copied generalizing depth with
  | nil => exact (noArrow depth).symm
  | @cons x y l l' alike rest ih =>
    have kinds : x.kind = y.kind := congrArg (·.kind) alike
    rw [arrowBehind, arrowBehind, ← kinds]
    split
    · exact ih (depth + 1)
    · split
      · rw [head?_any_kind, head?_any_kind]
        exact (rest.skip isSpace_eq).firstKind_eq (List.forall_mem_singleton.mpr other)
      · rename_i deep
        obtain ⟨outer, rfl⟩ : ∃ outer, depth = outer + 1 := ⟨depth - 1, by omega⟩
        exact ih outer
    · exact ih depth

/-- The cursors of two parses of which the second one goes over a copy of the tokens of the
first one. The second one may have found before that its source is a module. -/
structure Copy (ext tokens : List (Token TokenKind)) (marks : Bool)
    (ends : List (List (Token TokenKind))) (s s' : State) : Prop where
  place : Place ext ends s.rest s'.rest
  subset : s.rest ⊆ tokens
  marked : s'.properties = Stretch.properties ⟨[], marks⟩ s.properties

namespace Copy

variable {tokens : List (Token TokenKind)} {marks : Bool} {s s' : State}

theorem mono (copy : Copy ext tokens marks ends s s') (more : ends ⊆ ends') :
    Copy ext tokens marks ends' s s' where
  place := copy.place.mono more
  subset := copy.subset
  marked := copy.marked

theorem skip {test : Token TokenKind → Bool}
    (equal : ∀ {x y : Token TokenKind}, x.piece = y.piece → test x = test y)
    (copy : Copy ext tokens marks ends s s') (first : ext.dropWhile test ∈ ends')
    (others : ∀ tokens ∈ ends, tokens.dropWhile test ∈ ends') :
    Copy ext tokens marks ends' (s.skipWhile test) (s'.skipWhile test) where
  place := copy.place.skip equal first others
  subset := List.Subset.trans (List.dropWhile_suffix test).subset copy.subset
  marked := copy.marked

/-- Behind a token the other side is exactly behind its copy. -/
theorem next (copy : Copy ext tokens marks ends s s') (more : s.rest ≠ []) :
    Copy ext tokens marks [ext] s.next s'.next := by
  obtain ⟨place, subset, marked⟩ := copy
  rcases s with ⟨before, rest, found⟩
  rcases s' with ⟨before', rest', found'⟩
  cases place with
  | ahead _ rest => exact ⟨rest.place, List.Subset.trans (List.subset_cons_self _ _) subset, marked⟩
  | past => exact absurd rfl more

/-- The token that is taken is there on both sides. -/
theorem current (copy : Copy ext tokens marks ends s s') (more : s.rest ≠ []) :
    ∃ x y, s.current = some x ∧ s'.current = some y ∧ x.piece = y.piece ∧
      Copy ext tokens marks [ext] s.next s'.next := by
  have behind := copy.next more
  have place := copy.place
  unfold TokenCursor.current
  generalize s.rest = l at place more
  generalize s'.rest = l' at place
  cases place with
  | @ahead x y _ _ alike => exact ⟨x, y, rfl, rfl, alike, behind⟩
  | past => exact absurd rfl more

theorem is_eq (copy : Copy ext tokens marks ends s s')
    (unlike : ∀ tokens ∈ ends, firstKind tokens ≠ some kind) : s.is kind = s'.is kind :=
  copy.place.firstKind_eq unlike

theorem is_eq_of_more (copy : Copy ext tokens marks ends s s') (more : s.rest ≠ []) :
    s.is kind = s'.is kind :=
  (copy.place.of_more more).firstKind_eq (List.forall_mem_nil _)

theorem more_of_more (copy : Copy ext tokens marks ends s s') (more : s.rest ≠ []) :
    s'.rest ≠ [] := by
  have place : Place ext [] s.rest s'.rest := copy.place.of_more more
  generalize s.rest = l at place
  generalize s'.rest = l' at place
  cases place with
  | ahead => exact List.cons_ne_nil _ _
  | past none => cases none

theorem eq_of_nil {last : List (Token TokenKind)} (copy : Copy ext tokens marks [last] s s')
    (ended : s.rest = []) : last = s'.rest := by
  have place := copy.place
  rw [ended] at place
  generalize s'.rest = l' at place
  cases place with
  | past member => exact (List.mem_singleton.mp member).symm

/-- What follows the current token shows on both sides. -/
theorem followedBy_eq (copy : Copy ext tokens marks ends s s') (more : s.rest ≠ [])
    (unlike : ∀ tokens ∈ [ext.dropWhile Token.isSpace], firstKind tokens ≠ some kind) :
    followedBy kind s = followedBy kind s' := by
  have place := copy.place
  unfold followedBy
  generalize s.rest = l at more place
  generalize s'.rest = l' at place
  cases place with
  | ahead _ rest =>
    dsimp only
    rw [head?_any_kind, head?_any_kind]
    exact (rest.skip isSpace_eq).firstKind_eq unlike
  | past => exact absurd rfl more

/-- No arrow behind the copied tokens closes a parenthesis of theirs, so both searches end alike. -/
theorem arrowFollows_eq (copy : Copy ext tokens marks ends s s')
    (noArrow : ∀ depth, arrowBehind (depth + 1) ext = false)
    (other : firstKind (ext.dropWhile Token.isSpace) ≠ some .arrow)
    (there : s.is .openParen = true) : arrowFollows s = arrowFollows s' := by
  have place := copy.place
  obtain ⟨token, current, ofKind⟩ := s.current_of_is there
  unfold arrowFollows
  rw [TokenCursor.current] at current
  generalize s.rest = l at current place
  generalize s'.rest = l' at place
  cases place with
  | @ahead x y _ _ alike rest =>
    obtain rfl := Option.some.inj current
    have ofKind' : y.kind = .openParen := (congrArg (·.kind) alike).symm.trans ofKind
    rw [arrowBehind, arrowBehind, ofKind, ofKind']
    exact rest.arrowBehind_eq noArrow other 0
  | past => cases current

theorem esm (copy : Copy ext tokens marks ends s s') : Copy ext tokens marks ends
    { s with properties := { s.properties with sourceType := .esm } }
    { s' with properties := { s'.properties with sourceType := .esm } } where
  place := copy.place
  subset := copy.subset
  marked := by
    rw [copy.marked]
    cases marks <;> rfl

end Copy

section Tokenwise

/-- Two parses that take the tokens in step, whatever they are; behind a token they are `fresh`.
Regular expressions need this, since they take every token as text. -/
structure Lockstep.Tokenwise (sim : Lockstep) (fresh : State → State → Prop) : Prop where
  near {s s'} : fresh s s' → sim.near s s'
  next {s s'} : sim.near s s' → s.rest ≠ [] → ∃ x y, s.current = some x ∧ s'.current = some y ∧
    x.piece = y.piece ∧ fresh s.next s'.next

variable {sim : Lockstep} {fresh : State → State → Prop} {lost : Prop}

/-- A token of any kind is taken on both sides. -/
theorem Lockstep.Tokenwise.consume (tokenwise : sim.Tokenwise fresh) : sim.Within lost
    (fun s s' => sim.near s s' ∧ s.rest ≠ []) fresh (fun a b => a.piece = b.piece)
    Parser.consume Parser.consume := by
  refine Lockstep.within_of_agree fun {s s'} ⟨near, more⟩ => ?_
  obtain ⟨x, y, current, current', alike, behind⟩ := tokenwise.next near more
  have run : Parser.consume s = .ok x s.next := by rw [Parser.consume, current]
  have run' : Parser.consume s' = .ok y s'.next := by rw [Parser.consume, current']
  rw [run, run']
  exact ⟨alike, behind⟩

/-- The text of an escape behind its backslash. -/
def escapedText : Rule String := do
  if ← observe (·.willContinue) then
    let next ← consume
    return next.text
  else
    return ""

/-- What is done behind one token of a regular expression. -/
def regExpRest {α : Type} (budget : Nat) (token : Token TokenKind) (f : String × Bool → Rule α) :
    Rule α :=
  if token.kind = .asteriskSlash then f ("*", true)
  else (if token.kind = .backSlash then escapedText else pure "") >>= fun escaped =>
    regExpText budget >>= fun more => f (token.text ++ escaped ++ more.1, more.2)

theorem regExpText_bind {α : Type} (budget : Nat) (f : String × Bool → Rule α) :
    (regExpText (budget + 1) >>= f) =
      observe (fun s => !s.willContinue || s.is .slash) >>= fun stopped =>
        if stopped then f ("", false) else consume >>= fun token => regExpRest budget token f := by
  rw [regExpText, bind_assoc]
  congr 1
  funext stopped
  cases stopped with
  | true => rfl
  | false =>
    simp only [Bool.false_eq_true, if_false, bind_assoc]
    congr 1
    funext token
    unfold regExpRest
    split
    · rename_i closing
      rw [if_pos closing]
      rfl
    · rename_i escape
      rw [if_neg (by simp [escape]), if_pos escape, escapedText, bind_assoc, bind_assoc]
      congr 1
      funext more
      cases more <;> simp
    · rename_i noEnd noEscape
      rw [if_neg noEnd, if_neg noEscape]
      simp

theorem regExpText_nil (budget : Nat) {s : State} (ended : s.rest = []) :
    regExpText budget s = .ok ("", false) s := by
  cases budget with
  | zero => rfl
  | succ budget =>
    rw [regExpText, observe_bind, if_pos (by simp [TokenCursor.willContinue, ended])]
    rfl

/-- The loop has a turn for every token that is left. -/
theorem regExpText_bind_eq {α : Type} {budget : Nat} {s : State} (enough : s.rest.length ≤ budget)
    (f : String × Bool → Rule α) :
    (regExpText s.rest.length >>= f) s = (regExpText budget >>= f) s := by
  have same := (Rules.loopsEnd Rules.whole_settled).regExpTexts s budget enough
  simp only [bind, EStateM.bind, same]

/-- At the end of the tokens the text of a regular expression is empty and not closed, so the
closing slash is missed. -/
theorem starves_regExpText (budget : Nat) {α : Type} {f : String × Bool → Rule α}
    (starves : sim.Starves (f ("", false))) : sim.Starves (regExpText budget >>= f) := by
  intro s ended
  rw [bind_ok (regExpText_nil budget ended)]
  exact starves s ended

variable (tokenwise : sim.Tokenwise fresh)
include tokenwise

theorem escapedText_tokenwise :
    sim.Within (¬ sim.strict) fresh fresh Eq escapedText escapedText := by
  have step : sim.Within (¬ sim.strict) (fun s s' => fresh s s' ∧ (sim.strict ∨ s.rest ≠ [])) fresh
      Eq escapedText escapedText := by
    refine .test (fun ⟨fresh, together⟩ => sim.willContinue_eq (tokenwise.near fresh) together) ?_
      ((Lockstep.pure_within rfl).from And.left)
    refine .bind (tokenwise.consume.from fun ⟨⟨fresh, _⟩, more⟩ => ⟨tokenwise.near fresh, ?_⟩)
      fun _ _ alike => ?_
    · intro ended
      simp [TokenCursor.willContinue, ended] at more
    · exact Lockstep.pure_within (congrArg (·.text) alike)
  intro s s' fresh
  by_cases together : sim.strict ∨ s.rest ≠ []
  · exact step s s' ⟨fresh, together⟩
  · obtain ⟨strict, more⟩ := not_or.mp together
    have ended : s.rest = [] := not_not.mp more
    refine Or.inr ⟨strict, "", s, ?_, ended⟩
    unfold escapedText
    rw [observe_bind, TokenCursor.willContinue, ended]
    rfl

/-- Both sides read a regular expression alike as far as the tokens of the first one go;
where these end the first one needs the closing slash. -/
theorem regExpText_tokenwise {same : Tree → Tree → Prop} (budget : Nat)
    {f g : String × Bool → Rule Tree}
    (next : ∀ text, sim.Within lost sim.near sim.near same (f text) (g text))
    (starves : ∀ text, sim.Starves (f (text, false))) :
    sim.Within lost sim.near sim.near same (regExpText budget >>= f) (regExpText budget >>= g) := by
  induction budget generalizing f g with
  | zero => exact .pure_bind (next _)
  | succ budget ih =>
    have step : sim.Within lost (fun s s' => sim.near s s' ∧ s.rest ≠ []) sim.near same
        (consume >>= fun token => regExpRest budget token f)
        (consume >>= fun token => regExpRest budget token g) := by
      refine tokenwise.consume.bind fun x y alike => ?_
      have kinds : x.kind = y.kind := congrArg (·.kind) alike
      have texts : x.text = y.text := congrArg (·.text) alike
      unfold regExpRest
      rw [← kinds, ← texts]
      by_cases closing : x.kind = .asteriskSlash
      · rw [if_pos closing, if_pos closing]
        exact (next _).from tokenwise.near
      rw [if_neg closing, if_neg closing]
      have escape : sim.Within (¬ sim.strict) fresh fresh Eq
          (if x.kind = .backSlash then escapedText else pure "")
          (if x.kind = .backSlash then escapedText else pure "") := by
        split
        · exact escapedText_tokenwise tokenwise
        · exact Lockstep.pure_within rfl
      refine escape.caught (fun escaped _ equal => equal ▸ ?_)
        fun _ => starves_regExpText _ (starves _)
      have others := ih (f := fun more => f (x.text ++ escaped ++ more.1, more.2))
        (g := fun more => g (x.text ++ escaped ++ more.1, more.2)) (fun _ => next _) fun _ => starves _
      exact others.from tokenwise.near
    intro s s' near
    by_cases together : sim.strict ∨ s.rest ≠ []
    · rw [regExpText_bind, regExpText_bind, observe_bind, observe_bind]
      have both : (!s.willContinue || s.is .slash) = (!s'.willContinue || s'.is .slash) := by
        rw [sim.willContinue_eq near together, sim.is_eq near (by decide)]
      rw [← both]
      cases stop : (!s.willContinue || s.is .slash) with
      | true => exact next _ s s' near
      | false => exact step s s' ⟨near, fun ended => by simp [TokenCursor.willContinue, ended] at stop⟩
    · obtain ⟨loose, more⟩ := not_or.mp together
      have ended : s.rest = [] := not_not.mp more
      obtain ⟨e, t, fails, anchored⟩ := starves_regExpText (budget + 1) (starves "") s ended
      rw [fails]
      exact Or.inl ⟨anchored, fun strict => absurd strict loose⟩

/-- A regular expression takes any tokens, layout among them. So it is not enough here that the
sides agree on the tokens that rules take; they have to agree token by token. -/
theorem regExpLiteral_tokenwise :
    sim.Within lost (sim.At .slash) sim.near SameTree regExpLiteral regExpLiteral := by
  refine .mark fun start start' => ?_
  refine .bind (tokenwise.consume.from fun here => ⟨here.1, here.more⟩) fun _ _ _ => ?_
  intro s s' fresh
  rw [observe_bind, observe_bind, regExpText_bind_eq (Nat.le_max_left _ s'.rest.length),
    regExpText_bind_eq (Nat.le_max_right s.rest.length _)]
  refine regExpText_tokenwise tokenwise _ (fun ⟨pattern, closed⟩ => ?_) (fun pattern => ?_) s s'
    (tokenwise.near fresh)
  on_goal 2 => exact Lockstep.starves_expect nofun
  have flagged : sim.Within lost sim.near sim.near SameTree
      (consumeIf .identifier >>= fun flags => makeNode start (.regExpLiteral pattern
        (flags.map (·.text)) ("/" ++ pattern ++ "/" ++ (flags.map (·.text)).getD "")))
      (consumeIf .identifier >>= fun flags => makeNode start' (.regExpLiteral pattern
        (flags.map (·.text)) ("/" ++ pattern ++ "/" ++ (flags.map (·.text)).getD ""))) := by
    refine .consumeIf (by decide) (fun _ _ alike => ?_) (Lockstep.makeNode_within rfl)
    exact Lockstep.makeNode_within (by simp [alike.text])
  cases closed with
  | true => exact flagged
  | false => exact .expect (by decide) nofun fun _ _ _ _ => flagged

end Tokenwise

section Instance

variable (tail : Tail ext) (tokens : List (Token TokenKind)) (marks : Bool)

/-- Two parses of which the second one goes over a copy of the tokens of the first one. -/
def copying : Lockstep where
  strict := ext = []
  tokens := tokens
  near := Copy ext tokens marks [ext, ext.dropWhile Token.isSpace]
  ready := Copy ext tokens marks [ext.dropWhile Token.isSpace]
  far := Copy ext tokens marks [ext, ext.dropWhile Token.isSpace, ext.dropWhile isSeparator]
  near_of_ready ready := ready.mono (List.subset_cons_self _ _)
  far_of_near near := near.mono (by simp)
  near_of_far far together := by
    rcases together with rfl | more
    · exact far.mono (by simp)
    · exact ⟨far.place.of_more more, far.subset, far.marked⟩
  mem near x member := near.subset member
  sight near := near.place.sight fun y others member => tail.kind_of_mem member
  sight_ready ready := ready.place.sight fun y others member => by
    obtain ⟨some, -⟩ := tail.kind_of_mem (List.mem_cons_of_mem _ member)
    have first := congrArg firstKind (List.mem_singleton.mp member)
    exact ⟨some, List.mem_singleton.mpr (tail.semicolon_of_firstKind first.symm)⟩
  is_else far := far.is_eq (by simpa using ⟨tail.unlike (by decide) _ (by simp),
    tail.unlike (by decide) _ (by simp), tail.noElse⟩)
  trim_ready near := near.skip isSpace_eq (by simp) (by simp [List.dropWhile_idempotent])
  trim_far far := far.skip isSpace_eq (by simp)
    (by simp [dropWhile_isSeparator_isSpace, List.dropWhile_idempotent])
  skip_far far := far.skip isSeparator_eq (by simp)
    (by simp [dropWhile_isSpace_isSeparator, List.dropWhile_idempotent])
  next_near near current _ := (near.next (more_of_current current)).mono (by simp)
  followedBy_eq near more free := near.followedBy_eq more fun tokens member =>
    tail.unlike free tokens (List.mem_cons_of_mem _ member)
  arrowFollows_eq near there := near.arrowFollows_eq tail.noArrow tail.noArrowFirst there
  esm_near near := near.esm

variable {tail tokens marks} {lost : Prop}

/-- Up to the end of its line a comment is read on both sides alike; where the first one has
come to the end of its tokens, the second one takes the line break of what stands behind. -/
theorem lineEnd_copied {a b : Tree} (same : SameTree a b) :
    (copying tail tokens marks).Within lost (Copy ext tokens marks [ext])
      (copying tail tokens marks).near SameTree (Lockstep.lineEnd a) (Lockstep.lineEnd b) := by
  refine Lockstep.within_of_agree fun {s s'} fresh => ?_
  have skipped {s s' : State} (fresh : Copy ext tokens marks [ext] s s') :
      Copy ext tokens marks [ext, ext.dropWhile Token.isSpace] (s.skipWhile Token.isSpace)
        (s'.skipWhile Token.isSpace) :=
    fresh.skip isSpace_eq (by simp) (by simp)
  by_cases ended : s.rest = []
  · have near := skipped fresh
    obtain ⟨before', rest', found'⟩ := s'
    obtain rfl : ext = rest' := fresh.eq_of_nil ended
    rw [Lockstep.lineEnd_nil a ended]
    cases tail with
    | none => exact ⟨same, near⟩
    | @after gap semicolon others ofKind layout =>
      have there : (TokenCursor.mk before' (gap :: semicolon :: others) found').is .lineBreak :=
        beq_iff_eq.mpr (congrArg some ofKind)
      rw [Lockstep.lineEnd_lineBreak b there, skipWhile_next rfl layout]
      exact ⟨same, near⟩
  · exact Lockstep.lineEnd_agree same ended (fresh.more_of_more ended) (fresh.is_eq_of_more ended)
      fun _ => skipped (fresh.next ended)

theorem copying_tokenwise :
    (copying tail tokens marks).Tokenwise (Copy ext tokens marks [ext]) where
  near fresh := fresh.mono (by simp)
  next near more := near.current more

/-- A copy keeps in step through the rules that take single tokens: comments, the ends of lines and
regular expressions. Everything else follows from the general walk over the grammar. -/
theorem copying_leaves : (copying tail tokens marks).Leaves where
  blockComment := Lockstep.blockComment_within fun here =>
    (Copy.next here.1 here.more).mono (by simp)
  lineComment := Lockstep.lineComment_within (fun here => Copy.next here.1 here.more)
    (fun fresh => fresh.mono (by simp)) (fun fresh atText => fresh.next (more_of_currentKind atText))
    lineEnd_copied
  regExpLiteral := regExpLiteral_tokenwise copying_tokenwise

end Instance

end ScriptFront.Script
