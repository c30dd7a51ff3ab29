import ScriptFront.Proofs.Erase
import ScriptFront.Proofs.Grammar.Progress
import ScriptFront.Proofs.Lexed
import ScriptFront.Proofs.Piece

namespace ScriptFront.Script

open ScriptFront.Parser

theorem isSpace_eq {x y : Token TokenKind} (alike : x.piece = y.piece) : x.isSpace = y.isSpace :=
  congrArg Piece.isSpace alike

theorem isSeparator_eq {x y : Token TokenKind} (alike : x.piece = y.piece) :
    isSeparator x = isSeparator y :=
  congrArg (fun piece : Piece TokenKind => piece.isSpace || piece.kind = .semicolon) alike

theorem isSeparator_of_isSpace {token : Token TokenKind} (layout : token.isSpace = true) :
    isSeparator token = true := by
  simp [isSeparator, layout]

/-- What a rule answers: a finding or an error, each with the state that it leaves. -/
abbrev Answer (α : Type) := EStateM.Result ParseError State α

/-- The kinds that no rule takes by itself: layout, and the opener of a comment, which is
taken with the whole comment. -/
def rawKinds : List TokenKind := .slashAsterisk :: layoutKinds

/-- The kinds of what stands freely between two statements, comments aside. Where another
token could follow as well, no rule looks for one of them, but for the end of a statement. -/
def blankKinds : List TokenKind := .semicolon :: layoutKinds

/-- The kinds of all that stands freely between two statements. -/
def gapKinds : List TokenKind := .semicolon :: rawKinds

/-- A separator as the lexer makes it is a semicolon or layout. -/
theorem kind_of_separator {token : Token TokenKind} (marked : Lexeme.Marked token.toLexeme)
    (separator : isSeparator token = true) : token.kind ∈ blankKinds := by
  rcases Bool.or_eq_true_iff.mp separator with layout | semicolon
  · exact List.mem_cons_of_mem _ (marked.mp (beq_iff_eq.mp layout))
  · rw [of_decide_eq_true semicolon]
    exact List.mem_cons_self

theorem forall_blank {P : TokenKind → Prop} (semicolon : P .semicolon) (lineBreak : P .lineBreak)
    (carriageReturn : P .carriageReturn) (tab : P .tab) (space : P .space) :
    ∀ kind ∈ blankKinds, P kind := by
  simp [blankKinds, layoutKinds, *]

theorem not_raw_of_not_gap {kind : TokenKind} (free : kind ∉ gapKinds) : kind ∉ rawKinds :=
  fun raw => free (List.mem_cons_of_mem _ raw)

theorem not_blank_of_not_gap {kind : TokenKind} (free : kind ∉ gapKinds) : kind ∉ blankKinds :=
  fun blank => free ((by decide : blankKinds ⊆ gapKinds) blank)

theorem not_layout_of_not_raw {kind : TokenKind} (free : kind ∉ rawKinds) : kind ∉ layoutKinds :=
  fun layout => free (List.mem_cons_of_mem _ layout)

/-- Among the tokens is a number that cannot be read, alone or with one of the others
behind a period. -/
def Misread (tokens : List (Token TokenKind)) : Prop :=
  ∃ whole ∈ tokens, whole.kind = .number ∧ (Double.read? whole.text = none ∨
    ∃ fraction ∈ tokens, fraction.kind = .number ∧
      Double.read? (whole.text ++ "." ++ fraction.text) = none)

/-- A failure in `t` is the complaint about the current token that can be made there. That
a number cannot be read is only complained of when there is such a number. -/
structure Anchored (tokens : List (Token TokenKind)) (e : ParseError) (t : State) : Prop where
  here : e = t.error e.text
  number : e.text = Complaint.numericLiteral.message → Misread tokens

@[simp] theorem text_error (s : State) (text : String) : (s.error text).text = text := by
  unfold TokenCursor.error
  split <;> rfl

/-- A complaint about the current token is anchored there, unless it is the one about numbers, for
which a number has to be found. -/
theorem anchored_error {tokens : List (Token TokenKind)} (s : State) {text : String}
    (other : text ≠ Complaint.numericLiteral.message) : Anchored tokens (s.error text) s where
  here := by rw [text_error]
  number same := absurd ((text_error s text).symm.trans same) other

/-- No other complaint has the wording of the one about numbers. -/
theorem Complaint.message_ne {complaint : Complaint} (other : complaint ≠ .numericLiteral) :
    complaint.message ≠ Complaint.numericLiteral.message := by
  cases complaint with
  | numericLiteral => exact (other rfl).elim
  | declaratorEquals keyword =>
    intro same
    have letters : ("Expected Equals after identifier in " ++ keyword ++ " declaration").toList =
        "Invalid numeric literal".toList := congrArg String.toList same
    rw [String.toList_append, String.toList_append, List.append_assoc] at letters
    exact absurd (List.cons.inj letters).1 (by decide)
  | headOpen head => cases head <;> decide
  | headEnd head => cases head <;> decide
  | _ => decide

/-- What two cursors are looking at: tokens that agree but for their extents, some
layout, or nothing. Where the parses may come apart at the end of the first list, the
second cursor may be looking at a token of one of the kinds `ends` there. -/
inductive Sight (strict : Prop) (ends : List TokenKind) :
    List (Token TokenKind) → List (Token TokenKind) → Prop
  | same {x y l l'} : x.piece = y.piece → Sight strict ends (x :: l) (y :: l')
  | layout {x y l l'} : x.isSpace = true → y.isSpace = true → x.kind ∈ layoutKinds →
      y.kind ∈ layoutKinds → Sight strict ends (x :: l) (y :: l')
  | ended : Sight strict ends [] []
  | beyond {y l'} : ¬ strict → y.kind ∈ ends → Sight strict ends [] (y :: l')

/-- A relation between the cursors of two parses that no step of a parse leaves: each
rule of the grammar does the same on both sides. Three relations are told apart by what
the parses have just done. They are `ready` behind the layout that a rule has skipped,
and `far` behind a whole statement, where the first parse may have come to its end and the
second one may have gone on over separators. If `strict`, both parses end together. -/
structure Lockstep where
  strict : Prop
  /-- The tokens of the first parse. -/
  tokens : List (Token TokenKind)
  near : State → State → Prop
  ready : State → State → Prop
  far : State → State → Prop
  near_of_ready {s s'} : ready s s' → near s s'
  far_of_near {s s'} : near s s' → far s s'
  near_of_far {s s'} : far s s' → (strict ∨ s.rest ≠ []) → near s s'
  mem {s s'} : near s s' → ∀ x ∈ s.rest, x ∈ tokens
  sight {s s'} : near s s' → Sight strict [.lineBreak, .semicolon] s.rest s'.rest
  sight_ready {s s'} : ready s s' → Sight strict [.semicolon] s.rest s'.rest
  is_else {s s'} : far s s' → s.is .kwElse = s'.is .kwElse
  trim_ready {s s'} : near s s' → ready (s.skipWhile Token.isSpace) (s'.skipWhile Token.isSpace)
  trim_far {s s'} : far s s' → far (s.skipWhile Token.isSpace) (s'.skipWhile Token.isSpace)
  skip_far {s s'} : far s s' → far (s.skipWhile isSeparator) (s'.skipWhile isSeparator)
  next_near {s s' token} : near s s' → s.current = some token →
    (token.kind ∉ rawKinds ∨ token.tag = some .word) → near s.next s'.next
  followedBy_eq {s s' kind} : near s s' → s.rest ≠ [] → kind ∉ gapKinds →
    followedBy kind s = followedBy kind s'
  arrowFollows_eq {s s'} : near s s' → s.is .openParen = true → arrowFollows s = arrowFollows s'
  esm_near {s s'} : near s s' →
    near { s with properties := { s.properties with sourceType := .esm } }
      { s' with properties := { s'.properties with sourceType := .esm } }

namespace Lockstep

variable (sim : Lockstep)

/-- The answers of the two sides: results that are alike in places that go together, or
two complaints with one wording. Where the sides may come apart, a complaint of the first
one leaves the second one free. -/
def Agree {α : Type} (post : State → State → Prop) (same : α → α → Prop) :
    Answer α → Answer α → Prop
  | .ok a t, .ok b u => same a b ∧ post t u
  | .ok _ _, .error _ _ => False
  | .error e t, answer => Anchored sim.tokens e t ∧
      (sim.strict → ∃ e' u, answer = .error e' u ∧ e'.text = e.text)

/-- Two rules whose answers agree wherever they start in places that go together. If the
first one can be `lost`, it may also have come to the end of its tokens, and nothing is
known of the second one. -/
def Within {α : Type} (lost : Prop) (pre post : State → State → Prop) (same : α → α → Prop)
    (p q : Rule α) : Prop :=
  ∀ s s', pre s s' → sim.Agree post same (p s) (q s') ∨
    lost ∧ ∃ a t, p s = .ok a t ∧ t.rest = []

/-- The cursors are at a token of the given kind. -/
def At (kind : TokenKind) (s s' : State) : Prop := sim.near s s' ∧ s.currentKind = some kind

/-- The cursors are at a token of the given kind, if any is given. -/
def Seen (kind : Option TokenKind) (s s' : State) : Prop :=
  sim.near s s' ∧ ∀ k, kind = some k → s.currentKind = some k

/-- The cursors are at a token that a rule may take. -/
def Shown (s s' : State) : Prop := sim.near s s' ∧ ∃ kind ∉ rawKinds, s.currentKind = some kind

/-- What two rules make of one token: the extents may differ, and everything that a tree can keep of
it is the same on both sides. -/
structure SameToken (a b : Token TokenKind) : Prop where
  mem : a ∈ sim.tokens
  kind : a.kind = b.kind
  text : a.text = b.text

/-- At the end of the tokens there is only a complaint. -/
def Starves {α : Type} (p : Rule α) : Prop :=
  ∀ s : State, s.rest = [] → ∃ e t, p s = .error e t ∧ Anchored sim.tokens e t

end Lockstep

/-- Trees that differ at most in their extents. -/
abbrev SameTree (a b : Tree) : Prop := erase a = erase b

/-- Two lists of trees that differ in nothing but extents. -/
abbrev SameTrees (a b : List Tree) : Prop := eraseAll a = eraseAll b

/-- Two trees that differ in nothing but extents, or none on either side. -/
abbrev SameMaybe (a b : Option Tree) : Prop := eraseMaybe a = eraseMaybe b

theorem isIdentifier_erase (c : Construct) : c.erase.isIdentifier = c.isIdentifier := by
  cases c <;> rfl

theorem SameTree.isIdentifier_eq {a b : Tree} (same : SameTree a b) :
    a.kind.isIdentifier = b.kind.isIdentifier := by
  rw [SameTree, erase_eq, erase_eq] at same
  have kinds : a.kind.erase = b.kind.erase := congrArg (·.kind) same
  rw [← isIdentifier_erase, kinds, isIdentifier_erase]

theorem SameTree.maybe {a b : Tree} (same : SameTree a b) : SameMaybe (some a) (some b) :=
  congrArg some same

theorem SameMaybe.isNone_eq {a b : Option Tree} (same : SameMaybe a b) : a.isNone = b.isNone := by
  cases a <;> cases b <;> first | rfl | cases same

theorem SameMaybe.getD {a b : Option Tree} {c d : Tree} (same : SameMaybe a b)
    (default : SameTree c d) : SameTree (a.getD c) (b.getD d) := by
  cases a <;> cases b <;> first | exact default | exact Option.some.inj same | cases same

theorem eraseAll_append (first second : List Tree) :
    eraseAll (first ++ second) = eraseAll first ++ eraseAll second := by
  induction first with
  | nil => rfl
  | cons t others ih => rw [List.cons_append, eraseAll_cons, eraseAll_cons, ih, List.cons_append]

theorem eraseAll_flatten {a b : List (List Tree)} (same : List.Forall₂ SameTrees a b) :
    SameTrees a.flatten b.flatten := by
  induction same with
  | nil => rfl
  | cons first _ ih =>
    rw [SameTrees, List.flatten_cons, List.flatten_cons, eraseAll_append, eraseAll_append, first, ih]

theorem eraseAll_eq_of_forall₂ {a b : List Tree} (same : List.Forall₂ SameTree a b) :
    SameTrees a b := by
  induction same with
  | nil => rfl
  | cons first _ ih => rw [SameTrees, eraseAll_cons, eraseAll_cons, first, ih]

/-- At the end of the tokens the rule has no result. Where one side of a lockstep has come to its
end, only a rule like this may follow. -/
def Hungry {α : Type} (p : Rule α) : Prop := ∀ s : State, s.rest = [] → ∀ a t, p s ≠ .ok a t

/-- At the end of the tokens the rule still has a result, and stays there. Such steps do not help a
side that has come to its end. -/
def Stays {α : Type} (p : Rule α) : Prop :=
  ∀ s : State, s.rest = [] → ∃ a t, p s = .ok a t ∧ t.rest = []

theorem stays_pure {α : Type} (a : α) : Stays (pure a) := fun s ended => ⟨a, s, rfl, ended⟩

theorem stays_makeNode {ν : Type} (start : Nat) (c : ν) : Stays (makeNode start c) :=
  fun s ended => ⟨_, s, rfl, ended⟩

/-- A rule that takes a token has no result where none is left. -/
theorem hungry_of_taking {α : Type} {p q : Rule α} {n : Nat} (taking : Taking (n + 1) p q) :
    Hungry p := by
  intro s ended a t run
  have taken := (taking s (by simp [ended])).2
  rw [run] at taken
  have fewer := taken.2
  simp [ended] at fewer

variable {sim : Lockstep} {lost : Prop} {pre mid post : State → State → Prop}
  {α β : Type} {same : α → α → Prop} {same' : β → β → Prop} {p q p' q' : Rule α}
  {f g : α → Rule β} {s s' : State}

theorem Hungry.bind (first : Hungry p) : Hungry (p >>= f) := by
  intro s ended b u run
  cases found : p s with
  | error e t =>
    rw [bind_error found] at run
    cases run
  | ok a t => exact first s ended a t found

theorem Stays.bind (first : Stays p) (next : ∀ a, Stays (f a)) : Stays (p >>= f) := by
  intro s ended
  obtain ⟨a, t, run, ended'⟩ := first s ended
  rw [bind_ok run]
  exact next a t ended'

section Sights

variable {kind : TokenKind}

theorem currentKind_cons {token : Token TokenKind} {rest : List (Token TokenKind)}
    (ahead : s.rest = token :: rest) : s.currentKind = some token.kind := by
  simp [TokenCursor.currentKind, TokenCursor.current, ahead]

theorem currentKind_nil (ended : s.rest = []) : s.currentKind = none := by
  simp [TokenCursor.currentKind, TokenCursor.current, ended]

theorem more_of_currentKind (there : s.currentKind = some kind) : s.rest ≠ [] := by
  intro ended
  rw [currentKind_nil ended] at there
  cases there

theorem more_of_current {token : Token TokenKind} (current : s.current = some token) :
    s.rest ≠ [] := by
  intro ended
  rw [TokenCursor.current, ended] at current
  cases current

/-- A step over the first of the tokens that are skipped makes no difference. -/
theorem skipWhile_next {test : Token TokenKind → Bool} {token : Token TokenKind}
    (current : s.current = some token) (skipped : test token = true) :
    s.next.skipWhile test = s.skipWhile test := by
  obtain ⟨before, rest, found⟩ := s
  cases rest with
  | nil => cases current
  | cons first rest =>
    obtain rfl : first = token := Option.some.inj current
    simp [TokenCursor.next, TokenCursor.skipWhile, skipped]

/-- A rule that goes by the current kind alone sees the same, unless it tells layout from
layout, or the end from what the second side may see behind it. -/
theorem Sight.view_eq {γ : Type} {strict : Prop} {ends : List TokenKind}
    (sight : Sight strict ends s.rest s'.rest) (view : Option TokenKind → γ)
    (layout : ∀ kind ∈ layoutKinds, view (some kind) = view (some .space))
    (ended : ¬ strict → s.rest = [] → ∀ kind ∈ ends, view none = view (some kind)) :
    view s.currentKind = view s'.currentKind := by
  generalize atRest : s.rest = l at sight
  generalize atRest' : s'.rest = l' at sight
  cases sight with
  | same alike =>
    rw [currentKind_cons atRest, currentKind_cons atRest']
    exact congrArg (fun piece => view (some piece.kind)) alike
  | layout _ _ first second =>
    rw [currentKind_cons atRest, currentKind_cons atRest', layout _ first, layout _ second]
  | ended => rw [currentKind_nil atRest, currentKind_nil atRest']
  | beyond loose other =>
    rw [currentKind_nil atRest, currentKind_cons atRest', ended loose atRest _ other]

/-- A rule that takes layout, separators and the end for the same sees the same. -/
theorem Lockstep.view_eq {γ : Type} (near : sim.near s s') (view : Option TokenKind → γ)
    (blind : ∀ kind ∈ blankKinds, view (some kind) = view none) :
    view s.currentKind = view s'.currentKind := by
  refine (sim.sight near).view_eq view (fun kind layout => ?_) fun _ _ kind other => ?_
  · rw [blind kind (List.mem_cons_of_mem _ layout), blind .space (by decide)]
  · exact (blind kind ((by decide : [.lineBreak, .semicolon] ⊆ blankKinds) other)).symm

theorem Lockstep.is_eq (near : sim.near s s') (free : kind ∉ gapKinds) :
    s.is kind = s'.is kind := by
  refine sim.view_eq near (· == some kind) fun other blank => ?_
  have different : other ≠ kind := fun equal => not_blank_of_not_gap free (equal ▸ blank)
  simpa using different

theorem Lockstep.isAny_eq (near : sim.near s s') {kinds : List TokenKind}
    (free : ∀ kind ∈ kinds, kind ∉ gapKinds) : s.isAny kinds = s'.isAny kinds := by
  refine sim.view_eq near (fun kind => kind.any (kinds.contains ·)) fun other blank => ?_
  have different : other ∉ kinds := fun member => not_blank_of_not_gap (free _ member) blank
  simpa using different

/-- Where the parses do not come apart, a token that is taken in step is there on both
sides or on none. -/
theorem Lockstep.is_eq_together (near : sim.near s s') (together : sim.strict ∨ s.rest ≠ [])
    (free : kind ∉ rawKinds) : s.is kind = s'.is kind := by
  have solid {other : TokenKind} (layout : other ∈ layoutKinds) :
      (some other == some kind) = false := by
    have different : other ≠ kind := fun equal => not_layout_of_not_raw free (equal ▸ layout)
    simpa using different
  refine (sim.sight near).view_eq (· == some kind) (fun other layout => ?_) ?_
  · rw [solid layout, solid (by decide : TokenKind.space ∈ layoutKinds)]
  · exact fun loose ended => (together.elim loose fun more => more ended).elim

/-- Whether a semicolon is there shows on both sides, but where they come apart. -/
theorem Lockstep.is_semicolon (near : sim.near s s') :
    s.is .semicolon = s'.is .semicolon ∨
      ¬ sim.strict ∧ s.rest = [] ∧ s.is .semicolon = false := by
  by_cases together : sim.strict ∨ s.rest ≠ []
  · exact Or.inl (sim.is_eq_together near together (by decide))
  · obtain ⟨loose, more⟩ := not_or.mp together
    have ended : s.rest = [] := not_not.mp more
    exact Or.inr ⟨loose, ended, by rw [TokenCursor.is, currentKind_nil ended]; rfl⟩

/-- The first parse ends where the second one does, unless they come apart there. -/
theorem Lockstep.willContinue_eq (near : sim.near s s') (together : sim.strict ∨ s.rest ≠ []) :
    s.willContinue = s'.willContinue := by
  rw [s.willContinue_eq_isSome, s'.willContinue_eq_isSome]
  refine (sim.sight near).view_eq Option.isSome (fun _ _ => rfl) fun loose ended => ?_
  exact (together.elim loose fun more => more ended).elim

/-- Behind layout, a rule that ends at a semicolon as well as at the end sees the same. -/
theorem Lockstep.ends_eq (ready : sim.ready s s') {kinds : List TokenKind}
    (semicolon : .semicolon ∈ kinds) (solid : ∀ kind ∈ kinds, kind ∉ layoutKinds) :
    (!s.willContinue || s.isAny kinds) = (!s'.willContinue || s'.isAny kinds) := by
  rw [s.willContinue_eq_isSome, s'.willContinue_eq_isSome]
  have unlisted {kind : TokenKind} (layout : kind ∈ layoutKinds) : kind ∉ kinds :=
    fun listed => solid kind listed layout
  refine (sim.sight_ready ready).view_eq (fun kind => !kind.isSome ||
    kind.any (kinds.contains ·)) (fun kind layout => ?_) fun _ _ kind other => ?_
  · simp [unlisted layout, unlisted (by decide : TokenKind.space ∈ layoutKinds)]
  · simp [List.mem_singleton.mp other, semicolon]

theorem Lockstep.At.shown (here : sim.At kind s s') (free : kind ∉ rawKinds) : sim.Shown s s' :=
  ⟨here.1, kind, free, here.2⟩

theorem Lockstep.At.more (here : sim.At kind s s') : s.rest ≠ [] :=
  more_of_currentKind here.2

theorem Lockstep.Seen.at (seen : sim.Seen (some kind) s s') : sim.At kind s s' :=
  ⟨seen.1, seen.2 kind rfl⟩

/-- A token of a kind that is no layout is there on both sides or on none. -/
theorem Lockstep.tokens_of_kind (near : sim.near s s') (solid : kind ∉ layoutKinds)
    (atKind : s.currentKind = some kind) : ∃ a b, s.current = some a ∧ s'.current = some b ∧
      sim.SameToken a b ∧ a.kind = kind := by
  have sight := sim.sight near
  have members := sim.mem near
  generalize atRest : s.rest = l at sight members
  generalize atRest' : s'.rest = l' at sight
  cases sight with
  | @same a b _ _ alike =>
    rw [currentKind_cons atRest] at atKind
    refine ⟨a, b, by simp [TokenCursor.current, atRest], by simp [TokenCursor.current, atRest'],
      ⟨members a (by simp), congrArg (·.kind) alike, congrArg (·.text) alike⟩, ?_⟩
    exact Option.some.inj atKind
  | layout _ _ first =>
    rw [currentKind_cons atRest] at atKind
    exact absurd (Option.some.inj atKind ▸ first) solid
  | _ =>
    rw [currentKind_nil atRest] at atKind
    cases atKind

end Sights

namespace Lockstep

section Contracts

theorem Within.from {pre' : State → State → Prop} (within : sim.Within lost pre post same p q)
    (weaker : ∀ {s s'}, pre' s s' → pre s s') : sim.Within lost pre' post same p q :=
  fun s s' start => within s s' (weaker start)

theorem Within.to {post' : State → State → Prop} {wider : α → α → Prop}
    (within : sim.Within lost pre post same p q) (weaker : ∀ {s s'}, post s s' → post' s s')
    (alike : ∀ {a b}, same a b → wider a b) : sim.Within lost pre post' wider p q := by
  intro s s' start
  refine (within s s' start).imp_left fun agree => ?_
  revert agree
  cases p s <;> cases q s' <;> simp only [Agree] <;> try exact id
  exact fun ⟨values, places⟩ => ⟨alike values, weaker places⟩

/-- Where the first rule cannot be lost the answers of both agree. -/
theorem Within.agree (never : sim.Within False pre post same p q) (start : pre s s') :
    sim.Agree post same (p s) (q s') :=
  (never s s' start).resolve_right fun gone => gone.1

theorem Within.seen {kind : TokenKind} (here : sim.Within lost (sim.At kind) post same p q) :
    sim.Within lost (sim.Seen (some kind)) post same p q :=
  here.from Seen.at

theorem within_of_agree (agree : ∀ {s s'}, pre s s' → sim.Agree post same (p s) (q s')) :
    sim.Within lost pre post same p q :=
  fun _ _ start => Or.inl (agree start)

/-- Two steps, the second on what the first has left. Where the first one has lost its
partner, the second one has to come to a complaint, or to be lost as well. -/
theorem Within.then {gone : Prop} (first : sim.Within gone pre mid same p q)
    (next : ∀ a b, same a b → sim.Within lost mid post same' (f a) (g b))
    (alone : gone → ∀ a t, t.rest = [] →
      (∃ e u, f a t = .error e u ∧ Anchored sim.tokens e u ∧ ¬ sim.strict) ∨
        lost ∧ ∃ b u, f a t = .ok b u ∧ u.rest = []) :
    sim.Within lost pre post same' (p >>= f) (q >>= g) := by
  intro s s' start
  cases run : p s with
  | error e t =>
    rcases first s s' start with agree | ⟨-, a, u, ok, -⟩
    · rw [run] at agree
      rw [bind_error run]
      refine Or.inl ⟨agree.1, fun strict => ?_⟩
      obtain ⟨e', u, fails, wording⟩ := agree.2 strict
      exact ⟨e', u, bind_error fails, wording⟩
    · rw [run] at ok
      cases ok
  | ok a t =>
    rw [bind_ok run]
    rcases first s s' start with agree | ⟨lonely, _, _, ok, ended⟩
    · cases run' : q s' with
      | error e u =>
        rw [run, run'] at agree
        exact agree.elim
      | ok b u =>
        rw [run, run'] at agree
        rw [bind_ok run']
        exact next a b agree.1 t u agree.2
    · rw [run] at ok
      cases ok
      refine (alone lonely a t ended).imp_left ?_
      rintro ⟨e, u, fails, anchored, loose⟩
      rw [fails]
      exact ⟨anchored, fun strict => absurd strict loose⟩

/-- Rules in step, one after the other, are in step. The first may not be lost here, so that the
second can be told where it starts. -/
theorem Within.bind (first : sim.Within False pre mid same p q)
    (next : ∀ a b, same a b → sim.Within lost mid post same' (f a) (g b)) :
    sim.Within lost pre post same' (p >>= f) (q >>= g) :=
  first.then next False.elim

/-- What has lost its partner at the end of the tokens comes to a complaint when the next
step needs a token. -/
theorem Within.caught (first : sim.Within (¬ sim.strict) pre mid same p q)
    (next : ∀ a b, same a b → sim.Within lost mid post same' (f a) (g b))
    (starves : ∀ a, sim.Starves (f a)) : sim.Within lost pre post same' (p >>= f) (q >>= g) := by
  refine first.then next fun loose a t ended => Or.inl ?_
  obtain ⟨e, u, fails, anchored⟩ := starves a t ended
  exact ⟨e, u, fails, anchored, loose⟩

/-- What is lost at the end of the tokens stays lost with a step that needs none. -/
theorem Within.andThen (first : sim.Within lost pre mid same p q)
    (next : ∀ a b, same a b → sim.Within lost mid post same' (f a) (g b))
    (stays : ∀ a, Stays (f a)) : sim.Within lost pre post same' (p >>= f) (q >>= g) :=
  first.then next fun gone a t ended => Or.inr ⟨gone, stays a t ended⟩

theorem pure_within {a b : α} (alike : same a b) :
    sim.Within lost pre pre same (pure a) (pure b) :=
  within_of_agree fun start => ⟨alike, start⟩

theorem Within.map {h k : α → β} (first : sim.Within lost pre post same p q)
    (next : ∀ {a b}, same a b → same' (h a) (k b)) :
    sim.Within lost pre post same' (h <$> p) (k <$> q) := by
  rw [← bind_pure_comp, ← bind_pure_comp]
  exact first.andThen (fun _ _ alike => pure_within (next alike)) fun _ => stays_pure _

theorem Within.pure_bind {a b : α} (next : sim.Within lost pre post same' (f a) (g b)) :
    sim.Within lost pre post same' (pure a >>= f) (pure b >>= g) :=
  next

/-- Both sides make the same complaint. The one about numbers is left out, since it has to be
anchored at a number. -/
theorem complain_within {complaint : Complaint} (other : complaint ≠ .numericLiteral) :
    sim.Within lost pre post same (complain complaint) (complain complaint) := by
  refine within_of_agree fun {s s'} _ => ⟨anchored_error s (Complaint.message_ne other), ?_⟩
  exact fun _ => ⟨_, s', rfl, by rw [text_error, text_error]⟩

/-- Nothing but extents depends on where a rule began. -/
theorem Within.mark {f g : Nat → Rule β}
    (next : ∀ start start', sim.Within lost pre post same' (f start) (g start')) :
    sim.Within lost pre post same' (mark >>= f) (mark >>= g) :=
  fun s s' start => next s.position s'.position s s' start

/-- Nodes of the same form differ in their extents only, which the comparison leaves out. -/
theorem makeNode_within {c c' : Construct} {start start' : Nat} (alike : c.erase = c'.erase) :
    sim.Within lost pre pre SameTree (makeNode start c) (makeNode start' c') := by
  refine within_of_agree fun here => ⟨?_, here⟩
  rw [SameTree, erase_eq, erase_eq, alike]

theorem Within.makeNode {c c' : Construct} {start start' : Nat} {f g : Tree → Rule β}
    (alike : c.erase = c'.erase)
    (next : ∀ a b, SameTree a b → sim.Within lost pre post same' (f a) (g b)) :
    sim.Within lost pre post same' (makeNode start c >>= f) (makeNode start' c' >>= g) :=
  (makeNode_within alike).bind next

end Contracts

section Tests

/-- A test that comes out the same on both sides. -/
theorem Within.test {view : State → Bool} (equal : ∀ {s s'}, pre s s' → view s = view s')
    (yes : sim.Within lost (fun s s' => pre s s' ∧ view s = true) post same p q)
    (no : sim.Within lost pre post same p' q') :
    sim.Within lost pre post same (observe view >>= fun there => if there then p else p')
      (observe view >>= fun there => if there then q else q') := by
  intro s s' start
  rw [observe_bind, observe_bind, ← equal start]
  cases seen : view s with
  | true => exact yes s s' ⟨start, seen⟩
  | false => exact no s s' start

/-- Both branches of a test that both sides decide alike. -/
theorem Within.ite {c : Bool} (yes : sim.Within lost pre post same p q)
    (no : sim.Within lost pre post same p' q') :
    sim.Within lost pre post same (if c then p else p') (if c then q else q') := by
  cases c with
  | true => exact yes
  | false => exact no

theorem at?_within {kind : TokenKind} (free : kind ∉ gapKinds) :
    sim.Within lost sim.near sim.near Eq (at? kind) (at? kind) :=
  within_of_agree fun near => ⟨sim.is_eq near free, near⟩

theorem Within.at? {kind : TokenKind} (free : kind ∉ gapKinds)
    (yes : sim.Within lost (sim.At kind) post same p q)
    (no : sim.Within lost sim.near post same p' q') :
    sim.Within lost sim.near post same (at? kind >>= fun there => if there then p else p')
      (at? kind >>= fun there => if there then q else q') :=
  .test (fun near => sim.is_eq near free)
    (yes.from fun ⟨near, there⟩ => ⟨near, beq_iff_eq.mp there⟩) no

theorem Within.atAny? {kinds : List TokenKind} (free : ∀ kind ∈ kinds, kind ∉ gapKinds)
    (yes : sim.Within lost sim.Shown post same p q)
    (no : sim.Within lost sim.near post same p' q') :
    sim.Within lost sim.near post same (atAny? kinds >>= fun there => if there then p else p')
      (atAny? kinds >>= fun there => if there then q else q') := by
  refine .test (fun near => sim.isAny_eq near free) (yes.from ?_) no
  rintro s s' ⟨near, there⟩
  obtain ⟨kind, atKind, listed⟩ := Option.any_eq_true .. |>.mp there
  exact ⟨near, kind, not_raw_of_not_gap (free kind (List.contains_iff_mem.mp listed)), atKind⟩

/-- A rule that goes by the current kind, if any, and takes what is between statements
for the end. -/
theorem Within.byKind {f g : Option TokenKind → Rule β}
    (blind : ∀ kind ∈ blankKinds, g (some kind) = g none)
    (each : ∀ kind, sim.Within lost (sim.Seen kind) post same' (f kind) (g kind)) :
    sim.Within lost sim.near post same' (currentKind? >>= f) (currentKind? >>= g) := by
  intro s s' near
  unfold currentKind?
  rw [observe_bind, observe_bind, ← sim.view_eq near g blind]
  exact each _ s s' ⟨near, fun k there => there⟩

/-- Where one side has come to the end and the other one sees a semicolon, a rule that
needs a token on the first side is as good as any. -/
theorem Within.hungry {view : State → Bool}
    (equal : ∀ {s s'}, sim.near s s' → view s = view s' ∨
      ¬ sim.strict ∧ s.rest = [] ∧ view s = false)
    (yes : sim.Within lost (fun s s' => sim.near s s' ∧ view s = true) post same p q)
    (no : sim.Within False sim.near post same p' q') (needs : Hungry p') :
    sim.Within lost sim.near post same (observe view >>= fun there => if there then p else p')
      (observe view >>= fun there => if there then q else q') := by
  intro s s' near
  rw [observe_bind, observe_bind]
  rcases equal near with seen | ⟨loose, ended, unseen⟩
  · rw [← seen]
    cases there : view s with
    | true => exact yes s s' ⟨near, there⟩
    | false => exact Or.inl (no.agree near)
  · have agree := no.agree near
    rw [unseen]
    change sim.Agree post same (p' s) _ ∨ _
    cases run : p' s with
    | ok a t => exact (needs s ended a t run).elim
    | error e t =>
      rw [run] at agree
      exact Or.inl ⟨agree.1, fun strict => absurd strict loose⟩

end Tests

section Steps

variable {kind : TokenKind} {complaint : Complaint} {f g : Token TokenKind → Rule β}

/-- Behind layout the two sides are ready: what was skipped may differ, and what comes then is the
same token or the end. -/
theorem trim_within : sim.Within lost sim.near sim.ready (fun _ _ => True) trim trim :=
  within_of_agree fun near => ⟨trivial, sim.trim_ready near⟩

/-- Where nothing depends on it, that layout was skipped is forgotten. -/
theorem trim_near_within : sim.Within lost sim.near sim.near (fun _ _ => True) trim trim :=
  trim_within.to sim.near_of_ready id

theorem trim_far_within : sim.Within lost sim.far sim.far (fun _ _ => True) trim trim :=
  within_of_agree fun far => ⟨trivial, sim.trim_far far⟩

theorem trimSeparators_within :
    sim.Within lost sim.far sim.far (fun _ _ => True) trimSeparators trimSeparators :=
  within_of_agree fun far => ⟨trivial, sim.skip_far far⟩

/-- A token of a kind that is no layout is taken on both sides. -/
theorem consume_at (near : sim.near s s') (solid : kind ∉ layoutKinds)
    (atKind : s.currentKind = some kind) : ∃ a b, a.kind = kind ∧ s.current = some a ∧
      consume s = .ok a s.next ∧ consume s' = .ok b s'.next ∧ sim.SameToken a b := by
  obtain ⟨a, b, here, here', alike, ofKind⟩ := sim.tokens_of_kind near solid atKind
  exact ⟨a, b, ofKind, here, by rw [consume, here], by rw [consume, here'], alike⟩

/-- A step over one token, where it is known what comes after it. -/
theorem consume_to (solid : kind ∉ layoutKinds)
    (moves : ∀ {s s'}, sim.At kind s s' → post s.next s'.next) :
    sim.Within lost (sim.At kind) post sim.SameToken consume consume := by
  refine within_of_agree fun here => ?_
  obtain ⟨a, b, -, -, run, run', alike⟩ := consume_at here.1 solid here.2
  rw [run, run']
  exact ⟨alike, moves here⟩

/-- Where both sides see a token that a rule may take, they take the same one. -/
theorem consume_within : sim.Within lost sim.Shown sim.near sim.SameToken consume consume := by
  refine within_of_agree fun ⟨near, kind, free, atKind⟩ => ?_
  obtain ⟨a, b, ofKind, here, run, run', alike⟩ :=
    consume_at near (not_layout_of_not_raw free) atKind
  rw [run, run']
  exact ⟨alike, sim.next_near near here (Or.inl (ofKind ▸ free))⟩

theorem eat_ready_within : sim.Within lost sim.Shown sim.ready sim.SameToken eat eat :=
  consume_within.bind fun _ _ alike => trim_within.bind fun _ _ _ => pure_within alike

theorem eat_within : sim.Within lost sim.Shown sim.near sim.SameToken eat eat :=
  eat_ready_within.to sim.near_of_ready id

theorem Within.eat (free : kind ∉ rawKinds) (next : ∀ a b, sim.SameToken a b →
      sim.Within lost sim.near post same' (f a) (g b)) :
    sim.Within lost (sim.At kind) post same' (eat >>= f) (eat >>= g) :=
  .bind (eat_within.from fun here => here.shown free) next

/-- A token of the given kind, on both sides or on none. Where the parses come apart there
is none on the first side. -/
theorem expect_from {complaint : Complaint}
    (enter : ∀ {s s'}, pre s s' → (sim.strict ∨ s.rest ≠ []) → sim.near s s')
    (free : kind ∉ rawKinds) (other : complaint ≠ .numericLiteral) :
    sim.Within lost pre sim.near (fun a b => sim.SameToken a b ∧ a.kind = kind)
      (expect kind complaint) (expect kind complaint) := by
  refine within_of_agree fun {s s'} start => ?_
  unfold expect Parser.expect
  rw [observe_bind]
  by_cases there : s.is kind = true
  · have atKind : s.currentKind = some kind := beq_iff_eq.mp there
    have more : s.rest ≠ [] := fun ended => by simp [currentKind_nil ended] at atKind
    have near := enter start (Or.inr more)
    obtain ⟨a, b, ofKind, here, run, run', alike⟩ :=
      consume_at near (not_layout_of_not_raw free) atKind
    have there' : s'.is kind = true := by
      rwa [← sim.is_eq_together near (Or.inr more) free]
    rw [observe_bind, if_pos there, if_pos there', run, run']
    exact ⟨⟨alike, ofKind⟩, sim.next_near near here (Or.inl (ofKind ▸ free))⟩
  · rw [if_neg there]
    refine ⟨anchored_error s (Complaint.message_ne other), fun strict => ?_⟩
    have same := sim.is_eq_together (enter start (Or.inl strict)) (Or.inl strict) free
    rw [observe_bind, if_neg (by rwa [← same])]
    exact ⟨_, s', rfl, by rw [text_error, text_error]⟩

/-- The token that is asked for is there on both sides, or both complain. -/
theorem Within.expect {complaint : Complaint} (free : kind ∉ rawKinds)
    (other : complaint ≠ .numericLiteral) (next : ∀ a b, sim.SameToken a b → a.kind = kind →
      sim.Within lost sim.near post same' (f a) (g b)) :
    sim.Within lost sim.near post same' (expect kind complaint >>= f)
      (expect kind complaint >>= g) :=
  (expect_from (fun near _ => near) free other).bind fun a b ⟨alike, ofKind⟩ =>
    next a b alike ofKind

theorem Within.expectFar {complaint : Complaint} (free : kind ∉ rawKinds)
    (other : complaint ≠ .numericLiteral) (next : ∀ a b, sim.SameToken a b → a.kind = kind →
      sim.Within lost sim.near post same' (f a) (g b)) :
    sim.Within lost sim.far post same' (Script.expect kind complaint >>= f)
      (Script.expect kind complaint >>= g) :=
  (expect_from sim.near_of_far free other).bind fun a b ⟨alike, ofKind⟩ => next a b alike ofKind

theorem expectTag_cons {token : Token TokenKind} {rest : List (Token TokenKind)}
    (ahead : s.rest = token :: rest) (tag : Tag) (text : String) : expectTag tag text s =
      if token.hasTag tag then .ok token s.next else .error (s.error text) s := by
  have current : s.current = some token := by rw [TokenCursor.current, ahead]; rfl
  unfold expectTag
  rw [observe_bind, TokenCursor.hasTag, current, Option.any_some]
  split
  · rw [consume, current]
  · rfl

theorem expectTag_nil (ended : s.rest = []) (tag : Tag) (text : String) :
    expectTag tag text s = .error (s.error text) s := by
  unfold expectTag
  rw [observe_bind, TokenCursor.hasTag, TokenCursor.current, ended]
  rfl

/-- A word, on both sides or on none. -/
theorem expectWord_within {complaint : Complaint} (other : complaint ≠ .numericLiteral) :
    sim.Within lost sim.near sim.near sim.SameToken
      (expectTag .word complaint.message) (expectTag .word complaint.message) := by
  refine within_of_agree fun {s s'} near => ?_
  have sight := sim.sight near
  generalize atRest : s.rest = l at sight
  generalize atRest' : s'.rest = l' at sight
  have anchored : Anchored sim.tokens (s.error complaint.message) s :=
    anchored_error s (Complaint.message_ne other)
  have wording : (s'.error complaint.message).text = (s.error complaint.message).text := by
    rw [text_error, text_error]
  have noWord {token : Token TokenKind} (layout : token.isSpace = true) :
      token.hasTag .word = false := by
    have tag : token.tag = some .whiteSpace := by simpa [Token.isSpace, Token.hasTag] using layout
    rw [Token.hasTag, tag]
    rfl
  cases sight with
  | @same x y _ _ alike =>
    have tags : x.hasTag .word = y.hasTag .word :=
      congrArg (fun piece => piece.tag == some Tag.word) alike
    rw [expectTag_cons atRest, expectTag_cons atRest', ← tags]
    cases word : x.hasTag .word with
    | false => exact ⟨anchored, fun _ => ⟨_, s', rfl, wording⟩⟩
    | true =>
      have current : s.current = some x := by rw [TokenCursor.current, atRest]; rfl
      have member : x ∈ s.rest := by simp [atRest]
      exact ⟨⟨sim.mem near x member, congrArg (·.kind) alike, congrArg (·.text) alike⟩,
        sim.next_near near current (Or.inr (beq_iff_eq.mp word))⟩
  | layout first second =>
    rw [expectTag_cons atRest, expectTag_cons atRest', noWord first, noWord second]
    exact ⟨anchored, fun _ => ⟨_, s', rfl, wording⟩⟩
  | ended =>
    rw [expectTag_nil atRest, expectTag_nil atRest']
    exact ⟨anchored, fun _ => ⟨_, s', rfl, wording⟩⟩
  | beyond loose =>
    rw [expectTag_nil atRest]
    exact ⟨anchored, fun strict => absurd strict loose⟩

/-- A token that is taken if it is there; nothing is forgotten if it is not. -/
theorem Within.consumeIfFrom {f g : Option (Token TokenKind) → Rule β}
    (equal : ∀ {s s'}, pre s s' → s.is kind = s'.is kind)
    (here : ∀ {s s'}, pre s s' → s.is kind = true → sim.Shown s s')
    (yes : ∀ a b, sim.SameToken a b → sim.Within lost sim.near post same' (f (some a)) (g (some b)))
    (no : sim.Within lost pre post same' (f none) (g none)) :
    sim.Within lost pre post same' (consumeIf kind >>= f) (consumeIf kind >>= g) := by
  rw [consumeIf_bind, consumeIf_bind]
  exact .test equal (.bind (consume_within.from fun ⟨start, there⟩ => here start there) yes) no

theorem Within.acceptFrom {f g : Bool → Rule β}
    (equal : ∀ {s s'}, pre s s' → s.is kind = s'.is kind)
    (here : ∀ {s s'}, pre s s' → s.is kind = true → sim.Shown s s')
    (yes : sim.Within lost sim.near post same' (f true) (g true))
    (no : sim.Within lost pre post same' (f false) (g false)) :
    sim.Within lost pre post same' (accept kind >>= f) (accept kind >>= g) := by
  rw [accept_bind, accept_bind]
  exact .consumeIfFrom equal here (fun _ _ _ => yes) no

theorem shown_of_is (free : kind ∉ rawKinds) (near : sim.near s s') (there : s.is kind = true) :
    sim.Shown s s' :=
  ⟨near, kind, free, beq_iff_eq.mp there⟩

theorem Within.consumeIf {f g : Option (Token TokenKind) → Rule β} (free : kind ∉ gapKinds)
    (yes : ∀ a b, sim.SameToken a b → sim.Within lost sim.near post same' (f (some a)) (g (some b)))
    (no : sim.Within lost sim.near post same' (f none) (g none)) :
    sim.Within lost sim.near post same' (consumeIf kind >>= f) (consumeIf kind >>= g) :=
  .consumeIfFrom (fun near => sim.is_eq near free) (shown_of_is (not_raw_of_not_gap free)) yes no

theorem Within.accept {f g : Bool → Rule β} (free : kind ∉ gapKinds)
    (yes : sim.Within lost sim.near post same' (f true) (g true))
    (no : sim.Within lost sim.near post same' (f false) (g false)) :
    sim.Within lost sim.near post same' (accept kind >>= f) (accept kind >>= g) :=
  .acceptFrom (fun near => sim.is_eq near free) (shown_of_is (not_raw_of_not_gap free)) yes no

theorem Within.acceptIte (free : kind ∉ gapKinds)
    (yes : sim.Within lost sim.near post same p q) (no : sim.Within lost sim.near post same p' q') :
    sim.Within lost sim.near post same (Parser.accept kind >>= fun there => if there then p else p')
      (Parser.accept kind >>= fun there => if there then q else q') :=
  .accept free yes no

theorem accept_within (free : kind ∉ gapKinds) :
    sim.Within lost sim.near sim.near Eq (accept kind) (accept kind) := by
  rw [← bind_pure (Parser.accept kind)]
  exact .accept free (pure_within rfl) (pure_within rfl)

end Steps

section Loops

theorem stays_trim : Stays trim :=
  fun s ended => ⟨(), _, rfl, by rw [TokenCursor.skipWhile, ended]; rfl⟩

theorem stays_trimSeparators : Stays trimSeparators :=
  fun s ended => ⟨(), _, rfl, by rw [TokenCursor.skipWhile, ended]; rfl⟩

theorem stays_commaFollows : Stays commaFollows := by
  refine stays_trim.bind fun _ s ended => ?_
  have absent : Parser.accept .comma s = .ok false s := by
    have nothing : consumeIf .comma s = .ok none s := by
      rw [Parser.consumeIf, TokenCursor.is, currentKind_nil ended]
      rfl
    exact bind_ok (f := fun token => pure token.isSome) nothing
  rw [bind_ok absent]
  exact ⟨false, s, rfl, ended⟩

theorem stays_separators : Stays (do trimSeparators; return true : Rule Bool) :=
  stays_trimSeparators.bind fun _ => stays_pure true

variable {stop : State → Bool} {item : Rule α} {more : Rule Bool}

/-- At the end of the tokens a loop has no items and stays there. -/
theorem stays_itemsWithin (budget : Nat) : Stays (itemsWithin stop item more budget) := by
  intro s ended
  cases budget with
  | zero => exact ⟨[], s, rfl, ended⟩
  | succ budget =>
    rw [itemsWithin_succ, if_pos (by simp [TokenCursor.willContinue, ended])]
    exact ⟨[], s, rfl, ended⟩

/-- A loop with one budget on both sides. -/
theorem itemsWithin_within
    (stops : ∀ {s s'}, pre s s' → (!s.willContinue || stop s) = (!s'.willContinue || stop s') ∨
      lost ∧ s.rest = [])
    (each : sim.Within lost (fun s s' => pre s s' ∧ s.rest ≠ []) mid same item item)
    (goOn : sim.Within False mid pre Eq more more) (stays : Stays more) (budget : Nat) :
    sim.Within lost pre pre (List.Forall₂ same) (itemsWithin stop item more budget)
      (itemsWithin stop item more budget) := by
  induction budget with
  | zero => exact pure_within .nil
  | succ budget ih =>
    intro s s' start
    rcases stops start with equal | ⟨gone, ended⟩
    · unfold itemsWithin
      rw [observe_bind, observe_bind, ← equal]
      cases stopped : !s.willContinue || stop s with
      | true => exact Or.inl ⟨.nil, start⟩
      | false =>
        have more : s.rest ≠ [] := fun ended => by simp [TokenCursor.willContinue, ended] at stopped
        refine each.andThen (fun a b alike => ?_) (fun a => ?_) s s' ⟨start, more⟩
        · refine goOn.bind fun there _ same => same ▸ .ite ?_ (pure_within (.cons alike .nil))
          refine ih.andThen (fun _ _ others => pure_within (.cons alike others)) ?_
          exact fun _ => stays_pure _
        · refine stays.bind fun there => ?_
          cases there with
          | true => exact (stays_itemsWithin budget).bind fun _ => stays_pure _
          | false => exact stays_pure _
    · have stuck : Stays (itemsWithin stop item more (budget + 1)) := stays_itemsWithin _
      obtain ⟨found, t, run, ended'⟩ := stuck s ended
      exact Or.inr ⟨gone, found, t, run, ended'⟩

theorem items_within (ends : EndsInTime item more)
    (stops : ∀ {s s'}, pre s s' → (!s.willContinue || stop s) = (!s'.willContinue || stop s') ∨
      lost ∧ s.rest = [])
    (each : sim.Within lost (fun s s' => pre s s' ∧ s.rest ≠ []) mid same item item)
    (goOn : sim.Within False mid pre Eq more more) (stays : Stays more) :
    sim.Within lost pre pre (List.Forall₂ same) (items stop item more)
      (items stop item more) := by
  intro s s' start
  have within := itemsWithin_within stops each goOn stays (max s.rest.length s'.rest.length)
  rw [← ends stop s _ (Nat.le_max_left ..), ← ends stop s' _ (Nat.le_max_right ..)]
  exact within s s' start

/-- Where a loop in brackets stops shows on both sides, but where they come apart. -/
theorem stops_inside (enter : ∀ {s s'}, pre s s' → (sim.strict ∨ s.rest ≠ []) → sim.near s s')
    (equal : ∀ {s s'}, sim.near s s' → stop s = stop s') (start : pre s s') :
    (!s.willContinue || stop s) = (!s'.willContinue || stop s') ∨ ¬ sim.strict ∧ s.rest = [] := by
  by_cases together : sim.strict ∨ s.rest ≠ []
  · have near := enter start together
    rw [sim.willContinue_eq near together, equal near]
    exact Or.inl rfl
  · obtain ⟨loose, more⟩ := not_or.mp together
    exact Or.inr ⟨loose, not_not.mp more⟩

theorem commaFollows_within : sim.Within lost sim.near sim.ready Eq commaFollows commaFollows := by
  refine trim_within.bind fun _ _ _ => ?_
  refine .acceptFrom (fun ready => sim.is_eq (sim.near_of_ready ready) (by decide))
    (fun ready there => shown_of_is (by decide) (sim.near_of_ready ready) there) ?_
    (pure_within rfl)
  exact trim_within.bind fun _ _ _ => pure_within rfl

theorem commaFollows_near : sim.Within lost sim.near sim.near Eq commaFollows commaFollows :=
  commaFollows_within.to sim.near_of_ready id

variable {stop : List TokenKind}

/-- Lists are in step when their items are. Where the first side has come to its end inside a list,
it is lost, and what is behind the list has to need a token. -/
theorem commaSeparated_within (ends : EndsInTime item commaFollows)
    (free : ∀ kind ∈ stop, kind ∉ gapKinds)
    (each : sim.Within (¬ sim.strict) sim.near sim.near same item item) :
    sim.Within (¬ sim.strict) sim.near sim.near (List.Forall₂ same) (commaSeparated stop item)
      (commaSeparated stop item) :=
  items_within ends (stops_inside (fun near _ => near) fun near => sim.isAny_eq near free)
    (each.from And.left) commaFollows_near stays_commaFollows

theorem separated_within (ends : EndsInTime item (do trimSeparators; return true))
    (free : ∀ kind ∈ stop, kind ∉ gapKinds)
    (each : sim.Within (¬ sim.strict) sim.near sim.far same item item) :
    sim.Within (¬ sim.strict) sim.far sim.far (List.Forall₂ same) (separated stop item)
      (separated stop item) :=
  items_within ends (stops_inside sim.near_of_far fun near => sim.isAny_eq near free)
    (each.from fun ⟨far, more⟩ => sim.near_of_far far (Or.inr more))
    (trimSeparators_within.bind fun _ _ _ => pure_within rfl) stays_separators

end Loops

section Starving

variable {kind : TokenKind} {complaint : Complaint}

theorem starves_expect {f : Token TokenKind → Rule β} (other : complaint ≠ .numericLiteral) :
    sim.Starves (expect kind complaint >>= f) := by
  intro s ended
  have absent : expect kind complaint s = .error (s.error complaint.message) s := by
    unfold expect Parser.expect
    rw [observe_bind, TokenCursor.is, currentKind_nil ended]
    rfl
  exact ⟨_, s, bind_error absent, anchored_error s (Complaint.message_ne other)⟩

theorem Starves.trim {f : Unit → Rule β} (starves : sim.Starves (f ())) :
    sim.Starves (Script.trim >>= f) := by
  intro s ended
  obtain ⟨_, t, run, ended'⟩ := stays_trim s ended
  rw [bind_ok run]
  exact starves t ended'

/-- A list of trees in brackets, and what needs the closing one. -/
theorem Within.listed {stop : List TokenKind} {item : Rule Tree} {f g : List Tree → Rule β}
    (ends : EndsInTime item commaFollows) (free : ∀ kind ∈ stop, kind ∉ gapKinds)
    (each : sim.Within (¬ sim.strict) sim.near sim.near SameTree item item)
    (starves : ∀ a, sim.Starves (f a))
    (next : ∀ a b, SameTrees a b → sim.Within lost sim.near post same' (f a) (g b)) :
    sim.Within lost sim.near post same' (commaSeparated stop item >>= f)
      (commaSeparated stop item >>= g) :=
  (commaSeparated_within ends free each).caught
    (fun a b alike => next a b (eraseAll_eq_of_forall₂ alike)) starves

/-- A list of trees with separators between them in braces, and what needs the closing one. -/
theorem Within.separated {stop : List TokenKind} {item : Rule Tree} {f g : List Tree → Rule β}
    (ends : EndsInTime item (do trimSeparators; return true))
    (free : ∀ kind ∈ stop, kind ∉ gapKinds)
    (each : sim.Within (¬ sim.strict) sim.near sim.far SameTree item item)
    (starves : ∀ a, sim.Starves (f a))
    (next : ∀ a b, SameTrees a b → sim.Within lost sim.far post same' (f a) (g b)) :
    sim.Within lost sim.far post same' (separated stop item >>= f) (separated stop item >>= g) :=
  (separated_within ends free each).caught
    (fun a b alike => next a b (eraseAll_eq_of_forall₂ alike)) starves

end Starving

theorem markModule_within {kind : TokenKind} :
    sim.Within lost (sim.At kind) (sim.At kind) (fun _ _ => True) markModule markModule :=
  within_of_agree fun here => ⟨trivial, sim.esm_near here.1, here.2⟩

/-- What a lockstep has to know of the rules for which it is not enough to take the tokens one by
one: comments and regular expressions, which take layout along. -/
structure Leaves (sim : Lockstep) : Prop where
  blockComment {lost : Prop} :
    sim.Within lost (sim.At .slashAsterisk) sim.near SameTree blockComment blockComment
  lineComment {lost : Prop} :
    sim.Within lost (sim.At .doubleSlash) sim.near SameTree lineComment lineComment
  regExpLiteral {lost : Prop} :
    sim.Within lost (sim.At .slash) sim.near SameTree regExpLiteral regExpLiteral

/-- Rules that keep two parses in step. The rules one level deeper then do so too, and from rules
that refuse everything all levels are reached. -/
structure Inner (sim : Lockstep) (r : Rules) : Prop extends sim.Leaves where
  settled : ∀ n, Rules.Settled n r r
  statement : ∀ {lost : Prop} allowIn,
    sim.Within lost sim.near sim.far SameTree (r.statement allowIn) (r.statement allowIn)
  expression : ∀ {lost : Prop} allowIn,
    sim.Within lost sim.near sim.near SameTree (r.expression allowIn) (r.expression allowIn)
  binding : ∀ {lost : Prop} allowIn,
    sim.Within lost sim.near sim.near SameTree (r.binding allowIn) (r.binding allowIn)
  ifStatement : ∀ {lost : Prop} allowIn,
    sim.Within lost (sim.At .kwIf) sim.far SameTree (r.ifStatement allowIn)
      (r.ifStatement allowIn)

theorem Inner.ends {r : Rules} (inner : sim.Inner r) : r.LoopsEnd := Rules.loopsEnd inner.settled

end Lockstep

end ScriptFront.Script
