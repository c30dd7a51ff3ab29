import ScriptFront.Proofs.Derivation.Basic
import ScriptFront.Proofs.Forward

namespace ScriptFront.Script

open ScriptFront.Parser

variable {α β : Type}

/-- The place behind a stretch that was started behind the tokens `origin`. -/
def Stretch.state (s : Stretch) (origin left : List (Token TokenKind)) (found : Properties) :
    State :=
  ⟨s.tokens.reverse ++ origin, left, found⟩

/-- The answer of a rule, which is left at `t`. -/
def settle (t : State) : Except ParseError α → EStateM.Result ParseError State α
  | .ok a => .ok a t
  | .error e => .error e t

/-- Behind the stretch `so` and in front of the tokens `rest` the rule has one answer,
whatever the properties are, and does one thing to them. A finding satisfies `goal`
together with the whole stretch, and a failure complains about the place where it was met. -/
def Yields (origin : List (Token TokenKind)) (so : Stretch) (rest : List (Token TokenKind))
    (p : Rule α) (goal : α → Stretch → Prop) : Prop :=
  ∃ (step : Stretch) (left : List (Token TokenKind)) (outcome : Except ParseError α),
    rest = step.tokens ++ left ∧
    (∀ found, p (so.state origin rest found) =
      settle ((so ++ step).state origin left (step.properties found)) outcome) ∧
    match outcome with
    | .ok a => goal a (so ++ step)
    | .error e => ∀ found, ∃ text, e = ((so ++ step).state origin left found).error text

/-- The kind of the first token. -/
def firstKind (rest : List (Token TokenKind)) : Option TokenKind := rest.head?.map (·.kind)

theorem head?_any_kind (rest : List (Token TokenKind)) (kind : TokenKind) :
    rest.head?.any (·.kind = kind) = (firstKind rest == some kind) := by
  cases rest <;> rfl

variable {origin rest : List (Token TokenKind)} {so : Stretch} {p q : Rule α} {f : α → Rule β}
  {post : α → Stretch → Prop} {goal : β → Stretch → Prop}

/-- What a rule yields the next one goes on from. A failure of the first is the failure of both. -/
theorem Yields.bind (first : Yields origin so rest p post)
    (next : ∀ a s left, post a s → Yields origin s left (f a) goal) :
    Yields origin so rest (p >>= f) goal := by
  obtain ⟨step, left, outcome, split, run, found⟩ := first
  cases outcome with
  | error e => exact ⟨step, left, .error e, split, fun found => bind_error (run found), found⟩
  | ok a =>
    obtain ⟨step', left', outcome', split', run', found'⟩ := next a (so ++ step) left found
    refine ⟨step ++ step', left', outcome', by simp [split, split'], fun found => ?_, ?_⟩
    · rw [bind_ok (run found), run', Stretch.properties_append, Stretch.append_assoc]
    · rwa [← Stretch.append_assoc]

theorem Yields.mono {post' : α → Stretch → Prop} (yields : Yields origin so rest p post)
    (weaker : ∀ a s, post a s → post' a s) : Yields origin so rest p post' := by
  obtain ⟨step, left, outcome, split, run, found⟩ := yields
  refine ⟨step, left, outcome, split, run, ?_⟩
  cases outcome with
  | error e => exact found
  | ok a => exact weaker a _ found

/-- A rule does not look back: what it does from a fresh start it does behind any stretch. -/
theorem Yields.behind (yields : Yields (so.tokens.reverse ++ origin) {} rest p post) :
    Yields origin so rest p fun a s => ∃ step, s = so ++ step ∧ post a step := by
  obtain ⟨step, left, outcome, split, run, found⟩ := yields
  have place (left : List (Token TokenKind)) (found : Properties) :
      (so ++ step).state origin left found =
        step.state (so.tokens.reverse ++ origin) left found := by
    simp [Stretch.state]
  refine ⟨step, left, outcome, split, fun found => ?_, ?_⟩
  · rw [place]
    exact run found
  · cases outcome with
    | ok a => exact ⟨step, rfl, found⟩
    | error e =>
      simp only [place]
      exact found

theorem Yields.ite {c : Bool} (yes : Yields origin so rest p post)
    (no : Yields origin so rest q post) : Yields origin so rest (if c then p else q) post := by
  cases c with
  | true => exact yes
  | false => exact no

theorem yields_pure {a : α} (found : post a so) : Yields origin so rest (pure a : Rule α) post :=
  ⟨{}, rest, .ok a, rfl, fun _ => by rw [Stretch.append_empty]; rfl, by rwa [Stretch.append_empty]⟩

theorem Yields.map {h : α → β} (yields : Yields origin so rest p fun a s => goal (h a) s) :
    Yields origin so rest (h <$> p) goal := by
  rw [← bind_pure_comp]
  exact yields.bind fun a s left found => yields_pure found

/-- A complaint is made about the place where it is made, which is all that is asked of a failure.
-/
theorem yields_complain (complaint : Complaint) :
    Yields origin so rest (complain complaint : Rule α) post := by
  refine ⟨{}, rest, .error ((so.state origin rest {}).error complaint.message), rfl, ?_, ?_⟩
  · intro found
    rw [Stretch.append_empty]
    rfl
  · intro found
    rw [Stretch.append_empty]
    exact ⟨complaint.message, rfl⟩

/-- What shows in the tokens alone is the same whatever the properties are. -/
theorem yields_observe {view : State → α} (value : List (Token TokenKind) → α)
    (shows : ∀ s : State, view s = value s.rest)
    (next : Yields origin so rest (f (value rest)) goal) :
    Yields origin so rest (observe view >>= f) goal := by
  obtain ⟨step, left, outcome, split, run, found⟩ := next
  refine ⟨step, left, outcome, split, fun found => ?_, found⟩
  rw [observe_bind, shows]
  exact run found

/-- A test that shows in the tokens has the same answer whatever the properties are, so one branch
is followed in each case. -/
theorem yields_if {view : State → Bool} {yes no : Rule α} (value : List (Token TokenKind) → Bool)
    (shows : ∀ s : State, view s = value s.rest)
    (there : value rest = true → Yields origin so rest yes post)
    (other : value rest = false → Yields origin so rest no post) :
    Yields origin so rest (observe view >>= fun there => if there then yes else no) post := by
  apply yields_observe value shows
  cases seen : value rest with
  | true => exact there seen
  | false => exact other seen

/-- Nothing but extents depends on where a rule began. -/
theorem yields_mark {f : Nat → Rule β} (next : ∀ start, Yields origin so rest (f start) goal) :
    Yields origin so rest (mark >>= f) goal := by
  obtain ⟨step, left, outcome, split, run, found⟩ := next (so.tokens.length + origin.length)
  refine ⟨step, left, outcome, split, fun found => ?_, found⟩
  rw [mark, observe_bind]
  simpa [TokenCursor.position, Stretch.state] using run found

/-- A rule that begins where the stretch does. -/
theorem yields_start {f : Nat → Rule β} (next : Yields origin {} rest (f origin.length) goal) :
    Yields origin {} rest (mark >>= f) goal := by
  obtain ⟨step, left, outcome, split, run, found⟩ := next
  exact ⟨step, left, outcome, split, fun found => run found, found⟩

/-- Marking the module takes no token and is noted in the stretch. -/
theorem yields_markModule {f : Unit → Rule β}
    (next : Yields origin (so ++ ⟨[], true⟩) rest (f ()) goal) :
    Yields origin so rest (markModule >>= f) goal := by
  obtain ⟨step, left, outcome, split, run, found⟩ := next
  refine ⟨⟨[], true⟩ ++ step, left, outcome, by simpa using split, fun found => ?_, ?_⟩
  · have marked : markModule (so.state origin rest found) =
        .ok () ((so ++ ⟨[], true⟩).state origin rest { found with sourceType := .esm }) := by
      simp only [Stretch.state, Stretch.tokens_append, List.append_nil]
      rfl
    rw [bind_ok marked, run, Stretch.properties_append, Stretch.append_assoc]
    rfl
  · rwa [← Stretch.append_assoc]

section Taking

/-- A token goes over to the stretch. At the end of the tokens the failure is about that end. -/
theorem yields_consume {f : Token TokenKind → Rule β}
    (next : ∀ token left, rest = token :: left →
      Yields origin (so ++ ⟨[token], false⟩) left (f token) goal) :
    Yields origin so rest (consume >>= f) goal := by
  cases rest with
  | nil =>
    refine ⟨{}, [], .error ((so.state origin [] {}).error "Unexpected end of input"), rfl, ?_, ?_⟩
    · intro found
      rw [Stretch.append_empty]
      exact bind_error rfl
    · intro found
      rw [Stretch.append_empty]
      exact ⟨_, rfl⟩
  | cons token left =>
    obtain ⟨step, left', outcome, split, run, found⟩ := next token left rfl
    refine ⟨⟨[token], false⟩ ++ step, left', outcome, by simp [split], fun found => ?_, ?_⟩
    · have taken : consume (so.state origin (token :: left) found) =
          .ok token ((so ++ ⟨[token], false⟩).state origin left found) := by
        simp [consume, TokenCursor.current, TokenCursor.next, Stretch.state]
      rw [bind_ok taken, run, Stretch.properties_append, Stretch.append_assoc]
      rfl
    · rwa [← Stretch.append_assoc]

/-- All the tokens of a skip go over to the stretch together. -/
theorem yields_skip {skip : Rule Unit} (test : Token TokenKind → Bool)
    (skips : ∀ s, skip s = .ok () (s.skipWhile test)) {f : Unit → Rule β}
    (next : Yields origin (so ++ ⟨rest.takeWhile test, false⟩) (rest.dropWhile test) (f ()) goal) :
    Yields origin so rest (skip >>= f) goal := by
  obtain ⟨step, left, outcome, split, run, found⟩ := next
  refine ⟨⟨rest.takeWhile test, false⟩ ++ step, left, outcome, ?_, fun found => ?_, ?_⟩
  · rw [Stretch.tokens_append, List.append_assoc, ← split, List.takeWhile_append_dropWhile]
  · have skipped : skip (so.state origin rest found) =
        .ok () ((so ++ ⟨rest.takeWhile test, false⟩).state origin (rest.dropWhile test) found) := by
      rw [skips]
      simp [TokenCursor.skipWhile, Stretch.state]
    rw [bind_ok skipped, run, Stretch.properties_append, Stretch.append_assoc]
    rfl
  · rwa [← Stretch.append_assoc]

/-- In the branch of a kind the first token is of it. -/
theorem yields_is {kind : TokenKind} {yes no : Rule α}
    (there : firstKind rest = some kind → Yields origin so rest yes post)
    (other : Yields origin so rest no post) :
    Yields origin so rest (observe (·.is kind) >>= fun there => if there then yes else no)
      post := by
  apply yields_if (fun rest => firstKind rest == some kind) fun _ => rfl
  · exact fun seen => there (beq_iff_eq.mp seen)
  · exact fun _ => other

theorem yields_isAny {kinds : List TokenKind} {yes no : Rule α}
    (there : ∀ kind ∈ kinds, firstKind rest = some kind → Yields origin so rest yes post)
    (other : Yields origin so rest no post) :
    Yields origin so rest (observe (·.isAny kinds) >>= fun there => if there then yes else no)
      post := by
  apply yields_if (fun rest => (firstKind rest).any (kinds.contains ·)) fun _ => rfl
  · intro seen
    obtain ⟨kind, first, listed⟩ := Option.any_eq_true .. |>.mp seen
    exact there kind (List.contains_iff_mem.mp listed) first
  · exact fun _ => other

theorem followedBy_eq_firstKind (kind : TokenKind) (s : State) :
    followedBy kind s = (firstKind (s.rest.tail.dropWhile Token.isSpace) == some kind) := by
  have shown (first : Option (Token TokenKind)) :
      first.any (·.kind = kind) = (first.map (·.kind) == some kind) := by
    cases first <;> rfl
  unfold followedBy
  cases s.rest with
  | nil => rfl
  | cons token tokens => exact shown _

/-- In the branch of a kind behind the current token, the token there is of it. -/
theorem yields_followedBy {kind : TokenKind} {yes no : Rule α}
    (there : firstKind (rest.tail.dropWhile Token.isSpace) = some kind →
      Yields origin so rest yes post)
    (other : Yields origin so rest no post) :
    Yields origin so rest (observe (followedBy kind) >>= fun there => if there then yes else no)
      post := by
  apply yields_if (fun rest => firstKind (rest.tail.dropWhile Token.isSpace) == some kind)
    (followedBy_eq_firstKind kind)
  · exact fun seen => there (beq_iff_eq.mp seen)
  · exact fun _ => other

/-- A rule that distinguishes first kinds goes on with the one that is there. -/
theorem yields_currentKind {f : Option TokenKind → Rule β}
    (next : Yields origin so rest (f (firstKind rest)) goal) :
    Yields origin so rest (currentKind? >>= f) goal :=
  yields_observe firstKind (fun _ => rfl) next

/-- A token asked for goes over to the stretch, or the failure is about its place. -/
theorem yields_expect {kind : TokenKind} {complaint : Complaint} {f : Token TokenKind → Rule β}
    (next : ∀ token left, token.kind = kind →
      Yields origin (so ++ ⟨[token], false⟩) left (f token) goal) :
    Yields origin so rest (expect kind complaint >>= f) goal := by
  have taken : Yields origin so rest (expect kind complaint) fun token s =>
      token.kind = kind ∧ s = so ++ ⟨[token], false⟩ := by
    apply yields_is
    · intro first
      rw [← bind_pure consume]
      apply yields_consume
      rintro token left rfl
      exact yields_pure ⟨Option.some.inj first, rfl⟩
    · exact yields_complain complaint
  apply taken.bind
  rintro token _ left ⟨ofKind, rfl⟩
  exact next token left ofKind

theorem yields_consumeIf {kind : TokenKind} {f : Option (Token TokenKind) → Rule β}
    (yes : ∀ token left, token.kind = kind →
      Yields origin (so ++ ⟨[token], false⟩) left (f (some token)) goal)
    (no : Yields origin so rest (f none) goal) :
    Yields origin so rest (consumeIf kind >>= f) goal := by
  rw [consumeIf_bind]
  apply yields_is
  · intro first
    apply yields_consume
    rintro token left rfl
    exact yes token left (Option.some.inj first)
  · exact no

theorem yields_accept {kind : TokenKind} {f : Bool → Rule β}
    (yes : ∀ token left, token.kind = kind →
      Yields origin (so ++ ⟨[token], false⟩) left (f true) goal)
    (no : Yields origin so rest (f false) goal) :
    Yields origin so rest (accept kind >>= f) goal := by
  rw [accept_bind]
  exact yields_consumeIf yes no

end Taking

section Nodes

/-- A node that was started where the stretch was reaches over the tokens of the stretch. Of nodes
started elsewhere only the kind is known. -/
theorem makeNode_yields (start : Nat) (c : Construct) :
    Yields origin so rest (makeNode start c : Rule Tree) fun t s =>
      s = so ∧ t.kind = c ∧ (start = origin.length → Extent so.tokens t.span) := by
  refine ⟨{}, rest, .ok ⟨c, (so.state origin rest {}).spanSince start⟩, rfl, fun found => ?_, ?_⟩
  · rw [Stretch.append_empty]
    rfl
  refine ⟨so.append_empty, rfl, ?_⟩
  rintro rfl first last atFirst atLast
  have size : (so.tokens.reverse ++ origin).length - origin.length = so.tokens.reverse.length := by
    simp
  simp only [Stretch.state, TokenCursor.spanSince, TokenCursor.position, size, List.take_left,
    List.filter_reverse, List.getLast?_reverse, List.head?_reverse, atFirst, atLast]

end Nodes

end ScriptFront.Script
