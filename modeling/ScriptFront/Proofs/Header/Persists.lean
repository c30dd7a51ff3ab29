import ScriptFront.Proofs.Grammar.Progress
import ScriptFront.Proofs.Header.Sheltered

namespace ScriptFront.Script

open ScriptFront.Parser

variable {ts : List (Token TokenKind)} {i j : Nat} {α β : Type}

/-- Started at the `i`-th of the tokens, the second rule does what the first one does
whenever that finds something of which `asks` holds. This is only asked of what is found if
`given` holds as well. -/
def Persists (ts : List (Token TokenKind)) (i : Nat) (given : Prop) (p q : Rule α)
    (asks : α → Prop) : Prop :=
  ∀ s a t, s.tokens = ts → s.position = i → p s = .ok a t →
    t.tokens = ts ∧ i ≤ t.position ∧ (asks a → given ∧ q s = .ok a t)

namespace Persists

variable {given : Prop} {p q yes no yes' no' : Rule α} {f g : α → Rule β} {asks : α → Prop}
  {wants : β → Prop}

/-- What the second step asks of a finding is what the first step has to answer for. -/
theorem chain {asked : α → Prop} (first : Persists ts i given p q asked)
    (next : ∀ a j, i ≤ j → Persists ts j (asked a) (f a) (g a) wants) :
    Persists ts i given (p >>= f) (q >>= g) wants := by
  intro s b u atTokens atPlace run
  cases found : p s with
  | error e t =>
    rw [bind_error found] at run
    cases run
  | ok a t =>
    rw [bind_ok found] at run
    obtain ⟨same, onward, alike⟩ := first s a t atTokens atPlace found
    obtain ⟨same', onward', alike'⟩ := next a t.position onward t b u same rfl run
    refine ⟨same', Nat.le_trans onward onward', fun wanted => ?_⟩
    obtain ⟨asked, run'⟩ := alike' wanted
    exact (alike asked).imp_right fun run => (bind_ok run).trans run'

/-- What the second step asks for has to be what the first one grants. The promise is handed
backwards, from the node made at the end to its parts. -/
theorem bind {asked : α → Prop} (first : Persists ts i True p q asked)
    (next : ∀ a j, i ≤ j → Persists ts j (given ∧ asked a) (f a) (g a) wants) :
    Persists ts i given (p >>= f) (q >>= g) wants := by
  refine .chain (fun s a t atTokens atPlace run => ?_) next
  obtain ⟨same, onward, alike⟩ := first s a t atTokens atPlace run
  exact ⟨same, onward, fun ⟨holds, asked⟩ => ⟨holds, (alike asked).2⟩⟩

/-- A step that both rules begin with. -/
theorem step {post : α → Nat → Prop} (lands : Lands ts i p post)
    (next : ∀ a j, i ≤ j → post a j → Persists ts j given (f a) (g a) wants) :
    Persists ts i given (p >>= f) (p >>= g) wants := by
  intro s b u atTokens atPlace run
  cases found : p s with
  | error e t =>
    rw [bind_error found] at run
    cases run
  | ok a t =>
    rw [bind_ok found] at run
    obtain ⟨same, onward, holds⟩ := lands s a t atTokens atPlace found
    obtain ⟨same', onward', alike⟩ := next a t.position onward holds t b u same rfl run
    exact ⟨same', Nat.le_trans onward onward', fun wanted =>
      (alike wanted).imp_right (bind_ok found).trans⟩

/-- A step that does not depend on `in` is the same in both rules. -/
theorem skip (steady : ∀ n, Steady n p p)
    (next : ∀ a j, i ≤ j → Persists ts j given (f a) (g a) wants) :
    Persists ts i given (p >>= f) (p >>= g) wants :=
  .step (lands_of_steady steady) fun a j onward _ => next a j onward

/-- One rule does what it does. -/
theorem same (steady : ∀ n, Steady n p p) (holds : ∀ a, asks a → given) :
    Persists ts i given p p asks := by
  intro s a t atTokens atPlace run
  obtain ⟨tokens, onward, -⟩ := lands_of_steady steady s a t atTokens atPlace run
  exact ⟨tokens, onward, fun asked => ⟨holds a asked, run⟩⟩

theorem taking (taking : ∀ n, Taking n p p) : Persists ts i True p p asks :=
  .same (fun n => (taking n).steady) fun _ _ => trivial

theorem mono {asks' : α → Prop} (persists : Persists ts i given p q asks)
    (stronger : ∀ a, asks' a → asks a) : Persists ts i given p q asks' := by
  intro s a t atTokens atPlace run
  obtain ⟨tokens, onward, alike⟩ := persists s a t atTokens atPlace run
  exact ⟨tokens, onward, fun asked => alike (stronger a asked)⟩

theorem pure {a : α} (holds : asks a → given) :
    Persists ts i given (Pure.pure a : Rule α) (Pure.pure a) asks := by
  rintro s _ t atTokens atPlace ⟨⟩
  exact ⟨atTokens, Nat.le_of_eq atPlace.symm, fun asked => ⟨holds asked, rfl⟩⟩

/-- A failure of the first rule asks nothing of the second. -/
theorem complain (complaint : Complaint) :
    Persists ts i given (Script.complain complaint) q asks :=
  fun _ _ _ _ _ => nofun

theorem ite {c : Bool} (there : Persists ts i given yes yes' asks)
    (other : Persists ts i given no no' asks) :
    Persists ts i given (if c then yes else no) (if c then yes' else no') asks := by
  cases c with
  | true => exact there
  | false => exact other

theorem map {h : α → β} (persists : Persists ts i given p q fun a => wants (h a)) :
    Persists ts i given (h <$> p) (h <$> q) wants := by
  intro s b t atTokens atPlace run
  cases found : p s with
  | error e u =>
    simp only [Functor.map, EStateM.map, found] at run
    cases run
  | ok a u =>
    simp only [Functor.map, EStateM.map, found] at run
    cases run
    obtain ⟨same, onward, alike⟩ := persists s a t atTokens atPlace found
    refine ⟨same, onward, fun wanted => ?_⟩
    obtain ⟨holds, run⟩ := alike wanted
    exact ⟨holds, by simp only [Functor.map, EStateM.map, run]⟩

theorem mark {f g : Nat → Rule β} (next : Persists ts i given (f i) (g i) wants) :
    Persists ts i given (Parser.mark >>= f) (Parser.mark >>= g) wants := by
  intro s b t atTokens atPlace run
  rw [Parser.mark, observe_bind] at run ⊢
  rw [atPlace] at run ⊢
  exact next s b t atTokens atPlace run

/-- Whatever is seen, both rules see it. -/
theorem seen {γ : Type} {view : State → γ} {f g : γ → Rule β}
    (next : ∀ found, Persists ts i given (f found) (g found) wants) :
    Persists ts i given (observe view >>= f) (observe view >>= g) wants := by
  intro s b t atTokens atPlace run
  rw [observe_bind] at run ⊢
  exact next _ s b t atTokens atPlace run

theorem test {view : State → Bool} (there : Persists ts i given yes yes' asks)
    (other : Persists ts i given no no' asks) :
    Persists ts i given (observe view >>= fun there => if there then yes else no)
      (observe view >>= fun there => if there then yes' else no') asks :=
  .seen fun _ => .ite there other

/-- The second rule goes on wherever the first one does. -/
theorem wider {view view' : State → Bool} {complaint : Complaint}
    (widens : ∀ s, view s = true → view' s = true) (there : Persists ts i given yes yes' asks) :
    Persists ts i given
      (observe view >>= fun there => if there then yes else Script.complain complaint)
      (observe view' >>= fun there => if there then yes' else no') asks := by
  intro s a t atTokens atPlace run
  rw [observe_bind] at run ⊢
  cases found : view s with
  | false =>
    rw [found] at run
    cases run
  | true =>
    rw [found] at run
    rw [widens s found]
    exact there s a t atTokens atPlace run

/-- Each rule goes by what it sees in the kind of the current token. -/
theorem seenAs {γ : Type} {view view' : State → γ} {f g : γ → Rule β}
    (value value' : Option TokenKind → γ) (shows : ∀ s, view s = value s.currentKind)
    (shows' : ∀ s, view' s = value' s.currentKind)
    (next : Persists ts i given (f (value (ts[i]?.map (·.kind))))
      (g (value' (ts[i]?.map (·.kind)))) wants) :
    Persists ts i given (observe view >>= f) (observe view' >>= g) wants := by
  intro s b t atTokens atPlace run
  rw [observe_bind] at run ⊢
  rw [shows, TokenCursor.currentKind, s.current_eq, atTokens, atPlace] at run
  rw [shows', TokenCursor.currentKind, s.current_eq, atTokens, atPlace]
  exact next s b t atTokens atPlace run

theorem byKind {f g : Option TokenKind → Rule β}
    (next : Persists ts i given (f (ts[i]?.map (·.kind))) (g (ts[i]?.map (·.kind))) wants) :
    Persists ts i given (currentKind? >>= f) (currentKind? >>= g) wants :=
  .seenAs id id (fun _ => rfl) (fun _ => rfl) next

/-- Where nothing that the first rule finds is asked for, the second one is free. -/
theorem never (lands : Lands ts i p fun a _ => ¬ asks a) : Persists ts i given p q asks := by
  intro s a t atTokens atPlace run
  obtain ⟨same, onward, unasked⟩ := lands s a t atTokens atPlace run
  exact ⟨same, onward, fun asked => absurd asked unasked⟩

theorem atAny {kinds : List TokenKind}
    (there : ∀ token, ts[i]? = some token → token.kind ∈ kinds → Persists ts i given yes yes' asks)
    (other : Persists ts i given no no' asks) :
    Persists ts i given (atAny? kinds >>= fun there => if there then yes else no)
      (atAny? kinds >>= fun there => if there then yes' else no') asks := by
  intro s b t atTokens atPlace run
  rw [atAny?, observe_bind] at run ⊢
  cases found : s.isAny kinds with
  | false =>
    rw [found] at run
    exact other s b t atTokens atPlace run
  | true =>
    rw [found] at run
    rw [TokenCursor.isAny, TokenCursor.currentKind, s.current_eq, atTokens, atPlace,
      Option.any_map, Option.any_eq_true] at found
    obtain ⟨token, atToken, listed⟩ := found
    exact there token atToken (List.contains_iff_mem.mp listed) s b t atTokens atPlace run

/-- A token of a given kind, which is layout behind nothing. -/
theorem expect {kind : TokenKind} {complaint : Complaint} {f g : Token TokenKind → Rule β}
    (next : ∀ token, ts[i]? = some token → token.kind = kind →
      Persists ts (i + 1) given (f token) (g token) wants) :
    Persists ts i given (Script.expect kind complaint >>= f) (Script.expect kind complaint >>= g)
      wants :=
  .step (lands_expect kind _) fun token _ _ ⟨atToken, ofKind, behind⟩ =>
    behind ▸ next token atToken ofKind

theorem accept {kind : TokenKind}
    (taken : ∀ token, ts[i]? = some token → token.kind = kind →
      Persists ts (i + 1) given yes yes' asks)
    (left : Persists ts i given no no' asks) :
    Persists ts i given (Parser.accept kind >>= fun there => if there then yes else no)
      (Parser.accept kind >>= fun there => if there then yes' else no') asks := by
  have lands : Lands ts i (Parser.accept kind : Rule Bool) fun there j =>
      (there = true → ∃ token, ts[i]? = some token ∧ token.kind = kind ∧ j = i + 1) ∧
        (there = false → j = i) := by
    rw [← bind_pure (Parser.accept kind)]
    refine lands_accept kind (fun token atToken ofKind => lands_pure ?_) (lands_pure ?_)
    · exact ⟨fun _ => ⟨token, atToken, ofKind, rfl⟩, nofun⟩
    · exact ⟨nofun, fun _ => rfl⟩
  refine .step lands fun there j _ ⟨ifThere, ifNot⟩ => ?_
  cases there with
  | true =>
    obtain ⟨token, atToken, ofKind, rfl⟩ := ifThere rfl
    exact taken token atToken ofKind
  | false =>
    obtain rfl := ifNot rfl
    exact left

end Persists

/-- Skipping layout does not get behind an opening parenthesis. -/
theorem trim_unopened : Lands ts i trim fun _ j => Unopened ts i → Unopened ts j := by
  intro s a t atTokens atPlace run
  obtain ⟨same, onward, gap⟩ := lands_skipWhile Token.isSpace s a t atTokens atPlace run
  refine ⟨same, onward, fun unopened => unopened.onward onward fun m after before => ?_⟩
  rintro ⟨token, atToken, solid⟩
  rw [gap m token after before atToken] at solid
  cases solid

/-- Behind a token that is no parenthesis, no parenthesis is right before the next. -/
theorem eat_unopened : Lands ts i eat fun token j =>
    ts[i]? = some token ∧ i < j ∧ (Unopened ts (i + 1) → Unopened ts j) := by
  refine lands_consume.bind fun token k _ ⟨atToken, behind⟩ => ?_
  subst behind
  exact trim_unopened.bind fun _ j onward kept => lands_pure ⟨atToken, by omega, kept⟩

namespace Persists

variable {given : Prop} {p q : Rule α} {asks : α → Prop} {wants : β → Prop}

theorem trim {f g : Unit → Rule β}
    (next : ∀ j, i ≤ j → (Unopened ts i → Unopened ts j) →
      Persists ts j given (f ()) (g ()) wants) :
    Persists ts i given (Script.trim >>= f) (Script.trim >>= g) wants :=
  .step trim_unopened fun _ j onward kept => next j onward kept

theorem eat {f g : Token TokenKind → Rule β}
    (next : ∀ token j, ts[i]? = some token → i < j → (Unopened ts (i + 1) → Unopened ts j) →
      Persists ts j given (f token) (g token) wants) :
    Persists ts i given (Script.eat >>= f) (Script.eat >>= g) wants :=
  .step eat_unopened fun token j _ ⟨atToken, further, kept⟩ => next token j atToken further kept

theorem separators {f g : Unit → Rule β}
    (next : ∀ j, i ≤ j → Persists ts j given (f ()) (g ()) wants) :
    Persists ts i given (trimSeparators >>= f) (trimSeparators >>= g) wants :=
  .skip (fun _ => trimSeparators_steady) fun _ j onward => next j onward

/-- Behind a loop both rules have found the same items. -/
theorem items {stop : State → Bool} {more : Rule Bool}
    (each : ∀ i, Persists ts i True p q asks) (goOn : ∀ n, Steady n more more) (i : Nat) :
    Persists ts i True (Parser.items stop p more) (Parser.items stop q more)
      fun found => ∀ a ∈ found, asks a := by
  have within : ∀ budget i, Persists ts i True (itemsWithin stop p more budget)
      (itemsWithin stop q more budget) fun found => ∀ a ∈ found, asks a := by
    intro budget
    induction budget with
    | zero => exact fun i => .pure fun _ => trivial
    | succ budget ih =>
      intro i
      refine .seen fun _ => .ite (.pure fun _ => trivial) ?_
      refine (each i).bind fun first j _ => .skip goOn fun _ k _ => .ite ?_ ?_
      · refine (ih k).bind fun others l _ => .pure fun all => ?_
        obtain ⟨here, others⟩ := List.forall_mem_cons.mp all
        exact ⟨⟨trivial, here⟩, others⟩
      · exact .pure fun all => ⟨trivial, all first List.mem_cons_self⟩
  exact .seen fun budget => within budget i

/-- Every item of a list is asked for what the items of the list are asked for. The induction is on
the budget of the loop. -/
theorem commaSeparated {stop : List TokenKind} (each : ∀ i, Persists ts i True p q asks) (i : Nat) :
    Persists ts i True (Script.commaSeparated stop p) (Script.commaSeparated stop q)
      fun found => ∀ a ∈ found, asks a :=
  .items each (fun _ => commaFollows_steady) i

theorem separated {stop : List TokenKind} (each : ∀ i, Persists ts i True p q asks) (i : Nat) :
    Persists ts i True (Script.separated stop p) (Script.separated stop q)
      fun found => ∀ a ∈ found, asks a :=
  .items each (fun _ => trimSeparators_steady.bind fun _ => steady_pure _) i

end Persists

section Nodes

/-- A node begins with the first token since its mark. -/
theorem begins_makeNode (measured : Measured ts) {s : State} (atTokens : s.tokens = ts)
    {start : Nat} (solid : Solid ts start) (since : start ≤ s.position) (c : Construct) :
    Begins ts start ⟨c, s.spanSince start⟩ := by
  subst atTokens
  obtain ⟨token, atToken, isSolid⟩ := solid
  refine ⟨token, atToken, ?_⟩
  rcases Nat.eq_or_lt_of_le since with here | further
  · have current : s.current = some token := by rw [s.current_eq, ← here, atToken]
    obtain ⟨rest, ahead⟩ : ∃ rest, s.rest = token :: rest := List.head?_eq_some_iff.mp current
    simp [TokenCursor.spanSince, here, TokenCursor.here, ahead, Span.emptyAt]
  · obtain ⟨first, last, a, b, hull, atFirst, atLast, span⟩ :=
      s.spanSince_hull start ⟨start, Nat.le_refl _, further, token, atToken, isSolid⟩
    obtain rfl : first = start := by
      refine Nat.le_antisymm (Nat.le_of_not_lt fun later => ?_) hull.low_le
      exact hull.before start (Nat.le_refl _) later ⟨token, atToken, isSolid⟩
    rw [span, measured.cover_eq atFirst atLast hull.ordered]
    exact congrArg (·.span.start) (Option.some.inj (atFirst.symm.trans atToken))

variable {given : Prop} {start : Nat} {c : Construct}

/-- A node of a statement, a pattern or a body. -/
theorem persists_makeNode (holds : ∀ span, Sheltered ts ⟨c, span⟩ → given) :
    Persists ts i given (makeNode start c) (makeNode start c) (Sheltered ts) := by
  rintro s _ t atTokens atPlace ⟨⟩
  exact ⟨atTokens, Nat.le_of_eq atPlace.symm, fun sheltered => ⟨holds _ sheltered, rfl⟩⟩

/-- A node of an expression that begins at `start`. -/
theorem persists_begun (measured : Measured ts) (solid : Solid ts start) (since : start ≤ i)
    (holds : ∀ span, Begins ts start ⟨c, span⟩ → Sheltered ts ⟨c, span⟩ → given) :
    Persists ts i given (makeNode start c) (makeNode start c) (ShelteredAt ts start) := by
  rintro s _ t atTokens atPlace ⟨⟩
  have begins := begins_makeNode measured atTokens solid (atPlace ▸ since) c
  exact ⟨atTokens, Nat.le_of_eq atPlace.symm, fun sheltered =>
    ⟨holds _ begins (sheltered begins), rfl⟩⟩

/-- A node that is made before the end. -/
theorem Persists.made {f g : Tree → Rule α} {asks : α → Prop}
    (next : ∀ t, t.kind = c → Persists ts i given (f t) (g t) asks) :
    Persists ts i given (makeNode start c >>= f) (makeNode start c >>= g) asks := by
  refine .step (lands_makeNode start c) fun t j _ ⟨here, _, _, _, same⟩ => ?_
  subst here
  exact next t (congrArg (·.kind) same)

end Nodes

/-- Rules that do without the operator `in` what they do with it, wherever they find a tree
in which it does not occur but in shelter. -/
structure Rules.Persist (ts : List (Token TokenKind)) (r : Rules) : Prop where
  lexed : Lexed ts
  settled : ∀ n, Rules.Settled n r r
  statement : ∀ i, Persists ts i True (r.statement true) (r.statement false) (Sheltered ts)
  expression : ∀ i, Persists ts i True (r.expression true) (r.expression false) (ShelteredAt ts i)
  binding : ∀ i, Persists ts i True (r.binding true) (r.binding false) (Sheltered ts)
  ifStatement : ∀ i, Persists ts i True (r.ifStatement true) (r.ifStatement false) (Sheltered ts)

namespace Rules.Persist

variable {r : Rules} (keep : r.Persist ts)
include keep

/-- Behind a token that is no parenthesis none is opened. -/
theorem behind {token : Token TokenKind} {kind : TokenKind} (atToken : ts[i]? = some token)
    (ofKind : token.kind = kind) (free : kind ∉ TokenKind.openParen :: layoutKinds) :
    Unopened ts (i + 1) :=
  unopened_next keep.lexed atToken (ofKind ▸ free)

/-- Behind a token of a kind that is neither layout nor an opening parenthesis, no parenthesis is
right before the next one. -/
theorem behind_kind {kind : TokenKind} (atKind : ts[i]?.map (·.kind) = some kind)
    (free : kind ∉ TokenKind.openParen :: layoutKinds) : Unopened ts (i + 1) := by
  obtain ⟨token, atToken, ofKind⟩ := Option.map_eq_some_iff.mp atKind
  exact keep.behind atToken ofKind free

/-- An expression that does not follow an opening parenthesis. -/
theorem operand (unopened : Unopened ts i) :
    Persists ts i True (r.expression true) (r.expression false) (Covered ts) :=
  (keep.expression i).mono fun _ covered begins =>
    covered (unopened.not_enclosed keep.lexed.measured begins)

end Rules.Persist

end ScriptFront.Script
