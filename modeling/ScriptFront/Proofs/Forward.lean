import ScriptFront.Parsing.Parser

namespace ScriptFront

variable {κ π α β : Type}

/-- From `s` a parse can only come to `t` by taking tokens: the list is the same, and no more of it
is left. Nothing is said of the properties, which may change on the way. -/
structure TokenCursor.Reach (s t : TokenCursor κ π) : Prop where
  tokens : t.tokens = s.tokens
  left : t.rest.length ≤ s.rest.length

namespace TokenCursor

variable {s t u : TokenCursor κ π}

/-- The place and the number of tokens left determine each other, so progress may be measured by
either. -/
theorem position_add_left (s : TokenCursor κ π) : s.position + s.rest.length = s.tokens.length := by
  simp [position, tokens]

theorem Reach.refl (s : TokenCursor κ π) : s.Reach s := ⟨rfl, Nat.le_refl _⟩

theorem Reach.trans (first : s.Reach t) (second : t.Reach u) : s.Reach u :=
  ⟨second.tokens.trans first.tokens, Nat.le_trans second.left first.left⟩

/-- Going on never lowers the place. The lemma turns what a rule does to the tokens left into a fact
about places. -/
theorem Reach.position (reach : s.Reach t) : s.position ≤ t.position := by
  have before := s.position_add_left
  have after := t.position_add_left
  rw [reach.tokens] at after
  have left := reach.left
  omega

/-- With fewer tokens left the place is further on. -/
theorem Reach.position_lt (reach : s.Reach t) (fewer : t.rest.length < s.rest.length) :
    s.position < t.position := by
  have before := s.position_add_left
  have after := t.position_add_left
  rw [reach.tokens] at after
  omega

theorem reach_next (s : TokenCursor κ π) : s.Reach s.next := by
  refine ⟨s.tokens_next, ?_⟩
  unfold next
  split
  · exact Nat.le_refl _
  · rename_i token rest atRest
    simp [atRest]

theorem left_next {token : Token κ} (current : s.current = some token) :
    s.next.rest.length + 1 = s.rest.length := by
  unfold TokenCursor.current at current
  unfold next
  split
  · rename_i atRest
    simp [atRest] at current
  · rename_i token rest atRest
    simp [atRest]

theorem reach_skipWhile (s : TokenCursor κ π) (test : Token κ → Bool) :
    s.Reach (s.skipWhile test) :=
  ⟨s.tokens_skipWhile test, (List.dropWhile_suffix test).length_le⟩

/-- A kind at the cursor is that of a token which is there. -/
theorem current_of_is [DecidableEq κ] {kind : κ} (there : s.is kind = true) :
    ∃ token, s.current = some token ∧ token.kind = kind := by
  simpa [is, currentKind] using there

/-- A parse may continue where a token is ahead, so a rule that asks for either sees the same. -/
theorem willContinue_eq_isSome (s : TokenCursor κ π) :
    s.willContinue = s.currentKind.isSome := by
  cases ahead : s.rest <;> simp [willContinue, currentKind, current, ahead]

end TokenCursor

/-- An answer that leaves the parse somewhere ahead of `s`, also when it is a failure. -/
def Moved (s : TokenCursor κ π) : EStateM.Result ParseError (TokenCursor κ π) α → Prop
  | .ok _ t => s.Reach t
  | .error _ t => s.Reach t

/-- An answer that leaves the parse ahead of `s`, and by at least one token when it is
a success. -/
def Taken (s : TokenCursor κ π) : EStateM.Result ParseError (TokenCursor κ π) α → Prop
  | .ok _ t => s.Reach t ∧ t.rest.length < s.rest.length
  | .error _ t => s.Reach t

section Answers

variable {s t : TokenCursor κ π} {answer : EStateM.Result ParseError (TokenCursor κ π) α}

theorem Taken.moved (taken : Taken s answer) : Moved s answer := by
  cases answer with
  | ok a u => exact taken.1
  | error e u => exact taken

/-- A step that moves on from a place further on has moved on from here. -/
theorem Moved.after (moved : Moved t answer) (reach : s.Reach t) : Moved s answer := by
  cases answer with
  | ok a u => exact reach.trans moved
  | error e u => exact reach.trans moved

/-- A step that takes a token further on has taken one from here. -/
theorem Taken.after (taken : Taken t answer) (reach : s.Reach t) : Taken s answer := by
  cases answer with
  | ok a u => exact ⟨reach.trans taken.1, Nat.lt_of_lt_of_le taken.2 reach.left⟩
  | error e u => exact reach.trans taken

/-- Behind a token that was taken, moving on is enough to have taken one. So in a sequence only one
step needs to take a token. -/
theorem Moved.behind (moved : Moved t answer) (reach : s.Reach t)
    (fewer : t.rest.length < s.rest.length) : Taken s answer := by
  cases answer with
  | ok a u => exact ⟨reach.trans moved, Nat.lt_of_le_of_lt moved.left fewer⟩
  | error e u => exact reach.trans moved

end Answers

namespace Parser

/-- With fewer than `n` tokens left the two parsers give the same answer, and only
move forward. The two differ in what they would do with more tokens. -/
def Steady (n : Nat) (p q : Parser κ π α) : Prop :=
  ∀ s, s.rest.length < n → p s = q s ∧ Moved s (p s)

/-- With fewer than `n` tokens left the two parsers give the same answer, and take a
token whenever they succeed. -/
def Taking (n : Nat) (p q : Parser κ π α) : Prop :=
  ∀ s, s.rest.length < n → p s = q s ∧ Taken s (p s)

variable {n : Nat} {p q : Parser κ π α} {f g : α → Parser κ π β}

/-- Parsers that agree on longer inputs agree on shorter ones. -/
theorem Steady.mono {m : Nat} (steady : Steady n p q) (fewer : m ≤ n) : Steady m p q :=
  fun s short => steady s (Nat.lt_of_lt_of_le short fewer)

theorem Taking.steady (taking : Taking n p q) : Steady n p q :=
  fun s short => (taking s short).imp_right Taken.moved

theorem Taking.fewer (taking : Taking (n + 1) p q) : Taking n p q :=
  fun s short => taking s (Nat.lt_succ_of_lt short)

/-- Where one token has been taken already, parsers that take tokens need only agree on one fewer.
-/
theorem Taking.below (taking : Taking (n + 1) p q) : Steady n p q :=
  taking.steady.mono (Nat.le_succ n)

/-- A sequence whose first step succeeds goes on with the second. Rewriting with it keeps the two
steps apart. -/
theorem bind_ok {s t : TokenCursor κ π} {a : α} (run : p s = .ok a t) : (p >>= f) s = f a t := by
  simp only [bind, EStateM.bind, run]

/-- A sequence whose first step fails fails with it, in the same state. -/
theorem bind_error {s t : TokenCursor κ π} {e : ParseError} (run : p s = .error e t) :
    (p >>= f) s = .error e t := by
  simp only [bind, EStateM.bind, run]

/-- Looking at the state takes nothing, so the sequence goes on from the state that was looked at.
-/
@[simp] theorem observe_bind (view : TokenCursor κ π → α) (f : α → Parser κ π β)
    (s : TokenCursor κ π) : (observe view >>= f) s = f (view s) s :=
  bind_ok rfl

/-- Two steps have the same answer where the first steps have the same and, if that is
a success, the second ones have; and what then holds of both holds of the whole. -/
theorem bind_agrees {s : TokenCursor κ π}
    {holds : EStateM.Result ParseError (TokenCursor κ π) β → Prop} (same : p s = q s)
    (failure : ∀ e t, p s = .error e t → holds (.error e t))
    (success : ∀ a t, p s = .ok a t → f a t = g a t ∧ holds (f a t)) :
    (p >>= f) s = (q >>= g) s ∧ holds ((p >>= f) s) := by
  cases run : p s with
  | error e t =>
    rw [bind_error run, bind_error (same.symm.trans run)]
    exact ⟨rfl, failure e t run⟩
  | ok a t =>
    rw [bind_ok run, bind_ok (same.symm.trans run)]
    exact success a t run

/-- Two steps, the second on what the first has left. -/
theorem Steady.bind (first : Steady n p q) (next : ∀ a, Steady n (f a) (g a)) :
    Steady n (p >>= f) (q >>= g) := by
  intro s short
  obtain ⟨same, moved⟩ := first s short
  refine bind_agrees same (fun e t run => ?_) fun a t run => ?_
  · rwa [run] at moved
  · rw [run] at moved
    obtain ⟨same', moved'⟩ := next a t (Nat.lt_of_le_of_lt moved.left short)
    exact ⟨same', moved'.after moved⟩

theorem Steady.map {h : α → β} (steady : Steady n p q) : Steady n (h <$> p) (h <$> q) := by
  rw [← bind_pure_comp, ← bind_pure_comp]
  exact steady.bind fun a s _ => ⟨rfl, .refl s⟩

/-- A step that may take nothing, before one that takes a token. -/
theorem Steady.then (first : Steady n p q) (next : ∀ a, Taking n (f a) (g a)) :
    Taking n (p >>= f) (q >>= g) := by
  intro s short
  obtain ⟨same, moved⟩ := first s short
  refine bind_agrees same (fun e t run => ?_) fun a t run => ?_
  · rwa [run] at moved
  · rw [run] at moved
    obtain ⟨same', taken⟩ := next a t (Nat.lt_of_le_of_lt moved.left short)
    exact ⟨same', taken.after moved⟩

/-- Behind a step that takes a token, what follows needs to be known for one token
less. This is what lets a grammar be unfolded. -/
theorem Taking.bind (first : Taking (n + 1) p q) (next : ∀ a, Steady n (f a) (g a)) :
    Taking (n + 1) (p >>= f) (q >>= g) := by
  intro s short
  obtain ⟨same, taken⟩ := first s short
  refine bind_agrees same (fun e t run => ?_) fun a t run => ?_
  · rwa [run] at taken
  · rw [run] at taken
    obtain ⟨reach, fewer⟩ := taken
    obtain ⟨same', moved⟩ := next a t (by omega)
    exact ⟨same', moved.behind reach fewer⟩

/-- The same for parsers that call nothing back, at every number of tokens. -/
theorem Taking.andThen (first : Taking n p q) (next : ∀ a, Steady n (f a) (g a)) :
    Taking n (p >>= f) (q >>= g) := by
  cases n with
  | zero => exact fun s short => absurd short (Nat.not_lt_zero _)
  | succ n => exact first.bind fun a => (next a).mono (Nat.le_succ n)

theorem Taking.map {h : α → β} (taking : Taking n p q) : Taking n (h <$> p) (h <$> q) := by
  rw [← bind_pure_comp, ← bind_pure_comp]
  exact taking.andThen fun a s _ => ⟨rfl, .refl s⟩

theorem Steady.ite {c : Bool} {p' q' : Parser κ π α} (yes : Steady n p q) (no : Steady n p' q') :
    Steady n (if c then p else p') (if c then q else q') := by
  cases c with
  | true => exact yes
  | false => exact no

theorem Taking.ite {c : Bool} {p' q' : Parser κ π α} (yes : Taking n p q) (no : Taking n p' q') :
    Taking n (if c then p else p') (if c then q else q') := by
  cases c with
  | true => exact yes
  | false => exact no

section Primitives

theorem steady_pure (a : α) : Steady n (pure a : Parser κ π α) (pure a) :=
  fun s _ => ⟨rfl, .refl s⟩

theorem steady_observe (view : TokenCursor κ π → α) : Steady n (observe view) (observe view) :=
  fun s _ => ⟨rfl, .refl s⟩

theorem steady_modifyProperties (f : π → π) :
    Steady n (modifyProperties f : Parser κ π Unit) (modifyProperties f) :=
  fun _ _ => ⟨rfl, rfl, Nat.le_refl _⟩

/-- A complaint is no success, so nothing has to be taken. -/
theorem taking_fail (text : String) : Taking n (fail text : Parser κ π α) (fail text) :=
  fun s _ => ⟨rfl, .refl s⟩

/-- The step from which taking a token comes: what is consumed is gone. -/
theorem taking_consume : Taking n (consume : Parser κ π (Token κ)) consume := by
  intro s _
  refine ⟨rfl, ?_⟩
  unfold consume
  cases current : s.current with
  | none => exact .refl s
  | some token =>
    have one := s.left_next current
    exact ⟨s.reach_next, by omega⟩

theorem taking_expectTag (tag : Tag) (text : String) :
    Taking n (expectTag tag text : Parser κ π (Token κ)) (expectTag tag text) :=
  (steady_observe _).then fun _ => .ite taking_consume (taking_fail text)

variable [DecidableEq κ] (kind : κ)

/-- A token that was asked for is consumed, or the parser fails before it. -/
theorem taking_expect (text : String) :
    Taking n (expect kind text : Parser κ π (Token κ)) (expect kind text) :=
  (steady_observe _).then fun _ => .ite taking_consume (taking_fail text)

theorem steady_consumeIf : Steady n (consumeIf kind : Parser κ π _) (consumeIf kind) := by
  intro s _
  refine ⟨rfl, ?_⟩
  unfold consumeIf
  split
  · exact s.reach_next
  · exact .refl s

/-- A token that may be there: what follows it has fewer tokens left, and only what
follows its absence must take one. -/
theorem taking_consumeIf {f g : Option (Token κ) → Parser κ π β}
    (yes : ∀ token, Steady n (f (some token)) (g (some token)))
    (no : Taking (n + 1) (f none) (g none)) :
    Taking (n + 1) (consumeIf kind >>= f) (consumeIf kind >>= g) := by
  intro s short
  by_cases there : s.is kind = true
  · obtain ⟨token, current, -⟩ := s.current_of_is there
    have run : consumeIf kind s = .ok (some token) s.next := by
      unfold consumeIf
      rw [if_pos there, current]
    have one := s.left_next current
    obtain ⟨same, moved⟩ := yes token s.next (by omega)
    rw [bind_ok run, bind_ok run]
    exact ⟨same, moved.behind s.reach_next (by omega)⟩
  · have run : consumeIf kind s = .ok none s := by
      unfold consumeIf
      rw [if_neg there]
    rw [bind_ok run, bind_ok run]
    exact no s short

/-- A token that may be there: a test, and then the token is taken or not. -/
theorem consumeIf_bind (f : Option (Token κ) → Parser κ π β) :
    (consumeIf kind >>= f) = (observe (·.is kind) >>= fun there =>
      if there then consume >>= fun token => f (some token) else f none) := by
  funext s
  rw [observe_bind]
  by_cases there : s.is kind = true
  · obtain ⟨token, current, -⟩ := s.current_of_is there
    have taken : consumeIf kind s = .ok (some token) s.next := by
      rw [consumeIf, if_pos there, current]
    have taken' : consume s = .ok token s.next := by
      rw [consume, current]
    rw [if_pos there, bind_ok taken, bind_ok taken']
  · have left : consumeIf kind s = .ok none s := by
      rw [consumeIf, if_neg there]
    rw [if_neg there, bind_ok left]

/-- To accept a token is to consume it if it is there and to tell whether it was. -/
theorem accept_bind (f : Bool → Parser κ π β) :
    (accept kind >>= f) = consumeIf kind >>= fun token => f token.isSome :=
  bind_map_left Option.isSome (consumeIf kind) f

theorem steady_accept : Steady n (accept kind : Parser κ π Bool) (accept kind) :=
  (steady_consumeIf kind).bind fun _ => steady_pure _

/-- After an accepted token moving on is enough; without it the other branch has to take one. -/
theorem taking_accept {f g : Bool → Parser κ π β} (yes : Steady n (f true) (g true))
    (no : Taking (n + 1) (f false) (g false)) :
    Taking (n + 1) (accept kind >>= f) (accept kind >>= g) := by
  rw [accept_bind, accept_bind]
  exact taking_consumeIf kind (fun _ => yes) no

theorem taking_accept_ite {p' q' : Parser κ π α} (yes : Steady n p q)
    (no : Taking (n + 1) p' q') :
    Taking (n + 1) (accept kind >>= fun there => if there = true then p else p')
      (accept kind >>= fun there => if there = true then q else q') :=
  taking_accept kind yes no

end Primitives

section Loops

variable {stop : TokenCursor κ π → Bool} {item item' : Parser κ π α} {more more' : Parser κ π Bool}

/-- The items of a list agree when each item takes a token and what stands between them moves on.
The induction is on the budget, the same on both sides. -/
theorem steady_itemsWithin (items : Taking n item item') (goOn : Steady n more more') (budget : Nat) :
    Steady n (itemsWithin stop item more budget) (itemsWithin stop item' more' budget) := by
  induction budget with
  | zero => exact steady_pure []
  | succ budget ih =>
    refine (steady_observe _).bind fun _ => .ite (steady_pure []) ?_
    refine items.steady.bind fun first => goOn.bind fun _ => .ite ?_ (steady_pure _)
    exact ih.bind fun _ => steady_pure _

theorem steady_items (each : Taking n item item') (goOn : Steady n more more') :
    Steady n (items stop item more) (items stop item' more') :=
  (steady_observe _).bind fun budget => steady_itemsWithin each goOn budget

/-- One turn of the loop, with every way in which it can end. -/
theorem itemsWithin_succ (budget : Nat) (s : TokenCursor κ π) :
    itemsWithin stop item more (budget + 1) s =
      if (!s.willContinue || stop s) = true then .ok [] s
      else match item s with
        | .error e t => .error e t
        | .ok first t => match more t with
          | .error e u => .error e u
          | .ok false u => .ok [first] u
          | .ok true u => match itemsWithin stop item more budget u with
            | .error e v => .error e v
            | .ok others v => .ok (first :: others) v := by
  rw [itemsWithin, observe_bind]
  split
  · rfl
  cases run : item s with
  | error e t => rw [bind_error run]
  | ok first t =>
    rw [bind_ok run]
    dsimp only
    cases again : more t with
    | error e u => rw [bind_error again]
    | ok b u =>
      rw [bind_ok again]
      cases b with
      | false => rfl
      | true =>
        rw [if_pos rfl]
        dsimp only
        cases rest : itemsWithin stop item more budget u with
        | error e v => rw [bind_error rest]
        | ok others v => rw [bind_ok rest]; rfl

/-- Every item takes a token, so of two budgets that are both enough for the tokens
left the larger one gives the same items. -/
theorem itemsWithin_eq (each : ∀ n, Taking n item item) (goOn : ∀ n, Steady n more more)
    {small large : Nat} (larger : small ≤ large) :
    Steady (small + 1) (itemsWithin stop item more large) (itemsWithin stop item more small) := by
  induction small generalizing large with
  | zero =>
    intro s short
    have empty : s.rest = [] := List.length_eq_zero_iff.mp (by omega)
    have ended : itemsWithin stop item more large s = .ok [] s := by
      cases large with
      | zero => rfl
      | succ large => rw [itemsWithin_succ, if_pos (by simp [TokenCursor.willContinue, empty])]
    rw [ended]
    exact ⟨rfl, .refl s⟩
  | succ small ih =>
    obtain ⟨large, rfl⟩ : ∃ m, large = m + 1 := ⟨large - 1, by omega⟩
    refine (steady_observe _).bind fun _ => .ite (steady_pure []) (Taking.steady ?_)
    refine (each _).bind fun first => (goOn _).bind fun _ => .ite ?_ (steady_pure _)
    exact (ih (by omega)).bind fun _ => steady_pure _

/-- The budget that a loop starts with is never used up. -/
theorem items_eq (each : ∀ n, Taking n item item) (goOn : ∀ n, Steady n more more)
    (s : TokenCursor κ π) {budget : Nat} (enough : s.rest.length ≤ budget) :
    itemsWithin stop item more budget s = items stop item more s :=
  (itemsWithin_eq each goOn enough s (Nat.lt_succ_self _)).1

end Loops

end Parser

end ScriptFront
