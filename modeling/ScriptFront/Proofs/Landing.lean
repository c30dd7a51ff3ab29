import ScriptFront.Proofs.Forward

namespace ScriptFront

variable {κ π α β : Type}

/-- The list of tokens and the place in it say where a parse is. -/
theorem TokenCursor.rest_eq_drop (s : TokenCursor κ π) : s.rest = s.tokens.drop s.position := by
  simp [tokens, position]

/-- What a parse has gone over is the front of the tokens, the last one first. -/
theorem TokenCursor.before_eq_take (s : TokenCursor κ π) :
    s.before = (s.tokens.take s.position).reverse := by
  simp [tokens, position]

theorem TokenCursor.current_eq (s : TokenCursor κ π) : s.current = s.tokens[s.position]? := by
  rw [current, rest_eq_drop, List.head?_drop]

theorem TokenCursor.position_next {s : TokenCursor κ π} {token : Token κ}
    (current : s.current = some token) : s.next.position = s.position + 1 := by
  have before := s.position_add_left
  have after := s.next.position_add_left
  rw [s.tokens_next] at after
  have one := s.left_next current
  omega

namespace Parser

/-- Started at the `i`-th of the tokens, the parser can only succeed further on in the
same tokens, and then its finding and the place reached satisfy `post`. -/
def Lands (ts : List (Token κ)) (i : Nat) (p : Parser κ π α) (post : α → Nat → Prop) : Prop :=
  ∀ s a t, s.tokens = ts → s.position = i → p s = .ok a t →
    t.tokens = ts ∧ i ≤ t.position ∧ post a t.position

variable {ts : List (Token κ)} {i : Nat} {p q : Parser κ π α} {f : α → Parser κ π β}
  {post : α → Nat → Prop} {goal : β → Nat → Prop}

/-- What the second step may rely on is what the first has established. -/
theorem Lands.bind (first : Lands ts i p post)
    (next : ∀ a j, i ≤ j → post a j → Lands ts j (f a) goal) : Lands ts i (p >>= f) goal := by
  intro s b u atTokens atPlace run
  cases middle : p s with
  | error e t =>
    rw [bind_error middle] at run
    cases run
  | ok a t =>
    rw [bind_ok middle] at run
    obtain ⟨same, onward, found⟩ := first s a t atTokens atPlace middle
    obtain ⟨same', onward', found'⟩ := next a t.position onward found t b u same rfl run
    exact ⟨same', Nat.le_trans onward onward', found'⟩

/-- Less may be said about where a parser comes to; that it has moved on may be used for it. -/
theorem Lands.mono {post' : α → Nat → Prop} (lands : Lands ts i p post)
    (weaker : ∀ a j, i ≤ j → post a j → post' a j) : Lands ts i p post' := by
  intro s a t atTokens atPlace run
  obtain ⟨same, onward, found⟩ := lands s a t atTokens atPlace run
  exact ⟨same, onward, weaker a t.position onward found⟩

/-- More may be known of the success than where it comes to. -/
theorem Lands.also {post' : α → Nat → Prop} (lands : Lands ts i p post)
    (more : ∀ s a t, s.tokens = ts → s.position = i → p s = .ok a t → post' a t.position) :
    Lands ts i p fun a j => post a j ∧ post' a j := by
  intro s a t atTokens atPlace run
  obtain ⟨same, onward, found⟩ := lands s a t atTokens atPlace run
  exact ⟨same, onward, found, more s a t atTokens atPlace run⟩

theorem Lands.and {post' : α → Nat → Prop} (lands : Lands ts i p post)
    (other : Lands ts i p post') : Lands ts i p fun a j => post a j ∧ post' a j :=
  lands.also fun s a t atTokens atPlace run => (other s a t atTokens atPlace run).2.2

theorem Lands.ite {c : Bool} (yes : Lands ts i p post) (no : Lands ts i q post) :
    Lands ts i (if c then p else q) post := by
  cases c with
  | true => exact yes
  | false => exact no

theorem lands_pure {a : α} (found : post a i) : Lands ts i (pure a : Parser κ π α) post := by
  intro s b t atTokens atPlace run
  cases run
  exact ⟨atTokens, Nat.le_of_eq atPlace.symm, atPlace ▸ found⟩

theorem Lands.map {h : α → β} (lands : Lands ts i p fun a j => goal (h a) j) :
    Lands ts i (h <$> p) goal := by
  have through : h <$> p = p >>= fun a => pure (h a) := (bind_pure_comp h p).symm
  rw [through]
  exact lands.bind fun a j _ found => lands_pure found

/-- A complaint is no success. -/
theorem lands_fail (text : String) : Lands ts i (fail text : Parser κ π α) post := by
  intro s a t _ _ run
  cases run

/-- Whatever is seen, the parse goes on from the same place. -/
theorem lands_observe {view : TokenCursor κ π → α} (next : ∀ a, Lands ts i (f a) goal) :
    Lands ts i (observe view >>= f) goal := by
  intro s b t atTokens atPlace run
  rw [observe_bind] at run
  exact next _ s b t atTokens atPlace run

/-- Either branch of a test may be taken, when nothing is known about the view. -/
theorem lands_if {view : TokenCursor κ π → Bool} {yes no : Parser κ π β}
    (there : Lands ts i yes goal) (other : Lands ts i no goal) :
    Lands ts i (observe view >>= fun there => if there then yes else no) goal :=
  lands_observe fun _ => there.ite other

/-- The start of a node is the place where the parser stands, so the spans of nodes are known from
places. -/
theorem lands_mark {f : Nat → Parser κ π β} (next : Lands ts i (f i) goal) :
    Lands ts i (mark >>= f) goal := by
  intro s b t atTokens atPlace run
  refine next s b t atTokens atPlace ?_
  rw [mark, observe_bind] at run
  rw [← atPlace]
  exact run

/-- What shows in the kind of the current token is known from the place. -/
theorem lands_seen {view : TokenCursor κ π → α} (value : Option κ → α)
    (shows : ∀ s, view s = value s.currentKind)
    (next : Lands ts i (f (value (ts[i]?.map (·.kind)))) goal) :
    Lands ts i (observe view >>= f) goal := by
  intro s b t atTokens atPlace run
  refine next s b t atTokens atPlace ?_
  rw [observe_bind, shows, TokenCursor.currentKind, s.current_eq, atTokens, atPlace] at run
  exact run

/-- The kind at the place decides which of the branches is taken. -/
theorem lands_currentKind {f : Option κ → Parser κ π β}
    (next : Lands ts i (f (ts[i]?.map (·.kind))) goal) :
    Lands ts i (observe TokenCursor.currentKind >>= f) goal :=
  lands_seen id (fun _ => rfl) next

/-- So is the number of the tokens left. -/
theorem lands_left {f : Nat → Parser κ π β} (next : Lands ts i (f (ts.length - i)) goal) :
    Lands ts i (observe (·.rest.length) >>= f) goal := by
  intro s b t atTokens atPlace run
  have total := s.position_add_left
  have left : ts.length - i = s.rest.length := by
    rw [← atTokens]
    omega
  refine next s b t atTokens atPlace ?_
  rw [observe_bind] at run
  rwa [left]

/-- A parser that only moves forward lands further on, whatever it finds. -/
theorem lands_of_steady (steady : ∀ n, Steady n p p) : Lands ts i p fun _ _ => True := by
  intro s a t atTokens atPlace run
  have moved := (steady (s.rest.length + 1) s (Nat.lt_succ_self _)).2
  rw [run] at moved
  exact ⟨moved.tokens.trans atTokens, atPlace ▸ moved.position, trivial⟩

theorem lands_of_taking (taking : ∀ n, Taking n p p) : Lands ts i p fun _ j => i < j := by
  intro s a t atTokens atPlace run
  have taken := (taking (s.rest.length + 1) s (Nat.lt_succ_self _)).2
  rw [run] at taken
  have further := taken.1.position_lt taken.2
  exact ⟨taken.1.tokens.trans atTokens, by omega, by omega⟩

/-- What a first step finds may be of no interest. -/
theorem Lands.skip (steady : ∀ n, Steady n p p)
    (next : ∀ a j, i ≤ j → Lands ts j (f a) goal) : Lands ts i (p >>= f) goal :=
  (lands_of_steady steady).bind fun a j onward _ => next a j onward

theorem lands_modifyProperties (g : π → π) :
    Lands ts i (modifyProperties g : Parser κ π Unit) fun _ j => j = i := by
  intro s a t atTokens atPlace run
  cases run
  exact ⟨atTokens, Nat.le_of_eq atPlace.symm, atPlace⟩

/-- What is consumed is the token at the place, and the parser lands behind it. -/
theorem lands_consume : Lands ts i (consume : Parser κ π (Token κ)) fun token j =>
    ts[i]? = some token ∧ j = i + 1 := by
  intro s token t atTokens atPlace run
  unfold consume at run
  cases current : s.current with
  | none =>
    rw [current] at run
    cases run
  | some found =>
    rw [current] at run
    cases run
    have place := TokenCursor.position_next current
    rw [s.current_eq, atTokens, atPlace] at current
    exact ⟨s.tokens_next.trans atTokens, by omega, current, by omega⟩

/-- A node is made without a step. Its span is that of the cursor from its start on, which the state
at that place determines. -/
theorem lands_makeNode {ν : Type} (start : Nat) (kind : ν) :
    Lands ts i (makeNode start kind : Parser κ π (Node ν)) fun node j => j = i ∧
      ∃ s : TokenCursor κ π, s.tokens = ts ∧ s.position = i ∧ node = ⟨kind, s.spanSince start⟩ := by
  intro s a t atTokens atPlace run
  cases run
  exact ⟨atTokens, Nat.le_of_eq atPlace.symm, atPlace, s, atTokens, atPlace, rfl⟩

/-- Between the place and where skipping comes to, every token passes the test. -/
theorem lands_skipWhile (test : Token κ → Bool) :
    Lands ts i (fun s => .ok () (s.skipWhile test) : Parser κ π Unit) fun _ j =>
      ∀ k token, i ≤ k → k < j → ts[k]? = some token → test token = true := by
  intro s a t atTokens atPlace run
  cases run
  have reach := s.reach_skipWhile test
  refine ⟨reach.tokens.trans atTokens, atPlace ▸ reach.position, ?_⟩
  intro k token after before atToken
  have place : (s.skipWhile test).position = (s.rest.takeWhile test).length + s.position := by
    simp [TokenCursor.skipWhile, TokenCursor.position]
  have inRest : s.rest[k - i]? = some token := by
    rw [s.rest_eq_drop, atTokens, atPlace, List.getElem?_drop]
    rwa [Nat.add_sub_cancel' after]
  rw [place, atPlace] at before
  have within : k - i < (s.rest.takeWhile test).length := by omega
  have taken := List.getElem?_eq_getElem within
  rw [← List.takeWhile_append_dropWhile (p := test) (l := s.rest),
    List.getElem?_append_left within, taken] at inRest
  cases inRest
  exact List.all_eq_true.mp List.all_takeWhile _ (List.getElem_mem within)

theorem lands_expectTag (tag : Tag) (text : String) :
    Lands ts i (expectTag tag text : Parser κ π (Token κ)) fun token j =>
      ts[i]? = some token ∧ token.hasTag tag = true ∧ j = i + 1 := by
  intro s token t atTokens atPlace run
  unfold expectTag at run
  rw [observe_bind] at run
  cases there : s.hasTag tag with
  | false =>
    rw [there] at run
    cases run
  | true =>
    rw [there] at run
    obtain ⟨same, onward, atFound, next⟩ := lands_consume s token t atTokens atPlace run
    unfold TokenCursor.hasTag at there
    rw [s.current_eq, atTokens, atPlace, atFound] at there
    exact ⟨same, onward, atFound, there, next⟩

section Kinds

variable [DecidableEq κ] (kind : κ)

/-- A look at the kind tells which token stands at the place; the other branch learns nothing. -/
theorem lands_is {f : Bool → Parser κ π β}
    (yes : ∀ token, ts[i]? = some token → token.kind = kind → Lands ts i (f true) goal)
    (no : Lands ts i (f false) goal) : Lands ts i (observe (·.is kind) >>= f) goal := by
  intro s b t atTokens atPlace run
  rw [observe_bind] at run
  cases there : s.is kind with
  | false =>
    rw [there] at run
    exact no s b t atTokens atPlace run
  | true =>
    obtain ⟨token, current, ofKind⟩ := s.current_of_is there
    rw [s.current_eq, atTokens, atPlace] at current
    rw [there] at run
    exact yes token current ofKind s b t atTokens atPlace run

theorem lands_isAny_ite (kinds : List κ) {yes no : Parser κ π β}
    (there : ∀ token, ts[i]? = some token → token.kind ∈ kinds → Lands ts i yes goal)
    (other : Lands ts i no goal) :
    Lands ts i (observe (·.isAny kinds) >>= fun there => if there then yes else no) goal := by
  intro s b t atTokens atPlace run
  rw [observe_bind] at run
  cases found : s.isAny kinds with
  | false =>
    rw [found] at run
    exact other s b t atTokens atPlace run
  | true =>
    rw [found] at run
    unfold TokenCursor.isAny TokenCursor.currentKind at found
    rw [s.current_eq, atTokens, atPlace, Option.any_map, Option.any_eq_true] at found
    obtain ⟨token, atToken, listed⟩ := found
    exact there token atToken (List.contains_iff_mem.mp listed) s b t atTokens atPlace run

/-- A token of the kind that was asked for stood at the place. -/
theorem lands_expect (text : String) :
    Lands ts i (expect kind text : Parser κ π (Token κ)) fun token j =>
      ts[i]? = some token ∧ token.kind = kind ∧ j = i + 1 := by
  refine lands_is kind (fun token atToken ofKind => ?_) (lands_fail text)
  refine lands_consume.mono fun found j _ ⟨atFound, next⟩ => ⟨atFound, ?_, next⟩
  cases atToken.symm.trans atFound
  exact ofKind

/-- With the token the parser goes on behind it, without it from the same place. -/
theorem lands_consumeIf {f : Option (Token κ) → Parser κ π β}
    (yes : ∀ token, ts[i]? = some token → token.kind = kind →
      Lands ts (i + 1) (f (some token)) goal)
    (no : Lands ts i (f none) goal) : Lands ts i (consumeIf kind >>= f) goal := by
  intro s b t atTokens atPlace run
  by_cases there : s.is kind = true
  · obtain ⟨token, current, ofKind⟩ := s.current_of_is there
    have taken : consumeIf kind s = .ok (some token) s.next := by
      unfold consumeIf
      rw [if_pos there, current]
    have place := TokenCursor.position_next current
    rw [bind_ok taken] at run
    rw [s.current_eq, atTokens, atPlace] at current
    obtain ⟨same, onward, found⟩ := yes token current ofKind s.next b t
      (s.tokens_next.trans atTokens) (by omega) run
    exact ⟨same, by omega, found⟩
  · have left : consumeIf kind s = .ok none s := by
      unfold consumeIf
      rw [if_neg there]
    rw [bind_ok left] at run
    exact no s b t atTokens atPlace run

theorem lands_accept {f : Bool → Parser κ π β}
    (yes : ∀ token, ts[i]? = some token → token.kind = kind → Lands ts (i + 1) (f true) goal)
    (no : Lands ts i (f false) goal) : Lands ts i (accept kind >>= f) goal := by
  rw [accept_bind]
  exact lands_consumeIf kind yes no

theorem lands_accept_ite {yes no : Parser κ π β}
    (taken : ∀ token, ts[i]? = some token → token.kind = kind → Lands ts (i + 1) yes goal)
    (left : Lands ts i no goal) :
    Lands ts i (accept kind >>= fun taken => if taken then yes else no) goal :=
  lands_accept kind taken left

/-- Whether or not the token is there, the parse goes on. -/
theorem accept_onward : Lands ts i (accept kind : Parser κ π Bool) fun _ _ => True := by
  rw [← bind_pure (accept kind)]
  exact lands_accept kind (fun _ _ _ => lands_pure trivial) (lands_pure trivial)

theorem consumeIf_onward :
    Lands ts i (consumeIf kind : Parser κ π (Option (Token κ))) fun _ _ => True := by
  rw [← bind_pure (consumeIf kind)]
  exact lands_consumeIf kind (fun _ _ _ => lands_pure trivial) (lands_pure trivial)

end Kinds

/-- A property of lists that holds of none, and that one more finding in front of the
others keeps, holds of what a loop has collected; `Between` is known of the two places
between which the loop decides whether to go on. -/
theorem lands_items_between {stop : TokenCursor κ π → Bool} {item : Parser κ π α}
    {more : Parser κ π Bool} {Listed : Nat → Nat → List α → Prop} {Found : Nat → Nat → α → Prop}
    {Between : Nat → Nat → Prop}
    (each : ∀ i, Lands ts i item fun a j => Found i j a)
    (goOn : ∀ i, Lands ts i more fun _ j => Between i j)
    (none : ∀ i, Listed i i [])
    (cons : ∀ i j k l a as, Found i j a → j ≤ k → Between j k → Listed k l as →
      Listed i l (a :: as))
    (i : Nat) : Lands ts i (items stop item more) fun as j => Listed i j as := by
  have within : ∀ budget i,
      Lands ts i (itemsWithin stop item more budget) fun as j => Listed i j as := by
    intro budget
    induction budget with
    | zero => exact fun i => lands_pure (none i)
    | succ budget ih =>
      intro i
      refine lands_observe fun _ => .ite (lands_pure (none i)) ?_
      refine (each i).bind fun first j _ found => (goOn j).bind fun _ k onward between => .ite ?_ ?_
      · exact (ih k).bind fun others l _ listed =>
          lands_pure (cons i j k l first others found onward between listed)
      · exact lands_pure (cons i j k k first [] found onward between (none k))
  exact lands_observe fun budget => within budget i

/-- The same, where the loop may decide in any way. -/
theorem lands_items {stop : TokenCursor κ π → Bool} {item : Parser κ π α} {more : Parser κ π Bool}
    {Listed : Nat → Nat → List α → Prop} {Found : Nat → Nat → α → Prop}
    (each : ∀ i, Lands ts i item fun a j => Found i j a)
    (goOn : ∀ i, Lands ts i more fun _ _ => True)
    (none : ∀ i, Listed i i [])
    (cons : ∀ i j k l a as, Found i j a → j ≤ k → Listed k l as → Listed i l (a :: as))
    (i : Nat) : Lands ts i (items stop item more) fun as j => Listed i j as :=
  lands_items_between each goOn none
    (fun i j k l a as found onward _ listed => cons i j k l a as found onward listed) i

end Parser

end ScriptFront
