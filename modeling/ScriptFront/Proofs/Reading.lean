import ScriptFront.Proofs.Forward
import ScriptFront.Proofs.Piece
import ScriptFront.Script.Grammar.Basic

namespace ScriptFront.Script

open ScriptFront.Parser

variable {α β : Type}

/-- What is still to be read, extents aside. -/
def ahead (s : State) : List (Piece TokenKind) := s.rest.map Token.piece

/-- Wherever exactly the pieces `front` are ahead, the rule succeeds and leaves the
properties as they are; what it finds and the pieces that are then ahead satisfy `post`. -/
def Reads (front : List (Piece TokenKind)) (p : Rule α)
    (post : α → List (Piece TokenKind) → Prop) : Prop :=
  ∀ s : State, ahead s = front →
    ∃ a t, p s = .ok a t ∧ t.properties = s.properties ∧ post a (ahead t)

variable {front back : List (Piece TokenKind)} {x : Piece TokenKind} {p q : Rule α}
  {f : α → Rule β} {post : α → List (Piece TokenKind) → Prop}
  {goal : β → List (Piece TokenKind) → Prop}

/-- Rules read one after the other read what stands one behind the other. -/
theorem Reads.bind (first : Reads front p post)
    (next : ∀ a back, post a back → Reads back (f a) goal) : Reads front (p >>= f) goal := by
  intro s here
  obtain ⟨a, t, run, kept, found⟩ := first s here
  obtain ⟨b, u, run', kept', found'⟩ := next a (ahead t) found t rfl
  exact ⟨b, u, (bind_ok run).trans run', kept'.trans kept, found'⟩

theorem Reads.mono {post' : α → List (Piece TokenKind) → Prop} (reads : Reads front p post)
    (weaker : ∀ a back, post a back → post' a back) : Reads front p post' := by
  intro s here
  obtain ⟨a, t, run, kept, found⟩ := reads s here
  exact ⟨a, t, run, kept, weaker a (ahead t) found⟩

theorem reads_pure {a : α} (found : post a front) : Reads front (pure a : Rule α) post := by
  intro s here
  exact ⟨a, s, rfl, rfl, by rw [here]; exact found⟩

theorem Reads.map {h : α → β} (reads : Reads front p fun a back => goal (h a) back) :
    Reads front (h <$> p) goal := by
  rw [← bind_pure_comp]
  exact reads.bind fun a back found => reads_pure found

/-- A look at the cursor, when what is ahead tells what it shows. -/
theorem reads_observe {view : State → α} {a : α} (value : ∀ s, ahead s = front → view s = a)
    (next : Reads front (f a) goal) : Reads front (observe view >>= f) goal := by
  intro s here
  rw [observe_bind, value s here]
  exact next s here

/-- A test whose answer the pieces ahead determine takes one branch. This is what makes reading a
written tree a computation. -/
theorem reads_if {view : State → Bool} {yes no : Rule β} {b : Bool}
    (value : ∀ s, ahead s = front → view s = b)
    (next : Reads front (if b then yes else no) goal) :
    Reads front (observe view >>= fun there => if there then yes else no) goal :=
  reads_observe value next

/-- Whatever is seen does not matter. -/
theorem reads_any {view : State → α} (next : ∀ a, Reads front (f a) goal) :
    Reads front (observe view >>= f) goal := by
  intro s here
  rw [observe_bind]
  exact next (view s) s here

/-- Making a node reads nothing. The span is left open here, since what is ahead has none. -/
theorem reads_makeNode (start : Nat) (kind : Construct) :
    Reads front (makeNode start kind : Rule Tree) fun t back => t.kind = kind ∧ back = front :=
  fun s here => ⟨⟨kind, s.spanSince start⟩, s, rfl, rfl, rfl, here⟩

/-- The first piece ahead is a token at the cursor, and behind it the other pieces are ahead. -/
theorem ahead_cons {s : State} (here : ahead s = x :: back) :
    ∃ token, s.current = some token ∧ token.piece = x ∧ ahead s.next = back := by
  obtain ⟨token, others, rest, made, left⟩ := List.map_eq_cons_iff.mp here
  refine ⟨token, by rw [TokenCursor.current, rest]; rfl, made, ?_⟩
  rw [← left]
  simp only [ahead, TokenCursor.next, rest]

theorem reads_consume : Reads (x :: back) (consume : Rule (Token TokenKind)) fun token after =>
    token.piece = x ∧ after = back := by
  intro s here
  obtain ⟨token, current, made, left⟩ := ahead_cons here
  refine ⟨token, s.next, ?_, ?_, made, left⟩
  · unfold consume
    rw [current]
  · unfold TokenCursor.next
    split <;> rfl

section Heads

/-- The kind of the first piece. -/
def headKind (front : List (Piece TokenKind)) : Option TokenKind := front.head?.map (·.kind)

@[simp] theorem headKind_nil : headKind [] = none := rfl

@[simp] theorem headKind_cons (x : Piece TokenKind) (back : List (Piece TokenKind)) :
    headKind (x :: back) = some x.kind := rfl

variable {s : State} (here : ahead s = front)
include here

/-- The kind at the cursor shows in the pieces ahead; with the next four lemmas every test of the
grammar does. -/
theorem currentKind_eq : s.currentKind = headKind front := by
  subst here
  simp only [headKind, ahead, TokenCursor.currentKind, TokenCursor.current, List.head?_map,
    Option.map_map]
  rfl

theorem is_eq (kind : TokenKind) : s.is kind = (headKind front == some kind) := by
  rw [TokenCursor.is, currentKind_eq here]

theorem isAny_eq (kinds : List TokenKind) : s.isAny kinds = (headKind front).any (kinds.contains ·) := by
  rw [TokenCursor.isAny, currentKind_eq here]

theorem willContinue_eq : s.willContinue = !front.isEmpty := by
  subst here
  simp [ahead, TokenCursor.willContinue]

/-- A test of the token behind the current one sees the pieces behind the first, layout aside. -/
theorem followedBy_eq (kind : TokenKind) :
    followedBy kind s = (headKind (front.tail.dropWhile Piece.isSpace) == some kind) := by
  subst here
  unfold followedBy
  cases rest : s.rest with
  | nil => simp [ahead, rest]
  | cons token tokens =>
    have through : Piece.isSpace ∘ Token.piece = (Token.isSpace : Token TokenKind → Bool) := rfl
    simp only [ahead, rest, List.map_cons, List.tail_cons, List.dropWhile_map, through, headKind,
      List.head?_map, Option.map_map]
    cases (tokens.dropWhile Token.isSpace).head? with
    | none => rfl
    | some next => simp [Option.any, beq_eq_decide]

/-- Where no arrow is ahead, a parenthesis opens no parameters of an arrow function. -/
theorem arrowFollows_eq_false (calm : ∀ x ∈ front, x.kind ≠ .arrow) : arrowFollows s = false := by
  subst here
  have none : ∀ token ∈ s.rest, token.kind ≠ .arrow :=
    fun token member => calm token.piece (List.mem_map_of_mem member)
  have scan (tokens : List (Token TokenKind)) (within : ∀ token ∈ tokens, token.kind ≠ .arrow)
      (depth : Nat) : arrowBehind depth tokens = false := by
    induction tokens generalizing depth with
    | nil => rfl
    | cons token tokens ih =>
      obtain ⟨-, others⟩ := List.forall_mem_cons.mp within
      unfold arrowBehind
      split
      · exact ih others _
      · split
        · cases found : (tokens.dropWhile Token.isSpace).head? with
          | none => rfl
          | some next =>
            have member := List.dropWhile_subset _ (List.mem_of_head? found)
            simpa using others next member
        · exact ih others _
      · exact ih others _
  exact scan s.rest none 0

/-- As many tokens are left as pieces are ahead, so budgets can be read off the pieces. -/
theorem length_eq : s.rest.length = front.length := by
  subst here
  simp [ahead]

end Heads

section Steps

variable {kind : TokenKind}

/-- A rule that distinguishes first kinds goes on as for the first piece. -/
theorem reads_currentKind {f : Option TokenKind → Rule β} (next : Reads front (f (headKind front)) goal) :
    Reads front (currentKind? >>= f) goal :=
  reads_observe (fun _ here => currentKind_eq here) next

theorem reads_kind {f : Option TokenKind → Rule β} (first : headKind front = some kind)
    (next : Reads front (f (some kind)) goal) : Reads front (currentKind? >>= f) goal := by
  apply reads_currentKind
  rw [first]
  exact next

/-- What goes on behind a token that was taken. -/
theorem Reads.taken {p : Rule (Token TokenKind)} {f : Token TokenKind → Rule β}
    (reads : Reads front p fun token after => token.piece = x ∧ after = back)
    (next : ∀ token, token.piece = x → Reads back (f token) goal) : Reads front (p >>= f) goal := by
  apply reads.bind
  rintro token _ ⟨made, rfl⟩
  exact next token made

/-- A piece of the kind that is asked for is read, and the rule goes on behind it. -/
theorem reads_expect {f : Token TokenKind → Rule β} {complaint : Complaint} (ofKind : x.kind = kind)
    (next : ∀ token, token.piece = x → Reads back (f token) goal) :
    Reads (x :: back) (expect kind complaint >>= f) goal := by
  have there (s : State) (here : ahead s = x :: back) : s.is kind = true := by
    simp [is_eq here, ofKind]
  exact (reads_if there reads_consume).taken next

theorem reads_expectTag {f : Token TokenKind → Rule β} {tag : Tag} {text : String}
    (tagged : x.tag = some tag) (next : ∀ token, token.piece = x → Reads back (f token) goal) :
    Reads (x :: back) (expectTag tag text >>= f) goal := by
  have there (s : State) (here : ahead s = x :: back) : s.hasTag tag = true := by
    obtain ⟨token, current, made, -⟩ := ahead_cons here
    subst made
    simpa [TokenCursor.hasTag, current, Token.hasTag] using tagged
  exact (reads_if there reads_consume).taken next

theorem reads_consumeIf_none {f : Option (Token TokenKind) → Rule β}
    (other : headKind front ≠ some kind) (next : Reads front (f none) goal) :
    Reads front (consumeIf kind >>= f) goal := by
  intro s here
  have left : consumeIf kind s = .ok none s := by
    unfold consumeIf
    rw [if_neg (by simpa [is_eq here] using other)]
  rw [bind_ok left]
  exact next s here

theorem reads_consumeIf_some {f : Option (Token TokenKind) → Rule β} (ofKind : x.kind = kind)
    (next : ∀ token, token.piece = x → Reads back (f (some token)) goal) :
    Reads (x :: back) (consumeIf kind >>= f) goal := by
  intro s here
  obtain ⟨token, t, run, kept, made, left⟩ := reads_consume s here
  have taken : consumeIf kind s = .ok (some token) t := by
    obtain ⟨found, current, -, -⟩ := ahead_cons here
    unfold consume at run
    unfold consumeIf
    rw [if_pos (by simp [is_eq here, ofKind])]
    rw [current] at run ⊢
    cases run
    rfl
  obtain ⟨b, u, run', kept', found⟩ := next token made t left
  exact ⟨b, u, (bind_ok taken).trans run', kept'.trans kept, found⟩

theorem reads_accept_no {f : Bool → Rule β} (other : headKind front ≠ some kind)
    (next : Reads front (f false) goal) : Reads front (accept kind >>= f) goal := by
  rw [accept_bind]
  exact reads_consumeIf_none other next

theorem reads_accept_yes {f : Bool → Rule β} (ofKind : x.kind = kind)
    (next : Reads back (f true) goal) : Reads (x :: back) (accept kind >>= f) goal := by
  rw [accept_bind]
  exact reads_consumeIf_some ofKind fun _ _ => next

/-- Skipping tokens by a test that does not see spans skips pieces by the same test. -/
theorem ahead_skipWhile {test : Token TokenKind → Bool} {test' : Piece TokenKind → Bool}
    (same : ∀ token, test token = test' token.piece) (s : State) :
    ahead (s.skipWhile test) = (ahead s).dropWhile test' := by
  have through : test = test' ∘ Token.piece := funext same
  simp only [ahead, TokenCursor.skipWhile, List.dropWhile_map, through]

/-- Layout ahead is skipped, and what is then ahead begins with something else. -/
theorem reads_trim : Reads front trim fun _ after => after = front.dropWhile Piece.isSpace := by
  intro s here
  refine ⟨(), s.skipWhile Token.isSpace, rfl, rfl, ?_⟩
  rw [ahead_skipWhile fun token => (Token.isSpace_piece token).symm, here]

/-- Whether the piece may stand freely between two statements. -/
def separates (x : Piece TokenKind) : Bool := x.isSpace || x.kind = .semicolon

theorem reads_trimSeparators :
    Reads front trimSeparators fun _ after => after = front.dropWhile separates := by
  intro s here
  have same (token : Token TokenKind) : isSeparator token = separates token.piece := rfl
  refine ⟨(), s.skipWhile isSeparator, rfl, rfl, ?_⟩
  rw [ahead_skipWhile same, here]

theorem reads_eat : Reads (x :: back) eat fun token after =>
    token.piece = x ∧ after = back.dropWhile Piece.isSpace := by
  apply reads_consume.taken
  intro token made
  apply reads_trim.bind
  rintro _ _ rfl
  exact reads_pure ⟨made, rfl⟩

end Steps

end ScriptFront.Script
