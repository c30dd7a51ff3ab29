import ScriptFront.Proofs.Grammar.Forward
import ScriptFront.Proofs.Landing
import ScriptFront.Proofs.Switch.Statements

namespace ScriptFront.Script

open ScriptFront.Parser

/-- What the cursor of a parser can be asked for. A probe is made of such requests, since it
sees nothing of the parser but the cursor; a mark is a place in the tokens. -/
inductive CursorRequest where
  | current
  | currentKind
  | peek (n : Nat)
  | is (kind : TokenKind)
  | isAt (n : Nat) (kind : TokenKind)
  | isAny (kinds : List TokenKind)
  | isnt (kind : TokenKind)
  | isntAny (kinds : List TokenKind)
  | hasTag (tag : Tag)
  | willContinue
  | consume
  | expect (kind : TokenKind) (text : String)
  | expectTag (tag : Tag) (text : String)
  | consumeIf (kind : TokenKind)
  | skipWhileTag (tag : Tag)
  | error (text : String)
  | properties
  | setSourceType (sourceType : SourceType)
  | mark
  | spanSince (mark : Nat)
  | makeNode (mark : Nat) (label : String)
  | lookAhead (probe : List CursorRequest)

/-- What a parser can be asked for, one thing after the other: the rules that may be called from
outside, and the requests to the cursor that it works on. -/
inductive Request where
  | statement
  | expression
  | node
  | trivia
  | cursor (request : CursorRequest)

/-- What it says: what was found, where the cursor is, or an error. Both parsers answer in this
form, the one with a switch and the one without. -/
inductive Reply where
  | done
  | error (e : ParseError)
  | tree (t : Tree)
  | token (t : Option (Token TokenKind))
  | kind (kind : Option TokenKind)
  | bool (b : Bool)
  | count (n : Nat)
  | properties (found : Properties)
  | span (span : Span)
  | node (n : Node String)
  | replies (all : List Reply)

/-- The outcome of an action as a reply. A failure ends the action where it happened. -/
def replying {σ α : Type} (action : EStateM ParseError σ α) (reply : α → Reply) :
    StateM σ Reply := fun s =>
  match action s with
  | .ok a t => (reply a, t)
  | .error e t => (.error e, t)

mutual

/-- What is answered to a request about the tokens, and what becomes of the state. A failed request
leaves the state where the failure happened. -/
def CursorRequest.answer : CursorRequest → StateM State Reply
  | .current => replying (Parser.observe (·.current)) .token
  | .currentKind => replying (Parser.observe (·.currentKind)) .kind
  | .peek n => replying (Parser.observe (·.peek n)) .token
  | .is kind => replying (Parser.observe (·.is kind)) .bool
  | .isAt n kind => replying (Parser.observe (·.isAt n kind)) .bool
  | .isAny kinds => replying (Parser.observe (·.isAny kinds)) .bool
  | .isnt kind => replying (Parser.observe (!·.is kind)) .bool
  | .isntAny kinds => replying (Parser.observe (!·.isAny kinds)) .bool
  | .hasTag tag => replying (Parser.observe (·.hasTag tag)) .bool
  | .willContinue => replying (Parser.observe (·.willContinue)) .bool
  | .consume => replying Parser.consume (.token ∘ some)
  | .expect kind text => replying (Parser.expect kind text) (.token ∘ some)
  | .expectTag tag text => replying (Parser.expectTag tag text) (.token ∘ some)
  | .consumeIf kind => replying (Parser.consumeIf kind) .token
  | .skipWhileTag tag => replying (Parser.skipWhileTag tag) .count
  | .error text => replying (Parser.observe (·.error text)) .error
  | .properties => replying (Parser.observe (·.properties)) .properties
  | .setSourceType sourceType =>
    replying (Parser.modifyProperties fun p => { p with sourceType }) fun _ => .done
  | .mark => replying Parser.mark .count
  | .spanSince start => replying (Parser.observe (·.spanSince start)) .span
  | .makeNode start label => replying (Parser.makeNode start label) .node
  | .lookAhead probe => replying (Parser.lookAhead fun s =>
      let (all, t) := answers probe s
      .ok all t) .replies

/-- The answers to some requests, each given in the state that the one before has left. -/
def CursorRequest.answers : List CursorRequest → StateM State (List Reply)
  | [] => pure []
  | request :: requests => do
    let reply ← request.answer
    return reply :: (← answers requests)

end

/-- The reply of the parser that tells its rules where `in` is an operator. -/
def Request.answer : Request → StateM State Reply
  | .statement => replying parseStatement .tree
  | .expression => replying parseExpression .tree
  | .node => replying grammar.node .tree
  | .trivia => replying grammar.trivia fun _ => .done
  | .cursor request => request.answer

/-- The replies to some requests, and where these leave the parser. -/
def session {σ : Type} (answer : Request → StateM σ Reply) (s : σ) :
    List Request → List Reply × σ
  | [] => ([], s)
  | request :: requests =>
    let (reply, t) := answer request s
    let (replies, last) := session answer t requests
    (reply :: replies, last)

theorem session_cons {σ : Type} (answer : Request → StateM σ Reply) (s : σ) (request : Request)
    (requests : List Request) :
    session answer s (request :: requests) =
      ((answer request s).1 :: (session answer (answer request s).2 requests).1,
        (session answer (answer request s).2 requests).2) := rfl

namespace Machine

/-- The machine at the first of some tokens. -/
def ofTokens (tokens : List (Token TokenKind)) (options : Options) : Machine where
  cursor := State.ofTokens tokens options

/-- The reply of the parser that keeps the switch. The requests of its cursor cannot reach
the switch. -/
def answer : Request → StateM Machine Reply
  | .statement => replying parseStatement .tree
  | .expression => replying parseExpression .tree
  | .node => replying parseStatement .tree
  | .trivia => replying (on trimSeparators) fun _ => .done
  | .cursor request => fun m =>
    let (reply, s) := request.answer m.cursor
    (reply, { m with cursor := s })

end Machine

section Tokens

variable {α : Type} {p : Rule α}

/-- No action that only moves forward changes the tokens, whether it succeeds or fails. -/
theorem replying_tokens {s : State} {reply : α → Reply} (moved : Moved s (p s)) :
    (replying p reply s).2.tokens = s.tokens := by
  unfold replying
  cases run : p s with
  | ok a t =>
    rw [run] at moved
    exact moved.tokens
  | error e t =>
    rw [run] at moved
    exact moved.tokens

theorem CursorRequest.answer_tokens (request : CursorRequest) (s : State) :
    (request.answer s).2.tokens = s.tokens := by
  have short := Nat.lt_succ_self s.rest.length
  cases request with
  | consume => exact replying_tokens (taking_consume s short).2.moved
  | expect kind text => exact replying_tokens (taking_expect kind text s short).2.moved
  | expectTag tag text => exact replying_tokens (taking_expectTag tag text s short).2.moved
  | consumeIf kind => exact replying_tokens (steady_consumeIf kind s short).2
  | skipWhileTag tag => exact s.tokens_skipWhile _
  | _ => rfl

theorem Request.answer_tokens (request : Request) (s : State) :
    (request.answer s).2.tokens = s.tokens := by
  have settled := (Rules.settled_unfolded .refusing .refusing (s.rest.length + 1))
  have short := Nat.lt_succ_self s.rest.length
  have statement : (replying parseStatement .tree s).2.tokens = s.tokens :=
    replying_tokens (settled.statement true s short).2.moved
  cases request with
  | statement => exact statement
  | expression => exact replying_tokens (settled.expression true s short).2.moved
  | node => exact statement
  | trivia => exact s.tokens_skipWhile _
  | cursor request => exact request.answer_tokens s

/-- No request changes the list of tokens, so places can be compared across a session. The induction
is on the requests. -/
theorem session_tokens (s : State) (requests : List Request) :
    (session Request.answer s requests).2.tokens = s.tokens := by
  induction requests generalizing s with
  | nil => rfl
  | cons request requests ih => exact (ih _).trans (request.answer_tokens s)

/-- The tokens, the place in them and the properties are all that there is to a cursor. -/
theorem State.ext_place {s t : State} (tokens : s.tokens = t.tokens)
    (position : s.position = t.position) (properties : s.properties = t.properties) : s = t := by
  have before : s.before = t.before := by
    rw [s.before_eq_take, t.before_eq_take, tokens, position]
  have rest : s.rest = t.rest := by rw [s.rest_eq_drop, t.rest_eq_drop, tokens, position]
  cases s
  cases t
  simp only [TokenCursor.mk.injEq]
  exact ⟨before, rest, properties⟩

/-- Taking `n` tokens moves over `n` places, if there are so many, and does nothing else. -/
theorem session_consume (n : Nat) (s : State) (enough : n ≤ s.rest.length) :
    (session Request.answer s (List.replicate n (.cursor .consume))).2.position = s.position + n ∧
      (session Request.answer s (List.replicate n (.cursor .consume))).2.properties =
        s.properties := by
  induction n generalizing s with
  | zero => exact ⟨rfl, rfl⟩
  | succ n ih =>
    cases ahead : s.rest with
    | nil => simp [ahead] at enough
    | cons token rest =>
      have current : s.current = some token := by simp [TokenCursor.current, ahead]
      have taken : (Request.answer (.cursor .consume) s).2 = s.next := by
        simp only [Request.answer, CursorRequest.answer, replying, consume, current]
      have left := s.left_next current
      obtain ⟨position, properties⟩ := ih s.next (by omega)
      rw [List.replicate_succ, session_cons, taken, position, properties,
        TokenCursor.position_next current]
      exact ⟨by omega, by simp [TokenCursor.next, ahead]⟩

end Tokens

namespace Machine

/-- The reply to a step is the reply to the rule that it follows, with the switch on before and
behind. -/
theorem replying_keeps {α : Type} {p : Step α} {q : Rule α} (keeps : Keeps true p q)
    (reply : α → Reply) (s : State) :
    replying p reply ⟨s, true⟩ = ((replying q reply s).1, ⟨(replying q reply s).2, true⟩) := by
  unfold replying
  rw [keeps s]
  cases q s <;> rfl

/-- A parser that keeps the switch and one that has none give the same replies, and between
two requests the switch is set. -/
theorem answer_keeps (request : Request) (s : State) :
    answer request ⟨s, true⟩ = ((request.answer s).1, ⟨(request.answer s).2, true⟩) := by
  cases request with
  | statement => exact replying_keeps parseStatement_keeps _ s
  | expression => exact replying_keeps parseExpression_keeps _ s
  | node => exact replying_keeps parseStatement_keeps _ s
  | trivia => exact replying_keeps (keeps_on trimSeparators) (fun _ => .done) s
  | cursor request => rfl

/-- A session on the machine is the session on the rules. Each request finds the switch on, the one
behind a failed request as well, which is why nothing of an earlier request is left in it. -/
theorem session_keeps (s : State) (requests : List Request) :
    session answer ⟨s, true⟩ requests =
      ((session Request.answer s requests).1, ⟨(session Request.answer s requests).2, true⟩) := by
  induction requests generalizing s with
  | nil => rfl
  | cons request requests ih => rw [session_cons, session_cons, answer_keeps, ih]

/-- The machine at a place of some tokens: it takes the tokens in front of that place. -/
def movedTo (place : Nat) (tokens : List (Token TokenKind)) (options : Options) : Machine :=
  (session answer (ofTokens tokens options) (List.replicate place (.cursor .consume))).2

/-- A cursor is what a new one becomes by taking tokens up to the same place. -/
theorem movedTo_eq (s : State) :
    movedTo s.position s.tokens ⟨s.properties.sourceType⟩ = ⟨s, true⟩ := by
  let start : State := .ofTokens s.tokens ⟨s.properties.sourceType⟩
  let moves : List Request := List.replicate s.position (.cursor .consume)
  have within : s.position ≤ start.rest.length := by
    have whole := s.position_add_left
    exact Nat.le_of_add_right_le (Nat.le_of_eq whole)
  obtain ⟨position, properties⟩ := session_consume s.position start within
  have there : (session Request.answer start moves).2 = s :=
    State.ext_place (session_tokens start moves) (position.trans (Nat.zero_add _)) properties
  calc movedTo s.position s.tokens ⟨s.properties.sourceType⟩
    _ = ⟨(session Request.answer start moves).2, true⟩ :=
      congrArg Prod.snd (session_keeps start moves)
    _ = ⟨s, true⟩ := by rw [there]

/-- Whatever a parser has been asked for, and however deep that failed, it is left as a new
one that has only moved over the same tokens, with the source type that it has found: `in`
is an operator, and all replies to come are those of the new one. They are those as well of
the parser that has no switch to put back. -/
theorem session_forgets (tokens : List (Token TokenKind)) (options : Options)
    (requests : List Request) :
    let left := (session answer (ofTokens tokens options) requests).2
    let new := movedTo left.cursor.position tokens ⟨left.cursor.properties.sourceType⟩
    left.allowIn = true ∧ left = new ∧
      (∀ later, (session answer left later).1 = (session answer new later).1) ∧
      ∀ later, (session answer left later).1 = (session Request.answer left.cursor later).1 := by
  intro left new
  let last := (session Request.answer (.ofTokens tokens options) requests).2
  have kept : left = ⟨last, true⟩ := congrArg Prod.snd (session_keeps _ requests)
  have same : last.tokens = tokens := session_tokens (.ofTokens tokens options) requests
  have renewed : left = new := by
    have moved := movedTo_eq last
    rw [same] at moved
    simp only [new, kept, moved]
  refine ⟨by rw [kept], renewed, fun later => by rw [← renewed], fun later => ?_⟩
  rw [kept]
  exact congrArg Prod.fst (session_keeps last later)

/-- Behind a header that fails in its first clause, `in` joins the operands up to the end. -/
example : (tokenize "for (var a b in c").toOption.map (fun ts =>
    (session answer (ofTokens ts {}) [.statement, .expression]).2.cursor.willContinue) =
      some false := by decide +kernel

end Machine

end ScriptFront.Script
