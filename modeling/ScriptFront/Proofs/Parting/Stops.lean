import ScriptFront.Proofs.Grammar.Progress
import ScriptFront.Proofs.Landing

namespace ScriptFront.Script

open ScriptFront.Parser

variable {ts : List (Token TokenKind)} {i : Nat}

/-- At the place stands nothing, or a token that is no layout and of none of the kinds. -/
def Stop (ts : List (Token TokenKind)) (kinds : List TokenKind) (i : Nat) : Prop :=
  ∀ token, ts[i]? = some token → token.isSpace = false ∧ token.kind ∉ kinds

theorem Stop.mono {kinds kinds' : List TokenKind} (stop : Stop ts kinds i) (fewer : kinds' ⊆ kinds) :
    Stop ts kinds' i :=
  fun token atToken => (stop token atToken).imp_right fun free member => free (fewer member)

/-- What stops two sorts of continuation stops both together. -/
theorem Stop.and {kinds kinds' : List TokenKind} (stop : Stop ts kinds i)
    (other : ∀ kind, ts[i]?.map (·.kind) = some kind → kind ∉ kinds') :
    Stop ts (kinds ++ kinds') i := by
  intro token atToken
  refine ⟨(stop token atToken).1, fun member => ?_⟩
  rcases List.mem_append.mp member with before | now
  · exact (stop token atToken).2 before
  · exact other token.kind (by rw [atToken]; rfl) now

/-- No token that was to be skipped stands at the place reached. -/
theorem lands_skipWhile_stop (test : Token TokenKind → Bool) :
    Lands ts i (fun s => .ok () (s.skipWhile test) : Rule Unit) fun _ j =>
      ∀ token, ts[j]? = some token → test token = false := by
  intro s a t atTokens atPlace run
  obtain ⟨same, onward, -⟩ := lands_skipWhile test s a t atTokens atPlace run
  refine ⟨same, onward, fun token atToken => ?_⟩
  rw [← same, ← TokenCursor.current_eq] at atToken
  cases run
  have atFront : (s.rest.dropWhile test).head? = some token := atToken
  have first := List.head?_dropWhile_not test s.rest
  rw [atFront] at first
  exact Bool.eq_false_iff.mpr fun skipped => by simp [skipped] at first

theorem trim_stop : Lands ts i trim fun _ j => Stop ts [] j :=
  (lands_skipWhile_stop Token.isSpace).mono fun _ _ _ solid token atToken =>
    ⟨solid token atToken, List.not_mem_nil⟩

theorem trimSeparators_stop : Lands ts i trimSeparators fun _ j => Stop ts [.semicolon] j := by
  refine (lands_skipWhile_stop isSeparator).mono fun _ j _ free token atToken => ?_
  obtain ⟨noSpace, noSemicolon⟩ := Bool.or_eq_false_iff.mp (free token atToken)
  exact ⟨noSpace, by simpa using noSemicolon⟩

/-- A place where a token stands that is no layout is kept when layout is skipped. -/
theorem Stop.trim {kinds : List TokenKind} (stop : Stop ts kinds i) :
    Lands ts i Script.trim fun _ j => j = i := by
  intro s a t atTokens atPlace run
  obtain ⟨same, onward, gap⟩ := lands_skipWhile Token.isSpace s a t atTokens atPlace run
  refine ⟨same, onward, ?_⟩
  refine Decidable.byContradiction fun moved => ?_
  have total := t.position_add_left
  rw [same] at total
  have atFirst := List.getElem?_eq_getElem (by omega : i < ts.length)
  have layout := gap i _ (Nat.le_refl i) (by omega) atFirst
  rw [(stop _ atFirst).1] at layout
  cases layout

/-- The tokens that go on with an expression of the innermost layer. -/
def suffixKinds : List TokenKind := [.period, .openSquare, .openParen, .optionalChain, .backQuote]

/-- The operators of a layer, `in` only where it is one. -/
def OperatorLayer.allowed (layer : OperatorLayer) (allowIn : Bool) : List TokenKind :=
  layer.operators.filter fun kind => kind ≠ .kwIn || allowIn

/-- The tokens that go on with every expression, so that none can end in front of them. An increment
goes on with a name only and is not among them. -/
def joiningKinds (allowIn : Bool) : List TokenKind :=
  suffixKinds ++ OperatorLayer.comparative.allowed allowIn ++
    OperatorLayer.multiplicative.allowed allowIn ++ OperatorLayer.additive.allowed allowIn ++
    [.question] ++ assignmentOperators

/-- Expressions end only where they cannot go on. -/
def Rules.Stops (ts : List (Token TokenKind)) (r : Rules) : Prop :=
  ∀ allowIn i, Lands ts i (r.expression allowIn) fun _ j => Stop ts (joiningKinds allowIn) j

section Layers

variable {r : Rules} (settled : ∀ n, Rules.Settled n r r)
include settled

/-- No further suffix means that the token at the place begins none. -/
theorem suffix_stops (start : Nat) (expression : Tree) :
    Lands ts i (suffix? r start expression) fun longer j => longer = none →
      j = i ∧ ∀ kind, ts[i]?.map (·.kind) = some kind → kind ∉ suffixKinds := by
  have found {p : Rule Tree} {j : Nat} {Nowhere : Nat → Prop} (steady : ∀ n, Steady n p p) :
      Lands ts j (some <$> p) fun longer k => longer = none → Nowhere k :=
    ((lands_of_steady steady).mono fun _ _ _ _ => nofun).map
  have computed (optional : Bool) (n : Nat) :=
    (computedMember_taking (settled n) start expression optional).below
  have called (optional : Bool) (n : Nat) := (call_taking (settled n) start expression optional).below
  have named (optional : Bool) (n : Nat) :=
    (namedMember_taking (n := n) start expression optional).steady
  apply lands_currentKind
  split
  · exact .skip (fun _ => eat_taking.steady) fun _ _ _ => found (named false)
  · exact found (computed false)
  · exact found (called false)
  · refine .skip (fun _ => eat_taking.steady) fun _ _ _ => lands_currentKind ?_
    split
    · exact found (computed true)
    · exact found (called true)
    · exact found (named true)
  · refine .skip (fun n => (templateLiteral_taking (settled n)).below) fun _ _ _ => ?_
    exact found fun _ => steady_observe _
  · rename_i period square paren chain quote
    refine lands_pure fun _ => ⟨rfl, fun kind atKind member => ?_⟩
    simp only [suffixKinds, List.mem_cons, List.not_mem_nil, or_false] at member
    rcases member with rfl | rfl | rfl | rfl | rfl
    · exact period atKind
    · exact square atKind
    · exact paren atKind
    · exact chain atKind
    · exact quote atKind

/-- The loop over suffixes ends because none follows, not because its budget does: each suffix takes
a token, and the budget is the number of tokens left. -/
theorem suffixesWithin_stops {start budget : Nat} {expression : Tree}
    (enough : ts.length - i ≤ budget) (solid : Stop ts [] i) :
    Lands ts i (suffixesWithin r start budget expression) fun _ j => Stop ts suffixKinds j := by
  induction budget generalizing i expression with
  | zero =>
    refine lands_pure fun token atToken => ?_
    have inside := (List.getElem?_eq_some_iff.mp atToken).1
    omega
  | succ budget ih =>
    -- Each turn takes a token, so what is left of the budget is enough for the next ones.
    intro s b u atTokens atPlace run
    unfold suffixesWithin at run
    cases found : suffix? r start expression s with
    | error e t =>
      rw [bind_error found] at run
      cases run
    | ok longer t =>
      rw [bind_ok found] at run
      obtain ⟨same, onward, ended⟩ :=
        suffix_stops settled start expression s longer t atTokens atPlace found
      cases longer with
      | none =>
        cases run
        obtain ⟨here, free⟩ := ended rfl
        exact ⟨same, onward, here ▸ solid.and free⟩
      | some longer =>
        have fewer := suffix_some settled found
        have before := s.position_add_left
        have after := t.position_add_left
        rw [atTokens] at before
        rw [same] at after
        have rest : Lands ts t.position (trim >>= fun _ => suffixesWithin r start budget longer)
            fun _ j => Stop ts suffixKinds j :=
          trim_stop.bind fun _ j further solid => ih (by omega) solid
        obtain ⟨same', onward', stop⟩ := rest t b u same rfl run
        exact ⟨same', by omega, stop⟩

/-- Behind an expression of the innermost layer no access, call or template can follow. -/
theorem memberOrCall_stops (allowIn : Bool) :
    Lands ts i (memberOrCall r allowIn) fun _ j => Stop ts suffixKinds j := by
  apply lands_mark
  refine .skip (fun n => (primary_taking (settled n) allowIn).below) fun _ j _ => ?_
  apply trim_stop.bind
  intro _ k _ solid
  apply lands_left
  exact suffixesWithin_stops settled (Nat.le_refl _) solid

omit settled in
/-- A node is made without going on. -/
theorem Stop.makeNode {kinds : List TokenKind} (stop : Stop ts kinds i) (start : Nat)
    (c : Construct) : Lands ts i (Parser.makeNode start c : Rule Tree) fun _ j => Stop ts kinds j :=
  (lands_makeNode start c).mono fun _ _ _ made => made.1 ▸ stop

omit settled

variable (inner : r.Stops ts) (allowIn : Bool)
include inner

/-- An operand that stops in front of some tokens stops in front of the operators of its
layer as well, or is joined to an expression. -/
theorem binary_stops (layer : OperatorLayer) {operand : Rule Tree} {kinds : List TokenKind}
    (each : Lands ts i operand fun _ j => Stop ts kinds j)
    (fewer : kinds ++ layer.allowed allowIn ⊆ joiningKinds allowIn) :
    Lands ts i (binary r allowIn layer operand) fun _ j =>
      Stop ts (kinds ++ layer.allowed allowIn) j := by
  apply lands_mark
  apply each.bind
  intro left j _ stop
  apply stop.trim.bind
  rintro _ _ _ rfl
  apply lands_seen (fun kind => kind.any fun kind =>
    layer.operators.contains kind && (kind ≠ .kwIn || allowIn)) fun _ => rfl
  split
  · refine .skip (fun _ => eat_taking.steady) fun operator k _ => ?_
    apply (inner allowIn k).bind
    intro right l _ ended
    exact (ended.mono fewer).makeNode _ _
  · rename_i free
    refine lands_pure (stop.and fun kind atKind member => free ?_)
    rw [atKind, Option.any_some, Bool.and_eq_true, List.contains_iff_mem]
    exact List.mem_filter.mp member

include settled

/-- The three layers of operators add their own operators to what cannot follow. -/
theorem additive_stops : Lands ts i (additive r allowIn) fun _ j => Stop ts
    (suffixKinds ++ OperatorLayer.comparative.allowed allowIn ++
      OperatorLayer.multiplicative.allowed allowIn ++ OperatorLayer.additive.allowed allowIn) j := by
  have joined : suffixKinds ++ OperatorLayer.comparative.allowed allowIn ++
      OperatorLayer.multiplicative.allowed allowIn ++ OperatorLayer.additive.allowed allowIn ⊆
      joiningKinds allowIn :=
    fun _ member => List.mem_append_left _ (List.mem_append_left _ member)
  have operand : Lands ts i (memberOrCall r allowIn) fun _ j => Stop ts suffixKinds j :=
    memberOrCall_stops settled allowIn
  have compared := binary_stops inner allowIn .comparative operand fun _ member =>
    joined (List.mem_append_left _ (List.mem_append_left _ member))
  have multiplied := binary_stops inner allowIn .multiplicative compared fun _ member =>
    joined (List.mem_append_left _ member)
  exact binary_stops inner allowIn .additive multiplied joined

theorem conditional_stops : Lands ts i (conditional r allowIn) fun _ j => Stop ts
    (suffixKinds ++ OperatorLayer.comparative.allowed allowIn ++
      OperatorLayer.multiplicative.allowed allowIn ++ OperatorLayer.additive.allowed allowIn ++
      [.question]) j := by
  apply lands_mark
  apply (additive_stops settled inner allowIn).bind
  intro test j _ stop
  apply stop.trim.bind
  rintro _ _ _ rfl
  rw [accept_bind, consumeIf_bind]
  apply lands_seen (fun kind => kind == some TokenKind.question) fun _ => rfl
  split
  · refine .skip (fun _ => taking_consume.steady) fun _ _ _ => ?_
    refine .skip (fun _ => trim_steady) fun _ _ _ => ?_
    refine .skip (fun n => ((settled n).expression true).steady) fun consequent _ _ => ?_
    refine .skip (fun _ => trim_steady) fun _ _ _ => ?_
    refine .skip (fun _ => (expect_taking _ _).steady) fun _ _ _ => ?_
    refine .skip (fun _ => trim_steady) fun _ k _ => ?_
    apply (inner allowIn k).bind
    intro alternate l _ ended
    exact (ended.mono fun _ member => List.mem_append_left _ member).makeNode _ _
  · rename_i free
    refine lands_pure (stop.and fun kind atKind member => free ?_)
    rw [atKind, List.mem_singleton.mp member]
    rfl

/-- Behind a whole expression there is no token with which it could have gone on. -/
theorem expression_stops :
    Lands ts i (expression r allowIn) fun _ j => Stop ts (joiningKinds allowIn) j := by
  apply lands_mark
  apply (conditional_stops settled inner allowIn).bind
  intro target j _ stop
  apply stop.trim.bind
  rintro _ _ _ rfl
  apply lands_seen (fun kind => kind.any (assignmentOperators.contains ·)) fun _ => rfl
  split
  · refine .skip (fun _ => eat_taking.steady) fun operator k _ => ?_
    apply (inner allowIn k).bind
    intro value l _ ended
    apply ended.trim.bind
    rintro _ _ _ rfl
    exact ended.makeNode _ _
  · rename_i free
    refine lands_pure (stop.and fun kind atKind member => free ?_)
    rw [atKind, Option.any_some]
    exact List.contains_iff_mem.mpr member

end Layers

/-- Rules that refuse everything only move forward, and so does what is built on them. -/
theorem Rules.settled_refusing (depth n : Nat) :
    Rules.Settled n (Rules.refusing.unfolded depth) (Rules.refusing.unfolded depth) := by
  induction depth generalizing n with
  | zero => exact ⟨fun _ => complain_taking _, fun _ => complain_taking _,
      fun _ => complain_taking _, fun _ => complain_taking _⟩
  | succ depth ih =>
    cases n with
    | zero => exact ⟨fun _ _ => nofun, fun _ _ => nofun, fun _ _ => nofun, fun _ _ => nofun⟩
    | succ n => exact (ih n).unfold

/-- The rules of each depth stop in this way. The induction is on the depth. -/
theorem Rules.stops_unfolded (depth : Nat) : (Rules.refusing.unfolded depth).Stops ts := by
  induction depth with
  | zero => exact fun _ _ => lands_fail _
  | succ depth ih =>
    exact fun allowIn _ => expression_stops (Rules.settled_refusing depth) ih allowIn

/-- The separators behind a statement are all taken with it. -/
theorem statement_stops {r : Rules} (settled : ∀ n, Rules.Settled n r r) (allowIn : Bool) :
    Lands ts i (statement r allowIn) fun _ j => Stop ts [.semicolon] j := by
  refine .skip (fun _ => trim_steady) fun _ j _ => ?_
  refine .skip (fun n => (bareStatement_taking (settled n) allowIn).below) fun node k _ => ?_
  exact trimSeparators_stop.bind fun _ l _ stop => lands_pure stop

theorem Stop.current {kinds : List TokenKind} {s : State} (stop : Stop s.tokens kinds s.position)
    {token : Token TokenKind} (current : s.current = some token) :
    token.isSpace = false ∧ token.kind ∉ kinds :=
  stop token (s.current_eq.symm.trans current)

/-- Parsing goes on as far as it can. Behind an expression stands neither layout nor any token
that goes on with one, where `in` counts only if it is an operator there; and behind a
statement stands neither layout nor a semicolon. -/
theorem whole_stops (allowIn : Bool) (s t : State) (tree : Tree) :
    (Rules.whole.expression allowIn s = .ok tree t → ∀ token, t.current = some token →
        token.isSpace = false ∧ token.kind ∉ joiningKinds allowIn) ∧
      (Rules.whole.statement allowIn s = .ok tree t → ∀ token, t.current = some token →
        token.isSpace = false ∧ token.kind ≠ .semicolon) ∧
      parseExpression = Rules.whole.expression true ∧ parseStatement = Rules.whole.statement true := by
  refine ⟨fun run token current => ?_, fun run token current => ?_, rfl, rfl⟩
  · obtain ⟨same, -, stop⟩ :=
      Rules.stops_unfolded (s.rest.length + 1) allowIn s.position s tree t rfl rfl run
    exact Stop.current (same ▸ stop) current
  · obtain ⟨same, -, stop⟩ :=
      statement_stops (Rules.settled_refusing s.rest.length) allowIn s tree t rfl rfl run
    obtain ⟨solid, free⟩ := Stop.current (same ▸ stop) current
    exact ⟨solid, fun semicolon => free (by simp [semicolon])⟩

/-- Where `in` is no operator, an expression ends in front of it; otherwise it goes on to the
end of the statement. -/
theorem whole_stops_in :
    let name (text : String) : Token TokenKind := ⟨⟨.identifier, some .word⟩, text, default⟩
    let blank : Token TokenKind := ⟨⟨.space, some .whiteSpace⟩, " ", default⟩
    let word : Token TokenKind := ⟨⟨.kwIn, some .word⟩, "in", default⟩
    let separator : Token TokenKind := ⟨⟨.semicolon, none⟩, ";", default⟩
    let s := State.ofTokens [name "a", blank, word, blank, name "b", separator, blank, name "c"] {}
    (∃ tree t, Rules.whole.expression false s = .ok tree t ∧ t.current = some word ∧
        word.isSpace = false ∧ word.kind ∉ joiningKinds false) ∧
      ∃ tree t, Rules.whole.statement true s = .ok tree t ∧ t.current = some (name "c") ∧
        (name "c").isSpace = false ∧ (name "c").kind ≠ .semicolon := by
  intro name blank word separator s
  have barred : (match Rules.whole.expression false s with
      | .ok _ t => t.current
      | .error _ _ => none) = some word := by decide +kernel
  have allowed : (match Rules.whole.statement true s with
      | .ok _ t => t.current
      | .error _ _ => none) = some (name "c") := by decide +kernel
  constructor
  · cases run : Rules.whole.expression false s with
    | error e t =>
      rw [run] at barred
      cases barred
    | ok tree t =>
      rw [run] at barred
      exact ⟨tree, t, rfl, barred, (whole_stops false s t tree).1 run word barred⟩
  · cases run : Rules.whole.statement true s with
    | error e t =>
      rw [run] at allowed
      cases allowed
    | ok tree t =>
      rw [run] at allowed
      exact ⟨tree, t, rfl, allowed, (whole_stops true s t tree).2.1 run (name "c") allowed⟩

end ScriptFront.Script
