import ScriptFront.Proofs.Derivation.Yields
import ScriptFront.Proofs.Lexed
import ScriptFront.Script.Grammar.Statement

namespace ScriptFront.Script

open ScriptFront.Parser

variable {α β : Type} {s : State} {rules : Rules} {allowIn : Bool}
  {kind : TokenKind}

/-- The rule has no result at the cursor. -/
def Refuses (p : Rule α) (s : State) : Prop := ∃ e t, p s = .error e t

/-- A sequence refuses what its first step refuses. -/
theorem Refuses.bind {p : Rule α} {f : α → Rule β} (first : Refuses p s) : Refuses (p >>= f) s := by
  obtain ⟨e, t, fails⟩ := first
  exact ⟨e, t, bind_error fails⟩

theorem Refuses.mark {f : Nat → Rule β} (next : ∀ start, Refuses (f start) s) :
    Refuses (Parser.mark >>= f) s :=
  next s.position

/-- Tokens behind which a statement or a part of it may end, but with which none begins. -/
def strayKinds : List TokenKind := [.kwElse, .comma, .semicolon, .closeBrace, .kwOf, .kwIn]

/-- No expression begins with layout either. -/
theorem refuses_primary (there : s.currentKind = some kind)
    (stray : kind ∈ strayKinds ++ layoutKinds) : Refuses (primary rules allowIn) s := by
  unfold primary
  refine .mark fun start => ?_
  unfold currentKind? Refuses
  rw [observe_bind, there]
  simp only [strayKinds, layoutKinds, List.cons_append, List.nil_append, List.mem_cons,
    List.not_mem_nil, or_false] at stray
  rcases stray with rfl | rfl | rfl | rfl | rfl | rfl | rfl | rfl | rfl | rfl <;>
    exact ⟨_, _, rfl⟩

/-- No expression begins with a stray token or with layout. All the layers of operators begin with
the same primary expression, so it is refused there. -/
theorem refuses_expression (there : s.currentKind = some kind)
    (stray : kind ∈ strayKinds ++ layoutKinds) : Refuses (expression rules allowIn) s := by
  have memberOrCall : Refuses (memberOrCall rules allowIn) s :=
    .mark fun _ => .bind (refuses_primary there stray)
  have comparative : Refuses (comparative rules allowIn) s := .mark fun _ => .bind memberOrCall
  have multiplicative : Refuses (multiplicative rules allowIn) s := .mark fun _ => .bind comparative
  have additive : Refuses (additive rules allowIn) s := .mark fun _ => .bind multiplicative
  have conditional : Refuses (conditional rules allowIn) s := .mark fun _ => .bind additive
  exact .mark fun _ => .bind conditional

/-- A stray token begins none of the statements, and then the rule for expressions refuses it. -/
theorem refuses_bareStatement (there : s.currentKind = some kind) (stray : kind ∈ strayKinds) :
    Refuses (bareStatement rules allowIn) s := by
  have plain : Refuses (expressionStatement rules allowIn) s :=
    .mark fun _ => .bind (refuses_expression there (List.mem_append_left _ stray))
  unfold bareStatement currentKind? Refuses
  rw [observe_bind, there]
  simp only [strayKinds, List.mem_cons, List.not_mem_nil, or_false] at stray
  rcases stray with rfl | rfl | rfl | rfl | rfl | rfl <;> exact plain

theorem refuses_statement (there : firstKind (s.rest.dropWhile Token.isSpace) = some kind)
    (stray : kind ∈ strayKinds) : Refuses (statement rules allowIn) s := by
  have bare : Refuses (bareStatement rules allowIn) (s.skipWhile Token.isSpace) :=
    refuses_bareStatement there stray
  exact bare.bind

end ScriptFront.Script
