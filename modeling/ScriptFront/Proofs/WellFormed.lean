import ScriptFront.Proofs.Derivation.Whole

namespace ScriptFront.Script

open ScriptFront.Parser

variable {base opened : List Opening} {s : Stretch} {trees : List Tree}

theorem Leaf.children_eq {region : Region} {tokens : List (Token TokenKind)} {c : Construct}
    (leaf : Leaf region tokens c) : c.children = [] := by
  cases leaf <;> rfl

theorem Leaf.wellFormed {region : Region} {tokens : List (Token TokenKind)} {c : Construct}
    (leaf : Leaf region tokens c) : c.WellFormed := by
  cases leaf <;> trivial

/-- What holds of the nodes without anything inside, each over its own tokens, and of all
other nodes that are well formed, holds everywhere in the trees that tokens derive. -/
theorem Derives.everywhere {P : Tree → Prop} {all : List (Token TokenKind)}
    (derives : Derives base opened s trees) (within : s.tokens <:+: all)
    (leaves : ∀ {region tokens kind span}, tokens <:+: all → Leaf region tokens kind →
      Extent tokens span → P ⟨kind, span⟩)
    (nodes : ∀ {kind span}, kind.WellFormed → kind.isLeaf = false → P ⟨kind, span⟩) :
    ∀ t ∈ trees, Everywhere P t := by
  have whole {kind : Construct} {span : Span} {trees : List Tree}
      (parts : ∀ t, t ∈ kind.children ↔ t ∈ trees) (wellFormed : kind.WellFormed)
      (composite : kind.isLeaf = false) (inside : ∀ t ∈ trees, Everywhere P t) :
      ∀ t ∈ [(⟨kind, span⟩ : Tree)], Everywhere P t := by
    rintro t member
    obtain rfl := List.mem_singleton.mp member
    refine .node (nodes wellFormed composite) fun child isChild => ?_
    exact inside child ((parts child).mp isChild)
  induction derives with
  | nil => exact List.forall_mem_nil _
  | token _ _ ih => exact ih ((List.prefix_append _ _).isInfix.trans within)
  | space _ _ ih => exact ih ((List.prefix_append _ _).isInfix.trans within)
  | append _ _ first second =>
    intro t member
    rcases List.mem_append.mp member with inFirst | inSecond
    · exact first ((List.prefix_append _ _).isInfix.trans within) t inFirst
    · exact second ((List.suffix_append _ _).isInfix.trans within) t inSecond
  | leaf _ leaf extent =>
    intro t member
    obtain rfl := List.mem_singleton.mp member
    refine .node (leaves within leaf extent) fun child isChild => ?_
    rw [leaf.children_eq] at isChild
    cases isChild
  | node _ parts wellFormed plain ih =>
    exact whole parts wellFormed (Bool.or_eq_false_iff.mp plain).1 (ih within)
  | @module _ _ _ kind _ _ parts wellFormed ofSort ih =>
    have composite : kind.isLeaf = false := by
      cases kind <;> first | rfl | cases ofSort
    exact whole parts wellFormed composite (ih within)
  | again _ isWhole isPart ih =>
    refine List.forall_mem_cons.mpr ⟨?_, ih within⟩
    cases ih within _ isWhole with
    | node _ inside => exact inside _ isPart

/-- Each node of a derived tree is well formed. The derivation has one step for each form of node,
with what that form asks for as its hypothesis. -/
theorem Derives.wellFormed (derives : Derives base opened s trees) :
    ∀ t ∈ trees, Everywhere (·.kind.WellFormed) t :=
  derives.everywhere (List.infix_refl _) (fun _ leaf _ => leaf.wellFormed)
    fun wellFormed _ => wellFormed

/-- A tree that some call of the parser hands out: a statement, an expression, or one of the
statements of a program. The tokens are arbitrary, and need not come from a lexer. -/
inductive Returned (s : State) (t : Tree) : Prop
  | statement {u} : parseStatement s = .ok t u → Returned s t
  | expression {u} : parseExpression s = .ok t u → Returned s t
  | program {program u} : grammar.produce s = .ok program u → t ∈ program.body → Returned s t

/-- Whatever the tokens are, every node of a tree that is handed out is well formed. -/
theorem returned_wellFormed {s : State} {t : Tree} (returned : Returned s t) :
    ∀ entry ∈ preorder 0 t, entry.2.kind.WellFormed := by
  have everywhere : Everywhere (·.kind.WellFormed) t := by
    cases returned with
    | statement run =>
      obtain ⟨step, derives, -⟩ := Makes.found (fun _ => parseStatement_makes) run
      exact derives.wellFormed t (List.mem_singleton_self t)
    | expression run =>
      obtain ⟨step, derives, -⟩ := Makes.found (fun _ => parseExpression_makes) run
      exact derives.wellFormed t (List.mem_singleton_self t)
    | program run isStatement =>
      obtain ⟨step, derives, -⟩ :=
        Makes.found (fun _ => statementList_makes) (statementList_of_produce run)
      exact derives.wellFormed t isStatement
  exact everywhere.preorder 0

/-- These tokens stand nowhere, and no lexer would make them. -/
theorem returned_wellFormed_misplaced : ∃ t,
    Returned (State.ofTokens [⟨⟨.doublePlus, none⟩, "+", default⟩,
      ⟨⟨.identifier, some .operator⟩, "a b", default⟩] {}) t ∧
      ∀ entry ∈ preorder 0 t, entry.2.kind.WellFormed := by
  generalize place : State.ofTokens _ _ = s
  have accepted : (match parseExpression s with | .ok .. => true | .error .. => false) = true := by
    subst place
    decide +kernel
  cases run : parseExpression s with
  | error e u =>
    rw [run] at accepted
    cases accepted
  | ok t u => exact ⟨t, .expression run, returned_wellFormed (.expression run)⟩

end ScriptFront.Script
