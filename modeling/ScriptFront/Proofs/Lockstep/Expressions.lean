import ScriptFront.Proofs.Lockstep.Callables

namespace ScriptFront.Script.Lockstep

open ScriptFront.Parser

variable {sim : Lockstep} {lost : Prop} {r : Rules} (inner : sim.Inner r) (allowIn : Bool)
include inner

section Templates

/-- Two parts of a template that differ at most in the extents of their trees. A segment never goes
together with an expression, since they begin with different tokens. -/
inductive SamePart : TemplatePart → TemplatePart → Prop
  | segment {a b} : SameTree a b → SamePart (.segment a) (.segment b)
  | interpolation {a b} : SameTree a b → SamePart (.interpolation a) (.interpolation b)

omit inner in
/-- The trees of one sort among the parts. -/
theorem filterMap_same {view : TemplatePart → Option Tree}
    (alike : ∀ {x y}, SamePart x y → SameMaybe (view x) (view y)) {parts parts' : List TemplatePart}
    (same : List.Forall₂ SamePart parts parts') :
    SameTrees (parts.filterMap view) (parts'.filterMap view) := by
  induction same with
  | nil => rfl
  | @cons x y _ _ first _ ih =>
    have maybe : eraseMaybe (view x) = eraseMaybe (view y) := alike first
    rw [List.filterMap_cons, List.filterMap_cons]
    cases atX : view x <;> cases atY : view y <;> rw [atX, atY] at maybe
    · exact ih
    · cases maybe
    · cases maybe
    · rw [SameTrees, eraseAll_cons, eraseAll_cons, Option.some.inj maybe, ih]

omit inner in
theorem SamePart.segment? {x y : TemplatePart} (same : SamePart x y) :
    SameMaybe x.segment? y.segment? := by
  cases same with
  | segment alike => exact alike.maybe
  | interpolation => rfl

omit inner in
theorem SamePart.interpolation? {x y : TemplatePart} (same : SamePart x y) :
    SameMaybe x.interpolation? y.interpolation? := by
  cases same with
  | segment => rfl
  | interpolation alike => exact alike.maybe

theorem templatePart_within : sim.Within lost sim.near sim.near SamePart
    (templatePart r) (templatePart r) := by
  refine .mark fun _ _ => .consumeIf (by decide) (fun _ _ alike => ?_) (.acceptIte (by decide) ?_ ?_)
  · refine (at?_within (by decide)).bind fun _ _ tail => ?_
    refine .makeNode (by rw [alike.text, tail]) fun _ _ segment => ?_
    exact pure_within (.segment segment)
  · refine trim_near_within.bind fun _ _ _ => (inner.expression _).bind fun _ _ expression => ?_
    refine trim_near_within.bind fun _ _ _ => .expect (by decide) nofun fun _ _ _ _ => ?_
    exact pure_within (.interpolation expression)
  · exact complain_within nofun

theorem templateLiteral_within : sim.Within lost sim.near sim.near SameTree
    (templateLiteral r) (templateLiteral r) := by
  have parts : sim.Within (¬ sim.strict) sim.near sim.near (List.Forall₂ SamePart)
      (items (·.is .backQuote) (templatePart r) (pure true))
      (items (·.is .backQuote) (templatePart r) (pure true)) :=
    items_within inner.ends.templateParts
      (stops_inside (fun near _ => near) fun near => sim.is_eq near (by decide))
      ((templatePart_within inner).from And.left) (pure_within rfl) (stays_pure true)
  refine .mark fun _ _ => .expect (by decide) nofun fun _ _ _ _ => ?_
  refine parts.caught (fun _ _ same => ?_) fun _ => starves_expect nofun
  refine .expect (by decide) nofun fun _ _ _ _ => makeNode_within ?_
  have quasis := filterMap_same SamePart.segment? same
  have expressions := filterMap_same SamePart.interpolation? same
  simp [Construct.erase, quasis, expressions]

end Templates

section Brackets

theorem spreadOrExpression_within : sim.Within lost sim.near sim.near SameTree
    (spreadOrExpression r allowIn) (spreadOrExpression r allowIn) := by
  refine .at? (by decide) ?_ (inner.expression _)
  refine .mark fun _ _ => .eat (by decide) fun _ _ _ => ?_
  refine (inner.expression _).bind fun _ _ argument => ?_
  exact makeNode_within (by simp [Construct.erase, argument])

theorem arrayExpression_within : sim.Within lost (sim.At .openSquare) sim.near SameTree
    (arrayExpression r) (arrayExpression r) := by
  refine .mark fun _ _ => .eat (by decide) fun _ _ _ => ?_
  refine .listed (inner.ends.arguments _) (by decide) (spreadOrExpression_within inner true)
    (fun _ => starves_expect nofun) fun _ _ elements => ?_
  refine .expect (by decide) nofun fun _ _ _ _ => ?_
  exact makeNode_within (by simp [Construct.erase, elements])

theorem objectMember_within : sim.Within lost sim.near sim.near SameTree
    (objectMember r) (objectMember r) := by
  refine .mark fun _ _ => .acceptIte (by decide) ?_ ?_
  · refine trim_near_within.bind fun _ _ _ => (inner.expression _).bind fun _ _ argument => ?_
    exact makeNode_within (by simp [Construct.erase, argument])
  refine (propertyKey_within inner true).bind fun ⟨key, computed⟩ ⟨key', _⟩ ⟨alike, same⟩ => ?_
  cases same
  refine trim_near_within.bind fun _ _ _ => .acceptIte (by decide) ?_ (.acceptIte (by decide) ?_ ?_)
  · refine trim_near_within.bind fun _ _ _ => (inner.expression _).bind fun _ _ value => ?_
    exact makeNode_within (by simp [Construct.erase, alike, value])
  · refine (parametersAndBody_within inner true).bind fun _ _ ⟨params, body⟩ => ?_
    exact makeNode_within (by simp [Construct.erase, alike, params, body])
  · rw [alike.isIdentifier_eq]
    exact .ite (complain_within nofun) (makeNode_within (by simp [Construct.erase, alike]))

theorem objectExpression_within : sim.Within lost (sim.At .openBrace) sim.near SameTree
    (objectExpression r) (objectExpression r) := by
  refine .mark fun _ _ => .eat (by decide) fun _ _ _ => ?_
  refine .listed inner.ends.objectMembers (by decide) (objectMember_within inner)
    (fun _ => .trim (starves_expect nofun)) fun _ _ properties => ?_
  refine trim_near_within.bind fun _ _ _ => .expect (by decide) nofun fun _ _ _ _ => ?_
  exact makeNode_within (by simp [Construct.erase, properties])

theorem group_within : sim.Within lost (sim.At .openParen) sim.near SameTree
    (group r) (group r) := by
  refine .mark fun _ _ => .eat (by decide) fun _ _ _ => ?_
  refine (inner.expression _).bind fun _ _ first => trim_near_within.bind fun _ _ _ => ?_
  refine .acceptIte (by decide) (pure_within first) ?_
  refine .expect (by decide) nofun fun _ _ _ _ => trim_near_within.bind fun _ _ _ => ?_
  refine .listed (inner.ends.sequence _) (by decide) (inner.expression _)
    (fun _ => starves_expect nofun) fun _ _ others => ?_
  refine .expect (by decide) nofun fun _ _ _ _ => ?_
  exact makeNode_within (by simp [Construct.erase, first, others])

end Brackets

section Operands

omit inner in
/-- The word `break` or `continue`, and the label behind it. -/
theorem jumpLabel_within {kind : TokenKind} (free : kind ∉ rawKinds) :
    sim.Within lost (sim.At kind) sim.near SameMaybe jumpLabel jumpLabel := by
  refine .eat free fun _ _ _ => .atAny? (by decide) (.from ?_ And.left) (pure_within rfl)
  exact (anyName_within false).bind fun _ _ label => pure_within label.maybe

omit inner in
theorem nameOrUpdate_within {start start' : Nat} : sim.Within lost sim.near sim.near SameTree
    (nameOrUpdate start) (nameOrUpdate start') := by
  refine (anyName_within false).bind fun _ _ argument => trim_near_within.bind fun _ _ _ => ?_
  refine .atAny? (by decide) (consume_within.bind fun _ _ operator => ?_) (pure_within argument)
  exact makeNode_within (by simp [Construct.erase, operator.kind, argument])

omit inner in
theorem leadingUpdate_within {kind : TokenKind} (free : kind ∉ rawKinds) {start start' : Nat} :
    sim.Within lost (sim.At kind) sim.near SameTree (leadingUpdate start)
      (leadingUpdate start') := by
  refine .eat free fun _ _ operator => (anyName_within false).bind fun _ _ argument => ?_
  exact makeNode_within (by simp [Construct.erase, operator.kind, argument])

theorem unaryExpression_within {kind : TokenKind} (free : kind ∉ rawKinds) {start start' : Nat} :
    sim.Within lost (sim.At kind) sim.near SameTree (unaryExpression r allowIn start)
      (unaryExpression r allowIn start') := by
  refine .eat free fun _ _ operator => (inner.expression _).bind fun _ _ argument => ?_
  exact makeNode_within (by simp [Construct.erase, operator.kind, argument])

theorem asyncExpression_within {start start' : Nat} :
    sim.Within lost (sim.At .kwAsync) sim.near SameTree (asyncExpression r allowIn start)
      (asyncExpression r allowIn start') := by
  have arrow {s s' : State} (near : sim.near s s') :
      (s.is .identifier && followedBy .arrow s) = (s'.is .identifier && followedBy .arrow s') := by
    rw [← sim.is_eq near (by decide)]
    cases there : s.is .identifier with
    | false => rfl
    | true =>
      have here : sim.At .identifier s s' := ⟨near, beq_iff_eq.mp there⟩
      rw [sim.followedBy_eq near here.more (by decide)]
  refine .eat (by decide) fun _ _ _ => .at? (by decide) (.from ?_ And.left) ?_
  · exact arrowFunction_within inner allowIn true
  refine .test arrow (.from ?_ And.left) ?_
  · exact singleParamArrow_within inner allowIn true
  refine .at? (by decide) ?_ (complain_within nofun)
  exact functionExpression_within inner allowIn true

/-- A word that takes the whole expression behind it. -/
theorem behindWord_within {kind : TokenKind} (free : kind ∉ rawKinds) {c : Tree → Construct}
    {start start' : Nat} (alike : ∀ {a b}, SameTree a b → (c a).erase = (c b).erase) :
    sim.Within lost (sim.At kind) sim.near SameTree
      (do
        let _ ← eat
        let argument ← r.expression allowIn
        makeNode start (c argument) : Rule Tree)
      (do
        let _ ← eat
        let argument ← r.expression allowIn
        makeNode start' (c argument)) :=
  .eat free fun _ _ _ => (inner.expression _).bind fun _ _ same => makeNode_within (alike same)

/-- Both sides see the same first kind and follow the same rule, behind which they are in step by
the lemma about it. A stray token is refused by both. -/
theorem primary_within : sim.Within lost sim.near sim.near SameTree
    (primary r allowIn) (primary r allowIn) := by
  refine .mark fun _ _ => .byKind (forall_blank rfl rfl rfl rfl rfl) fun kind => ?_
  split
  · exact (asyncExpression_within inner allowIn).seen
  · exact (functionExpression_within inner allowIn false).seen
  · exact (classExpression_within inner allowIn).seen
  · exact inner.lineComment.seen
  · exact stringLiteral_within.from And.left
  · exact (templateLiteral_within inner).from And.left
  · exact (behindWord_within inner allowIn (by decide) fun same => by
      simp [Construct.erase, same]).seen
  · exact (behindWord_within inner allowIn (by decide) fun same => by
      simp [Construct.erase, same]).seen
  · exact (objectExpression_within inner).seen
  · exact (arrayExpression_within inner).seen
  · refine .seen (.test (fun here => sim.arrowFollows_eq here.1 ?_) (.from ?_ (·.1.1)) ?_)
    · exact beq_iff_eq.mpr here.2
    · exact arrowFunction_within inner allowIn false
    · exact group_within inner
  · exact inner.regExpLiteral.seen
  · exact numericLiteral_within.from And.left
  · refine .seen ((jumpLabel_within (by decide)).bind fun _ _ label => ?_)
    exact makeNode_within (by simp [Construct.erase, label])
  · refine .seen ((jumpLabel_within (by decide)).bind fun _ _ label => ?_)
    exact makeNode_within (by simp [Construct.erase, label])
  · exact nameOrUpdate_within.from And.left
  · refine .seen (.test (fun here => sim.followedBy_eq here.1 here.more (by decide)) ?_ ?_)
    · exact (singleParamArrow_within inner allowIn false).from (·.1.1)
    · exact nameOrUpdate_within.from And.left
  · exact (unaryExpression_within inner allowIn (by decide)).seen
  · exact (unaryExpression_within inner allowIn (by decide)).seen
  · exact (unaryExpression_within inner allowIn (by decide)).seen
  · exact (unaryExpression_within inner allowIn (by decide)).seen
  · exact (unaryExpression_within inner allowIn (by decide)).seen
  · exact (leadingUpdate_within (by decide)).seen
  · exact (leadingUpdate_within (by decide)).seen
  · exact complain_within nofun

end Operands

section Suffixes

variable {object object' : Tree} (same : SameTree object object')
include same

omit inner in
theorem namedMember_within {start start' : Nat} (optional : Bool) :
    sim.Within lost sim.near sim.near SameTree (namedMember start object optional)
      (namedMember start' object' optional) :=
  (anyName_within true).bind fun _ _ member =>
    makeNode_within (by simp [Construct.erase, same, member])

theorem computedMember_within {start start' : Nat} (optional : Bool) :
    sim.Within lost (sim.At .openSquare) sim.near SameTree (computedMember r start object optional)
      (computedMember r start' object' optional) := by
  refine .eat (by decide) fun _ _ _ => (inner.expression _).bind fun _ _ member => ?_
  refine trim_near_within.bind fun _ _ _ => .expect (by decide) nofun fun _ _ _ _ => ?_
  exact makeNode_within (by simp [Construct.erase, same, member])

theorem call_within {start start' : Nat} (optional : Bool) :
    sim.Within lost (sim.At .openParen) sim.near SameTree (call r start object optional)
      (call r start' object' optional) := by
  refine .eat (by decide) fun _ _ _ => ?_
  refine .listed (inner.ends.arguments _) (by decide) (spreadOrExpression_within inner true)
    (fun _ => starves_expect nofun) fun _ _ arguments => ?_
  refine .expect (by decide) nofun fun _ _ _ _ => ?_
  exact makeNode_within (by simp [Construct.erase, same, arguments])

theorem suffix?_within {start start' : Nat} : sim.Within lost sim.near sim.near SameMaybe
    (suffix? r start object) (suffix? r start' object') := by
  refine .byKind (forall_blank rfl rfl rfl rfl rfl) fun kind => ?_
  split
  · refine .seen (.eat (by decide) fun _ _ _ => ?_)
    exact (namedMember_within same false).map SameTree.maybe
  · exact ((computedMember_within inner same false).map SameTree.maybe).seen
  · exact ((call_within inner same false).map SameTree.maybe).seen
  · refine .seen (.eat (by decide) fun _ _ _ => ?_)
    refine .byKind (forall_blank rfl rfl rfl rfl rfl) fun kind => ?_
    split
    · exact ((computedMember_within inner same true).map SameTree.maybe).seen
    · exact ((call_within inner same true).map SameTree.maybe).seen
    · exact ((namedMember_within same true).map SameTree.maybe).from And.left
  · refine .from ((templateLiteral_within inner).bind fun _ _ quasi => ?_) And.left
    exact (makeNode_within (by simp [Construct.erase, same, quasi])).map SameTree.maybe
  · exact .from (pure_within rfl) And.left

omit same

/-- One budget on both sides is enough for what stands behind an operand. -/
theorem suffixesWithin_within {start start' : Nat} (budget : Nat) {object object' : Tree}
    (same : SameTree object object') : sim.Within lost sim.near sim.near SameTree
      (suffixesWithin r start budget object) (suffixesWithin r start' budget object') := by
  induction budget generalizing object object' with
  | zero => exact pure_within same
  | succ budget ih =>
    refine (suffix?_within inner same).bind fun found found' alike => ?_
    cases found with
    | none =>
      cases found' with
      | none => exact pure_within same
      | some longer' => cases alike
    | some longer =>
      cases found' with
      | none => cases alike
      | some longer' => exact trim_near_within.bind fun _ _ _ => ih (Option.some.inj alike)

/-- The budgets of the two sides may differ, as the second list of tokens may be longer. Neither is
used up, so both can be taken to be the same. -/
theorem memberOrCall_within : sim.Within lost sim.near sim.near SameTree
    (memberOrCall r allowIn) (memberOrCall r allowIn) := by
  refine .mark fun start start' => (primary_within inner allowIn).bind fun first first' same => ?_
  refine trim_near_within.bind fun _ _ _ s s' near => ?_
  have ends := inner.ends.suffixes
  rw [observe_bind, observe_bind, ← ends start first s _ (Nat.le_max_left ..),
    ← ends start' first' s' _ (Nat.le_max_right ..)]
  exact suffixesWithin_within inner (max s.rest.length s'.rest.length) same s s' near

end Suffixes

section Operators

/-- Both sides see the same operator or none, since no operator stands between statements. -/
theorem binary_within (layer : OperatorLayer) {operand : Rule Tree}
    (each : sim.Within False sim.near sim.near SameTree operand operand) :
    sim.Within lost sim.near sim.near SameTree (binary r allowIn layer operand)
      (binary r allowIn layer operand) := by
  have known : ∀ kind ∈ layer.operators, kind ∉ gapKinds := by cases layer <;> decide
  refine .mark fun _ _ => each.bind fun _ _ left => trim_near_within.bind fun _ _ _ => ?_
  refine .test (fun near => sim.view_eq near (fun kind => kind.any fun kind =>
    layer.operators.contains kind && (kind ≠ .kwIn || allowIn)) fun kind blank => ?_) ?_
    (pure_within left)
  · have other : kind ∉ layer.operators := fun listed =>
      not_blank_of_not_gap (known kind listed) blank
    simp [other]
  · refine .bind (eat_within.from fun ⟨near, there⟩ => ?_) fun _ _ operator => ?_
    · obtain ⟨kind, atKind, joins⟩ := Option.any_eq_true .. |>.mp there
      have listed := List.contains_iff_mem.mp (Bool.and_eq_true_iff.mp joins).1
      exact ⟨near, kind, not_raw_of_not_gap (known kind listed), atKind⟩
    · refine (inner.expression _).bind fun _ _ right => ?_
      exact makeNode_within (by simp [Construct.erase, operator.kind, left, right])

theorem additive_within : sim.Within lost sim.near sim.near SameTree
    (additive r allowIn) (additive r allowIn) :=
  binary_within inner allowIn _ (binary_within inner allowIn _
    (binary_within inner allowIn _ (memberOrCall_within inner allowIn)))

theorem conditional_within : sim.Within lost sim.near sim.near SameTree
    (conditional r allowIn) (conditional r allowIn) := by
  refine .mark fun _ _ => (additive_within inner allowIn).bind fun _ _ test => ?_
  refine trim_near_within.bind fun _ _ _ => .acceptIte (by decide) ?_ (pure_within test)
  refine trim_near_within.bind fun _ _ _ => (inner.expression _).bind fun _ _ consequent => ?_
  refine trim_near_within.bind fun _ _ _ => .expect (by decide) nofun fun _ _ _ _ => ?_
  refine trim_near_within.bind fun _ _ _ => (inner.expression _).bind fun _ _ alternate => ?_
  exact makeNode_within (by simp [Construct.erase, test, consequent, alternate])

theorem expression_within : sim.Within lost sim.near sim.near SameTree
    (expression r allowIn) (expression r allowIn) := by
  refine .mark fun _ _ => (conditional_within inner allowIn).bind fun _ _ target => ?_
  refine trim_near_within.bind fun _ _ _ => .atAny? (by decide) ?_ (pure_within target)
  refine eat_within.bind fun _ _ operator => (inner.expression _).bind fun _ _ value => ?_
  refine trim_near_within.bind fun _ _ _ => ?_
  exact makeNode_within (by simp [Construct.erase, operator.kind, target, value])

end Operators

end ScriptFront.Script.Lockstep
