import ScriptFront.Eval.Evaluate
import ScriptFront.Proofs.Erase

namespace ScriptFront.Eval

open Script (Tree Construct erase eraseAll)

/-- The names that an evaluation can ask for: those that it comes to through scripts, statements of
one expression, and operands. It never looks into other constructs, which have no value. -/
inductive Mentions (name : String) : Tree → Prop
  | name {span} : Mentions name ⟨.identifier name, span⟩
  | program {body t span} : t ∈ body → Mentions name t → Mentions name ⟨.program body, span⟩
  | statement {t span} : Mentions name t → Mentions name ⟨.expressionStatement t, span⟩
  | left {layer operator left right span} : Mentions name left →
      Mentions name ⟨.binaryExpression layer operator left right, span⟩
  | right {layer operator left right span} : Mentions name right →
      Mentions name ⟨.binaryExpression layer operator left right, span⟩

variable {lookup lookup' : String → Except EvalError Value}

mutual

/-- A node asks only for the names that it mentions, so two environments that agree on them give the
same value. -/
theorem evaluateConstruct_congr (c : Construct) (span : Span)
    (agree : ∀ name, Mentions name ⟨c, span⟩ → lookup name = lookup' name) :
    evaluateConstruct lookup c = evaluateConstruct lookup' c := by
  cases c with
  | program body =>
    simp only [evaluateConstruct]
    exact evaluateAll_congr .undefined body fun t member name mentioned =>
      agree name (.program member mentioned)
  | expressionStatement inner =>
    simp only [evaluateConstruct]
    exact evaluate_congr inner fun name mentioned => agree name (.statement mentioned)
  | identifier symbol => exact agree symbol .name
  | binaryExpression layer operator left right =>
    have onLeft := evaluate_congr left fun name mentioned => agree name (.left mentioned)
    have onRight := evaluate_congr right fun name mentioned => agree name (.right mentioned)
    simp only [evaluateConstruct, onLeft, onRight]
  | _ => rfl

/-- The value of a tree depends on nothing but the values of the names that it mentions. -/
theorem evaluate_congr (t : Tree) (agree : ∀ name, Mentions name t → lookup name = lookup' name) :
    evaluate lookup t = evaluate lookup' t := by
  cases t with
  | mk kind span => exact evaluateConstruct_congr kind span agree

/-- The same for the statements of a body, of which the last value counts. -/
theorem evaluateAll_congr (last : Value) (ts : List Tree)
    (agree : ∀ t ∈ ts, ∀ name, Mentions name t → lookup name = lookup' name) :
    evaluateAll lookup last ts = evaluateAll lookup' last ts := by
  cases ts with
  | nil => rfl
  | cons t others =>
    obtain ⟨here, behind⟩ := List.forall_mem_cons.mp agree
    simp only [evaluateAll, evaluate_congr t here]
    split
    · rfl
    · exact evaluateAll_congr _ others behind

end

mutual

theorem evaluateConstruct_erase (c : Construct) :
    evaluateConstruct lookup c.erase = evaluateConstruct lookup c := by
  cases c with
  | program body => exact evaluateAll_erase .undefined body
  | expressionStatement inner => exact evaluate_erase inner
  | binaryExpression layer operator left right =>
    simp only [Construct.erase, evaluateConstruct, evaluate_erase left, evaluate_erase right]
  | _ => rfl

/-- Evaluation does not look at extents. -/
theorem evaluate_erase (t : Tree) : evaluate lookup (erase t) = evaluate lookup t := by
  cases t with
  | mk kind span => exact evaluateConstruct_erase kind

theorem evaluateAll_erase (last : Value) (ts : List Tree) :
    evaluateAll lookup last (eraseAll ts) = evaluateAll lookup last ts := by
  cases ts with
  | nil => rfl
  | cons t others =>
    simp only [Script.eraseAll_cons, evaluateAll, evaluate_erase t]
    split
    · rfl
    · exact evaluateAll_erase _ others

end

end ScriptFront.Eval
