import ScriptFront.Proofs.Evaluation
import ScriptFront.Proofs.RoundTrip.Program
import ScriptFront.Proofs.Scopes

namespace ScriptFront.Eval

open Script (Expr Name Tree TokenKind bare erase)

section Written

variable {lookup : String → Except EvalError Value}

/-- A script of one expression has its value. -/
theorem evaluate_expression (t : Tree) :
    evaluate lookup (bare (.program [bare (.expressionStatement t)])) = evaluate lookup t := by
  simp only [bare, evaluate, evaluateConstruct, evaluateAll]
  cases evaluate lookup t with
  | error e => rfl
  | ok value => rfl

/-- A written expression is parsed to something that has the value of its tree. -/
theorem evaluate_text (e : Expr) (options : Script.Options) :
    ∃ parsed, Script.parseWith e.text options = .ok parsed ∧
      ∀ lookup, evaluate lookup parsed.tree = evaluate lookup e.tree := by
  obtain ⟨parsed, run, shape, -⟩ := e.standalone.parseWith options e.tokenize_text
  exact ⟨parsed, run, fun lookup => by rw [← evaluate_erase, shape, evaluate_expression]⟩

end Written

section Sums

variable {lookup : String → Except EvalError Value}

/-- Names with a plus between any two of them. Each plus takes all that follows as its
right operand. -/
def sum : List Name → Name → Expr
  | [], last => .name last
  | word :: words, last => .binary .additive ⟨.plus, by decide⟩ (.name word) (sum words last)

theorem text_sum (words : List Name) (last : Name) :
    (sum words last).text = " + ".intercalate (words.map (·.text) ++ [last.text]) := by
  induction words with
  | nil => simp [sum, Expr.text, Expr.items, Script.Item.text]
  | cons word words ih =>
    have plus : Script.spelling .plus = "+" := by decide
    have filled : (sum words last).items.map (·.text) ≠ [] := by
      cases words with
      | nil => simp [sum, Expr.items]
      | cons next words => simp [sum, Expr.items]
    have items : (sum (word :: words) last).items.map (·.text) =
        word.text :: "+" :: (sum words last).items.map (·.text) := by
      simp [sum, Expr.items, Expr.isAtom, Script.operand, Script.Item.text, plus]
    have rest : word.text :: (words.map (·.text) ++ [last.text]) =
        (word :: words).map (·.text) ++ [last.text] := rfl
    calc (sum (word :: words) last).text
        = word.text ++ " " ++ ("+" ++ " " ++ (sum words last).text) := by
          rw [Expr.text, items, String.intercalate_cons_cons,
            String.intercalate_cons_of_ne_nil filled]
          rfl
      _ = word.text ++ " + " ++ (sum words last).text := by simp [← String.toList_inj]
      _ = " + ".intercalate ((word :: words).map (·.text) ++ [last.text]) := by
          rw [ih, ← rest, String.intercalate_cons_of_ne_nil (by simp)]

/-- A text on the right is joined to the text of what has a real view. -/
theorem plus_string {v : Value} (real : v.isReal = true) (text : String) :
    binaryOperation .plus v (.string text) = .ok (.string (v.text ++ text)) := by
  cases v with
  | undefined => cases real
  | nan => cases real
  | number n => rfl
  | string s => rfl
  | boolean b => cases b <;> rfl

/-- Where the last of some values is a text, their sum is made of the texts of all. -/
theorem evaluate_sum {front : List (Name × Value)} {last : Name} {text : String}
    (reals : ∀ entry ∈ front, lookup entry.1.text = .ok entry.2 ∧ entry.2.isReal = true)
    (atEnd : lookup last.text = .ok (.string text)) :
    evaluate lookup (sum (front.map Prod.fst) last).tree =
      .ok (.string (String.join (front.map (·.2.text)) ++ text)) := by
  induction front with
  | nil =>
    rw [List.map_nil, List.map_nil, String.join_nil, String.empty_append]
    exact atEnd
  | cons entry front ih =>
    obtain ⟨⟨found, real⟩, others⟩ := List.forall_mem_cons.mp reals
    have first : evaluate lookup (Expr.name entry.1).tree = .ok entry.2 := found
    rw [List.map_cons, List.map_cons, String.join_cons, String.append_assoc, sum, Expr.tree]
    simp only [bare, evaluate, evaluateConstruct, first, ih others]
    exact plus_string real _

/-- The text of a sum that ends in a text is parsed, and its value joins the texts of all
values in order: no numbers or booleans in front of the text are added up. -/
theorem Scopes.evaluate_sum_text {scopes : Scopes} {i : Nat} {front : List (Name × Value)}
    {last : Name} {text : String}
    (reals : ∀ entry ∈ front, scopes.lookup i entry.1.text = .ok entry.2 ∧ entry.2.isReal = true)
    (atEnd : scopes.lookup i last.text = .ok (.string text)) (options : Script.Options) :
    ∃ parsed,
      Script.parseWith (" + ".intercalate ((front.map Prod.fst ++ [last]).map (·.text))) options =
        .ok parsed ∧
      scopes.evaluate i parsed.tree =
        .ok (.string (String.join ((front.map Prod.snd ++ [Value.string text]).map Value.text))) := by
  obtain ⟨parsed, run, same⟩ := evaluate_text (sum (front.map Prod.fst) last) options
  rw [text_sum] at run
  refine ⟨parsed, by rwa [List.map_append], ?_⟩
  rw [Scopes.evaluate, same, evaluate_sum reals atEnd]
  simp [Value.text, Function.comp_def]

/-- A number and a boolean are not added up in front of a text. -/
theorem Scopes.evaluate_sum_text_mixed :
    let scopes := (((new {}).define 0 "n" (.number 1.5)).define 0 "t" (.boolean true)).define 0 "s"
      (.string "!")
    scopes.lookup 0 "n" = .ok (.number 1.5) ∧ scopes.lookup 0 "t" = .ok (.boolean true) ∧
      scopes.lookup 0 "s" = .ok (.string "!") ∧
      ∃ parsed, Script.parseWith "n + t + s" {} = .ok parsed ∧
        scopes.evaluate 0 parsed.tree = .ok (.string "1.5true!") := by
  intro scopes
  have found (name : String) : scopes.find? 0 name =
      if "s" = name then some (.string "!") else if "t" = name then some (.boolean true)
      else if "n" = name then some (.number 1.5) else (new {}).own? 0 name := by
    rw [find?_outermost rfl, own?_define Nat.one_pos, own?_define Nat.one_pos,
      own?_define Nat.one_pos]
    simp
  have atN : scopes.lookup 0 "n" = .ok (.number 1.5) := by simp [lookup, found]
  have atT : scopes.lookup 0 "t" = .ok (.boolean true) := by simp [lookup, found]
  have atS : scopes.lookup 0 "s" = .ok (.string "!") := by simp [lookup, found]
  let n : Name := ⟨⟨'n', [], by decide, List.forall_mem_nil _⟩, by decide⟩
  let t : Name := ⟨⟨'t', [], by decide, List.forall_mem_nil _⟩, by decide⟩
  let s : Name := ⟨⟨'s', [], by decide, List.forall_mem_nil _⟩, by decide⟩
  have reals : ∀ entry ∈ [(n, Value.number 1.5), (t, .boolean true)],
      scopes.lookup 0 entry.1.text = .ok entry.2 ∧ entry.2.isReal = true :=
    List.forall_mem_cons.mpr ⟨⟨atN, rfl⟩, List.forall_mem_singleton.mpr ⟨atT, rfl⟩⟩
  have atEnd : scopes.lookup 0 s.text = .ok (.string "!") := atS
  obtain ⟨parsed, run, value⟩ := evaluate_sum_text reals atEnd {}
  have written : " + ".intercalate (([(n, Value.number 1.5), (t, .boolean true)].map Prod.fst ++
      [s]).map (·.text)) = "n + t + s" := by decide
  have joined : String.join (([(n, Value.number 1.5), (t, .boolean true)].map Prod.snd ++
      [Value.string "!"]).map Value.text) = "1.5true!" := by decide +kernel
  rw [written] at run
  rw [joined] at value
  exact ⟨atN, atT, atS, parsed, run, value⟩

end Sums

end ScriptFront.Eval
