import ScriptFront.Proofs.Arrows
import ScriptFront.Proofs.Composition.Lexing
import ScriptFront.Proofs.Delimiters
import ScriptFront.Proofs.Refusals
import ScriptFront.Proofs.SourceType

namespace ScriptFront.Script

open ScriptFront.Parser

section Arrows

/-- Tokens in which every delimiter is closed do not close the parentheses from before. -/
theorem Delimited.arrowBehind_append {region : Region} {word : List TokenKind}
    (delimited : Delimited region word) {ts : List (Token TokenKind)}
    (kinds : ts.map (·.kind) = word) (rest : List (Token TokenKind)) (depth : Nat) :
    arrowBehind (depth + 1) (ts ++ rest) = arrowBehind (depth + 1) rest := by
  induction delimited using Delimited.byGroups generalizing ts rest depth with
  | nil =>
    obtain rfl := List.map_eq_nil_iff.mp kinds
    rfl
  | plain free _ ih =>
    obtain ⟨token, others, rfl, rfl, same⟩ := List.map_eq_cons_iff.mp kinds
    rw [List.cons_append, arrowBehind_cons, ih same]
    · exact fun opens => free (by simp [opens, strictKinds])
    · exact fun closes => free (by simp [closes, strictKinds])
  | text _ ih =>
    obtain ⟨token, others, rfl, ofKind, same⟩ := List.map_eq_cons_iff.mp kinds
    rw [List.cons_append, arrowBehind_cons (by simp [ofKind]) (by simp [ofKind]), ih same]
  | group o _ _ inInner inRest =>
    obtain ⟨opener, inside, rfl, ofOpener, sameInside⟩ := List.map_eq_cons_iff.mp kinds
    obtain ⟨inner, behind, rfl, sameInner, sameBehind⟩ := List.map_eq_append_iff.mp sameInside
    obtain ⟨closer, others, rfl, ofCloser, same⟩ := List.map_eq_cons_iff.mp sameBehind
    rw [List.cons_append, List.append_assoc, List.cons_append]
    cases o with
    | paren =>
      rw [arrowBehind_openParen ofOpener, inInner sameInner, arrowBehind_closeParen ofCloser,
        inRest same]
    | _ =>
      rw [arrowBehind_cons (by rw [ofOpener]; decide) (by rw [ofOpener]; decide), inInner sameInner,
        arrowBehind_cons (by rw [ofCloser]; decide) (by rw [ofCloser]; decide), inRest same]

end Arrows

section Statements

/-- The statements of a program are those that are found between its separators. -/
theorem produce_eq_ok_iff {tokens : List (Token TokenKind)} {options : Options} {body : List Tree}
    {found : Properties} : produce tokens options = .ok ⟨body, found⟩ ↔
      ∃ calls t, grammar.Calls ((State.ofTokens tokens options).skipWhile isSeparator) calls
        (.ok body t) ∧ t.properties = found := by
  obtain ⟨calls, answer, loop, -, result⟩ := produce_calls (State.ofTokens tokens options)
  unfold produce
  rw [result]
  constructor
  · intro run
    cases answer with
    | error e t => cases run
    | ok body t =>
      cases run
      exact ⟨calls, t, loop, rfl⟩
  · rintro ⟨_, t, run, rfl⟩
    cases run.unique loop
    rfl

/-- No program begins with the word `else`. -/
theorem firstKind_ne_else {tokens : List (Token TokenKind)} {options : Options}
    {program : Program Tree Properties} (run : produce tokens options = .ok program) :
    firstKind (tokens.dropWhile isSeparator) ≠ some .kwElse := by
  intro first
  obtain ⟨body, found⟩ := program
  obtain ⟨calls, t, loop, -⟩ := produce_eq_ok_iff.mp run
  generalize ahead : (State.ofTokens tokens options).skipWhile isSeparator = s at loop
  have rest : s.rest = tokens.dropWhile isSeparator := ahead ▸ rfl
  cases loop with
  | done ended =>
    rw [← rest, ended] at first
    cases first
  | next _ step =>
    have there : firstKind (s.rest.dropWhile Token.isSpace) = some .kwElse := by
      rw [rest, dropWhile_isSeparator_isSpace, first]
    obtain ⟨e, u, fails⟩ : Refuses parseStatement s := by
      change Refuses (Rules.whole.statement true) s
      rw [Rules.whole_statement]
      exact refuses_statement there (by decide)
    exact absurd (step.symm.trans fails) nofun

variable {ext tokens : List (Token TokenKind)} {marks : Bool}

/-- The statements of some tokens are found in the copy of these as well, and the parse of
the copy goes on behind them with what stands there. -/
theorem calls_copied (tail : Tail ext) {s s' t : State} {calls : List State} {nodes : List Tree}
    (run : grammar.Calls s calls (.ok nodes t))
    (copy : Copy ext tokens marks [ext.dropWhile isSeparator] s s') :
    ∃ nodes' t', SameTrees nodes nodes' ∧
      Copy ext tokens marks [ext.dropWhile isSeparator] t t' ∧
      ∀ later more u, grammar.Calls t' later (.ok more u) →
        ∃ calls', grammar.Calls s' calls' (.ok (nodes' ++ more) u) := by
  generalize found : EStateM.Result.ok nodes t = answer at run
  induction run generalizing nodes t s' with
  | done ended =>
    cases found
    exact ⟨[], s', rfl, copy, fun later more u others => ⟨later, others⟩⟩
  | @next s node t u calls nodes v more step skip rest ih =>
    cases found
    have near : (copying tail tokens marks).near s s' :=
      ⟨copy.place.of_more more, copy.subset, copy.marked⟩
    have agree := Lockstep.Within.agree (Lockstep.parseStatement_within copying_leaves) near
    rw [show parseStatement s = .ok node t from step] at agree
    cases step' : parseStatement s' with
    | error e t' =>
      rw [step'] at agree
      exact agree.elim
    | ok node' t' =>
      rw [step'] at agree
      obtain ⟨same, far⟩ := agree
      cases skip
      have behind : Copy ext tokens marks [ext.dropWhile isSeparator] (t.skipWhile isSeparator)
          (t'.skipWhile isSeparator) :=
        Copy.skip isSeparator_eq far (by simp)
          (by simp [dropWhile_isSpace_isSeparator, List.dropWhile_idempotent])
      obtain ⟨nodes', v', others, last, goesOn⟩ := ih behind rfl
      refine ⟨node' :: nodes', v', ?_, last, fun later behind w after => ?_⟩
      · rw [SameTrees, eraseAll_cons, eraseAll_cons, same, others]
      · obtain ⟨calls', found⟩ := goesOn later behind w after
        exact ⟨_, .next (copy.more_of_more more) step' rfl found⟩
  | _ => cases found

end Statements

section Joined

variable {ts ts₁ ts₂ : List (Token TokenKind)} {options : Options}

/-- A chosen module stays one. -/
theorem produce_keeps_esm {program : Program Tree Properties}
    (run : produce ts options = .ok program) (chosen : options.properties.sourceType = .esm) :
    program.properties.sourceType = .esm := by
  obtain ⟨marks, -, marked⟩ := produce_derived run
  rw [marked, Stretch.properties_eq_esm_iff]
  exact Or.inr chosen

/-- What stands behind the first one of two programs is no part of it. -/
theorem tail_of_program {gap semicolon : Token TokenKind} {others : List (Token TokenKind)}
    {program : Program Tree Properties} (ofGap : gap.piece = newLine)
    (ofSemicolon : semicolon.piece = Script.semicolon)
    (alike : others.map Token.piece = ts.map Token.piece)
    (quiet : ∀ depth, arrowBehind (depth + 1) ts = false) (run : produce ts options = .ok program) :
    Tail (gap :: semicolon :: others) := by
  have copied := copied_nil alike
  refine .after (congrArg (·.kind) ofGap) (congrArg Piece.isSpace ofGap)
    (congrArg (·.kind) ofSemicolon) (congrArg Piece.isSpace ofSemicolon) (fun depth => ?_) ?_
  · rw [← copied.arrowBehind_eq (fun _ => rfl) (by simp [firstKind]), quiet]
  · intro first
    have same : (firstKind (ts.dropWhile isSeparator) == some .kwElse) =
        (firstKind (others.dropWhile isSeparator) == some .kwElse) :=
      (copied.skip isSeparator_eq).firstKind_eq (by simp [firstKind])
    rw [first, beq_self_eq_true] at same
    exact firstKind_ne_else run (beq_iff_eq.mp same)

/-- The statements of two lists of tokens are those of the whole list that has them one behind
the other, with a line break and a semicolon between them. -/
theorem produce_append {program₁ program₂ : Program Tree Properties}
    (alike : ts.map Token.piece =
      ts₁.map Token.piece ++ newLine :: semicolon :: ts₂.map Token.piece)
    (quiet : ∀ depth, arrowBehind (depth + 1) ts₂ = false)
    (run₁ : produce ts₁ options = .ok program₁) (run₂ : produce ts₂ options = .ok program₂) :
    ∃ program, produce ts options = .ok program ∧
      SameTrees program.body (program₁.body ++ program₂.body) ∧
      (program.properties.sourceType = .esm ↔ program₁.properties.sourceType = .esm ∨
        program₂.properties.sourceType = .esm) := by
  obtain ⟨front, behind, rfl, same₁, beyond⟩ := List.map_eq_append_iff.mp alike
  obtain ⟨gap, rest, rfl, ofGap, beyond⟩ := List.map_eq_cons_iff.mp beyond
  obtain ⟨semi, back, rfl, ofSemi, same₂⟩ := List.map_eq_cons_iff.mp beyond
  obtain ⟨marks₁, -, marked₁⟩ := produce_derived run₁
  have tail := tail_of_program ofGap ofSemi same₂ quiet run₂
  obtain ⟨body₁, found₁⟩ := program₁
  obtain ⟨body₂, found₂⟩ := program₂
  obtain ⟨calls₁, t₁, loop₁, rfl⟩ := produce_eq_ok_iff.mp run₁
  obtain ⟨calls₂, t₂, loop₂, rfl⟩ := produce_eq_ok_iff.mp run₂
  have start₁ : Copy (gap :: semi :: back) ts₁ false [(gap :: semi :: back).dropWhile isSeparator]
      ((State.ofTokens ts₁ options).skipWhile isSeparator)
      ((State.ofTokens (front ++ gap :: semi :: back) options).skipWhile isSeparator) :=
    ⟨(copied_append same₁).skip isSeparator_eq, (List.dropWhile_suffix _).subset, rfl⟩
  -- Where the first list ends, the parse of the whole one stands at the second list, behind
  -- the separators; from there on it goes over a copy that nothing follows.
  obtain ⟨nodes₁, u₁, trees₁, copy₁, goesOn₁⟩ := calls_copied tail loop₁ start₁
  have rest₁ : u₁.rest = back.dropWhile isSeparator := by
    rw [← copy₁.eq_of_nil (calls_exhaust loop₁ rfl)]
    exact dropWhile_joint back (congrArg Piece.isSpace ofGap) (congrArg (·.kind) ofSemi)
  have start₂ : Copy [] ts₂ marks₁ [[]] ((State.ofTokens ts₂ options).skipWhile isSeparator) u₁ :=
    ⟨rest₁ ▸ (copied_nil same₂).skip isSeparator_eq, (List.dropWhile_suffix _).subset,
      copy₁.marked.trans marked₁⟩
  obtain ⟨nodes₂, u₂, trees₂, copy₂, goesOn₂⟩ := calls_copied .none loop₂ start₂
  have ended : u₂.rest = [] := (copy₂.eq_of_nil (calls_exhaust loop₂ rfl)).symm
  obtain ⟨later, foundLater⟩ := goesOn₂ [] [] u₂ (.done ended)
  obtain ⟨calls, found⟩ := goesOn₁ later _ u₂ foundLater
  rw [List.append_nil] at found
  refine ⟨⟨nodes₁ ++ nodes₂, u₂.properties⟩, produce_eq_ok_iff.mpr ⟨calls, u₂, found, rfl⟩, ?_, ?_⟩
  · rw [SameTrees, eraseAll_append, eraseAll_append, trees₁, trees₂]
  · have kept : options.properties.sourceType = .esm → t₂.properties.sourceType = .esm :=
      produce_keeps_esm run₂
    dsimp only at marked₁ ⊢
    rw [copy₂.marked, marked₁, Stretch.properties_eq_esm_iff, Stretch.properties_eq_esm_iff,
      or_assoc, or_iff_right_of_imp kept]

end Joined

section Sources

/-- Two sources without regular expressions that are accepted are accepted as well when the
second one is written behind the first one, with a new line and a semicolon between them. The
statements of the whole are those of the first one and then those of the second one, and it is
a module exactly when one of them is. -/
theorem parseWith_append {first second : String} {options : Options} {parsed₁ parsed₂ : Parsed}
    (run₁ : parseWith first options = .ok parsed₁) (run₂ : parseWith second options = .ok parsed₂)
    (plain₁ : ∀ entry ∈ preorder 0 parsed₁.tree, entry.2.kind.isRegExp = false)
    (plain₂ : ∀ entry ∈ preorder 0 parsed₂.tree, entry.2.kind.isRegExp = false) :
    ∃ parsed body₁ body₂, parseWith (first ++ "\n;" ++ second) options = .ok parsed ∧
      parsed₁.tree.kind = .program body₁ ∧ parsed₂.tree.kind = .program body₂ ∧
      (erase parsed.tree).kind = .program (eraseAll body₁ ++ eraseAll body₂) ∧
      (parsed.properties.sourceType = .esm ↔ parsed₁.properties.sourceType = .esm ∨
        parsed₂.properties.sourceType = .esm) := by
  obtain ⟨ts₁, program₁, lexing₁, parsing₁, rfl⟩ := parseWith_eq_ok_iff.mp run₁
  obtain ⟨ts₂, program₂, lexing₂, parsing₂, rfl⟩ := parseWith_eq_ok_iff.mp run₂
  obtain ⟨marks₁, derives₁, -⟩ := produce_derived parsing₁
  obtain ⟨marks₂, derives₂, -⟩ := produce_derived parsing₂
  have delimited₁ := delimited_of_derives lexing₁ derives₁ plain₁
  have delimited₂ := delimited_of_derives lexing₂ derives₂ plain₂
  have quiet (depth : Nat) : arrowBehind (depth + 1) ts₂ = false := by
    rw [← List.append_nil ts₂, delimited₂.arrowBehind_append rfl]
    rfl
  obtain ⟨ts, lexing, alike⟩ :=
    tokenize_append lexing₁ lexing₂ delimited₁ (not_unclosed_of_produce parsing₁)
  obtain ⟨program, parsing, trees, esm⟩ := produce_append alike quiet parsing₁ parsing₂
  have run := parseWith_eq_ok_iff.mpr ⟨ts, program, lexing, parsing, rfl⟩
  refine ⟨_, program₁.body, program₂.body, run, rfl, rfl, ?_, esm⟩
  rw [erase_eq, ← eraseAll_append, ← trees]
  rfl

theorem parseWith_append_comment : ∃ parsed₁ parsed₂ parsed body₁ body₂,
    parseWith "f(a) // b" {} = .ok parsed₁ ∧ parseWith "export default c" {} = .ok parsed₂ ∧
      parseWith ("f(a) // b" ++ "\n;" ++ "export default c") {} = .ok parsed ∧
      parsed₁.tree.kind = .program body₁ ∧ parsed₂.tree.kind = .program body₂ ∧
      (erase parsed.tree).kind = .program (eraseAll body₁ ++ eraseAll body₂) ∧
      (parsed.properties.sourceType = .esm ↔ parsed₁.properties.sourceType = .esm ∨
        parsed₂.properties.sourceType = .esm) := by
  obtain ⟨parsed₁, run₁, plain₁⟩ : ∃ parsed, parseWith "f(a) // b" {} = .ok parsed ∧
      ∀ entry ∈ preorder 0 parsed.tree, entry.2.kind.isRegExp = false :=
    parseWith_plain (by decide +kernel)
  obtain ⟨parsed₂, run₂, plain₂⟩ : ∃ parsed, parseWith "export default c" {} = .ok parsed ∧
      ∀ entry ∈ preorder 0 parsed.tree, entry.2.kind.isRegExp = false :=
    parseWith_plain (by decide +kernel)
  obtain ⟨parsed, body₁, body₂, joined⟩ := parseWith_append run₁ run₂ plain₁ plain₂
  exact ⟨parsed₁, parsed₂, parsed, body₁, body₂, run₁, run₂, joined⟩

end Sources

end ScriptFront.Script
