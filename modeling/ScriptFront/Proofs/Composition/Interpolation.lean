import Mathlib.Data.List.Infix
import ScriptFront.Proofs.Composition.Lexing

namespace ScriptFront.Script

section Braces

/-- What a token adds to the number of open braces. -/
def brace : TokenKind → Int
  | .openBrace => 1
  | .closeBrace => -1
  | _ => 0

/-- How many more braces are opened than closed by tokens that are read outside all
templates, when the first of them is read in the given modes. -/
def Modes.braces (modes : Modes) : List TokenKind → Int
  | [] => 0
  | kind :: kinds => (if modes.stack = [] then brace kind else 0) + (modes.after kind).braces kinds

/-- The same modes within an interpolation of a template, of which `depth` braces are open. -/
def Modes.within (modes : Modes) (depth : Nat) : Modes where
  stack := modes.stack ++ [.interpolation depth, .template]
  comment := modes.comment

/-- An interpolation is read as code is read outside all templates. -/
theorem Modes.scan_within (modes : Modes) (depth : Nat) (cs : List Char) :
    (modes.within depth).scan cs = modes.scan cs := by
  obtain ⟨stack, comment⟩ := modes
  rcases stack with _ | ⟨_ | _, outer⟩ <;> rfl

/-- A token leads to the same modes within the interpolation. Of its braces only those count
that are outside the templates of the code in it. -/
theorem Modes.after_within (modes : Modes) (kind : TokenKind) {depth depth' : Nat}
    (count : depth + (if modes.stack = [] then brace kind else 0) = (depth' : Int)) :
    (modes.within depth).after kind = (modes.after kind).within depth' := by
  obtain ⟨stack, comment⟩ := modes
  cases stack with
  | nil =>
    have counted : (depth : Int) + brace kind = depth' := count
    cases kind with
    | openBrace =>
      obtain rfl : depth + 1 = depth' := Int.ofNat_inj.mp counted
      rfl
    | closeBrace =>
      cases depth with
      | zero => exact absurd counted (by simp only [brace]; omega)
      | succ depth =>
        obtain rfl : depth = depth' := by simp only [brace] at counted; omega
        rfl
    | _ =>
      obtain rfl : depth = depth' := by simp only [brace] at counted; omega
      rfl
  | cons mode outer =>
    obtain rfl : depth = depth' := Int.ofNat_inj.mp (by simpa using count)
    cases mode with
    | template => cases kind <;> rfl
    | interpolation inner =>
      cases kind with
      | closeBrace => cases inner <;> rfl
      | _ => rfl

/-- The openings of comments, and their bodies. -/
def commentKinds : List TokenKind := [.doubleSlash, .slashAsterisk, .commentText]

theorem last_piece {ts : List (Token TokenKind)} {kinds : List TokenKind}
    (last : ∀ token ∈ ts.getLast?, token.kind ∉ kinds) :
    ∀ x ∈ (ts.map Token.piece).getLast?, x.kind ∉ kinds := by
  intro x isLast
  rw [List.getLast?_map, Option.mem_def, Option.map_eq_some_iff] at isLast
  obtain ⟨token, isLast, rfl⟩ := isLast
  exact last token isLast

/-- Only the opener of a comment leaves one pending. -/
theorem Modes.comment_none {modes : Modes} {kind : TokenKind} (other : kind ∉ commentKinds) :
    (modes.after kind).comment = none := by
  unfold after
  split <;> first | rfl | exact absurd (by decide) other

/-- Pieces of code are found as well within an interpolation, whose braces they leave as they
were, and the brace behind them ends it. -/
theorem Spells.within {modes : Modes} {pieces more : List (Piece TokenKind)} {depth : Nat}
    (spells : Spells modes pieces)
    (outside : ((pieces.map (·.kind)).foldl Modes.after modes).stack = [])
    (quiet : pieces = [] → modes.comment = none)
    (last : ∀ x ∈ pieces.getLast?, x.kind ∉ commentKinds)
    (opened : ∀ front, front <+: pieces.map (·.kind) → 0 ≤ depth + modes.braces front)
    (closed : depth + modes.braces (pieces.map (·.kind)) = 0)
    (others : Spells { stack := [.template] } more) :
    Spells (modes.within depth) (pieces ++ closeBrace :: more) := by
  induction spells generalizing depth with
  | @nil modes =>
    obtain ⟨stack, comment⟩ := modes
    obtain rfl : stack = [] := outside
    obtain rfl : comment = none := quiet rfl
    obtain rfl : depth = 0 := by simpa [Modes.braces] using closed
    exact .cons (by decide) rfl others
  | @cons modes x pieces filled scan rest ih =>
    -- The depth behind this token, which is a number because no brace is closed too much.
    obtain ⟨depth', count⟩ : ∃ depth' : Nat,
        depth + (if modes.stack = [] then brace x.kind else 0) = (depth' : Int) := by
      have := opened [x.kind] ⟨pieces.map (·.kind), rfl⟩
      exact Int.eq_ofNat_of_zero_le (by simpa [Modes.braces] using this)
    have behind (kinds : List TokenKind) : depth + modes.braces (x.kind :: kinds) =
        depth' + (modes.after x.kind).braces kinds := by
      rw [Modes.braces, ← Int.add_assoc, count]
    refine .cons filled ?_ ?_
    · rw [Modes.scan_within]
      refine (Spells.cons filled scan rest).scan_append stops_closeBrace rfl ?_
      rintro rfl
      refine ⟨Modes.not_text_of_code outside, fun _ _ isText => ?_⟩
      exact absurd (isText ▸ last x rfl) (by decide)
    · rw [Modes.after_within modes x.kind count]
      refine ih outside ?_ ?_ (fun front before => ?_) ?_
      · rintro rfl
        exact Modes.comment_none (last x rfl)
      · intro y isLast
        refine last y ?_
        rw [List.getLast?_cons]
        rw [Option.mem_def.mp isLast]
        rfl
      · rw [← behind]
        exact opened _ (List.cons_prefix_cons.mpr ⟨rfl, before⟩)
      · rw [← behind]
        exact closed

/-- Code that closes its own braces, ends outside all templates and does not end in a comment
is cut into the same tokens when it stands in an interpolation as when it stands alone. -/
theorem tokenize_interpolated {source : String} {ts : List (Token TokenKind)} {modes : Modes}
    {cursor : Cursor} (run : tokenize source = .ok ts)
    (reach : lexRule.Reach source ts modes cursor) (outside : modes.stack = [])
    (last : ∀ token ∈ ts.getLast?, token.kind ∉ commentKinds)
    (opened : ∀ front, front <+: ts.map (·.kind) → 0 ≤ Modes.braces {} front)
    (closed : Modes.braces {} (ts.map (·.kind)) = 0) :
    ∃ ts', tokenize ("\x60$\x7b" ++ source ++ "\x7d\x60") = .ok ts' ∧
      ts'.map Token.piece =
        backQuote :: openTemplate :: ts.map Token.piece ++ [closeBrace, backQuote] := by
  obtain ⟨spells, spelled⟩ := tokenize_spells run
  have kinds : (ts.map Token.piece).map (·.kind) = ts.map (·.kind) := List.map_map
  have inside : Spells (Modes.within {} 0) (ts.map Token.piece ++ [closeBrace, backQuote]) := by
    refine spells.within ?_ (fun _ => rfl) (last_piece last) ?_ ?_ (.cons (by decide) rfl .nil)
    · rw [kinds, ← (reach_spelled reach).2]
      exact outside
    · simpa [kinds] using opened
    · simpa [kinds] using closed
  have whole : Spells {} (backQuote :: openTemplate ::
      (ts.map Token.piece ++ [closeBrace, backQuote])) :=
    .cons (by decide) rfl (.cons (by decide) rfl inside)
  refine whole.tokenize ?_
  simp [spelled, backQuote, openTemplate, closeBrace]

/-- The theorem at a source that has braces, a template with an interpolation of its own, and a
comment at its end. -/
theorem tokenize_interpolated_nested : ∃ ts modes cursor,
    tokenize "\x7b\x60$\x7b\x7b\x7d\x7d\x60\x7d//\n" = .ok ts ∧
      lexRule.Reach "\x7b\x60$\x7b\x7b\x7d\x7d\x60\x7d//\n" ts modes cursor ∧ modes.stack = [] ∧
      (∀ token ∈ ts.getLast?, token.kind ∉ commentKinds) ∧
      (∀ front, front <+: ts.map (·.kind) → 0 ≤ Modes.braces {} front) ∧
      Modes.braces {} (ts.map (·.kind)) = 0 ∧
      ∃ ts', tokenize ("\x60$\x7b" ++ "\x7b\x60$\x7b\x7b\x7d\x7d\x60\x7d//\n" ++ "\x7d\x60") = .ok ts' ∧
        ts'.map Token.piece =
          backQuote :: openTemplate :: ts.map Token.piece ++ [closeBrace, backQuote] := by
  have listed : (tokenize "\x7b\x60$\x7b\x7b\x7d\x7d\x60\x7d//\n").map (·.map (·.kind)) =
      .ok [.openBrace, .backQuote, .openTemplate, .openBrace, .closeBrace, .closeBrace,
        .backQuote, .closeBrace, .doubleSlash, .lineBreak] := by decide +kernel
  cases run : tokenize "\x7b\x60$\x7b\x7b\x7d\x7d\x60\x7d//\n" with
  | error e =>
    rw [run] at listed
    cases listed
  | ok ts =>
    rw [run] at listed
    have kinds : ts.map (·.kind) = [.openBrace, .backQuote, .openTemplate, .openBrace, .closeBrace,
        .closeBrace, .backQuote, .closeBrace, .doubleSlash, .lineBreak] := Except.ok.inj listed
    obtain ⟨modes, cursor, reach, -⟩ := (LexRule.tokenize_run lexRule _).reaches .start run
    rw [List.nil_append] at reach
    have outside : modes.stack = [] := by
      rw [(reach_spelled reach).2, kinds]
      decide
    have last : ∀ token ∈ ts.getLast?, token.kind ∉ commentKinds := by
      intro token isLast
      have kind : token.kind ∈ ts.getLast?.map (·.kind) := Option.mem_map_of_mem _ isLast
      rw [← List.getLast?_map, kinds] at kind
      rw [← Option.some.inj kind]
      decide
    have opened : ∀ front, front <+: ts.map (·.kind) → 0 ≤ Modes.braces {} front := by
      intro front before
      rw [kinds, ← List.mem_inits] at before
      revert front
      decide
    have closed : Modes.braces {} (ts.map (·.kind)) = 0 := by
      rw [kinds]
      decide
    exact ⟨ts, modes, cursor, rfl, reach, outside, last, opened, closed,
      tokenize_interpolated run reach outside last opened closed⟩

end Braces

end ScriptFront.Script
