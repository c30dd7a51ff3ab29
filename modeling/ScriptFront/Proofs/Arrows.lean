import Mathlib.Data.List.TakeWhile
import ScriptFront.Proofs.Derivation.Yields
import ScriptFront.Proofs.Landing

namespace ScriptFront.Script

open ScriptFront.Parser

section Scanning

variable {token : Token TokenKind} {rest : List (Token TokenKind)} {depth : Nat}

theorem arrowBehind_cons (noOpener : token.kind ≠ .openParen)
    (noCloser : token.kind ≠ .closeParen) :
    arrowBehind depth (token :: rest) = arrowBehind depth rest := by
  rw [arrowBehind]
  split
  · exact absurd ‹_› noOpener
  · exact absurd ‹_› noCloser
  · rfl

/-- An opening parenthesis has to be closed as well before the search can end. -/
theorem arrowBehind_openParen (opens : token.kind = .openParen) :
    arrowBehind depth (token :: rest) = arrowBehind (depth + 1) rest := by
  rw [arrowBehind, opens]

/-- While more than one is open, a closing parenthesis closes the innermost. -/
theorem arrowBehind_closeParen (closes : token.kind = .closeParen) :
    arrowBehind (depth + 2) (token :: rest) = arrowBehind (depth + 1) rest := by
  rw [arrowBehind, closes]
  rfl

/-- The parenthesis that closes the last open one ends the search: what counts is the first token
behind it that is not layout. -/
theorem arrowBehind_last (closes : token.kind = .closeParen) :
    arrowBehind 1 (token :: rest) = (rest.dropWhile Token.isSpace).head?.any (·.kind = .arrow) := by
  rw [arrowBehind, closes]
  rfl

end Scanning

section Counting

/-- How many of the first `n` tokens are of a kind. -/
def tally (kind : TokenKind) (tokens : List (Token TokenKind)) (n : Nat) : Nat :=
  (tokens.take n).countP (·.kind = kind)

@[simp] theorem tally_zero (kind : TokenKind) (tokens : List (Token TokenKind)) :
    tally kind tokens 0 = 0 := rfl

@[simp] theorem tally_succ (kind : TokenKind) (token : Token TokenKind)
    (tokens : List (Token TokenKind)) (n : Nat) : tally kind (token :: tokens) (n + 1) =
      tally kind tokens n + if token.kind = kind then 1 else 0 := by
  simp [tally, List.countP_cons]

/-- The `j`-th token closes the last of the `depth` parentheses that are open in front of all
tokens: with it as many have been closed as were opened, and never before. -/
structure ClosesAt (depth : Nat) (tokens : List (Token TokenKind)) (j : Nat) : Prop where
  closer : tokens[j]?.map (·.kind) = some .closeParen
  level : depth + tally .openParen tokens (j + 1) = tally .closeParen tokens (j + 1)
  inside : ∀ n ≤ j, tally .closeParen tokens n < depth + tally .openParen tokens n

variable {token : Token TokenKind} {tokens : List (Token TokenKind)} {depth depth' j : Nat}

/-- Only a closing parenthesis can close at the first place, and only the one that is open. -/
theorem closesAt_zero : ClosesAt depth (token :: tokens) 0 ↔
    token.kind = .closeParen ∧ depth = 1 := by
  constructor
  · rintro ⟨closer, level, -⟩
    have closes : token.kind = .closeParen := by simpa using closer
    exact ⟨closes, by simpa [closes] using level⟩
  · rintro ⟨closes, rfl⟩
    refine ⟨by simp [closes], by simp [closes], fun n atFront => ?_⟩
    obtain rfl := Nat.le_zero.mp atFront
    exact Nat.one_pos

/-- The first token only changes how many parentheses are open in front of the others. -/
theorem closesAt_succ (positive : 0 < depth)
    (changed : depth + (if token.kind = .openParen then 1 else 0) =
      depth' + if token.kind = .closeParen then 1 else 0) :
    ClosesAt depth (token :: tokens) (j + 1) ↔ ClosesAt depth' tokens j := by
  constructor
  · rintro ⟨closer, level, inside⟩
    refine ⟨closer, ?_, fun n before => ?_⟩
    · rw [tally_succ, tally_succ] at level
      omega
    · have behind := inside (n + 1) (by omega)
      rw [tally_succ, tally_succ] at behind
      omega
  · rintro ⟨closer, level, inside⟩
    refine ⟨closer, ?_, fun n before => ?_⟩
    · rw [tally_succ, tally_succ]
      omega
    · cases n with
      | zero => simpa using positive
      | succ n =>
        have behind := inside n (by omega)
        rw [tally_succ, tally_succ]
        omega

/-- The first token behind the `j`-th one that is no layout is an arrow. -/
def ArrowBehind (tokens : List (Token TokenKind)) (j : Nat) : Prop :=
  ∃ arrow, (tokens.drop (j + 1)).find? (!·.isSpace) = some arrow ∧ arrow.kind = .arrow

/-- The scan stops at the parenthesis that closes the last open one, wherever that is, and
looks at nothing but what stands behind it. -/
theorem arrowBehind_iff (positive : 0 < depth) :
    arrowBehind depth tokens = true ↔ ∃ j, ClosesAt depth tokens j ∧ ArrowBehind tokens j := by
  induction tokens generalizing depth with
  | nil =>
    constructor
    · intro found
      cases found
    · rintro ⟨j, ⟨closer, -, -⟩, -⟩
      cases closer
  | cons token tokens ih =>
    have later {depth' : Nat} (positive' : 0 < depth')
        (changed : depth + (if token.kind = .openParen then 1 else 0) =
          depth' + if token.kind = .closeParen then 1 else 0)
        (goesOn : ¬ (token.kind = .closeParen ∧ depth = 1)) :
        arrowBehind depth' tokens = true ↔
          ∃ j, ClosesAt depth (token :: tokens) j ∧ ArrowBehind (token :: tokens) j := by
      rw [ih positive']
      constructor
      · rintro ⟨j, closes, arrow⟩
        exact ⟨j + 1, (closesAt_succ positive changed).mpr closes, arrow⟩
      · rintro ⟨_ | j, closes, arrow⟩
        · exact absurd (closesAt_zero.mp closes) goesOn
        · exact ⟨j, (closesAt_succ positive changed).mp closes, arrow⟩
    by_cases opens : token.kind = .openParen
    · rw [arrowBehind_openParen opens]
      exact later (Nat.succ_pos depth) (by simp [opens]) (by simp [opens])
    by_cases closes : token.kind = .closeParen
    · match depth, positive with
      | 1, _ =>
        rw [arrowBehind_last closes, ← List.find?_not_eq_head?_dropWhile, Option.any_eq_true]
        simp only [decide_eq_true_eq]
        constructor
        · intro arrow
          exact ⟨0, closesAt_zero.mpr ⟨closes, rfl⟩, arrow⟩
        · rintro ⟨_ | j, matched, arrow⟩
          · exact arrow
          · -- The first token has closed the only parenthesis that was open.
            have open' := matched.inside 1 (by omega)
            simp [closes] at open'
      | depth + 2, _ =>
        rw [arrowBehind_closeParen closes]
        exact later (Nat.succ_pos depth) (by simp [closes]) (by simp [closes])
    · rw [arrowBehind_cons opens closes]
      exact later positive (by simp [opens, closes]) (by simp [closes])

end Counting

section Looking

/-- The scan in steps of the cursor: tokens are taken one by one, and the parentheses that are
open are counted. Every turn takes a token, so a budget of the tokens left is enough. -/
def arrowScan : Nat → Nat → Rule Bool
  | 0, _ => return false
  | budget + 1, depth => do
    if ← observe (·.willContinue) then
      let token ← consume
      if token.kind = .openParen then
        arrowScan budget (depth + 1)
      else if token.kind = .closeParen then
        if depth ≤ 1 then
          trim
          at? .arrow
        else
          arrowScan budget (depth - 1)
      else
        arrowScan budget depth
    else
      return false

/-- The scan from the cursor on, behind which the cursor goes back. -/
def arrowAhead : Rule Bool := lookAhead do arrowScan (← observe (·.rest.length)) 0

/-- The search on the cursor, which puts it back afterwards, answers as the search on the remaining
tokens, and a budget of their number is enough. -/
theorem arrowScan_eq {budget depth : Nat} {s : State} (enough : s.rest.length ≤ budget) :
    ∃ t, arrowScan budget depth s = .ok (arrowBehind depth s.rest) t ∧
      t.properties = s.properties := by
  induction budget generalizing depth s with
  | zero =>
    have none : s.rest = [] := List.length_eq_zero_iff.mp (Nat.le_zero.mp enough)
    exact ⟨s, by rw [none]; rfl, rfl⟩
  | succ budget ih =>
    obtain ⟨before, rest, found⟩ := s
    cases rest with
    | nil => exact ⟨_, rfl, rfl⟩
    | cons token rest =>
      have turn (depth : Nat) :=
        @ih depth ⟨token :: before, rest, found⟩ (Nat.le_of_succ_le_succ enough)
      have more : (⟨before, token :: rest, found⟩ : State).willContinue = true := rfl
      have taken : consume (⟨before, token :: rest, found⟩ : State) =
          .ok token ⟨token :: before, rest, found⟩ := rfl
      rw [arrowScan, observe_bind, if_pos more, bind_ok taken]
      by_cases opens : token.kind = .openParen
      · rw [arrowBehind_openParen opens, if_pos opens]
        exact turn (depth + 1)
      rw [if_neg opens]
      by_cases closes : token.kind = .closeParen
      · rw [arrowBehind, closes, if_pos rfl]
        dsimp only
        split
        · exact ⟨_, congrArg (EStateM.Result.ok · _) (head?_any_kind _ _).symm, rfl⟩
        · exact turn (depth - 1)
      · rw [arrowBehind_cons opens closes, if_neg closes]
        exact turn depth

/-- Looking ahead tells what the scan finds, and moves nothing. -/
theorem arrowAhead_eq (s : State) : arrowAhead s = .ok (arrowFollows s) s := by
  obtain ⟨t, run, same⟩ := @arrowScan_eq s.rest.length 0 s (Nat.le_refl _)
  unfold arrowAhead lookAhead
  rw [observe_bind, run]
  dsimp only
  rw [same]
  rfl

end Looking

/-- The parenthesis at place `j` closes the one at place `i`: between them as many are opened
as are closed, and each shorter stretch from `i` on opens more of them than it closes. -/
structure Matching (tokens : List (Token TokenKind)) (i j : Nat) : Prop where
  behind : i < j
  closer : tokens[j]?.map (·.kind) = some .closeParen
  level :
    tally .openParen (tokens.drop i) (j + 1 - i) = tally .closeParen (tokens.drop i) (j + 1 - i)
  inside : ∀ k, i < k → k ≤ j →
    tally .closeParen (tokens.drop i) (k - i) < tally .openParen (tokens.drop i) (k - i)

section Matching

variable {tokens rest : List (Token TokenKind)} {opener : Token TokenKind} {i : Nat}
  (dropped : tokens.drop i = opener :: rest) (opens : opener.kind = .openParen)
include dropped

theorem getElem?_behind (j : Nat) : tokens[i + 1 + j]? = rest[j]? := by
  rw [Nat.add_assoc, ← List.getElem?_drop, dropped, Nat.add_comm 1 j, List.getElem?_cons_succ]

theorem drop_behind (j : Nat) : tokens.drop (i + 1 + j) = rest.drop j := by
  rw [Nat.add_assoc, ← List.drop_drop, dropped, Nat.add_comm 1 j, List.drop_succ_cons]

include opens

/-- Behind the opening parenthesis one parenthesis is open. -/
theorem matching_iff (j : Nat) : Matching tokens i (i + 1 + j) ↔ ClosesAt 1 rest j := by
  have opened (n : Nat) :
      tally .openParen (tokens.drop i) (n + 1) = 1 + tally .openParen rest n := by
    rw [dropped, tally_succ, if_pos opens, Nat.add_comm]
  have closed (n : Nat) : tally .closeParen (tokens.drop i) (n + 1) = tally .closeParen rest n := by
    rw [dropped, tally_succ, if_neg (by simp [opens]), Nat.add_zero]
  have size : i + 1 + j + 1 - i = j + 1 + 1 := by omega
  constructor
  · rintro ⟨-, closer, level, inside⟩
    rw [size, opened, closed] at level
    refine ⟨getElem?_behind dropped j ▸ closer, level, fun n before => ?_⟩
    have stretch := inside (i + 1 + n) (by omega) (by omega)
    rwa [show i + 1 + n - i = n + 1 by omega, opened, closed] at stretch
  · rintro ⟨closer, level, inside⟩
    refine ⟨by omega, by rwa [getElem?_behind dropped], ?_, fun k after before => ?_⟩
    · rwa [size, opened, closed]
    · obtain ⟨n, rfl⟩ : ∃ n, k = i + 1 + n := ⟨k - (i + 1), by omega⟩
      rw [show i + 1 + n - i = n + 1 by omega, opened, closed]
      exact inside n (by omega)

end Matching

/-- An arrow is seen ahead of an opening parenthesis exactly when it is the first token behind
the matching one that is no layout; and seeing it leaves the cursor at the parenthesis. -/
theorem arrowFollows_iff {s : State} (opens : s.is .openParen = true) :
    (arrowFollows s = true ↔
        ∃ j, Matching s.tokens s.position j ∧ ArrowBehind s.tokens j) ∧
      arrowAhead s = .ok (arrowFollows s) s := by
  refine ⟨?_, arrowAhead_eq s⟩
  obtain ⟨opener, current, ofKind⟩ := s.current_of_is opens
  obtain ⟨rest, atRest⟩ := List.head?_eq_some_iff.mp current
  have dropped : s.tokens.drop s.position = opener :: rest := by
    rw [← s.rest_eq_drop, atRest]
  have same (j : Nat) : ArrowBehind s.tokens (s.position + 1 + j) ↔ ArrowBehind rest j := by
    unfold ArrowBehind
    rw [Nat.add_assoc, drop_behind dropped]
  rw [arrowFollows, atRest, arrowBehind_openParen ofKind, arrowBehind_iff Nat.one_pos]
  constructor
  · rintro ⟨j, closes, arrow⟩
    exact ⟨_, (matching_iff dropped ofKind j).mpr closes, (same j).mpr arrow⟩
  · rintro ⟨j, matched, arrow⟩
    obtain ⟨j, rfl⟩ : ∃ n, j = s.position + 1 + n := ⟨j - (s.position + 1), by
      have behind := matched.behind
      omega⟩
    exact ⟨j, (matching_iff dropped ofKind j).mp matched, (same j).mp arrow⟩

/-- A pair inside the parentheses is passed over. -/
theorem arrowFollows_iff_nested :
    let token (kind : TokenKind) (tag : Option Tag) : Token TokenKind := ⟨⟨kind, tag⟩, "", default⟩
    let s : State := ⟨[token .identifier (some .word)],
      [token .openParen none, token .openParen none, token .closeParen none,
        token .closeParen none, token .space (some .whiteSpace), token .arrow none], {}⟩
    s.is .openParen = true ∧
      (∃ j, Matching s.tokens s.position j ∧ ArrowBehind s.tokens j) ∧
      arrowAhead s = .ok true s := by
  intro token s
  have opens : s.is .openParen = true := by decide
  have found : arrowFollows s = true := by decide
  obtain ⟨sees, stays⟩ := arrowFollows_iff opens
  exact ⟨opens, sees.mp found, by rw [stays, found]⟩

end ScriptFront.Script
