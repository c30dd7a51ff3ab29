import Mathlib.Data.List.Basic
import ScriptFront.Proofs.Everywhere
import ScriptFront.Proofs.Lexed
import ScriptFront.Script.Grammar.Basic

namespace ScriptFront.Script

open ScriptFront.Parser

variable {ts : List (Token TokenKind)} {i j low high low' high' start : Nat}

/-- How a node stands among the tokens of its source: it reaches from the start of one
of them to the end of another, none of the two being layout; what is inside it lies
within it; and what it lists comes one after the other. -/
structure Placed (ts : List (Token TokenKind)) (t : Tree) : Prop where
  starts : ∃ token ∈ ts, token.isSpace = false ∧ token.span.start = t.span.start
  stops : ∃ token ∈ ts, token.isSpace = false ∧ token.span.stop = t.span.stop
  filled : t.span.start.offset < t.span.stop.offset
  nested : ∀ child ∈ t.kind.children,
    t.span.start.offset ≤ child.span.start.offset ∧ child.span.stop.offset ≤ t.span.stop.offset
  ordered : ∀ name nodes, (name, Field.children nodes) ∈ t.kind.view.2 →
    nodes.Pairwise fun a b => a.span.stop.offset ≤ b.span.start.offset

/-- A tree over some of the tokens from `low` to `high`, with all its nodes in place. Where exactly
it begins and ends between these two is left open, since layout may stand at either end. -/
structure Laid (ts : List (Token TokenKind)) (low high : Nat) (t : Tree) : Prop where
  between : Between ts low high t.span
  placed : Everywhere (Placed ts) t

theorem Laid.mono {t : Tree} (laid : Laid ts low high t) (lower : low' ≤ low)
    (higher : high ≤ high') : Laid ts low' high' t :=
  ⟨laid.between.mono lower higher, laid.placed⟩

theorem Laid.solid {t : Tree} (laid : Laid ts low high t) :
    ∃ k, low ≤ k ∧ k < high ∧ Solid ts k :=
  laid.between.solid

/-- A tree that may be left out, laid when it is there. -/
def MaybeLaid (ts : List (Token TokenKind)) (low high : Nat) (t : Option Tree) : Prop :=
  ∀ inner ∈ t, Laid ts low high inner

theorem MaybeLaid.none : MaybeLaid ts low high none :=
  fun _ isNone => nomatch isNone

theorem Laid.some {t : Tree} (laid : Laid ts low high t) : MaybeLaid ts low high (some t) := by
  rintro inner ⟨⟩
  exact laid

theorem MaybeLaid.mono {t : Option Tree} (laid : MaybeLaid ts low high t) (lower : low' ≤ low)
    (higher : high ≤ high') : MaybeLaid ts low' high' t :=
  fun inner isInner => (laid inner isInner).mono lower higher

/-- Trees over the tokens from `low` to `high`, each behind the one before it. -/
def LaidAll (ts : List (Token TokenKind)) : Nat → Nat → List Tree → Prop
  | _, _, [] => True
  | low, high, t :: others => ∃ middle, Laid ts low middle t ∧ middle ≤ high ∧
      LaidAll ts middle high others

theorem LaidAll.mono {nodes : List Tree} (laid : LaidAll ts low high nodes) (lower : low' ≤ low)
    (higher : high ≤ high') : LaidAll ts low' high' nodes := by
  induction nodes generalizing low low' with
  | nil => trivial
  | cons t others ih =>
    obtain ⟨middle, first, within, rest⟩ := laid
    exact ⟨middle, first.mono lower (Nat.le_refl _), by omega, ih rest (Nat.le_refl _)⟩

/-- Each of some trees laid in a row is laid between the ends of the row. -/
theorem LaidAll.mem {nodes : List Tree} (laid : LaidAll ts low high nodes) {t : Tree}
    (member : t ∈ nodes) : Laid ts low high t := by
  induction nodes generalizing low with
  | nil => cases member
  | cons first others ih =>
    obtain ⟨middle, atFirst, within, rest⟩ := laid
    have gap := atFirst.between.low_lt
    rcases List.mem_cons.mp member with rfl | later
    · exact atFirst.mono (Nat.le_refl _) within
    · exact (ih rest later).mono (by omega) (Nat.le_refl _)

theorem LaidAll.append {first second : List Tree} {middle : Nat}
    (laid : LaidAll ts low middle first) (rest : LaidAll ts middle high second)
    (order : low ≤ middle) (within : middle ≤ high) : LaidAll ts low high (first ++ second) := by
  induction first generalizing low with
  | nil => exact rest.mono order (Nat.le_refl _)
  | cons t others ih =>
    obtain ⟨next, atFirst, below, later⟩ := laid
    exact ⟨next, atFirst, by omega, ih later below⟩

/-- Trees laid in a row do not overlap: the characters of each end before those of the next begin.
-/
theorem LaidAll.pairwise {nodes : List Tree} (measured : Measured ts)
    (laid : LaidAll ts low high nodes) :
    nodes.Pairwise fun a b => a.span.stop.offset ≤ b.span.start.offset := by
  induction nodes generalizing low with
  | nil => exact .nil
  | cons t others ih =>
    obtain ⟨middle, first, -, rest⟩ := laid
    refine .cons (fun other member => ?_) (ih rest)
    have upper := (first.between.offsets measured).2.2
    have lower := ((rest.mem member).between.offsets measured).1
    omega

/-- The trees in one part of a construct, laid over the tokens from `low` to `high`. -/
def FieldLaid (ts : List (Token TokenKind)) (low high : Nat) : Field → Prop
  | .child t => Laid ts low high t
  | .child? t => MaybeLaid ts low high t
  | .children nodes => LaidAll ts low high nodes
  | _ => True

theorem FieldLaid.mem {field : Field} (laid : FieldLaid ts low high field) {t : Tree}
    (member : t ∈ field.trees) : Laid ts low high t := by
  cases field with
  | child inner =>
    obtain rfl := List.mem_singleton.mp member
    exact laid
  | child? inner => exact laid t (Option.mem_toList.mp member)
  | children nodes => exact LaidAll.mem laid member
  | _ => exact absurd member List.not_mem_nil

/-- All parts of a construct laid over the tokens from `low` to `high`. -/
def PartsLaid (ts : List (Token TokenKind)) (low high : Nat) (kind : Construct) : Prop :=
  kind.view.2.Forall fun part => FieldLaid ts low high part.2

/-- Nothing but separators stands between two places. What a rule skips behind its node is a gap, so
the next node begins where the gap ends. -/
def Gap (ts : List (Token TokenKind)) (low high : Nat) : Prop :=
  ∀ k token, low ≤ k → k < high → ts[k]? = some token → isSeparator token = true

theorem Gap.append {middle : Nat} (first : Gap ts low middle) (second : Gap ts middle high) :
    Gap ts low high := by
  intro k token after before atToken
  rcases Nat.lt_or_ge k middle with left | right
  · exact first k token after left atToken
  · exact second k token right before atToken

/-- A tree over all of the tokens from `start` to `j` that are no separators. Expressions are only
laid, as parentheses around them are taken without belonging to them; statements are spanned. -/
structure Spanned (ts : List (Token TokenKind)) (start j : Nat) (t : Tree) : Prop where
  laid : Laid ts start j t
  tight : ∀ k token, start ≤ k → k < j → ts[k]? = some token → isSeparator token = false →
    t.span.Holds token

/-- Separators around a node belong to nothing. -/
theorem Spanned.widen {t : Tree} (spanned : Spanned ts start i t) (before : Gap ts low start)
    (behind : Gap ts i j) (lower : low ≤ start) (onward : i ≤ j) : Spanned ts low j t where
  laid := spanned.laid.mono lower onward
  tight k token after below atToken other := by
    have inside : start ≤ k ∧ k < i := by
      rcases Nat.lt_or_ge k start with left | right
      · rw [before k token after left atToken] at other
        cases other
      rcases Nat.lt_or_ge k i with within | beyond
      · exact ⟨right, within⟩
      · rw [behind k token beyond below atToken] at other
        cases other
    exact spanned.tight k token inside.1 inside.2 atToken other

/-- Separators behind a spanned tree do not count. -/
theorem Spanned.beyond {t : Tree} (spanned : Spanned ts start i t) (behind : Gap ts i j)
    (onward : i ≤ j) : Spanned ts start j t :=
  spanned.widen (fun _ _ after before => absurd after (Nat.not_le.mpr before)) behind
    (Nat.le_refl _) onward

section Nodes

variable (lexed : Lexed ts) {kind : Construct}
include lexed

/-- A node over everything that was taken since `start` is in place when its parts are,
and when at least one token since then was no layout. -/
theorem spanned_node {s : State} (atTokens : s.tokens = ts) (atPlace : s.position = j)
    (solid : ∃ k, start ≤ k ∧ k < j ∧ Solid ts k)
    (parts : PartsLaid ts start j kind) :
    Spanned ts start j ⟨kind, s.spanSince start⟩ := by
  have measured := lexed.measured
  subst atTokens atPlace
  obtain ⟨first, last, a, b, hull, atFirst, atLast, span⟩ := s.spanSince_hull start solid
  rw [measured.cover_eq atFirst atLast hull.ordered] at span
  obtain ⟨a', atFirst', solidA⟩ := hull.solidFirst
  cases atFirst.symm.trans atFirst'
  obtain ⟨b', atLast', solidB⟩ := hull.solidLast
  cases atLast.symm.trans atLast'
  have startA := (measured.span_at atFirst).1
  have stopB := (measured.span_at atLast).2
  have order := edge_mono s.tokens hull.ordered
  have filled := measured.edge_lt atLast
  -- A token that is no layout lies between the first and the last such token.
  have covers (k : Nat) (token : Token TokenKind) (after : start ≤ k) (before : k < s.position)
      (atToken : s.tokens[k]? = some token) (solid : token.isSpace = false) :
      Span.Holds ⟨a.span.start, b.span.stop⟩ token := by
    have isSolid : Solid s.tokens k := ⟨token, atToken, solid⟩
    have low : first ≤ k := Nat.le_of_not_lt fun less => hull.before k after less isSolid
    have high : k ≤ last := Nat.le_of_not_lt fun more => hull.behind k more before isSolid
    have lower := edge_mono s.tokens low
    have upper : edge s.tokens (k + 1) ≤ edge s.tokens (last + 1) :=
      edge_mono s.tokens (Nat.succ_le_succ high)
    obtain ⟨atStart, atStop⟩ := measured.span_at atToken
    exact ⟨by dsimp only; omega, by dsimp only; omega⟩
  have childLaid (child : Tree) (member : child ∈ kind.children) :
      Laid s.tokens start s.position child := by
    obtain ⟨part, isPart, inPart⟩ := List.mem_flatMap.mp member
    exact (List.forall_iff_forall_mem.mp parts part isPart).mem inPart
  have placed : Placed s.tokens ⟨kind, s.spanSince start⟩ := by
    rw [span]
    refine ⟨⟨a, List.mem_of_getElem? atFirst, solidA, rfl⟩,
      ⟨b, List.mem_of_getElem? atLast, solidB, rfl⟩, by dsimp only; omega, ?_, ?_⟩
    · intro child member
      obtain ⟨f, l, x, y, atLow, ordered, atHigh, atX, solidX, atY, solidY, childSpan⟩ :=
        (childLaid child member).between
      rw [childSpan]
      exact ⟨(covers f x atLow (by omega) atX solidX).1, (covers l y (by omega) atHigh atY solidY).2⟩
    · intro name nodes isPart
      exact LaidAll.pairwise measured (List.forall_iff_forall_mem.mp parts (name, .children nodes) isPart)
  refine ⟨⟨?_, .node placed fun child member => (childLaid child member).placed⟩, ?_⟩
  · exact ⟨first, last, a, b, hull.low_le, hull.ordered, hull.below, atFirst, solidA, atLast, solidB,
      span⟩
  · intro k token after before atToken other
    have solid : token.isSpace = false := by
      simp only [isSeparator, Bool.or_eq_false_iff] at other
      exact other.1
    rw [span]
    exact covers k token after before atToken solid

/-- A node that is made last is spanned if its parts are laid and it has a solid token. -/
theorem lands_spanned (solid : ∃ k, start ≤ k ∧ k < i ∧ Solid ts k)
    (parts : PartsLaid ts start i kind) :
    Lands ts i (makeNode start kind : Rule Tree) fun t j => Spanned ts start j t := by
  refine (lands_makeNode start kind).mono fun t j _ ⟨same, s, atTokens, atPlace, made⟩ => ?_
  subst same made
  exact spanned_node lexed atTokens atPlace solid parts

theorem lands_laid (solid : ∃ k, start ≤ k ∧ k < i ∧ Solid ts k)
    (parts : PartsLaid ts start i kind) :
    Lands ts i (makeNode start kind : Rule Tree) fun t j => Laid ts start j t :=
  (lands_spanned lexed solid parts).mono fun _ _ _ spanned => spanned.laid

end Nodes

end ScriptFront.Script
