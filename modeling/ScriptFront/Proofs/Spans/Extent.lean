import ScriptFront.Proofs.Landing
import ScriptFront.Proofs.Tiling

namespace ScriptFront

variable {κ π : Type} {ts : List (Token κ)} {i j k low high first last : Nat}

/-- The `k`-th token is there and is no layout. Nodes begin and end at such tokens only. -/
def Solid (ts : List (Token κ)) (k : Nat) : Prop :=
  ∃ token, ts[k]? = some token ∧ token.isSpace = false

/-- The token lies within the extent. -/
def Span.Holds (span : Span) (token : Token κ) : Prop :=
  span.start.offset ≤ token.span.start.offset ∧ token.span.stop.offset ≤ span.stop.offset

/-- The character behind the offset lies within the extent. -/
def Span.Includes (span : Span) (offset : Nat) : Prop :=
  span.start.offset ≤ offset ∧ offset < span.stop.offset

/-- The first and the last token between two places that are no layout. The extent of a node reaches
from the one to the other. -/
structure Hull (ts : List (Token κ)) (low high first last : Nat) : Prop where
  low_le : low ≤ first
  ordered : first ≤ last
  below : last < high
  solidFirst : Solid ts first
  solidLast : Solid ts last
  before : ∀ k, low ≤ k → k < first → ¬ Solid ts k
  behind : ∀ k, last < k → k < high → ¬ Solid ts k

section Edges

/-- How many characters stand before the `k`-th token. Places between tokens become offsets of the
source by it. -/
def edge (ts : List (Token κ)) (k : Nat) : Nat := (Token.spelled (ts.take k)).length

/-- The characters in front of a token do not become fewer further on. -/
theorem edge_mono (ts : List (Token κ)) (order : i ≤ j) : edge ts i ≤ edge ts j := by
  have split : ts.take j = ts.take i ++ (ts.take j).drop i := by
    conv_lhs => rw [← List.take_append_drop i (ts.take j)]
    rw [List.take_take, Nat.min_eq_left order]
  rw [edge, edge, split, Token.spelled_append, List.length_append]
  omega

/-- Some token has the character in it. -/
theorem edge_find {offset : Nat} (n : Nat) (below : offset < edge ts n) :
    ∃ k < n, edge ts k ≤ offset ∧ offset < edge ts (k + 1) := by
  induction n with
  | zero => simp [edge] at below
  | succ n ih =>
    rcases Nat.lt_or_ge offset (edge ts n) with earlier | here
    · obtain ⟨k, order, inside⟩ := ih earlier
      exact ⟨k, by omega, inside⟩
    · exact ⟨n, by omega, here, below⟩

variable (measured : Measured ts) {token : Token κ}
include measured

/-- The span of a token is given by the characters in front of it and of the next one. -/
theorem Measured.span_at (atToken : ts[k]? = some token) :
    token.span.start.offset = edge ts k ∧ token.span.stop.offset = edge ts (k + 1) := by
  obtain ⟨inside, atIndex⟩ := List.getElem?_eq_some_iff.mp atToken
  have split : ts = ts.take k ++ token :: ts.drop (k + 1) := by
    conv_lhs => rw [← List.take_append_drop k ts, List.drop_eq_getElem_cons inside]
    rw [atIndex]
  have upTo : ts.take (k + 1) = ts.take k ++ [token] := by
    rw [List.take_succ_eq_append_getElem inside, atIndex]
  rw [measured.placed _ token _ split]
  exact ⟨rfl, by rw [edge, upTo]; rfl⟩

/-- Every token has at least one character, so edges differ. -/
theorem Measured.edge_lt (atToken : ts[k]? = some token) : edge ts k < edge ts (k + 1) := by
  obtain ⟨inside, atIndex⟩ := List.getElem?_eq_some_iff.mp atToken
  have filled := measured.filled token (List.mem_of_getElem? atToken)
  have upTo : ts.take (k + 1) = ts.take k ++ [token] := by
    rw [List.take_succ_eq_append_getElem inside, atIndex]
  have some : 0 < token.text.toList.length := by
    rw [List.length_pos_iff]
    exact fun empty => filled (String.toList_eq_nil_iff.mp empty)
  rw [edge, edge, upTo, Token.spelled_append, List.length_append]
  simp only [Token.spelled_cons, Token.spelled_nil, List.append_nil]
  omega

/-- A token is where it starts. -/
theorem Measured.place_eq {other : Token κ} (atToken : ts[i]? = some token)
    (atOther : ts[j]? = some other) (same : token.span.start = other.span.start) : i = j := by
  have start := (measured.span_at atToken).1
  have start' := (measured.span_at atOther).1
  have filled := measured.edge_lt atToken
  have filled' := measured.edge_lt atOther
  rw [same] at start
  rcases Nat.lt_trichotomy i j with less | equal | more
  · have order := edge_mono ts (by omega : i + 1 ≤ j)
    omega
  · exact equal
  · have order := edge_mono ts (by omega : j + 1 ≤ i)
    omega

/-- Of two tokens in order the cover reaches from the first to the last. -/
theorem Measured.cover_eq {a b : Token κ} (atFirst : ts[first]? = some a)
    (atLast : ts[last]? = some b) (order : first ≤ last) :
    a.span.cover b.span = ⟨a.span.start, b.span.stop⟩ := by
  have spanA := measured.span_at atFirst
  have spanB := measured.span_at atLast
  have starts := edge_mono ts order
  unfold Span.cover
  rw [if_neg (by omega)]
  rcases Nat.eq_or_lt_of_le order with same | less
  · subst same
    cases atFirst.symm.trans atLast
    rw [if_neg (by omega)]
  · have filled := measured.edge_lt atLast
    have gap : edge ts (first + 1) ≤ edge ts last := edge_mono ts less
    rw [if_pos (by omega)]

end Edges

/-- An extent from the start of one token to the end of another, both between `low`
and `high` and no layout. -/
def Between (ts : List (Token κ)) (low high : Nat) (span : Span) : Prop :=
  ∃ first last a b, low ≤ first ∧ first ≤ last ∧ last < high ∧
    ts[first]? = some a ∧ a.isSpace = false ∧ ts[last]? = some b ∧ b.isSpace = false ∧
    span = ⟨a.span.start, b.span.stop⟩

theorem Between.mono {low' high' : Nat} {span : Span} (between : Between ts low high span)
    (lower : low' ≤ low) (higher : high ≤ high') : Between ts low' high' span := by
  obtain ⟨first, last, a, b, atLow, ordered, atHigh, rest⟩ := between
  exact ⟨first, last, a, b, by omega, ordered, by omega, rest⟩

/-- An extent has a solid token at its start. -/
theorem Between.solid {span : Span} (between : Between ts low high span) :
    ∃ k, low ≤ k ∧ k < high ∧ Solid ts k := by
  obtain ⟨first, last, a, b, atLow, ordered, atHigh, atFirst, solid, -⟩ := between
  exact ⟨first, atLow, by omega, a, atFirst, solid⟩

theorem Between.low_lt {span : Span} (between : Between ts low high span) : low < high := by
  obtain ⟨k, atLow, atHigh, -⟩ := between.solid
  omega

/-- The characters of an extent lie between those of the two places. -/
theorem Between.offsets {span : Span} (measured : Measured ts) (between : Between ts low high span) :
    edge ts low ≤ span.start.offset ∧ span.start.offset < span.stop.offset ∧
      span.stop.offset ≤ edge ts high := by
  obtain ⟨first, last, a, b, atLow, ordered, atHigh, atFirst, -, atLast, -, rfl⟩ := between
  have start := (measured.span_at atFirst).1
  have stop := (measured.span_at atLast).2
  have lower := edge_mono ts atLow
  have inner := edge_mono ts ordered
  have filled := measured.edge_lt atLast
  have upper := edge_mono ts (Nat.succ_le_of_lt atHigh)
  exact ⟨by simp only [start]; omega, by simp only [start, stop]; omega, by simp only [stop]; omega⟩

section Windows

/-- The tokens between two places. -/
def window (ts : List (Token κ)) (low high : Nat) : List (Token κ) := (ts.take high).drop low

theorem getElem?_window (ts : List (Token κ)) (after : low ≤ k) (before : k < high) :
    (window ts low high)[k - low]? = ts[k]? := by
  rw [window, List.getElem?_drop, Nat.add_sub_cancel' after, List.getElem?_take_of_lt before]

theorem length_window (within : high ≤ ts.length) : (window ts low high).length = high - low := by
  rw [window, List.length_drop, List.length_take]
  omega

variable (within : high ≤ ts.length) {token : Token κ}
include within

/-- The first token of a window that is no layout has only layout before it. -/
theorem find_window (found : (window ts low high).find? (!·.isSpace) = some token) :
    ∃ first, low ≤ first ∧ first < high ∧ ts[first]? = some token ∧ token.isSpace = false ∧
      ∀ k, low ≤ k → k < first → ¬ Solid ts k := by
  obtain ⟨solid, blanks, others, split, blank⟩ := List.find?_eq_some_iff_append.mp found
  have size := congrArg List.length split
  rw [length_window within, List.length_append, List.length_cons] at size
  refine ⟨low + blanks.length, by omega, by omega, ?_, by simpa using solid, ?_⟩
  · rw [← getElem?_window ts (Nat.le_add_right low _) (by omega : _ < high),
      Nat.add_sub_cancel_left, split]
    simp
  · rintro k after before ⟨other, atOther, solidOther⟩
    rw [← getElem?_window ts after (by omega : k < high), split,
      List.getElem?_append_left (by omega)] at atOther
    have space := blank other (List.mem_of_getElem? atOther)
    simp [solidOther] at space

/-- The last token of a window that is no layout has only layout behind it. -/
theorem find_window_reverse
    (found : (window ts low high).reverse.find? (!·.isSpace) = some token) :
    ∃ last, low ≤ last ∧ last < high ∧ ts[last]? = some token ∧ token.isSpace = false ∧
      ∀ k, last < k → k < high → ¬ Solid ts k := by
  obtain ⟨solid, blanks, others, split, blank⟩ := List.find?_eq_some_iff_append.mp found
  have split' : window ts low high = others.reverse ++ token :: blanks.reverse := by
    rw [← List.reverse_reverse (window ts low high), split]
    simp
  have size := congrArg List.length split'
  rw [length_window within, List.length_append, List.length_cons, List.length_reverse] at size
  refine ⟨low + others.length, by omega, by omega, ?_, by simpa using solid, ?_⟩
  · rw [← getElem?_window ts (Nat.le_add_right low _) (by omega : _ < high),
      Nat.add_sub_cancel_left, split', List.getElem?_append_right (by simp)]
    simp
  · rintro k after before ⟨other, atOther, solidOther⟩
    have step : k - low - others.length = k - low - others.length - 1 + 1 := by omega
    rw [← getElem?_window ts (by omega : low ≤ k) before, split',
      List.getElem?_append_right (by rw [List.length_reverse]; omega), List.length_reverse, step,
      List.getElem?_cons_succ] at atOther
    have space := blank other (List.mem_reverse.mp (List.mem_of_getElem? atOther))
    simp [solidOther] at space

end Windows

/-- What has been taken since a place, the last token first. -/
theorem TokenCursor.take_before (s : TokenCursor κ π) {mark : Nat} (since : mark ≤ s.position) :
    s.before.take (s.position - mark) = (window s.tokens mark s.position).reverse := by
  have total := s.position_add_left
  have size : (s.tokens.take s.position).length = s.position := by
    rw [List.length_take]
    omega
  rw [s.before_eq_take, List.take_reverse, size, window, Nat.sub_sub_self since]

/-- The extent since a place, when something else than layout has been taken since:
it is tight, with nothing but layout around it. -/
theorem TokenCursor.spanSince_hull (s : TokenCursor κ π) (mark : Nat)
    (solid : ∃ k, mark ≤ k ∧ k < s.position ∧ Solid s.tokens k) :
    ∃ first last a b, Hull s.tokens mark s.position first last ∧
      s.tokens[first]? = some a ∧ s.tokens[last]? = some b ∧
      s.spanSince mark = a.span.cover b.span := by
  obtain ⟨k, afterMark, beforeEnd, found, atFound, solidFound⟩ := solid
  have total := s.position_add_left
  have inWindow : found ∈ window s.tokens mark s.position :=
    List.mem_of_getElem? ((getElem?_window s.tokens afterMark beforeEnd).trans atFound)
  have isSolid : (!found.isSpace) = true := by rw [solidFound]; rfl
  obtain ⟨a, foundA⟩ := Option.isSome_iff_exists.mp
    (List.find?_isSome (p := (!·.isSpace)).mpr ⟨found, inWindow, isSolid⟩)
  obtain ⟨b, foundB⟩ := Option.isSome_iff_exists.mp
    (List.find?_isSome (p := (!·.isSpace)).mpr ⟨found, List.mem_reverse.mpr inWindow, isSolid⟩)
  obtain ⟨first, low, inside, atFirst, solidA, before⟩ := find_window (by omega) foundA
  obtain ⟨last, -, high, atLast, solidB, behind⟩ := find_window_reverse (by omega) foundB
  have solidFirst : Solid s.tokens first := ⟨a, atFirst, solidA⟩
  have ordered : first ≤ last := by
    rcases Nat.lt_or_ge last first with less | ordered
    · exact absurd solidFirst (behind first less inside)
    · exact ordered
  refine ⟨first, last, a, b, ⟨low, ordered, high, solidFirst, ⟨b, atLast, solidB⟩, before, behind⟩,
    atFirst, atLast, ?_⟩
  unfold spanSince
  simp only [s.take_before (by omega : mark ≤ s.position), List.head?_filter, foundB]
  rw [List.filter_reverse, List.getLast?_reverse, List.head?_filter, foundA]

end ScriptFront
