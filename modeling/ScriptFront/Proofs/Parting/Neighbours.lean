import ScriptFront.Proofs.Parting.Ends
import ScriptFront.Proofs.Spans.Statements

namespace ScriptFront.Script

open ScriptFront.Parser

variable {ts : List (Token TokenKind)} {i j k l : Nat} {a b t : Tree}

/-- The token lies behind the first node and before the second one. -/
def Amid (token : Token TokenKind) (a b : Tree) : Prop :=
  a.span.stop.offset ≤ token.span.start.offset ∧ token.span.stop.offset ≤ b.span.start.offset

/-- What stands between a statement and the one behind it, in terms of tokens. There are only
separators. One of them is a semicolon if the first statement ends in an expression and the second
one begins with a token that goes on with every expression, and also if the first one ends where a
value is missing. -/
structure Parted (ts : List (Token TokenKind)) (a b : Tree) : Prop where
  places : ∃ low high, low ≤ high ∧ a.span.stop.offset = edge ts low ∧
    b.span.start.offset = edge ts high
  separators : ∀ token ∈ ts, Amid token a b → isSeparator token = true
  joining : a.kind.endsOpen = true → ∀ token ∈ ts, token.span.start = b.span.start →
    token.kind ∈ joiningKinds false → ∃ token ∈ ts, Amid token a b ∧ token.kind = .semicolon
  bare : a.kind.endsBare = true → ∃ token ∈ ts, Amid token a b ∧ token.kind = .semicolon

/-- A statement that was found between two places: it takes all between them that is no
separator, begins with a token that may begin a statement, and has found its end if it
had to look for it. -/
structure Bounded (ts : List (Token TokenKind)) (i j : Nat) (t : Tree) : Prop where
  spanned : Spanned ts i j t
  begins : ∀ token ∈ ts, token.span.start = t.span.start → token.kind ∉ strayKinds
  ended : t.kind.endsOpen = true → ∃ e ≤ j, t.span.stop.offset ≤ edge ts e ∧
    Ended ts t.kind.endsBare e

theorem Construct.endsOpen_of_endsBare {c : Construct} (bare : c.endsBare = true) :
    c.endsOpen = true := by
  cases c <;> first | rfl | cases bare

section Places

variable (measured : Measured ts)
include measured

/-- A statement that takes the token at the place begins with it. -/
theorem Spanned.begins (spanned : Spanned ts i j t) {token : Token TokenKind}
    (atToken : ts[i]? = some token) (solid : isSeparator token = false) :
    token.span.start = t.span.start := by
  obtain ⟨first, last, x, y, low, ordered, high, atFirst, -, -, -, span⟩ := spanned.laid.between
  have holds := (spanned.tight i token (Nat.le_refl i) (by omega) atToken solid).1
  have start := (measured.span_at atToken).1
  have start' := (measured.span_at atFirst).1
  have filled := measured.edge_lt atToken
  rw [span] at holds ⊢
  dsimp only at holds ⊢
  rcases Nat.eq_or_lt_of_le low with rfl | less
  · cases atToken.symm.trans atFirst
    rfl
  · have order := edge_mono ts (by omega : i + 1 ≤ first)
    omega

end Places

section Bounded

variable (lexed : Lexed ts) {r : Rules} (settled : ∀ n, Rules.Settled n r r) (stops : r.Stops ts)
  (lays : r.Lays ts) (allowIn : Bool)
include lexed

omit lexed in
/-- No statement begins with a stray token. -/
theorem bareStatement_begins {s u : State} (run : bareStatement r allowIn s = .ok t u)
    {token : Token TokenKind} (current : s.current = some token) : token.kind ∉ strayKinds := by
  intro stray
  have there : s.currentKind = some token.kind := by rw [TokenCursor.currentKind, current]; rfl
  obtain ⟨e, v, fails⟩ : Refuses (bareStatement r allowIn) s := refuses_bareStatement there stray
  rw [run] at fails
  cases fails

include settled stops lays

/-- Every statement takes all that is no separator between the place where it starts and the one
where it stops. -/
theorem statement_bounded (i : Nat) :
    Lands ts i (statement r allowIn) fun t j => Bounded ts i j t := by
  have measured := lexed.measured
  apply (trim_lands.and trim_stop).bind
  rintro _ j before ⟨gap, solid⟩
  have made : Lands ts j (bareStatement r allowIn) fun t k =>
      (Spanned ts j k t ∧ EndFound ts t k) ∧
        ∀ token, ts[j]? = some token → token.kind ∉ strayKinds := by
    refine ((bareStatement_spanned lexed lays allowIn j).and
      (bareStatement_ends settled stops allowIn j)).also fun s t u atTokens atPlace run token atFirst => ?_
    rw [← atTokens, ← atPlace, ← s.current_eq] at atFirst
    exact bareStatement_begins allowIn run atFirst
  apply made.bind
  rintro t k onward ⟨⟨spanned, ended⟩, first⟩
  apply trimSeparators_lands.bind
  intro _ l further behind
  refine lands_pure ⟨spanned.widen gap behind before further, ?_, fun looks => ?_⟩
  · intro token member starts
    obtain ⟨m, atToken⟩ := List.getElem?_of_mem member
    obtain ⟨n, after, -, _, atN, -⟩ := spanned.laid.solid
    have inside := (List.getElem?_eq_some_iff.mp atN).1
    have atFirst := List.getElem?_eq_getElem (by omega : j < ts.length)
    have free := first _ atFirst
    have taken : isSeparator ts[j] = false := by
      refine Bool.or_eq_false_iff.mpr ⟨(solid _ atFirst).1, decide_eq_false fun semicolon => free ?_⟩
      rw [semicolon]
      decide
    have same := starts.trans (spanned.begins measured atFirst taken).symm
    obtain rfl := measured.place_eq atToken atFirst same
    cases atToken.symm.trans atFirst
    exact free
  · exact ⟨k, further, (spanned.laid.between.offsets measured).2.2, ended looks⟩

end Bounded

section Parted

variable (measured : Measured ts) (first : Bounded ts i j a) (gap : Gap ts j k)
  (second : Bounded ts k l b)
include measured first gap second

/-- All that lies between two statements are separators: the rest is held by one of them. -/
theorem Bounded.amid {token : Token TokenKind} (member : token ∈ ts) (amid : Amid token a b) :
    isSeparator token = true := by
  obtain ⟨behind, before⟩ := amid
  obtain ⟨n, atToken⟩ := List.getElem?_of_mem member
  obtain ⟨start, stop⟩ := measured.span_at atToken
  have filled := measured.edge_lt atToken
  have ofFirst := first.spanned.laid.between.offsets measured
  have ofSecond := second.spanned.laid.between.offsets measured
  refine Bool.not_eq_false _ |>.mp fun other => ?_
  rcases Nat.lt_or_ge n i with earlier | late
  · have order := edge_mono ts (by omega : n + 1 ≤ i)
    omega
  rcases Nat.lt_or_ge n j with inFirst | late
  · have holds := first.spanned.tight n token late inFirst atToken other
    have stops := holds.2
    omega
  rcases Nat.lt_or_ge n k with between | late
  · rw [gap n token late between atToken] at other
    cases other
  rcases Nat.lt_or_ge n l with inSecond | late
  · have holds := second.spanned.tight n token late inSecond atToken other
    have starts := holds.1
    omega
  · have order := edge_mono ts late
    omega

/-- At the place where the first statement has found its end there is a semicolon, or the
second statement begins. -/
theorem Bounded.semicolon_or (onward : j ≤ k) {e : Nat} (within : e ≤ j) (behind : a.span.stop.offset ≤ edge ts e)
    (solid : Stop ts [] e) : (∃ token ∈ ts, Amid token a b ∧ token.kind = .semicolon) ∨
      ∃ token ∈ ts, ts[e]? = some token ∧ token.span.start = b.span.start := by
  obtain ⟨f, _, x, _, low, ordered, high, atFirst, -, atLast, -, span⟩ := second.spanned.laid.between
  have starts : x.span.start = b.span.start := by rw [span]
  rcases Nat.eq_or_lt_of_le (by omega : e ≤ f) with rfl | less
  · exact Or.inr ⟨x, List.mem_of_getElem? atFirst, atFirst, starts⟩
  · have inside := (List.getElem?_eq_some_iff.mp atFirst).1
    have atEnd := List.getElem?_eq_getElem (by omega : e < ts.length)
    have member := List.mem_of_getElem? atEnd
    have startX := (measured.span_at atFirst).1
    obtain ⟨start, stop⟩ := measured.span_at atEnd
    have order := edge_mono ts (by omega : e + 1 ≤ f)
    have amid : Amid ts[e] a b := ⟨by omega, by rw [← starts]; omega⟩
    have separator := first.amid measured gap second member amid
    rw [isSeparator, (solid _ atEnd).1, Bool.false_or] at separator
    exact Or.inl ⟨ts[e], member, amid, of_decide_eq_true separator⟩

/-- Two statements found one behind the other are kept apart by what stands in between. If the first
could have gone on, the place where it ended shows a semicolon there. -/
theorem Bounded.parted (onward : j ≤ k) : Parted ts a b where
  places := by
    obtain ⟨_, last, _, x, -, -, high, -, -, atLast, -, span⟩ := first.spanned.laid.between
    obtain ⟨next, _, y, _, low, -, -, atNext, -, -, -, span'⟩ := second.spanned.laid.between
    refine ⟨last + 1, next, by omega, ?_, ?_⟩
    · rw [span]
      exact (measured.span_at atLast).2
    · rw [span']
      exact (measured.span_at atNext).1
  separators _ member amid := first.amid measured gap second member amid
  joining looks token member starts joins := by
    obtain ⟨e, within, behind, stop, -⟩ := first.ended looks
    rcases first.semicolon_or measured gap second onward within behind
      (stop.mono (List.nil_subset _)) with semicolon | ⟨other, _, atEnd, starts'⟩
    · exact semicolon
    · obtain ⟨n, atToken⟩ := List.getElem?_of_mem member
      obtain rfl := measured.place_eq atToken atEnd (starts.trans starts'.symm)
      exact absurd joins (stop token atToken).2
  bare isBare := by
    obtain ⟨e, within, behind, stop, only⟩ :=
      first.ended (Construct.endsOpen_of_endsBare isBare)
    rcases first.semicolon_or measured gap second onward within behind
      (stop.mono (List.nil_subset _)) with semicolon | ⟨other, member, atEnd, starts⟩
    · exact semicolon
    · exact absurd (only isBare other atEnd) (second.begins other member starts)

end Parted

/-- The statements of a list that a loop has found. -/
theorem items_parted {stop : State → Bool} {item : Rule Tree} (measured : Measured ts)
    (each : ∀ i, Lands ts i item fun t j => Bounded ts i j t) (i : Nat) :
    Lands ts i (items stop item do trimSeparators; return true) fun body _ =>
      body.IsChain (Parted ts) ∧ ∀ first ∈ body.head?, ∃ k, Bounded ts i k first := by
  have goOn (i : Nat) : Lands ts i (do trimSeparators; return true : Rule Bool)
      fun _ j => Gap ts i j :=
    trimSeparators_lands.bind fun _ _ _ gap => lands_pure gap
  apply lands_items_between each goOn
  · exact fun i => ⟨List.isChain_nil, nofun⟩
  · rintro i j k l a body found onward gap ⟨chain, next⟩
    refine ⟨List.isChain_cons.mpr ⟨fun b isNext => ?_, chain⟩, fun first isFirst => ?_⟩
    · obtain ⟨_, following⟩ := next b isNext
      exact found.parted measured gap following onward
    · obtain rfl := Option.some.inj isFirst
      exact ⟨j, found⟩

end ScriptFront.Script
