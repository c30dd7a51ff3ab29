import ScriptFront.Proofs.Scanned
import ScriptFront.Proofs.WellFormed

namespace ScriptFront.Script

variable {base opened : List Opening} {s : Stretch} {trees : List Tree}

/-- Tokens of no strict kind leave open what is open. -/
theorem Opens.plain_append {word : List TokenKind} {ts : List (Token TokenKind)} [InCode opened]
    (opens : Opens opened word) (free : ∀ token ∈ ts, token.kind ∉ strictKinds) :
    Opens opened (word ++ ts.map (·.kind)) := by
  induction ts generalizing word with
  | nil => simpa using opens
  | cons token ts ih =>
    obtain ⟨first, others⟩ := List.forall_mem_cons.mp free
    simpa using ih (opens.turn (.plain first)) others

/-- A genuine name is of no strict kind, so a whole run of names can be passed over. -/
theorem NameToken.free {token : Token TokenKind} (isName : NameToken token)
    (genuine : Genuine token) : token.kind ∉ strictKinds := by
  rcases isName with ofKind | word
  · rw [ofKind]
    decide
  · exact genuine.free (Or.inr word)

/-- The tokens of a leaf are no delimiters, except in a regular expression. -/
theorem Leaf.kinds_free {tokens : List (Token TokenKind)} {c : Construct}
    (leaf : Leaf .code tokens c) (genuine : ∀ token ∈ tokens, Genuine token)
    (plain : c.isRegExp = false) :
    ∀ token ∈ tokens, token.kind ∉ strictKinds := by
  have solid {kind : TokenKind} (other : kind ∉ strictKinds) {token : Token TokenKind}
      (ofKind : token.kind = kind) : token.kind ∉ strictKinds := ofKind ▸ other
  have content {found : Option (Token TokenKind)} (ofContent : ∀ token ∈ found,
      token.kind = .commentText) : ∀ token ∈ found.toList, token.kind ∉ strictKinds :=
    fun token member => solid (by decide) (ofContent token (Option.mem_toList.mp member))
  cases leaf with
  | name isName => simpa using isName.free (genuine _ (by simp))
  | privateName ofHash isName =>
    simpa using ⟨solid (by decide) ofHash, isName.free (genuine _ (by simp))⟩
  | string ofKind => simpa using solid (by decide) ofKind
  | whole ofKind _ => simpa using solid (by decide) ofKind
  | decimal ofWhole ofPeriod ofFraction _ =>
    simpa using
      ⟨solid (by decide) ofWhole, solid (by decide) ofPeriod, solid (by decide) ofFraction⟩
  | regExp => cases plain
  | blockComment ofOpener ofContent ofCloser =>
    refine List.forall_mem_cons.mpr ⟨solid (by decide) ofOpener, ?_⟩
    exact List.forall_mem_append.mpr ⟨content ofContent, by simpa using solid (by decide) ofCloser⟩
  | lineComment ofOpener ofContent =>
    exact List.forall_mem_cons.mpr ⟨solid (by decide) ofOpener, content ofContent⟩

/-- Whatever derives some trees moves the open delimiters as the derivation says. The induction is
over the derivation; a regular expression is excluded, since its tokens are those of code and may be
delimiters. -/
theorem Derives.opens (derives : Derives base opened s trees)
    (genuine : ∀ token ∈ s.tokens, Genuine token)
    (plain : ∀ t ∈ trees, Everywhere (·.kind.isRegExp = false) t) {word : List TokenKind}
    (before : Opens base word) : Opens opened (word ++ s.tokens.map (·.kind)) := by
  have inside {c : Construct} {span : Span} {trees : List Tree}
      (parts : ∀ t, t ∈ c.children ↔ t ∈ trees)
      (plain : ∀ t ∈ [(⟨c, span⟩ : Tree)], Everywhere (·.kind.isRegExp = false) t) :
      ∀ t ∈ trees, Everywhere (·.kind.isRegExp = false) t := fun t member =>
    (plain _ (List.mem_singleton_self _)).children t ((parts t).mpr member)
  induction derives generalizing word with
  | nil => simpa using before
  | token _ turn ih =>
    obtain ⟨earlier, -⟩ := List.forall_mem_append.mp genuine
    simpa using (ih earlier plain before).turn turn
  | space _ layout ih =>
    obtain ⟨earlier, here⟩ := List.forall_mem_append.mp genuine
    have solid := (here _ (List.mem_singleton_self _)).free (Or.inl layout)
    simpa using (ih earlier plain before).turn (.plain solid)
  | append _ _ first second =>
    obtain ⟨inFirst, inSecond⟩ := List.forall_mem_append.mp genuine
    obtain ⟨plainFirst, plainSecond⟩ := List.forall_mem_append.mp plain
    simpa using second inSecond plainSecond (first inFirst plainFirst before)
  | @leaf base region tokens kind span fits leaf _ =>
    have plainKind : kind.isRegExp = false := (plain _ (List.mem_singleton_self _)).here
    cases region with
    | code =>
      have code : InCode base := ⟨fits⟩
      exact before.plain_append (leaf.kinds_free genuine plainKind)
    | template =>
      cases leaf with
      | segment ofText =>
        rcases base with _ | ⟨_ | _ | _ | _ | _, outer⟩ <;> cases fits
        simpa [ofText] using before.turn .text
  | node _ parts _ _ ih => exact ih genuine (inside parts plain) before
  | module _ parts _ _ ih => exact ih genuine (inside parts plain) before
  | again _ _ _ ih => exact ih genuine (List.forall_mem_cons.mp plain).2 before

/-- The modes that a lexer is in are those that the kinds of the tokens behind it lead to. -/
theorem places_of_delimited {source : String} {ts before : List (Token TokenKind)} {modes : Modes}
    {cursor : Cursor} (run : tokenize source = .ok ts)
    (delimited : Delimited .code (ts.map (·.kind)))
    (reach : lexRule.Reach source before modes cursor) : before <+: ts ∧
      ∃ opened, Opens opened (before.map (·.kind)) ∧ modes.stack = modesIn opened := by
  obtain ⟨result, -, whole⟩ := reach.run_rest
  obtain ⟨after, rfl⟩ : ∃ after, ts = before ++ after := by
    rw [tokenize] at run
    rw [run] at whole
    cases result with
    | error e => cases whole
    | ok after => exact ⟨after, Except.ok.inj whole⟩
  refine ⟨List.prefix_append _ _, ?_⟩
  obtain ⟨opened, opens⟩ := delimited.followed (before.map (·.kind)) (after.map (·.kind))
    List.map_append [] [] (.whole .nil) rfl
  refine ⟨opened, opens, ?_⟩
  rw [(reach_spelled reach).2]
  exact opens.lexer_modes.1

/-- The tokens of statements without regular expressions are a word of closed delimiters. -/
theorem delimited_of_derives {source : String} {ts : List (Token TokenKind)} {marks : Bool}
    {body : List Tree} (lexing : tokenize source = .ok ts) (derives : Derives [] [] ⟨ts, marks⟩ body)
    (plain : ∀ entry ∈ preorder 0 (programNode body), entry.2.kind.isRegExp = false) :
    Delimited .code (ts.map (·.kind)) := by
  have everywhere : Everywhere (·.kind.isRegExp = false) (programNode body) :=
    everywhere_of_preorder 0 _ fun entry member => plain entry member
  have inside := (everywhere_programNode.mp everywhere).2
  cases derives.opens (tokenize_genuine lexing) inside (.whole .nil) with
  | whole delimited => exact delimited

/-- In an accepted source without regular expressions every delimiter is closed by its
partner, and nothing stands in it that is not known; and wherever the lexer is asked for
the next token, its modes are those of the delimiters that are open there. -/
theorem parseWith_delimited {source : String} {options : Options} {parsed : Parsed}
    (run : parseWith source options = .ok parsed)
    (plain : ∀ entry ∈ preorder 0 parsed.tree, entry.2.kind.isRegExp = false) :
    ∃ ts, tokenize source = .ok ts ∧ Delimited .code (ts.map (·.kind)) ∧
      (∀ token ∈ ts, token.kind ∉ [.unknown, .backSlash, .ampersand, .pipe]) ∧
      ∀ before modes cursor, lexRule.Reach source before modes cursor →
        before <+: ts ∧ ∃ opened, Opens opened (before.map (·.kind)) ∧
          modes.stack = modesIn opened := by
  obtain ⟨ts, marks, body, lexing, derives, same⟩ := parseWith_derives run
  have delimited := delimited_of_derives lexing derives (same ▸ plain)
  exact ⟨ts, lexing, delimited, fun token member => delimited.known (List.mem_map_of_mem member),
    fun before modes cursor reach => places_of_delimited lexing delimited reach⟩

theorem parseWith_plain {source : String}
    (accepted : ((parseWith source {}).map fun parsed =>
      (preorder 0 parsed.tree).all (!·.2.kind.isRegExp)) = .ok true) :
    ∃ parsed, parseWith source {} = .ok parsed ∧
      ∀ entry ∈ preorder 0 parsed.tree, entry.2.kind.isRegExp = false := by
  cases run : parseWith source {} with
  | error e =>
    rw [run] at accepted
    cases accepted
  | ok parsed =>
    rw [run] at accepted
    have plain := List.all_eq_true.mp (Except.ok.inj accepted)
    exact ⟨parsed, rfl, fun entry member => by simpa using plain entry member⟩

theorem parseWith_delimited_template : ∃ ts, tokenize "\x60a$\x7b[b, \x60c\x60]\x7dd\x60" = .ok ts ∧
    Delimited .code (ts.map (·.kind)) := by
  obtain ⟨parsed, run, plain⟩ : ∃ parsed, parseWith "\x60a$\x7b[b, \x60c\x60]\x7dd\x60" {} =
      .ok parsed ∧ ∀ entry ∈ preorder 0 parsed.tree, entry.2.kind.isRegExp = false :=
    parseWith_plain (by decide +kernel)
  obtain ⟨ts, lexing, delimited, -⟩ := parseWith_delimited run plain
  exact ⟨ts, lexing, delimited⟩

end ScriptFront.Script
