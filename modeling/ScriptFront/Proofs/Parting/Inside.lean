import ScriptFront.Proofs.Everywhere
import ScriptFront.Proofs.Parting.Neighbours

namespace ScriptFront.Script

open ScriptFront.Parser

variable {ts : List (Token TokenKind)} {i : Nat} {α β : Type}

/-- The statements that a construct lists. Only programs, blocks and cases list any; the body of a
loop or of a branch is one statement, which has no neighbour. -/
def Construct.statements : Construct → List Tree
  | program body => body
  | blockStatement body => body
  | switchCase _ consequent => consequent
  | _ => []

/-- The lists of statements in a tree are all kept apart by the tokens, those of the tree itself and
of every construct inside it. -/
abbrev Neat (ts : List (Token TokenKind)) (t : Tree) : Prop :=
  Everywhere (fun u => u.kind.statements.IsChain (Parted ts)) t

theorem neat_some {t : Tree} (neat : Neat ts t) : ∀ u ∈ some t, Neat ts u := by
  rintro u ⟨⟩
  exact neat

/-- The trees in one part of a construct are neat. -/
def FieldNeat (ts : List (Token TokenKind)) : Field → Prop
  | .child t => Neat ts t
  | .child? t => ∀ u ∈ t, Neat ts u
  | .children nodes => ∀ u ∈ nodes, Neat ts u
  | _ => True

theorem FieldNeat.mem {field : Field} (neat : FieldNeat ts field) {t : Tree}
    (member : t ∈ field.trees) : Neat ts t := by
  cases field with
  | child inner =>
    obtain rfl := List.mem_singleton.mp member
    exact neat
  | child? inner => exact neat t (Option.mem_toList.mp member)
  | children nodes => exact neat t member
  | _ => exact absurd member List.not_mem_nil

/-- All parts of a construct are neat. -/
def PartsNeat (ts : List (Token TokenKind)) (c : Construct) : Prop :=
  c.view.2.Forall fun part => FieldNeat ts part.2

/-- Wherever it starts among the tokens, what the rule finds satisfies the property. -/
def Finds (ts : List (Token TokenKind)) (p : Rule α) (post : α → Prop) : Prop :=
  ∀ i, Lands ts i p fun a _ => post a

namespace Finds

variable {p q : Rule α} {f : α → Rule β} {post : α → Prop} {goal : β → Prop}

/-- Steps may be put together with what the first one found at hand in the second, wherever they
start. -/
theorem bind (first : Finds ts p post) (next : ∀ a, post a → Finds ts (f a) goal) :
    Finds ts (p >>= f) goal :=
  fun i => (first i).bind fun a j _ found => next a found j

theorem skip (steady : ∀ n, Steady n p p) (next : ∀ a, Finds ts (f a) goal) :
    Finds ts (p >>= f) goal :=
  fun _ => .skip steady fun a j _ => next a j

theorem ite {c : Bool} (yes : Finds ts p post) (no : Finds ts q post) :
    Finds ts (if c then p else q) post :=
  fun i => (yes i).ite (no i)

theorem pure {a : α} (holds : post a) : Finds ts (Pure.pure a : Rule α) post :=
  fun _ => lands_pure holds

theorem map {h : α → β} (found : Finds ts p fun a => goal (h a)) : Finds ts (h <$> p) goal :=
  fun i => (found i).map

theorem complain (complaint : Complaint) : Finds ts (Script.complain complaint) post :=
  fun _ => lands_fail _

theorem mark {f : Nat → Rule β} (next : ∀ start, Finds ts (f start) goal) :
    Finds ts (Parser.mark >>= f) goal :=
  .skip (fun _ => steady_observe _) next

theorem seen {γ : Type} {view : State → γ} {f : γ → Rule β} (next : ∀ seen, Finds ts (f seen) goal) :
    Finds ts (observe view >>= f) goal :=
  .skip (fun _ => steady_observe _) next

theorem test {view : State → Bool} (yes : Finds ts p post) (no : Finds ts q post) :
    Finds ts (observe view >>= fun there => if there then p else q) post :=
  .seen fun _ => .ite yes no

theorem trim {f : Unit → Rule β} (next : Finds ts (f ()) goal) :
    Finds ts (Script.trim >>= f) goal :=
  .skip (fun _ => trim_steady) fun _ => next

theorem eat {f : Token TokenKind → Rule β} (next : ∀ token, Finds ts (f token) goal) :
    Finds ts (Script.eat >>= f) goal :=
  .skip (fun _ => eat_taking.steady) next

theorem expect {kind : TokenKind} {complaint : Complaint} {f : Token TokenKind → Rule β}
    (next : ∀ token, Finds ts (f token) goal) :
    Finds ts (Script.expect kind complaint >>= f) goal :=
  .skip (fun _ => (expect_taking kind complaint).steady) next

theorem accept {kind : TokenKind} (yes : Finds ts p post) (no : Finds ts q post) :
    Finds ts (Parser.accept kind >>= fun there => if there then p else q) post :=
  .skip (fun _ => steady_accept kind) fun _ => .ite yes no

/-- A new node is neat if its parts are, and if the statements that it lists itself are kept apart.
Most constructs list none. -/
theorem node {start : Nat} {c : Construct} (chain : c.statements.IsChain (Parted ts))
    (parts : PartsNeat ts c) : Finds ts (makeNode start c : Rule Tree) (Neat ts) := by
  intro i
  apply (lands_makeNode start c).mono
  rintro _ j _ ⟨-, s, -, -, rfl⟩
  refine .node chain fun child member => ?_
  obtain ⟨part, isPart, inPart⟩ := List.mem_flatMap.mp member
  exact (List.forall_iff_forall_mem.mp parts part isPart).mem inPart

/-- A construct that lists no statements is neat when its parts are. -/
theorem plain {start : Nat} {c : Construct} (unlisted : c.statements = [])
    (parts : PartsNeat ts c) : Finds ts (makeNode start c : Rule Tree) (Neat ts) :=
  .node (by rw [unlisted]; exact List.isChain_nil) parts

theorem some {p : Rule Tree} (found : Finds ts p (Neat ts)) :
    Finds ts (Option.some <$> p) fun maybe => ∀ t ∈ maybe, Neat ts t :=
  .map fun i => (found i).mono fun _ _ _ neat => neat_some neat

/-- A loop over items. -/
theorem items {stop : State → Bool} {more : Rule Bool} (each : Finds ts p post)
    (goOn : ∀ n, Steady n more more) :
    Finds ts (Parser.items stop p more) fun found => ∀ a ∈ found, post a := by
  refine lands_items each (fun _ => lands_of_steady goOn) (fun _ => nofun) ?_
  exact fun _ _ _ _ _ _ first _ others => List.forall_mem_cons.mpr ⟨first, others⟩

/-- What holds of each item holds of all items of a list. -/
theorem commaSeparated {stop : List TokenKind} (each : Finds ts p post) :
    Finds ts (Script.commaSeparated stop p) fun found => ∀ a ∈ found, post a :=
  .items each fun _ => commaFollows_steady

theorem separated {stop : List TokenKind} (each : Finds ts p post) :
    Finds ts (Script.separated stop p) fun found => ∀ a ∈ found, post a :=
  .items each fun _ => trimSeparators_steady.bind fun _ => steady_pure _

end Finds

section Leaves

theorem anyName_neat (anyWord : Bool) : Finds ts (anyName anyWord) (Neat ts) := by
  have text : ∀ n, Steady n (nameText anyWord) (nameText anyWord) := fun _ =>
    (nameText_taking anyWord).steady
  refine .mark fun start => .accept ?_ ?_
  · exact .skip text fun symbol => .plain rfl trivial
  · exact .skip text fun symbol => .plain rfl trivial

theorem plainName_neat : Finds ts plainName (Neat ts) :=
  .mark fun _ => .skip (fun _ => (nameText_taking false).steady) fun _ => .plain rfl trivial

theorem stringLiteral_neat : Finds ts stringLiteral (Neat ts) :=
  .mark fun _ => .expect fun _ => .plain rfl ⟨trivial, trivial⟩

theorem numericNode_neat (start : Nat) (raw : String) (float : Bool) : Finds ts
    (match Double.read? raw with
      | some value => makeNode start (.numericLiteral value raw float)
      | none => complain .numericLiteral : Rule Tree) (Neat ts) := by
  cases Double.read? raw with
  | some value => exact .plain rfl ⟨trivial, trivial, trivial⟩
  | none => exact .complain _

theorem numericLiteral_neat : Finds ts numericLiteral (Neat ts) := by
  refine .mark fun start => .expect fun whole => .skip (fun _ => steady_accept _) fun float => ?_
  exact .ite (.expect fun _ => numericNode_neat _ _ _) (numericNode_neat _ _ _)

theorem regExpLiteral_neat : Finds ts regExpLiteral (Neat ts) := by
  have node (start : Nat) (pattern : String) : Finds ts
      (do
        let flags := (← consumeIf .identifier).map (·.text)
        makeNode start (.regExpLiteral pattern flags ("/" ++ pattern ++ "/" ++ flags.getD "")) :
        Rule Tree) (Neat ts) :=
    .skip (fun _ => steady_consumeIf _) fun _ => .plain rfl ⟨trivial, trivial, trivial⟩
  refine .mark fun start => .skip (fun _ => taking_consume.steady) fun _ => .seen fun budget => ?_
  refine .skip (fun _ => regExpText_steady budget) fun _ => .ite (.expect fun _ => ?_) ?_
  · exact node _ _
  · exact node _ _

theorem blockComment_neat : Finds ts blockComment (Neat ts) := by
  refine .mark fun _ => .skip (fun _ => taking_consume.steady) fun _ => ?_
  refine .skip (fun _ => steady_consumeIf _) fun _ => .expect fun _ => ?_
  exact .bind (.plain rfl trivial) fun _ neat => .trim (.pure neat)

theorem lineComment_neat : Finds ts lineComment (Neat ts) := by
  refine .mark fun _ => .skip (fun _ => taking_consume.steady) fun _ => ?_
  refine .skip (fun _ => steady_consumeIf _) fun _ => .bind (.plain rfl trivial) fun _ neat => ?_
  exact .test (.expect fun _ => .trim (.pure neat)) (.trim (.pure neat))

end Leaves

end ScriptFront.Script
