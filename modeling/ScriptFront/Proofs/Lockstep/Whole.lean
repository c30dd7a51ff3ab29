import ScriptFront.Proofs.Derivation.Whole
import ScriptFront.Proofs.Lockstep.Statements

namespace ScriptFront.Script.Lockstep

open ScriptFront.Parser

variable {sim : Lockstep} {lost : Prop} {pre post : State → State → Prop} {α : Type}
  {same : α → α → Prop}

/-- Rules that are deep enough on both sides do what rules of one depth do. -/
theorem within_whole (rule : Rules → Rule α)
    (deep : ∀ (s : State) depth, s.rest.length < depth →
      rule Rules.whole s = rule (Rules.refusing.unfolded depth) s)
    (each : ∀ depth, sim.Within lost pre post same (rule (Rules.refusing.unfolded depth))
      (rule (Rules.refusing.unfolded depth))) :
    sim.Within lost pre post same (rule Rules.whole) (rule Rules.whole) := by
  intro s s' start
  have first : s.rest.length < max s.rest.length s'.rest.length + 1 := by omega
  have second : s'.rest.length < max s.rest.length s'.rest.length + 1 := by omega
  rw [deep s _ first, deep s' _ second]
  exact each _ s s' start

theorem Leaves.inner_whole (leaves : sim.Leaves) : sim.Inner Rules.whole := by
  have settled := Rules.settled_whole Rules.refusing
  have inner := leaves.inner_unfolded
  exact {
    toLeaves := leaves
    settled := Rules.whole_settled
    statement := fun allowIn => within_whole (·.statement allowIn)
      (fun s depth deep => ((settled depth).statement allowIn s deep).1)
      fun depth => (inner depth).statement allowIn
    expression := fun allowIn => within_whole (·.expression allowIn)
      (fun s depth deep => ((settled depth).expression allowIn s deep).1)
      fun depth => (inner depth).expression allowIn
    binding := fun allowIn => within_whole (·.binding allowIn)
      (fun s depth deep => ((settled depth).binding allowIn s deep).1)
      fun depth => (inner depth).binding allowIn
    ifStatement := fun allowIn => within_whole (·.ifStatement allowIn)
      (fun s depth deep => ((settled depth).ifStatement allowIn s deep).1)
      fun depth => (inner depth).ifStatement allowIn }

theorem parseStatement_within (leaves : sim.Leaves) :
    sim.Within lost sim.near sim.far SameTree parseStatement parseStatement :=
  leaves.inner_whole.statement true

/-- Where the parses end together they find the same statements. -/
theorem statementList_within (leaves : sim.Leaves) (strict : sim.strict) :
    sim.Within lost sim.far sim.far SameTrees statementList statementList := by
  have ends : EndsInTime parseStatement (do trimSeparators; return true) :=
    leaves.inner_whole.ends.statements true
  refine trimSeparators_within.bind fun _ _ _ => ?_
  refine .to (items_within ends (fun far => Or.inl ?_) (.from (parseStatement_within leaves) ?_)
    (trimSeparators_within.bind fun _ _ _ => pure_within rfl) stays_separators) id
    eraseAll_eq_of_forall₂
  · rw [sim.willContinue_eq (sim.near_of_far far (Or.inl strict)) (Or.inl strict)]
  · exact fun here => sim.near_of_far here.1 (Or.inl strict)

end ScriptFront.Script.Lockstep
