import ScriptFront.Script.Walk

namespace ScriptFront.Script

/-- A property of nodes holds of a tree and of all trees inside it. Trees are nested in lists of
parts, so this is an inductive statement and not a recursion over the construct. -/
inductive Everywhere (P : Tree → Prop) : Tree → Prop
  | node {t : Tree} : P t → (∀ child ∈ t.kind.children, Everywhere P child) → Everywhere P t

theorem Everywhere.here {P : Tree → Prop} {t : Tree} (all : Everywhere P t) : P t := by
  cases all with
  | node here _ => exact here

/-- What holds everywhere in a tree holds everywhere in each part of it. -/
theorem Everywhere.children {P : Tree → Prop} {t : Tree} (all : Everywhere P t) :
    ∀ child ∈ t.kind.children, Everywhere P child := by
  cases all with
  | node _ inside => exact inside

/-- The walk over a tree meets nothing but the trees inside it. -/
theorem Everywhere.preorder {P : Tree → Prop} {t : Tree} (all : Everywhere P t) (depth : Nat) :
    ∀ entry ∈ preorder depth t, P entry.2 := by
  induction all generalizing depth with
  | node here _ ih =>
    intro entry member
    rw [Script.preorder] at member
    rcases List.mem_cons.mp member with rfl | inside
    · exact here
    · obtain ⟨⟨child, isChild⟩, -, inChild⟩ := List.mem_flatMap.mp inside
      exact ih child isChild (depth + 1) entry inChild

/-- What holds of all that the walk meets holds everywhere. -/
theorem everywhere_of_preorder {P : Tree → Prop} (depth : Nat) (t : Tree)
    (all : ∀ entry ∈ preorder depth t, P entry.2) : Everywhere P t := by
  induction depth, t using preorder.induct with
  | case1 depth t ih =>
    rw [preorder] at all
    obtain ⟨here, inside⟩ := List.forall_mem_cons.mp all
    refine .node here fun child isChild => ih child isChild fun entry member => inside entry ?_
    exact List.mem_flatMap.mpr ⟨⟨child, isChild⟩, List.mem_attach .., member⟩

end ScriptFront.Script
