import ScriptFront.Script.Tree

namespace ScriptFront.Script

/-- A part is larger than every tree in it. -/
theorem Field.sizeOf_lt_of_mem_trees {field : Field} {t : Tree} (member : t ∈ field.trees) :
    sizeOf t < sizeOf field := by
  cases field with
  | child inner =>
    obtain rfl := List.mem_singleton.mp member
    simp
  | child? inner =>
    obtain rfl := Option.mem_toList.mp member
    simp
    omega
  | children inner =>
    have smaller := List.sizeOf_lt_of_mem (show t ∈ inner from member)
    simp
    omega
  | _ => exact absurd member List.not_mem_nil

/-- A construct is at least as large as each of its parts. -/
theorem Construct.sizeOf_view_le (c : Construct) : ∀ part ∈ c.view.2, sizeOf part.2 ≤ sizeOf c := by
  cases c <;> simp only [Construct.view] <;>
    repeat first
      | exact List.forall_mem_nil _
      | refine List.forall_mem_cons.mpr ⟨by simp +arith, ?_⟩

/-- A construct is larger than every tree inside it. -/
theorem Construct.sizeOf_lt_of_mem_children {c : Construct} {t : Tree} (member : t ∈ c.children) :
    sizeOf t < sizeOf c := by
  obtain ⟨part, atPart, inPart⟩ := List.mem_flatMap.mp member
  exact Nat.lt_of_lt_of_le (Field.sizeOf_lt_of_mem_trees inPart) (c.sizeOf_view_le part atPart)

/-- A tree and all trees inside it, each before those inside it, with their depth. -/
def preorder (depth : Nat) (t : Tree) : List (Nat × Tree) :=
  (depth, t) :: t.kind.children.attach.flatMap fun ⟨child, _⟩ => preorder (depth + 1) child
termination_by sizeOf t
decreasing_by
  rename_i member
  have smaller := Construct.sizeOf_lt_of_mem_children member
  have whole : sizeOf t = 1 + sizeOf t.kind + sizeOf t.span := by cases t; simp
  omega

end ScriptFront.Script
