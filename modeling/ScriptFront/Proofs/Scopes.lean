import Mathlib.Data.List.Basic
import ScriptFront.Eval.Evaluate
import ScriptFront.Proofs.Evaluation

namespace ScriptFront.Eval.Scopes

section Histories

/-- One operation on scopes. A history of them is a list, in the order in which they were done. -/
inductive Step where
  | new
  | global
  | child (i : Nat)
  | define (i : Nat) (name : String) (value : Value)

/-- What a step makes of the scopes. Whatever a definition answers is left aside here. -/
def Step.perform (scopes : Scopes) : Step → Scopes
  | new => scopes.new
  | global => scopes.global
  | child i => scopes.child i
  | define i name value => (scopes.exchange i name value).2

/-- An operation names no scope but those made so far. -/
def Step.Fits (made : Nat) : Step → Prop
  | child i => i < made
  | define i _ _ => i < made
  | _ => True

/-- The scopes that some operations lead to; the last operation stands last. Only scopes that were
made already may be named, as a caller can only have their numbers. -/
inductive Reach : List Step → Scopes → Prop
  | start : Reach [] {}
  | next {steps scopes} (step : Step) : Reach steps scopes → step.Fits scopes.size →
      Reach (steps ++ [step]) (step.perform scopes)

/-- A value given to a name directly in one scope. -/
structure Definition where
  scope : Nat
  name : String
  value : Value

/-- The value of a definition, if it is one of the name in scope `i`. -/
def Definition.value? (i : Nat) (name : String) (d : Definition) : Option Value :=
  if d.scope = i ∧ d.name = name then some d.value else none

/-- The scope around the one that an operation makes, if it makes one. -/
def Step.made? : Step → Option (Option Nat)
  | new => some none
  | global => some none
  | child i => some (some i)
  | define _ _ _ => none

/-- For every scope that was made, the one around it. -/
def surroundings (steps : List Step) : List (Option Nat) := steps.filterMap Step.made?

/-- What an operation defines when `made` scopes exist before it. -/
def Step.definitions (made : Nat) : Step → List Definition
  | global => seeds.map fun (name, value) => ⟨made, name, value⟩
  | define i name value => [⟨i, name, value⟩]
  | _ => []

/-- All that is defined, in order, from a moment on when `made` scopes exist. -/
def definitionsFrom (made : Nat) : List Step → List Definition
  | [] => []
  | step :: steps =>
    step.definitions made ++ definitionsFrom (made + (surroundings [step]).length) steps

/-- The value given last to a name directly in scope `i`. It is found in the history from behind,
where the first definition of the name there is the one that counts. -/
def latest (steps : List Step) (i : Nat) (name : String) : Option Value :=
  (definitionsFrom 0 steps).findSomeRev? (·.value? i name)

/-- A scope, the scope around it, and so on outwards. The chain is read off the operations, not off
the scopes, so that the search along it can be compared to what was done. -/
inductive Chain (steps : List Step) : Nat → List Nat → Prop
  | outermost {i : Nat} : (surroundings steps)[i]? = some none → Chain steps i [i]
  | inside {i p : Nat} {outer : List Nat} : (surroundings steps)[i]? = some (some p) →
      Chain steps p outer → Chain steps i (i :: outer)

/-- A search for the name from scope `j` comes to scope `i`: it lies on the chain of `j`,
and no nearer scope has the name. -/
def Searched (steps : List Step) (j : Nat) (name : String) (i : Nat) : Prop :=
  ∃ nearer outer, Chain steps j (nearer ++ i :: outer) ∧ ∀ k ∈ nearer, latest steps k name = none

end Histories

section Records

variable {steps : List Step} {scopes : Scopes} {name other : String} {value : Value} {i k : Nat}

/-- One more step adds at most one surrounding, that of the scope it makes. -/
theorem surroundings_concat (steps : List Step) (step : Step) :
    surroundings (steps ++ [step]) = surroundings steps ++ step.made?.toList := by
  cases made : step.made? with
  | none => simp [surroundings, made]
  | some around => simp [surroundings, made]

theorem surroundings_define (steps : List Step) (i : Nat) (name : String) (value : Value) :
    surroundings (steps ++ [.define i name value]) = surroundings steps := by
  rw [surroundings_concat, Step.made?, Option.toList_none, List.append_nil]

/-- The definitions of a longer history are those of the shorter one and those of its last step. -/
theorem definitionsFrom_concat (made : Nat) (steps : List Step) (step : Step) :
    definitionsFrom made (steps ++ [step]) =
      definitionsFrom made steps ++ step.definitions (made + (surroundings steps).length) := by
  induction steps generalizing made with
  | nil => simp [definitionsFrom, surroundings]
  | cons first steps ih =>
    have split : (surroundings (first :: steps)).length =
        (surroundings [first]).length + (surroundings steps).length := by
      rw [← List.length_append, surroundings, surroundings, surroundings, ← List.filterMap_append,
        List.singleton_append]
    rw [List.cons_append, definitionsFrom, definitionsFrom, ih, split, List.append_assoc,
      Nat.add_assoc]

/-- The last operation decides, unless it leaves the name alone. -/
theorem latest_concat (steps : List Step) (step : Step) (i : Nat) (name : String) :
    latest (steps ++ [step]) i name =
      ((step.definitions (surroundings steps).length).findSomeRev? (·.value? i name)).or
        (latest steps i name) := by
  rw [latest, latest, definitionsFrom_concat, Nat.zero_add]
  simp only [List.findSomeRev?_eq_findSome?_reverse, List.reverse_append, List.findSome?_append]

/-- Behind a definition its own name in its own scope has the new value, and nothing else has
changed. -/
theorem latest_define (steps : List Step) (i k : Nat) (name other : String) (value : Value) :
    latest (steps ++ [.define i name value]) k other =
      if i = k ∧ name = other then some value else latest steps k other := by
  rw [latest_concat]
  by_cases here : i = k ∧ name = other
  · simp [Step.definitions, Definition.value?, here]
  · simp [Step.definitions, Definition.value?, here]

/-- A new scope has the bindings it was made with, and the others keep theirs. -/
theorem own?_push (scopes : Scopes) (scope : Scope) (i : Nat) (name : String) :
    own? ⟨scopes.all.push scope⟩ i name =
      if i = scopes.size then scope.bindings[name]? else scopes.own? i name := by
  unfold own? size
  rw [Array.getElem?_push]
  split
  · rfl
  · rfl

/-- A new scope has the parent it was made with, and the others keep theirs. -/
theorem parent?_push (scopes : Scopes) (scope : Scope) (i : Nat) :
    parent? ⟨scopes.all.push scope⟩ i =
      if i = scopes.size then scope.parent else scopes.parent? i := by
  unfold parent? size
  rw [Array.getElem?_push]
  split
  · rfl
  · rfl

theorem parent?_define (scopes : Scopes) (i : Nat) (name : String) (value : Value) (k : Nat) :
    (scopes.define i name value).parent? k = scopes.parent? k := by
  unfold parent? define
  rw [Array.getElem?_modify]
  split
  · cases scopes.all[k]? with
    | none => rfl
    | some scope => rfl
  · rfl

theorem own?_define (made : i < scopes.size) (name other : String) (value : Value) (k : Nat) :
    (scopes.define i name value).own? k other =
      if i = k ∧ name = other then some value else scopes.own? k other := by
  unfold own? define
  rw [Array.getElem?_modify]
  by_cases here : i = k
  · subst here
    rw [if_pos rfl, Array.getElem?_eq_getElem made]
    simp [Std.HashMap.getElem?_insert]
  · simp [here]

/-- What a global scope has from the start is what its seeds define. -/
theorem seeds_value? (made i : Nat) (name : String) :
    (Step.global.definitions made).findSomeRev? (·.value? i name) =
      if i = made then (Std.HashMap.ofList seeds)[name]? else none := by
  rw [Std.HashMap.ofList_eq_insertMany_empty, Std.HashMap.getElem?_insertMany_list,
    Std.HashMap.getElem?_empty, Option.or_none, Step.definitions,
    List.findSomeRev?_eq_findSome?_reverse, List.findSomeRev?_eq_findSome?_reverse,
    ← List.map_reverse, List.findSome?_map]
  by_cases here : i = made
  · rw [if_pos here]
    congr 1
    funext entry
    simp [Definition.value?, here]
  · rw [if_neg here, List.findSome?_eq_none_iff]
    intro entry _
    simp [Definition.value?, Ne.symm here]

/-- In a scope that is not there, nothing has a value. -/
theorem own?_none (absent : scopes.size ≤ i) (name : String) : scopes.own? i name = none := by
  unfold own?
  rw [Array.getElem?_eq_none absent, Option.bind_none]

/-- In a scope with nothing around it, a search goes no further. -/
theorem find?_outermost (outermost : scopes.parent? i = none) (name : String) :
    scopes.find? i name = scopes.own? i name := by
  rw [find?, outermost]
  cases scopes.own? i name with
  | none => rfl
  | some value => rfl

/-- What the operations so far tell about the scopes: how many there are, what is around each, and
which value each name has in each of them. -/
structure Records (steps : List Step) (scopes : Scopes) : Prop where
  size : scopes.size = (surroundings steps).length
  parent : ∀ i : Nat, scopes.parent? i = (surroundings steps)[i]?.join
  own : ∀ i name, scopes.own? i name = latest steps i name
  /-- A scope is younger than the one around it. -/
  younger : ∀ i p : Nat, (surroundings steps)[i]? = some (some p) → p < i

/-- A new scope with what it has from the start. -/
theorem Records.push (records : Records steps scopes) {step : Step} {scope : Scope}
    (made : step.made? = some scope.parent) (older : ∀ p, scope.parent = some p → p < scopes.size)
    (seeded : ∀ i name,
      (step.definitions scopes.size).findSomeRev? (·.value? i name) =
        if i = scopes.size then scope.bindings[name]? else none) :
    Records (steps ++ [step]) ⟨scopes.all.push scope⟩ where
  size := by
    rw [surroundings_concat, made, List.length_append, ← records.size]
    exact Array.size_push scope
  parent i := by
    rw [parent?_push, surroundings_concat, made, records.parent, records.size]
    rcases Nat.lt_trichotomy i (surroundings steps).length with before | here | behind
    · rw [if_neg (by omega), List.getElem?_append_left before]
    · simp [here]
    · rw [if_neg (by omega), List.getElem?_eq_none (by omega),
        List.getElem?_eq_none (by rw [List.length_append]; exact behind)]
  own i name := by
    rw [own?_push, latest_concat, ← records.size, seeded, ← records.own]
    by_cases here : i = scopes.size
    · rw [if_pos here, if_pos here, own?_none (Nat.le_of_eq here.symm), Option.or_none]
    · rw [if_neg here, if_neg here, Option.none_or]
  younger i p around := by
    rw [surroundings_concat, made, List.getElem?_append] at around
    split at around
    · exact records.younger i p around
    · rename_i behind
      obtain ⟨within, same⟩ := List.getElem?_eq_some_iff.mp around
      have here : i = scopes.size := by
        rw [Option.toList_some, List.length_singleton] at within
        rw [records.size]
        omega
      rw [here]
      exact older p (by simpa using same)

/-- The arena still records the history behind a definition in a scope that was made. -/
theorem Records.define (records : Records steps scopes) (made : i < scopes.size) (name : String)
    (value : Value) : Records (steps ++ [.define i name value]) (scopes.define i name value) where
  size := by
    rw [surroundings_define, ← records.size]
    exact Array.size_modify
  parent k := by rw [parent?_define, surroundings_define, records.parent]
  own k other := by rw [own?_define made, latest_define, records.own]
  younger k p around := records.younger k p (by rwa [surroundings_define] at around)

/-- What the operations have made records the history of the operations. The induction is on the
history. -/
theorem Reach.records (reach : Reach steps scopes) : Records steps scopes := by
  induction reach with
  | start =>
    refine ⟨rfl, fun i => rfl, fun i name => rfl, fun i p around => ?_⟩
    simp [surroundings] at around
  | @next steps scopes step previous fits ih =>
    cases step with
    | new =>
      refine ih.push rfl (fun p around => ?_) fun i name => ?_
      · cases around
      · simp [Step.definitions]
    | global =>
      refine ih.push rfl (fun p around => ?_) fun i name => seeds_value? _ i name
      cases around
    | child p =>
      have inside : (if p < scopes.size then some p else none) = some p := if_pos fits
      refine ih.push (congrArg some inside.symm) (fun q around => ?_) fun i name => ?_
      · rw [inside] at around
        exact Option.some.inj around ▸ fits
      · simp [Step.definitions]
    | define i name value => exact ih.define fits name value

end Records

section Searches

variable {steps : List Step} {scopes : Scopes} {name : String} {value : Value} {i j : Nat}
  {chain chain' : List Nat}

/-- A scope has only one chain, as each scope has one surrounding at most. -/
theorem Chain.unique (first : Chain steps i chain) (second : Chain steps i chain') :
    chain = chain' := by
  induction first generalizing chain' with
  | outermost root =>
    cases second with
    | outermost => rfl
    | inside around => rw [root] at around; cases around
  | inside around _ ih =>
    cases second with
    | outermost root => rw [root] at around; cases around
    | inside around' outer' =>
      rw [around] at around'
      cases around'
      rw [ih outer']

/-- Since a scope is younger than the one around it, the way outwards ends. -/
theorem Records.exists_chain (records : Records steps scopes) (made : i < scopes.size) :
    ∃ chain, Chain steps i chain := by
  induction i using Nat.strongRecOn with
  | _ i ih =>
    rw [records.size] at made
    cases around : (surroundings steps)[i] with
    | none => exact ⟨[i], .outermost (by rw [List.getElem?_eq_getElem made, around])⟩
    | some p =>
      have inside : (surroundings steps)[i]? = some (some p) := by
        rw [List.getElem?_eq_getElem made, around]
      have older := records.younger i p inside
      obtain ⟨outer, found⟩ := ih p older (by rw [records.size]; omega)
      exact ⟨i :: outer, .inside inside found⟩

/-- A search goes along the chain, and ends with the first value that was defined there. -/
theorem Records.find?_eq (records : Records steps scopes) (along : Chain steps i chain)
    (name : String) : scopes.find? i name = chain.findSome? (latest steps · name) := by
  induction along with
  | @outermost i root =>
    rw [find?, records.own, records.parent, root]
    cases found : latest steps i name with
    | some value => simp [found]
    | none => simp [found]
  | @inside i p outer around _ ih =>
    have older := records.younger i p around
    rw [find?, records.own, records.parent, around, List.findSome?_cons]
    cases found : latest steps i name with
    | some value => rfl
    | none => simp [older, ih]

/-- A lookup finds the latest value of the name in the innermost scope of the chain that has one. -/
theorem Records.lookup_eq_ok_iff (records : Records steps scopes) (along : Chain steps i chain)
    (name : String) : scopes.lookup i name = .ok value ↔
      chain.findSome? (latest steps · name) = some value := by
  rw [lookup, records.find?_eq along]
  cases chain.findSome? (latest steps · name) with
  | some found => simp
  | none => simp

/-- A lookup fails, and names what it did not find, exactly when no scope of the chain has the name.
-/
theorem Records.lookup_eq_error_iff (records : Records steps scopes) (along : Chain steps i chain)
    (name : String) : scopes.lookup i name = .error (.unknownIdentifier name) ↔
      ∀ k ∈ chain, latest steps k name = none := by
  rw [lookup, records.find?_eq along, ← List.findSome?_eq_none_iff]
  cases chain.findSome? (latest steps · name) with
  | some found => simp
  | none => simp

/-- The values of a name in all scopes, when it is given one in scope `i`. -/
def updated (own : Nat → Option Value) (i : Nat) (value : Value) (k : Nat) : Option Value :=
  if i = k then some value else own k

/-- Where no inner scope has the name, the new value is found. -/
theorem findSome?_updated {own : Nat → Option Value} {nearer : List Nat}
    (empty : ∀ k ∈ nearer, own k = none) (outer : List Nat) :
    (nearer ++ i :: outer).findSome? (updated own i value) = some value := by
  induction nearer with
  | nil => simp [updated]
  | cons k nearer ih =>
    obtain ⟨here, others⟩ := List.forall_mem_cons.mp empty
    rw [List.cons_append, List.findSome?_cons, updated, here]
    by_cases same : i = k
    · rw [if_pos same]
    · rw [if_neg same]
      exact ih others

/-- Where an inner scope has the name, or the scope is not on the chain, nothing new is seen. -/
theorem findSome?_updated_ne {own : Nat → Option Value}
    (unreached : ∀ nearer outer, chain = nearer ++ i :: outer → ∃ k ∈ nearer, own k ≠ none) :
    chain.findSome? (updated own i value) = chain.findSome? own := by
  induction chain with
  | nil => rfl
  | cons k chain ih =>
    have other : i ≠ k := by
      rintro rfl
      obtain ⟨k, impossible, -⟩ := unreached [] chain rfl
      cases impossible
    rw [List.findSome?_cons, List.findSome?_cons, updated, if_neg other]
    cases here : own k with
    | some found => rfl
    | none =>
      apply ih
      rintro nearer outer rfl
      obtain ⟨l, member, filled⟩ := unreached (k :: nearer) outer rfl
      rcases List.mem_cons.mp member with rfl | behind
      · exact absurd here filled
      · exact ⟨l, behind, filled⟩

/-- A definition leaves all chains as they are. -/
theorem Chain.define (along : Chain steps j chain) (i : Nat) (name : String) (value : Value) :
    Chain (steps ++ [.define i name value]) j chain := by
  induction along with
  | outermost root => exact .outermost (by rw [surroundings_define, root])
  | inside around _ ih => exact .inside (by rw [surroundings_define, around]) ih

/-- What is found behind a definition, by the same chain with one scope changed. -/
theorem Records.find?_define (records : Records steps scopes) (made : i < scopes.size)
    (along : Chain steps j chain) (name : String) (value : Value) :
    (scopes.define i name value).find? j name =
      chain.findSome? (updated (latest steps · name) i value) := by
  rw [(records.define made name value).find?_eq (along.define i name value)]
  congr 1
  funext k
  simp [updated, latest_define]

/-- A definition is seen by the searches for its name that come to its scope. -/
theorem Records.find?_define_of_searched (records : Records steps scopes) (made : i < scopes.size)
    (searched : Searched steps j name i) (value : Value) :
    (scopes.define i name value).find? j name = some value := by
  obtain ⟨nearer, outer, along, empty⟩ := searched
  rw [records.find?_define made along, findSome?_updated empty]

/-- All other searches find what they found before. -/
theorem Records.find?_define_of_not (records : Records steps scopes) (made : i < scopes.size)
    (origin : j < scopes.size) {other : String}
    (unseen : ¬ (other = name ∧ Searched steps j name i)) (value : Value) :
    (scopes.define i name value).find? j other = scopes.find? j other := by
  obtain ⟨chain, along⟩ := records.exists_chain origin
  by_cases same : other = name
  · subst same
    rw [records.find?_define made along, records.find?_eq along, findSome?_updated_ne]
    rintro nearer outer rfl
    by_contra! empty
    exact unseen ⟨rfl, nearer, outer, along, empty⟩
  · rw [(records.define made name value).find?_eq (along.define i name value),
      records.find?_eq along]
    congr 1
    funext k
    simp [latest_define, Ne.symm same]

/-- What every history of operations leads to. Each scope has a chain that ends, and a
search from it finds the value that was given last to the name in the nearest scope of
the chain that has it. A definition returns the value that its scope had, and is seen by
the searches for its name that come to its scope and by no others; so it does not
change the value of a tree that does not mention the name, or cannot see it. -/
theorem lookup_follows_history (reach : Reach steps scopes) :
    (∀ i < scopes.size, ∃ chain, Chain steps i chain ∧ ∀ name,
      (∀ value, scopes.lookup i name = .ok value ↔
        chain.findSome? (latest steps · name) = some value) ∧
      (scopes.lookup i name = .error (.unknownIdentifier name) ↔
        ∀ k ∈ chain, latest steps k name = none)) ∧
    ∀ i < scopes.size, ∀ name value previous after,
      scopes.exchange i name value = (previous, after) →
      previous = latest steps i name ∧
      ∀ j < scopes.size,
        (Searched steps j name i → after.lookup j name = .ok value) ∧
        (∀ other, after.lookup j other ≠ scopes.lookup j other →
          other = name ∧ Searched steps j name i) ∧
        ∀ t, after.evaluate j t ≠ scopes.evaluate j t →
          Mentions name t ∧ Searched steps j name i := by
  have records := reach.records
  refine ⟨fun i made => ?_, ?_⟩
  · obtain ⟨chain, along⟩ := records.exists_chain made
    exact ⟨chain, along, fun name => ⟨fun value => records.lookup_eq_ok_iff along name,
      records.lookup_eq_error_iff along name⟩⟩
  · rintro i made name value previous after exchanged
    obtain ⟨rfl, rfl⟩ := Prod.mk.inj exchanged
    refine ⟨records.own i name, fun j origin => ?_⟩
    have unseen (other : String) (changed : (scopes.define i name value).lookup j other ≠
        scopes.lookup j other) : other = name ∧ Searched steps j name i := by
      by_contra hidden
      apply changed
      rw [lookup, lookup, records.find?_define_of_not made origin hidden]
    refine ⟨fun searched => ?_, unseen, fun t changed => ?_⟩
    · rw [lookup, records.find?_define_of_searched made searched]
    · by_contra hidden
      refine changed (evaluate_congr t fun other mentioned => ?_)
      by_contra differs
      obtain ⟨rfl, searched⟩ := unseen other differs
      exact hidden ⟨mentioned, searched⟩

/-- A value that is given to a name in an outer scope is not seen where an inner scope
has the name, and neither is the value that it replaces. -/
theorem lookup_follows_history_shadowed :
    ∃ scopes, Reach [.global, .child 0, .define 0 "x" (.string "outer"),
        .define 1 "x" (.string "inner")] scopes ∧
      (scopes.exchange 0 "x" .nan).1 = some (.string "outer") ∧
      (scopes.exchange 0 "x" .nan).2.lookup 0 "x" = .ok .nan ∧
      (scopes.exchange 0 "x" .nan).2.lookup 1 "x" = scopes.lookup 1 "x" := by
  have reach := (((Reach.start.next .global trivial).next (.child 0) Nat.one_pos).next
    (.define 0 "x" (.string "outer")) Nat.two_pos).next (.define 1 "x" (.string "inner"))
      Nat.one_lt_two
  refine ⟨_, reach, ?_⟩
  obtain ⟨-, definitions⟩ := lookup_follows_history reach
  obtain ⟨replaced, seen⟩ := definitions 0 Nat.two_pos "x" .nan _ _ rfl
  refine ⟨replaced, (seen 0 Nat.two_pos).1 ⟨[], [], .outermost rfl, List.forall_mem_nil _⟩, ?_⟩
  by_contra changed
  obtain ⟨-, nearer, outer, along, empty⟩ := (seen 1 Nat.one_lt_two).2.1 "x" changed
  have whole := along.unique (.inside rfl (.outermost rfl))
  cases nearer with
  | nil => cases (List.cons.inj whole).1
  | cons k nearer =>
    obtain ⟨rfl, -⟩ := List.cons.inj whole
    have absent : some (Value.string "inner") = none := empty 1 List.mem_cons_self
    cases absent

end Searches

end ScriptFront.Eval.Scopes
