import Mathlib
import Workflow.Plan.Basic
import Workflow.Proofs.Lists

/-!
Where the texts of a definition stand. The walk through a value comes to its strings from left to right
(`sites_eq`). The paths to declarations and those to the texts of tasks and of
outputs begin differently, so no text of a declaration stands where another one does
(`path_ne_of_declaration`); and the paths to the texts of two outputs differ by the index
(`output_eq_of_path_eq`).
-/

namespace Workflow

/-! ## The strings of a value -/

/-- The way that several steps lead, spelled out: the index of an item in brackets, the key of a member
behind a dot. -/
def way : List Step → String
  | [] => ""
  | .index i :: steps => "[" ++ toString i ++ "]" ++ way steps
  | .key k :: steps => "." ++ k ++ way steps

theorem way_cons (step : Step) (steps : List Step) : way (step :: steps) = step.text ++ way steps := by
  cases step <;> rfl

theorem extendPath_eq (base : String) (steps : List Step) :
    extendPath base steps = base ++ way steps := by
  unfold extendPath
  induction steps generalizing base with
  | nil => exact String.append_empty.symm
  | cons step steps ih =>
    rw [List.foldl_cons, ih, String.append_assoc, way_cons]

namespace Value

mutual
/-- The strings inside of a value from left to right, each with the steps that lead to it. -/
def strings : Value → List (List Step × String)
  | .string s => [([], s)]
  | .list items => itemStrings 0 items
  | .object members => memberStrings members
  | _ => []

/-- The strings inside of items, which are counted from `i` on. -/
def itemStrings (i : Nat) : List Value → List (List Step × String)
  | [] => []
  | v :: vs => (strings v).map (fun (steps, s) => (.index i :: steps, s)) ++ itemStrings (i + 1) vs

def memberStrings : List (String × Value) → List (List Step × String)
  | [] => []
  | (k, v) :: ms => (strings v).map (fun (steps, s) => (.key k :: steps, s)) ++ memberStrings ms
end

section Walk

variable {v : Value} {path schema : String} {fuel : Nat} {stack : List (Value × String)}

/-- The strings of a part of a value, with the steps to them from the value. -/
def partStrings (part : Step × Value) : List (List Step × String) :=
  part.2.strings.map fun (steps, s) => (part.1 :: steps, s)

/-- Items are numbered on as they are gone through. -/
theorem itemStrings_eq (i : Nat) (vs : List Value) :
    itemStrings i vs = (vs.zipIdx i).flatMap fun (v, i) => partStrings (.index i, v) := by
  induction vs generalizing i with
  | nil => rw [itemStrings, List.zipIdx_nil, List.flatMap_nil]
  | cons v vs ih =>
    rw [itemStrings, List.zipIdx_cons, List.flatMap_cons, ih]
    rfl

theorem memberStrings_eq (ms : List (String × Value)) :
    memberStrings ms = ms.flatMap fun (k, v) => partStrings (.key k, v) := by
  induction ms with
  | nil => rw [memberStrings, List.flatMap_nil]
  | cons m ms ih =>
    obtain ⟨k, v⟩ := m
    rw [memberStrings, List.flatMap_cons, ih]
    rfl

/-- The strings of a value that is no string itself are those of its parts. -/
theorem strings_eq_flatMap_parts (other : ∀ s, v ≠ .string s) :
    v.strings = v.parts.flatMap partStrings := by
  cases v with
  | string s => exact absurd rfl (other s)
  | list items => rw [strings, itemStrings_eq, parts, List.flatMap_map]
  | object members => rw [strings, memberStrings_eq, parts, List.flatMap_map]
  | null | bool | number => rfl

theorem itemNodes_eq (i : Nat) (vs : List Value) :
    itemNodes vs = ((vs.zipIdx i).map fun p => p.1.nodes).sum := by
  induction vs generalizing i with
  | nil => rw [itemNodes]; rfl
  | cons v vs ih => rw [itemNodes, List.zipIdx_cons, List.map_cons, List.sum_cons, ih]

theorem memberNodes_eq (ms : List (String × Value)) :
    memberNodes ms = (ms.map fun m => m.2.nodes).sum := by
  induction ms with
  | nil => rw [memberNodes]; rfl
  | cons m ms ih =>
    obtain ⟨k, v⟩ := m
    rw [memberNodes, List.map_cons, List.sum_cons, ih]

theorem nodes_eq (v : Value) : v.nodes = 1 + (v.parts.map fun part => part.2.nodes).sum := by
  cases v with
  | list items => rw [nodes, itemNodes_eq 0, parts, List.map_map]; rfl
  | object members => rw [nodes, memberNodes_eq, parts, List.map_map]; rfl
  | null | bool | number | string => rfl

/-- The texts of a value at this path, as its strings give them. -/
def stringSites (schema : String) (v : Value) (path : String) : List Site :=
  v.strings.map fun x => ⟨path ++ way x.1, schema, x.2⟩

theorem stringSites_string (schema path s : String) :
    (Value.string s).stringSites schema path = [⟨path, schema, s⟩] := by
  rw [stringSites, strings, List.map_singleton, way, String.append_empty]

/-- Into a part it is a step, by which the path gets longer. -/
theorem stringSites_of_parts (other : ∀ s, v ≠ .string s) :
    v.stringSites schema path =
      v.parts.flatMap fun part => part.2.stringSites schema (path ++ part.1.text) := by
  unfold stringSites
  rw [strings_eq_flatMap_parts other, List.map_flatMap]
  unfold partStrings
  simp only [List.map_map, Function.comp_def, way_cons, String.append_assoc]

/-- A value that is no string makes way for its parts. -/
theorem stackSites_of_parts (other : ∀ s, v ≠ .string s) :
    stackSites schema (fuel + 1) ((v, path) :: stack) = stackSites schema fuel
      (v.parts.map (fun part => (part.2, path ++ part.1.text)) ++ stack) := by
  cases v with
  | string s => exact absurd rfl (other s)
  | null | bool | number | list | object => rfl

/-- The walk finds the strings of the values on the stack, one value after the other. -/
theorem stackSites_eq (enough : (stack.map fun e => e.1.nodes).sum ≤ fuel) :
    stackSites schema fuel stack = stack.flatMap fun e => e.1.stringSites schema e.2 := by
  -- Every step takes one value off the stack, so the values inside of it bound the steps.
  induction fuel generalizing stack with
  | zero =>
    cases stack with
    | nil => rfl
    | cons e stack =>
      rw [List.map_cons, List.sum_cons, nodes_eq] at enough
      omega
  | succ fuel ih =>
    match stack with
    | [] => rfl
    | (v, path) :: stack =>
      rw [List.map_cons, List.sum_cons, nodes_eq] at enough
      rw [List.flatMap_cons]
      by_cases text : ∃ s, v = .string s
      · obtain ⟨s, rfl⟩ := text
        rw [stackSites, ih (by omega), stringSites_string]
        rfl
      · have other : ∀ s, v ≠ .string s := fun s same => text ⟨s, same⟩
        rw [stackSites_of_parts other, ih, List.flatMap_append, List.flatMap_map,
          stringSites_of_parts other]
        rw [List.map_append, List.sum_append, List.map_map]
        simp only [Function.comp_def] at enough ⊢
        omega

/-- The texts of a value are its strings, from left to right. -/
theorem sites_eq (path schema : String) (v : Value) :
    v.sites path schema = v.stringSites schema path := by
  unfold sites
  rw [stackSites_eq, List.flatMap_singleton]
  exact Nat.le_of_eq (List.sum_singleton ..)

end Walk

end Value

namespace Plan

/-- The texts of the tasks and of the outputs. -/
def laterSites (p : Plan) : List Site :=
  (p.tasks.values.flatMap fun t => t.sites ++ t.clauses.flatMap Clause.sites) ++
    p.outputs.flatMap Binding.sites

end Plan

/-- The path leads on from this one. -/
def Under (base path : String) : Prop :=
  ∃ rest, path = base ++ rest

section Paths

variable {base other path : String} {s : Site}

theorem Under.append (under : Under base path) (more : String) : Under base (path ++ more) := by
  obtain ⟨rest, rfl⟩ := under
  exact ⟨rest ++ more, String.append_assoc⟩

theorem Under.extendPath (under : Under base path) (steps : List Step) :
    Under base (extendPath path steps) := by
  rw [extendPath_eq]
  exact under.append _

/-- Paths that begin with different letters are different. -/
theorem Under.ne {path' : String} (under : Under base path) (under' : Under other path')
    {c d : Char} {cs ds : List Char} (begins : base.toList = c :: cs)
    (begins' : other.toList = d :: ds) (differ : c ≠ d) : path ≠ path' := by
  obtain ⟨rest, rfl⟩ := under
  obtain ⟨rest', rfl⟩ := under'
  intro same
  have first := congrArg (fun s => s.toList.head?) same
  simp [begins, begins', differ] at first

theorem under_of_mem_sites {v : Value} {schema : String} (under : Under base path)
    (inside : s ∈ v.sites path schema) : Under base s.path := by
  rw [Value.sites_eq] at inside
  obtain ⟨x, _, rfl⟩ := List.mem_map.mp inside
  exact under.append _

theorem under_of_mem_bindingsFrom {schema : String} {i : Nat} {ps : List Definition.Parameter}
    (under : Under base path) (inside : s ∈ (bindingsFrom path schema i ps).flatMap Binding.sites) :
    Under base s.path := by
  induction ps generalizing i with
  | nil => cases inside
  | cons q ps ih =>
    rw [bindingsFrom, List.flatMap_cons, List.mem_append] at inside
    rcases inside with own | later
    · dsimp only at own
      split at own
      next => exact under_of_mem_sites (under.extendPath _) own
      next => cases own
    · exact ih later

theorem under_of_mem_clausesFrom {name : String} {i : Nat} {cs : List Definition.Clause}
    (inside : s ∈ (Plan.clausesFrom name i cs).flatMap Plan.Clause.sites) :
    Under "tasks." s.path := by
  have next : Under "tasks." (Plan.taskPath name ++ ".next") := Under.append ⟨name, rfl⟩ _
  induction cs generalizing i with
  | nil => cases inside
  | cons c cs ih =>
    rw [Plan.clausesFrom, List.flatMap_cons, List.mem_append] at inside
    rcases inside with own | later
    · rcases List.mem_append.mp own with guard | publish
      · obtain ⟨text, _, rfl⟩ := Option.map_eq_some_iff.mp (Option.mem_toList.mp guard)
        exact (next.extendPath _).append _
      · exact under_of_mem_bindingsFrom ((next.extendPath _).append _) publish
    · exact ih later

theorem under_of_mem_bodySites {name : String} {t : Definition.Task}
    (inside : s ∈ Plan.bodySites name t) : Under "tasks." s.path := by
  have task : Under "tasks." (Plan.taskPath name) := ⟨name, rfl⟩
  unfold Plan.bodySites at inside
  simp only [List.mem_append, List.mem_map, List.mem_flatMap, List.mem_cons] at inside
  rcases inside with ((⟨_, _, rfl⟩ | ⟨_, _, input⟩) | ⟨_, _, rfl | ⟨_, _, items⟩⟩) | ⟨_, _, rfl⟩
  · exact task.append _
  · exact under_of_mem_sites ((task.append _).append _) input
  · exact task.append _
  · exact under_of_mem_sites (task.append _) items
  · exact task.append _

theorem under_of_mem_taskSites {d : Definition}
    (inside : s ∈ (Plan.ofDefinition d).tasks.values.flatMap fun t =>
      t.sites ++ t.clauses.flatMap Plan.Clause.sites) : Under "tasks." s.path := by
  obtain ⟨task, value, site⟩ := List.mem_flatMap.mp inside
  obtain ⟨⟨name, t⟩, entry, rfl⟩ := List.mem_map.mp value
  obtain ⟨⟨name', t'⟩, _, same⟩ := List.mem_map.mp entry
  cases same
  rcases List.mem_append.mp site with body | clause
  · exact under_of_mem_bodySites body
  · exact under_of_mem_clausesFrom clause

/-- Texts of declarations do not stand where texts of tasks or of outputs do. -/
theorem path_ne_of_declaration {d : Definition} {s' : Site}
    (inside : s ∈ ((Plan.ofDefinition d).inputs ++ (Plan.ofDefinition d).vars).flatMap Binding.sites)
    (later : s' ∈ (Plan.ofDefinition d).laterSites) : s.path ≠ s'.path := by
  have declared : Under "input" s.path ∨ Under "vars" s.path := by
    rw [List.flatMap_append, List.mem_append] at inside
    exact inside.imp (under_of_mem_bindingsFrom ⟨"", rfl⟩) (under_of_mem_bindingsFrom ⟨"", rfl⟩)
  have others : Under "tasks." s'.path ∨ Under "output" s'.path := by
    rcases List.mem_append.mp later with task | output
    · exact .inl (under_of_mem_taskSites task)
    · exact .inr (under_of_mem_bindingsFrom ⟨"", rfl⟩ output)
  rcases declared with input | var
  · rcases others with task | output
    · exact input.ne task rfl rfl (by decide)
    · exact input.ne output rfl rfl (by decide)
  · rcases others with task | output
    · exact var.ne task rfl rfl (by decide)
    · exact var.ne output rfl rfl (by decide)

theorem bindingsFrom_append (path schema : String) (i : Nat) (ps qs : List Definition.Parameter) :
    bindingsFrom path schema i (ps ++ qs) =
      bindingsFrom path schema i ps ++ bindingsFrom path schema (i + ps.length) qs := by
  induction ps generalizing i with
  | nil => rfl
  | cons q ps ih =>
    simp only [List.cons_append, bindingsFrom, ih, List.length_cons, Nat.add_assoc,
      Nat.add_comm 1]

/-- The texts of a binding stand behind its index. -/
theorem under_index {schema : String} {i : Nat} {ps : List Definition.Parameter}
    {before after : List Binding} {b : Binding}
    (parts : bindingsFrom path schema i ps = before ++ b :: after) (inside : s ∈ b.sites) :
    Under (path ++ (Step.index (i + before.length)).text) s.path := by
  induction ps generalizing i before with
  | nil => simp [bindingsFrom] at parts
  | cons q ps ih =>
    rw [bindingsFrom] at parts
    cases before with
    | nil =>
      obtain ⟨rfl, _⟩ := List.cons.inj parts
      dsimp only at inside
      split at inside
      next => exact under_of_mem_sites ⟨(Step.key q.name).text, rfl⟩ inside
      next => cases inside
    | cons e before =>
      have rest := ih (List.cons.inj parts).2
      rwa [Nat.add_assoc, Nat.add_comm 1] at rest

/-- A bracket stands behind the digits of an index, so the index can be read off the path. -/
theorem Under.index_inj {i j : Nat} (under : Under (base ++ (Step.index i).text) path)
    (under' : Under (base ++ (Step.index j).text) path) : i = j := by
  obtain ⟨rest, rfl⟩ := under
  obtain ⟨rest', same⟩ := under'
  have digits : ∀ (n : Nat) (cs : List Char),
      (Nat.toDigits 10 n ++ ']' :: cs).takeWhile Char.isDigit = Nat.toDigits 10 n := fun n cs =>
    (takeWhile_dropWhile_of_stop
      (fun _ => Nat.isDigit_of_mem_toDigits (by decide) (by decide)) (by simp)).1
  have lists : Nat.toDigits 10 i ++ ']' :: rest.toList = Nat.toDigits 10 j ++ ']' :: rest'.toList := by
    simpa [Step.text, String.toList_append] using congrArg String.toList same
  calc i = Nat.ofDigitChars 10 (Nat.toDigits 10 i) 0 := Nat.ofDigitChars_ten_toDigits.symm
    _ = Nat.ofDigitChars 10 (Nat.toDigits 10 j) 0 := by
      rw [← digits i rest.toList, lists, digits]
    _ = j := Nat.ofDigitChars_ten_toDigits

/-- Where the text of one output stands, no text of another one does. -/
theorem output_eq_of_path_eq {d : Definition} {s' : Site}
    {before after before' after' : List Binding} {b b' : Binding}
    (parts : (Plan.ofDefinition d).outputs = before ++ b :: after)
    (parts' : (Plan.ofDefinition d).outputs = before' ++ b' :: after')
    (inside : s ∈ b.sites) (inside' : s' ∈ b'.sites) (same : s.path = s'.path) : before = before' := by
  have index := under_index parts inside
  rw [same] at index
  have length : before.length = before'.length := by
    simpa using index.index_inj (under_index parts' inside')
  exact (List.append_inj (parts.symm.trans parts') length).1

theorem names_bindingsFrom (path schema : String) (i : Nat) (ps : List Definition.Parameter) :
    (bindingsFrom path schema i ps).map Binding.name = ps.map Definition.Parameter.name := by
  induction ps generalizing i with
  | nil => rfl
  | cons q ps ih => simp only [bindingsFrom, List.map_cons, ih]

end Paths

end Workflow
