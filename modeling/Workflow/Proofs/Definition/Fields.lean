import Workflow.Definition.Decode
import Workflow.Proofs.Yaml.Collections

/-!
What the parts of a document are read as: parameters, destinations, and the records field by field.
-/

namespace Workflow

namespace Yaml.Tree

variable {α : Type} {read : Tree → Option α} {t : Tree} {members : List (String × Tree)} {field : String}

/-- The tree says more than that a place stays empty. -/
def Present (t : Tree) : Prop :=
  ∀ s, t = .scalar s → s.presence = .present

theorem present_list {tagged : Bool} {items : List Tree} : (list tagged items).Present := by
  nofun

theorem present_map {tagged : Bool} {members : List (Tree × Tree)} : (map tagged members).Present := by
  nofun

theorem optional?_of_present (present : t.Present) : optional? read t = (read t).map some := by
  cases t with
  | scalar s => simp [optional?, present s rfl]
  | list tagged items => rfl
  | map tagged members => rfl
  | endless => rfl

theorem optionalField?_eq :
    optionalField? read members field = (members.lookup field).elim (some none) (optional? read) := by
  unfold optionalField?
  cases members.lookup field <;> rfl

theorem field?_eq {default : α} :
    field? read default members field = (members.lookup field).elim (some default) read := by
  unfold field?
  cases members.lookup field <;> rfl

theorem optionalField?_of_lookup (found : members.lookup field = some t) :
    optionalField? read members field = optional? read t := by
  rw [optionalField?_eq, found, Option.elim_some]

theorem optionalField?_of_missing (missing : members.lookup field = none) :
    optionalField? read members field = some none := by
  rw [optionalField?_eq, missing, Option.elim_none]

theorem exists_of_optionalField? {a : α}
    (found : optionalField? read members field = some (some a)) :
    ∃ t, members.lookup field = some t ∧ read t = some a := by
  unfold optionalField? at found
  split at found
  · cases found
  next t here =>
    refine ⟨t, here, ?_⟩
    unfold optional? at found
    split at found
    · split at found
      · cases found
      · simpa using found
      · cases found
    · simpa using found

theorem field?_of_lookup {default : α} (found : members.lookup field = some t) :
    field? read default members field = read t := by
  rw [field?_eq, found, Option.elim_some]

theorem field?_of_missing {default : α} (missing : members.lookup field = none) :
    field? read default members field = some default := by
  rw [field?_eq, missing, Option.elim_none]

end Yaml.Tree

namespace Definition

open Yaml

variable {levels : Nat} {t : Tree}

section Parameters

variable {tagged : Bool} {items : List Tree} {members : List (Tree × Tree)} {p : Parameter}
  {ps : List Parameter}

/-- A map states a parameter just if it has one key. -/
theorem parameter?_map_eq_some_iff :
    parameter? levels (.map tagged members) = some p ↔ tagged = false ∧ levels ≠ 0 ∧
      ∃ values v, Tree.memberValues? Tree.string? (levels - 1) members = some values ∧
        (Table.ofList values).entries = [(p.name, v)] ∧ p.value = some v := by
  obtain ⟨name, value⟩ := p
  cases tagged with
  | true => simp [parameter?]
  | false =>
    cases levels with
    | zero => simp [parameter?]
    | succ levels =>
      unfold parameter?
      dsimp only
      rw [if_neg (by simp), Nat.add_sub_cancel]
      cases Tree.memberValues? Tree.string? levels members with
      | none => simp
      | some values =>
        dsimp only
        split
        next name' v single => simp [single, eq_comm]
        next several =>
          refine iff_of_false nofun ?_
          rintro ⟨_, _, values', v, same, single, _⟩
          cases same
          exact several name v single

theorem parameters?_list_eq_some_iff :
    parameters? levels (.list tagged items) = some ps ↔ tagged = false ∧ levels ≠ 0 ∧
      Tree.each? (parameter? (levels - 1)) items = some ps := by
  unfold parameters?
  cases tagged <;> cases levels <;> simp

theorem parameters?_map_eq_some_iff :
    parameters? levels (.map tagged members) = some ps ↔ tagged = false ∧ levels ≠ 0 ∧
      ∃ values, Tree.memberValues? Tree.string? (levels - 1) members = some values ∧
        (Table.ofList values).entries.map (fun (name, v) => ⟨name, some v⟩) = ps := by
  unfold parameters?
  cases tagged <;> cases levels <;> simp

theorem destinations?_list_eq_some_iff {names : List String} :
    destinations? (.list tagged items) = some names ↔ tagged = false ∧
      Tree.each? Tree.string? items = some names := by
  unfold destinations?
  cases tagged <;> simp

end Parameters

/-- How a policy is read, field by field. -/
theorem retry?_eq_some_iff {r : Retry} :
    retry? t = some r ↔ ∃ fields, t.record? ["when", "count", "delay"] = some fields ∧
      Tree.optionalField? Tree.text? fields "when" = some r.condition ∧
      Tree.field? Tree.word? 0 fields "count" = some r.count ∧
      Tree.optionalField? Tree.word? fields "delay" = some r.delay := by
  simp only [ retry?, Option.bind_eq_bind, Option.bind_eq_some_iff, Option.pure_def,
    Option.some.injEq]
  constructor
  · rintro ⟨fields, record, condition, when_, count, count_, delay, delay_, rfl⟩
    exact ⟨fields, record, when_, count_, delay_⟩
  · rintro ⟨fields, record, when_, count_, delay_⟩
    exact ⟨fields, record, _, when_, _, count_, _, delay_, rfl⟩

theorem forEach?_eq_some_iff {f : ForEach} :
    forEach? levels t = some f ↔ ∃ fields, t.record? ["items", "concurrency"] = some fields ∧
      (fields.lookup "items").bind Tree.text? = some f.items ∧
      Tree.optionalField? (Tree.value? Tree.text? (levels - 1)) fields "concurrency" =
        some f.concurrency := by
  simp only [forEach?, Option.bind_eq_bind, Option.bind_eq_some_iff, Option.pure_def,
    Option.some.injEq]
  constructor
  · rintro ⟨fields, record, items, items_, concurrency, concurrency_, rfl⟩
    exact ⟨fields, record, items_, concurrency_⟩
  · rintro ⟨fields, record, items_, concurrency_⟩
    exact ⟨fields, record, _, items_, _, concurrency_, rfl⟩

/-- How a clause is read, field by field. -/
theorem clause?_eq_some_iff {c : Clause} :
    clause? levels t = some c ↔ ∃ fields publish destinations,
      t.record? ["when", "publish", "do"] = some fields ∧
      Tree.optionalField? Tree.text? fields "when" = some c.condition ∧
      Tree.optionalField? (parameters? (levels - 1)) fields "publish" = some publish ∧
      Tree.optionalField? destinations? fields "do" = some destinations ∧
      publish.getD [] = c.publish ∧ destinations.getD [] = c.destinations := by
  simp only [clause?, Option.bind_eq_bind, Option.bind_eq_some_iff, Option.pure_def,
    Option.some.injEq]
  constructor
  · rintro ⟨fields, record, condition, when_, publish, publish_, destinations, do_, rfl⟩
    exact ⟨fields, publish, destinations, record, when_, publish_, do_, rfl, rfl⟩
  · obtain ⟨condition, _, _⟩ := c
    rintro ⟨fields, publish, destinations, record, when_, publish_, do_, rfl, rfl⟩
    exact ⟨fields, record, condition, when_, publish, publish_, destinations, do_, rfl⟩

def clauses? (levels : Nat) (t : Tree) : Option (List Clause) :=
  t.items?.bind (Tree.each? (clause? levels))

/-- How a task is read, field by field. -/
theorem task?_eq_some_iff {task : Task} :
    task? levels t = some task ↔ ∃ fields,
      t.record? ["action", "input", "with", "retry", "join", "next"] = some fields ∧
      Tree.optionalField? Tree.text? fields "action" = some task.action ∧
      Tree.field? (input? (levels - 1)) .empty fields "input" = some task.input ∧
      Tree.optionalField? (forEach? (levels - 1)) fields "with" = some task.forEach ∧
      Tree.optionalField? retry? fields "retry" = some task.retry ∧
      Tree.optionalField? join? fields "join" = some task.join ∧
      Tree.field? (clauses? (levels - 1 - 1)) [] fields "next" = some task.next := by
  simp only [task?, Option.bind_eq_bind, Option.bind_eq_some_iff, Option.pure_def,
    Option.some.injEq]
  constructor
  · rintro ⟨fields, record, _, action, _, input, _, with_, _, retry, _, join, _, next, rfl⟩
    exact ⟨fields, record, action, input, with_, retry, join, next⟩
  · rintro ⟨fields, record, action, input, with_, retry, join, next⟩
    exact ⟨fields, record, _, action, _, input, _, with_, _, retry, _, join, _, next, rfl⟩

theorem input?_eq_some_iff {input : Table Value} :
    input? levels t = some input ↔ ∃ members values, t.members? = some members ∧
      Tree.eachMember? (Tree.value? Tree.text? (levels - 1)) members = some values ∧
      Table.ofList values = input := by
  simp only [input?, Option.bind_eq_bind, Option.bind_eq_some_iff, Option.pure_def,
    Option.some.injEq, exists_and_left]

theorem tasks?_eq_some_iff {tasks : Table Task} :
    tasks? levels t = some tasks ↔ ∃ members entries, t.members? = some members ∧
      Tree.eachMember? (task? (levels - 1)) members = some entries ∧
      Table.ofList entries = tasks := by
  simp only [tasks?, Option.bind_eq_bind, Option.bind_eq_some_iff, Option.pure_def,
    Option.some.injEq, exists_and_left]

/-- How a definition is read, field by field. -/
theorem ofTreeWithin?_eq_some_iff {d : Definition} :
    ofTreeWithin? levels t = some d ↔ ∃ fields input vars output,
      t.record? ["version", "description", "input", "vars", "output", "tasks"] = some fields ∧
      Tree.optionalField? (Tree.value? Tree.text? (levels - 1)) fields "version" = some d.version ∧
      Tree.optionalField? Tree.text? fields "description" = some d.description ∧
      Tree.optionalField? (parameters? (levels - 1)) fields "input" = some input ∧
      Tree.optionalField? (parameters? (levels - 1)) fields "vars" = some vars ∧
      Tree.optionalField? (parameters? (levels - 1)) fields "output" = some output ∧
      Tree.field? (tasks? (levels - 1)) .empty fields "tasks" = some d.tasks ∧
      input.getD [] = d.input ∧ vars.getD [] = d.vars ∧ output.getD [] = d.output := by
  simp only [ofTreeWithin?, Option.bind_eq_bind, Option.bind_eq_some_iff, Option.pure_def,
    Option.some.injEq]
  constructor
  · rintro ⟨fields, record, _, version, _, description, input, input_, vars, vars_, output, output_,
      _, tasks, rfl⟩
    exact ⟨fields, input, vars, output, record, version, description, input_, vars_, output_, tasks,
      rfl, rfl, rfl⟩
  · obtain ⟨version, description, _, _, _, tasks⟩ := d
    rintro ⟨fields, input, vars, output, record, version_, description_, input_, vars_, output_,
      tasks_, rfl, rfl, rfl⟩
    exact ⟨fields, record, _, version_, _, description_, input, input_, vars, vars_, output, output_,
      _, tasks_, rfl⟩

end Definition

end Workflow
