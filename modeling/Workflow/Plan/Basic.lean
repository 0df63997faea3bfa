import Workflow.Plan.Site

/-!
Plans: the tasks of a definition with their clauses, and the texts that may hold expressions. The
compositions and the inspections read plans and never look at definitions again.
-/

namespace Workflow

/-- The names of the commands that a task may transition to without a definition. -/
def reservedNames : List String :=
  ["continue", "fail", "noop", "retry"]

def isReserved (name : String) : Bool :=
  reservedNames.contains name

/-- Where the schema of definitions describes tasks. -/
def taskSchema : String :=
  "properties.tasks.patternProperties.^\\w+$"

namespace Plan

structure Clause where
  /-- Its place among the clauses of its task. -/
  ordinal : Nat
  guard : Option Site
  publish : List Binding
  destinations : List String
  /-- The path to it in the definition. -/
  path : String
  deriving DecidableEq, Repr, Inhabited

def Clause.condition (c : Clause) : Option String :=
  c.guard.map Site.text

structure Task where
  clauses : List Clause
  join : Option Join
  retry : Option Retry
  forEach : Option Definition.ForEach
  /-- The texts of its action, its input, its items and its retry. -/
  sites : List Site

end Plan

structure Plan where
  tasks : Table Plan.Task
  inputs : List Binding
  vars : List Binding
  outputs : List Binding

namespace Plan

def taskPath (name : String) : String :=
  "tasks." ++ name

/-- The texts of a task beside its clauses. -/
def bodySites (name : String) (t : Definition.Task) : List Site :=
  let path := taskPath name
  let action := t.action.toList.map fun text =>
    ⟨path ++ ".action", taskSchema ++ ".properties.action", text⟩
  let input := t.input.entries.flatMap fun (key, v) =>
    v.sites (path ++ ".input." ++ key) (taskSchema ++ ".properties.input")
  let items := t.forEach.toList.flatMap fun f =>
    let schema := taskSchema ++ ".properties.with.properties"
    (⟨path ++ ".with.items", schema ++ ".items", f.items⟩ : Site) ::
      f.concurrency.toList.flatMap fun v =>
        v.sites (path ++ ".with.concurrency") (schema ++ ".concurrency")
  let condition := (t.retry.bind Retry.condition).toList.map fun text =>
    ⟨path ++ ".retry.when", taskSchema ++ ".properties.retry.properties.when", text⟩
  action ++ input ++ items ++ condition

/-- The clauses of a task, of which the first has this ordinal. -/
def clausesFrom (name : String) (ordinal : Nat) : List Definition.Clause → List Clause
  | [] => []
  | c :: cs =>
    let path := extendPath (taskPath name ++ ".next") [.index ordinal]
    let schema := taskSchema ++ ".properties.next.items.properties"
    { ordinal := ordinal
      guard := c.condition.map fun text => ⟨path ++ ".when", schema ++ ".when", text⟩
      publish := bindings (path ++ ".publish") (schema ++ ".publish") c.publish
      destinations := c.destinations
      path := path } :: clausesFrom name (ordinal + 1) cs

def Task.ofDefinition (name : String) (t : Definition.Task) : Task :=
  { clauses := clausesFrom name 0 t.next
    join := t.join
    retry := t.retry
    forEach := t.forEach
    sites := bodySites name t }

def ofDefinition (d : Definition) : Plan :=
  { tasks := d.tasks.map Task.ofDefinition
    inputs := bindings "input" "properties.input" d.input
    vars := bindings "vars" "properties.vars" d.vars
    outputs := bindings "output" "properties.output" d.output }

/-- The texts of a clause: its guard, and what it publishes. -/
def Clause.sites (c : Clause) : List Site :=
  c.guard.toList ++ c.publish.flatMap Binding.sites

/-- All texts of the plan, those of the declarations first. -/
def sites (p : Plan) : List Site :=
  (p.inputs ++ p.vars ++ p.outputs).flatMap Binding.sites ++
    p.tasks.values.flatMap fun t => t.sites ++ t.clauses.flatMap Clause.sites

end Plan

end Workflow
