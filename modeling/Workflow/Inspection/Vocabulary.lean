import Workflow.Dialect.Registry
import Workflow.Plan.Links
import Workflow.Worklist

/-!
Variables that are read before they are known. The names that a workflow declares are known from the
start, and a clause makes known what it publishes. A task knows what the ways to it have made known:
it is visited again when a way brings a name that it did not know. A join is visited once, with all
that had been brought to it by then.
-/

namespace Workflow.Inspection.Vocabulary

def extend (known : List String) : List String → List String
  | [] => known
  | name :: names => extend (if known.contains name then known else known ++ [name]) names

/-- The problem of a variable that is not known at a site. -/
def problem (s : Site) (v : VariableRef) : Diagnostic :=
  { kind := v.dialect
    expression := some v.source
    message := "Variable \"" ++ v.name ++ "\" is referenced before assignment."
    specPath := some s.path
    schemaPath := some s.schema }

/-- The variables at these sites that are not among the known names. -/
def unknown (r : Registry) (known : List String) (sites : List Site) : List Diagnostic :=
  sites.flatMap fun s =>
    ((r.variableRefs s.text).filter fun v => !known.contains v.name).map (problem s)

/-- Works through bindings, of which each is known to those behind it: the unknown variables, and
the names known at the end. -/
def bind (r : Registry) (known : List String) : List Binding → List Diagnostic × List String
  | [] => ([], known)
  | b :: bs =>
    let (found, final) := bind r (extend known [b.name]) bs
    (unknown r known b.sites ++ found, final)

/-- Adds problems that have not been found yet. -/
def record (found : List Diagnostic) : List Diagnostic → List Diagnostic
  | [] => found
  | d :: ds => record (if found.contains d then found else found ++ [d]) ds

/-- How far the analysis has come. -/
structure State where
  /-- The visits to come, the next one first: the task, and the names that the way to it brings. -/
  queue : List (String × List String)
  /-- What has been brought to each join. -/
  joins : Table (List String)
  /-- What each task that was visited knows. -/
  known : Table (List String)
  /-- All names that have become known anywhere. -/
  all : List String
  found : List Diagnostic

/-- The beginning: a visit to every start task, which knows the declared names. -/
def State.start (p : Plan) (declared : List String) (found : List Diagnostic) : State :=
  { queue := p.starts.map fun name => (name, declared)
    joins := .empty
    known := .empty
    all := declared
    found := found }

def State.report (s : State) (ds : List Diagnostic) : State :=
  { s with found := record s.found ds }

/-- Brings names to a task. A join is put into the queue only the first time. -/
def bring (p : Plan) (names : List String) (s : State) (task : String) : State :=
  if isReserved task || !p.tasks.contains task then s
  else if p.isJoin task then
    let joins := s.joins.insert task (extend ((s.joins.get? task).getD []) names)
    if s.joins.contains task then { s with joins := joins }
    else { s with joins := joins, queue := s.queue ++ [(task, names)] }
  else { s with queue := s.queue ++ [(task, names)] }

/-- Works through a clause of a task that knows these names. -/
def clause (p : Plan) (r : Registry) (known : List String) (s : State) (c : Plan.Clause) : State :=
  let (found, names) := bind r known c.publish
  let s := s.report (unknown r known c.guard.toList ++ found)
  c.destinations.foldl (bring p names) { s with all := extend s.all names }

/-- Visits a task with the names that a way to it brings. -/
def visit (p : Plan) (r : Registry) (s : State) (name : String) (brought : List String) : State :=
  let incoming := (s.joins.get? name).getD brought
  let before := s.known.get? name
  if before.isSome && incoming.all fun n => (before.getD []).contains n then s
  else
    let known := extend (before.getD []) incoming
    let s := { s with known := s.known.insert name known }
    match p.tasks.get? name with
    | none => s
    | some t => t.clauses.foldl (clause p r known) (s.report (unknown r known t.sites))

def step (p : Plan) (r : Registry) (s : State) : Except Empty (Option State) :=
  match s.queue with
  | [] => .ok none
  | (name, brought) :: queue => .ok (some (visit p r { s with queue := queue } name brought))

def published (p : Plan) : List String :=
  p.tasks.values.flatMap fun t => t.clauses.flatMap fun c => c.publish.map Binding.name

def destinations (p : Plan) : List String :=
  p.tasks.values.flatMap fun t => t.clauses.flatMap Plan.Clause.destinations

/-- More than the number of visits: a task is worked through again only when it gets to know a name.
-/
def maxSteps (p : Plan) : Nat :=
  let names := (p.inputs ++ p.vars).length + (published p).length
  p.tasks.size + (names + 2) * (destinations p).length + 1

/-- The variables of a plan that are read before they are known. -/
def problems (r : Registry) (p : Plan) : List Diagnostic :=
  let (declaring, declared) := bind r [] (p.inputs ++ p.vars)
  let start := State.start p declared (record [] declaring)
  let final : State :=
    match workOff (step p r) (maxSteps p) start with
    | some (.ok s) => s
    | _ => start
  (final.report (bind r final.all p.outputs).1).found

end Workflow.Inspection.Vocabulary
