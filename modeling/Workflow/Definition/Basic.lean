import Workflow.Table
import Workflow.Value.Basic

/-!
Workflow definitions, as documents state them.
-/

namespace Workflow

/-- What a task that joins branches waits for. -/
inductive Join where
  | all
  | count (n : UInt32)
  deriving DecidableEq, Repr

/-- When, how often and after how many seconds a task is tried again. -/
structure Retry where
  condition : Option String := none
  count : UInt32 := 0
  delay : Option UInt32 := none
  deriving DecidableEq, Repr

namespace Definition

/-- A name with its value or its default value. -/
structure Parameter where
  name : String
  value : Option Value := none

/-- The items that a task is done for, and how many of them at once. -/
structure ForEach where
  items : String
  concurrency : Option Value := none

/-- A clause of a task: under its condition, what it publishes and which tasks come next. -/
structure Clause where
  condition : Option String := none
  publish : List Parameter := []
  destinations : List String := []

structure Task where
  action : Option String := none
  input : Table Value := .empty
  forEach : Option ForEach := none
  retry : Option Retry := none
  join : Option Join := none
  next : List Clause := []

end Definition

/-- A workflow: what it declares, and its tasks by name. -/
structure Definition where
  version : Option Value := none
  description : Option String := none
  input : List Definition.Parameter := []
  vars : List Definition.Parameter := []
  output : List Definition.Parameter := []
  tasks : Table Definition.Task := .empty

end Workflow
