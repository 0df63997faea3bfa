import Mathlib
import Workflow.Proofs.Plan.Sites

/-!
The places of the texts in a definition. A place is a slot of the definition, which a text or a value
fills, and a position inside of it: which item or member of the value, which item or member of that one,
and so on. Here places and their paths are told apart from the walk that collects the texts: a value is
followed along a position, and the way is spelled out. The texts of a plan are those at the places of the
definition, each of them once, in the order of the places (`sites_listed`).
-/

namespace Workflow

/-! ## Listings -/

section Lists

variable {α β I P Q : Type} {before : P → P → Prop} {f : P → Option α}

/-- The list is what the function gives, place by place, at all the places where it gives something. -/
def Lists (before : P → P → Prop) (f : P → Option α) (as : List α) : Prop :=
  ∃ places : List P, places.Pairwise before ∧ (∀ p, p ∈ places ↔ (f p).isSome) ∧
    places.map f = as.map some

theorem lists_none : Lists before (fun _ => (none : Option α)) [] :=
  ⟨[], .nil, by simp, rfl⟩

theorem Lists.map {as : List α} (lists : Lists before f as) (g : α → β) :
    Lists before (fun p => (f p).map g) (as.map g) := by
  obtain ⟨places, sorted, all, same⟩ := lists
  refine ⟨places, sorted, fun p => ?_, ?_⟩
  · rw [all, Option.isSome_map]
  · calc places.map (fun p => (f p).map g) = (places.map f).map (Option.map g) := by
          rw [List.map_map]
          rfl
      _ = (as.map g).map some := by
          rw [same, List.map_map, List.map_map]
          rfl

/-- Where places come in groups, one group after the other, the groups are listed one by one. -/
theorem lists_flatMap (within : Q → Q → Prop) (place : I → Q → P) {is : List I}
    {earlier : I → I → Prop} {as : I → List α} (sorted : is.Pairwise earlier)
    (groups : ∀ i ∈ is, Lists within (fun q => f (place i q)) (as i))
    (covers : ∀ p, (f p).isSome → ∃ i ∈ is, ∃ q, p = place i q)
    (apart : ∀ i j q q', earlier i j → before (place i q) (place j q'))
    (together : ∀ i q q', within q q' → before (place i q) (place i q')) :
    Lists before f (is.flatMap as) := by
  choose! places inOrder all same using groups
  refine ⟨is.flatMap fun i => (places i).map (place i), ?_, fun p => ⟨fun inside => ?_, fun some_ => ?_⟩, ?_⟩
  · rw [List.pairwise_flatMap]
    constructor
    · intro i inside
      rw [List.pairwise_map]
      exact (inOrder i inside).imp (together i _ _)
    · refine sorted.imp fun {i j} first => ?_
      intro p inside p' inside'
      obtain ⟨q, _, rfl⟩ := List.mem_map.mp inside
      obtain ⟨q', _, rfl⟩ := List.mem_map.mp inside'
      exact apart i j q q' first
  · obtain ⟨i, group, here⟩ := List.mem_flatMap.mp inside
    obtain ⟨q, among, rfl⟩ := List.mem_map.mp here
    exact (all i group q).mp among
  · obtain ⟨i, inside, q, rfl⟩ := covers p some_
    exact List.mem_flatMap.mpr ⟨i, inside, List.mem_map.mpr ⟨q, (all i inside q).mpr some_, rfl⟩⟩
  · rw [List.map_flatMap, List.map_flatMap]
    refine List.flatMap_congr fun i inside => ?_
    rw [List.map_map]
    exact same i inside

end Lists

/-! ## Values -/

namespace Value

/-- The string at a position of a value, with the steps to it. The numbers of a position count the items
of lists and the members of objects. -/
def stringAt? : Value → List Nat → Option (List Step × String)
  | .string s, [] => some ([], s)
  | .list items, i :: position =>
    items[i]?.bind fun v => (v.stringAt? position).map fun x => (.index i :: x.1, x.2)
  | .object members, i :: position =>
    members[i]?.bind fun m => (m.2.stringAt? position).map fun x => (.key m.1 :: x.1, x.2)
  | _, _ => none

/-- Induction over values: what holds of a value as soon as it holds of its parts, holds of all. -/
@[elab_as_elim]
theorem parts_induction {motive : Value → Prop}
    (step : ∀ v, (∀ part ∈ v.parts, motive part.2) → motive v) (v : Value) : motive v :=
  step v fun part _ => parts_induction step part.2
termination_by v.nodes
decreasing_by
  rw [nodes_eq v]
  have bound : part.2.nodes ≤ (v.parts.map fun part => part.2.nodes).sum :=
    List.le_sum_of_mem (List.mem_map.mpr ⟨part, ‹_›, rfl⟩)
  omega

theorem sorted_zipIdx {α : Type} (l : List α) : l.zipIdx.Pairwise fun e e' => e.2 < e'.2 := by
  rw [← List.pairwise_map (f := Prod.snd), List.zipIdx_map_snd]
  exact List.pairwise_lt_range' 1

theorem stringAt?_nil {v : Value} (other : ∀ s, v ≠ .string s) : v.stringAt? [] = none := by
  cases v with
  | string s => exact absurd rfl (other s)
  | null | bool | number | list | object => rfl

/-- The items of a list and the members of an object are its parts. -/
theorem stringAt?_cons (v : Value) (i : Nat) (position : List Nat) :
    v.stringAt? (i :: position) = v.parts[i]?.bind fun part =>
      (part.2.stringAt? position).map fun x => (part.1 :: x.1, x.2) := by
  cases v with
  | list items =>
    rw [stringAt?, parts, List.getElem?_map, List.getElem?_zipIdx]
    cases items[i]? with
    | none => rfl
    | some v => simp
  | object members =>
    rw [stringAt?, parts, List.getElem?_map]
    cases members[i]? <;> rfl
  | null | bool | number | string => rfl

/-- From left to right, the strings of a value are those at its positions. -/
theorem strings_listed (v : Value) : Lists (· < ·) v.stringAt? v.strings := by
  induction v using parts_induction with
  | step v ih =>
    by_cases text : ∃ s, v = .string s
    · obtain ⟨s, rfl⟩ := text
      refine ⟨[[]], List.pairwise_singleton _ _, fun p => ?_, rfl⟩
      cases p with
      | nil => simp [stringAt?]
      | cons i position => simp [stringAt?_cons, parts]
    · have other : ∀ s, v ≠ .string s := fun s same => text ⟨s, same⟩
      have numbered : v.strings = v.parts.zipIdx.flatMap fun e => partStrings e.1 := by
        rw [strings_eq_flatMap_parts other, ← List.flatMap_map Prod.fst, List.zipIdx_map_fst]
      rw [numbered]
      -- The texts of a part are a group: its number comes in front of the positions inside of it.
      refine lists_flatMap (· < ·) (fun e position => e.2 :: position) (sorted_zipIdx v.parts)
        (fun e inside => ?_) (fun position some_ => ?_) ?_ ?_
      · have here : v.parts[e.2]? = some e.1 := List.mem_zipIdx_iff_getElem?.mp inside
        simp only [stringAt?_cons, here, Option.bind_some]
        exact (ih e.1 (List.mem_of_getElem? here)).map _
      · cases position with
        | nil =>
          rw [stringAt?_nil other] at some_
          cases some_
        | cons i position =>
          rw [stringAt?_cons] at some_
          cases here : v.parts[i]? with
          | none =>
            rw [here] at some_
            cases some_
          | some part =>
            exact ⟨(part, i), List.mem_zipIdx_iff_getElem?.mpr here, position, rfl⟩
      · exact fun e e' _ _ first => List.cons_lt_cons_iff.mpr (.inl first)
      · exact fun e _ _ less => List.cons_lt_cons_iff.mpr (.inr ⟨rfl, less⟩)

end Value

/-! ## Slots -/

namespace Definition

/-- What fills a slot: a value, and where it stands. A text is a value that is a string. -/
structure Content where
  path : String
  schema : String
  value : Value

/-- The slots of a clause: its guard, and the values that it publishes. -/
inductive ClauseSlot where
  | guard
  | publish (i : Nat)
  deriving DecidableEq

/-- The slots of a task. The values of its input are the members of one object. -/
inductive TaskSlot where
  | action
  | input
  | items
  | concurrency
  | retry
  | clause (i : Nat) (s : ClauseSlot)
  deriving DecidableEq

/-- The slots of a definition: the values of its declarations, and the slots of its tasks. -/
inductive Slot where
  | input (i : Nat)
  | var (i : Nat)
  | output (i : Nat)
  | task (i : Nat) (s : TaskSlot)
  deriving DecidableEq

/-- The value of a parameter in a list at this path. -/
def parameterAt? (path schema : String) (ps : List Parameter) (i : Nat) : Option Content :=
  ps[i]?.bind fun p => p.value.map fun v =>
    ⟨path ++ "[" ++ toString i ++ "]" ++ "." ++ p.name, schema, v⟩

def Clause.content? (path schema : String) (c : Clause) : ClauseSlot → Option Content
  | .guard => c.condition.map fun text => ⟨path ++ ".when", schema ++ ".when", .string text⟩
  | .publish i => parameterAt? (path ++ ".publish") (schema ++ ".publish") c.publish i

def Task.content? (name : String) (t : Task) : TaskSlot → Option Content
  | .action => t.action.map fun text =>
      ⟨"tasks." ++ name ++ ".action", taskSchema ++ ".properties.action", .string text⟩
  | .input =>
      some ⟨"tasks." ++ name ++ ".input", taskSchema ++ ".properties.input", .object t.input.entries⟩
  | .items => t.forEach.map fun f =>
      ⟨"tasks." ++ name ++ ".with.items", taskSchema ++ ".properties.with.properties" ++ ".items",
        .string f.items⟩
  | .concurrency => (t.forEach.bind ForEach.concurrency).map fun v =>
      ⟨"tasks." ++ name ++ ".with.concurrency",
        taskSchema ++ ".properties.with.properties" ++ ".concurrency", v⟩
  | .retry => (t.retry.bind Retry.condition).map fun text =>
      ⟨"tasks." ++ name ++ ".retry.when", taskSchema ++ ".properties.retry.properties.when",
        .string text⟩
  | .clause i s => t.next[i]?.bind fun c =>
      c.content? ("tasks." ++ name ++ ".next" ++ "[" ++ toString i ++ "]")
        (taskSchema ++ ".properties.next.items.properties") s

/-- What fills a slot of a definition. -/
def content? (d : Definition) : Slot → Option Content
  | .input i => parameterAt? "input" "properties.input" d.input i
  | .var i => parameterAt? "vars" "properties.vars" d.vars i
  | .output i => parameterAt? "output" "properties.output" d.output i
  | .task i s => d.tasks.entries[i]?.bind fun e => e.2.content? e.1 s

def ClauseSlot.rank : ClauseSlot → List Nat
  | .guard => [0]
  | .publish i => [1, i]

def TaskSlot.rank : TaskSlot → List Nat
  | .action => [0]
  | .input => [1]
  | .items => [2]
  | .concurrency => [3]
  | .retry => [4]
  | .clause i s => 5 :: i :: s.rank

/-- The place of a slot among those of its definition. -/
def Slot.rank : Slot → List Nat
  | .input i => [0, i]
  | .var i => [1, i]
  | .output i => [2, i]
  | .task i s => 3 :: i :: s.rank

/-- A place for a text: a slot, and a position in the value that fills it. -/
structure Place where
  slot : Slot
  position : List Nat

/-- The order of places: by their slots, and in one value from left to right. -/
def Place.Before (p p' : Place) : Prop :=
  p.slot.rank ++ p.position < p'.slot.rank ++ p'.position

/-- The text at a place, with the path to it. -/
def siteAt? (d : Definition) (p : Place) : Option Site :=
  (d.content? p.slot).bind fun c =>
    (c.value.stringAt? p.position).map fun x => ⟨c.path ++ way x.1, c.schema, x.2⟩

/-- The texts in what fills a slot, from left to right. -/
def contentSites (c : Option Content) : List Site :=
  c.toList.flatMap fun c => c.value.stringSites c.schema c.path

/-! ## The slots of a definition in order -/

/-- All places in the one slot come before those in the other. -/
def Ahead (rank rank' : List Nat) : Prop :=
  ∀ position position', rank ++ position < rank' ++ position'

section Ahead

variable {a b : Nat} {rank rank' : List Nat}

theorem ahead_of_lt (less : a < b) : Ahead (a :: rank) (b :: rank') :=
  fun _ _ => List.cons_lt_cons_iff.mpr (.inl less)

theorem Ahead.cons (ahead : Ahead rank rank') : Ahead (a :: rank) (a :: rank') :=
  fun position position' => List.cons_lt_cons_iff.mpr (.inr ⟨rfl, ahead position position'⟩)

end Ahead

def clauseSlots (c : Clause) : List ClauseSlot :=
  .guard :: c.publish.zipIdx.map fun e => .publish e.2

def bodySlots : List TaskSlot :=
  [.action, .input, .items, .concurrency, .retry]

def taskSlots (t : Task) : List TaskSlot :=
  bodySlots ++ t.next.zipIdx.flatMap fun e => (clauseSlots e.1).map (.clause e.2)

def slots (d : Definition) : List Slot :=
  d.input.zipIdx.map (fun e => .input e.2) ++ d.vars.zipIdx.map (fun e => .var e.2) ++
    d.output.zipIdx.map (fun e => .output e.2) ++
    d.tasks.entries.zipIdx.flatMap fun e => (taskSlots e.1.2).map (.task e.2)

section Sorted

variable {α S T : Type} {rank : S → List Nat} {outer : T → List Nat} {l : List α}

theorem sorted_numbered {slot : Nat → S} {kind : Nat} (ranked : ∀ i, rank (slot i) = [kind, i]) :
    (l.zipIdx.map fun e => slot e.2).Pairwise fun s s' => Ahead (rank s) (rank s') := by
  rw [List.pairwise_map]
  refine (Value.sorted_zipIdx l).imp fun first => ?_
  rw [ranked, ranked]
  exact (ahead_of_lt first).cons

theorem sorted_nested (inner : α → List S) {slot : Nat → S → T} {kind : Nat}
    (ranked : ∀ i s, outer (slot i s) = kind :: i :: rank s)
    (sorted : ∀ a, (inner a).Pairwise fun s s' => Ahead (rank s) (rank s')) :
    (l.zipIdx.flatMap fun e => (inner e.1).map (slot e.2)).Pairwise fun s s' =>
      Ahead (outer s) (outer s') := by
  rw [List.pairwise_flatMap]
  constructor
  · intro e _
    rw [List.pairwise_map]
    refine (sorted e.1).imp fun ahead => ?_
    rw [ranked, ranked]
    exact ahead.cons.cons
  · refine (Value.sorted_zipIdx l).imp fun first => ?_
    intro s inside s' inside'
    obtain ⟨_, _, rfl⟩ := List.mem_map.mp inside
    obtain ⟨_, _, rfl⟩ := List.mem_map.mp inside'
    rw [ranked, ranked]
    exact (ahead_of_lt first).cons

theorem sorted_clauseSlots (c : Clause) :
    (clauseSlots c).Pairwise fun s s' => Ahead s.rank s'.rank := by
  refine List.pairwise_cons.mpr ⟨fun s inside => ?_, sorted_numbered fun _ => rfl⟩
  obtain ⟨_, _, rfl⟩ := List.mem_map.mp inside
  exact ahead_of_lt Nat.zero_lt_one

theorem sorted_taskSlots (t : Task) : (taskSlots t).Pairwise fun s s' => Ahead s.rank s'.rank := by
  refine List.pairwise_append.mpr ⟨?_, sorted_nested clauseSlots (fun _ _ => rfl) sorted_clauseSlots, ?_⟩
  · simp [bodySlots, TaskSlot.rank, ahead_of_lt]
  · intro s inside s' inside'
    obtain ⟨_, _, nested⟩ := List.mem_flatMap.mp inside'
    obtain ⟨_, _, rfl⟩ := List.mem_map.mp nested
    simp only [bodySlots, List.mem_cons, List.not_mem_nil, or_false] at inside
    rcases inside with rfl | rfl | rfl | rfl | rfl <;> exact ahead_of_lt (by decide)

/-- The slots are in the order of places. -/
theorem sorted_slots (d : Definition) : d.slots.Pairwise fun s s' => Ahead s.rank s'.rank := by
  unfold slots
  simp only [List.pairwise_append]
  refine ⟨⟨⟨sorted_numbered fun _ => rfl, sorted_numbered fun _ => rfl, ?_⟩,
    sorted_numbered fun _ => rfl, ?_⟩, ?_, ?_⟩
  · intro s inside s' inside'
    obtain ⟨_, _, rfl⟩ := List.mem_map.mp inside
    obtain ⟨_, _, rfl⟩ := List.mem_map.mp inside'
    exact ahead_of_lt (by decide)
  · intro s inside s' inside'
    obtain ⟨_, _, rfl⟩ := List.mem_map.mp inside'
    rcases List.mem_append.mp inside with first | second
    · obtain ⟨_, _, rfl⟩ := List.mem_map.mp first
      exact ahead_of_lt (by decide)
    · obtain ⟨_, _, rfl⟩ := List.mem_map.mp second
      exact ahead_of_lt (by decide)
  · exact sorted_nested (fun e : String × Task => taskSlots e.2) (fun _ _ => rfl)
      fun e => sorted_taskSlots e.2
  · intro s inside s' inside'
    obtain ⟨_, _, nested⟩ := List.mem_flatMap.mp inside'
    obtain ⟨_, _, rfl⟩ := List.mem_map.mp nested
    simp only [List.mem_append, List.mem_map] at inside
    rcases inside with (⟨_, _, rfl⟩ | ⟨_, _, rfl⟩) | ⟨_, _, rfl⟩ <;> exact ahead_of_lt (by decide)

end Sorted

/-! ## Every slot is listed -/

section Complete

variable {path schema name : String} {c : Clause} {t : Task} {d : Definition} {i : Nat}

theorem exists_of_parameterAt? {ps : List Parameter}
    (filled : (parameterAt? path schema ps i).isSome) : ∃ p, (p, i) ∈ ps.zipIdx := by
  unfold parameterAt? at filled
  cases here : ps[i]? with
  | none =>
    rw [here] at filled
    cases filled
  | some p => exact ⟨p, List.mem_zipIdx_iff_getElem?.mpr here⟩

theorem mem_numbered {ps : List Parameter} {S : Type} {slot : Nat → S}
    (filled : (parameterAt? path schema ps i).isSome) :
    slot i ∈ ps.zipIdx.map fun e => slot e.2 := by
  obtain ⟨p, inside⟩ := exists_of_parameterAt? filled
  exact List.mem_map.mpr ⟨(p, i), inside, rfl⟩

theorem mem_clauseSlots {s : ClauseSlot} (filled : (c.content? path schema s).isSome) :
    s ∈ clauseSlots c := by
  cases s with
  | guard => exact List.mem_cons_self
  | publish i => exact List.mem_cons_of_mem _ (mem_numbered filled)

theorem mem_taskSlots {s : TaskSlot} (filled : (t.content? name s).isSome) : s ∈ taskSlots t := by
  cases s with
  | clause i s =>
    unfold Task.content? at filled
    cases here : t.next[i]? with
    | none =>
      simp only [here] at filled
      cases filled
    | some c =>
      simp only [here] at filled
      refine List.mem_append_right _ (List.mem_flatMap.mpr ⟨(c, i), ?_, ?_⟩)
      · exact List.mem_zipIdx_iff_getElem?.mpr here
      · exact List.mem_map.mpr ⟨s, mem_clauseSlots filled, rfl⟩
  | action | input | items | concurrency | retry => exact List.mem_append_left _ (by decide)

/-- A slot that is filled is among the slots. -/
theorem mem_slots {s : Slot} (filled : (d.content? s).isSome) : s ∈ d.slots := by
  unfold slots
  simp only [List.mem_append]
  cases s with
  | input i => exact .inl (.inl (.inl (mem_numbered filled)))
  | var i => exact .inl (.inl (.inr (mem_numbered filled)))
  | output i => exact .inl (.inr (mem_numbered filled))
  | task i s =>
    unfold content? at filled
    cases here : d.tasks.entries[i]? with
    | none =>
      simp only [here] at filled
      cases filled
    | some e =>
      simp only [here] at filled
      refine .inr (List.mem_flatMap.mpr ⟨(e, i), List.mem_zipIdx_iff_getElem?.mpr here, ?_⟩)
      exact List.mem_map.mpr ⟨s, mem_taskSlots filled, rfl⟩

end Complete

/-! ## The texts of a plan, slot by slot -/

section Sites

variable {path schema name : String}

/-- The walk through a value comes to its texts. -/
theorem contentSites_some (path schema : String) (v : Value) :
    contentSites (some ⟨path, schema, v⟩) = v.sites path schema := by
  rw [Value.sites_eq, contentSites, Option.toList_some, List.flatMap_singleton]

theorem contentSites_string (text : String) :
    contentSites (some ⟨path, schema, .string text⟩) = [⟨path, schema, text⟩] :=
  contentSites_some path schema (.string text)

theorem contentSites_texts (texts : Option String) :
    contentSites (texts.map fun text => ⟨path, schema, .string text⟩) =
      texts.toList.map fun text => ⟨path, schema, text⟩ := by
  cases texts with
  | none => rfl
  | some text => exact contentSites_string text

theorem bindingsFrom_sites (i : Nat) (ps : List Parameter) :
    (bindingsFrom path schema i ps).flatMap Binding.sites =
      (ps.zipIdx i).flatMap fun e => contentSites (e.1.value.map fun v =>
        ⟨path ++ "[" ++ toString e.2 ++ "]" ++ "." ++ e.1.name, schema, v⟩) := by
  induction ps generalizing i with
  | nil => rfl
  | cons p ps ih =>
    rw [bindingsFrom, List.flatMap_cons, ih, List.zipIdx_cons, List.flatMap_cons]
    refine congrArg (· ++ _) ?_
    cases p.value with
    | none => rfl
    | some v =>
      rw [Option.map_some, contentSites_some]
      simp only [extendPath_eq, way, String.append_assoc, String.append_empty]

theorem bindings_sites (ps : List Parameter) :
    (bindings path schema ps).flatMap Binding.sites =
      ps.zipIdx.flatMap fun e => contentSites (parameterAt? path schema ps e.2) := by
  unfold bindings
  rw [bindingsFrom_sites]
  refine List.flatMap_congr fun e inside => ?_
  have here : ps[e.2]? = some e.1 := List.mem_zipIdx_iff_getElem?.mp inside
  rw [parameterAt?, here, Option.bind_some]

/-- The texts of a clause are those in its slots. -/
theorem clause_sites (c : Clause) :
    ((c.condition.map fun text => (⟨path ++ ".when", schema ++ ".when", text⟩ : Site)).toList ++
      (bindings (path ++ ".publish") (schema ++ ".publish") c.publish).flatMap Binding.sites) =
      (clauseSlots c).flatMap fun s => contentSites (c.content? path schema s) := by
  rw [clauseSlots, List.flatMap_cons, List.flatMap_map, bindings_sites]
  refine congrArg (· ++ _) ?_
  rw [Clause.content?, contentSites_texts]
  cases c.condition <;> rfl

theorem clausesFrom_sites (i : Nat) (cs : List Clause) :
    (Plan.clausesFrom name i cs).flatMap Plan.Clause.sites =
      (cs.zipIdx i).flatMap fun e => (clauseSlots e.1).flatMap fun s =>
        contentSites (e.1.content? ("tasks." ++ name ++ ".next" ++ "[" ++ toString e.2 ++ "]")
          (taskSchema ++ ".properties.next.items.properties") s) := by
  induction cs generalizing i with
  | nil => rfl
  | cons c cs ih =>
    have here : "tasks." ++ name ++ ".next" ++ "[" ++ toString i ++ "]" =
        extendPath (Plan.taskPath name ++ ".next") [.index i] := by
      simp only [extendPath_eq, way, Plan.taskPath, String.append_assoc, String.append_empty]
    rw [Plan.clausesFrom, List.flatMap_cons, ih, List.zipIdx_cons, List.flatMap_cons, here]
    exact congrArg (· ++ _) (clause_sites c)

/-- The values of the input of a task are the members of one object. -/
theorem input_sites (entries : List (String × Value)) :
    (entries.flatMap fun (key, v) => v.sites (path ++ ".input." ++ key) schema) =
      (Value.object entries).sites (path ++ ".input") schema := by
  have other : ∀ s, Value.object entries ≠ .string s := fun _ same => by cases same
  rw [Value.sites_eq, Value.stringSites_of_parts other, Value.parts, List.flatMap_map]
  refine List.flatMap_congr fun e _ => ?_
  obtain ⟨key, v⟩ := e
  have longer : path ++ ".input." ++ key = path ++ ".input" ++ (Step.key key).text := by
    simp only [Step.text, String.append_assoc]
    rfl
  dsimp only
  rw [longer, Value.sites_eq]

theorem forEach_sites {path' schema' : String} (forEach : Option ForEach) :
    (forEach.toList.flatMap fun f => (⟨path, schema, f.items⟩ : Site) ::
      f.concurrency.toList.flatMap fun v => v.sites path' schema') =
      contentSites (forEach.map fun f => ⟨path, schema, .string f.items⟩) ++
        contentSites ((forEach.bind ForEach.concurrency).map fun v => ⟨path', schema', v⟩) := by
  cases forEach with
  | none => rfl
  | some f =>
    rw [Option.toList_some, List.flatMap_singleton, Option.map_some, contentSites_string,
      Option.bind_some]
    cases f.concurrency with
    | none => rfl
    | some v =>
      rw [Option.toList_some, List.flatMap_singleton, Option.map_some, contentSites_some]
      rfl

/-- The texts in the body of a task are those in its first slots. -/
theorem body_sites (t : Task) :
    Plan.bodySites name t = bodySlots.flatMap fun s => contentSites (t.content? name s) := by
  unfold Plan.bodySites bodySlots
  simp only [List.flatMap_cons, List.flatMap_nil, Task.content?, contentSites_texts, input_sites,
    forEach_sites, List.append_assoc, List.append_nil]
  exact congrArg (_ ++ ·) (congrArg (· ++ _) (contentSites_some _ _ _).symm)

/-- The texts of a task, slot by slot. -/
theorem task_sites (t : Task) :
    Plan.bodySites name t ++ (Plan.clausesFrom name 0 t.next).flatMap Plan.Clause.sites =
      (taskSlots t).flatMap fun s => contentSites (t.content? name s) := by
  have clauses : (Plan.clausesFrom name 0 t.next).flatMap Plan.Clause.sites =
      (t.next.zipIdx.flatMap fun e => (clauseSlots e.1).map (TaskSlot.clause e.2)).flatMap
        fun s => contentSites (t.content? name s) := by
    rw [clausesFrom_sites, List.flatMap_assoc]
    refine List.flatMap_congr fun e inside => ?_
    have here : t.next[e.2]? = some e.1 := List.mem_zipIdx_iff_getElem?.mp inside
    simp only [List.flatMap_map, Task.content?, here, Option.bind_some]
  rw [taskSlots, List.flatMap_append, body_sites, clauses]

/-- The texts of a plan, slot by slot. -/
theorem plan_sites (d : Definition) :
    (Plan.ofDefinition d).sites = d.slots.flatMap fun s => contentSites (d.content? s) := by
  have tasks : ((Plan.ofDefinition d).tasks.values.flatMap fun t =>
      t.sites ++ t.clauses.flatMap Plan.Clause.sites) =
      (d.tasks.entries.zipIdx.flatMap fun e => (taskSlots e.1.2).map (Slot.task e.2)).flatMap
        fun s => contentSites (d.content? s) := by
    rw [List.flatMap_assoc, Plan.ofDefinition, Table.values, Table.map, List.map_map,
      List.flatMap_map, ← List.zipIdx_map_fst 0 d.tasks.entries, List.flatMap_map,
      List.zipIdx_map_fst]
    refine List.flatMap_congr fun e inside => ?_
    have here : d.tasks.entries[e.2]? = some e.1 := List.mem_zipIdx_iff_getElem?.mp inside
    simp only [List.flatMap_map, content?, here, Option.bind_some]
    exact task_sites e.1.2
  unfold Plan.sites slots
  rw [tasks]
  simp only [List.flatMap_append, List.flatMap_map, Plan.ofDefinition, bindings_sites, content?,
    List.append_assoc]

end Sites

/-- The texts of a plan are those at the places of its definition, each once, in the order of places: slot
by slot the strings of what fills it, from left to right, with the ways to them. -/
theorem sites_listed (d : Definition) :
    Lists Place.Before d.siteAt? (Plan.ofDefinition d).sites ∧
      (Plan.ofDefinition d).sites = d.slots.flatMap fun s => contentSites (d.content? s) := by
  refine ⟨?_, plan_sites d⟩
  rw [plan_sites]
  refine lists_flatMap (· < ·) Place.mk (sorted_slots d) (fun s _ => ?_) (fun p some_ => ?_) ?_ ?_
  · unfold siteAt? contentSites
    dsimp only
    cases d.content? s with
    | none => exact lists_none
    | some c =>
      rw [Option.toList_some, List.flatMap_singleton]
      exact (Value.strings_listed c.value).map _
  · have filled : (d.content? p.slot).isSome := by
      unfold siteAt? at some_
      exact Option.isSome_of_isSome_bind some_
    exact ⟨p.slot, mem_slots filled, p.position, rfl⟩
  · exact fun _ _ position position' ahead => ahead position position'
  · exact fun _ _ _ less => List.append_left_lt less

/-- Texts in lists in objects in lists, in every slot that takes a value. -/
def nestedTexts : Definition where
  input := [⟨"list", some (.list [.string "a", .object [("k", .list [.null, .string "b"]), ("l", .string "c")]])⟩,
    ⟨"bare", none⟩]
  output := [⟨"object", some (.object [("k", .object [("m", .list [.string "d"])])])⟩]
  tasks := .ofList
    [("t",
      { action := some "e"
        input := .ofList [("p", .list [.list [.string "f", .string "g"]]), ("q", .bool true)]
        forEach := some ⟨"h", some (.object [("n", .string "i")])⟩
        retry := some { condition := some "j" }
        next := [{ destinations := ["noop"] },
          { condition := some "k"
            publish := [⟨"r", some (.list [.object [("s", .string "l")]])⟩] }] })]

/-- The strings from left to right, each behind its way. -/
theorem nestedTexts_listed :
    Lists Place.Before nestedTexts.siteAt? (Plan.ofDefinition nestedTexts).sites ∧
      (Plan.ofDefinition nestedTexts).sites.map (fun s => (s.path, s.text)) =
        [("input[0].list[0]", "a"), ("input[0].list[1].k[1]", "b"), ("input[0].list[1].l", "c"),
          ("output[0].object.k.m[0]", "d"), ("tasks.t.action", "e"), ("tasks.t.input.p[0][0]", "f"),
          ("tasks.t.input.p[0][1]", "g"), ("tasks.t.with.items", "h"),
          ("tasks.t.with.concurrency.n", "i"), ("tasks.t.retry.when", "j"),
          ("tasks.t.next[1].when", "k"), ("tasks.t.next[1].publish[0].r[0].s", "l")] ∧
      nestedTexts.siteAt? ⟨.input 0, [1, 0, 1]⟩ =
        some ⟨"input[0].list[1].k[1]", "properties.input", "b"⟩ :=
  ⟨(sites_listed nestedTexts).1, by decide +kernel, by decide +kernel⟩

end Definition

end Workflow
