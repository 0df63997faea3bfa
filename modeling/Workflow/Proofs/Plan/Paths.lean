import Mathlib
import Workflow.Inspection.Shape
import Workflow.Proofs.Plan.Places
import Workflow.Proofs.Table

/-!
Which texts share a path. A path is made of the names on the way to a text, as they are written, so the
keys of objects can run together: `b` in `a` and the key `a.b` beside it have one path. In a definition
whose shape has no problems, texts with one path stand at least in the same slot (`slot_eq`), so a task has
the paths of its body for itself (`ownsPath_of_clean`); and all texts have paths of their own exactly if in
no object the ways below two keys run together (`nodup_paths_iff`), as is the case where no key goes on from
another one.
-/

namespace Workflow

/-! ## Ways that go on -/

/-- Nothing, or a text that goes on with a dot or a bracket, as paths do. -/
def GoesOn (cs : List Char) : Prop :=
  ∀ c ∈ cs.head?, c = '.' ∨ c = '['

/-- The second key is the first one with nothing behind it, or with a text that goes on as paths do. -/
def LeadsOn (key longer : String) : Prop :=
  ∃ rest, longer.toList = key.toList ++ rest ∧ GoesOn rest

instance : (cs : List Char) → Decidable (GoesOn cs)
  | [] => .isTrue nofun
  | c :: _ => decidable_of_iff (c = '.' ∨ c = '[') (by simp [GoesOn])

instance (key longer : String) : Decidable (LeadsOn key longer) :=
  decidable_of_iff
    (key.toList <+: longer.toList ∧ GoesOn (longer.toList.drop key.toList.length)) <| by
      constructor
      · rintro ⟨⟨rest, within⟩, goesOn⟩
        rw [← within, List.drop_left] at goesOn
        exact ⟨rest, within.symm, goesOn⟩
      · rintro ⟨rest, within, goesOn⟩
        rw [within, List.drop_left]
        exact ⟨List.prefix_append _ _, goesOn⟩

/-- In no object of the value does one key lead on to another one. -/
inductive Value.KeysApart : Value → Prop where
  | atom {v : Value} (none_ : v.parts = []) : KeysApart v
  | list {items : List Value} (inside : ∀ v ∈ items, KeysApart v) : KeysApart (.list items)
  | object {members : List (String × Value)}
      (apart : members.Pairwise fun m n => ¬LeadsOn m.1 n.1 ∧ ¬LeadsOn n.1 m.1)
      (inside : ∀ m ∈ members, KeysApart m.2) : KeysApart (.object members)

/-- In no object of the value do the ways to texts below two of its keys, with the keys, run together. -/
inductive Value.PathsApart : Value → Prop where
  | atom {v : Value} (none_ : v.parts = []) : PathsApart v
  | list {items : List Value} (inside : ∀ v ∈ items, PathsApart v) : PathsApart (.list items)
  | object {members : List (String × Value)}
      (apart : members.Pairwise fun m n => ∀ x ∈ m.2.strings, ∀ y ∈ n.2.strings,
        m.1 ++ way x.1 ≠ n.1 ++ way y.1)
      (inside : ∀ m ∈ members, PathsApart m.2) : PathsApart (.object members)

section Paths

variable {base path schema : String} {steps : List Step} {s : Site} {v : Value}

theorem goesOn_way (steps : List Step) : GoesOn (way steps).toList := by
  match steps with
  | [] => nofun
  | .index i :: steps => simp [GoesOn, way]
  | .key k :: steps => simp [GoesOn, way]

/-- The path to a text in a value goes on from the path to the value. -/
theorem exists_rest_of_mem_stringSites (inside : s ∈ v.stringSites schema path) :
    ∃ rest, s.path = path ++ rest := by
  obtain ⟨x, _, rfl⟩ := List.mem_map.mp inside
  exact ⟨way x.1, rfl⟩

/-- Keys of which none leads on to the other make different ways, whichever way these go on. -/
theorem way_ne_of_keys {key longer rest rest' : String}
    (apart : ¬LeadsOn key longer ∧ ¬LeadsOn longer key) (goesOn : GoesOn rest.toList)
    (goesOn' : GoesOn rest'.toList) : key ++ rest ≠ longer ++ rest' := by
  intro same
  have lists := congrArg String.toList same
  rw [String.toList_append, String.toList_append] at lists
  rcases List.append_eq_append_iff.mp lists with ⟨more, within, behind⟩ | ⟨more, within, behind⟩
  · refine apart.1 ⟨more, within, fun c first => goesOn c ?_⟩
    rw [behind]
    exact List.mem_head?_append_of_mem_head? first
  · refine apart.2 ⟨more, within, fun c first => goesOn' c ?_⟩
    rw [behind]
    exact List.mem_head?_append_of_mem_head? first

/-- Ways through different items of a list do not run together. -/
theorem path_ne_of_indices {i j : Nat} {rest rest' : String} (differ : i ≠ j) :
    base ++ (Step.index i).text ++ rest ≠ base ++ (Step.index j).text ++ rest' := by
  intro same
  have first : Under (base ++ (Step.index i).text) (base ++ (Step.index i).text ++ rest) := ⟨rest, rfl⟩
  exact differ (first.index_inj ⟨rest', same⟩)

theorem Value.KeysApart.pathsApart (apart : v.KeysApart) : v.PathsApart := by
  induction apart with
  | atom none_ => exact .atom none_
  | list _ ih => exact .list ih
  | object apart _ ih =>
    refine .object (apart.imp fun keys x _ y _ => ?_) ih
    exact way_ne_of_keys keys (goesOn_way x.1) (goesOn_way y.1)

/-- The texts of a value have different paths if those of every part have, and the ways into the parts
make different paths. -/
theorem pairwise_path_parts (other : ∀ s, v ≠ .string s) :
    (v.stringSites schema path).Pairwise (·.path ≠ ·.path) ↔
      (∀ part ∈ v.parts,
        (part.2.stringSites schema (path ++ part.1.text)).Pairwise (·.path ≠ ·.path)) ∧
      v.parts.Pairwise fun part part' => ∀ x ∈ part.2.strings, ∀ y ∈ part'.2.strings,
        path ++ part.1.text ++ way x.1 ≠ path ++ part'.1.text ++ way y.1 := by
  rw [Value.stringSites_of_parts other, List.pairwise_flatMap]
  unfold Value.stringSites
  simp only [List.forall_mem_map]

/-- The texts of a value have different paths exactly if no ways in its objects run together. -/
theorem Value.pairwise_path_iff (schema path : String) (v : Value) :
    (v.stringSites schema path).Pairwise (·.path ≠ ·.path) ↔ v.PathsApart := by
  induction v using parts_induction generalizing path with
  | step v ih =>
    cases v with
    | list items =>
      have inside : ∀ e ∈ items, ∃ i, (Step.index i, e) ∈ (Value.list items).parts := by
        intro e among
        obtain ⟨i, within, rfl⟩ := List.getElem_of_mem among
        exact ⟨i, List.mem_map.mpr ⟨(items[i], i), List.mk_mem_zipIdx_iff_getElem?.mpr
          (List.getElem?_eq_getElem within), rfl⟩⟩
      have other : ∀ s, Value.list items ≠ .string s := fun s same => by cases same
      rw [pairwise_path_parts other]
      constructor
      · rintro ⟨within, _⟩
        refine .list fun e among => ?_
        obtain ⟨i, part⟩ := inside e among
        exact (ih _ part _).mp (within _ part)
      · rintro (none_ | within | _)
        · rw [none_]
          exact ⟨fun part among => absurd among List.not_mem_nil, .nil⟩
        · constructor
          · intro part among
            refine (ih part among _).mpr ?_
            obtain ⟨e, here, rfl⟩ := List.mem_map.mp among
            exact within e.1 (List.fst_mem_of_mem_zipIdx here)
          · -- Items never run together: an index ends with a bracket.
            rw [Value.parts, List.pairwise_map]
            refine (Value.sorted_zipIdx items).imp fun first x _ y _ => ?_
            exact path_ne_of_indices (Nat.ne_of_lt first)
    | object members =>
      have way : ∀ (key key' rest rest' : String),
          path ++ (Step.key key).text ++ rest ≠ path ++ (Step.key key').text ++ rest' ↔
            key ++ rest ≠ key' ++ rest' := by
        intro key key' rest rest'
        simp [Step.text, String.append_assoc]
      have other : ∀ s, Value.object members ≠ .string s := fun s same => by cases same
      rw [pairwise_path_parts other, Value.parts, List.pairwise_map, List.forall_mem_map]
      simp only [way]
      constructor
      · rintro ⟨within, apart⟩
        refine .object apart fun m among => ?_
        exact (ih (.key m.1, m.2) (List.mem_map.mpr ⟨m, among, rfl⟩) _).mp (within m among)
      · rintro (none_ | _ | ⟨apart, within⟩)
        · rw [List.map_eq_nil_iff.mp none_]
          exact ⟨fun m among => absurd among List.not_mem_nil, .nil⟩
        · refine ⟨fun m among => ?_, apart⟩
          exact (ih (.key m.1, m.2) (List.mem_map.mpr ⟨m, among, rfl⟩) _).mpr (within m among)
    | string s => exact iff_of_true (List.pairwise_singleton _ _) (.atom rfl)
    | null | bool | number => exact iff_of_true .nil (.atom rfl)

/-- Where no ways run together, a path leads to one position in the value only. -/
theorem Value.PathsApart.position_eq (apart : v.PathsApart) {q q' : List Nat}
    {x x' : List Step × String} (found : v.stringAt? q = some x) (found' : v.stringAt? q' = some x')
    (same : path ++ way x.1 = path ++ way x'.1) : q = q' := by
  obtain ⟨positions, _, all, listed⟩ := v.strings_listed.map fun x => path ++ way x.1
  have unique : (positions.map fun q => (v.stringAt? q).map fun x => path ++ way x.1).Nodup := by
    rw [listed, List.map_map, List.Nodup, List.pairwise_map]
    have differ := List.pairwise_map.mp ((Value.pairwise_path_iff "" path v).mpr apart)
    exact differ.imp fun differ same => differ (Option.some.inj same)
  refine List.inj_on_of_nodup_map unique ((all q).mpr (by simp [found]))
    ((all q').mpr (by simp [found'])) ?_
  rw [found, found', Option.map_some, Option.map_some, same]

end Paths

/-! ## Slots -/

theorem Under.trans {a b c : String} (under : Under a b) (further : Under b c) : Under a c := by
  obtain ⟨rest, rfl⟩ := further
  exact under.append rest

theorem Under.of_append {base more path : String} (under : Under (base ++ more) path) :
    Under base path := by
  obtain ⟨rest, rfl⟩ := under
  exact ⟨more ++ rest, String.append_assoc⟩

/-- Of two texts that one path goes on from, one goes on from the other. -/
theorem Under.comparable {base a b path : String} (under : Under (base ++ a) path)
    (under' : Under (base ++ b) path) : a.toList <+: b.toList ∨ b.toList <+: a.toList := by
  have starts : ∀ {c : String}, Under (base ++ c) path → (base.toList ++ c.toList) <+: path.toList := by
    rintro c ⟨rest, rfl⟩
    exact ⟨rest.toList, by simp [String.toList_append]⟩
  rcases List.prefix_or_prefix_of_prefix (starts under) (starts under') with first | second
  · exact .inl ((List.prefix_append_right_inj _).mp first)
  · exact .inr ((List.prefix_append_right_inj _).mp second)

namespace Definition

variable {base path schema name : String} {c : Clause} {t : Task} {d : Definition} {a b : Content}

/-- How the path to what fills a slot goes on from the path to the clause. -/
def ClauseSlot.tag : ClauseSlot → String
  | .guard => ".when"
  | .publish _ => ".publish"

/-- How the path to what fills a slot goes on from the path to the task. -/
def TaskSlot.tag : TaskSlot → String
  | .action => ".action"
  | .input => ".input"
  | .items => ".with.items"
  | .concurrency => ".with.concurrency"
  | .retry => ".retry.when"
  | .clause _ _ => ".next"

/-- How the path to what fills a slot begins. -/
def Slot.tag : Slot → String
  | .input _ => "input"
  | .var _ => "vars"
  | .output _ => "output"
  | .task _ _ => "tasks."

theorem under_of_parameterAt? {ps : List Parameter} {i : Nat}
    (filled : parameterAt? base schema ps i = some a) :
    Under (base ++ (Step.index i).text) a.path := by
  obtain ⟨p, _, value⟩ := Option.bind_eq_some_iff.mp filled
  obtain ⟨v, _, rfl⟩ := Option.map_eq_some_iff.mp value
  exact ⟨"." ++ p.name, by simp only [Step.text, String.append_assoc]⟩

/-- Paths lead on from those of one parameter only. -/
theorem parameterAt?_inj {ps : List Parameter} {i j : Nat}
    (filled : parameterAt? base schema ps i = some a) (filled' : parameterAt? base schema ps j = some b)
    (under : Under a.path path) (under' : Under b.path path) : i = j :=
  ((under_of_parameterAt? filled).trans under).index_inj ((under_of_parameterAt? filled').trans under')

theorem under_clauseTag {s : ClauseSlot} (filled : c.content? base schema s = some a) :
    Under (base ++ s.tag) a.path := by
  cases s with
  | guard =>
    obtain ⟨text, _, rfl⟩ := Option.map_eq_some_iff.mp filled
    exact ⟨"", String.append_empty.symm⟩
  | publish i => exact Under.of_append (under_of_parameterAt? filled)

/-- A path to a clause goes on from it by its index. -/
theorem under_index_of_clause {i : Nat} {s : ClauseSlot}
    (filled : t.content? name (.clause i s) = some a) :
    Under ("tasks." ++ name ++ ".next" ++ (Step.index i).text) a.path := by
  obtain ⟨c, _, inside⟩ := Option.bind_eq_some_iff.mp filled
  have here : "tasks." ++ name ++ ".next" ++ (Step.index i).text =
      "tasks." ++ name ++ ".next" ++ "[" ++ toString i ++ "]" := by
    simp only [Step.text, String.append_assoc]
  rw [here]
  exact Under.of_append (under_clauseTag inside)

theorem under_taskTag {s : TaskSlot} (filled : t.content? name s = some a) :
    Under ("tasks." ++ name ++ s.tag) a.path := by
  cases s with
  | input =>
    cases filled
    exact ⟨"", String.append_empty.symm⟩
  | clause i s => exact Under.of_append (under_index_of_clause filled)
  | action | items | concurrency | retry =>
    obtain ⟨text, _, rfl⟩ := Option.map_eq_some_iff.mp filled
    exact ⟨"", String.append_empty.symm⟩

theorem under_tag {s : Slot} (filled : d.content? s = some a) : Under ("" ++ s.tag) a.path := by
  cases s with
  | task i s =>
    obtain ⟨e, _, inside⟩ := Option.bind_eq_some_iff.mp filled
    have task : Under ("" ++ "tasks." ++ e.1) a.path := Under.of_append (under_taskTag inside)
    exact Under.of_append task
  | input i | var i | output i => exact Under.of_append (under_of_parameterAt? filled)

/-! The ways on to slots of different kinds part before one of them ends. -/

theorem ClauseSlot.tag_eq {s s' : ClauseSlot}
    (related : s.tag.toList <+: s'.tag.toList ∨ s'.tag.toList <+: s.tag.toList) : s.tag = s'.tag := by
  cases s <;> cases s' <;> first | rfl | exact absurd related (by simp only [ClauseSlot.tag]; decide)

theorem TaskSlot.tag_eq {s s' : TaskSlot}
    (related : s.tag.toList <+: s'.tag.toList ∨ s'.tag.toList <+: s.tag.toList) : s.tag = s'.tag := by
  cases s <;> cases s' <;> first | rfl | exact absurd related (by simp only [TaskSlot.tag]; decide)

theorem Slot.tag_eq {s s' : Slot}
    (related : s.tag.toList <+: s'.tag.toList ∨ s'.tag.toList <+: s.tag.toList) : s.tag = s'.tag := by
  cases s <;> cases s' <;> first | rfl | exact absurd related (by simp only [Slot.tag]; decide)

/-- A path leads to what fills one slot of a clause only. -/
theorem clauseSlot_eq {s s' : ClauseSlot} (filled : c.content? base schema s = some a)
    (filled' : c.content? base schema s' = some b) (under : Under a.path path)
    (under' : Under b.path path) : s = s' := by
  have tags := ClauseSlot.tag_eq (((under_clauseTag filled).trans under).comparable
    ((under_clauseTag filled').trans under'))
  cases s with
  | guard =>
    cases s' with
    | guard => rfl
    | publish j => simp [ClauseSlot.tag] at tags
  | publish i =>
    cases s' with
    | guard => simp [ClauseSlot.tag] at tags
    | publish j => rw [parameterAt?_inj filled filled' under under']

/-- A path leads to what fills one slot of a task only. -/
theorem taskSlot_eq {s s' : TaskSlot} (filled : t.content? name s = some a)
    (filled' : t.content? name s' = some b) (under : Under a.path path)
    (under' : Under b.path path) : s = s' := by
  have tags := TaskSlot.tag_eq (((under_taskTag filled).trans under).comparable
    ((under_taskTag filled').trans under'))
  cases s with
  | clause i s =>
    cases s' with
    | clause j s' =>
      have same : i = j := ((under_index_of_clause filled).trans under).index_inj
        ((under_index_of_clause filled').trans under')
      subst same
      obtain ⟨c, here, inside⟩ := Option.bind_eq_some_iff.mp filled
      obtain ⟨c', here', inside'⟩ := Option.bind_eq_some_iff.mp filled'
      cases here.symm.trans here'
      rw [clauseSlot_eq inside inside' under under']
    | action | input | items | concurrency | retry => simp [TaskSlot.tag] at tags
  | action | input | items | concurrency | retry =>
    cases s' <;> first | rfl | simp [TaskSlot.tag] at tags

theorem isTaskName_of_clean (clean : Inspection.Shape.problems d = []) {e : String × Task}
    (inside : e ∈ d.tasks.entries) : Inspection.Shape.isTaskName e.1 = true := by
  have own : Inspection.Shape.taskProblems e.1 e.2 = [] := List.flatMap_eq_nil_iff.mp clean e inside
  unfold Inspection.Shape.taskProblems Inspection.Shape.nameProblems at own
  simp only [List.append_eq_nil_iff] at own
  by_contra other
  simp [other] at own

/-- The name of a task has no dot, so it can be read off a path into the task. -/
theorem taskName_eq {name' : String} (word : Inspection.Shape.isTaskName name = true)
    (word' : Inspection.Shape.isTaskName name' = true)
    (under : Under ("tasks." ++ name ++ ".") path) (under' : Under ("tasks." ++ name' ++ ".") path) :
    name = name' := by
  obtain ⟨rest, rfl⟩ := under
  obtain ⟨rest', same⟩ := under'
  -- The letters of a word end at the first dot, so the name is what comes before it.
  have ends : ∀ (n : String) (cs : List Char), Inspection.Shape.isTaskName n = true →
      (n.toList ++ '.' :: cs).takeWhile Text.isWord = n.toList := by
    intro n cs isName
    have letters : ∀ c ∈ n.toList, Text.isWord c = true := by
      simp only [Inspection.Shape.isTaskName, Bool.and_eq_true, List.all_eq_true] at isName
      exact isName.2
    exact (takeWhile_dropWhile_of_stop letters (by simp; decide)).1
  have lists : name.toList ++ '.' :: rest.toList = name'.toList ++ '.' :: rest'.toList := by
    simpa [String.toList_append] using congrArg String.toList same
  refine String.toList_inj.mp ?_
  rw [← ends name rest.toList word, lists, ends name' rest'.toList word']

theorem exists_tag (s : TaskSlot) : ∃ more, s.tag = "." ++ more := by
  cases s with
  | action => exact ⟨"action", rfl⟩
  | input => exact ⟨"input", rfl⟩
  | items => exact ⟨"with.items", rfl⟩
  | concurrency => exact ⟨"with.concurrency", rfl⟩
  | retry => exact ⟨"retry.when", rfl⟩
  | clause i s => exact ⟨"next", rfl⟩

theorem under_task {s : TaskSlot} (filled : t.content? name s = some a) :
    Under ("tasks." ++ name ++ ".") a.path := by
  obtain ⟨more, tag⟩ := exists_tag s
  have under := under_taskTag filled
  rw [tag, ← String.append_assoc] at under
  exact under.of_append

theorem index_eq_of_name_eq {α : Type} {table : Table α} {i j : Nat} {e e' : String × α}
    (here : table.entries[i]? = some e) (here' : table.entries[j]? = some e') (named : e.1 = e'.1) :
    i = j := by
  have within : i < (table.entries.map Prod.fst).length := by
    rw [List.length_map]
    exact (List.getElem?_eq_some_iff.mp here).1
  refine (List.getElem?_inj within table.nodup).mp ?_
  rw [List.getElem?_map, List.getElem?_map, here, here', Option.map_some, Option.map_some, named]

/-- In a definition whose shape has no problems, a path leads to what fills one slot only. -/
theorem slot_eq {s s' : Slot} (clean : Inspection.Shape.problems d = [])
    (filled : d.content? s = some a) (filled' : d.content? s' = some b) (under : Under a.path path)
    (under' : Under b.path path) : s = s' := by
  have tags := Slot.tag_eq (((under_tag filled).trans under).comparable
    ((under_tag filled').trans under'))
  cases s with
  | task i s =>
    cases s' with
    | task j s' =>
      obtain ⟨e, here, inside⟩ := Option.bind_eq_some_iff.mp filled
      obtain ⟨e', here', inside'⟩ := Option.bind_eq_some_iff.mp filled'
      have named : e.1 = e'.1 := taskName_eq
        (isTaskName_of_clean clean (List.mem_of_getElem? here))
        (isTaskName_of_clean clean (List.mem_of_getElem? here'))
        ((under_task inside).trans under) ((under_task inside').trans under')
      have same : i = j := index_eq_of_name_eq here here' named
      subst same
      cases here.symm.trans here'
      rw [taskSlot_eq inside inside' under under']
    | input | var | output => simp [Slot.tag] at tags
  | input i =>
    cases s' with
    | input j => rw [parameterAt?_inj filled filled' under under']
    | var | output | task => simp [Slot.tag] at tags
  | var i =>
    cases s' with
    | var j => rw [parameterAt?_inj filled filled' under under']
    | input | output | task => simp [Slot.tag] at tags
  | output i =>
    cases s' with
    | output j => rw [parameterAt?_inj filled filled' under under']
    | input | var | task => simp [Slot.tag] at tags

/-! ## Texts -/

/-- In no object of the definition, and in the input of no task, does one key lead on to another one. -/
def KeysApart (d : Definition) : Prop :=
  ∀ s c, d.content? s = some c → c.value.KeysApart

/-- In no object of the definition, and in the input of no task, do ways to texts run together. -/
def PathsApart (d : Definition) : Prop :=
  ∀ s c, d.content? s = some c → c.value.PathsApart

/-- A text at a place is a string in what fills its slot. -/
theorem exists_content_of_siteAt? {p : Place} {s : Site} (site : d.siteAt? p = some s) :
    ∃ a x, d.content? p.slot = some a ∧ a.value.stringAt? p.position = some x ∧
      s.path = a.path ++ way x.1 := by
  obtain ⟨a, filled, inside⟩ := Option.bind_eq_some_iff.mp site
  obtain ⟨x, found, rfl⟩ := Option.map_eq_some_iff.mp inside
  exact ⟨a, x, filled, found, rfl⟩

/-- In a definition whose shape has no problems, texts with one path stand in one slot; they stand in one
place if no ways in the slot run together. -/
theorem place_eq {p p' : Place} {s s' : Site} (clean : Inspection.Shape.problems d = [])
    (site : d.siteAt? p = some s) (site' : d.siteAt? p' = some s') (same : s.path = s'.path) :
    p.slot = p'.slot ∧ ∀ a, d.content? p.slot = some a → a.value.PathsApart → p = p' := by
  obtain ⟨a, x, filled, found, path⟩ := exists_content_of_siteAt? site
  obtain ⟨b, x', filled', found', path'⟩ := exists_content_of_siteAt? site'
  have slots : p.slot = p'.slot := slot_eq clean filled filled'
    ⟨_, path⟩ ⟨_, same.trans path'⟩
  refine ⟨slots, fun c filled'' apart => ?_⟩
  cases filled.symm.trans filled''
  rw [← slots, filled] at filled'
  cases filled'
  have positions := apart.position_eq found found' ((path.symm.trans same).trans path')
  obtain ⟨slot, position⟩ := p
  obtain ⟨slot', position'⟩ := p'
  rw [show slot = slot' from slots, show position = position' from positions]

theorem nodup_slots (d : Definition) : d.slots.Nodup := by
  refine (sorted_slots d).imp fun ahead same => ?_
  subst same
  exact lt_irrefl _ (ahead [] [])

/-- In a definition whose shape has no problems, all paths are different exactly if no ways run together. -/
theorem nodup_paths_iff (clean : Inspection.Shape.problems d = []) :
    ((Plan.ofDefinition d).sites.map Site.path).Nodup ↔ d.PathsApart := by
  rw [plan_sites, List.Nodup, List.pairwise_map, List.pairwise_flatMap]
  constructor
  · rintro ⟨within, _⟩ slot c filled
    have own := within slot (mem_slots (by rw [filled]; rfl))
    rw [filled, contentSites, Option.toList_some, List.flatMap_singleton] at own
    exact (Value.pairwise_path_iff _ _ _).mp own
  · intro apart
    constructor
    · intro slot _
      unfold contentSites
      cases filled : d.content? slot with
      | none => exact .nil
      | some c =>
        rw [Option.toList_some, List.flatMap_singleton]
        exact (Value.pairwise_path_iff _ _ _).mpr (apart slot c filled)
    · refine (nodup_slots d).imp fun differ s here s' there same => differ ?_
      obtain ⟨a, filled, inside⟩ := List.mem_flatMap.mp here
      obtain ⟨b, filled', inside'⟩ := List.mem_flatMap.mp there
      obtain ⟨rest, reached⟩ := exists_rest_of_mem_stringSites inside
      obtain ⟨rest', reached'⟩ := exists_rest_of_mem_stringSites inside'
      exact slot_eq clean (Option.mem_toList.mp filled) (Option.mem_toList.mp filled')
        ⟨rest, reached⟩ ⟨rest', same.trans reached'⟩

end Definition

/-! ## The paths of a task -/

namespace Plan

variable {p : Plan} {t path : String} {task : Plan.Task} {d : Definition} {s : Site}

/-- No text outside of the body of the task has this path: none of the declarations and the outputs, none
in the body of another task, and none of a clause. -/
structure OwnsPath (p : Plan) (t path : String) : Prop where
  bindings : ∀ s ∈ (p.inputs ++ p.vars ++ p.outputs).flatMap Binding.sites, s.path ≠ path
  bodies : ∀ u task, p.tasks.get? u = some task → u ≠ t → ∀ s ∈ task.sites, s.path ≠ path
  clauses : ∀ u task, p.tasks.get? u = some task →
    ∀ s ∈ task.clauses.flatMap Clause.sites, s.path ≠ path

/-- The task of a plan is made of one of the definition. -/
theorem exists_entry (defined : (ofDefinition d).tasks.get? t = some task) :
    ∃ (i : Nat) (e : String × Definition.Task),
      d.tasks.entries[i]? = some e ∧ e.1 = t ∧ task = .ofDefinition t e.2 := by
  obtain ⟨e, inside, same⟩ := List.mem_map.mp (Table.get?_eq_some_iff.mp defined)
  cases same
  obtain ⟨i, here⟩ := List.mem_iff_getElem?.mp inside
  exact ⟨i, e, here, rfl, rfl⟩

theorem exists_content_of_mem {c : Option Definition.Content} (inside : s ∈ Definition.contentSites c) :
    ∃ a, c = some a ∧ Under a.path s.path := by
  obtain ⟨a, filled, within⟩ := List.mem_flatMap.mp inside
  obtain ⟨rest, path⟩ := exists_rest_of_mem_stringSites within
  exact ⟨a, Option.mem_toList.mp filled, rest, path⟩

/-- A text in the body of a task stands in one of its first slots. -/
theorem exists_bodySlot (defined : (ofDefinition d).tasks.get? t = some task) (site : s ∈ task.sites) :
    ∃ i e slot a, d.tasks.entries[i]? = some e ∧ e.1 = t ∧ slot ∈ Definition.bodySlots ∧
      d.content? (.task i slot) = some a ∧ Under a.path s.path := by
  obtain ⟨i, e, here, rfl, rfl⟩ := exists_entry defined
  have body : s ∈ bodySites e.1 e.2 := site
  rw [Definition.body_sites] at body
  obtain ⟨slot, among, inside⟩ := List.mem_flatMap.mp body
  obtain ⟨a, filled, under⟩ := exists_content_of_mem inside
  refine ⟨i, e, slot, a, here, rfl, among, ?_, under⟩
  rw [Definition.content?, here, Option.bind_some, filled]

theorem exists_clauseSlot (defined : (ofDefinition d).tasks.get? t = some task)
    (site : s ∈ task.clauses.flatMap Clause.sites) :
    ∃ i e k slot a, d.tasks.entries[i]? = some e ∧ e.1 = t ∧
      d.content? (.task i (.clause k slot)) = some a ∧ Under a.path s.path := by
  obtain ⟨i, e, here, rfl, rfl⟩ := exists_entry defined
  have clause : s ∈ (clausesFrom e.1 0 e.2.next).flatMap Clause.sites := site
  rw [Definition.clausesFrom_sites] at clause
  obtain ⟨⟨c, k⟩, among, own⟩ := List.mem_flatMap.mp clause
  obtain ⟨slot, _, inside⟩ := List.mem_flatMap.mp own
  obtain ⟨a, filled, under⟩ := exists_content_of_mem inside
  refine ⟨i, e, k, slot, a, here, rfl, ?_, under⟩
  rw [Definition.content?, here, Option.bind_some, Definition.Task.content?,
    List.mem_zipIdx_iff_getElem?.mp among, Option.bind_some, filled]

/-- In a definition whose shape has no problems, a task has the paths of its body for itself. -/
theorem ownsPath_of_clean (clean : Inspection.Shape.problems d = [])
    (defined : (ofDefinition d).tasks.get? t = some task) (body : s ∈ task.sites) :
    (ofDefinition d).OwnsPath t s.path := by
  obtain ⟨i, e, slot, a, here, named, among, filled, under⟩ := exists_bodySlot defined body
  have own : s ∈ (ofDefinition d).tasks.values.flatMap fun t => t.sites ++ t.clauses.flatMap Clause.sites :=
    List.mem_flatMap.mpr ⟨task, Table.mem_values_of_get? defined, List.mem_append_left _ body⟩
  constructor
  · intro s' site
    rw [List.flatMap_append, List.mem_append] at site
    rcases site with declared | output
    · exact path_ne_of_declaration declared (List.mem_append_left _ own)
    · have under : Under "output" s'.path := under_of_mem_bindingsFrom ⟨"", rfl⟩ output
      exact under.ne (under_of_mem_taskSites own) rfl rfl (by decide)
  · intro u task' defined' other s' site same
    obtain ⟨j, e', slot', b, here', named', _, filled', under'⟩ := exists_bodySlot defined' site
    cases Definition.slot_eq clean filled filled' under (same ▸ under')
    cases here.symm.trans here'
    exact other (named'.symm.trans named)
  · intro u task' defined' s' site same
    obtain ⟨j, e', k, slot', b, _, _, filled', under'⟩ := exists_clauseSlot defined' site
    cases Definition.slot_eq clean filled filled' under (same ▸ under')
    simp [Definition.bodySlots] at among

end Plan

end Workflow
