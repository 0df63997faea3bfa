import Workflow.Inspection.Report
import Workflow.Proofs.Inspection.Vocabulary.Declarations

/-!
Where problems stand. Problems are told apart by their paths, and in a definition whose shape has no
problems these lead to one slot at least; where no ways run together, every problem of a variable or of an
expression has one place (`paths_locate`).
-/

namespace Workflow

namespace Inspection

open Definition

variable {d : Definition} {r : Registry} {e : Diagnostic}

/-- Every problem of a variable or of an expression stands at a text. -/
theorem exists_site_of_problem (found : e ∈ Vocabulary.problems r (.ofDefinition d) ∨
    e ∈ Expressions.problems r (.ofDefinition d)) :
    ∃ s ∈ (Plan.ofDefinition d).sites, e.specPath = some s.path := by
  rcases found with variable_ | expression
  · unfold Plan.sites
    rw [List.flatMap_append]
    by_cases declared : e ∈ (Vocabulary.outset r (.ofDefinition d)).found
    · obtain ⟨s, site, v, rfl⟩ := Vocabulary.exists_declaration declared
      exact ⟨s, List.mem_append_left _ (List.mem_append_left _ site), rfl⟩
    · obtain ⟨s, site, v, rfl⟩ := Vocabulary.exists_laterSite variable_ declared
      refine ⟨s, ?_, rfl⟩
      rcases List.mem_append.mp site with task | output
      · exact List.mem_append_right _ task
      · exact List.mem_append_left _ (List.mem_append_right _ output)
  · obtain ⟨s, site, located⟩ := List.mem_flatMap.mp expression
    obtain ⟨_, _, rfl⟩ := List.mem_map.mp located
    exact ⟨s, site, rfl⟩

/-- In a definition whose shape has no problems, texts with one path stand in one slot, and in one place
if no ways in the slot run together. All texts have different paths exactly if no ways run together in the
whole definition, as is the case where no key leads on to another one; then problems of different texts are
different, and every problem of a variable or of an expression stands at exactly one text. -/
theorem paths_locate (clean : Shape.problems d = []) :
    (∀ p p' s s', d.siteAt? p = some s → d.siteAt? p' = some s' → s.path = s'.path →
        p.slot = p'.slot ∧ ∀ c, d.content? p.slot = some c → c.value.PathsApart → p = p') ∧
      (((Plan.ofDefinition d).sites.map Site.path).Nodup ↔ d.PathsApart) ∧
      (d.KeysApart → d.PathsApart) ∧
      (d.PathsApart →
        (∀ s ∈ (Plan.ofDefinition d).sites, ∀ s' ∈ (Plan.ofDefinition d).sites, ∀ v v',
          Vocabulary.problem s v = Vocabulary.problem s' v' → s = s') ∧
        ∀ r e, e ∈ Vocabulary.problems r (.ofDefinition d) ∨
            e ∈ Expressions.problems r (.ofDefinition d) →
          ∃! s, s ∈ (Plan.ofDefinition d).sites ∧ e.specPath = some s.path) := by
  refine ⟨fun p p' s s' => place_eq clean, nodup_paths_iff clean,
    fun apart s c filled => (apart s c filled).pathsApart, fun apart => ?_⟩
  have told := List.inj_on_of_nodup_map ((nodup_paths_iff clean).mpr apart)
  refine ⟨fun s inside s' inside' v v' same => ?_, fun r e found => ?_⟩
  · have paths := congrArg Diagnostic.specPath same
    exact told inside inside' (Option.some.inj paths)
  · obtain ⟨s, site, located⟩ := exists_site_of_problem found
    refine ⟨s, ⟨site, located⟩, fun s' other => ?_⟩
    exact told other.1 site (Option.some.inj (other.2.symm.trans located))

/-- A task with this input, which leads nowhere. -/
def withInput (input : Table Value) : Definition where
  tasks := .ofList [("t", { input := input })]

/-- An input with a text in an object and two in a list, below keys that begin alike. -/
def spread : Definition :=
  withInput (.ofList [("a", .object [("b", .string "<% ctx(x) %>")]),
    ("ab", .list [.string "<% ctx(x) %>", .string "<% ctx(y) %>"])])

theorem spread_keysApart : spread.KeysApart := by
  have input : (Value.object [("a", .object [("b", .string "<% ctx(x) %>")]),
      ("ab", .list [.string "<% ctx(x) %>", .string "<% ctx(y) %>"])]).KeysApart := by
    have apart : ¬LeadsOn "a" "ab" ∧ ¬LeadsOn "ab" "a" := by decide
    refine .object (List.pairwise_pair.mpr apart)
      (List.forall_mem_cons.mpr ⟨?_, List.forall_mem_singleton.mpr ?_⟩)
    · exact .object (List.pairwise_singleton _ _) (List.forall_mem_singleton.mpr (.atom rfl))
    · exact .list (List.forall_mem_cons.mpr ⟨.atom rfl, List.forall_mem_singleton.mpr (.atom rfl)⟩)
  intro s c filled
  cases s with
  | input i | var i | output i => cases filled
  | task i s =>
    cases i with
    | zero =>
      cases s with
      | input =>
        cases filled
        exact input
      | action | items | concurrency | retry | clause => cases filled
    | succ i => cases filled

theorem spread_paths_locate : Shape.problems spread = [] ∧ spread.KeysApart ∧
    ((Plan.ofDefinition spread).sites.map Site.path).Nodup ∧
    (Vocabulary.problems Vocabulary.percentOnly (.ofDefinition spread)).map Diagnostic.specPath =
      [some "tasks.t.input.a.b", some "tasks.t.input.ab[0]", some "tasks.t.input.ab[1]"] ∧
    ∀ e ∈ Vocabulary.problems Vocabulary.percentOnly (.ofDefinition spread),
      ∃! s, s ∈ (Plan.ofDefinition spread).sites ∧ e.specPath = some s.path := by
  have clean : Shape.problems spread = [] := by cbv
  obtain ⟨_, unique, keys, located⟩ := paths_locate clean
  have apart : spread.PathsApart := keys spread_keysApart
  exact ⟨clean, spread_keysApart, unique.mpr apart, by decide +kernel,
    fun e found => (located apart).2 _ e (.inl found)⟩

/-- An input with a key that is written like the way to a member of another one. -/
def dotted : Definition :=
  withInput (.ofList [("a", .object [("b", .string "<% ctx(x) %>")]), ("a.b", .string "see <% ctx(x) %>")])

/-- The problem of the variable in both texts. -/
def dottedProblem : Diagnostic :=
  { kind := "percent"
    expression := some "<% ctx(x) %>"
    message := "Variable \"x\" is referenced before assignment."
    specPath := some "tasks.t.input.a.b"
    schemaPath := some (taskSchema ++ ".properties.input") }

/-- Keys may run together: two texts have one path, and of the problems in them one is reported. -/
theorem dotted_paths_meet : Shape.problems dotted = [] ∧
    (∃ s s', (Plan.ofDefinition dotted).sites = [s, s'] ∧ s ≠ s' ∧ s.path = s'.path ∧
      Vocabulary.unknown Vocabulary.percentOnly [] [s] = [dottedProblem] ∧
      Vocabulary.unknown Vocabulary.percentOnly [] [s'] = [dottedProblem]) ∧
    Vocabulary.problems Vocabulary.percentOnly (.ofDefinition dotted) = [dottedProblem] := by
  exact ⟨by cbv, ⟨_, _, rfl, by decide, rfl, by cbv, by cbv⟩, by cbv⟩

end Inspection

end Workflow
