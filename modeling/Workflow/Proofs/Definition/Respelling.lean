import Mathlib.Data.List.TakeWhile
import Workflow.Proofs.Definition.Fields
import Workflow.Proofs.Table
import Workflow.Proofs.Yaml.Collections

/-!
Documents that say the same in other words. Parameters that are a list of maps with one key each may be
one map (`parameters?_of_respelled`), and destinations that are a list of names may be a text with commas
between the names (`destinations?_of_respelled`). A document in which any of them are respelled states
the same definition (`ofTree?_of_respelled`).
-/

namespace Workflow

/-! ## Names with commas between them -/

namespace Text

variable {blank before after cs : List Char} {c : Char}

/-- White space, or nothing. -/
def Blank (cs : List Char) : Prop :=
  ∀ c ∈ cs, isBlank c = true

/-- Something is written, and neither its first nor its last character is white space. -/
def Bare (cs : List Char) : Prop :=
  cs ≠ [] ∧ (∀ c ∈ cs.head?, isBlank c = false) ∧ ∀ c ∈ cs.getLast?, isBlank c = false

instance : DecidablePred Blank := fun _ =>
  decidable_of_iff _ List.all_eq_true

instance : DecidablePred Bare := fun cs =>
  decidable_of_iff (cs ≠ [] ∧ cs.head?.all (!isBlank ·) = true ∧ cs.getLast?.all (!isBlank ·) = true)
    (by simp [Bare, Option.all_eq_true])

theorem trim_of_blank (white : Blank blank) : trim blank = [] := by
  unfold trim trimStart
  rw [List.dropWhile_eq_nil_iff.mpr white]
  rfl

/-- Trimming takes the white space around a text away, and no more. -/
theorem trim_of_bare (bare : Bare cs) (whiteBefore : Blank before) (whiteAfter : Blank after) :
    trim (before ++ cs ++ after) = cs := by
  obtain ⟨written, first, last⟩ := bare
  have start : trimStart (before ++ cs ++ after) = cs ++ after := by
    unfold trimStart
    rw [List.append_assoc, List.dropWhile_append_of_pos whiteBefore]
    cases cs with
    | nil => exact absurd rfl written
    | cons c cs => simp [first c rfl]
  unfold trim
  rw [start]
  unfold trimEnd
  rw [List.reverse_append,
    List.dropWhile_append_of_pos fun c inside => whiteAfter c (List.mem_reverse.mp inside)]
  rw [← List.head?_reverse] at last
  cases back : cs.reverse with
  | nil => exact absurd (List.reverse_eq_nil_iff.mp back) written
  | cons c rest =>
    rw [back] at last
    simp only [List.dropWhile_cons, last c rfl, Bool.false_eq_true, if_false]
    rw [← back, List.reverse_reverse]

theorem not_mem_of_blank (white : Blank blank) (visible : isBlank c = false) : c ∉ blank := by
  intro inside
  rw [white c inside] at visible
  cases visible

end Text

namespace Definition

open Yaml

theorem splitAtCommas_eq (cs : List Char) : splitAtCommas cs = cs.splitOn ',' := by
  induction cs with
  | nil => rfl
  | cons c cs ih =>
    rw [List.splitOn_cons_eq_if_modifyHead, ← ih]
    by_cases comma : c = ','
    · subst comma
      rfl
    · rw [splitAtCommas, if_neg (by simpa using comma)]
      · cases parts : splitAtCommas cs with
        | nil => exact absurd (ih.symm.trans parts) (List.splitOn_ne_nil ',' cs)
        | cons part parts => rfl
      · exact comma

/-- A name that can stand between commas: it holds none, and no white space around it. -/
def IsPlainName (name : String) : Prop :=
  ',' ∉ name.toList ∧ Text.Bare name.toList

instance : DecidablePred IsPlainName := fun name =>
  inferInstanceAs (Decidable (',' ∉ name.toList ∧ Text.Bare name.toList))

/-- The name with white space around it. -/
def Padded (name : String) (part : List Char) : Prop :=
  ∃ before after, Text.Blank before ∧ Text.Blank after ∧ part = before ++ name.toList ++ after

/-- A text of the names with commas between them and white space around each. -/
def Joined (names : List String) (text : String) : Prop :=
  names = [] ∧ Text.Blank text.toList ∨
    names ≠ [] ∧ ∃ parts, List.Forall₂ Padded names parts ∧ text.toList = [','].intercalate parts

section Names

variable {name : String} {names : List String} {part : List Char} {parts : List (List Char)}

theorem Padded.trim (padded : Padded name part) (plain : IsPlainName name) :
    Text.trim part = name.toList := by
  obtain ⟨before, after, whiteBefore, whiteAfter, rfl⟩ := padded
  exact Text.trim_of_bare plain.2 whiteBefore whiteAfter

theorem Padded.no_comma (padded : Padded name part) (plain : IsPlainName name) : ',' ∉ part := by
  obtain ⟨before, after, whiteBefore, whiteAfter, rfl⟩ := padded
  have visible : Text.isBlank ',' = false := rfl
  simp only [List.mem_append, not_or]
  exact ⟨⟨Text.not_mem_of_blank whiteBefore visible, plain.1⟩,
    Text.not_mem_of_blank whiteAfter visible⟩

/-- The names of parts with white space around them are the names. -/
theorem names_of_padded (padded : List.Forall₂ Padded names parts)
    (plain : ∀ name ∈ names, IsPlainName name) :
    ((parts.map Text.trim).filterMap fun name =>
      if name.isEmpty then none else some (String.ofList name)) = names := by
  induction padded with
  | nil => rfl
  | cons first _ ih =>
    obtain ⟨own, others⟩ := List.forall_mem_cons.mp plain
    rw [List.map_cons, List.filterMap_cons, first.trim own, ih others]
    simp [own.2.1]

/-- Joined names are read as the names. -/
theorem namesOf_of_joined {text : String} (joined : Joined names text)
    (plain : ∀ name ∈ names, IsPlainName name) : namesOf text = names := by
  unfold namesOf
  rw [splitAtCommas_eq]
  rcases joined with ⟨rfl, white⟩ | ⟨some_, parts, padded, same⟩
  · rw [List.splitOn_eq_singleton (Text.not_mem_of_blank white rfl), List.map_singleton,
      Text.trim_of_blank white]
    rfl
  · have free : ∀ part ∈ parts, ',' ∉ part := by
      intro part inside
      obtain ⟨name, among, own⟩ := exists_mem_of_forall₂ padded inside
      exact own.no_comma (plain name among)
    have written : parts ≠ [] := by
      rintro rfl
      exact some_ (List.forall₂_nil_right_iff.mp padded)
    rw [same, List.splitOn_intercalate ',' free written, names_of_padded padded plain]

end Names

/-! ## Respelled parts of a document -/

/-- A list of maps with one key each, and the map of their members. No two of the keys are the same. -/
inductive ParametersRespelled : Tree → Tree → Prop where
  | asMap {tagged : Bool} {items : List Tree} {members : List (Tree × Tree)}
      (entries : List.Forall₂ (fun item m => ∃ tagged, item = .map tagged [m]) items members)
      (distinct : (members.map fun m => m.1.string?).Nodup) :
      ParametersRespelled (.list tagged items) (.map false members)

/-- A list of names, and a string of the names with commas between them and white space around. -/
inductive DestinationsRespelled : Tree → Tree → Prop where
  | asText {tagged : Bool} {items : List Tree} {names : List String} {s : Scalar} {text : String}
      (strings : List.Forall₂ (fun item name => item.string? = some name) items names)
      (plain : ∀ name ∈ names, IsPlainName name) (joined : Joined names text)
      (string : s.value = some (.string text)) (present : s.presence = .present) :
      DestinationsRespelled (.list tagged items) (.scalar s)

/-- The same member, or a field with this name whose value is respelled. -/
def MemberRespelled (field : String → Tree → Tree → Prop) (m m' : Tree × Tree) : Prop :=
  m.1 = m'.1 ∧ (m.2 = m'.2 ∨ ∃ name, m.1.text? = some name ∧ field name m.2 m'.2)

inductive FieldsRespelled (field : String → Tree → Tree → Prop) : Tree → Tree → Prop where
  | map {tagged : Bool} {members members' : List (Tree × Tree)}
      (respelled : List.Forall₂ (MemberRespelled field) members members') :
      FieldsRespelled field (.map tagged members) (.map tagged members')

inductive ItemsRespelled (item : Tree → Tree → Prop) : Tree → Tree → Prop where
  | list {tagged : Bool} {items items' : List Tree}
      (respelled : List.Forall₂ (fun t t' => t = t' ∨ item t t') items items') :
      ItemsRespelled item (.list tagged items) (.list tagged items')

/-- What may be respelled in a clause: what it publishes, and where it leads. -/
def clauseField (name : String) : Tree → Tree → Prop :=
  if name = "publish" then ParametersRespelled
  else if name = "do" then DestinationsRespelled
  else Eq

/-- What may be respelled in a task: its clauses. -/
def taskField (name : String) : Tree → Tree → Prop :=
  if name = "next" then ItemsRespelled (FieldsRespelled clauseField) else Eq

/-- What may be respelled in a document: its declarations, and its tasks. -/
def documentField (name : String) : Tree → Tree → Prop :=
  if name ∈ ["input", "vars", "output"] then ParametersRespelled
  else if name = "tasks" then FieldsRespelled fun _ => FieldsRespelled taskField
  else Eq

/-- The second document is the first one, with any of its parameters and destinations respelled. -/
def Respelled : Tree → Tree → Prop :=
  FieldsRespelled documentField

/-! ## Reading respelled parts -/

/-- What is read from a tree is read from the respelled one too. -/
def Keeps {α : Type} (respelled : Tree → Tree → Prop) (read : Tree → Option α) : Prop :=
  ∀ t t' a, respelled t t' → read t = some a → read t' = some a

section Keeps

variable {α : Type} {R : Tree → Tree → Prop} {field : String → Tree → Tree → Prop}
  {read : Tree → Option α} {levels : Nat} {t t' : Tree} {members members' : List (String × Tree)}

theorem keeps_eq : Keeps Eq read := by
  rintro t _ a rfl found
  exact found

theorem Keeps.optional (keeps : Keeps R read) (present : ∀ t t', R t t' → t.Present ∧ t'.Present) :
    Keeps R (Tree.optional? read) := by
  intro t t' a respelled found
  obtain ⟨first, second⟩ := present t t' respelled
  rw [Tree.optional?_of_present first, Option.map_eq_some_iff] at found
  obtain ⟨b, inside, rfl⟩ := found
  rw [Tree.optional?_of_present second, keeps t t' b respelled inside, Option.map_some]

/-- The same field, or one whose value is respelled. -/
def FieldRespelled (field : String → Tree → Tree → Prop) (m m' : String × Tree) : Prop :=
  m.1 = m'.1 ∧ (m.2 = m'.2 ∨ field m.1 m.2 m'.2)

/-- The fields of a map and those of the respelled one. -/
theorem members?_of_respelled (respelled : FieldsRespelled field t t')
    (found : t.members? = some members) :
    ∃ members', t'.members? = some members' ∧
      List.Forall₂ (FieldRespelled field) members members' := by
  obtain ⟨respelled⟩ := respelled
  simp only [Tree.members?, textMembers?_eq_some_iff] at found ⊢
  induction respelled generalizing members with
  | nil =>
    cases found
    exact ⟨[], .nil, .nil⟩
  | @cons m m' _ _ first _ ih =>
    obtain ⟨n, others, ⟨name, value⟩, rest, rfl⟩ := List.forall₂_cons_left_iff.mp found
    obtain ⟨others', texts', respelled'⟩ := ih rest
    obtain ⟨key, kept⟩ := first
    refine ⟨(n.1, m'.2) :: others', .cons ⟨key ▸ name, rfl⟩ texts', .cons ⟨rfl, ?_⟩ respelled'⟩
    rw [← value]
    refine kept.imp_right ?_
    rintro ⟨name', found', changed⟩
    cases Option.some.inj (name.symm.trans found')
    exact changed

/-- A record has the same fields after respelling, in the same places. -/
theorem record?_of_respelled {fields : List String} (respelled : FieldsRespelled field t t')
    (found : t.record? fields = some members) :
    ∃ members', t'.record? fields = some members' ∧
      List.Forall₂ (FieldRespelled field) members members' := by
  obtain ⟨found, once⟩ := Tree.record?_eq_some_iff.mp found
  obtain ⟨members', found', respelled⟩ := members?_of_respelled respelled found
  refine ⟨members', Tree.record?_eq_some_iff.mpr ⟨found', fun f inside => ?_⟩, respelled⟩
  have names : members.map Prod.fst = members'.map Prod.fst :=
    List.forall₂_eq_eq_eq ▸ List.forall₂_map_left_iff.mpr
      (List.forall₂_map_right_iff.mpr (respelled.imp fun _ _ both => both.1))
  rw [← names]
  exact once f inside

/-- What stands in a field, and what stands there in the respelled map. -/
theorem lookup_of_respelled (respelled : List.Forall₂ (FieldRespelled field) members members')
    (name : String) : Option.Rel (fun t t' => t = t' ∨ field name t t') (members.lookup name)
      (members'.lookup name) := by
  induction respelled with
  | nil => exact .none
  | @cons m m' _ _ first _ ih =>
    obtain ⟨key, kept⟩ := first
    rw [List.lookup_cons, List.lookup_cons, ← key]
    split
    next same => exact .some (beq_iff_eq.mp same ▸ kept)
    next => exact ih

/-- What a field is read as, be it missing or not, it is read as in the respelled map. -/
theorem elim_of_respelled {a : α} {name : String} {missing : Option α}
    (keeps : Keeps (field name) read)
    (respelled : List.Forall₂ (FieldRespelled field) members members')
    (found : (members.lookup name).elim missing read = some a) :
    (members'.lookup name).elim missing read = some a := by
  have related := lookup_of_respelled respelled name
  generalize members.lookup name = before, members'.lookup name = after at related found ⊢
  cases related with
  | none => exact found
  | some kept =>
    rcases kept with rfl | changed
    · exact found
    · exact keeps _ _ a changed found

theorem optionalField?_of_respelled {a : Option α} {name : String}
    (keeps : Keeps (field name) (Tree.optional? read))
    (respelled : List.Forall₂ (FieldRespelled field) members members')
    (found : Tree.optionalField? read members name = some a) :
    Tree.optionalField? read members' name = some a := by
  rw [Tree.optionalField?_eq] at found ⊢
  exact elim_of_respelled keeps respelled found

/-- A field is read alike if its reader does not see the respelling. -/
theorem field?_of_respelled {default a : α} {name : String} (keeps : Keeps (field name) read)
    (respelled : List.Forall₂ (FieldRespelled field) members members')
    (found : Tree.field? read default members name = some a) :
    Tree.field? read default members' name = some a := by
  rw [Tree.field?_eq] at found ⊢
  exact elim_of_respelled keeps respelled found

theorem parameter?_singleton {tagged : Bool} {m : Tree × Tree} {p : Parameter}
    (read : parameter? levels (.map tagged [m]) = some p) :
    m.1.string? = some p.name ∧ ∃ v, p.value = some v ∧
      m.2.value? Tree.string? (levels - 1) = some v := by
  obtain ⟨_, _, values, v, members, entries, value⟩ := parameter?_map_eq_some_iff.mp read
  rw [Tree.memberValues?_eq_some_iff, List.forall₂_cons_left_iff] at members
  obtain ⟨e, _, ⟨key, inside⟩, rest, rfl⟩ := members
  cases rest
  rw [Table.entries_ofList (by simp), List.singleton_inj] at entries
  subst entries
  exact ⟨key, v, value, inside⟩

/-- The members of a map and the parameters of the maps with one of them each. -/
theorem memberValues?_of_singletons {items : List Tree} {members : List (Tree × Tree)}
    {ps : List Parameter}
    (entries : List.Forall₂ (fun item m => ∃ tagged, item = .map tagged [m]) items members)
    (read : List.Forall₂ (fun t p => parameter? levels t = some p) items ps) :
    ∃ values, Tree.memberValues? Tree.string? (levels - 1) members = some values ∧
      members.map (fun m => m.1.string?) = (values.map Prod.fst).map some ∧
      values.map (fun (name, v) => (⟨name, some v⟩ : Parameter)) = ps := by
  simp only [Tree.memberValues?_eq_some_iff]
  induction entries generalizing ps with
  | nil =>
    cases read
    exact ⟨[], .nil, rfl, rfl⟩
  | @cons item m _ _ single _ ih =>
    obtain ⟨p, others, first, rest, rfl⟩ := List.forall₂_cons_left_iff.mp read
    obtain ⟨_, rfl⟩ := single
    obtain ⟨values, inside, names, same⟩ := ih rest
    obtain ⟨key, v, value, here⟩ := parameter?_singleton first
    refine ⟨(p.name, v) :: values, .cons ⟨key, here⟩ inside, ?_, ?_⟩
    · rw [List.map_cons, key, names]
      rfl
    · rw [List.map_cons, same, ← value]

/-- Parameters in a list of maps are read as those in one map. -/
theorem keeps_parameters : Keeps ParametersRespelled (parameters? levels) := by
  rintro _ _ ps ⟨entries, distinct⟩ found
  obtain ⟨_, deep, read⟩ := parameters?_list_eq_some_iff.mp found
  rw [Tree.each?_eq_some_iff] at read
  obtain ⟨values, inside, names, same⟩ := memberValues?_of_singletons entries read
  -- Keys that were equal would fall together in the map, but not in the list.
  have unique : (values.map Prod.fst).Nodup := (names ▸ distinct).of_map some
  refine parameters?_map_eq_some_iff.mpr ⟨rfl, deep, values, ?_, ?_⟩
  · exact Tree.memberValues?_mono inside (Nat.sub_le _ _)
  · rw [Table.entries_ofList unique]
    exact same

/-- Destinations in a list are read as those in a text with commas. -/
theorem keeps_destinations : Keeps DestinationsRespelled destinations? := by
  rintro _ _ names ⟨strings, plain, joined, string, present⟩ found
  obtain ⟨_, read⟩ := destinations?_list_eq_some_iff.mp found
  cases Option.some.inj ((Tree.each?_eq_some_iff.mpr strings).symm.trans read)
  simp [destinations?, Scalar.string?, string, namesOf_of_joined joined plain]

theorem present_of_parametersRespelled (t t' : Tree) (respelled : ParametersRespelled t t') :
    t.Present ∧ t'.Present := by
  obtain ⟨_, _⟩ := respelled
  exact ⟨Tree.present_list, Tree.present_map⟩

theorem present_of_destinationsRespelled (t t' : Tree) (respelled : DestinationsRespelled t t') :
    t.Present ∧ t'.Present := by
  obtain ⟨_, _, _, _, present⟩ := respelled
  refine ⟨Tree.present_list, fun s same => ?_⟩
  cases same
  exact present

/-- Clauses are read alike. -/
theorem keeps_clause : Keeps (FieldsRespelled clauseField) (clause? levels) := by
  intro t t' c respelled found
  obtain ⟨fields, publish, destinations, record, when_, publish_, do_, same⟩ :=
    clause?_eq_some_iff.mp found
  obtain ⟨fields', record', respelled'⟩ := record?_of_respelled respelled record
  refine clause?_eq_some_iff.mpr ⟨fields', publish, destinations, record', ?_, ?_, ?_, same⟩
  · exact optionalField?_of_respelled keeps_eq respelled' when_
  · exact optionalField?_of_respelled (keeps_parameters.optional present_of_parametersRespelled)
      respelled' publish_
  · exact optionalField?_of_respelled (keeps_destinations.optional present_of_destinationsRespelled)
      respelled' do_

theorem keeps_clauses :
    Keeps (ItemsRespelled (FieldsRespelled clauseField)) (clauses? levels) := by
  rintro _ _ cs ⟨respelled⟩ found
  simp only [clauses?, Tree.items?, Option.bind_some, Tree.each?_eq_some_iff] at found ⊢
  induction respelled generalizing cs with
  | nil => exact found
  | @cons t t' _ _ first _ ih =>
    obtain ⟨c, others, read, rest, rfl⟩ := List.forall₂_cons_left_iff.mp found
    refine .cons ?_ (ih others rest)
    rcases first with rfl | changed
    · exact read
    · exact keeps_clause t t' c changed read

/-- Tasks are read alike. -/
theorem keeps_task : Keeps (FieldsRespelled taskField) (task? levels) := by
  intro t t' task respelled found
  obtain ⟨fields, record, action, input, with_, retry, join, next⟩ := task?_eq_some_iff.mp found
  obtain ⟨fields', record', respelled'⟩ := record?_of_respelled respelled record
  refine task?_eq_some_iff.mpr ⟨fields', record', ?_, ?_, ?_, ?_, ?_, ?_⟩
  · exact optionalField?_of_respelled keeps_eq respelled' action
  · exact field?_of_respelled keeps_eq respelled' input
  · exact optionalField?_of_respelled keeps_eq respelled' with_
  · exact optionalField?_of_respelled keeps_eq respelled' retry
  · exact optionalField?_of_respelled keeps_eq respelled' join
  · exact field?_of_respelled keeps_clauses respelled' next

theorem keeps_tasks : Keeps (FieldsRespelled fun _ => FieldsRespelled taskField) (tasks? levels) := by
  intro t t' tasks respelled found
  obtain ⟨members, entries, members_, read, same⟩ := tasks?_eq_some_iff.mp found
  obtain ⟨members', found', respelled'⟩ := members?_of_respelled respelled members_
  refine tasks?_eq_some_iff.mpr ⟨members', entries, found', ?_, same⟩
  rw [Tree.eachMember?_eq_some_iff] at read ⊢
  clear members_ found' same found
  induction respelled' generalizing entries with
  | nil => exact read
  | @cons m m' _ _ first _ ih =>
    obtain ⟨e, others, ⟨name, task⟩, rest, rfl⟩ := List.forall₂_cons_left_iff.mp read
    refine .cons ⟨first.1 ▸ name, ?_⟩ (ih others rest)
    rcases first.2 with kept | changed
    · exact kept ▸ task
    · exact keeps_task m.2 m'.2 e.2 changed task

/-- A document with parameters and destinations respelled states the definition that it stated. -/
theorem respelled_states_same {d : Definition} (respelled : Respelled t t')
    (loads : ofTree? t = some d) : ofTree? t' = some d := by
  obtain ⟨fields, input, vars, output, record, version, description, input_, vars_, output_, tasks,
    same⟩ := ofTreeWithin?_eq_some_iff.mp loads
  obtain ⟨fields', record', respelled'⟩ := record?_of_respelled respelled record
  have declarations : ∀ levels, Keeps ParametersRespelled (Tree.optional? (parameters? levels)) :=
    fun levels => keeps_parameters.optional present_of_parametersRespelled
  refine ofTreeWithin?_eq_some_iff.mpr
    ⟨fields', input, vars, output, record', ?_, ?_, ?_, ?_, ?_, ?_, same⟩
  · exact optionalField?_of_respelled keeps_eq respelled' version
  · exact optionalField?_of_respelled keeps_eq respelled' description
  · exact optionalField?_of_respelled (declarations _) respelled' input_
  · exact optionalField?_of_respelled (declarations _) respelled' vars_
  · exact optionalField?_of_respelled (declarations _) respelled' output_
  · exact field?_of_respelled keeps_tasks respelled' tasks

end Keeps

/-- The document with these parameters in each place for parameters, and this place to lead to. -/
def spelled (parameters destinations : Tree) : Tree :=
  .ofMembers [("input", parameters), ("vars", parameters), ("output", parameters),
    ("tasks", .ofMembers [("t", .ofMembers [("next",
      .list false [.ofMembers [("publish", parameters), ("do", destinations)]])])])]

/-- Two parameters, one of them null, as a list of maps. -/
def listedParameters : Tree :=
  .list false [.ofMembers [("a", .scalar .null)], .ofMembers [("b", .list false [.ofString "c"])]]

def mappedParameters : Tree :=
  .ofMembers [("a", .scalar .null), ("b", .list false [.ofString "c"])]

def spelledDefinition : Definition :=
  let parameters := [⟨"a", some .null⟩, ⟨"b", some (.list [.string "c"])⟩]
  { input := parameters
    vars := parameters
    output := parameters
    tasks := .ofList [("t",
      { next := [{ publish := parameters, destinations := ["noop", "task two"] }] })] }

theorem spelled_states_same :
    Respelled (spelled listedParameters (.list false [.ofString "noop", .ofString "task two"]))
        (spelled mappedParameters (.ofString " noop ,\ttask two")) ∧
      ofTree? (spelled listedParameters (.list false [.ofString "noop", .ofString "task two"])) =
        some spelledDefinition ∧
      ofTree? (spelled mappedParameters (.ofString " noop ,\ttask two")) =
        some spelledDefinition := by
  have parameters : ParametersRespelled listedParameters mappedParameters :=
    .asMap (.cons ⟨false, rfl⟩ (.cons ⟨false, rfl⟩ .nil)) (by decide)
  have destinations : DestinationsRespelled (.list false [.ofString "noop", .ofString "task two"])
      (.ofString " noop ,\ttask two") := by
    refine .asText (.cons rfl (.cons rfl .nil)) (by decide) ?_ rfl rfl
    refine .inr ⟨by decide, [" noop ".toList, "\ttask two".toList], ?_, by decide⟩
    have first : Padded "noop" " noop ".toList := ⟨[' '], [' '], by decide, by decide, by decide⟩
    have second : Padded "task two" "\ttask two".toList := ⟨['\t'], [], by decide, by decide, by decide⟩
    exact .cons first (.cons second .nil)
  have respelled : Respelled
      (spelled listedParameters (.list false [.ofString "noop", .ofString "task two"]))
      (spelled mappedParameters (.ofString " noop ,\ttask two")) := by
    have clause : FieldsRespelled clauseField
        (.ofMembers [("publish", listedParameters),
          ("do", .list false [.ofString "noop", .ofString "task two"])])
        (.ofMembers [("publish", mappedParameters), ("do", .ofString " noop ,\ttask two")]) :=
      .map (.cons ⟨rfl, .inr ⟨"publish", rfl, parameters⟩⟩
        (.cons ⟨rfl, .inr ⟨"do", rfl, destinations⟩⟩ .nil))
    have task : FieldsRespelled taskField
        (.ofMembers [("next", .list false [.ofMembers [("publish", listedParameters),
          ("do", .list false [.ofString "noop", .ofString "task two"])]])])
        (.ofMembers [("next", .list false [.ofMembers [("publish", mappedParameters),
          ("do", .ofString " noop ,\ttask two")]])]) :=
      .map (.cons ⟨rfl, .inr ⟨"next", rfl, .list (.cons (.inr clause) .nil)⟩⟩ .nil)
    refine .map ?_
    refine .cons ⟨rfl, .inr ⟨"input", rfl, parameters⟩⟩ ?_
    refine .cons ⟨rfl, .inr ⟨"vars", rfl, parameters⟩⟩ ?_
    refine .cons ⟨rfl, .inr ⟨"output", rfl, parameters⟩⟩ ?_
    refine .cons ⟨rfl, .inr ⟨"tasks", rfl, .map ?_⟩⟩ .nil
    exact .cons ⟨rfl, .inr ⟨"t", rfl, task⟩⟩ .nil
  have loads : ofTree? (spelled listedParameters
      (.list false [.ofString "noop", .ofString "task two"])) = some spelledDefinition := by
    rfl
  exact ⟨respelled, loads, respelled_states_same respelled loads⟩

end Definition

end Workflow
