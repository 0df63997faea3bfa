import Workflow.Definition.Encode
import Workflow.Definition.Load
import Workflow.Proofs.Definition.Fields
import Workflow.Proofs.Table
import Workflow.Proofs.Value.Members
import Workflow.Proofs.Yaml.Plain

/-!
A definition that was loaded, written as a tree and read from it again, is the same definition
(`reread_of_load`). A map of parameters is written as a list of maps, which takes one level more than
documents may nest; so the tree is read within more levels than a document.
-/

namespace Workflow

open Yaml

/-! ## Data -/

/-- The datum is read from its tree again, within so many levels and within more. -/
def Value.Rereads (levels : Nat) (v : Value) : Prop :=
  ∀ (key : Tree → Option String) (more : Nat), (∀ s, key (.ofString s) = some s) → levels ≤ more →
    Tree.value? key more (.ofValue v) = some v

/-- More levels do no harm. -/
theorem Value.Rereads.mono {levels more : Nat} {v : Value} (rereads : v.Rereads levels)
    (le : levels ≤ more) : v.Rereads more :=
  fun key n strings enough => rereads key n strings (Nat.le_trans le enough)

namespace Yaml.Tree

variable {key : Tree → Option String} {levels : Nat} {t : Tree} {v : Value}

theorem ofValues_eq (vs : List Value) : ofValues vs = vs.map ofValue := by
  induction vs with
  | nil => rw [ofValues, List.map_nil]
  | cons v vs ih => rw [ofValues, List.map_cons, ih]

theorem ofValueMembers_eq (ms : List (String × Value)) :
    ofValueMembers ms = ms.map fun m => (ofString m.1, ofValue m.2) := by
  induction ms with
  | nil => rw [ofValueMembers, List.map_nil]
  | cons m ms ih =>
    obtain ⟨name, v⟩ := m
    rw [ofValueMembers, List.map_cons, ih]

/-- A list is read again one level below its items. -/
theorem rereads_list {vs : List Value} (items : ∀ v ∈ vs, v.Rereads levels) :
    (Value.list vs).Rereads (levels + 1) := by
  intro key more strings le
  obtain ⟨inner, rfl⟩ := Nat.exists_eq_add_of_le' (Nat.le_trans (Nat.le_add_left 1 levels) le)
  rw [ofValue, value?_list_eq_some_iff]
  refine ⟨rfl, inner, vs, rfl, ?_, rfl⟩
  rw [values?_eq_some_iff, ofValues_eq, List.forall₂_map_left_iff, List.forall₂_same]
  exact fun v inside => items v inside key inner strings (Nat.le_of_succ_le_succ le)

theorem rereads_object {ms : List (String × Value)} (sorted : SortedKeys ms)
    (members : ∀ m ∈ ms, m.2.Rereads levels) : (Value.object ms).Rereads (levels + 1) := by
  intro key more strings le
  obtain ⟨inner, rfl⟩ := Nat.exists_eq_add_of_le' (Nat.le_trans (Nat.le_add_left 1 levels) le)
  rw [ofValue, value?_map_eq_some_iff]
  refine ⟨rfl, inner, ms, rfl, ?_, (Value.ofMembers_of_sorted sorted).symm⟩
  rw [memberValues?_eq_some_iff, ofValueMembers_eq, List.forall₂_map_left_iff, List.forall₂_same]
  exact fun m inside =>
    ⟨strings m.1, members m inside key inner strings (Nat.le_of_succ_le_succ le)⟩

/-- What is read from a tree is read again from the tree that is written for it. -/
theorem rereads_of_value? (plain : t.Plain) (read : value? key levels t = some v) :
    v.Rereads levels := by
  induction t using Tree.induction generalizing levels v with
  | scalar s =>
    obtain ⟨atom⟩ := plain
    rw [value?] at read
    intro key' more strings le
    cases v with
    | list items => exact (atom _ read).elim
    | object members => exact (atom _ read).elim
    | null | bool | number | string => rw [ofValue]; rfl
  | list tagged items ih =>
    obtain _ | inside := plain
    obtain ⟨_, inner, vs, rfl, values, rfl⟩ := value?_list_eq_some_iff.mp read
    rw [values?_eq_some_iff] at values
    refine rereads_list fun v among => ?_
    obtain ⟨item, here, found⟩ := exists_mem_of_forall₂ values among
    exact ih item here (inside item here) found
  | map tagged members ih =>
    obtain _ | _ | ⟨_, inside⟩ := plain
    obtain ⟨_, inner, vs, rfl, values, rfl⟩ := value?_map_eq_some_iff.mp read
    rw [memberValues?_eq_some_iff] at values
    -- Of members with one key the last one is kept, so the object may hold fewer than were read.
    obtain ⟨sorted, built, inOrder, from_⟩ := Value.exists_ofMembers vs
    rw [built]
    refine rereads_object inOrder fun m among => ?_
    obtain ⟨member, here, _, found⟩ := exists_mem_of_forall₂ values (from_ among)
    exact (ih member here).2 (inside member here) found
  | endless => simp [value?] at read

end Yaml.Tree

namespace Definition

variable {levels more : Nat} {t : Tree}

/-! ## Records -/

theorem plain_of_members? {members : List (String × Tree)} (plain : t.Plain)
    (found : t.members? = some members) : ∀ m ∈ members, m.2.Plain := by
  cases t with
  | scalar s =>
    obtain ⟨_, none_⟩ := Option.ite_none_right_eq_some.mp found
    cases none_
    nofun
  | list tagged items => cases found
  | map tagged ms =>
    obtain _ | _ | ⟨_, values⟩ := plain
    intro m inside
    obtain ⟨member, here, _, same⟩ :=
      exists_mem_of_forall₂ (textMembers?_eq_some_iff.mp found) inside
    exact same ▸ values member here
  | endless => cases found

theorem plain_of_items? {items : List Tree} (plain : t.Plain) (found : t.items? = some items) :
    ∀ item ∈ items, item.Plain := by
  cases t with
  | scalar s =>
    obtain ⟨_, none_⟩ := Option.ite_none_right_eq_some.mp found
    cases none_
    nofun
  | list tagged ts =>
    obtain _ | ⟨inside⟩ := plain
    cases found
    exact inside
  | map tagged ms => cases found
  | endless => cases found

section Records

theorem present_ofString (text : String) : (Tree.ofString text).Present := by
  intro s same
  cases same
  rfl

theorem present_ofCount (n : UInt32) : (Tree.scalar (.ofCount n)).Present := by
  intro s same
  cases same
  rfl

theorem present_ofValue {v : Value} (stated : v ≠ .null) : (Tree.ofValue v).Present := by
  intro s same
  cases v with
  | null => exact absurd rfl stated
  | list | object =>
    rw [Tree.ofValue] at same
    cases same
  | bool | number | string =>
    rw [Tree.ofValue] at same
    cases same
    rfl

variable {α β : Type} {fields : List String} {field name : String} {ws : List (String × Tree)}

theorem members?_ofMembers (ws : List (String × Tree)) : (Tree.ofMembers ws).members? = some ws := by
  rw [Tree.ofMembers, Tree.members?, textMembers?_eq_some_iff, List.forall₂_map_left_iff,
    List.forall₂_same]
  exact fun _ _ => ⟨rfl, rfl⟩

/-- Fields that are written in the order of the record, some of them left out, make up the record. -/
theorem record?_ofMembers (sublist : (ws.map Prod.fst).Sublist fields) (unique : fields.Nodup) :
    (Tree.ofMembers ws).record? fields = some ws := by
  refine Tree.record?_eq_some_iff.mpr ⟨members?_ofMembers ws, fun f _ => ?_⟩
  exact List.nodup_iff_count_le_one.mp (sublist.nodup unique) f

theorem names_optionalField (write : α → Tree) (a : Option α) :
    ((optionalField name write a).map Prod.fst).Sublist [name] := by
  cases a with
  | none => exact List.nil_sublist _
  | some a => exact List.Sublist.refl _

theorem names_listField (write : α → Tree) (as : List α) :
    ((listField name write as).map Prod.fst).Sublist [name] := by
  cases as with
  | nil => exact List.nil_sublist _
  | cons a as => exact List.Sublist.refl _

theorem names_inputField (input : Table Value) :
    ((inputField input).map Prod.fst).Sublist ["input"] := by
  unfold inputField
  split
  · exact List.nil_sublist _
  · exact List.Sublist.refl _

@[simp] theorem lookup_cons_eq (a : α) (l : List (String × α)) :
    ((name, a) :: l).lookup field = if field = name then some a else l.lookup field := by
  by_cases same : field = name
  · simp [same]
  · have miss : (field == name) = false := beq_false_of_ne same
    simp [List.lookup_cons, miss, same]

@[simp] theorem lookup_optionalField (write : α → Tree) (a : Option α) :
    (optionalField name write a).lookup field = if field = name then a.map write else none := by
  cases a with
  | none => simp [optionalField]
  | some a => exact lookup_cons_eq _ []

@[simp] theorem lookup_listField (write : α → Tree) (as : List α) :
    (listField name write as).lookup field =
      if field = name then (if as = [] then none else some (.list false (as.map write))) else none := by
  cases as with
  | nil => simp [listField]
  | cons a as => exact lookup_cons_eq _ []

@[simp] theorem lookup_inputField (input : Table Value) :
    (inputField input).lookup field = if field = "input" then (if input.isEmpty then none
      else some (.ofMembers (input.entries.map fun (name, v) => (name, .ofValue v)))) else none := by
  unfold inputField
  cases input.isEmpty with
  | true => simp
  | false => exact lookup_cons_eq _ []

/-- The fields of a plain record are plain. -/
theorem plain_of_lookup {named : List (String × Tree)} {t' : Tree} (plain : t.Plain)
    (record : t.record? fields = some named) (found : named.lookup field = some t') : t'.Plain := by
  obtain ⟨before, after, parts, _⟩ := List.lookup_eq_some_iff.mp found
  have inside : (field, t') ∈ named := parts ▸ List.mem_append_cons_self
  exact plain_of_members? plain (Tree.record?_eq_some_iff.mp record).1 _ inside

/-- A field that was written is read again. -/
theorem optionalField?_of_present {again : Tree → Option α} {a : α} {t : Tree}
    (written : ws.lookup field = some t) (present : t.Present) (same : again t = some a) :
    Tree.optionalField? again ws field = some (some a) := by
  rw [Tree.optionalField?_of_lookup written, Tree.optional?_of_present present, same]
  rfl

/-- An optional field is read as what was written into it. -/
theorem optionalField?_written {again : Tree → Option α} (write : α → Tree) {a : Option α}
    (written : ws.lookup field = a.map write)
    (reread : ∀ b, a = some b → (write b).Present ∧ again (write b) = some b) :
    Tree.optionalField? again ws field = some a := by
  cases a with
  | none => exact Tree.optionalField?_of_missing written
  | some a =>
    obtain ⟨present, same⟩ := reread a rfl
    exact optionalField?_of_present written present same

theorem textField?_written {text : Option String} (written : ws.lookup field = text.map .ofString) :
    Tree.optionalField? Tree.text? ws field = some text :=
  optionalField?_written .ofString written fun text _ => ⟨present_ofString text, rfl⟩

/-- A list that is left out where it is empty is read as what was written. -/
theorem listField?_written {again : Tree → Option (List α)} {write : α → Tree} {as : List α}
    (written : ws.lookup field = if as = [] then none else some (.list false (as.map write)))
    (same : again (.list false (as.map write)) = some as) :
    Tree.optionalField? again ws field = some (if as = [] then none else some as) ∧
      Tree.field? again [] ws field = some as := by
  split at written
  next none_ =>
    subst none_
    exact ⟨Tree.optionalField?_of_missing written, Tree.field?_of_missing written⟩
  next some_ =>
    refine ⟨?_, (Tree.field?_of_lookup written).trans same⟩
    rw [if_neg some_]
    exact optionalField?_of_present written Tree.present_list same

theorem getD_of_leftOut (as : List α) : (if as = [] then none else some as).getD [] = as := by
  split
  next none_ => exact none_.symm
  next => rfl

/-- What an optional field of a plain record is read as comes from a plain tree. -/
theorem exists_plain_of_optionalField? {read : Tree → Option α} {a : α}
    {named : List (String × Tree)} (plain : t.Plain) (record : t.record? fields = some named)
    (found : Tree.optionalField? read named field = some (some a)) :
    ∃ t' : Tree, t'.Plain ∧ read t' = some a := by
  obtain ⟨t', here, value⟩ := Tree.exists_of_optionalField? found
  exact ⟨t', plain_of_lookup plain record here, value⟩

end Records

/-! ## Parameters -/

section Parameters

variable {p : Parameter} {ps : List Parameter} {tagged : Bool}

/-- The value of the parameter, if it has one, is read from its tree again. -/
def Parameter.Rereads (levels : Nat) (p : Parameter) : Prop :=
  ∀ v, p.value = some v → v.Rereads levels

theorem Parameter.Rereads.mono (rereads : p.Rereads levels) (le : levels ≤ more) : p.Rereads more :=
  fun v value => (rereads v value).mono le

theorem parameter?_toTree (rereads : p.Rereads levels) : parameter? (levels + 1) p.toTree = some p := by
  obtain ⟨name, _ | v⟩ := p
  · rfl
  · refine parameter?_map_eq_some_iff.mpr ⟨rfl, Nat.succ_ne_zero _, [(name, v)], v, ?_, ?_, rfl⟩
    · rw [Tree.memberValues?_eq_some_iff]
      exact .cons ⟨rfl, rereads v rfl _ _ (fun _ => rfl) (Nat.le_refl levels)⟩ .nil
    · exact Table.entries_ofList (List.nodup_singleton name)

theorem rereads_of_memberValues? {members : List (Tree × Tree)} {values : List (String × Value)}
    (plain : (Yaml.Tree.map tagged members).Plain)
    (read : Tree.memberValues? Tree.string? levels members = some values) :
    ∀ e ∈ (Table.ofList values).entries, e.2.Rereads levels := by
  obtain _ | _ | ⟨_, inside⟩ := plain
  rw [Tree.memberValues?_eq_some_iff] at read
  intro e among
  obtain ⟨m, here, _, found⟩ := exists_mem_of_forall₂ read (Table.entries_ofList_subset values among)
  exact Tree.rereads_of_value? (inside m here) found

theorem rereads_of_parameter? (plain : t.Plain) (read : parameter? levels t = some p) :
    p.Rereads (levels - 1) := by
  cases t with
  | scalar s =>
    obtain ⟨name, _, rfl⟩ := Option.map_eq_some_iff.mp read
    nofun
  | list tagged items => cases read
  | map tagged members =>
    obtain ⟨_, _, values, v, inside, single, value⟩ := parameter?_map_eq_some_iff.mp read
    intro v' same
    cases value.symm.trans same
    exact rereads_of_memberValues? plain inside (p.name, v) (single ▸ List.mem_singleton_self _)
  | endless => cases read

/-- The values of parameters that were read are read again. -/
theorem rereads_of_parameters? (plain : t.Plain) (read : parameters? (levels + 1) t = some ps) :
    ∀ p ∈ ps, p.Rereads levels := by
  cases t with
  | scalar s => cases read
  | list tagged items =>
    obtain _ | ⟨inside⟩ := plain
    obtain ⟨_, _, each⟩ := parameters?_list_eq_some_iff.mp read
    intro p among
    obtain ⟨item, here, found⟩ := exists_mem_of_forall₂ (Tree.each?_eq_some_iff.mp each) among
    exact (rereads_of_parameter? (inside item here) found).mono (Nat.sub_le levels 1)
  | map tagged members =>
    obtain ⟨_, _, values, inside, rfl⟩ := parameters?_map_eq_some_iff.mp read
    intro p among v value
    obtain ⟨e, entry, rfl⟩ := List.mem_map.mp among
    cases value
    exact rereads_of_memberValues? plain inside e entry
  | endless => cases read

/-- Parameters that were read, written as a list and read again. -/
theorem parameters?_again (plain : t.Plain) (read : parameters? (levels + 1) t = some ps)
    (deep : levels < more) :
    parameters? (more + 1) (.list false (ps.map Parameter.toTree)) = some ps := by
  obtain ⟨inner, rfl⟩ := Nat.exists_eq_add_of_lt deep
  refine parameters?_list_eq_some_iff.mpr ⟨rfl, Nat.succ_ne_zero _, ?_⟩
  rw [Tree.each?_eq_some_iff, List.forall₂_map_left_iff, List.forall₂_same]
  exact fun p inside =>
    parameter?_toTree ((rereads_of_parameters? plain read p inside).mono (Nat.le_add_right _ _))

/-- Declarations and what is published may be missing, and are then none; they are written as a list. -/
theorem parametersField_again {fields : List String} {field : String} {named : List (String × Tree)}
    {read : Option (List Parameter)} (plain : t.Plain) (record : t.record? fields = some named)
    (found : Tree.optionalField? (parameters? (levels + 1)) named field = some read)
    (deep : levels < more) :
    parameters? (more + 1) (.list false ((read.getD []).map Parameter.toTree)) =
      some (read.getD []) := by
  cases read with
  | none => rfl
  | some ps =>
    obtain ⟨t', plain', value⟩ := exists_plain_of_optionalField? plain record found
    exact parameters?_again plain' value deep

end Parameters

/-! ## Tasks -/

section Tasks

theorem word?_ofCount (n : UInt32) : Tree.word? (.scalar (.ofCount n)) = some n := by
  have small : n.toNat < UInt32.size := n.toNat_lt
  simp [Tree.word?, Tree.count?, Scalar.ofCount, small]

theorem ofInt_of_held {n : Int} (held : -0x8000000000000000 ≤ n ∧ n < 0x10000000000000000) :
    Value.ofInt n = .number (.whole ⟨n, held⟩) := by
  unfold Value.ofInt Whole.ofInt?
  rw [dif_pos held]
  rfl

theorem join?_of_value {s : Scalar} {n : Whole} (value : s.value = some (.number (.whole n)))
    (word : 0 ≤ n.val ∧ n.val < UInt32.size) :
    join? (.scalar s) = some (.count (UInt32.ofNat n.val.toNat)) := by
  simp only [join?, value]
  exact if_pos word

theorem join?_joinTree (j : Join) : join? (joinTree j) = some j := by
  cases j with
  | all => rfl
  | count n =>
    have small : n.toNat < 0x100000000 := n.toNat_lt
    have held : -0x8000000000000000 ≤ (n.toNat : Int) ∧ (n.toNat : Int) < 0x10000000000000000 := by
      omega
    have value : (Scalar.ofCount n).value = some (.number (.whole ⟨n.toNat, held⟩)) :=
      congrArg some (ofInt_of_held held)
    have read := join?_of_value value ⟨Int.natCast_nonneg _, Int.ofNat_lt.mpr small⟩
    rwa [Int.toNat_natCast, UInt32.ofNat_toNat] at read

theorem present_joinTree (j : Join) : (joinTree j).Present := by
  cases j with
  | all => exact present_ofString "all"
  | count n => exact present_ofCount n

theorem retry?_retryTree (r : Retry) : retry? (retryTree r) = some r := by
  refine retry?_eq_some_iff.mpr ⟨_, record?_ofMembers ?_ (by decide), ?_, ?_, ?_⟩
  · simp only [List.map_append]
    exact ((names_optionalField _ _).append (.refl ["count"])).append (names_optionalField _ _)
  · apply textField?_written
    simp [List.lookup_append]
  · rw [Tree.field?_of_lookup (t := .scalar (.ofCount r.count)), word?_ofCount]
    simp [List.lookup_append]
  · refine optionalField?_written (fun n => .scalar (.ofCount n)) ?_ fun n _ =>
      ⟨present_ofCount n, word?_ofCount n⟩
    simp [List.lookup_append]

theorem forEach?_again {f : ForEach} (plain : t.Plain) (read : forEach? levels t = some f)
    (stated : f.concurrency ≠ some .null) (deep : levels ≤ more) :
    forEach? more f.toTree = some f := by
  obtain ⟨fields, record, _, concurrency⟩ := forEach?_eq_some_iff.mp read
  refine forEach?_eq_some_iff.mpr ⟨_, record?_ofMembers ?_ (by decide), rfl, ?_⟩
  · exact (List.Sublist.refl ["items"]).append (names_optionalField _ _)
  · refine optionalField?_written _ (lookup_optionalField Tree.ofValue f.concurrency)
      fun v value => ?_
    rw [value] at stated concurrency
    obtain ⟨t', plain', found⟩ := exists_plain_of_optionalField? plain record concurrency
    refine ⟨present_ofValue fun same => stated (congrArg some same), ?_⟩
    exact Tree.rereads_of_value? plain' found _ _ (fun _ => rfl) (Nat.sub_le_sub_right deep 1)

theorem destinations?_again (names : List String) :
    destinations? (.list false (names.map .ofString)) = some names := by
  refine destinations?_list_eq_some_iff.mpr ⟨rfl, ?_⟩
  rw [Tree.each?_eq_some_iff, List.forall₂_map_left_iff, List.forall₂_same]
  exact fun _ _ => rfl

/-- A clause that was read is read again from its tree. -/
theorem clause?_again {c : Clause} (plain : t.Plain) (read : clause? (levels + 2) t = some c)
    (deep : levels < more) : clause? (more + 2) c.toTree = some c := by
  obtain ⟨fields, publish, _, record, _, published, _, publish_, _⟩ := clause?_eq_some_iff.mp read
  have again := parametersField_again plain record published deep
  rw [publish_] at again
  refine clause?_eq_some_iff.mpr ⟨_, _, some c.destinations, record?_ofMembers ?_ (by decide),
    textField?_written ?_, (listField?_written ?_ again).1, ?_, getD_of_leftOut c.publish, rfl⟩
  · simp only [List.map_append]
    exact ((names_optionalField _ _).append (names_listField _ _)).append (.refl ["do"])
  · simp [List.lookup_append]
  · simp [List.lookup_append]
  · refine optionalField?_of_present ?_ Tree.present_list (destinations?_again c.destinations)
    simp [List.lookup_append]

theorem clauses?_again {cs : List Clause} (plain : t.Plain) (read : clauses? (levels + 2) t = some cs)
    (deep : levels < more) :
    clauses? (more + 2) (.list false (cs.map Clause.toTree)) = some cs := by
  obtain ⟨items, items_, each⟩ := Option.bind_eq_some_iff.mp read
  have inside := plain_of_items? plain items_
  rw [Tree.each?_eq_some_iff] at each
  unfold clauses? Tree.items?
  rw [Option.bind_some, Tree.each?_eq_some_iff, List.forall₂_map_left_iff, List.forall₂_same]
  intro c among
  obtain ⟨item, here, found⟩ := exists_mem_of_forall₂ each among
  exact clause?_again (inside item here) found deep

/-- Entries that are read from members of a plain tree, each of which is read again from what is written
for it, make up the table again. -/
theorem members_again {α : Type} {read again : Tree → Option α} {write : α → Tree}
    {members : List (String × Tree)} {entries : List (String × α)} {table : Table α}
    (plain : ∀ m ∈ members, m.2.Plain) (found : Tree.eachMember? read members = some entries)
    (same : Table.ofList entries = table)
    (reread : ∀ t' e, t'.Plain → read t' = some e.2 → e ∈ table.entries → again (write e.2) = some e.2) :
    Tree.eachMember? again (table.entries.map fun (name, a) => (name, write a)) =
      some table.entries := by
  rw [Tree.eachMember?_eq_some_iff] at found ⊢
  rw [List.forall₂_map_left_iff, List.forall₂_same]
  intro e inside
  have among : e ∈ entries := by
    rw [← same] at inside
    exact Table.entries_ofList_subset entries inside
  obtain ⟨m, here, _, value⟩ := exists_mem_of_forall₂ found among
  exact ⟨rfl, reread m.2 e (plain m here) value inside⟩

theorem input?_again {input : Table Value} (plain : t.Plain) (read : input? levels t = some input)
    (deep : levels ≤ more) :
    input? more (.ofMembers (input.entries.map fun (name, v) => (name, .ofValue v))) =
      some input := by
  obtain ⟨members, values, members_, found, same⟩ := input?_eq_some_iff.mp read
  refine input?_eq_some_iff.mpr
    ⟨_, input.entries, members?_ofMembers _, ?_, Table.ofList_entries input⟩
  refine members_again (plain_of_members? plain members_) found same fun t' e plain' value _ => ?_
  exact Tree.rereads_of_value? plain' value _ _ (fun _ => rfl) (Nat.sub_le_sub_right deep 1)

theorem inputField_again {fields : List String} {named ws : List (String × Tree)} {input : Table Value}
    (plain : t.Plain) (record : t.record? fields = some named)
    (read : Tree.field? (input? levels) .empty named "input" = some input)
    (written : ws.lookup "input" = (inputField input).lookup "input") (deep : levels ≤ more) :
    Tree.field? (input? more) .empty ws "input" = some input := by
  rw [lookup_inputField, if_pos rfl] at written
  split at written
  next none_ =>
    have empty : input = .empty := by
      obtain ⟨entries, _⟩ := input
      cases List.isEmpty_iff.mp none_
      rfl
    rw [Tree.field?_of_missing written, empty]
  next some_ =>
    rw [Tree.field?_of_lookup written]
    cases found : named.lookup "input" with
    | none =>
      rw [Tree.field?_of_missing found] at read
      cases read
      exact absurd rfl some_
    | some t' =>
      rw [Tree.field?_of_lookup found] at read
      exact input?_again (plain_of_lookup plain record found) read deep

/-- A task that was read is read again from its tree. -/
theorem task?_again {task : Task} (plain : t.Plain) (read : task? (levels + 4) t = some task)
    (stated : ∀ f, task.forEach = some f → f.concurrency ≠ some .null) (deep : levels < more) :
    task? (more + 4) task.toTree = some task := by
  obtain ⟨fields, record, _, input, with_, _, _, next⟩ := task?_eq_some_iff.mp read
  have outer : levels + 3 ≤ more + 3 := Nat.add_le_add_right (Nat.le_of_lt deep) 3
  have nextAgain : clauses? (more + 2) (.list false (task.next.map Clause.toTree)) =
      some task.next := by
    cases found : fields.lookup "next" with
    | none =>
      rw [Tree.field?_of_missing found] at next
      rw [← Option.some.inj next]
      rfl
    | some t' =>
      rw [Tree.field?_of_lookup found] at next
      exact clauses?_again (plain_of_lookup plain record found) next deep
  refine task?_eq_some_iff.mpr ⟨_, record?_ofMembers ?_ (by decide), textField?_written ?_,
    inputField_again plain record input ?_ outer,
    optionalField?_written ForEach.toTree ?_ fun f value => ⟨Tree.present_map, ?_⟩,
    optionalField?_written retryTree ?_ fun r _ => ⟨Tree.present_map, retry?_retryTree r⟩,
    optionalField?_written joinTree ?_ fun j _ => ⟨present_joinTree j, join?_joinTree j⟩,
    (listField?_written ?_ nextAgain).2⟩
  · simp only [List.map_append]
    exact (((((names_optionalField _ _).append (names_inputField _)).append
      (names_optionalField _ _)).append (names_optionalField _ _)).append
      (names_optionalField _ _)).append (names_listField _ _)
  · simp [List.lookup_append]
  · simp [List.lookup_append]
  · simp [List.lookup_append]
  · rw [value] at with_
    obtain ⟨t', plain', found⟩ := exists_plain_of_optionalField? plain record with_
    exact forEach?_again plain' found (stated f value) outer
  · simp [List.lookup_append]
  · simp [List.lookup_append]
  · simp [List.lookup_append]

theorem tasks?_again {tasks : Table Task} (plain : t.Plain)
    (read : tasks? (levels + 5) t = some tasks)
    (stated : ∀ e ∈ tasks.entries, ∀ f, e.2.forEach = some f → f.concurrency ≠ some .null)
    (deep : levels < more) :
    tasks? (more + 5) (.ofMembers (tasks.entries.map fun (name, t) => (name, t.toTree))) =
      some tasks := by
  obtain ⟨members, entries, members_, found, same⟩ := tasks?_eq_some_iff.mp read
  refine tasks?_eq_some_iff.mpr
    ⟨_, tasks.entries, members?_ofMembers _, ?_, Table.ofList_entries tasks⟩
  refine members_again (plain_of_members? plain members_) found same fun t' e plain' task inside => ?_
  exact task?_again plain' task (stated e inside) deep

end Tasks

/-! ## Definitions -/

/-- Neither the version nor a number of items at once is the datum null, which is written like a field
that is missing. -/
structure NullFree (d : Definition) : Prop where
  version : d.version ≠ some .null
  concurrency : ∀ e ∈ d.tasks.entries, ∀ f, e.2.forEach = some f → f.concurrency ≠ some .null

/-- A definition that was read is read again from its tree. -/
theorem ofTreeWithin?_again {d : Definition} (plain : t.Plain)
    (read : ofTreeWithin? (levels + 6) t = some d) (free : d.NullFree) (deep : levels < more) :
    ofTreeWithin? (more + 6) d.toTree = some d := by
  obtain ⟨fields, input, vars, output, record, version, _, input_, vars_, output_, tasks, same⟩ :=
    ofTreeWithin?_eq_some_iff.mp read
  obtain ⟨sameInput, sameVars, sameOutput⟩ := same
  have outer : levels + 4 < more + 4 := Nat.add_lt_add_right deep 4
  have inputAgain := parametersField_again plain record input_ outer
  have varsAgain := parametersField_again plain record vars_ outer
  have outputAgain := parametersField_again plain record output_ outer
  rw [sameInput] at inputAgain
  rw [sameVars] at varsAgain
  rw [sameOutput] at outputAgain
  have tasksAgain : tasks? (more + 5)
      (.ofMembers (d.tasks.entries.map fun (name, t) => (name, t.toTree))) = some d.tasks := by
    cases found : fields.lookup "tasks" with
    | none =>
      rw [Tree.field?_of_missing found] at tasks
      rw [← Option.some.inj tasks]
      rfl
    | some t' =>
      rw [Tree.field?_of_lookup found] at tasks
      exact tasks?_again (plain_of_lookup plain record found) tasks free.concurrency deep
  refine ofTreeWithin?_eq_some_iff.mpr ⟨_, some d.input, some d.vars, some d.output,
    record?_ofMembers ?_ (by decide), optionalField?_written Tree.ofValue ?_ fun v value => ?_,
    textField?_written ?_, optionalField?_of_present ?_ Tree.present_list inputAgain,
    optionalField?_of_present ?_ Tree.present_list varsAgain,
    optionalField?_of_present ?_ Tree.present_list outputAgain,
    (Tree.field?_of_lookup ?_).trans tasksAgain, rfl, rfl, rfl⟩
  · simp only [List.map_append]
    exact ((names_optionalField _ _).append (names_optionalField _ _)).append
      (.refl ["input", "vars", "output", "tasks"])
  · simp [List.lookup_append]
  · rw [value] at version
    obtain ⟨t', plain', found⟩ := exists_plain_of_optionalField? plain record version
    refine ⟨present_ofValue fun null => free.version (value.trans (congrArg some null)), ?_⟩
    exact Tree.rereads_of_value? plain' found _ _ (fun _ => rfl)
      (Nat.add_le_add_right (Nat.le_of_lt deep) 5)
  · simp [List.lookup_append]
  · simp [List.lookup_append]
  · simp [List.lookup_append]
  · simp [List.lookup_append]
  · simp [List.lookup_append]

theorem exists_tree_of_load {text : String} {d : Definition} (loaded : load text = .ok d) :
    ∃ t, Tree.ofString? text = some t ∧ ofTree? t = some d := by
  unfold load at loaded
  split at loaded
  · cases loaded
  next stated =>
    split at loaded
    · cases loaded
    · cases loaded
      exact Option.bind_eq_some_iff.mp stated

/-- A definition that was loaded is read again from the tree that is written for it, and the same tree is
written again. -/
theorem reread_of_load {text : String} {d : Definition} (loaded : load text = .ok d)
    (free : d.NullFree) {levels : Nat} (deep : maxNesting < levels) :
    ofTreeWithin? levels d.toTree = some d ∧
      (ofTreeWithin? levels d.toTree).map toTree = some d.toTree := by
  have again : ofTreeWithin? levels d.toTree = some d := by
    obtain ⟨t, parsed, read⟩ := exists_tree_of_load loaded
    obtain ⟨more, rfl⟩ := Nat.exists_eq_add_of_lt deep
    -- Six levels lead to the parameters that a clause publishes, and there one more is needed.
    have within : maxNesting - 6 < maxNesting - 6 + more + 1 :=
      Nat.lt_succ_of_le (Nat.le_add_right _ _)
    have same : maxNesting + more + 1 = maxNesting - 6 + more + 1 + 6 := by
      simp only [maxNesting]
      omega
    rw [same]
    exact ofTreeWithin?_again (plain_of_ofString? parsed) read free within
  refine ⟨again, ?_⟩
  rw [again]
  rfl

theorem exists_of_loaded {text : String} {holds : Definition → Bool}
    (checked : (load text).toOption.any holds = true) : ∃ d, load text = .ok d ∧ holds d = true := by
  cases loaded : load text with
  | error e =>
    rw [loaded] at checked
    cases checked
  | ok d =>
    rw [loaded] at checked
    exact ⟨d, rfl, checked⟩

/-- Parameters as a list and as a map, and a task with nearly all of its fields. -/
def spelledOut : String :=
  "version: '1'\nvars: [a, b: [c, \x7bd: ~\x7d]]\noutput: \x7be: , f: 2\x7d\ntasks:\n  t:\n" ++
  "    input: \x7bg: [h]\x7d\n    with: \x7bitems: i, concurrency: 3\x7d\n" ++
  "    retry: \x7bcount: 4\x7d\n    join: 5\n    next:\n    - publish: \x7bj: k\x7d\n      do: t, noop\n"

/-- Is there a datum that is not null? -/
def isTelling : Option Value → Bool
  | none | some .null => false
  | _ => true

theorem ne_null_of_isTelling {v : Option Value} (telling : isTelling v = true) : v ≠ some .null := by
  rintro rfl
  cases telling

/-- The definition in the text, as JSON. -/
def spelledOutJson : String :=
  "\x7b\"version\":\"1\",\"input\":[],\"vars\":[\"a\",\x7b\"b\":[\"c\",\x7b\"d\":null\x7d]\x7d]," ++
  "\"output\":[\x7b\"e\":null\x7d,\x7b\"f\":2\x7d],\"tasks\":\x7b\"t\":\x7b" ++
  "\"input\":\x7b\"g\":[\"h\"]\x7d,\"with\":\x7b\"items\":\"i\",\"concurrency\":3\x7d," ++
  "\"retry\":\x7b\"count\":4\x7d,\"join\":5,\"next\":[\x7b\"publish\":[\x7b\"j\":\"k\"\x7d]," ++
  "\"do\":[\"t\",\"noop\"]\x7d]\x7d\x7d\x7d"

theorem spelledOut_reread : ∃ d, load spelledOut = .ok d ∧ d.json = spelledOutJson ∧ d.NullFree ∧
    maxNesting < 129 ∧ ofTreeWithin? 129 d.toTree = some d ∧
      (ofTreeWithin? 129 d.toTree).map toTree = some d.toTree := by
  have checked : (load spelledOut).toOption.any (fun d => d.json == spelledOutJson &&
      (isTelling d.version &&
        d.tasks.entries.all fun e => e.2.forEach.all fun f => isTelling f.concurrency)) = true := by
    decide +kernel
  obtain ⟨d, loaded, holds⟩ := exists_of_loaded checked
  simp only [Bool.and_eq_true, List.all_eq_true, beq_iff_eq] at holds
  obtain ⟨written, version, concurrency⟩ := holds
  have free : d.NullFree := by
    refine ⟨ne_null_of_isTelling version, fun e inside f with_ => ?_⟩
    have told := concurrency e inside
    rw [with_] at told
    exact ne_null_of_isTelling told
  exact ⟨d, loaded, written, free, by decide, reread_of_load loaded free (by decide)⟩

end Definition

end Workflow
