import Mathlib.Data.List.Nodup
import Workflow.Table

/-!
Looking names up in tables.
-/

namespace Workflow.Table

variable {α : Type} {t : Table α} {name : String} {value : α}

private theorem lookup_eq_some_iff {entries : List (String × α)}
    (unique : (entries.map Prod.fst).Nodup) :
    entries.lookup name = some value ↔ (name, value) ∈ entries := by
  induction entries with
  | nil => simp
  | cons e entries ih =>
    obtain ⟨key, other⟩ := e
    rw [List.map_cons, List.nodup_cons] at unique
    rw [List.lookup_cons]
    by_cases same : name = key
    · subst same
      have elsewhere : (name, value) ∉ entries := fun inside =>
        unique.1 (List.mem_map.mpr ⟨_, inside, rfl⟩)
      simp [elsewhere, eq_comm]
    · have miss : (name == key) = false := by simpa using same
      simp [miss, same, ih unique.2]

/-- Names are unique, so an entry is what its name stands for. -/
theorem get?_eq_some_iff : t.get? name = some value ↔ (name, value) ∈ t.entries := by
  unfold get?
  exact lookup_eq_some_iff t.nodup

theorem mem_names_iff : name ∈ t.names ↔ ∃ value, t.get? name = some value := by
  unfold names
  simp only [List.mem_map, get?_eq_some_iff, Prod.exists, exists_and_right, exists_eq_right]

theorem contains_iff : t.contains name = true ↔ name ∈ t.names := by
  unfold contains
  rw [mem_names_iff, Option.isSome_iff_exists]

theorem mem_values_of_get? (found : t.get? name = some value) : value ∈ t.values :=
  List.mem_map.mpr ⟨(name, value), get?_eq_some_iff.mp found, rfl⟩

/-- What names stand for does not depend on the order of the entries. -/
theorem get?_eq_of_perm {t' : Table α} (perm : t.entries.Perm t'.entries) : t.get? = t'.get? := by
  funext name
  refine Option.ext fun value => ?_
  rw [get?_eq_some_iff, get?_eq_some_iff, perm.mem_iff]

theorem contains_eq_of_perm {t' : Table α} (perm : t.entries.Perm t'.entries) :
    t.contains = t'.contains := by
  funext name
  unfold contains
  rw [get?_eq_of_perm perm]

theorem names_nodup (t : Table α) : t.names.Nodup :=
  t.nodup

private theorem lookup_replace_of_ne {entries : List (String × α)} {other : String}
    (apart : other ≠ name) : (replace name value entries).lookup other = entries.lookup other := by
  unfold replace
  induction entries with
  | nil => rfl
  | cons e entries ih =>
    obtain ⟨key, old⟩ := e
    by_cases hit : key = name
    · subst hit
      have miss : (other == key) = false := by simpa using apart
      simpa [List.lookup_cons, miss] using ih
    · simp [hit, List.lookup_cons, ih]

private theorem lookup_replace_self {entries : List (String × α)}
    (known : name ∈ entries.map Prod.fst) :
    (replace name value entries).lookup name = some value := by
  unfold replace
  induction entries with
  | nil => simp at known
  | cons e entries ih =>
    obtain ⟨key, old⟩ := e
    by_cases hit : key = name
    · simp [hit]
    · have later : name ∈ entries.map Prod.fst := by
        rcases List.mem_cons.mp known with rfl | later
        · exact absurd rfl hit
        · exact later
      have miss : (name == key) = false := by simpa using fun same => hit same.symm
      simpa [hit, List.lookup_cons, miss] using ih later

/-- The new entry is found under its name, and all others as before. -/
theorem get?_insert (t : Table α) (name other : String) (value : α) :
    (t.insert name value).get? other = if other = name then some value else t.get? other := by
  unfold insert get?
  split
  next known =>
    split
    next same => rw [same]; exact lookup_replace_self known
    next apart => exact lookup_replace_of_ne apart
  next unknown =>
    rw [List.lookup_append]
    split
    next same =>
      subst same
      have missing : t.entries.lookup other = none := by
        rw [List.lookup_eq_none_iff]
        intro e inside
        have apart : other ≠ e.1 := fun same => unknown (List.mem_map.mpr ⟨e, inside, same.symm⟩)
        simpa using apart
      simp [missing]
    next apart =>
      have miss : (other == name) = false := by simpa using apart
      simp [List.lookup_cons, miss]

theorem mem_entries_insert {e : String × α} (inside : e ∈ (t.insert name value).entries) :
    e = (name, value) ∨ e ∈ t.entries := by
  unfold insert at inside
  split at inside
  · obtain ⟨old, known, rfl⟩ := List.mem_map.mp inside
    split
    · exact .inl rfl
    · exact .inr known
  · exact (List.mem_append.mp inside).symm.imp_left List.mem_singleton.mp

/-- Entries with different names are the entries of their table. -/
theorem entries_ofList {entries : List (String × α)} (unique : (entries.map Prod.fst).Nodup) :
    (ofList entries).entries = entries := by
  have more : ∀ (t : Table α) (later : List (String × α)),
      ((t.entries ++ later).map Prod.fst).Nodup →
        (later.foldl (fun t e => t.insert e.1 e.2) t).entries = t.entries ++ later := by
    intro t later unique
    induction later generalizing t with
    | nil => exact (List.append_nil _).symm
    | cons e later ih =>
      have new : e.1 ∉ t.entries.map Prod.fst := by
        rw [List.map_append, List.nodup_append] at unique
        exact fun known => unique.2.2 _ known e.1 List.mem_cons_self rfl
      have last : (t.insert e.1 e.2).entries = t.entries ++ [e] := by
        unfold insert
        rw [dif_neg new]
      rw [List.foldl_cons, ih, last, List.append_assoc, List.singleton_append]
      rwa [last, List.append_assoc]
  exact more empty entries unique

/-- Every entry of a table was put in. -/
theorem entries_ofList_subset (entries : List (String × α)) : (ofList entries).entries ⊆ entries := by
  have more : ∀ (later : List (String × α)) (t : Table α),
      (later.foldl (fun t e => t.insert e.1 e.2) t).entries ⊆ t.entries ++ later := by
    intro later
    induction later with
    | nil => exact fun t => List.subset_append_left t.entries []
    | cons e later ih =>
      intro t e' inside
      rcases List.mem_append.mp (ih (t.insert e.1 e.2) inside) with old | new
      · rcases mem_entries_insert old with rfl | old
        · exact List.mem_append_right _ List.mem_cons_self
        · exact List.mem_append_left _ old
      · exact List.mem_append_right _ (List.mem_cons_of_mem e new)
  exact more entries empty

/-- A table is the table of its entries. -/
theorem ofList_entries (t : Table α) : ofList t.entries = t := by
  have same := entries_ofList t.nodup
  obtain ⟨entries, unique⟩ := t
  generalize ofList entries = other at same
  cases other
  cases same
  rfl

end Workflow.Table
