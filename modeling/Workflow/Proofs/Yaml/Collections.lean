import Mathlib.Data.List.Forall2
import Workflow.Yaml.Record

/-!
What reading collections comes to: every item is read, and every member with its key. A tree that is
read within so many levels is read alike within more (`value?_mono`).
-/

namespace Workflow.Yaml

/-- What reads every item of a list gives what the items are read as, one by one. -/
theorem all_read_iff {α β : Type} {read : α → Option β} {readAll : List α → Option (List β)}
    (cons : ∀ a as, readAll (a :: as) = (read a).bind fun b => (readAll as).map (b :: ·))
    (nil : readAll [] = some []) {as : List α} {bs : List β} :
    readAll as = some bs ↔ List.Forall₂ (fun a b => read a = some b) as bs := by
  induction as generalizing bs with
  | nil =>
    rw [nil, List.forall₂_nil_left_iff, Option.some.injEq]
    exact eq_comm
  | cons a as ih =>
    simp only [cons, Option.bind_eq_some_iff, Option.map_eq_some_iff, ih, List.forall₂_cons_left_iff]
    exact ⟨fun ⟨b, first, bs, others, same⟩ => ⟨b, bs, first, others, same.symm⟩,
      fun ⟨b, bs, first, others, same⟩ => ⟨b, first, bs, others, same.symm⟩⟩

/-- What reads every member of a map gives what the keys and the values are read as, one by one. -/
theorem members_read_iff {α β γ δ : Type} {key : α → Option γ} {read : β → Option δ}
    {readAll : List (α × β) → Option (List (γ × δ))}
    (cons : ∀ k b ms, readAll ((k, b) :: ms) =
      (key k).bind fun name => (read b).bind fun d => (readAll ms).map ((name, d) :: ·))
    (nil : readAll [] = some []) {ms : List (α × β)} {ns : List (γ × δ)} :
    readAll ms = some ns ↔
      List.Forall₂ (fun m n => key m.1 = some n.1 ∧ read m.2 = some n.2) ms ns := by
  have one : ∀ (m : α × β) (n : γ × δ),
      ((key m.1).bind fun name => (read m.2).map fun d => (name, d)) = some n ↔
        key m.1 = some n.1 ∧ read m.2 = some n.2 := by
    intro m n
    cases key m.1 <;> cases read m.2 <;> simp [Prod.ext_iff]
  simp only [← one]
  refine all_read_iff (fun m ms => ?_) nil
  rw [cons]
  cases key m.1 <;> cases read m.2 <;> rfl

/-- What is related to a list one by one is related to something in it. -/
theorem exists_mem_of_forall₂ {α β : Type} {R : α → β → Prop} {as : List α} {bs : List β} {b : β}
    (related : List.Forall₂ R as bs) (inside : b ∈ bs) : ∃ a ∈ as, R a b := by
  induction related with
  | nil => cases inside
  | @cons a b' as _ first _ ih =>
    rcases List.mem_cons.mp inside with rfl | later
    · exact ⟨a, List.mem_cons_self, first⟩
    · obtain ⟨a', among, found⟩ := ih later
      exact ⟨a', List.mem_cons_of_mem a among, found⟩

theorem textMembers?_eq_some_iff {members : List (Tree × Tree)} {named : List (String × Tree)} :
    textMembers? members = some named ↔
      List.Forall₂ (fun m n => m.1.text? = some n.1 ∧ m.2 = n.2) members named := by
  have cons : ∀ (k t : Tree) (ms : List (Tree × Tree)), textMembers? ((k, t) :: ms) =
      k.text?.bind fun name => (some t).bind fun t => (textMembers? ms).map ((name, t) :: ·) := by
    intro k t ms
    rw [textMembers?]
    cases k.text? <;> cases textMembers? ms <;> rfl
  simpa only [Option.some.injEq] using members_read_iff cons rfl

namespace Tree

/-- Induction over trees: what holds of a tree as soon as it holds of its items, or of its keys and
values, holds of all. -/
@[elab_as_elim]
theorem induction {motive : Tree → Prop} (scalar : ∀ s, motive (scalar s))
    (list : ∀ tagged items, (∀ item ∈ items, motive item) → motive (list tagged items))
    (map : ∀ tagged members, (∀ m ∈ members, motive m.1 ∧ motive m.2) → motive (map tagged members))
    (endless : motive endless) : ∀ t, motive t
  | .scalar s => scalar s
  | .list tagged items => list tagged items fun item _ => induction scalar list map endless item
  | .map tagged members => map tagged members fun m inside =>
    have := List.sizeOf_lt_of_mem inside
    ⟨induction scalar list map endless m.1, induction scalar list map endless m.2⟩
  | .endless => endless
decreasing_by
  · decreasing_tactic
  all_goals
    cases m
    simp only [Tree.map.sizeOf_spec, Prod.mk.sizeOf_spec] at *
    omega

section Each

variable {α : Type} {read : Tree → Option α}

/-- Every item is read, each by itself. -/
theorem each?_eq_some_iff {ts : List Tree} {as : List α} :
    each? read ts = some as ↔ List.Forall₂ (fun t a => read t = some a) ts as := by
  have cons : ∀ t ts, each? read (t :: ts) =
      (read t).bind fun a => (each? read ts).map (a :: ·) := by
    intro t ts
    rw [each?]
    cases read t <;> cases each? read ts <;> rfl
  exact all_read_iff cons rfl

/-- Every value is read, each under its key. -/
theorem eachMember?_eq_some_iff {ts : List (String × Tree)} {as : List (String × α)} :
    eachMember? read ts = some as ↔
      List.Forall₂ (fun t a => t.1 = a.1 ∧ read t.2 = some a.2) ts as := by
  have cons : ∀ name t ts, eachMember? read ((name, t) :: ts) =
      (some name).bind fun name => (read t).bind fun a =>
        (eachMember? read ts).map ((name, a) :: ·) := by
    intro name t ts
    rw [eachMember?]
    cases read t <;> cases eachMember? read ts <;> rfl
  simpa only [Option.some.injEq] using members_read_iff cons rfl

end Each

section Values

variable {key : Tree → Option String} {levels : Nat}

theorem values?_eq_some_iff {items : List Tree} {vs : List Value} :
    values? key levels items = some vs ↔
      List.Forall₂ (fun t v => value? key levels t = some v) items vs := by
  have cons : ∀ t items, values? key levels (t :: items) =
      (value? key levels t).bind fun v => (values? key levels items).map (v :: ·) := by
    intro t items
    rw [values?]
    cases value? key levels t <;> cases values? key levels items <;> rfl
  exact all_read_iff cons (by rw [values?])

theorem memberValues?_eq_some_iff {members : List (Tree × Tree)} {vs : List (String × Value)} :
    memberValues? key levels members = some vs ↔
      List.Forall₂ (fun m v => key m.1 = some v.1 ∧ value? key levels m.2 = some v.2) members vs := by
  have cons : ∀ k t members, memberValues? key levels ((k, t) :: members) =
      (key k).bind fun name => (value? key levels t).bind fun v =>
        (memberValues? key levels members).map ((name, v) :: ·) := by
    intro k t members
    rw [memberValues?]
    cases key k <;> cases value? key levels t <;> cases memberValues? key levels members <;> rfl
  exact members_read_iff cons (by rw [memberValues?])

/-- A list is read as the list of what its items are read as, one level further in. -/
theorem value?_list_eq_some_iff {tagged : Bool} {items : List Tree} {v : Value} :
    value? key levels (list tagged items) = some v ↔
      tagged = false ∧ ∃ inner vs, levels = inner + 1 ∧
        values? key inner items = some vs ∧ v = .list vs := by
  cases levels with
  | zero => simp [value?]
  | succ inner => cases tagged <;> simp [value?, Option.map_eq_some_iff, eq_comm (b := v)]

/-- A map is read as the object of what its members are read as, one level further in. -/
theorem value?_map_eq_some_iff {tagged : Bool} {members : List (Tree × Tree)} {v : Value} :
    value? key levels (map tagged members) = some v ↔
      tagged = false ∧ ∃ inner vs, levels = inner + 1 ∧
        memberValues? key inner members = some vs ∧ v = .ofMembers vs := by
  cases levels with
  | zero => simp [value?]
  | succ inner => cases tagged <;> simp [value?, Option.map_eq_some_iff, eq_comm (b := v)]

/-- What is read within so many levels is read alike within more. -/
theorem value?_mono {t : Tree} {v : Value} {more : Nat} (read : value? key levels t = some v)
    (le : levels ≤ more) : value? key more t = some v := by
  induction t using Tree.induction generalizing levels more v with
  | scalar s => simpa [value?] using read
  | list tagged items ih =>
    obtain ⟨untagged, inner, vs, rfl, items_, rfl⟩ := value?_list_eq_some_iff.mp read
    obtain ⟨inner', rfl⟩ := Nat.exists_eq_add_of_le' (Nat.le_trans (Nat.le_add_left 1 inner) le)
    refine value?_list_eq_some_iff.mpr ⟨untagged, inner', vs, rfl, ?_, rfl⟩
    rw [values?_eq_some_iff] at items_ ⊢
    exact ((List.forall₂_and_left _ _).mpr ⟨ih, items_⟩).imp fun _ _ both =>
      both.1 both.2 (Nat.le_of_succ_le_succ le)
  | map tagged members ih =>
    obtain ⟨untagged, inner, vs, rfl, members_, rfl⟩ := value?_map_eq_some_iff.mp read
    obtain ⟨inner', rfl⟩ := Nat.exists_eq_add_of_le' (Nat.le_trans (Nat.le_add_left 1 inner) le)
    refine value?_map_eq_some_iff.mpr ⟨untagged, inner', vs, rfl, ?_, rfl⟩
    rw [memberValues?_eq_some_iff] at members_ ⊢
    exact ((List.forall₂_and_left _ _).mpr ⟨ih, members_⟩).imp fun _ _ both =>
      ⟨both.2.1, both.1.2 both.2.2 (Nat.le_of_succ_le_succ le)⟩
  | endless => simp [value?] at read

/-- More levels change nothing that was read. -/
theorem memberValues?_mono {members : List (Tree × Tree)} {vs : List (String × Value)} {more : Nat}
    (read : memberValues? key levels members = some vs) (le : levels ≤ more) :
    memberValues? key more members = some vs := by
  rw [memberValues?_eq_some_iff] at read ⊢
  exact read.imp fun _ _ both => ⟨both.1, value?_mono both.2 le⟩

end Values

/-- A record is a map with texts for keys in which no field occurs twice. -/
theorem record?_eq_some_iff {fields : List String} {t : Tree} {named : List (String × Tree)} :
    t.record? fields = some named ↔ t.members? = some named ∧
      ∀ f ∈ fields, (named.map Prod.fst).count f ≤ 1 := by
  have counts : ∀ (ms : List (String × Tree)) (f : String),
      (ms.filter fun m => m.1 == f).length = (ms.map Prod.fst).count f := by
    intro ms f
    rw [List.count, List.countP_map, List.countP_eq_length_filter]
    rfl
  unfold record?
  simp only [counts]
  cases t.members? with
  | none => simp
  | some members =>
    simp only [Option.some.injEq, List.all_eq_true, decide_eq_true_eq, Option.ite_none_right_eq_some]
    constructor
    · rintro ⟨once, rfl⟩
      exact ⟨rfl, once⟩
    · rintro ⟨rfl, once⟩
      exact ⟨once, rfl⟩

end Tree

end Workflow.Yaml
