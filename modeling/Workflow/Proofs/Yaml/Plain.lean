import Mathlib.Data.List.Basic
import Workflow.Yaml.Document

/-!
Collections in documents are lists and maps: no scalar of a document stands for one, also not behind an
alias (`plain_of_ofString?`).
-/

namespace Workflow

def Value.IsAtom : Value → Prop
  | .list _ => False
  | .object _ => False
  | _ => True

theorem Value.isAtom_ofFloat (x : Float) : (Value.ofFloat x).IsAtom := by
  unfold Value.ofFloat
  split <;> trivial

namespace Yaml

/-! ## Scalars -/

variable {text tag : String} {v : Value}

theorem isAtom_of_wholeValue? {cs : List Char} {o : Option Value} (read : wholeValue? cs = some o) :
    ∀ v ∈ o, v.IsAtom := by
  unfold wholeValue? at read
  split at read
  · cases read
  · split at read
    · rintro v inside
      cases Option.some.inj read
      cases Option.mem_some.mp inside
      trivial
    · split at read
      · cases Option.some.inj read
        nofun
      · cases read

/-- No plain scalar stands for a collection. -/
theorem isAtom_of_plainValue (read : plainValue text = some v) : v.IsAtom := by
  unfold plainValue at read
  dsimp only at read
  split at read
  · cases Option.some.inj read
    trivial
  · split at read
    · cases Option.some.inj read
      trivial
    · split at read
      next whole => exact isAtom_of_wholeValue? whole v read
      next =>
        split at read
        · cases Option.some.inj read
          trivial
        · split at read
          · cases Option.some.inj read
            exact Value.isAtom_ofFloat _
          · cases Option.some.inj read
            trivial

/-- Nor does one with a tag. -/
theorem isAtom_of_taggedValue (read : taggedValue tag text = some v) : v.IsAtom := by
  unfold taggedValue at read
  split at read
  · cases read
  split at read
  · obtain ⟨b, _, rfl⟩ := Option.map_eq_some_iff.mp read
    trivial
  split at read
  · exact isAtom_of_wholeValue? (Option.join_eq_some_iff.mp read) v rfl
  split at read
  · obtain ⟨x, _, rfl⟩ := Option.map_eq_some_iff.mp read
    exact Value.isAtom_ofFloat x
  split at read
  · split at read
    · cases Option.some.inj read
      trivial
    · cases read
  · cases Option.some.inj read
    trivial

/-- What a scalar of a document stands for is no collection. -/
theorem isAtom_of_resolve {style : Style} {tag : Option String}
    (read : (Scalar.resolve text style tag).value = some v) : v.IsAtom := by
  unfold Scalar.resolve at read
  dsimp only at read
  split at read
  · exact isAtom_of_taggedValue read
  · split at read
    · exact isAtom_of_plainValue read
    · cases Option.some.inj read
      trivial

/-! ## Trees -/

/-- No scalar of the tree stands for a collection. -/
inductive Tree.Plain : Tree → Prop where
  | scalar {s : Scalar} (atom : ∀ v, s.value = some v → v.IsAtom) : Plain (.scalar s)
  | list {tagged : Bool} {items : List Tree} (inside : ∀ t ∈ items, Plain t) :
      Plain (.list tagged items)
  | map {tagged : Bool} {members : List (Tree × Tree)} (keys : ∀ m ∈ members, Plain m.1)
      (values : ∀ m ∈ members, Plain m.2) : Plain (.map tagged members)
  | endless : Plain .endless

/-- Scalars as they are read are plain. -/
theorem Tree.plain_resolve (text : String) (style : Style) (tag : Option String) :
    (Tree.scalar (.resolve text style tag)).Plain :=
  .scalar fun _ => isAtom_of_resolve

namespace Reading

def Plain (r : Reading) : Prop :=
  ∀ name t n, (name, some (t, n)) ∈ r.anchors → t.Plain

variable {r r' start : Reading} {t : Tree}

theorem Plain.of_anchors_eq (plain : r.Plain) (same : r'.anchors = r.anchors) : r'.Plain := by
  unfold Plain
  rw [same]
  exact plain

theorem Plain.skip (plain : r.Plain) : r.skip.Plain :=
  plain.of_anchors_eq rfl

theorem Plain.counted (plain : r.Plain) (events : Nat) : (r.counted events).Plain :=
  plain.of_anchors_eq rfl

theorem Plain.open_ (plain : r.Plain) (anchor : Option String) : (r.open_ anchor).Plain := by
  cases anchor with
  | none => exact plain
  | some name =>
    intro name' t n inside
    rcases List.mem_cons.mp inside with new | old
    · cases new
    · exact plain name' t n old

theorem Plain.takeAnchor (plain : r.Plain) : r.takeAnchor.2.Plain := by
  unfold Reading.takeAnchor
  split
  · exact plain.skip
  · exact plain

theorem Plain.takeTag {tag : Option String} (plain : r.Plain) (taken : r.takeTag = some (tag, r')) :
    r'.Plain := by
  unfold Reading.takeTag at taken
  split at taken
  · obtain ⟨_, _, same⟩ := Option.map_eq_some_iff.mp taken
    cases same
    exact plain.skip
  · cases taken
    exact plain

theorem Plain.takeProperties {anchor tag : Option String} (plain : r.Plain)
    (taken : r.takeProperties = some (anchor, tag, r')) : r'.Plain := by
  unfold Reading.takeProperties at taken
  have first := plain.takeAnchor
  split at taken
  next found =>
    rw [found] at first
    obtain ⟨⟨tag', r''⟩, took, same⟩ := Option.map_eq_some_iff.mp taken
    cases same
    exact first.takeTag took
  next found =>
    rw [found] at first
    obtain ⟨⟨tag', r''⟩, took, same⟩ := Option.map_eq_some_iff.mp taken
    have second := first.takeTag took
    dsimp only at same
    split at same
    · cases same
      exact second.takeAnchor
    · cases same
      exact second

end Reading

/-- What has been read, if anything, has the property, and the trees of the anchors are plain. -/
def Gives {α : Type} (P : α → Prop) (result : Option (α × Reading)) : Prop :=
  ∀ a r, result = some (a, r) → P a ∧ r.Plain

section Gives

variable {α β : Type} {P : α → Prop} {Q : β → Prop} {result : Option (α × Reading)} {r start : Reading}
  {t : Tree}

theorem gives_none : Gives P none := by
  nofun

theorem gives_some {a : α} (holds : P a) (plain : r.Plain) : Gives P (some (a, r)) := by
  rintro _ _ ⟨⟩
  exact ⟨holds, plain⟩

theorem Gives.map {f : α × Reading → β × Reading} (given : Gives P result)
    (next : ∀ a r, P a → r.Plain → Gives Q (some (f (a, r)))) : Gives Q (result.map f) := by
  intro b r found
  obtain ⟨⟨a, r'⟩, here, same⟩ := Option.map_eq_some_iff.mp found
  obtain ⟨holds, plain⟩ := given a r' here
  exact next a r' holds plain b r (congrArg some same)

theorem gives_close (plain : r.Plain) (tree : t.Plain) (anchor : Option String) :
    Gives Tree.Plain (some (r.close start anchor t)) := by
  cases anchor with
  | none => exact gives_some tree plain
  | some name =>
    refine gives_some tree fun name' t' n inside => ?_
    rcases List.mem_or_eq_of_mem_set inside with old | new
    · exact plain name' t' n old
    · cases new
      exact tree

theorem gives_expand (plain : r.Plain) (name : String) : Gives Tree.Plain (r.expand name) := by
  unfold Reading.expand
  split
  · exact gives_none
  · exact gives_some .endless (plain.counted 1)
  next t aliases found =>
    refine gives_some ?_ (plain.of_anchors_eq rfl)
    obtain ⟨before, after, parts, _⟩ := List.lookup_eq_some_iff.mp found
    exact plain name t aliases (by rw [parts]; simp)

theorem gives_blank (plain : r.Plain) : Gives Tree.Plain (some r.blank) :=
  gives_some (Tree.plain_resolve "" .plain none) (plain.counted 1)

theorem gives_orBlank (plain : r.Plain) (ends : List Token)
    {read : Reading → Option (Tree × Reading)} (given : Gives Tree.Plain (read r)) :
    Gives Tree.Plain (r.orBlank ends read) := by
  unfold Reading.orBlank
  split
  · exact gives_blank plain
  · exact given

def PlainItems (items : List Tree) : Prop :=
  ∀ t ∈ items, t.Plain

def PlainMember (m : Tree × Tree) : Prop :=
  m.1.Plain ∧ m.2.Plain

def PlainMembers (members : List (Tree × Tree)) : Prop :=
  ∀ m ∈ members, PlainMember m

theorem PlainItems.tree {items : List Tree} (plain : PlainItems items) (tagged : Bool) :
    (Tree.list tagged items).Plain :=
  .list plain

theorem PlainMembers.tree {members : List (Tree × Tree)} (plain : PlainMembers members)
    (tagged : Bool) : (Tree.map tagged members).Plain :=
  .map (fun m inside => (plain m inside).1) fun m inside => (plain m inside).2

end Gives

/-- Whatever is read with this fuel is plain. -/
structure ReadsPlain (fuel : Nat) : Prop where
  node : ∀ block level r, r.Plain → Gives Tree.Plain (readNode fuel block level r)
  blockItems : ∀ r, r.Plain → Gives PlainItems (readBlockItems fuel r)
  levelItems : ∀ r, r.Plain → Gives PlainItems (readLevelItems fuel r)
  blockMembers : ∀ r, r.Plain → Gives PlainMembers (readBlockMembers fuel r)
  flowItems : ∀ first r, r.Plain → Gives PlainItems (readFlowItems fuel first r)
  flowMembers : ∀ first r, r.Plain → Gives PlainMembers (readFlowMembers fuel first r)

namespace ReadsPlain

variable {fuel : Nat} {r : Reading}

theorem zero : ReadsPlain 0 := by
  constructor <;> intros <;> simp only [readNode, readBlockItems, readLevelItems, readBlockMembers,
    readFlowItems, readFlowMembers] <;> exact gives_none

/-- A node is plain if its parts are, which are read with less fuel. -/
theorem node_succ (reads : ReadsPlain fuel) (block level : Bool) (start : Reading)
    (plain : start.Plain) : Gives Tree.Plain (readNode (fuel + 1) block level start) := by
  unfold readNode
  split
  next name _ => exact gives_expand plain.skip name
  next =>
    split
    · exact gives_none
    next anchor tag r taken =>
      have inner := plain.takeProperties taken
      have opened := inner.open_ anchor
      -- In either style, a collection is closed alike as soon as its members are read.
      have list : ∀ {items}, Gives PlainItems items → Gives Tree.Plain (items.map fun p =>
          (p.2.counted 2).close start anchor (.list ((tag.map isLocal).getD false) p.1)) :=
        fun given => given.map fun _ r holds plain =>
          gives_close (plain.counted 2) (holds.tree _) anchor
      have map : ∀ {members}, Gives PlainMembers members → Gives Tree.Plain (members.map fun p =>
          (p.2.counted 2).close start anchor (.map ((tag.map isLocal).getD false) p.1)) :=
        fun given => given.map fun _ r holds plain =>
          gives_close (plain.counted 2) (holds.tree _) anchor
      dsimp only
      split
      next text style _ =>
        exact gives_close (opened.skip.counted 1) (Tree.plain_resolve text style _) anchor
      · exact list (reads.flowItems true _ opened.skip)
      · exact map (reads.flowMembers true _ opened.skip)
      · split
        · exact list (reads.levelItems _ opened)
        split
        · exact list (reads.blockItems _ opened.skip)
        split
        · exact map (reads.blockMembers _ opened.skip)
        split
        · exact gives_close (opened.counted 1) (Tree.plain_resolve "" .plain tag) anchor
        · exact gives_none

/-- One more item in front. -/
theorem cons_items {item : Tree} {rest : Option (List Tree × Reading)} (first : item.Plain)
    (given : Gives PlainItems rest) :
    Gives PlainItems (rest.map fun (items, r) => (item :: items, r)) :=
  given.map fun _ _ others plain => gives_some (List.forall_mem_cons.mpr ⟨first, others⟩) plain

/-- One more member in front. -/
theorem cons_members {member : Tree × Tree} {rest : Option (List (Tree × Tree) × Reading)}
    (first : PlainMember member) (given : Gives PlainMembers rest) :
    Gives PlainMembers (rest.map fun (members, r) => (member :: members, r)) :=
  given.map fun _ _ others plain => gives_some (List.forall_mem_cons.mpr ⟨first, others⟩) plain

theorem nil_items (plain : r.Plain) : Gives PlainItems (some ([], r)) :=
  gives_some nofun plain

theorem nil_members (plain : r.Plain) : Gives PlainMembers (some ([], r)) :=
  gives_some nofun plain

theorem blockItems_succ (reads : ReadsPlain fuel) (r : Reading) (plain : r.Plain) :
    Gives PlainItems (readBlockItems (fuel + 1) r) := by
  unfold readBlockItems
  split
  · have given := gives_orBlank plain.skip [.blockEntry, .blockEnd]
      (reads.node true false _ plain.skip)
    split
    · exact gives_none
    next item r' found =>
      obtain ⟨first, plain'⟩ := given item r' found
      exact cons_items first (reads.blockItems r' plain')
  · exact nil_items plain.skip
  · exact gives_none

theorem levelItems_succ (reads : ReadsPlain fuel) (r : Reading) (plain : r.Plain) :
    Gives PlainItems (readLevelItems (fuel + 1) r) := by
  unfold readLevelItems
  split
  · have given := gives_orBlank plain.skip [.blockEntry, .key, .value, .blockEnd]
      (reads.node true false _ plain.skip)
    split
    · exact gives_none
    next item r' found =>
      obtain ⟨first, plain'⟩ := given item r' found
      exact cons_items first (reads.levelItems r' plain')
  · exact nil_items plain

/-- The value of a key, where nothing may be written. -/
theorem value_of_key (reads : ReadsPlain fuel) (block : Bool) (ends : List Token)
    (plain : r.Plain) :
    Gives Tree.Plain (if r.next? == some .value then r.skip.orBlank ends (readNode fuel block block)
      else some r.blank) := by
  split
  · exact gives_orBlank plain.skip ends (reads.node block block _ plain.skip)
  · exact gives_blank plain

theorem blockMembers_succ (reads : ReadsPlain fuel) (r : Reading) (plain : r.Plain) :
    Gives PlainMembers (readBlockMembers (fuel + 1) r) := by
  unfold readBlockMembers
  split
  · have given := gives_orBlank plain.skip [.key, .value, .blockEnd]
      (reads.node true true _ plain.skip)
    split
    · exact gives_none
    next key r' found =>
      obtain ⟨first, plain'⟩ := given key r' found
      have given' := value_of_key reads true [.key, .value, .blockEnd] plain'
      dsimp only
      split
      · exact gives_none
      next value r'' found' =>
        obtain ⟨second, plain''⟩ := given' value r'' found'
        exact cons_members ⟨first, second⟩ (reads.blockMembers r'' plain'')
  · exact nil_members plain.skip
  · exact gives_none

/-- The key of an item between brackets. -/
theorem flowKey (reads : ReadsPlain fuel) (plain : r.Plain) (ends : List Token) :
    Gives Tree.Plain (if r.skip.atNone ends then some r.skip.skip.blank
      else readNode fuel false false r.skip) := by
  split
  · exact gives_blank plain.skip.skip
  · exact reads.node false false _ plain.skip

theorem flowItems_succ (reads : ReadsPlain fuel) (first : Bool) (r : Reading) (plain : r.Plain) :
    Gives PlainItems (readFlowItems (fuel + 1) first r) := by
  unfold readFlowItems
  split
  · exact nil_items plain.skip
  split
  · exact gives_none
  have here : (if first then r else r.skip).Plain := by
    split
    · exact plain
    · exact plain.skip
  generalize (if first then r else r.skip) = r' at here
  dsimp only
  split
  · exact nil_items here.skip
  split
  · exact gives_none
  next item r'' found =>
    have both : item.Plain ∧ r''.Plain := by
      split at found
      · split at found
        · cases found
        next key r₁ keyFound =>
          obtain ⟨keyPlain, plain₁⟩ := flowKey reads here _ key r₁ keyFound
          refine Gives.map (value_of_key reads false _ plain₁) ?_ item r'' found
          intro value r₂ valuePlain plain₂
          have single : PlainMembers [(key, value)] := by
            simpa [PlainMembers, PlainMember] using ⟨keyPlain, valuePlain⟩
          exact gives_some (single.tree false) (plain₂.counted 2)
      · exact reads.node false false _ here item r'' found
    exact cons_items both.1 (reads.flowItems false r'' both.2)

theorem flowMembers_succ (reads : ReadsPlain fuel) (first : Bool) (r : Reading) (plain : r.Plain) :
    Gives PlainMembers (readFlowMembers (fuel + 1) first r) := by
  unfold readFlowMembers
  split
  · exact nil_members plain.skip
  split
  · exact gives_none
  have here : (if first then r else r.skip).Plain := by
    split
    · exact plain
    · exact plain.skip
  generalize (if first then r else r.skip) = r' at here
  dsimp only
  split
  · exact nil_members here.skip
  split
  · exact gives_none
  next member r'' found =>
    have both : PlainMember member ∧ r''.Plain := by
      split at found
      · split at found
        · cases found
        next key r₁ keyFound =>
          obtain ⟨keyPlain, plain₁⟩ := gives_orBlank here.skip _
            (reads.node false false _ here.skip) key r₁ keyFound
          refine Gives.map (value_of_key reads false _ plain₁) ?_ member r'' found
          exact fun value r₂ valuePlain plain₂ => gives_some ⟨keyPlain, valuePlain⟩ plain₂
      · refine Gives.map (reads.node false false _ here) ?_ member r'' found
        intro key r₁ keyPlain plain₁
        exact gives_some ⟨keyPlain, Tree.plain_resolve "" .plain none⟩ (plain₁.counted 1)
    exact cons_members both.1 (reads.flowMembers false r'' both.2)

/-- By induction on the fuel, one reader after the other. -/
theorem all : ∀ fuel, ReadsPlain fuel
  | 0 => zero
  | fuel + 1 =>
    have reads := all fuel
    ⟨node_succ reads, blockItems_succ reads, levelItems_succ reads, blockMembers_succ reads,
      flowItems_succ reads, flowMembers_succ reads⟩

end ReadsPlain

/-- Every tree that is read from a text is plain. -/
theorem plain_of_readDocument {tokens : List Token} {t : Tree} {r : Reading}
    (read : readDocument tokens = some (t, r)) : t.Plain := by
  have begun : ∀ tokens handles, (Reading.mk tokens handles [] 0 0).Plain := fun _ _ => nofun
  have blank : (Tree.scalar .empty).Plain := Tree.plain_resolve "" .plain none
  unfold readDocument at read
  dsimp only at read
  split at read
  · cases read
    exact blank
  · split at read
    · split at read
      · cases read
      · split at read
        · cases read
          exact blank
        · exact ((ReadsPlain.all _).node true false _ (begun _ _) t r read).1
    · exact ((ReadsPlain.all _).node true false _ (begun _ _) t r read).1

/-- No scalar of a document stands for a collection. -/
theorem plain_of_ofString? {text : String} {t : Tree} (read : Tree.ofString? text = some t) :
    t.Plain := by
  unfold Tree.ofString? at read
  split at read
  · cases read
  next t' r document =>
    obtain ⟨tokens, _, found⟩ := Option.bind_eq_some_iff.mp document
    split at read
    · cases read
      exact plain_of_readDocument found
    · cases read

end Yaml

end Workflow
