import Workflow.Yaml.Lexing
import Workflow.Yaml.Resolution

/-!
Reading YAML documents from their tokens. Aliases stand for the trees of their anchors.
-/

namespace Workflow.Yaml

structure Reading where
  tokens : List Token
  /-- The short forms of tags. -/
  handles : List (String × String)
  /-- The anchors, the last one first: the tree, and how many aliases it holds. The tree of an
  anchor whose collection is still open is not known yet. -/
  anchors : List (String × Option (Tree × Nat)) := []
  /-- How many scalars, aliases and ends of collections have been read. -/
  events : Nat := 0
  /-- How many aliases they hold when each alias is written out. -/
  aliases : Nat := 0

namespace Reading

def next? (r : Reading) : Option Token :=
  r.tokens.head?

def skip (r : Reading) : Reading :=
  { r with tokens := r.tokens.tail }

def counted (r : Reading) (events : Nat) : Reading :=
  { r with events := r.events + events }

/-- The scalar that stands where nothing is written. -/
def blank (r : Reading) : Tree × Reading :=
  (.scalar .empty, r.counted 1)

/-- The tag with its short form written out. -/
def tagName? (r : Reading) (handle rest : String) : Option String :=
  if handle.isEmpty then some rest else (r.handles.lookup handle).map (· ++ rest)

def takeAnchor (r : Reading) : Option String × Reading :=
  match r.next? with
  | some (.anchor name) => (some name, r.skip)
  | _ => (none, r)

def takeTag (r : Reading) : Option (Option String × Reading) :=
  match r.next? with
  | some (.tag handle rest) => (r.tagName? handle rest).map fun tag => (some tag, r.skip)
  | _ => some (none, r)

/-- Reads the anchor and the tag of a node, in either order. -/
def takeProperties (r : Reading) : Option (Option String × Option String × Reading) :=
  match r.takeAnchor with
  | (some name, r) => r.takeTag.map fun (tag, r) => (some name, tag, r)
  | (none, r) =>
    r.takeTag.map fun (tag, r) =>
      let (name, r) := if tag.isSome then r.takeAnchor else (none, r)
      (name, tag, r)

def open_ (r : Reading) : Option String → Reading
  | some name => { r with anchors := (name, none) :: r.anchors }
  | none => r

/-- Gives an anchor its tree. `start` is how things stood before the anchor was opened. -/
def close (r : Reading) (start : Reading) (anchor : Option String) (t : Tree) : Tree × Reading :=
  match anchor with
  | some name =>
    let position := r.anchors.length - start.anchors.length - 1
    let entry := (name, some (t, r.aliases - start.aliases))
    (t, { r with anchors := r.anchors.set position entry })
  | none => (t, r)

def expand (r : Reading) (name : String) : Option (Tree × Reading) :=
  match r.anchors.lookup name with
  | none => none
  | some none => some (.endless, r.counted 1)
  | some (some (t, aliases)) => some (t, { r.counted 1 with aliases := r.aliases + aliases + 1 })

/-- Does no node stand before the next token? -/
def atNone (r : Reading) (ends : List Token) : Bool :=
  match r.next? with
  | some t => ends.contains t
  | none => false

end Reading

/-- Reads on with `read`, unless one of the tokens stands there: then nothing is written. -/
def Reading.orBlank (r : Reading) (ends : List Token)
    (read : Reading → Option (Tree × Reading)) : Option (Tree × Reading) :=
  if r.atNone ends then some r.blank else read r

mutual
/-- Reads a node. Only where `block` says so may it be a block, and only where `level` says so a
list whose dashes stand in the column of the map around it. -/
def readNode : Nat → Bool → Bool → Reading → Option (Tree × Reading)
  | 0, _, _, _ => none
  | fuel + 1, block, level, start =>
    match start.next? with
    | some (.alias name) => start.skip.expand name
    | _ =>
      match start.takeProperties with
      | none => none
      | some (anchor, tag, r) =>
        let tagged := (tag.map isLocal).getD false
        let list (items : Option (List Tree × Reading)) :=
          items.map fun (items, r) => (r.counted 2).close start anchor (.list tagged items)
        let map (members : Option (List (Tree × Tree) × Reading)) :=
          members.map fun (members, r) => (r.counted 2).close start anchor (.map tagged members)
        let inner := r.open_ anchor
        match r.next? with
        | some (.scalar text style) =>
          let tag := if tag == some "!" then none else tag
          some ((inner.skip.counted 1).close start anchor (.scalar (.resolve text style tag)))
        | some .openBracket => list (readFlowItems fuel true inner.skip)
        | some .openBrace => map (readFlowMembers fuel true inner.skip)
        | next =>
          if level && next == some .blockEntry then list (readLevelItems fuel inner)
          else if block && next == some .sequenceStart then list (readBlockItems fuel inner.skip)
          else if block && next == some .mappingStart then map (readBlockMembers fuel inner.skip)
          else if anchor.isSome || tag.isSome then
            some ((inner.counted 1).close start anchor (.scalar (.resolve "" .plain tag)))
          else none

def readBlockItems : Nat → Reading → Option (List Tree × Reading)
  | 0, _ => none
  | fuel + 1, r =>
    match r.next? with
    | some .blockEntry =>
      match r.skip.orBlank [.blockEntry, .blockEnd] (readNode fuel true false) with
      | none => none
      | some (item, r) => (readBlockItems fuel r).map fun (items, r) => (item :: items, r)
    | some .blockEnd => some ([], r.skip)
    | _ => none

/-- Reads the items of a list whose dashes stand in the column of the map around it. -/
def readLevelItems : Nat → Reading → Option (List Tree × Reading)
  | 0, _ => none
  | fuel + 1, r =>
    match r.next? with
    | some .blockEntry =>
      match r.skip.orBlank [.blockEntry, .key, .value, .blockEnd] (readNode fuel true false) with
      | none => none
      | some (item, r) => (readLevelItems fuel r).map fun (items, r) => (item :: items, r)
    | _ => some ([], r)

def readBlockMembers : Nat → Reading → Option (List (Tree × Tree) × Reading)
  | 0, _ => none
  | fuel + 1, r =>
    match r.next? with
    | some .key =>
      match r.skip.orBlank [.key, .value, .blockEnd] (readNode fuel true true) with
      | none => none
      | some (key, r) =>
        let value? :=
          if r.next? == some .value then
            r.skip.orBlank [.key, .value, .blockEnd] (readNode fuel true true)
          else some r.blank
        match value? with
        | none => none
        | some (value, r) =>
          (readBlockMembers fuel r).map fun (members, r) => ((key, value) :: members, r)
    | some .blockEnd => some ([], r.skip)
    | _ => none

/-- Reads the items of a list between brackets. An item may be a key with its value; behind a
question mark without a key, the token that comes next is lost. -/
def readFlowItems : Nat → Bool → Reading → Option (List Tree × Reading)
  | 0, _, _ => none
  | fuel + 1, first, r =>
    if r.next? == some .closeBracket then some ([], r.skip)
    else if !first && r.next? != some .flowEntry then none
    else
      let r := if first then r else r.skip
      if r.next? == some .closeBracket then some ([], r.skip)
      else
        let ends := [Token.flowEntry, .closeBracket]
        let item? :=
          if r.next? == some .key then
            let key? :=
              if r.skip.atNone (.value :: ends) then some (r.skip.skip.blank)
              else readNode fuel false false r.skip
            match key? with
            | none => none
            | some (key, r) =>
              let value? :=
                if r.next? == some .value then r.skip.orBlank ends (readNode fuel false false)
                else some r.blank
              value?.map fun (value, r) => (Tree.map false [(key, value)], r.counted 2)
          else readNode fuel false false r
        match item? with
        | none => none
        | some (item, r) => (readFlowItems fuel false r).map fun (items, r) => (item :: items, r)

def readFlowMembers : Nat → Bool → Reading → Option (List (Tree × Tree) × Reading)
  | 0, _, _ => none
  | fuel + 1, first, r =>
    if r.next? == some .closeBrace then some ([], r.skip)
    else if !first && r.next? != some .flowEntry then none
    else
      let r := if first then r else r.skip
      if r.next? == some .closeBrace then some ([], r.skip)
      else
        let ends := [Token.flowEntry, .closeBrace]
        let member? :=
          if r.next? == some .key then
            match r.skip.orBlank (.value :: ends) (readNode fuel false false) with
            | none => none
            | some (key, r) =>
              let value? :=
                if r.next? == some .value then r.skip.orBlank ends (readNode fuel false false)
                else some r.blank
              value?.map fun (value, r) => ((key, value), r)
          else
            (readNode fuel false false r).map fun (key, r) => ((key, r.blank.1), r.blank.2)
        match member? with
        | none => none
        | some (member, r) =>
          (readFlowMembers fuel false r).map fun (members, r) => (member :: members, r)
end

/-- The short forms of tags that every document knows. -/
def knownHandles : List (String × String) :=
  [("!", "!"), ("!!", coreTag "")]

/-- Reads what stands before a document that says where it starts: the short forms of tags that it
adds. It may name its version once. -/
def readDirectives (versioned : Bool) (handles : List (String × String)) :
    List Token → Option (List (String × String) × List Token)
  | .version major minor :: rest =>
    if versioned || major != 1 || (minor != 1 && minor != 2) then none
    else readDirectives true handles rest
  | .handle name expansion :: rest =>
    if (handles.lookup name).isSome then none
    else readDirectives versioned (handles ++ [(name, expansion)]) rest
  | .documentStart :: rest => some (handles, rest)
  | _ => none

/-- Does the token belong to what stands around documents? -/
def Token.isOutside : Token → Bool
  | .version _ _ => true
  | .handle _ _ => true
  | .documentStart => true
  | .documentEnd => true
  | _ => false

/-- Reads the only document of a text. A step down uses up a token or stands right behind one that
does, so the fuel never runs out first. -/
def readDocument (tokens : List Token) : Option (Tree × Reading) :=
  let fuel := 2 * tokens.length + 2
  match tokens with
  | [] => some (.scalar .empty, ⟨[], [], [], 0, 0⟩)
  | t :: _ =>
    if t.isOutside && t != .documentEnd then
      match readDirectives false [] tokens with
      | none => none
      | some (handles, rest) =>
        let r : Reading := { tokens := rest, handles := handles ++ knownHandles }
        if (rest.head?.map Token.isOutside).getD true then some r.blank
        else readNode fuel true false r
    else readNode fuel true false { tokens := tokens, handles := knownHandles }

/-- How often aliases may be written out for each thing in the text. -/
def maxAliases : Nat := 100

/-- The document of a text. A text without a document is an empty one. -/
def Tree.ofString? (s : String) : Option Tree :=
  match (tokenize s.toList).bind readDocument with
  | none => none
  | some (t, r) =>
    if (r.tokens.dropWhile (· == .documentEnd)).isEmpty && r.aliases ≤ maxAliases * r.events then
      some t
    else none

end Workflow.Yaml
