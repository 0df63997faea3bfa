import Workflow.Expression.Variables
import Workflow.Proofs.Expression.Parts
import Workflow.Proofs.Lists

/-!
The variables of an expression. Which names it mentions is told by rules that recur on it (`mentions`).
The walk with a stack lists each of them once, in the order in which they first occur
(`variableNames_listed`).
-/

namespace Workflow.Expression

variable {e base : Expression} {name x function : String} {names : List String}
  {arguments items stack : List Expression}

/-! ## What is mentioned -/

mutual
/-- The names that an expression mentions, from left to right, as often as it mentions them. A
variable mentions itself, an attribute of the whole context that attribute, and `ctx` the name or the
string that is its only argument. Otherwise the parts mention names, except for the bare names among
the arguments of a function that does not read the context. -/
def mentions : Expression → List String
  | var name => [name]
  | attr root name => [name]
  | attr (call "ctx" []) name => [name]
  | attr base _ => mentions base
  | call "ctx" [var name] => [name]
  | call "ctx" [literal (.string name)] => [name]
  | call "ctx" arguments => allMentions arguments
  | call "len" arguments => allMentions arguments
  | call "str" arguments => allMentions arguments
  | call _ arguments => argumentMentions arguments
  | list items => allMentions items
  | index base position => mentions base ++ mentions position
  | unary _ operand => mentions operand
  | binary _ left right => mentions left ++ mentions right
  | literal _ => []
  | root => []

def allMentions : List Expression → List String
  | [] => []
  | item :: items => mentions item ++ allMentions items

/-- The names that arguments mention of which bare names are no variables. -/
def argumentMentions : List Expression → List String
  | [] => []
  | var _ :: items => argumentMentions items
  | item :: items => mentions item ++ argumentMentions items
end

theorem allMentions_eq (items : List Expression) : allMentions items = items.flatMap mentions := by
  induction items with
  | nil => rfl
  | cons item items ih => rw [allMentions, List.flatMap_cons, ih]

theorem argumentMentions_eq (items : List Expression) :
    argumentMentions items = (items.filter fun item => !item.isVar).flatMap mentions := by
  induction items with
  | nil => rfl
  | cons item items ih => cases item <;> simp [argumentMentions, isVar, ih]

theorem mentions_attr :
    (attr base name).mentions = if base.isContext then [name] else base.mentions := by
  unfold isContext
  split
  · rfl
  · rfl
  next notRoot notCall =>
    rw [mentions]
    · rfl
    · exact notRoot
    · exact notCall

/-- Only `ctx` names a variable outright. -/
theorem named?_call_eq_some (named : (call function arguments).named? = some x) :
    function = "ctx" ∧ (arguments = [var x] ∨ arguments = [literal (.string x)]) := by
  rw [named?] at named
  split at named
  next ctx =>
    unfold namedArgument? at named
    split at named
    · cases named
      exact ⟨ctx, .inl rfl⟩
    · cases named
      exact ⟨ctx, .inr rfl⟩
    · cases named
  next => cases named

/-- Any other call mentions what is mentioned in its arguments, or in some of them. -/
theorem mentions_call (other : (call function arguments).named? = none) :
    (call function arguments).mentions =
      if readsContext function then allMentions arguments else argumentMentions arguments := by
  by_cases ctx : function = "ctx"
  · subst ctx
    rw [named?, if_pos rfl] at other
    rw [mentions]
    · rfl
    · rintro name rfl
      cases other
    · rintro name rfl
      cases other
  by_cases len : function = "len"
  · subst len
    rfl
  by_cases str : function = "str"
  · subst str
    rfl
  have reads : readsContext function = false := by simp [readsContext, ctx, len, str]
  rw [mentions, reads]
  · rfl
  · exact fun _ same => absurd same ctx
  · exact fun _ same => absurd same ctx
  · exact ctx
  · exact len
  · exact str

/-! ## The walk -/

/-- A variable that is named outright is all that is mentioned. -/
theorem mentions_of_named (named : e.named? = some name) : e.mentions = [name] := by
  cases e with
  | var y =>
    cases named
    rfl
  | attr base y =>
    rw [named?] at named
    split at named
    next context =>
      cases named
      rw [mentions_attr, if_pos context]
    next => cases named
  | call function arguments =>
    obtain ⟨rfl, rfl | rfl⟩ := named?_call_eq_some named
    · rfl
    · rfl
  | literal | list | root | index | unary | binary => cases named

/-- Without such a variable, what is mentioned is mentioned in the parts that are searched. -/
theorem mentions_of_not_named (other : e.named? = none) :
    e.mentions = e.searched.flatMap mentions := by
  cases e with
  | var => cases other
  | literal | root => rfl
  | list items => exact allMentions_eq items
  | attr base y =>
    have deeper : base.isContext = false := by simpa [named?] using other
    rw [mentions_attr, deeper]
    simp [searched]
  | call function arguments =>
    rw [mentions_call other, searched, allMentions_eq, argumentMentions_eq]
    split <;> rfl
  | index | unary | binary => simp [mentions, searched]

theorem mem_children_of_searched {part : Expression} (inside : part ∈ e.searched) :
    part ∈ e.children := by
  cases e with
  | call function arguments =>
    rw [searched] at inside
    split at inside
    · exact inside
    · exact List.mem_of_mem_filter inside
  | _ => exact inside

theorem note_eq (unique : names.Nodup) : note name names = (names ++ [name]).eraseDups := by
  unfold note
  split
  next known =>
    rw [eraseDups_append_of_subset (by simpa using known), eraseDups_of_nodup unique]
  next new =>
    rw [eraseDups_concat_of_not_mem (by simpa using new), eraseDups_of_nodup unique]

/-- The walk adds to the names what the expressions on the stack mention, one after the other. -/
theorem collect_eq (unique : names.Nodup) :
    collect names stack = (names ++ stack.flatMap mentions).eraseDups := by
  -- Along the steps of the walk: each one either notes all that the expression on top mentions, or
  -- puts parts in its place that mention the same. The names stay without repetition.
  induction names, stack using collect.induct with
  | case1 names => rw [collect, List.flatMap_nil, List.append_nil, eraseDups_of_nodup unique]
  | case2 names e stack name named ih =>
    have noted : note name names = (names ++ [name]).eraseDups := note_eq unique
    have unique' : (note name names).Nodup := noted ▸ (eraseDups_sublist_nodup _).2
    have same : (note name names).eraseDups = (names ++ [name]).eraseDups := by
      rw [eraseDups_of_nodup unique', noted]
    rw [collect, named]
    dsimp only
    rw [ih unique', eraseDups_append_congr same, List.flatMap_cons, mentions_of_named named,
      List.append_assoc]
  | case3 names e stack other ih =>
    rw [collect, other]
    dsimp only
    rw [ih unique, List.flatMap_append, List.flatMap_cons, mentions_of_not_named other]

/-- The variables are the mentions without repetitions. -/
theorem variableNames_eq (e : Expression) : e.variableNames = e.mentions.eraseDups := by
  rw [variableNames, collect_eq List.nodup_nil, List.flatMap_singleton, List.nil_append]

theorem mem_variableNames_iff : x ∈ e.variableNames ↔ x ∈ e.mentions := by
  rw [variableNames_eq, List.mem_eraseDups]

/-- The variables of an expression are the names that it mentions: each of them once, and in the order
in which they first occur. -/
theorem variableNames_listed (e : Expression) :
    e.variableNames = e.mentions.eraseDups ∧ e.variableNames.Nodup ∧
      (∀ x, x ∈ e.variableNames ↔ x ∈ e.mentions) ∧
      e.variableNames.Pairwise fun x y => e.mentions.idxOf x < e.mentions.idxOf y := by
  have listed : e.variableNames = e.mentions.eraseDups := variableNames_eq e
  refine ⟨listed, ?_, fun _ => mem_variableNames_iff, ?_⟩
  · rw [listed]
    exact (eraseDups_sublist_nodup _).2
  · rw [listed]
    exact pairwise_idxOf_eraseDups _

/-- What comes up again is not listed again, and the bare name among the arguments is no variable. -/
example :
    (binary .add (binary .add (var "b") (call "f" [var "c", attr root "a"])) (var "b")).variableNames =
      ["b", "a"] := by
  decide +kernel

/-! ## The variables of parts -/

theorem variableNames_of_named (named : e.named? = some name) : e.variableNames = [name] := by
  rw [variableNames_eq, mentions_of_named named]
  rfl

/-- What names no variable outright has the variables of the parts that are searched. -/
theorem mem_variableNames_of_not_named (other : e.named? = none) :
    x ∈ e.variableNames ↔ ∃ part ∈ e.searched, x ∈ part.variableNames := by
  simp only [mem_variableNames_iff, mentions_of_not_named other, List.mem_flatMap]

@[simp] theorem variableNames_var : (var name).variableNames = [name] :=
  variableNames_of_named rfl

theorem mem_variableNames_list :
    x ∈ (list items).variableNames ↔ ∃ item ∈ items, x ∈ item.variableNames :=
  mem_variableNames_of_not_named rfl

theorem variableNames_attr :
    (attr base name).variableNames = if base.isContext then [name] else base.variableNames := by
  rw [variableNames_eq, mentions_attr]
  split
  · rfl
  · rw [variableNames_eq]

theorem mem_variableNames_index {position : Expression} :
    x ∈ (index base position).variableNames ↔
      x ∈ base.variableNames ∨ x ∈ position.variableNames := by
  simp [mem_variableNames_of_not_named (e := index base position) rfl, searched]

theorem variableNames_unary {op : UnaryOp} {operand : Expression} :
    (unary op operand).variableNames = operand.variableNames := by
  rw [variableNames_eq, variableNames_eq, mentions]

theorem mem_variableNames_binary {op : BinaryOp} {left right : Expression} :
    x ∈ (binary op left right).variableNames ↔
      x ∈ left.variableNames ∨ x ∈ right.variableNames := by
  simp [mem_variableNames_of_not_named (e := binary op left right) rfl, searched]

/-- The variable that the argument of `ctx` names. -/
theorem variableNames_ctx {argument : Expression} (named : namedArgument? [argument] = some name) :
    (call "ctx" [argument]).variableNames = [name] :=
  variableNames_of_named named

/-- The other functions that read the context mention what their arguments mention. -/
theorem mem_variableNames_call (reads : readsContext function = true) (other : function ≠ "ctx") :
    x ∈ (call function arguments).variableNames ↔ ∃ item ∈ arguments, x ∈ item.variableNames := by
  rw [mem_variableNames_of_not_named (by rw [named?, if_neg other]), searched, if_pos reads]

end Workflow.Expression
