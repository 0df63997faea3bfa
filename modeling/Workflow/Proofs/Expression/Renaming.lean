import Workflow.Proofs.Expression.Texts
import Workflow.Proofs.Expression.Variables

/-!
The variables of an expression in which names and strings are exchanged. They stay the same where the
exchange leaves the variables alone, and the functions that read the context.
-/

namespace Workflow.Expression

variable {onNames onStrings onStrings' : String → String} {x : String}

/-- The exchange leaves functions alone that read the context, and makes no others such. -/
def KeepsFunctions (onNames : String → String) (e : Expression) : Prop :=
  e.Everywhere fun part => ∀ function arguments, part = call function arguments →
    readsContext function = true ∨ readsContext (onNames function) = true → onNames function = function

theorem keepsFunctions_id (e : Expression) : e.KeepsFunctions id :=
  fun _ _ _ _ _ _ => rfl

theorem readsContext_ctx : readsContext "ctx" = true := by
  decide

theorem KeepsFunctions.child {e child : Expression} (kept : e.KeepsFunctions onNames)
    (inside : child ∈ e.children) : child.KeepsFunctions onNames :=
  Everywhere.child kept inside

section Call

variable {function : String} {arguments : List Expression}

theorem KeepsFunctions.same_or (kept : (call function arguments).KeepsFunctions onNames) :
    onNames function = function ∨
      readsContext function = false ∧ readsContext (onNames function) = false := by
  by_cases reads : readsContext function = true ∨ readsContext (onNames function) = true
  · exact .inl (kept.here function arguments rfl reads)
  · simpa using Or.inr (not_or.mp reads)

/-- After the exchange, a call reads the context just if it did before. -/
theorem KeepsFunctions.readsContext_eq (kept : (call function arguments).KeepsFunctions onNames) :
    readsContext (onNames function) = readsContext function := by
  obtain same | ⟨other, other'⟩ := kept.same_or
  · rw [same]
  · rw [other, other']

theorem KeepsFunctions.eq_ctx_iff (kept : (call function arguments).KeepsFunctions onNames) :
    onNames function = "ctx" ↔ function = "ctx" := by
  obtain same | ⟨other, other'⟩ := kept.same_or
  · rw [same]
  · constructor
    · intro same
      rw [same, readsContext_ctx] at other'
      cases other'
    · rintro rfl
      rw [readsContext_ctx] at other
      cases other

end Call

theorem isContext_call {function : String} {arguments : List Expression} :
    (call function arguments).isContext = true ↔ function = "ctx" ∧ arguments = [] := by
  constructor
  · intro context
    unfold isContext at context
    split at context
    next same => cases same
    next same =>
      cases same
      exact ⟨rfl, rfl⟩
    next => cases context
  · rintro ⟨rfl, rfl⟩
    rfl

/-- The exchange neither makes nor loses a mention of the whole context. -/
theorem isContext_mapTexts {base : Expression} (kept : base.KeepsFunctions onNames) :
    (base.mapTexts onNames onStrings).isContext = base.isContext := by
  cases base with
  | call function arguments =>
    rw [Bool.eq_iff_iff, mapTexts, isContext_call, isContext_call, kept.eq_ctx_iff]
    cases arguments <;> simp [mapAllTexts]
  | _ => rfl

section Argument

variable {function : String} {arguments : List Expression}

theorem mapTexts_eq_var {e : Expression} (mapped : e.mapTexts onNames onStrings = var x) :
    ∃ y, e = var y := by
  cases e <;> cases mapped
  exact ⟨_, rfl⟩

theorem mapTexts_eq_string {e : Expression}
    (mapped : e.mapTexts onNames onStrings = literal (.string x)) :
    ∃ y, e = literal (.string y) := by
  cases e with
  | literal value =>
    cases value <;> cases mapped
    exact ⟨_, rfl⟩
  | _ => cases mapped

/-- No other call names a variable outright afterwards. -/
theorem named?_mapTexts (same : onNames function = "ctx" ↔ function = "ctx")
    (none_ : (call function arguments).named? = none) :
    (call (onNames function) (mapAllTexts onNames onStrings arguments)).named? = none := by
  by_contra named
  obtain ⟨x, named⟩ := Option.ne_none_iff_exists'.mp named
  obtain ⟨ctx, single⟩ := named?_call_eq_some named
  obtain rfl := same.mp ctx
  cases arguments with
  | nil => exact absurd single (by simp [mapAllTexts])
  | cons item rest =>
    cases rest with
    | cons => exact absurd single (by simp [mapAllTexts])
    | nil =>
      simp only [mapAllTexts, List.cons.injEq, and_true] at single
      obtain variable_ | string := single
      · obtain ⟨y, rfl⟩ := mapTexts_eq_var variable_
        cases none_
      · obtain ⟨y, rfl⟩ := mapTexts_eq_string string
        cases none_

end Argument

def SameNames (onNames onStrings onStrings' : String → String) (e : Expression) : Prop :=
  (e.mapTexts onNames onStrings').mentions = (e.mapTexts id onStrings).mentions

theorem allMentions_mapAllTexts {items : List Expression}
    (each : ∀ item ∈ items, item.SameNames onNames onStrings onStrings') :
    allMentions (mapAllTexts onNames onStrings' items) =
      allMentions (mapAllTexts id onStrings items) := by
  induction items with
  | nil => rfl
  | cons item items ih =>
    rw [List.forall_mem_cons] at each
    have same : (item.mapTexts onNames onStrings').mentions = _ := each.1
    simp only [mapAllTexts, allMentions, same, ih each.2]

theorem argumentMentions_mapAllTexts {items : List Expression}
    (each : ∀ item ∈ items.filter fun item => !item.isVar,
      item.SameNames onNames onStrings onStrings') :
    argumentMentions (mapAllTexts onNames onStrings' items) =
      argumentMentions (mapAllTexts id onStrings items) := by
  induction items with
  | nil => rfl
  | cons item items ih =>
    cases item with
    | var name => exact ih each
    | _ =>
      obtain ⟨same, others⟩ := List.forall_mem_cons.mp each
      simp only [SameNames, mapTexts] at same
      simp only [mapAllTexts, mapTexts, argumentMentions, same, ih others]

/-- What is mentioned stays the same where the exchange leaves it alone. -/
theorem sameNames (e : Expression) (kept : e.KeepsFunctions onNames)
    (fixed : ∀ x ∈ e.variableNames, onNames x = x ∧ onStrings' x = onStrings x) :
    e.SameNames onNames onStrings onStrings' := by
  unfold SameNames
  induction e with
  | literal value => rfl
  | root => rfl
  | var name => simp only [mapTexts, mentions, (fixed name (by simp)).1, id]
  | list items ih =>
    refine allMentions_mapAllTexts fun item inside =>
      ih item inside (kept.child inside) fun x mentioned => ?_
    exact fixed x (mem_variableNames_list.mpr ⟨item, inside, mentioned⟩)
  | attr base name ih =>
    have kept' : base.KeepsFunctions onNames := kept.child (by simp [children])
    rw [variableNames_attr] at fixed
    simp only [mapTexts, mentions_attr, isContext_mapTexts kept',
      isContext_mapTexts base.keepsFunctions_id]
    split at fixed
    next context => rw [if_pos context, if_pos context, (fixed name (by simp)).1, id]
    next other => rw [if_neg other, if_neg other, ih kept' fixed]
  | index base position ih ih' =>
    have left := ih (kept.child (by simp [children])) fun x mentioned =>
      fixed x (mem_variableNames_index.mpr (.inl mentioned))
    have right := ih' (kept.child (by simp [children])) fun x mentioned =>
      fixed x (mem_variableNames_index.mpr (.inr mentioned))
    simp only [mapTexts, mentions, left, right]
  | call function arguments ih =>
    -- `ctx` of a name or of a string mentions that; all other calls mention what their arguments do.
    cases named : (call function arguments).named? with
    | some x =>
      obtain ⟨rfl, single⟩ := named?_call_eq_some named
      have mentioned : x ∈ (call "ctx" arguments).variableNames := by
        simp [variableNames_of_named named]
      obtain ⟨same, same'⟩ := fixed x mentioned
      have ctx : onNames "ctx" = "ctx" := kept.eq_ctx_iff.mpr rfl
      obtain rfl | rfl := single
      · simp [mapTexts, mapAllTexts, ctx, mentions, same]
      · simp [mapTexts, mapAllTexts, ctx, mentions, Value.mapText, same']
    | none =>
      have each : ∀ item ∈ (call function arguments).searched,
          item.SameNames onNames onStrings onStrings' := by
        intro item inside
        have below : item ∈ arguments := mem_children_of_searched inside
        refine ih item below (kept.child below) fun x mentioned => fixed x ?_
        exact (mem_variableNames_of_not_named named).mpr ⟨item, inside, mentioned⟩
      rw [mapTexts, mapTexts, mentions_call (named?_mapTexts kept.eq_ctx_iff named),
        mentions_call (named?_mapTexts Iff.rfl named), kept.readsContext_eq, id]
      rw [searched] at each
      split at each
      next reads =>
        rw [if_pos reads, if_pos reads]
        exact allMentions_mapAllTexts each
      next other =>
        rw [if_neg other, if_neg other]
        exact argumentMentions_mapAllTexts each
  | unary op operand ih =>
    rw [variableNames_unary] at fixed
    exact ih (kept.child (by simp [children])) fixed
  | binary op left right ih ih' =>
    have first := ih (kept.child (by simp [children])) fun x mentioned =>
      fixed x (mem_variableNames_binary.mpr (.inl mentioned))
    have second := ih' (kept.child (by simp [children])) fun x mentioned =>
      fixed x (mem_variableNames_binary.mpr (.inr mentioned))
    simp only [mapTexts, mentions, first, second]

end Workflow.Expression
