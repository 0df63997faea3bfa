import Mathlib
import Workflow.Proofs.Direct.Limits
import Workflow.Proofs.Expansion.Outcome

/-!
What limits do to compositions: wider ones change nothing of what a composition comes to, unless it went
beyond one of the narrower ones. The walks within the one and the other take the same steps, up to the
first that goes beyond a limit.
-/

namespace Workflow.Composition

open Workflow.Graph

namespace Expansion

variable {logical : Graph} {limits wide : Limits} {s s' : State} {v : Visit} {queue : List Visit}

/-- To enter a node goes beyond a limit, or is the same within wider ones. -/
theorem arrive_eq_or_beyond (wider : limits.AtMost wide) (s : State) (v : Visit) (n : Node)
    (inbound : List Edge) (fork : Bool) (splits : List Split) :
    arrive logical wide s v n inbound fork splits = arrive logical limits s v n inbound fork splits ∨
      ∃ f, f.Beyond ∧ arrive logical limits s v n inbound fork splits = .error f := by
  rw [arrive_eq, arrive_eq]
  have instances := wider.instances
  generalize (s.entered n v.task splits).graph.nodes.length = length
  by_cases full : (!s.graph.contains (nodeId v.task splits) && limits.maxInstances < length) = true
  · rw [if_pos full]
    exact .inr ⟨_, Failure.beyond_beyond limits .instances, rfl⟩
  · have room :
        ¬(!s.graph.contains (nodeId v.task splits) && wide.maxInstances < length) = true := by
      simp only [Bool.and_eq_true, decide_eq_true_eq, not_and] at full ⊢
      intro new
      have := full new
      omega
    rw [if_neg full, if_neg room]
    exact .inl rfl

/-- Under wider limits a visit does the same, or it went beyond the narrower ones. -/
theorem visit_eq_or_beyond (wider : limits.AtMost wide) (s : State) (v : Visit) :
    visit logical wide s v = visit logical limits s v ∨
      ∃ f, f.Beyond ∧ visit logical limits s v = .error f := by
  have depth := wider.splitDepth
  unfold visit
  cases logical.task v.task with
  | error f => exact .inl rfl
  | ok n =>
    cases logical.prev v.task with
    | error f => exact .inl rfl
    | ok inbound =>
      dsimp only
      by_cases early : (n.barrier.isSome && isEarly n.splits v.splits) = true
      · rw [if_pos early, if_pos early]
        exact .inl rfl
      · rw [if_neg early, if_neg early]
        by_cases fork : isFork logical n inbound = true
        · rw [if_pos fork, if_pos fork]
          by_cases deep : limits.maxSplitDepth <
              (v.splits ++ [(⟨v.task, (s.count v.task).counter v.task⟩ : Split)]).length
          · rw [if_pos deep]
            exact .inr ⟨_, Failure.beyond_beyond limits .splitDepth, rfl⟩
          · rw [if_neg deep, if_neg fun beyond => deep (lt_of_le_of_lt depth beyond)]
            exact arrive_eq_or_beyond wider _ _ _ _ _ _
        · rw [if_neg fork, if_neg fork]
          exact arrive_eq_or_beyond wider _ _ _ _ _ _

/-- A step goes beyond a limit, or does what it does within wider ones. -/
theorem step_eq_or_beyond (wider : limits.AtMost wide) (s : State) :
    step logical wide s = step logical limits s ∨
      ∃ f, f.Beyond ∧ step logical limits s = .error f := by
  cases next : s.queue with
  | nil => exact .inl (by rw [step_of_nil next, step_of_nil next])
  | cons v queue =>
    rw [step_of_cons next, step_of_cons next]
    rcases visit_eq_or_beyond wider { s with queue := queue } v with same | ⟨f, beyond, failed⟩
    · rw [same]
      exact .inl rfl
    · rw [failed]
      exact .inr ⟨f, beyond, rfl⟩

/-- There are no more nodes than the limits allow, and neither nodes nor arrivals are behind more forks
than they allow. -/
structure Confined (limits : Limits) (s : State) : Prop where
  few : s.graph.nodes.length ≤ limits.maxInstances
  nodes : ∀ n ∈ s.graph.nodes, n.splits.length ≤ limits.maxSplitDepth
  queue : ∀ v ∈ s.queue, v.splits.length ≤ limits.maxSplitDepth

theorem confined_start (logical : Graph) (limits : Limits) : Confined limits (.start logical) := by
  refine ⟨Nat.zero_le _, nofun, fun v waiting => ?_⟩
  obtain ⟨id, _, rfl⟩ := List.mem_map.mp waiting
  exact Nat.zero_le _

/-- One step stays within the limits, or it fails. -/
theorem Confined.takes (confined : Confined limits s) (grounded : Grounded logical s)
    (taken : Takes (step logical limits) s s') : Confined limits s' := by
  obtain ⟨v, queue, next⟩ := exists_head_of_takes taken
  have rest : ∀ w ∈ queue, w.splits.length ≤ limits.maxSplitDepth :=
    fun w waiting => confined.queue w (next ▸ List.mem_cons_of_mem v waiting)
  rcases grounded.cases_of_takes next taken with ⟨_, rfl⟩ | admits
  · exact ⟨confined.few, confined.nodes, rest⟩
  · have lineage : (s.lineage logical v).length ≤ limits.maxSplitDepth := by
      cases fork : forkAt logical v.task with
      | true => exact admits.depth fork
      | false =>
        rw [lineage_of_not_fork fork]
        exact confined.queue v (next ▸ List.mem_cons_self)
    refine ⟨?_, fun n inside => ?_, fun w waiting => ?_⟩
    · rcases admits.length_cases with ⟨same, _⟩ | ⟨_, room, _⟩
      · exact same.le.trans confined.few
      · exact room
    · rcases admits.splits n inside with own | ⟨m, known, same⟩
      · exact own ▸ lineage
      · exact same ▸ confined.nodes m known
    · rcases admits.queue_cases waiting with old | ⟨_, e, _, _, rfl⟩
      · exact rest w old
      · exact lineage

theorem confined_of_runs (run : Runs (step logical limits) (.start logical) s) :
    Confined limits s := by
  induction run with
  | refl => exact confined_start logical limits
  | tail run taken ih => exact ih.takes (grounded_of_runs run) taken

end Expansion

open Expansion

variable {p : Plan} {limits wide : Limits} {logical g : Graph}

/-- An expansion goes beyond a limit, or comes to the same within wider ones. -/
theorem expand_eq_or_beyond (wider : limits.AtMost wide) (logical : Graph) :
    expand wide logical = expand limits logical ∨
      ∃ f, f.Beyond ∧ expand limits logical = .error f := by
  obtain ⟨r, worked⟩ := Option.isSome_iff_exists.mp (walk_ends logical limits)
  rw [expand_eq_of_workOff worked]
  rcases workOff_of_agree (step_eq_or_beyond wider) worked with same | ⟨f, beyond, rfl⟩
  · exact .inl (expand_eq_of_workOff same)
  · exact .inr ⟨f, beyond, rfl⟩

/-- Under wider limits the outcome is the same, or the narrower ones were exceeded. -/
theorem expanded_eq_or_beyond (wider : limits.AtMost wide) (p : Plan) :
    expanded wide p = expanded limits p ∨ ∃ f, f.Beyond ∧ expanded limits p = .error f := by
  unfold expanded
  rcases direct_eq_or_beyond wider p with same | ⟨f, beyond, failed⟩
  · rw [same]
    cases direct limits p with
    | error f => exact .inl rfl
    | ok g => exact expand_eq_or_beyond wider g
  · rw [failed]
    exact .inr ⟨f, beyond, rfl⟩

/-- A graph that an expansion comes to has no more nodes than the limits allow, and none behind more
forks than they allow. -/
theorem expand_within (done : expand limits logical = .ok g) :
    g.nodes.length ≤ limits.maxInstances ∧
      ∀ n ∈ g.nodes, n.splits.length ≤ limits.maxSplitDepth := by
  obtain ⟨s, run, _, rfl⟩ := expand_ok done
  exact ⟨(confined_of_runs run).few, (confined_of_runs run).nodes⟩

theorem exists_expand_of_expanded (done : expanded limits p = .ok g) :
    ∃ logical, direct limits p = .ok logical ∧ expand limits logical = .ok g := by
  unfold expanded at done
  split at done
  next => cases done
  next logical composed => exact ⟨logical, composed, done⟩

/-- Limits only refuse, and do not change what a composition comes to: where it comes to anything but to
have gone beyond a limit, it comes to the same within wider limits. What it composes keeps within the
limits. -/
theorem limits_only_refuse (wider : limits.AtMost wide) (p : Plan) :
    ((∀ b max, direct limits p ≠ .error (.limitExceeded b max)) → direct wide p = direct limits p) ∧
    ((∀ b max, expanded limits p ≠ .error (.limitExceeded b max)) →
      expanded wide p = expanded limits p) ∧
    (∀ g, direct limits p = .ok g → g.nodes.length ≤ limits.maxTasks ∧
      ∀ n ∈ g.nodes, n.splits.length ≤ limits.maxSplitDepth) ∧
    ∀ g, expanded limits p = .ok g → g.nodes.length ≤ limits.maxInstances ∧
      ∀ n ∈ g.nodes, n.splits.length ≤ limits.maxSplitDepth := by
  refine ⟨fun kept => ?_, fun kept => ?_, fun g => direct_within, fun g done => ?_⟩
  · rcases direct_eq_or_beyond wider p with same | ⟨f, ⟨b, max, rfl⟩, failed⟩
    · exact same
    · exact absurd failed (kept b max)
  · rcases expanded_eq_or_beyond wider p with same | ⟨f, ⟨b, max, rfl⟩, failed⟩
    · exact same
    · exact absurd failed (kept b max)
  · obtain ⟨logical, _, expanded⟩ := exists_expand_of_expanded done
    exact expand_within expanded

def twoBranches : Definition where
  tasks := .ofList [("a", { next := [{ destinations := ["c"] }] }),
    ("b", { next := [{ destinations := ["c"] }] }), ("c", {})]

def twoBranchesLimits : Limits where
  maxTasks := 3
  maxSplitDepth := 1
  maxInstances := 4

def twoBranchesGraph : Graph where
  nodes := [⟨"a", "a", none, [], none⟩, ⟨"c", "c", none, [⟨"c", 0⟩], none⟩,
    ⟨"b", "b", none, [], none⟩]
  edges := [⟨"a", "c", 0, [], some 0⟩, ⟨"b", "c", 0, [], some 0⟩]

def twoBranchesExpanded : Graph where
  nodes := [⟨"a", "a", none, [], none⟩, ⟨"b", "b", none, [], none⟩,
    ⟨"c__1", "c", none, [⟨"c", 1⟩], none⟩, ⟨"c__2", "c", none, [⟨"c", 2⟩], none⟩]
  edges := [⟨"a", "c__1", 0, [], some 0⟩, ⟨"b", "c__2", 0, [], some 0⟩]

/-- The compositions of a fork attain these limits, and wider ones change nothing; but limits with room
for one node less, or for no fork, refuse them. -/
theorem twoBranches_limits_only_refuse :
    twoBranchesLimits.AtMost {} ∧
    direct twoBranchesLimits (.ofDefinition twoBranches) = .ok twoBranchesGraph ∧
    direct {} (.ofDefinition twoBranches) = .ok twoBranchesGraph ∧
    expanded twoBranchesLimits (.ofDefinition twoBranches) = .ok twoBranchesExpanded ∧
    expanded {} (.ofDefinition twoBranches) = .ok twoBranchesExpanded ∧
    direct { twoBranchesLimits with maxSplitDepth := 0 } (.ofDefinition twoBranches) =
      .error (.limitExceeded .splitDepth 0) ∧
    expand { twoBranchesLimits with maxInstances := 3 } twoBranchesGraph =
      .error (.limitExceeded .instances 3) := by
  have wider : twoBranchesLimits.AtMost {} := ⟨by decide, by decide, by decide⟩
  have composed : direct twoBranchesLimits (.ofDefinition twoBranches) = .ok twoBranchesGraph :=
    direct_of_workOff (n := 5) (by decide) (by cbv) (by cbv)
  have expanded_ : expanded twoBranchesLimits (.ofDefinition twoBranches) =
      .ok twoBranchesExpanded := by
    have worked : (workOff (step twoBranchesGraph twoBranchesLimits) 5 (.start twoBranchesGraph)).map
        (fun r => r.map fun s => s.graph) = some (.ok twoBranchesExpanded) := by
      cbv
    obtain ⟨x, done, rfl⟩ := exists_expanded_of_workOff id composed worked
    exact done
  obtain ⟨keeps, keeps', _, _⟩ := limits_only_refuse wider (.ofDefinition twoBranches)
  refine ⟨wider, composed, ?_, expanded_, ?_, ?_, ?_⟩
  · refine (keeps fun b max refused => ?_).trans composed
    cases composed.symm.trans refused
  · refine (keeps' fun b max refused => ?_).trans expanded_
    cases expanded_.symm.trans refused
  · have worked : workOff (Direct.step (.ofDefinition twoBranches)
        { twoBranchesLimits with maxSplitDepth := 0 }) 5 (.start (.ofDefinition twoBranches)) =
          some (.error (.limitExceeded .splitDepth 0)) := by
      cbv
    exact direct_eq_of_workOff (by decide) (by cbv) worked
  · have worked : workOff (step twoBranchesGraph { twoBranchesLimits with maxInstances := 3 }) 5
        (.start twoBranchesGraph) = some (.error (.limitExceeded .instances 3)) := by
      cbv
    exact expand_eq_of_workOff worked

end Workflow.Composition
