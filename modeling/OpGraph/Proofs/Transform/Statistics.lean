import OpGraph.Proofs.Transform.RefCount
import OpGraph.Proofs.Snapshot.Decode
import OpGraph.Optimize

namespace OpGraph

/-- What every step of a loop keeps, the whole loop keeps. -/
theorem Logged.forIn_invariant {α σ : Type} (P : σ → Prop) {body : α → σ → Logged (ForInStep σ)}
    (step : ∀ a s, P s → P (body a s).value.value) (xs : List α) (s : σ) (start : P s) :
    P (forIn xs s body).value := by
  induction xs generalizing s with
  | nil => exact start
  | cons a rest ih =>
    rw [List.forIn_cons, Logged.bind_value]
    have next := step a s start
    cases stepped : (body a s).value with
    | done b => simpa [stepped] using next
    | yield b =>
      rw [stepped] at next
      exact ih b next

namespace Edit

/-- An edit of `g` with no more slots than `g` has ops: nothing was inserted. -/
def Shrinking (g : Graph) (e : Edit) : Prop := e.source = g ∧ e.slots.size ≤ g.opCount

theorem shrinking_start (g : Graph) : Shrinking g (start g) := ⟨rfl, by simp [start, Graph.opCount]⟩

theorem Shrinking.removeOp {g : Graph} {e e' : Edit} {name : String} {op : Op}
    (shrinking : Shrinking g e) (removed : e.removeOp name = .ok (e', op)) : Shrinking g e' := by
  unfold Edit.removeOp at removed
  obtain ⟨id, -, removed⟩ := except_bind_eq_ok.mp removed
  split at removed
  · cases removed
    exact ⟨shrinking.1, by simpa using shrinking.2⟩
  · cases removed

/-- Finishing keeps the source's arena or the ops still in the slots, so an edit without
insertions never ends with more ops than its source. -/
theorem Shrinking.finish {g g' : Graph} {e : Edit} {reuse : Reuse} (shrinking : Shrinking g e)
    (done : e.finish = .ok (g', reuse)) : g'.opCount ≤ g.opCount := by
  by_cases only : e.OnlyMetadata
  · rw [finish_of_onlyMetadata only] at done
    cases done
    simp [Graph.opCount, shrinking.1]
  · obtain ⟨-, ops, -⟩ := build_eq_ok (build_of_finish only done)
    have fewer : e.liveOps.length ≤ e.slots.size := by
      simpa [liveOps] using List.length_filterMap_le EditSlot.op? e.slots.toList
    simp only [Graph.opCount, ops, List.size_toArray]
    exact fewer.trans shrinking.2

end Edit

namespace Prune

/-- A state of the removal loop: stopped at a failed removal, or holding an edit that only
removed ops. -/
def Removing (g : Graph) (state : Option (Except ValidationError (Graph × Reuse)) × Edit) : Prop :=
  (∀ r, state.1 = some r → ∃ err, r = .error err) ∧ Edit.Shrinking g state.2

/-- Pruning never adds ops, whatever the graph. -/
theorem run_opCount_le (ks : List String) {g g' : Graph} {reuse : Reuse}
    (pruned : (run ks g).value = .ok (g', reuse)) : g'.opCount ≤ g.opCount := by
  simp only [run] at pruned
  split at pruned
  · cases pruned
    exact Nat.le_refl _
  split at pruned
  · cases pruned
    exact Nat.le_refl _
  simp only [Logged.bind_value] at pruned
  generalize loop : Logged.value (forIn (_ : List Nat)
    (_ : Option (Except ValidationError (Graph × Reuse)) × Edit) _) = state at pruned
  obtain ⟨stopped, e⟩ := state
  obtain ⟨failed, shrinking⟩ : Removing g (stopped, e) :=
    loop ▸ Logged.forIn_invariant (Removing g)
      (by
        intro i state holds
        have shrinking := holds.2
        simp only [Logged.bind_value]
        split
        · next e' op removed => exact ⟨by simp, shrinking.removeOp removed⟩
        · exact ⟨by simp, shrinking⟩) _ _ ⟨by simp, Edit.shrinking_start g⟩
  cases stopped with
  | some r =>
    obtain ⟨err, rfl⟩ := failed r rfl
    cases pruned
  | none => exact shrinking.finish pruned

end Prune

theorem PipelineReport.opsRemoved_cons (e : PassReport) (rest : List PassReport) :
    (⟨e :: rest⟩ : PipelineReport).opsRemoved = e.opsRemoved + (⟨rest⟩ : PipelineReport).opsRemoved :=
  rfl

namespace Pass

/-- A pass that never adds ops. -/
def Shrinks (p : Pass) : Prop :=
  ∀ g g' reuse, (p.apply g).value = .ok (g', reuse) → g'.opCount ≤ g.opCount

theorem refCount_shrinks : Shrinks .refCount := by
  intro g g' reuse applied
  simp only [apply, Logged.pure_value, RefCount.annotate_eq, liftValidation] at applied
  cases applied
  exact Nat.le_refl _

theorem prune_shrinks (ks : List String) : Shrinks (.prune ks) := by
  intro g g' reuse applied
  simp only [apply, Logged.bind_value, Logged.pure_value] at applied
  cases pruned : (Prune.run ks g).value with
  | error e => simp [pruned, liftValidation] at applied
  | ok result =>
    simp only [pruned, liftValidation] at applied
    cases applied
    exact Prune.run_opCount_le ks pruned

/-- Along a chain of passes that never add ops, each report has no more ops after than before,
and the ops removed, pass by pass, add up to what the whole chain removed. -/
theorem Chain.reports_shrink {ps : List Pass} {g : Graph} {gs : List Graph} {rs : List Reuse}
    (chain : Chain ps g gs rs) (shrink : ∀ p ∈ ps, p.Shrinks) :
    (gs.getLastD g).opCount ≤ g.opCount ∧
      (∀ e ∈ reportsAlong ps g gs, e.opsAfter ≤ e.opsBefore) ∧
      (⟨reportsAlong ps g gs⟩ : PipelineReport).opsRemoved = g.opCount - (gs.getLastD g).opCount ∧
      (reportsAlong ps g gs).length = ps.length := by
  induction chain with
  | nil g => simp [PipelineReport.opsRemoved]
  | @cons p ps g g' gs r rs applied rest ih =>
    have first : g'.opCount ≤ g.opCount := shrink p List.mem_cons_self g g' r applied
    obtain ⟨last, each, removed, length⟩ := ih fun q member => shrink q (List.mem_cons_of_mem p member)
    rw [List.getLastD_cons, reportsAlong_cons, PipelineReport.opsRemoved_cons, removed]
    refine ⟨last.trans first, ?_, ?_, by simp [length]⟩
    · intro e member
      rcases List.mem_cons.mp member with rfl | later
      · exact first
      · exact each e later
    · simp only [PassReport.opsRemoved, PassReport.between]
      omega

/-- A run of a pipeline that succeeds went through a chain of all its passes, and returns the
chain's last graph with the reports along it. -/
theorem runWithReport_eq_ok {ps : List Pass} {g g' : Graph} {reuse : Reuse} {report : PipelineReport}
    (ran : (runWithReport ps g).value = .ok (g', reuse, report)) :
    ∃ gs rs, Chain ps g gs rs ∧ g' = gs.getLastD g ∧ report = ⟨reportsAlong ps g gs⟩ := by
  obtain ⟨gs, rs, -, chain, -, outcome⟩ := applyAll_run ps g []
  rw [runWithReport_value] at ran
  rcases outcome with ⟨all, done⟩ | ⟨k, e, -, -, failed⟩
  · rw [done] at ran
    simp only [List.reverse_nil, List.nil_append, Except.ok.injEq, Prod.mk.injEq] at ran
    obtain ⟨rfl, -, rfl⟩ := ran
    rw [all, List.take_length] at chain
    exact ⟨gs, rs, chain, rfl, rfl⟩
  · rw [failed] at ran
    cases ran

end Pass

namespace PassRegistry

theorem defaults_create_shrinks {name : String} {c : PassConfig} {p : Pass}
    (created : defaults.create name c = .ok p) : p.Shrinks := by
  unfold create at created
  split at created
  · next k found =>
    cases k with
    | refCount =>
      obtain ⟨-, -, built⟩ := except_bind_eq_ok.mp created
      cases built
      exact Pass.refCount_shrinks
    | prune =>
      obtain ⟨-, -, built⟩ := except_bind_eq_ok.mp created
      obtain ⟨ks, -, built⟩ := except_bind_eq_ok.mp built
      cases built
      exact Pass.prune_shrinks _
    | custom factory =>
      -- the built-in registry binds no factory of the caller's
      have listed := List.mem_of_find?_eq_some found
      simp [defaults] at listed
  · cases created

/-- A configuration resolved against the built-in registry gives one pass per entry, each a
built-in pass. -/
theorem defaults_pipeline {c : PipelineConfig} {ps : List Pass}
    (resolved : defaults.pipeline c = .ok ps) :
    ps.length = c.passes.length ∧ ∀ p ∈ ps, p.Shrinks := by
  have each := Snapshot.mapM_except_forall₂ resolved
  refine ⟨each.length_eq.symm, ?_⟩
  clear resolved
  generalize c.passes = specs at each
  induction each with
  | nil => simp
  | cons created _ ih =>
    intro p member
    rcases List.mem_cons.mp member with rfl | later
    · exact defaults_create_shrinks created
    · exact ih p later

end PassRegistry

/-- A successful optimization resolved its pipeline and ran it to the end, and its statistics are
the counts of the input and of the result, with the run's report. -/
theorem optimizeGraph_eq_ok {store : FileStore} {g : Graph} {options : OptimizeOptions}
    {registry : PassRegistry} {g' : Graph} {reuse : Reuse} {stats : OptimizeStats}
    {store' : FileStore}
    (done : (optimizeGraph store g options registry).value = .ok (g', reuse, stats, store')) :
    ∃ passes, registry.pipeline options.pipeline = .ok passes ∧ ∃ report,
      (Pass.runWithReport passes g).value = .ok (g', reuse, report) ∧
      stats = ⟨g.opCount, g'.opCount, report.opsRemoved, g'.metadata.size, g.isQuantized, report,
        stats.saved⟩ := by
  unfold optimizeGraph at done
  -- the warning only logs
  have warned : ∀ {α : Type} (c : Bool) (fields : List (String × String)) (rest : Logged α),
      (if c = true then Logged.emit .warn "Graph contains quantized operators" fields >>= fun _ => rest
        else rest).value = rest.value := by
    intro α c fields rest
    split <;> rfl
  rw [warned] at done
  split at done
  · cases done
  next passes resolved =>
  simp only [Logged.bind_value] at done
  split at done
  · cases done
  next optimized kept report ran =>
  split at done
  · cases done
  next saved =>
  -- saving logs, and the statistics are the same either way
  split at done <;>
    simp only [Logged.bind_value, Logged.pure_value, Except.ok.injEq, Prod.mk.injEq] at done <;>
  · obtain ⟨rfl, rfl, rfl, rfl⟩ := done
    exact ⟨passes, resolved, report, ran, rfl⟩

/-- The optimizer's statistics add up: the op counts before and after are the definition's and the
result's, no pass adds ops, the ops removed are the difference, the metadata count is the result's,
and there is one report per configured pass. -/
theorem optimizer_statistics_add_up (store : FileStore) (ops : List Op) (outputs : List String)
    (options : OptimizeOptions) {g : Graph} {reuse : Reuse} {stats : OptimizeStats}
    {store' : FileStore}
    (optimized : (optimizeOps store ops outputs options PassRegistry.defaults).value =
      .ok (g, reuse, stats, store')) :
    stats.opsBefore = ops.length ∧ stats.opsAfter = g.opCount ∧ stats.opsAfter ≤ stats.opsBefore ∧
      stats.opsRemoved = stats.opsBefore - stats.opsAfter ∧
      (∀ e ∈ stats.passes.passes, e.opsAfter ≤ e.opsBefore) ∧
      stats.metadataCount = g.metadata.size ∧
      stats.passes.passes.length = options.pipeline.passes.length := by
  unfold optimizeOps at optimized
  split at optimized
  · cases optimized
  next source made =>
  have sourceOps : source.opCount = ops.length := by
    obtain ⟨-, built, -⟩ := build_eq_ok made
    simp [Graph.opCount, built]
  obtain ⟨passes, resolved, report, ran, counted⟩ := optimizeGraph_eq_ok optimized
  obtain ⟨count, builtin⟩ := PassRegistry.defaults_pipeline resolved
  obtain ⟨gs, rs, chain, rfl, rfl⟩ := Pass.runWithReport_eq_ok ran
  obtain ⟨fewer, each, removed, length⟩ := chain.reports_shrink builtin
  rw [counted]
  exact ⟨sourceOps, rfl, sourceOps ▸ fewer, removed, each, rfl, length.trans count⟩

/-- A product of a placeholder and a constant, beside a constant nothing reads. -/
def matMulOps : List Op :=
  [⟨"x", "Placeholder", [], [⟨"x:0", .float, ⟨none⟩⟩], []⟩,
   ⟨"w", "Const", [], [⟨"w:0", .float, ⟨none⟩⟩], []⟩,
   ⟨"mm", "MatMul", ["x:0", "w:0"], [⟨"mm:0", .float, ⟨none⟩⟩], []⟩,
   ⟨"unused", "Const", [], [⟨"unused:0", .float, ⟨none⟩⟩], []⟩]

/-- Prune, then count references. -/
def pruneThenCount : OptimizeOptions := ⟨PipelineConfig.ofNames ["prune", "refcnt"], none, true⟩

theorem pruneThenCount_statistics :
    ∃ g reuse stats store', (optimizeOps FileStore.empty matMulOps ["mm"] pruneThenCount
        PassRegistry.defaults).value = .ok (g, reuse, stats, store') ∧
      stats.opsRemoved = 1 ∧ stats.metadataCount = 6 ∧
      (stats.opsBefore = matMulOps.length ∧ stats.opsAfter = g.opCount ∧
        stats.opsAfter ≤ stats.opsBefore ∧ stats.opsRemoved = stats.opsBefore - stats.opsAfter ∧
        (∀ e ∈ stats.passes.passes, e.opsAfter ≤ e.opsBefore) ∧
        stats.metadataCount = g.metadata.size ∧
        stats.passes.passes.length = pruneThenCount.pipeline.passes.length) := by
  have counted : ((optimizeOps FileStore.empty matMulOps ["mm"] pruneThenCount
      PassRegistry.defaults).value.toOption.map fun r => (r.2.2.1.opsRemoved, r.2.2.1.metadataCount)) =
      some (1, 6) := by
    decide +kernel
  cases ran : (optimizeOps FileStore.empty matMulOps ["mm"] pruneThenCount
      PassRegistry.defaults).value with
  | error e => simp [ran, Except.toOption] at counted
  | ok result =>
    obtain ⟨g, reuse, stats, store'⟩ := result
    simp only [ran, Except.toOption, Option.map_some, Option.some.injEq, Prod.mk.injEq] at counted
    exact ⟨g, reuse, stats, store', rfl, counted.1, counted.2,
      optimizer_statistics_add_up FileStore.empty matMulOps ["mm"] pruneThenCount ran⟩

end OpGraph
