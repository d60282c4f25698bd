import OpGraph.Proofs.Transform.Prune

namespace OpGraph

namespace Index

/-- A tensor that some op of the arena reads is counted at least once. -/
theorem inputCount_pos {op : Op} {t : String} (input : t ∈ op.inputs) :
    ∀ {ops : List Op}, op ∈ ops → 0 < inputCount ops t
  | a :: rest, member => by
    have split : inputCount (a :: rest) t = a.inputs.count t + inputCount rest t := rfl
    rw [split]
    rcases List.mem_cons.mp member with rfl | later
    · have := List.count_pos_iff.mpr input
      omega
    · have := inputCount_pos input later
      omega

end Index

theorem Namespaced.get?_forOp (m : Metadata) (op : Nat) (ns : Namespace) (kind : String) :
    (⟨m.forOp op, ns⟩ : Namespaced).get? kind = m.get? op ns kind := by
  simp only [Namespaced.get?, Metadata.forOp, Metadata.get?, List.find?_filter, MetaEntry.hasKey,
    Bool.and_assoc, Bool.decide_and, Bool.decide_eq_true]

namespace RefCount

variable {g : Graph}

/-- The metadata after annotating some ids, one after another. -/
def annotateAll (g : Graph) (m : Metadata) (ids : List Nat) : Metadata :=
  ids.foldl (fun m id =>
    ((m.insert id ns toEvalKind (.flag (toEval g id))).1.insert id ns refCountsKind
      (.counts (refCounts g id))).1) m

theorem toEvalKind_ne_refCountsKind : toEvalKind ≠ refCountsKind := by decide

/-- After the annotations every annotated id holds both of its entries. -/
theorem get?_annotateAll (g : Graph) (m : Metadata) (ids : List Nat) {k : Nat} (member : k ∈ ids) :
    (annotateAll g m ids).get? k ns toEvalKind = some (.flag (toEval g k)) ∧
      (annotateAll g m ids).get? k ns refCountsKind = some (.counts (refCounts g k)) := by
  induction ids using List.reverseRecOn with
  | nil => cases member
  | append_singleton rest id ih =>
    simp only [annotateAll, List.foldl_append, List.foldl_cons, List.foldl_nil] at ih ⊢
    simp only [Metadata.get?_insert, MetaEntry.keyOf, toLex_inj, Prod.mk.injEq, true_and]
    -- the last id written is `k`, or `k` was written before and is untouched since
    by_cases last : id = k
    · subst last
      simp [toEvalKind_ne_refCountsKind.symm]
    · have earlier : k ∈ rest := by simpa [Ne.symm last] using member
      simpa [last] using ih earlier

/-- The annotating fold, for any step that writes the two entries of an id: the edit changes in
its metadata only. -/
theorem foldl_annotate {step : Edit → Nat → Edit}
    (behaves : ∀ e id, step e id = { e with metadata := ((e.metadata.insert id ns toEvalKind
      (.flag (toEval g id))).1.insert id ns refCountsKind (.counts (refCounts g id))).1 }) :
    ∀ (ids : List Nat) (e : Edit), ids.foldl step e = { e with metadata := annotateAll g e.metadata ids }
  | [], e => rfl
  | id :: rest, e => by
    rw [List.foldl_cons, foldl_annotate behaves rest, behaves]
    rfl

/-- Annotating succeeds and only adds metadata: the arena, the order and the outputs are those
of the graph, and every op of the order holds its two entries. -/
theorem annotate_eq (g : Graph) :
    annotate g = .ok ({ g with metadata := annotateAll g g.metadata g.topo.reverse }, .whole) := by
  rw [annotate, foldl_annotate ?_]
  · exact Edit.finish_of_onlyMetadata ⟨rfl, rfl, rfl⟩
  · intro e id
    rfl

/-- Reading the annotation of an op of a valid graph's order after annotating gives back what
the pass computed for it. -/
theorem read_annotated (valid : g.Valid) {k : Nat} (bound : k < g.opCount) :
    read { g with metadata := annotateAll g g.metadata g.topo.reverse }
      (g.opAt k).name = .ok (some ⟨toEval g k, refCounts g k⟩) := by
  have inRange : k ∈ List.range g.ops.toList.length :=
    List.mem_range.mpr (by simpa [Graph.opCount] using bound)
  have ordered : k ∈ g.topo.reverse := List.mem_reverse.mpr (valid.topo.1.mem_iff.mpr inRange)
  obtain ⟨flag, counts⟩ := get?_annotateAll g g.metadata g.topo.reverse ordered
  have found : Graph.opId? { g with metadata := annotateAll g g.metadata g.topo.reverse }
      (g.opAt k).name = some k := Graph.opId?_opAt_name valid.distinctOps bound
  simp [read, Graph.namespaced, found, liftValidation, Namespaced.flag?, Namespaced.counts?,
    Namespaced.get?_forOp, flag, counts, MetaValue.asFlag?, MetaValue.asCounts?, bind, Except.bind,
    pure, Except.pure]

/-- An op that reaches an output but is not one feeds another op, which reads one of its
outputs: that output's count is positive. -/
theorem refCount_pos_of_live {k : Nat} (live : Prune.Live [] g k) (notOutput : k ∉ g.outputs) :
    ∃ c ∈ refCounts g k, 0 < c := by
  obtain ⟨-, r, root, path⟩ := live
  have output : r ∈ g.outputs := by
    rcases root with output | ⟨-, kept⟩
    · exact output
    · cases kept
  rcases path.cases_head with same | ⟨c, feeds, -⟩
  · exact absurd (same ▸ output) notOutput
  have consumer : g.ops.toList.getD c default ∈ g.ops.toList := by
    rw [List.getD_eq_getElem _ _ feeds.lt_length.2]
    exact List.getElem_mem _
  obtain ⟨t, input, produced⟩ := feeds
  obtain ⟨tensor, atK, named⟩ := List.mem_map.mp produced
  rw [Graph.getD_toList] at atK
  refine ⟨Index.inputCount g.ops.toList tensor.name, List.mem_map.mpr ⟨tensor, atK, rfl⟩, ?_⟩
  exact named ▸ Index.inputCount_pos input consumer

end RefCount

/-- Pruning with no kept type, then counting, annotates every op, and leaves no evaluated op whose
results are all unread: an op whose outputs are all unread is an output op. -/
theorem pruned_counts_leave_no_dead_evaluation {g : Graph} (valid : g.Valid)
    (fits : g.metadata.Fits g.ops.size) (nonempty : g.outputs ≠ []) :
    ∃ pruned counted reusePruned reuseCounted,
      (Prune.run [] g).value = .ok (pruned, reusePruned) ∧
      RefCount.annotate pruned = .ok (counted, reuseCounted) ∧
      ∀ k < counted.opCount, ∃ a, RefCount.read counted (counted.opAt k).name = .ok (some a) ∧
        (a.toEval = true → ∃ c ∈ a.refCounts, 0 < c) ∧
        ((∀ c ∈ a.refCounts, c = 0) → k ∈ counted.outputs) := by
  obtain ⟨g', reuse, done, pruned⟩ : ∃ g' reuse, (Prune.run [] g).value = .ok (g', reuse) ∧
      Prune.Pruned [] g g' := Prune.run_pruned valid fits nonempty
  refine ⟨g', _, reuse, _, done, RefCount.annotate_eq g', fun k bound => ?_⟩
  have inPruned : k < g'.opCount := bound
  have live := pruned.live_all valid inPruned
  refine ⟨_, RefCount.read_annotated pruned.valid inPruned, fun evaluated => ?_, fun unread => ?_⟩
  · -- an evaluated op is not an output
    have notOutput : k ∉ g'.outputs := by
      intro output
      simp [RefCount.toEval, Graph.isOutput, output] at evaluated
    exact RefCount.refCount_pos_of_live live notOutput
  · by_contra notOutput
    obtain ⟨c, counted, positive⟩ := RefCount.refCount_pos_of_live live notOutput
    have := unread c counted
    omega

theorem deadBranch_counts_after_pruning :
    deadBranchGraph.Valid ∧ deadBranchGraph.metadata.Fits deadBranchGraph.ops.size ∧
      deadBranchGraph.outputs ≠ [] ∧
      ∃ pruned counted reusePruned reuseCounted,
        (Prune.run [] deadBranchGraph).value = .ok (pruned, reusePruned) ∧
        RefCount.annotate pruned = .ok (counted, reuseCounted) ∧
        ∀ k < counted.opCount, ∃ a, RefCount.read counted (counted.opAt k).name = .ok (some a) ∧
          (a.toEval = true → ∃ c ∈ a.refCounts, 0 < c) ∧
          ((∀ c ∈ a.refCounts, c = 0) → k ∈ counted.outputs) := by
  have valid : deadBranchGraph.Valid :=
    ⟨by decide, by decide, by decide, by decide, by decide, by decide⟩
  have fits : deadBranchGraph.metadata.Fits deadBranchGraph.ops.size := ⟨by decide, by decide⟩
  have nonempty : deadBranchGraph.outputs ≠ [] := by decide
  exact ⟨valid, fits, nonempty, pruned_counts_leave_no_dead_evaluation valid fits nonempty⟩

end OpGraph
