import OpGraph.Proofs.Transform.RefCount
import Mathlib

namespace OpGraph

namespace Index

theorem map_fst_inputSlots (ops : List Op) :
    (inputSlots ops).map (·.1) = ops.flatMap (·.inputs) := by
  unfold inputSlots
  simp only [List.map_flatten, List.map_map, List.flatMap_def, Function.comp_def]
  rw [← map_zipIdx_fst _ ops 0]
  congr 2
  funext p
  simp

theorem mem_inputSlots {ops : List Op} {t : String} {u : TensorUse} :
    (t, u) ∈ inputSlots ops ↔ ∃ op, ops[u.op]? = some op ∧ op.inputs[u.slot]? = some t := by
  obtain ⟨i, s⟩ := u
  constructor
  · intro member
    obtain ⟨slots, inSlots, atSlot⟩ := List.mem_flatten.mp member
    obtain ⟨⟨op, i'⟩, atOp, rfl⟩ := List.mem_map.mp inSlots
    obtain ⟨⟨t', s'⟩, atInput, same⟩ := List.mem_map.mp atSlot
    simp only [Prod.mk.injEq, TensorUse.mk.injEq] at same
    obtain ⟨rfl, rfl, rfl⟩ := same
    exact ⟨op, List.mk_mem_zipIdx_iff_getElem?.mp atOp, List.mk_mem_zipIdx_iff_getElem?.mp atInput⟩
  · rintro ⟨op, atOp, atInput⟩
    refine List.mem_flatten.mpr
      ⟨_, List.mem_map.mpr ⟨(op, i), ?_, rfl⟩, List.mem_map.mpr ⟨(t, s), ?_, rfl⟩⟩
    · exact List.mk_mem_zipIdx_iff_getElem?.mpr atOp
    · exact List.mk_mem_zipIdx_iff_getElem?.mpr atInput

/-- No slot is listed twice: the slots of one op differ in their index, those of two ops in the
op. -/
theorem nodup_map_snd_inputSlots (ops : List Op) : ((inputSlots ops).map (·.2)).Nodup := by
  unfold inputSlots
  rw [List.map_flatten, List.map_map]
  refine List.nodup_flatten.mpr ⟨fun slots member => ?_, ?_⟩
  · obtain ⟨⟨op, i⟩, -, rfl⟩ := List.mem_map.mp member
    apply List.Nodup.of_map (·.slot)
    simp [Function.comp_def, List.nodup_range']
  · rw [List.pairwise_map]
    have distinct : (ops.zipIdx.map (·.2)).Nodup := by simp [List.nodup_range']
    refine (List.pairwise_map.mp distinct).imp fun {a b} apart => ?_
    intro u inA inB
    simp only [List.map_map, Function.comp_def, List.mem_map] at inA inB
    obtain ⟨x, -, rfl⟩ := inA
    obtain ⟨y, -, same⟩ := inB
    exact apart (congrArg TensorUse.op same).symm

/-- The per-op count of a tensor is how often it occurs among all inputs. -/
theorem inputCount_eq_count (ops : List Op) (t : String) :
    inputCount ops t = (ops.flatMap (·.inputs)).count t := by
  rw [List.count_flatMap]
  rfl

end Index

namespace Graph

/-- The uses of a tensor are exactly the slots that read it. -/
theorem mem_tensorUses {g : Graph} {t : String} {u : TensorUse} :
    u ∈ g.tensorUses t ↔ u.op < g.opCount ∧ (g.opAt u.op).inputs[u.slot]? = some t := by
  simp only [tensorUses, List.mem_map, List.mem_filter, beq_iff_eq]
  constructor
  · rintro ⟨⟨t', u'⟩, ⟨member, rfl⟩, rfl⟩
    obtain ⟨op, atOp, atInput⟩ := Index.mem_inputSlots.mp member
    have bound : u'.op < g.opCount := by simpa [opCount] using (List.getElem?_eq_some_iff.mp atOp).1
    exact ⟨bound, by rwa [opAt_of_getElem? atOp]⟩
  · rintro ⟨bound, atInput⟩
    exact ⟨(t, u), ⟨Index.mem_inputSlots.mpr ⟨_, getElem?_toList_opAt bound, atInput⟩, rfl⟩, rfl⟩

theorem nodup_tensorUses (g : Graph) (t : String) : (g.tensorUses t).Nodup :=
  (Index.nodup_map_snd_inputSlots g.ops.toList).sublist (List.filter_sublist.map _)

/-- Counting a tensor op by op agrees with its use list. -/
theorem length_tensorUses (g : Graph) (t : String) :
    (g.tensorUses t).length = Index.inputCount g.ops.toList t := by
  rw [Index.inputCount_eq_count, ← Index.map_fst_inputSlots, List.count_eq_countP,
    List.countP_map, tensorUses, List.length_map, ← List.countP_eq_length_filter]
  rfl

end Graph

/-- Counting, over a duplicate-free list of names that covers a list, how often each name occurs
in it counts every entry once. -/
theorem sum_map_count_of_nodup {T L : List String} (nodup : T.Nodup) (cover : ∀ x ∈ L, x ∈ T) :
    (T.map fun t => L.count t).sum = L.length := by
  induction L with
  | nil => simp
  | cons a rest ih =>
    have once : (T.filter fun b => decide (a = b)).length = 1 := by
      rw [← List.count_eq_one_of_mem nodup (cover a List.mem_cons_self), List.count_eq_length_filter]
      congr 1
      exact List.filter_congr fun b _ => by by_cases same : a = b <;> simp [same, Ne.symm]
    simp only [List.count_cons, List.sum_map_add, List.length_cons]
    rw [ih fun x member => cover x (List.mem_cons_of_mem a member)]
    simp [List.sum_map_ite, once]

/-- On a valid graph the reads of all output tensors add up to the number of input slots. -/
theorem sum_tensorUses_outputs {g : Graph} (valid : g.Valid) :
    ((List.range g.opCount).map fun k =>
        ((g.opAt k).outputs.map fun t => (g.tensorUses t.name).length).sum).sum =
      (g.ops.toList.map fun op => op.inputs.length).sum := by
  set inputs := g.ops.toList.flatMap (·.inputs)
  have uses : ∀ t, (g.tensorUses t).length = inputs.count t := fun t => by
    rw [Graph.length_tensorUses, Index.inputCount_eq_count]
  -- every input names one output tensor, and output tensors have distinct names
  have cover : ∀ t ∈ inputs, t ∈ tensorNames g.ops.toList := by
    intro t member
    obtain ⟨op, inOps, input⟩ := List.mem_flatMap.mp member
    exact valid.resolve op inOps t input
  calc ((List.range g.opCount).map fun k =>
          ((g.opAt k).outputs.map fun t => (g.tensorUses t.name).length).sum).sum
      = ((tensorNames g.ops.toList).map fun t => inputs.count t).sum := by
        simp only [uses, tensorNames, List.flatMap_def, List.map_flatten, List.sum_flatten,
          Graph.toList_eq_map_opAt g, List.map_map, Function.comp_def]
    _ = inputs.length := sum_map_count_of_nodup valid.distinctTensors cover
    _ = (g.ops.toList.map fun op => op.inputs.length).sum := by
        simp [inputs, List.length_flatMap]

namespace Metadata

/-- Storing the value a sorted table already holds under a key changes nothing. -/
theorem insert_of_get? {m : Metadata} (sorted : m.Sorted) {op : Nat} {ns : Namespace}
    {kind : String} {v : MetaValue} (found : m.get? op ns kind = some v) :
    (m.insert op ns kind v).1 = m := by
  obtain ⟨entries⟩ := m
  rw [insert_fst, Metadata.mk.injEq]
  rw [get?_eq] at found
  induction entries with
  | nil => cases found
  | cons a rest ih =>
    obtain ⟨below, sortedRest⟩ := List.pairwise_cons.mp sorted
    have key : (⟨op, ns, kind, v⟩ : MetaEntry).key = MetaEntry.keyOf op ns kind := rfl
    rcases lt_trichotomy a.key (MetaEntry.keyOf op ns kind) with before | same | after
    · have later : (rest.find? fun e => decide (e.key = MetaEntry.keyOf op ns kind)).map (·.value) =
          some v := by
        simpa [List.find?_cons, ne_of_lt before] using found
      rw [insertEntry_of_lt rest (key ▸ before), ih sortedRest later]
    · -- the entry under the key is the one stored again
      have value : a.value = v := by simpa [List.find?_cons, same] using found
      rw [insertEntry_of_sameKey rest (key ▸ same)]
      obtain ⟨aOp, aNs, aKind, aValue⟩ := a
      simp only [MetaEntry.key, MetaEntry.keyOf, toLex_inj, Prod.mk.injEq] at same value
      obtain ⟨rfl, nsName, rfl⟩ := same
      subst value
      simp [Namespace.eq_of_name nsName]
    · -- every entry lies after the key, so none is found under it
      have none : (a :: rest).find? (fun e => decide (e.key = MetaEntry.keyOf op ns kind)) = none := by
        refine List.find?_eq_none.mpr fun x member hit => ?_
        have atKey : x.key = MetaEntry.keyOf op ns kind := by simpa using hit
        rcases List.mem_cons.mp member with rfl | later
        · exact ne_of_gt after atKey
        · exact ne_of_gt (after.trans (below x later)) atKey
      rw [none] at found
      cases found

end Metadata

namespace RefCount

variable {g : Graph}

theorem toEval_eq (g : Graph) (k : Nat) :
    toEval g k = decide ¬(k ∈ g.outputs ∨ (g.opAt k).opType = "Const" ∨
      (g.opAt k).opType = "Placeholder") := by
  simp [toEval, Graph.isOutput, neverEvaluated]

theorem refCounts_eq (g : Graph) (k : Nat) :
    refCounts g k = (g.opAt k).outputs.map fun t => (g.tensorUses t.name).length := by
  simp [refCounts, Graph.length_tensorUses]

theorem annotateAll_cons (g : Graph) (m : Metadata) (id : Nat) (ids : List Nat) :
    annotateAll g m (id :: ids) = annotateAll g ((m.insert id ns toEvalKind
      (.flag (toEval g id))).1.insert id ns refCountsKind (.counts (refCounts g id))).1 ids := rfl

theorem sorted_annotateAll (g : Graph) {m : Metadata} (sorted : m.Sorted) :
    ∀ ids, (annotateAll g m ids).Sorted := by
  intro ids
  induction ids generalizing m with
  | nil => exact sorted
  | cons id rest ih => exact ih ((sorted.insert _ _ _ _).insert _ _ _ _)

/-- Annotating leaves every entry but the two of each annotated op as it was. -/
theorem get?_annotateAll_of_not_mem (g : Graph) {k : Nat} {ns' : Namespace} {kind : String} :
    ∀ (m : Metadata) (ids : List Nat),
      ¬(k ∈ ids ∧ ns' = ns ∧ (kind = toEvalKind ∨ kind = refCountsKind)) →
      (annotateAll g m ids).get? k ns' kind = m.get? k ns' kind
  | m, [], _ => rfl
  | m, id :: rest, other => by
    rw [annotateAll_cons, get?_annotateAll_of_not_mem g _ rest fun ⟨later, named⟩ =>
      other ⟨List.mem_cons_of_mem id later, named⟩]
    simp only [Metadata.get?_insert, MetaEntry.keyOf, toLex_inj, Prod.mk.injEq]
    -- a hit on either key would be one of the two entries of `id`
    have apart : ∀ kind', (kind' = toEvalKind ∨ kind' = refCountsKind) →
        ¬(id = k ∧ ns.name = ns'.name ∧ kind' = kind) := by
      rintro kind' written ⟨rfl, named, rfl⟩
      exact other ⟨List.mem_cons_self, (Namespace.eq_of_name named).symm, written⟩
    rw [if_neg (apart _ (Or.inr rfl)), if_neg (apart _ (Or.inl rfl))]

/-- Annotating a table that already holds the entries the annotations would write changes
nothing. -/
theorem annotateAll_of_annotated (g : Graph) :
    ∀ {m : Metadata} (ids : List Nat), m.Sorted →
      (∀ k ∈ ids, m.get? k ns toEvalKind = some (.flag (toEval g k)) ∧
        m.get? k ns refCountsKind = some (.counts (refCounts g k))) →
      annotateAll g m ids = m
  | _, [], _, _ => rfl
  | m, id :: rest, sorted, annotated => by
    obtain ⟨flag, counts⟩ := annotated id List.mem_cons_self
    rw [annotateAll_cons, Metadata.insert_of_get? sorted flag, Metadata.insert_of_get? sorted counts]
    exact annotateAll_of_annotated g rest sorted fun k member =>
      annotated k (List.mem_cons_of_mem id member)

/-- The pass run on its own result gives that result back. -/
theorem annotate_annotated (g : Graph) (sorted : g.metadata.Sorted) :
    annotate { g with metadata := annotateAll g g.metadata g.topo.reverse } =
      .ok ({ g with metadata := annotateAll g g.metadata g.topo.reverse }, .whole) := by
  rw [annotate_eq]
  -- the annotations read the arena and the outputs, which the first run kept
  have again : annotateAll g (annotateAll g g.metadata g.topo.reverse) g.topo.reverse =
      annotateAll g g.metadata g.topo.reverse :=
    annotateAll_of_annotated g _ (sorted_annotateAll g sorted _) fun k member =>
      get?_annotateAll g g.metadata g.topo.reverse member
  exact congrArg (fun m => Except.ok ({ g with metadata := m }, Reuse.whole)) again

end RefCount

open RefCount in
/-- The reference-count pass keeps and shares the graph, stores for every op whether it is evaluated
and for each output how many input slots read it, leaves other entries alone, and its counts add up
to the graph's input slots; running it again changes nothing. -/
theorem refcount_pass_counts_reads {g : Graph} (valid : g.Valid) (sorted : g.metadata.Sorted) :
    ∃ counted, annotate g = .ok (counted, .whole) ∧
      counted.ops = g.ops ∧ counted.topo = g.topo ∧ counted.outputs = g.outputs ∧
      counted.metadata.Sorted ∧
      (∀ k < g.opCount,
        counted.metadata.get? k RefCount.ns "to_eval" = some (.flag (decide ¬(k ∈ g.outputs ∨
          (g.opAt k).opType = "Const" ∨ (g.opAt k).opType = "Placeholder"))) ∧
        counted.metadata.get? k RefCount.ns "ref_counts" =
          some (.counts ((g.opAt k).outputs.map fun t => (g.tensorUses t.name).length))) ∧
      (∀ k ns kind, ¬(k < g.opCount ∧ ns = RefCount.ns ∧ (kind = "to_eval" ∨ kind = "ref_counts")) →
        counted.metadata.get? k ns kind = g.metadata.get? k ns kind) ∧
      (∀ t u, u ∈ g.tensorUses t ↔ u.op < g.opCount ∧ (g.opAt u.op).inputs[u.slot]? = some t) ∧
      (∀ t, (g.tensorUses t).Nodup) ∧
      ((List.range g.opCount).map fun k =>
          ((g.opAt k).outputs.map fun t => (g.tensorUses t.name).length).sum).sum =
        (g.ops.toList.map fun op => op.inputs.length).sum ∧
      annotate counted = .ok (counted, .whole) := by
  -- the order lists exactly the ops of the arena
  have ordered : ∀ k, k ∈ g.topo.reverse ↔ k < g.opCount := fun k => by
    rw [List.mem_reverse, valid.topo.1.mem_iff, List.mem_range]
    rfl
  refine ⟨_, annotate_eq g, rfl, rfl, rfl, sorted_annotateAll g sorted _, fun k bound => ?_,
    fun k ns' kind other => ?_, fun t u => Graph.mem_tensorUses, Graph.nodup_tensorUses g,
    sum_tensorUses_outputs valid, annotate_annotated g sorted⟩
  · obtain ⟨flag, counts⟩ := get?_annotateAll g g.metadata g.topo.reverse ((ordered k).mpr bound)
    rw [← toEval_eq, ← refCounts_eq]
    exact ⟨flag, counts⟩
  · refine get?_annotateAll_of_not_mem g _ _ fun ⟨member, named, kinds⟩ => ?_
    exact other ⟨(ordered k).mp member, named, kinds⟩

/-- `mul` reads `x` twice and `add` reads it once more; `split` has two outputs, of which `add`
reads the second. -/
def readsGraph : Graph :=
  ⟨#[⟨"x", "Placeholder", [], [⟨"x:0", .float, ⟨none⟩⟩], []⟩,
     ⟨"mul", "Mul", ["x:0", "x:0"], [⟨"mul:0", .float, ⟨none⟩⟩], []⟩,
     ⟨"split", "Split", ["mul:0"], [⟨"split:0", .float, ⟨none⟩⟩, ⟨"split:1", .float, ⟨none⟩⟩], []⟩,
     ⟨"add", "Add", ["split:1", "x:0"], [⟨"add:0", .float, ⟨none⟩⟩], []⟩], [0, 1, 2, 3], [3], ⟨[]⟩⟩

theorem readsGraph_counted :
    readsGraph.Valid ∧ readsGraph.metadata.Sorted ∧ ∃ counted,
      RefCount.annotate readsGraph = .ok (counted, .whole) ∧
      counted.metadata.get? 0 RefCount.ns "ref_counts" = some (.counts [3]) ∧
      counted.metadata.get? 2 RefCount.ns "ref_counts" = some (.counts [0, 1]) ∧
      RefCount.annotate counted = .ok (counted, .whole) := by
  have valid : readsGraph.Valid :=
    ⟨by decide, by decide, by decide, by decide, by decide, by decide⟩
  have sorted : readsGraph.metadata.Sorted := by decide
  obtain ⟨counted, done, -, -, -, -, written, -, -, -, -, again⟩ :=
    refcount_pass_counts_reads valid sorted
  refine ⟨valid, sorted, counted, done, ?_, ?_, again⟩
  · rw [(written 0 (by decide)).2]
    decide
  · rw [(written 2 (by decide)).2]
    decide


end OpGraph
