import OpGraph.Proofs.Graph.MetaTable
import OpGraph.Snapshot.Convert

namespace OpGraph

namespace Dim

/-- A dim the snapshot format holds: dynamic, or a fixed size below `2 ^ 63`. -/
def FitsSigned : Dim → Prop
  | fixed n => n < 2 ^ 63
  | dynamic => True

instance : DecidablePred FitsSigned := fun d =>
  match d with
  | fixed n => inferInstanceAs (Decidable (n < 2 ^ 63))
  | dynamic => instDecidableTrue

theorem ofInt_signed_eq_iff (d : Dim) : ofInt d.signed = d ↔ d.FitsSigned := by
  cases d with
  | dynamic => simp [ofInt, signed, FitsSigned]
  | fixed n =>
    by_cases small : n < 2 ^ 63
    · have kept : signed (fixed n) = n := if_pos small
      simp only [FitsSigned, small, iff_true, kept, ofInt]
      simp
    · -- the signed reading is `n - 2 ^ 64`: negative below `2 ^ 64`, a smaller size above
      have wraps : signed (fixed n) = (n : Int) - 2 ^ 64 := if_neg small
      simp only [FitsSigned, small, iff_false, wraps, ofInt]
      split
      · exact Dim.noConfusion
      · intro same
        injection same with sizes
        omega

end Dim

theorem map_eq_self_iff {α : Type} {f : α → α} :
    ∀ {l : List α}, l.map f = l ↔ ∀ x ∈ l, f x = x
  | [] => by simp
  | x :: rest => by simp [map_eq_self_iff]

/-- What a snapshot keeps of a shape. -/
def Shape.reread (s : Shape) : Shape := Snapshot.shapeOf (Snapshot.shapeRecord s)

/-- Every dim of a shape fits the format. -/
def Shape.FitsSigned (s : Shape) : Prop := ∀ ds ∈ s.dims, ∀ d ∈ ds, d.FitsSigned

instance : DecidablePred Shape.FitsSigned := fun s =>
  inferInstanceAs (Decidable (∀ ds ∈ s.dims, ∀ d ∈ ds, d.FitsSigned))

theorem Shape.reread_eq_iff (s : Shape) : s.reread = s ↔ s.FitsSigned := by
  rcases s with ⟨_ | ds⟩
  · simp [reread, FitsSigned, Snapshot.shapeOf, Snapshot.shapeRecord, Snapshot.ShapeRecord.empty, unknown]
  · simp [reread, FitsSigned, Snapshot.shapeOf, Snapshot.shapeRecord, ofInts, map_eq_self_iff,
      Dim.ofInt_signed_eq_iff]

def Tensor.reread (t : Tensor) : Tensor := { t with shape := t.shape.reread }

def AttrValue.reread : AttrValue → AttrValue
  | .shape s => .shape s.reread
  | v => v

def AttrValue.FitsSigned : AttrValue → Prop
  | .shape s => s.FitsSigned
  | _ => True

instance : DecidablePred AttrValue.FitsSigned := fun v =>
  match v with
  | .shape s => inferInstanceAs (Decidable s.FitsSigned)
  | .bool _ | .int _ | .float _ | .str _ | .ints _ | .floats _ | .strs _ | .dtype _ =>
    instDecidableTrue

theorem AttrValue.reread_eq_iff (v : AttrValue) : v.reread = v ↔ v.FitsSigned := by
  cases v with
  | shape s => simp [reread, FitsSigned, Shape.reread_eq_iff]
  | _ => simp [reread, FitsSigned]

/-- What a snapshot keeps of an op: everything, with each shape as the format keeps it. -/
def Op.reread (op : Op) : Op :=
  { op with outputs := op.outputs.map Tensor.reread, attrs := op.attrs.map fun kv => (kv.1, kv.2.reread) }

/-- Every shape of an op, of its outputs and its shape attributes, fits the format. -/
def Op.FitsSigned (op : Op) : Prop :=
  (∀ t ∈ op.outputs, t.shape.FitsSigned) ∧ ∀ kv ∈ op.attrs, kv.2.FitsSigned

instance : DecidablePred Op.FitsSigned := fun op =>
  inferInstanceAs (Decidable ((∀ t ∈ op.outputs, t.shape.FitsSigned) ∧ ∀ kv ∈ op.attrs, kv.2.FitsSigned))

theorem Op.reread_eq_iff (op : Op) : op.reread = op ↔ op.FitsSigned := by
  have outputs : op.outputs.map Tensor.reread = op.outputs ↔ ∀ t ∈ op.outputs, t.shape.FitsSigned := by
    rw [map_eq_self_iff]
    refine forall₂_congr fun t _ => ?_
    rw [← Shape.reread_eq_iff]
    cases t
    simp [Tensor.reread]
  have attrs : (op.attrs.map fun kv => (kv.1, kv.2.reread)) = op.attrs ↔
      ∀ kv ∈ op.attrs, kv.2.FitsSigned := by
    rw [map_eq_self_iff]
    refine forall₂_congr fun kv _ => ?_
    rw [← AttrValue.reread_eq_iff]
    cases kv
    simp
  rw [FitsSigned, ← outputs, ← attrs]
  cases op
  simp [reread]

@[simp] theorem Op.reread_name (op : Op) : op.reread.name = op.name := rfl

@[simp] theorem Op.reread_inputs (op : Op) : op.reread.inputs = op.inputs := rfl

@[simp] theorem Op.reread_outputNames (op : Op) :
    op.reread.outputs.map (·.name) = op.outputs.map (·.name) := by
  simp [reread, Tensor.reread, Function.comp_def]

@[simp] theorem Op.reread_default : (default : Op).reread = default := rfl

theorem Attrs.insert_of_not_mem {attrs : Attrs} {k : String} (fresh : k ∉ attrs.map (·.1))
    (v : AttrValue) : attrs.insert k v = attrs ++ [(k, v)] := by
  have absent : attrs.any (·.1 == k) = false := List.any_eq_false.mpr fun kv member same =>
    fresh (List.mem_map.mpr ⟨kv, member, by simpa using same⟩)
  simp [Attrs.insert, absent]

theorem opNames_map_reread (ops : List Op) : opNames (ops.map Op.reread) = opNames ops := by
  simp [opNames, Function.comp_def]

theorem tensorNames_map_reread (ops : List Op) :
    tensorNames (ops.map Op.reread) = tensorNames ops := by
  simp [tensorNames, List.flatMap_map]

theorem getD_map_reread (ops : List Op) (i : Nat) :
    (ops.map Op.reread).getD i default = (ops.getD i default).reread := by
  simp only [List.getD_eq_getElem?_getD, List.getElem?_map]
  cases ops[i]? <;> rfl

theorem feeds_map_reread (ops : List Op) : Feeds (ops.map Op.reread) = Feeds ops := by
  funext p c
  simp only [Feeds, getD_map_reread, Op.reread_inputs, Op.reread_outputNames]

theorem Accepts.map_reread {ops : List Op} {names : List String} {stored : Option (List Nat)}
    (accepts : Accepts ops names stored) : Accepts (ops.map Op.reread) names stored where
  distinctOps := by simpa [opNames_map_reread] using accepts.distinctOps
  distinctTensors := by simpa [tensorNames_map_reread] using accepts.distinctTensors
  resolve op member t input := by
    obtain ⟨source, sourceMember, rfl⟩ := List.mem_map.mp member
    simpa [tensorNames_map_reread] using accepts.resolve source sourceMember t input
  order := by
    have fits := accepts.order
    cases stored with
    | none => simpa [OrderFits, Acyclic, feeds_map_reread] using fits
    | some order => simpa [OrderFits, IsLinearization, feeds_map_reread] using fits
  known := by simpa [opNames_map_reread] using accepts.known

namespace Snapshot

theorem tensorOf_tensorRecord (t : Tensor) : tensorOf (tensorRecord t) = .ok t.reread := by
  simp [tensorOf, tensorRecord, DType.ofCode, DType.ofCode?_code, Tensor.reread, Shape.reread]

theorem attrValueOf_attrPayload (v : AttrValue) : attrValueOf (attrPayload v) = .ok v.reread := by
  cases v <;> simp [attrValueOf, attrPayload, AttrValue.reread, DType.ofCode, DType.ofCode?_code,
    Shape.reread] <;> rfl

/-- Setting attributes one after another, each key new, appends them in order. -/
theorem foldlM_insert_attrs {ε : Type} {f : Attrs → AttrRecord → Except ε Attrs}
    {enc : String × AttrValue → AttrRecord}
    (step : ∀ acc kv, f acc (enc kv) = .ok (acc.insert kv.1 kv.2.reread)) :
    ∀ {attrs acc : Attrs}, (acc.map (·.1) ++ attrs.map (·.1)).Nodup →
      (attrs.map enc).foldlM f acc = .ok (acc ++ attrs.map fun kv => (kv.1, kv.2.reread))
  | [], acc, _ => by
    simp only [List.map_nil, List.foldlM_nil, List.append_nil]
    rfl
  | kv :: rest, acc, keys => by
    have fresh : kv.1 ∉ acc.map (·.1) := by
      intro member
      exact (List.nodup_append.mp keys).2.2 _ member _ List.mem_cons_self rfl
    have keys' : ((acc ++ [(kv.1, kv.2.reread)]).map (·.1) ++ rest.map (·.1)).Nodup := by
      simpa using keys
    rw [List.map_cons, List.foldlM_cons, step, except_ok_bind, Attrs.insert_of_not_mem fresh,
      foldlM_insert_attrs step keys']
    simp

theorem opOf_opRecord (op : Op) (keys : (op.attrs.map (·.1)).Nodup) :
    opOf (opRecord op) = .ok op.reread := by
  have outputs : (op.outputs.map tensorRecord).mapM tensorOf = .ok (op.outputs.map Tensor.reread) := by
    rw [List.mapM_map]
    exact mapM_eq_ok_map _ fun t _ => tensorOf_tensorRecord t
  simp only [opOf, opRecord, outputs, except_ok_bind]
  rw [foldlM_insert_attrs]
  · rfl
  · intro acc kv
    simp [attrInto, attrValueOf_attrPayload]
  · simpa using keys

/-- Scanning for the last op of a name, when op names are distinct, finds its one op. -/
theorem foldl_zipIdx_lastId {name : String} {f : Option Nat → Op × Nat → Option Nat}
    (step : ∀ acc op i, f acc (op, i) = if op.name = name then some i else acc) :
    ∀ {ops : List Op} (k : Nat) (acc : Option Nat), (opNames ops).Nodup →
      (ops.zipIdx k).foldl f acc =
        if name ∈ opNames ops then some (k + (opNames ops).idxOf name) else acc
  | [], _, _, _ => by simp [opNames]
  | op :: rest, k, acc, distinct => by
    obtain ⟨fresh, distinctRest⟩ := List.nodup_cons.mp (by simpa using distinct)
    rw [List.zipIdx_cons, List.foldl_cons, step, foldl_zipIdx_lastId step (k + 1) _ distinctRest]
    by_cases same : op.name = name
    · subst same
      simp [fresh]
    · by_cases member : name ∈ opNames rest
      · simp [member, List.idxOf_cons_ne _ same]
        omega
      · simp [same, member, Ne.symm same]

theorem lastIdOf_getD {ops : List Op} (distinct : (opNames ops).Nodup) {i : Nat}
    (bound : i < ops.length) : lastIdOf ops (ops.getD i default).name = some i := by
  have inNames : i < (opNames ops).length := by simpa using bound
  have named : (ops.getD i default).name = (opNames ops)[i] := by
    simp [opNames, List.getD_eq_getElem?_getD, bound]
  have member : (ops.getD i default).name ∈ opNames ops := by
    rw [named]
    exact List.getElem_mem _
  unfold lastIdOf
  rw [foldl_zipIdx_lastId _ 0 none distinct, if_pos member, named, distinct.idxOf_getElem]
  · simp
  · intro acc op j
    simp

theorem metaValueOf_metaPayload (v : MetaValue) : metaValueOf (metaPayload v) = v := by
  cases v <;> rfl

theorem Namespace.make_name (ns : Namespace) : Namespace.make ns.name = .ok ns := by
  simp [Namespace.make, ns.valid]

/-- Inserting entries already in key order, each after the table so far, appends them. -/
theorem foldlM_sorted_entries {ε : Type} {f : Metadata → MetadataRecord → Except ε Metadata}
    {enc : MetaEntry → MetadataRecord} :
    ∀ {rest pre : List MetaEntry}, (∀ e ∈ rest, ∀ m, f m (enc e) = .ok (m.insert e.op e.ns e.kind e.value).1) →
      (pre ++ rest).Pairwise (fun a b => a.key < b.key) →
      (rest.map enc).foldlM f ⟨pre⟩ = .ok ⟨pre ++ rest⟩
  | [], pre, _, _ => by
    simp only [List.map_nil, List.foldlM_nil, List.append_nil]
    rfl
  | e :: rest, pre, step, sorted => by
    have after : ∀ a ∈ pre, a.key < e.key := fun a member =>
      (List.pairwise_append.mp sorted).2.2 a member e List.mem_cons_self
    have appended : (Metadata.mk pre).insert e.op e.ns e.kind e.value = (⟨pre ++ [e]⟩, none) := by
      simp [Metadata.insert, Metadata.insertEntry_of_forall_lt after]
    rw [List.map_cons, List.foldlM_cons, step e List.mem_cons_self, appended, except_ok_bind,
      foldlM_sorted_entries (fun e' member => step e' (List.mem_cons_of_mem e member))
        (by simpa using sorted)]
    simp

end Snapshot

/-- Output names resolve back to the output ids. -/
theorem Graph.Valid.outputNames_idxOf {g : Graph} (valid : g.Valid) :
    (g.outputNames.map (opNames g.ops.toList).idxOf).eraseDups = g.outputs := by
  have ids : g.outputNames.map (opNames g.ops.toList).idxOf = g.outputs := by
    rw [Graph.outputNames, List.map_map]
    exact (List.map_congr_left fun i member =>
      idxOf_opAt_name valid.distinctOps (valid.outputsInRange i member)).trans (List.map_id _)
  rw [ids, eraseDups_eq_self valid.outputsDistinct]

/-- A valid graph's parts pass the checks of building with any order that fits. -/
theorem Graph.Valid.accepts {g : Graph} (valid : g.Valid) {stored : Option (List Nat)}
    (fits : OrderFits g.ops.toList stored) : Accepts g.ops.toList g.outputNames stored where
  distinctOps := valid.distinctOps
  distinctTensors := valid.distinctTensors
  resolve := valid.resolve
  order := fits
  known n member := by
    obtain ⟨i, output, rfl⟩ := List.mem_map.mp member
    have bound := valid.outputsInRange i output
    rw [opAt_name_eq_get bound]
    exact List.getElem_mem _

/-- Building the reread ops of a valid graph, with its output names, its metadata and an order
that fits (its own order, or none for an empty arena), gives the graph back with its ops reread. -/
theorem Graph.Valid.build_reread {g : Graph} (valid : g.Valid) {stored : Option (List Nat)}
    (fits : OrderFits g.ops.toList stored) (own : ∀ order, stored = some order → order = g.topo)
    (empty : stored = none → g.ops.size = 0) :
    Graph.build (g.ops.toList.map Op.reread).toArray g.outputNames stored g.metadata =
      .ok { g with ops := g.ops.map Op.reread } := by
  rcases build_cases (g.ops.toList.map Op.reread) g.outputNames stored g.metadata with
    ⟨_, topo, built, linear, kept⟩ | ⟨rejected, _⟩
  · rw [built, opNames_map_reread, valid.outputNames_idxOf]
    have sameTopo : topo = g.topo := by
      cases stored with
      | some order => exact (kept order rfl).trans (own order rfl)
      | none =>
        -- an empty arena has only the empty order
        have none : g.ops.toList.length = 0 := by simpa using empty rfl
        have topoNil : topo = [] := by
          simpa [none] using linear.1.length_eq
        have ownNil : g.topo = [] := by
          simpa [none] using valid.topo.1.length_eq
        rw [topoNil, ownNil]
    rw [sameTopo, ← List.map_toArray, Array.toArray_toList]
  · exact absurd (valid.accepts fits).map_reread rejected

namespace Snapshot

/-- The record of a well-formed graph reads back as the graph with its shapes reread. -/
theorem toGraph_ofGraph {g : Graph} (wf : g.WellFormed) :
    toGraph (ofGraph g) = .ok { g with ops := g.ops.map Op.reread } := by
  have valid := wf.valid
  have decoded : (g.ops.toList.map opRecord).mapM opOf = .ok (g.ops.toList.map Op.reread) := by
    rw [List.mapM_map]
    exact mapM_eq_ok_map _ fun op member => opOf_opRecord op (wf.attrKeys op member)
  -- every id of the arena is found again from its op's name
  have found : ∀ i < g.ops.size, lastIdOf (g.ops.toList.map Op.reread) (g.opAt i).name = some i := by
    intro i bound
    have distinct : (opNames (g.ops.toList.map Op.reread)).Nodup := by
      simpa [opNames_map_reread] using valid.distinctOps
    have same : (g.opAt i).name = ((g.ops.toList.map Op.reread).getD i default).name := by
      rw [getD_map_reread, Op.reread_name]
      simp [Graph.opAt, List.getD_eq_getElem?_getD]
    rw [same, lastIdOf_getD distinct (by simpa using bound)]
  have table : metadataOf (g.ops.toList.map Op.reread) (g.metadata.entries.map fun e =>
      (⟨(g.opAt e.op).name, e.ns.name, e.kind, some (metaPayload e.value)⟩ : MetadataRecord)) =
      .ok g.metadata := by
    unfold metadataOf
    rw [show Metadata.empty = ⟨[]⟩ from rfl, foldlM_sorted_entries]
    · rfl
    · intro e member m
      simp [metaInto, found e.op (wf.metaFits.inRange e member), Namespace.make_name,
        liftValidation, metaValueOf_metaPayload]
    · simpa [Metadata.Sorted] using wf.metaFits.sorted
  unfold toGraph ofGraph storedOrderOf
  simp only [decoded, except_ok_bind, table]
  by_cases empty : g.topo = []
  · -- an empty order is stored as nothing, and the order is computed again
    have noOps : g.ops.size = 0 := by simpa [empty] using valid.topo.1.length_eq.symm
    rw [if_pos (by simp [Graph.topoNames, empty]), pure_bind,
      valid.build_reread (show OrderFits g.ops.toList none from valid.topo.acyclic)
        (fun _ stored => by cases stored) fun _ => noOps]
    rfl
  · rw [if_neg (by simpa [Graph.topoNames] using empty), Graph.topoNames,
      List.mapM_map, mapM_eq_ok_map (fun i => i)]
    · simp only [List.map_id']
      show liftValidation (Graph.build _ g.outputNames (some g.topo) g.metadata) = _
      rw [valid.build_reread (show OrderFits g.ops.toList (some g.topo) from valid.topo)
        (fun _ stored => (Option.some.inj stored).symm) fun stored => by cases stored]
      rfl
    · intro i member
      simp [idOfName, found i (by simpa using List.mem_range.mp (valid.topo.1.mem_iff.mp member))]
      rfl

end Snapshot

/-- A snapshot of a well-formed graph reads back, from its record, as the graph with each shape as
the format keeps it; so it reads back as the graph itself exactly when every fixed dim is below
`2 ^ 63`. From bytes it reads back the same way whenever decoding inverts encoding on its record. -/
theorem snapshot_reads_back_iff_dims_fit (g : Graph) (wf : g.WellFormed) :
    Snapshot.toGraph (Snapshot.ofGraph g) = .ok { g with ops := g.ops.map Op.reread } ∧
      (Snapshot.toGraph (Snapshot.ofGraph g) = .ok g ↔ ∀ op ∈ g.ops.toList, op.FitsSigned) ∧
      (Snapshot.GraphRecord.decode (Snapshot.graphBytes g) = .ok (Snapshot.ofGraph g) →
        Snapshot.graphOfBytes (Snapshot.graphBytes g) = Snapshot.toGraph (Snapshot.ofGraph g)) := by
  have readBack := Snapshot.toGraph_ofGraph wf
  refine ⟨readBack, ?_, fun decodes => by simp [Snapshot.graphOfBytes, decodes]⟩
  -- the reread graph differs from the graph only in its ops
  have sameOps : ({ g with ops := g.ops.map Op.reread } : Graph) = g ↔ g.ops.map Op.reread = g.ops := by
    cases g
    simp
  rw [readBack, Except.ok.injEq, sameOps, ← Array.toList_inj, Array.toList_map, map_eq_self_iff]
  exact forall₂_congr fun op _ => Op.reread_eq_iff op

/-- A one-op graph whose shapes fit the format. -/
def smallSnapshotGraph : Graph :=
  ⟨#[⟨"x", "Placeholder", [], [⟨"x:0", .float, ⟨some [.fixed 8, .dynamic]⟩⟩],
    [("axis", .int 1), ("window", .shape ⟨some [.fixed 3]⟩)]⟩], [0], [0], Metadata.empty⟩

theorem smallSnapshotGraph_reads_back :
    smallSnapshotGraph.WellFormed ∧
      Snapshot.toGraph (Snapshot.ofGraph smallSnapshotGraph) = .ok smallSnapshotGraph := by
  have wf : smallSnapshotGraph.WellFormed :=
    ⟨⟨by decide, by decide, by decide, by decide, by decide, by decide⟩, by decide,
      ⟨by decide, by decide⟩⟩
  exact ⟨wf, ((snapshot_reads_back_iff_dims_fit smallSnapshotGraph wf).2.1).mpr (by decide)⟩

/-- The same graph with a fixed dim of `2 ^ 63`. -/
def wideSnapshotGraph : Graph :=
  ⟨#[⟨"x", "Placeholder", [], [⟨"x:0", .float, ⟨some [.fixed (2 ^ 63)]⟩⟩], []⟩], [0], [0],
    Metadata.empty⟩

/-- A fixed dim of `2 ^ 63` comes back from a snapshot as a dynamic dim. -/
theorem wide_dim_reads_back_dynamic :
    Snapshot.toGraph (Snapshot.ofGraph wideSnapshotGraph) =
        .ok ⟨#[⟨"x", "Placeholder", [], [⟨"x:0", .float, ⟨some [.dynamic]⟩⟩], []⟩], [0], [0],
          Metadata.empty⟩ ∧
      Snapshot.toGraph (Snapshot.ofGraph wideSnapshotGraph) ≠ .ok wideSnapshotGraph := by
  have wf : wideSnapshotGraph.WellFormed :=
    ⟨⟨by decide, by decide, by decide, by decide, by decide, by decide⟩, by decide,
      ⟨by decide, by decide⟩⟩
  -- only the dim changes: `2 ^ 63` is stored as a negative number
  have reread : wideSnapshotGraph.ops.map Op.reread =
      #[⟨"x", "Placeholder", [], [⟨"x:0", .float, ⟨some [.dynamic]⟩⟩], []⟩] := by
    decide +kernel
  have changed : wideSnapshotGraph.ops.map Op.reread ≠ wideSnapshotGraph.ops := by
    decide +kernel
  rw [Snapshot.toGraph_ofGraph wf, reread]
  refine ⟨rfl, fun same => changed ?_⟩
  rw [reread]
  exact congrArg Graph.ops (Except.ok.inj same)

end OpGraph
