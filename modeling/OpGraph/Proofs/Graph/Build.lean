import OpGraph.Proofs.Graph.Kahn
import OpGraph.Graph.Basic

namespace OpGraph

/-- The order a graph is built with fits its arena: a stored order linearizes it, and without one
the arena has no cycle for an order to be computed from. -/
def OrderFits (ops : List Op) : Option (List Nat) → Prop
  | some order => IsLinearization ops order
  | none => Acyclic ops

/-- The parts of a graph pass every check of building. -/
structure Accepts (ops : List Op) (names : List String) (stored : Option (List Nat)) : Prop where
  distinctOps : (opNames ops).Nodup
  distinctTensors : (tensorNames ops).Nodup
  resolve : InputsResolve ops
  order : OrderFits ops stored
  known : ∀ n ∈ names, n ∈ opNames ops

/-- The error of the first check the parts fail, each check reached only when those before it
pass. A repeat or an unresolved input is the first in arena then slot order, an unknown output
name the first in list order; an order fault or a cycle is not pinned further. -/
inductive Rejects (ops : List Op) (names : List String) :
    Option (List Nat) → ValidationError → Prop
  | duplicateOp {stored : Option (List Nat)} {a : String} :
      FirstRepeat (opNames ops) a → Rejects ops names stored (.duplicateOp a)
  | duplicateTensor {stored : Option (List Nat)} {a : String} :
      (opNames ops).Nodup → FirstRepeat (tensorNames ops) a →
      Rejects ops names stored (.duplicateTensor a)
  | danglingTensor {stored : Option (List Nat)} {o t : String} :
      (opNames ops).Nodup → (tensorNames ops).Nodup →
      (inputPairs ops).find? (fun p => p.2 ∉ tensorNames ops) = some (o, t) →
      Rejects ops names stored (.danglingTensor o t)
  | invalidTopoOrder {order : List Nat} {fault : OrderFault} :
      (opNames ops).Nodup → (tensorNames ops).Nodup → InputsResolve ops →
      ¬ IsLinearization ops order → Rejects ops names (some order) (.invalidTopoOrder fault)
  | cycle {cycleOps : List String} :
      (opNames ops).Nodup → (tensorNames ops).Nodup → InputsResolve ops →
      ¬ Acyclic ops → Rejects ops names none (.cycle cycleOps)
  | unknownOutput {stored : Option (List Nat)} {n : String} :
      (opNames ops).Nodup → (tensorNames ops).Nodup → InputsResolve ops → OrderFits ops stored →
      names.find? (fun m => m ∉ opNames ops) = some n → Rejects ops names stored (.unknownOutput n)

/-- The invariants of a graph: op names and tensor names distinct, every input produced, the order
a linearization of the arena, and the outputs distinct ids of the arena. -/
structure Graph.Valid (g : Graph) : Prop where
  distinctOps : (opNames g.ops.toList).Nodup
  distinctTensors : (tensorNames g.ops.toList).Nodup
  resolve : InputsResolve g.ops.toList
  topo : IsLinearization g.ops.toList g.topo
  outputsDistinct : g.outputs.Nodup
  outputsInRange : ∀ i ∈ g.outputs, i < g.ops.size

-- Graphs compare by their parts, so a built graph can be checked by evaluation.
deriving instance DecidableEq for Graph

theorem nodup_eraseDups {α : Type} [BEq α] [LawfulBEq α] : ∀ l : List α, l.eraseDups.Nodup
  | [] => by simp
  | a :: rest => by
    rw [List.eraseDups_cons]
    exact List.nodup_cons.mpr ⟨by simp, nodup_eraseDups _⟩
termination_by l => l.length
decreasing_by exact Nat.lt_succ_of_le (List.length_filter_le _ _)

theorem eraseDups_eq_self {α : Type} [BEq α] [LawfulBEq α] :
    ∀ {l : List α}, l.Nodup → l.eraseDups = l
  | [], _ => rfl
  | a :: rest, distinct => by
    obtain ⟨fresh, distinctRest⟩ := List.nodup_cons.mp distinct
    -- no later element equals `a`, so the filter keeps the whole rest
    have kept : (rest.filter fun b => !b == a) = rest :=
      List.filter_eq_self.mpr fun b member => by
        have other : b ≠ a := fun same => fresh (same ▸ member)
        simpa using other
    rw [List.eraseDups_cons, kept, eraseDups_eq_self distinctRest]

/-- Dropping repeats commutes with a map that some other map undoes on the list. -/
theorem eraseDups_map_of_leftInverse {α β : Type} [BEq α] [LawfulBEq α] [BEq β] [LawfulBEq β]
    {f : α → β} {h : β → α} :
    ∀ {l : List α}, (∀ a ∈ l, h (f a) = a) → (l.map f).eraseDups.map h = l.eraseDups
  | [], _ => rfl
  | a :: rest, inverse => by
    -- `f` is injective on the list, so it keeps apart exactly what the filter keeps apart
    have filtered : (rest.map f).filter (fun b => !b == f a) = (rest.filter fun b => !b == a).map f := by
      rw [List.filter_map]
      congr 1
      apply List.filter_congr
      intro b member
      by_cases same : b = a
      · simp [same]
      · have apart : f b ≠ f a := fun eq => same (by
          rw [← inverse b (List.mem_cons_of_mem _ member), eq, inverse a List.mem_cons_self])
        simp [same, apart]
    have rest_inverse : ∀ b ∈ rest.filter (fun b => !b == a), h (f b) = b :=
      fun b member => inverse b (List.mem_cons_of_mem _ (List.mem_of_mem_filter member))
    rw [List.map_cons, List.eraseDups_cons, List.eraseDups_cons, filtered, List.map_cons,
      inverse a List.mem_cons_self, eraseDups_map_of_leftInverse rest_inverse]
termination_by l _ => l.length
decreasing_by exact Nat.lt_succ_of_le (List.length_filter_le _ _)

theorem find?_zipIdx_name (ops : List Op) (n : String) (k : Nat) :
    ((ops.zipIdx k).map fun p => (p.1.name, p.2)).find? (·.1 == n) =
      if n ∈ opNames ops then some (n, k + (opNames ops).idxOf n) else none := by
  induction ops generalizing k with
  | nil => simp [opNames]
  | cons op rest ih =>
    by_cases same : op.name = n
    · simp [same]
    · have other : (op.name == n) = false := by simpa using same
      simp only [List.zipIdx_cons, List.map_cons, List.find?_cons, other, ih (k + 1)]
      by_cases member : n ∈ opNames rest
      · simp [member, List.idxOf_cons_ne _ same]
        omega
      · simp [member, Ne.symm same]

/-- Looking a name up in the op index finds the first op of that name. -/
theorem find?_nameTable (ops : List Op) (n : String) :
    (nameTable ops).find? (·.1 == n) =
      if n ∈ opNames ops then some (n, (opNames ops).idxOf n) else none := by
  unfold nameTable
  simpa using find?_zipIdx_name ops n 0

/-- Resolving output names after the ids of `acc`: the ids of the names, each once and first
occurrence first, after those of `acc`; or the first unknown name. -/
theorem resolveOutputs_cases (ops : List Op) (names : List String) (acc : List Nat) :
    ((∀ n ∈ names, n ∈ opNames ops) ∧ Graph.resolveOutputs (nameTable ops) names acc =
        .ok (acc.reverse ++ ((names.map (opNames ops).idxOf).filter (· ∉ acc)).eraseDups)) ∨
      ∃ n, names.find? (· ∉ opNames ops) = some n ∧
        Graph.resolveOutputs (nameTable ops) names acc = .error (.unknownOutput n) := by
  induction names generalizing acc with
  | nil => simp [Graph.resolveOutputs]
  | cons n rest ih =>
    by_cases known : n ∈ opNames ops
    · have step : Graph.resolveOutputs (nameTable ops) (n :: rest) acc =
          Graph.resolveOutputs (nameTable ops) rest (if acc.contains ((opNames ops).idxOf n)
            then acc else (opNames ops).idxOf n :: acc) := by
        simp [Graph.resolveOutputs, find?_nameTable, known]
      rcases ih (if acc.contains ((opNames ops).idxOf n) then acc else (opNames ops).idxOf n :: acc)
        with ⟨allKnown, resolved⟩ | ⟨m, first, failed⟩
      · refine Or.inl ⟨List.forall_mem_cons.mpr ⟨known, allKnown⟩, ?_⟩
        rw [step, resolved]
        by_cases seen : (opNames ops).idxOf n ∈ acc
        · simp [seen]
        · simp only [seen, List.contains_eq_mem, decide_false, Bool.false_eq_true, if_false,
            List.reverse_cons, List.append_assoc, List.map_cons, List.filter_cons, not_false_eq_true,
            decide_true, if_true, List.eraseDups_cons, List.filter_filter, List.singleton_append]
          have sameFilter : ∀ l : List Nat,
              l.filter (fun x => decide (x ∉ (opNames ops).idxOf n :: acc)) =
                l.filter (fun x => !x == (opNames ops).idxOf n && decide (x ∉ acc)) :=
            fun l => List.filter_congr fun x _ => by
              by_cases same : x = (opNames ops).idxOf n <;> simp [same]
          rw [sameFilter]
      · exact Or.inr ⟨m, by simpa [known] using first, step ▸ failed⟩
    · exact Or.inr ⟨n, by simp [known], by simp [Graph.resolveOutputs, find?_nameTable, known]⟩

/-- The order step of building, once the tables are built: it passes exactly when the order fits,
with a linearization (the stored one when given); otherwise it fails with an order fault or a
cycle, which is the rejection of the parts. -/
theorem orderOf_cases {ops : List Op} (distinctOps : (opNames ops).Nodup)
    (distinctTensors : (tensorNames ops).Nodup) (resolve : InputsResolve ops)
    (stored : Option (List Nat)) :
    (OrderFits ops stored ∧ ∃ topo, Topo.orderOf ops (Index.outputSlots ops) stored = .ok topo ∧
        IsLinearization ops topo ∧ ∀ order, stored = some order → topo = order) ∨
      (¬ OrderFits ops stored ∧ ∃ e, Topo.orderOf ops (Index.outputSlots ops) stored = .error e ∧
        ∀ names, Rejects ops names stored e) := by
  cases stored with
  | none =>
    rcases Topo.sort_cases resolve distinctTensors with ⟨acyclic, order, sorted, linear⟩ |
      ⟨cyclic, cycleOps, failed⟩
    · exact Or.inl ⟨acyclic, order, sorted, linear, by simp⟩
    · exact Or.inr ⟨cyclic, _, failed, fun _ => .cycle distinctOps distinctTensors resolve cyclic⟩
  | some order =>
    by_cases linear : IsLinearization ops order
    · have checked := (Topo.check_eq_ok_iff resolve distinctTensors).mpr linear
      exact Or.inl ⟨linear, order, by simp [Topo.orderOf, checked], linear, by simp⟩
    · cases checked : Topo.check ops (Index.outputSlots ops) order with
      | ok u =>
        exact absurd ((Topo.check_eq_ok_iff resolve distinctTensors).mp checked) linear
      | error e =>
        obtain ⟨fault, rfl⟩ := Topo.check_eq_error resolve checked
        exact Or.inr ⟨linear, .invalidTopoOrder fault, by simp [Topo.orderOf, checked],
          fun _ => .invalidTopoOrder distinctOps distinctTensors resolve linear⟩

theorem not_inputsResolve_of_find? {ops : List Op} {o t : String}
    (first : (inputPairs ops).find? (fun p => p.2 ∉ tensorNames ops) = some (o, t)) :
    ¬ InputsResolve ops := by
  intro resolve
  obtain ⟨op, member, _, input⟩ := mem_inputPairs.mp (List.mem_of_find?_eq_some first)
  have unproduced := List.find?_some first
  simp only [decide_eq_true_eq] at unproduced
  exact unproduced (resolve op member t input)

theorem build_cases (ops : List Op) (names : List String) (stored : Option (List Nat))
    (metadata : Metadata) :
    (Accepts ops names stored ∧ ∃ topo, Graph.build ops.toArray names stored metadata =
        .ok { ops := ops.toArray, topo, outputs := (names.map (opNames ops).idxOf).eraseDups,
              metadata } ∧
        IsLinearization ops topo ∧ ∀ order, stored = some order → topo = order) ∨
      (¬ Accepts ops names stored ∧ ∃ e, Graph.build ops.toArray names stored metadata = .error e ∧
        Rejects ops names stored e) := by
  rcases Index.opIndex_cases ops with ⟨distinctOps, indexed⟩ | ⟨a, failed, first⟩
  swap
  · exact Or.inr ⟨fun accepts => first.not_nodup accepts.distinctOps, _,
      by simp [Graph.build, failed], .duplicateOp first⟩
  rcases Index.producerMap_cases ops with ⟨distinctTensors, produced⟩ | ⟨a, failed, first⟩
  swap
  · exact Or.inr ⟨fun accepts => first.not_nodup accepts.distinctTensors, _,
      by simp [Graph.build, indexed, failed], .duplicateTensor distinctOps first⟩
  rcases Index.consumerMap_cases ops with ⟨resolve, consumed⟩ | ⟨o, t, failed, first⟩
  swap
  · exact Or.inr ⟨fun accepts => not_inputsResolve_of_find? first accepts.resolve, _,
      by simp [Graph.build, indexed, produced, failed], .danglingTensor distinctOps distinctTensors first⟩
  rcases orderOf_cases distinctOps distinctTensors resolve stored with
    ⟨fits, topo, ordered, linear, kept⟩ | ⟨unfit, e, failed, rejects⟩
  swap
  · exact Or.inr ⟨fun accepts => unfit accepts.order, e,
      by simp [Graph.build, indexed, produced, consumed, failed], rejects names⟩
  rcases resolveOutputs_cases ops names [] with ⟨known, resolved⟩ | ⟨n, first, failed⟩
  · refine Or.inl ⟨⟨distinctOps, distinctTensors, resolve, fits, known⟩, topo, ?_, linear, kept⟩
    simp [Graph.build, indexed, produced, consumed, ordered, resolved]
  · refine Or.inr ⟨fun accepts => ?_, _, by simp [Graph.build, indexed, produced, consumed, ordered, failed],
      .unknownOutput distinctOps distinctTensors resolve fits first⟩
    have unknown := List.find?_some first
    simp only [decide_eq_true_eq] at unknown
    exact unknown (accepts.known n (List.mem_of_find?_eq_some first))

theorem Accepts.valid {ops : List Op} {names : List String} {stored : Option (List Nat)}
    (accepts : Accepts ops names stored) {topo : List Nat} (linear : IsLinearization ops topo)
    (metadata : Metadata) :
    Graph.Valid { ops := ops.toArray, topo, outputs := (names.map (opNames ops).idxOf).eraseDups,
                  metadata } where
  distinctOps := by simpa using accepts.distinctOps
  distinctTensors := by simpa using accepts.distinctTensors
  resolve := by simpa using accepts.resolve
  topo := by simpa using linear
  outputsDistinct := nodup_eraseDups _
  outputsInRange i member := by
    obtain ⟨n, named, rfl⟩ := List.mem_map.mp (List.mem_eraseDups.mp member)
    simpa using List.idxOf_lt_length_iff.mpr (accepts.known n named)

theorem opAt_name_eq_get {g : Graph} {i : Nat} (bound : i < g.ops.size) :
    (g.opAt i).name = (opNames g.ops.toList).get ⟨i, by simpa using bound⟩ := by
  simp [Graph.opAt, opNames, bound]

theorem idxOf_opAt_name {g : Graph} (distinct : (opNames g.ops.toList).Nodup) {i : Nat}
    (bound : i < g.ops.size) : (opNames g.ops.toList).idxOf (g.opAt i).name = i := by
  rw [opAt_name_eq_get bound, List.get_eq_getElem, distinct.idxOf_getElem]

theorem opAt_idxOf_name {g : Graph} {n : String} (named : n ∈ opNames g.ops.toList) :
    (g.opAt ((opNames g.ops.toList).idxOf n)).name = n := by
  have inNames := List.idxOf_lt_length_iff.mpr named
  have bound : (opNames g.ops.toList).idxOf n < g.ops.size := by simpa using inNames
  rw [opAt_name_eq_get bound, List.get_eq_getElem, List.getElem_idxOf inNames]

theorem build_eq_ok {ops : List Op} {names : List String} {stored : Option (List Nat)}
    {metadata : Metadata} {g : Graph} (built : Graph.build ops.toArray names stored metadata = .ok g) :
    Accepts ops names stored ∧ g.ops = ops.toArray ∧ g.metadata = metadata ∧
      g.outputs = (names.map (opNames ops).idxOf).eraseDups ∧
      (∀ order, stored = some order → g.topo = order) ∧ g.Valid := by
  rcases build_cases ops names stored metadata with ⟨accepts, topo, ok, linear, kept⟩ |
    ⟨_, e, failed, _⟩
  · rw [ok, Except.ok.injEq] at built
    subst built
    exact ⟨accepts, rfl, rfl, rfl, kept, accepts.valid linear metadata⟩
  · rw [failed] at built
    cases built

/-- A graph built without a stored order holds the order the sort computes. -/
theorem Graph.build_none_sorted {ops : List Op} {names : List String} {metadata : Metadata} {g : Graph}
    (built : Graph.build ops.toArray names none metadata = .ok g) :
    Topo.sort ops (Index.outputSlots ops) = .ok g.topo := by
  simp only [Graph.build, Topo.orderOf] at built
  obtain ⟨_, -, built⟩ := except_bind_eq_ok.mp built
  obtain ⟨producers, produced, built⟩ := except_bind_eq_ok.mp built
  obtain ⟨_, -, built⟩ := except_bind_eq_ok.mp built
  obtain ⟨topo, sorted, built⟩ := except_bind_eq_ok.mp built
  obtain ⟨_, -, built⟩ := except_bind_eq_ok.mp built
  cases built
  -- the producer table of a built arena is its output slots
  rcases Index.producerMap_cases ops with ⟨-, table⟩ | ⟨_, failed, -⟩
  · rw [table, Except.ok.injEq] at produced
    rw [produced]
    exact sorted
  · rw [failed] at produced
    cases produced

/-- Building succeeds exactly when the parts pass every check, else fails with the first failing
check's error; a built graph holds the given ops and metadata, a linearization of the arena, the
output ids once each in order of first mention, and is valid. -/
theorem build_ok_iff_accepts_else_rejects (ops : List Op) (names : List String)
    (stored : Option (List Nat)) (metadata : Metadata) :
    ((∃ g, Graph.build ops.toArray names stored metadata = .ok g) ↔ Accepts ops names stored) ∧
      (∀ e, Graph.build ops.toArray names stored metadata = .error e → Rejects ops names stored e) ∧
      ∀ g, Graph.build ops.toArray names stored metadata = .ok g →
        g.ops = ops.toArray ∧ g.metadata = metadata ∧ IsLinearization ops g.topo ∧
          (∀ order, stored = some order → g.topo = order) ∧
          g.outputs = (names.map (opNames ops).idxOf).eraseDups ∧ g.Valid := by
  rcases build_cases ops names stored metadata with ⟨accepts, topo, built, linear, kept⟩ |
    ⟨rejected, e, failed, rejects⟩
  · refine ⟨⟨fun _ => accepts, fun _ => ⟨_, built⟩⟩, fun e failed => ?_, fun g result => ?_⟩
    · rw [built] at failed
      cases failed
    · rw [built, Except.ok.injEq] at result
      subst result
      exact ⟨rfl, rfl, linear, kept, rfl, accepts.valid linear metadata⟩
  · refine ⟨⟨fun ⟨g, result⟩ => ?_, fun accepts => absurd accepts rejected⟩, fun e' result => ?_,
      fun g result => ?_⟩
    all_goals rw [failed] at result
    · cases result
    · cases result
      exact rejects
    · cases result

end OpGraph
