import OpGraph.Graph.Index
import Mathlib.Data.List.Nodup

namespace OpGraph

/-- Op names, in arena order. -/
def opNames (ops : List Op) : List String := ops.map (·.name)

/-- Names of all output tensors, in arena then slot order. -/
def tensorNames (ops : List Op) : List String := ops.flatMap fun op => op.outputs.map (·.name)

/-- Every input with the name of the op that reads it, in arena then slot order. -/
def inputPairs (ops : List Op) : List (String × String) :=
  ops.flatMap fun op => op.inputs.map fun t => (op.name, t)

/-- Every input names an output tensor of some op. -/
def InputsResolve (ops : List Op) : Prop := ∀ op ∈ ops, ∀ t ∈ op.inputs, t ∈ tensorNames ops

instance (ops : List Op) : Decidable (InputsResolve ops) :=
  inferInstanceAs (Decidable (∀ op ∈ ops, ∀ t ∈ op.inputs, t ∈ tensorNames ops))

/-- `a` is the first repeat of a list: the list is `pre ++ a :: rest` where `pre` has no repeat
and already holds `a`. -/
def FirstRepeat {α : Type} (l : List α) (a : α) : Prop :=
  ∃ pre rest, l = pre ++ a :: rest ∧ pre.Nodup ∧ a ∈ pre

/-- The name table of the op index: each op name with its arena id. -/
def nameTable (ops : List Op) : List (String × Nat) := ops.zipIdx.map fun p => (p.1.name, p.2)

theorem FirstRepeat.not_nodup {α : Type} {l : List α} {a : α} (first : FirstRepeat l a) :
    ¬ l.Nodup := by
  obtain ⟨pre, rest, rfl, _, member⟩ := first
  intro nodup
  have disjoint := (List.nodup_append.mp nodup).2.2
  exact disjoint a member a List.mem_cons_self rfl

@[simp] theorem Op.default_inputs : (default : Op).inputs = [] := rfl

@[simp] theorem Op.default_outputs : (default : Op).outputs = [] := rfl

@[simp] theorem opNames_cons (op : Op) (ops : List Op) :
    opNames (op :: ops) = op.name :: opNames ops := rfl

@[simp] theorem length_opNames (ops : List Op) : (opNames ops).length = ops.length := by
  simp [opNames]

theorem mem_tensorNames {ops : List Op} {t : String} :
    t ∈ tensorNames ops ↔ ∃ op ∈ ops, t ∈ op.outputs.map (·.name) := by
  simp only [tensorNames, List.mem_flatMap]

theorem mem_inputPairs {ops : List Op} {o t : String} :
    (o, t) ∈ inputPairs ops ↔ ∃ op ∈ ops, op.name = o ∧ t ∈ op.inputs := by
  simp only [inputPairs, List.mem_flatMap, List.mem_map, Prod.mk.injEq]
  constructor
  · rintro ⟨op, member, t', input, rfl, rfl⟩
    exact ⟨op, member, rfl, input⟩
  · rintro ⟨op, member, rfl, input⟩
    exact ⟨op, member, t, input, rfl, rfl⟩

namespace Index

/-- Scanning ops with the names already indexed in `seen`: either no name repeats and the table
is the seen part followed by every op with its id, or the scan stops at the first repeat. -/
theorem opIndexFrom_cases (seen : List (String × Nat)) (start : Nat) (ops : List Op)
    (fresh : (seen.map (·.1)).Nodup) :
    (((seen.map (·.1)).reverse ++ opNames ops).Nodup ∧
        opIndexFrom seen start ops = .ok (seen.reverse ++ (ops.zipIdx start).map fun p => (p.1.name, p.2))) ∨
      ∃ a, opIndexFrom seen start ops = .error (.duplicateOp a) ∧
        FirstRepeat ((seen.map (·.1)).reverse ++ opNames ops) a := by
  induction ops generalizing seen start with
  | nil =>
    left
    simp [opIndexFrom, List.nodup_reverse, fresh, opNames]
  | cons op rest ih =>
    by_cases known : op.name ∈ seen.map (·.1)
    · right
      obtain ⟨entry, seenEntry, sameName⟩ := List.mem_map.mp known
      have hit : seen.any (·.1 == op.name) = true :=
        List.any_eq_true.mpr ⟨entry, seenEntry, beq_iff_eq.mpr sameName⟩
      refine ⟨op.name, by simp [opIndexFrom, hit], (seen.map (·.1)).reverse, opNames rest,
        by simp, List.nodup_reverse.mpr fresh, List.mem_reverse.mpr known⟩
    · have miss : seen.any (·.1 == op.name) = false := by
        rw [List.any_eq_false]
        intro entry seenEntry sameName
        exact known (List.mem_map.mpr ⟨entry, seenEntry, beq_iff_eq.mp sameName⟩)
      have step : opIndexFrom seen start (op :: rest) =
          opIndexFrom ((op.name, start) :: seen) (start + 1) rest := by
        simp [opIndexFrom, miss]
      have fresh' : (((op.name, start) :: seen).map (·.1)).Nodup := by
        rw [List.map_cons]
        exact List.nodup_cons.mpr ⟨known, fresh⟩
      have sameNames : ((((op.name, start) :: seen).map (·.1)).reverse ++ opNames rest) =
          (seen.map (·.1)).reverse ++ opNames (op :: rest) := by
        simp
      rw [step, ← sameNames]
      rcases ih ((op.name, start) :: seen) (start + 1) fresh' with ⟨nodup, ok⟩ | ⟨a, error, first⟩
      · left
        exact ⟨nodup, by rw [ok]; simp⟩
      · exact Or.inr ⟨a, error, first⟩

/-- The op index is the name table when op names do not repeat, and otherwise the error names the
first repeated op name. -/
theorem opIndex_cases (ops : List Op) :
    ((opNames ops).Nodup ∧ opIndex ops = .ok (nameTable ops)) ∨
      ∃ a, opIndex ops = .error (.duplicateOp a) ∧ FirstRepeat (opNames ops) a := by
  simpa [opIndex, nameTable] using opIndexFrom_cases [] 0 ops List.nodup_nil

theorem map_zipIdx_fst {α β : Type} (f : α → β) (l : List α) (n : Nat) :
    (l.zipIdx n).map (fun y => f y.1) = l.map f := by
  induction l generalizing n with
  | nil => rfl
  | cons a l ih => simp [ih]

theorem map_fst_outputSlots (ops : List Op) : (outputSlots ops).map (·.1) = tensorNames ops := by
  unfold outputSlots tensorNames
  simp only [List.map_flatten, List.map_map, List.flatMap_def, Function.comp_def]
  rw [← map_zipIdx_fst _ ops 0]
  congr 2
  funext p
  exact map_zipIdx_fst (·.name) p.1.outputs 0

theorem mem_outputSlots {ops : List Op} {t : String} {r : TensorRef} :
    (t, r) ∈ outputSlots ops ↔
      ∃ op tensor, ops[r.op]? = some op ∧ op.outputs[r.slot]? = some tensor ∧ tensor.name = t := by
  obtain ⟨i, s⟩ := r
  constructor
  · intro member
    obtain ⟨slots, inSlots, atSlot⟩ := List.mem_flatten.mp member
    obtain ⟨⟨op, i'⟩, atOp, rfl⟩ := List.mem_map.mp inSlots
    obtain ⟨⟨tensor, s'⟩, atTensor, same⟩ := List.mem_map.mp atSlot
    simp only [Prod.mk.injEq, TensorRef.mk.injEq] at same
    obtain ⟨rfl, rfl, rfl⟩ := same
    exact ⟨op, tensor, List.mk_mem_zipIdx_iff_getElem?.mp atOp,
      List.mk_mem_zipIdx_iff_getElem?.mp atTensor, rfl⟩
  · rintro ⟨op, tensor, atOp, atTensor, rfl⟩
    refine List.mem_flatten.mpr ⟨_, List.mem_map.mpr ⟨(op, i), ?_, rfl⟩, List.mem_map.mpr ⟨(tensor, s), ?_, rfl⟩⟩
    · exact List.mk_mem_zipIdx_iff_getElem?.mpr atOp
    · exact List.mk_mem_zipIdx_iff_getElem?.mpr atTensor

/-- Scanning slots for a name seen before: either none repeats, or the scan stops at the first
repeat. -/
theorem firstRepeat_cases (slots : List (String × TensorRef)) (seen : List String)
    (fresh : seen.Nodup) :
    (firstRepeat slots seen = none ∧ (seen.reverse ++ slots.map (·.1)).Nodup) ∨
      ∃ a, firstRepeat slots seen = some a ∧ FirstRepeat (seen.reverse ++ slots.map (·.1)) a := by
  induction slots generalizing seen with
  | nil => left; simp [firstRepeat, fresh]
  | cons slot rest ih =>
    obtain ⟨name, r⟩ := slot
    by_cases known : name ∈ seen
    · right
      exact ⟨name, by simp [firstRepeat, known], seen.reverse, rest.map (·.1), by simp,
        List.nodup_reverse.mpr fresh, List.mem_reverse.mpr known⟩
    · have step : firstRepeat ((name, r) :: rest) seen = firstRepeat rest (name :: seen) := by
        simp [firstRepeat, known]
      have sameNames : (name :: seen).reverse ++ rest.map (·.1) =
          seen.reverse ++ ((name, r) :: rest).map (·.1) := by
        simp
      rw [step, ← sameNames]
      exact ih (name :: seen) (List.nodup_cons.mpr ⟨known, fresh⟩)

/-- The producer table is every output slot when tensor names do not repeat, and otherwise the
error names the first repeated tensor name. -/
theorem producerMap_cases (ops : List Op) :
    ((tensorNames ops).Nodup ∧ producerMap ops = .ok (outputSlots ops)) ∨
      ∃ a, producerMap ops = .error (.duplicateTensor a) ∧ FirstRepeat (tensorNames ops) a := by
  rcases firstRepeat_cases (outputSlots ops) [] List.nodup_nil with ⟨none, nodup⟩ | ⟨a, some, first⟩
  · left
    simp only [List.reverse_nil, List.nil_append, map_fst_outputSlots] at nodup
    exact ⟨nodup, by simp [producerMap, none]⟩
  · right
    simp only [List.reverse_nil, List.nil_append, map_fst_outputSlots] at first
    exact ⟨a, by simp [producerMap, some], first⟩

theorem lookup_eq_none_iff {producers : List (String × TensorRef)} {t : String} :
    lookup producers t = none ↔ t ∉ producers.map (·.1) := by
  rw [lookup, Option.map_eq_none_iff, List.find?_eq_none]
  constructor
  · intro absent member
    obtain ⟨entry, inProducers, rfl⟩ := List.mem_map.mp member
    exact absent entry inProducers (beq_self_eq_true _)
  · intro absent entry inProducers hit
    exact absent (List.mem_map.mpr ⟨entry, inProducers, beq_iff_eq.mp hit⟩)

theorem mem_of_lookup_eq_some {producers : List (String × TensorRef)} {t : String} {r : TensorRef}
    (found : lookup producers t = some r) : (t, r) ∈ producers := by
  obtain ⟨⟨t', r'⟩, hit, rfl⟩ := Option.map_eq_some_iff.mp found
  have same : t' = t := by simpa using List.find?_some hit
  subst same
  exact List.mem_of_find?_eq_some hit

/-- With no repeated tensor name, a tensor is found exactly at its producing slot. -/
theorem lookup_eq_some_of_mem {ops : List Op} (distinct : (tensorNames ops).Nodup) {t : String}
    {r : TensorRef} (member : (t, r) ∈ outputSlots ops) : lookup (outputSlots ops) t = some r := by
  have present : t ∈ (outputSlots ops).map (·.1) := List.mem_map_of_mem member
  cases found : lookup (outputSlots ops) t with
  | none => exact absurd present (lookup_eq_none_iff.mp found)
  | some r' =>
    have member' := mem_of_lookup_eq_some found
    rw [← map_fst_outputSlots] at distinct
    have same := List.inj_on_of_nodup_map distinct member' member rfl
    simp only [Prod.mk.injEq, true_and] at same
    rw [same]

theorem firstDangling_eq (ops : List Op) :
    firstDangling ops (outputSlots ops) =
      (inputPairs ops).find? fun p => p.2 ∉ tensorNames ops := by
  unfold firstDangling inputPairs
  congr 1
  funext p
  by_cases present : p.2 ∈ tensorNames ops
  · have found : lookup (outputSlots ops) p.2 ≠ none := fun absent =>
      (lookup_eq_none_iff.mp absent) (by rwa [map_fst_outputSlots])
    simp [present, Option.isSome_iff_ne_none.mpr found]
  · have absent : lookup (outputSlots ops) p.2 = none :=
      lookup_eq_none_iff.mpr (by rwa [map_fst_outputSlots])
    simp [present, absent]

/-- The consumer table exists when every input resolves, and otherwise the error names the first
unresolved input in arena then slot order, with the op reading it. -/
theorem consumerMap_cases (ops : List Op) :
    (InputsResolve ops ∧ consumerMap ops (outputSlots ops) = .ok (inputSlots ops)) ∨
      ∃ o t, consumerMap ops (outputSlots ops) = .error (.danglingTensor o t) ∧
        (inputPairs ops).find? (fun p => p.2 ∉ tensorNames ops) = some (o, t) := by
  cases first : (inputPairs ops).find? (fun p => p.2 ∉ tensorNames ops) with
  | none =>
    left
    refine ⟨?_, by rw [consumerMap, firstDangling_eq, first]⟩
    intro op member t input
    have absent := List.find?_eq_none.mp first (op.name, t) (mem_inputPairs.mpr ⟨op, member, rfl, input⟩)
    simpa using absent
  | some pair =>
    obtain ⟨o, t⟩ := pair
    exact Or.inr ⟨o, t, by rw [consumerMap, firstDangling_eq, first], rfl⟩

end Index

end OpGraph
