import OpGraph.Proofs.Pattern.Binding
import OpGraph.Proofs.Pattern.Traversal
import OpGraph.Pattern.Matcher
import OpGraph.Proofs.Graph.Ancestors

namespace OpGraph

namespace Graph

theorem mem_idsOfType {g : Graph} {t : String} {id : Nat} :
    id ∈ g.idsOfType t ↔ id < g.opCount ∧ (g.opAt id).opType = t := by
  simp [idsOfType]

theorem mem_neighbours_backward {g : Graph} {c x : Nat} :
    x ∈ g.neighbours .backward c ↔
      ∃ t ∈ (g.opAt c).inputs, ∃ r, g.tensorRef? t = some r ∧ r.op = x := by
  simp [neighbours, inputOpIds]

end Graph

theorem noRepeats_iff {l : List Nat} : noRepeats l = true ↔ l.Nodup := by
  induction l with
  | nil => simp [noRepeats]
  | cons x rest ih => simp [noRepeats, ih]

theorem Permutation.isValid_iff {perm : Permutation} {n : Nat} :
    perm.isValid n = true ↔ perm.Perm (List.range n) := by
  rw [perm_range_iff]
  simp only [Permutation.isValid, Bool.and_eq_true, beq_iff_eq, List.all_eq_true,
    decide_eq_true_eq, noRepeats_iff]
  tauto

namespace Equivalences

/-- Every registered permutation reorders the operands of its own arity. -/
def WellFormed (t : Equivalences) : Prop :=
  ∀ entry ∈ t.associations, ∀ perm ∈ entry.2, perm.isValid perm.length = true

theorem defaults_wellFormed : defaults.WellFormed := by
  unfold WellFormed
  decide

theorem collectPermutations_valid {ty : String} :
    ∀ {perms acc out : List Permutation}, (∀ perm ∈ acc, perm.isValid perm.length = true) →
      collectPermutations ty perms acc = .ok out →
        ∀ perm ∈ out, perm.isValid perm.length = true
  | [], acc, out, valid, done => by
    cases done
    exact valid
  | perm :: rest, acc, out, valid, done => by
    simp only [collectPermutations] at done
    split at done
    · next fits =>
      refine collectPermutations_valid (fun q member => ?_) done
      -- a permutation valid for the arity of the first is valid for its own length
      have own : perm.isValid perm.length = true := by
        have same := (Permutation.isValid_iff.mp fits).length_eq
        rw [List.length_range] at same
        rwa [same]
      split at member
      · exact valid q member
      · rcases List.mem_append.mp member with old | new
        · exact valid q old
        · rwa [List.mem_singleton.mp new]
    · cases done

theorem registerAssociation_wellFormed {t t' : Equivalences} {ty : String}
    {perms : List Permutation} (wf : t.WellFormed)
    (registered : t.registerAssociation ty perms = .ok t') :
    t'.WellFormed := by
  unfold registerAssociation at registered
  cases collected : collectPermutations ty perms [] with
  | error e =>
    simp only [collected] at registered
    split at registered <;> cases registered
  | ok out =>
    have valid := collectPermutations_valid (by simp) collected
    simp only [collected] at registered
    split at registered
    · cases registered
    · simp only [bind, Except.bind, pure, Except.pure] at registered
      split at registered
      · cases registered
      · cases registered
        intro entry member
        rcases List.mem_append.mp member with old | new
        · exact wf entry old
        · rw [List.mem_singleton.mp new]
          exact valid

theorem registerCompatibility_wellFormed {t t' : Equivalences} {a b : String} (wf : t.WellFormed)
    (registered : t.registerCompatibility a b = .ok t') : t'.WellFormed := by
  unfold registerCompatibility at registered
  split at registered
  · cases registered
  · cases registered
    exact wf

theorem mem_permutations {t : Equivalences} (wf : t.WellFormed) {ty : String} {n : Nat}
    {perm : Permutation} (member : perm ∈ t.permutations ty n) : perm.Perm (List.range n) := by
  unfold permutations at member
  split at member
  · next found =>
    obtain ⟨registered, length⟩ := List.mem_filter.mp member
    have valid := wf _ (List.mem_of_find?_eq_some found) perm registered
    rw [beq_iff_eq] at length
    rw [← length]
    exact Permutation.isValid_iff.mp valid
  · rw [List.mem_singleton.mp member]
    exact List.Perm.refl _

/-- A proposed permutation is a permutation of the operands of one arity shared by both ops, or the
identity over the shorter operand list. -/
theorem mem_proposals {t : Equivalences} (wf : t.WellFormed) {this other : Op} {perm : Permutation}
    (proposed : perm ∈ t.proposals this other) :
    (this.inputs.length = other.inputs.length ∧ perm.Perm (List.range this.inputs.length)) ∨
      perm = List.range (min this.inputs.length other.inputs.length) := by
  unfold proposals at proposed
  split at proposed
  · split at proposed
    · cases proposed
    · next same =>
      simp only [bne_iff_ne, ne_eq, Decidable.not_not] at same
      exact Or.inl ⟨same, mem_permutations wf proposed⟩
  · split at proposed
    · exact Or.inr (List.mem_singleton.mp proposed)
    · cases proposed

theorem proposals_inRange {t : Equivalences} (wf : t.WellFormed) {this other : Op}
    {perm : Permutation} (proposed : perm ∈ t.proposals this other) {j k : Nat}
    (atK : perm[k]? = some j) : j < this.inputs.length ∧ k < other.inputs.length := by
  have inside : k < perm.length := (List.getElem?_eq_some_iff.mp atK).1
  rcases mem_proposals wf proposed with ⟨same, perm⟩ | rfl
  · have entry : j < this.inputs.length :=
      List.mem_range.mp (perm.mem_iff.mp (List.mem_of_getElem? atK))
    rw [perm.length_eq, List.length_range] at inside
    omega
  · rw [List.getElem?_range (by simpa using inside)] at atK
    simp only [List.length_range, Nat.lt_min] at inside
    cases atK
    omega

/-- When the other op has at least as many operands, a proposed permutation reaches each operand of
this one. -/
theorem proposals_cover {t : Equivalences} (wf : t.WellFormed) {this other : Op}
    {perm : Permutation} (proposed : perm ∈ t.proposals this other)
    (fewer : this.inputs.length ≤ other.inputs.length) {j : Nat}
    (bound : j < this.inputs.length) :
    ∃ k : Nat, perm[k]? = some j := by
  rcases mem_proposals wf proposed with ⟨-, perm⟩ | rfl
  · exact List.mem_iff_getElem?.mp (perm.mem_iff.mpr (List.mem_range.mpr bound))
  · exact ⟨j, List.getElem?_range (by omega)⟩

theorem admissible_acceptAll (t : Equivalences) (this other : Op) :
    t.admissible this other (fun _ => true) = t.proposals this other :=
  List.filter_true _

end Equivalences

/-- The tensor pairs that binding pattern op `pOp` to subject op `sOp` makes under operand
permutation `perm`: pattern operand `perm[k]` with subject operand `k`, and outputs slot by slot. -/
def opPairs (pOp sOp : Op) (perm : Permutation) : List (String × String) :=
  perm.zipIdx.filterMap (fun (j, k) =>
      match pOp.inputs[j]?, sOp.inputs[k]? with
      | some pt, some st => some (pt, st)
      | _, _ => none) ++
    (pOp.outputs.zip sOp.outputs).map fun (pt, st) => (pt.name, st.name)

theorem mem_opPairs {pOp sOp : Op} {perm : Permutation} {x : String × String} :
    x ∈ opPairs pOp sOp perm ↔
      (∃ (j k : Nat), perm[k]? = some j ∧ pOp.inputs[j]? = some x.1 ∧
          sOp.inputs[k]? = some x.2) ∨
        ∃ (i : Nat) (pt st : Tensor), pOp.outputs[i]? = some pt ∧ sOp.outputs[i]? = some st ∧
          x = (pt.name, st.name) := by
  obtain ⟨pt, st⟩ := x
  simp only [opPairs, List.mem_append, List.mem_filterMap, List.mem_map, Prod.exists]
  refine or_congr ?operands ?outputs
  case operands =>
    constructor
    · rintro ⟨j, k, member, paired⟩
      have atK := List.mk_mem_zipIdx_iff_getElem?.mp member
      cases hj : pOp.inputs[j]? <;> cases hk : sOp.inputs[k]? <;> simp [hj, hk] at paired
      obtain ⟨rfl, rfl⟩ := paired
      exact ⟨j, k, atK, hj, hk⟩
    · rintro ⟨j, k, atK, hj, hk⟩
      exact ⟨j, k, List.mk_mem_zipIdx_iff_getElem?.mpr atK, by simp [hj, hk]⟩
  case outputs =>
    constructor
    · rintro ⟨a, c, zipped, same⟩
      obtain ⟨i, atI⟩ := List.mem_iff_getElem?.mp zipped
      rw [List.getElem?_zip_eq_some] at atI
      exact ⟨i, a, c, atI.1, atI.2, same.symm⟩
    · rintro ⟨i, a, c, ha, hc, same⟩
      refine ⟨a, c, List.mem_iff_getElem?.mpr ⟨i, ?_⟩, same.symm⟩
      exact List.getElem?_zip_eq_some.mpr ⟨ha, hc⟩

/-- The tensor pairs pattern op `p` makes when sent to `f p` under permutation `perm p`; a
wildcard makes none. -/
def pairsOf (P S : Graph) (f : Nat → Nat) (perm : Nat → Permutation) (p : Nat) :
    List (String × String) :=
  if isWildcard (P.opAt p) then [] else opPairs (P.opAt p) (S.opAt (f p)) (perm p)

/-- The pattern ops `dom` sent into the subject: to distinct ops of its arena, each op that is not
a wildcard under a permutation the tables propose for the pair, output ops to ops of their type,
with one-to-one tensor pairs. -/
structure PartialEmbedding (R : Equivalences) (P S : Graph) (dom : List Nat) (f : Nat → Nat)
    (perm : Nat → Permutation) : Prop where
  inRange : ∀ p ∈ dom, f p < S.opCount
  injective : ∀ p ∈ dom, ∀ q ∈ dom, f p = f q → p = q
  admissible : ∀ p ∈ dom, isWildcard (P.opAt p) = false →
    perm p ∈ R.admissible (P.opAt p) (S.opAt (f p)) fun _ => true
  outputType : ∀ p ∈ dom, p ∈ P.outputs → (S.opAt (f p)).opType = (P.opAt p).opType
  oneToOne : OneToOne (dom.flatMap (pairsOf P S f perm))

/-- An embedding of the whole pattern into the subject: every pattern op is sent, and every tensor
pair is produced by a pair of mapped ops. -/
structure Embedding (R : Equivalences) (P S : Graph) (f : Nat → Nat)
    (perm : Nat → Permutation) : Prop
    extends PartialEmbedding R P S (List.range P.opCount) f perm where
  producers : ∀ x ∈ (List.range P.opCount).flatMap (pairsOf P S f perm),
    ∃ pr sr, P.tensorRef? x.1 = some pr ∧ S.tensorRef? x.2 = some sr ∧ f pr.op = sr.op

/-- A binding holds exactly the op pairs of `f` over `dom` and the tensor pairs they make. -/
structure RepresentsOn (P S : Graph) (dom : List Nat) (f : Nat → Nat) (perm : Nat → Permutation)
    (b : Binding) : Prop where
  ops : ∀ x, x ∈ b.ops ↔ ∃ p ∈ dom, x = (p, f p)
  tensors : ∀ x, x ∈ b.tensors ↔ x ∈ dom.flatMap (pairsOf P S f perm)

/-- A binding holds exactly the op pairs and tensor pairs of an embedding of the whole pattern. -/
def Represents (P S : Graph) (f : Nat → Nat) (perm : Nat → Permutation) (b : Binding) : Prop :=
  RepresentsOn P S (List.range P.opCount) f perm b

section Decide

variable {R : Equivalences} {P S : Graph} {dom : List Nat} {f : Nat → Nat}
  {perm : Nat → Permutation}

theorem partialEmbedding_iff : PartialEmbedding R P S dom f perm ↔
    (∀ p ∈ dom, f p < S.opCount) ∧ (∀ p ∈ dom, ∀ q ∈ dom, f p = f q → p = q) ∧
    (∀ p ∈ dom, isWildcard (P.opAt p) = false →
      perm p ∈ R.admissible (P.opAt p) (S.opAt (f p)) fun _ => true) ∧
    (∀ p ∈ dom, p ∈ P.outputs → (S.opAt (f p)).opType = (P.opAt p).opType) ∧
    OneToOne (dom.flatMap (pairsOf P S f perm)) :=
  ⟨fun e => ⟨e.inRange, e.injective, e.admissible, e.outputType, e.oneToOne⟩,
    fun ⟨inRange, injective, admissible, outputType, oneToOne⟩ =>
      ⟨inRange, injective, admissible, outputType, oneToOne⟩⟩

instance : Decidable (PartialEmbedding R P S dom f perm) :=
  decidable_of_iff _ partialEmbedding_iff.symm

theorem embedding_iff : Embedding R P S f perm ↔
    PartialEmbedding R P S (List.range P.opCount) f perm ∧
      ∀ x ∈ (List.range P.opCount).flatMap (pairsOf P S f perm),
        ∃ pr ∈ P.tensorRef? x.1, ∃ sr ∈ S.tensorRef? x.2, f pr.op = sr.op := by
  constructor
  · intro embedding
    refine ⟨embedding.toPartialEmbedding, fun x paired => ?_⟩
    obtain ⟨pr, sr, atPr, atSr, mapped⟩ := embedding.producers x paired
    exact ⟨pr, atPr, sr, atSr, mapped⟩
  · rintro ⟨restricted, producers⟩
    refine ⟨restricted, fun x paired => ?_⟩
    obtain ⟨pr, atPr, sr, atSr, mapped⟩ := producers x paired
    exact ⟨pr, sr, atPr, atSr, mapped⟩

instance : Decidable (Embedding R P S f perm) := decidable_of_iff _ embedding_iff.symm

end Decide

/-- Every pattern op has at most as many operands as the subject op it is sent to. -/
def Covers (P S : Graph) (f : Nat → Nat) : Prop :=
  ∀ p < P.opCount, (P.opAt p).inputs.length ≤ (S.opAt (f p)).inputs.length

section SameOps

variable {R : Equivalences} {P S : Graph} {f : Nat → Nat} {perm : Nat → Permutation}
  {dom dom' : List Nat}

theorem mem_flatMap_pairsOf_of_sub (sub : ∀ p ∈ dom, p ∈ dom') {x : String × String}
    (member : x ∈ dom.flatMap (pairsOf P S f perm)) :
    x ∈ dom'.flatMap (pairsOf P S f perm) := by
  obtain ⟨q, bound, pairs⟩ := List.mem_flatMap.mp member
  exact List.mem_flatMap.mpr ⟨q, sub q bound, pairs⟩

theorem PartialEmbedding.mono (embedding : PartialEmbedding R P S dom' f perm)
    (sub : ∀ p ∈ dom, p ∈ dom') : PartialEmbedding R P S dom f perm where
  inRange p member := embedding.inRange p (sub p member)
  injective p pIn q qIn := embedding.injective p (sub p pIn) q (sub q qIn)
  admissible p member := embedding.admissible p (sub p member)
  outputType p member := embedding.outputType p (sub p member)
  oneToOne := embedding.oneToOne.mono fun _ member => mem_flatMap_pairsOf_of_sub sub member

theorem RepresentsOn.congr {b : Binding} (represents : RepresentsOn P S dom f perm b)
    (same : ∀ p, p ∈ dom ↔ p ∈ dom') : RepresentsOn P S dom' f perm b where
  ops x := by
    rw [represents.ops x]
    simp only [same]
  tensors x := by
    rw [represents.tensors x]
    exact ⟨mem_flatMap_pairsOf_of_sub fun p member => (same p).mp member,
      mem_flatMap_pairsOf_of_sub fun p member => (same p).mpr member⟩

theorem RepresentsOn.of_sameMembers {b b' : Binding} (represents : RepresentsOn P S dom f perm b)
    (ops : ∀ x, x ∈ b'.ops ↔ x ∈ b.ops)
    (tensors : ∀ x, x ∈ b'.tensors ↔ x ∈ b.tensors) :
    RepresentsOn P S dom f perm b' :=
  ⟨fun x => (ops x).trans (represents.ops x), fun x => (tensors x).trans (represents.tensors x)⟩

theorem RepresentsOn.sameMembers {b b' : Binding} (represents : RepresentsOn P S dom f perm b)
    (represents' : RepresentsOn P S dom f perm b') :
    (∀ x, x ∈ b.ops ↔ x ∈ b'.ops) ∧ ∀ x, x ∈ b.tensors ↔ x ∈ b'.tensors :=
  ⟨fun x => (represents.ops x).trans (represents'.ops x).symm,
    fun x => (represents.tensors x).trans (represents'.tensors x).symm⟩

end SameOps

section Extend

variable {R : Equivalences} {P S : Graph} {f : Nat → Nat} {perm : Nat → Permutation}
  {dom : List Nat} {b c : Binding} {p : Nat}

theorem RepresentsOn.oneToOne (represents : RepresentsOn P S dom f perm b)
    (one : OneToOne (dom.flatMap (pairsOf P S f perm))) : OneToOne b.tensors :=
  one.mono fun x member => (represents.tensors x).mp member

theorem RepresentsOn.fresh (represents : RepresentsOn P S dom f perm b) (fresh : p ∉ dom) :
    ∀ y ∈ b.ops, y.1 ≠ p := by
  intro y member same
  obtain ⟨q, bound, rfl⟩ := (represents.ops y).mp member
  exact fresh (same ▸ bound)

/-- Under a map injective on `dom` and `p`, no op of `dom` goes where `p` goes. -/
theorem RepresentsOn.image_free (represents : RepresentsOn P S dom f perm b) (fresh : p ∉ dom)
    (injective : ∀ q ∈ dom, f q = f p → q = p) : ∀ y ∈ b.ops, y.2 ≠ f p := by
  intro y member same
  obtain ⟨q, bound, rfl⟩ := (represents.ops y).mp member
  exact fresh (injective q bound same ▸ bound)

theorem RepresentsOn.within (represents : RepresentsOn P S dom f perm b)
    (inside : ∀ p ∈ dom, p < P.opCount) :
    ∀ x ∈ b.tensors, x ∈ (List.range P.opCount).flatMap (pairsOf P S f perm) :=
  fun x member => mem_flatMap_pairsOf_of_sub (fun q bound => List.mem_range.mpr (inside q bound))
    ((represents.tensors x).mp member)

/-- Changing the map and the permutations at an op that is not bound changes nothing. -/
theorem RepresentsOn.update (represents : RepresentsOn P S dom f perm b) (fresh : p ∉ dom)
    (s : Nat) (π : Permutation) :
    RepresentsOn P S dom (Function.update f p s) (Function.update perm p π) b := by
  have same : ∀ q ∈ dom, Function.update f p s q = f q ∧
      pairsOf P S (Function.update f p s) (Function.update perm p π) q = pairsOf P S f perm q := by
    intro q member
    have other : q ≠ p := fun same => fresh (same ▸ member)
    simp [pairsOf, Function.update_of_ne other]
  constructor
  · intro x
    rw [represents.ops x]
    constructor <;> rintro ⟨q, member, rfl⟩ <;> exact ⟨q, member, by rw [(same q member).1]⟩
  · intro x
    rw [represents.tensors x]
    simp only [List.mem_flatMap]
    constructor <;> rintro ⟨q, member, inPairs⟩ <;>
      exact ⟨q, member, by first | rwa [(same q member).2] | rwa [← (same q member).2]⟩

/-- Binding a fresh op `p` to `f p` with the pairs it makes turns a representative of `dom` into
one of `dom ++ [p]`, with no pair listed twice and the owner tables kept. -/
theorem RepresentsOn.bind (represents : RepresentsOn P S dom f perm b) (opsNodup : b.ops.Nodup)
    (tensorsNodup : b.tensors.Nodup) (owned : b.Owned) (one : OneToOne b.tensors) (fresh : p ∉ dom)
    (bound : b.bind p (f p) (pairsOf P S f perm p) = some c) :
    RepresentsOn P S (dom ++ [p]) f perm c ∧ c.ops.Nodup ∧ c.tensors.Nodup ∧ c.Owned ∧
      OneToOne c.tensors ∧
      ∀ q, (q, f p) ∈ b.ops → q = p := by
  obtain ⟨unclaimed, ops, -, tensors, oneC, nodupC, -⟩ :=
    Binding.bind_eq_some owned one tensorsNodup bound
  have keys := represents.fresh fresh
  have ownedC := owned.bind (fun y member same => absurd same (keys y member)) one tensorsNodup bound
  rw [setPair_of_fresh (f p) keys] at ops
  refine ⟨⟨fun x => ?_, fun x => ?_⟩, ?_, nodupC, ownedC, oneC, unclaimed⟩
  · rw [ops, List.mem_append, represents.ops x, List.mem_singleton]
    simp only [List.mem_append, List.mem_singleton]
    constructor
    · rintro (⟨q, member, rfl⟩ | rfl)
      · exact ⟨q, Or.inl member, rfl⟩
      · exact ⟨p, Or.inr rfl, rfl⟩
    · rintro ⟨q, member | rfl, rfl⟩
      · exact Or.inl ⟨q, member, rfl⟩
      · exact Or.inr rfl
  · rw [tensors x, represents.tensors x, List.flatMap_append, List.mem_append,
      List.flatMap_singleton]
  · rw [ops]
    exact nodup_append_fresh _ opsNodup keys

/-- In an embedding of valid graphs, a subject tensor paired with output `slot` of pattern op `p`
is produced by `f p`, at that same slot unless `p` is a wildcard. -/
theorem Embedding.paired_output (embedding : Embedding R P S f perm) (validP : P.Valid)
    (validS : S.Valid) {slot : Nat} {t : Tensor} {st : String} (bound : p < P.opCount)
    (atSlot : (P.opAt p).outputs[slot]? = some t)
    (paired : (t.name, st) ∈ (List.range P.opCount).flatMap (pairsOf P S f perm)) :
    ∃ loc, S.tensorRef? st = some loc ∧ loc.op = f p ∧
      (isWildcard (P.opAt p) = true ∨ loc.slot = slot) := by
  obtain ⟨pr, sr, atPr, atSr, mapped⟩ := embedding.producers _ paired
  have own : P.tensorRef? t.name = some ⟨p, slot⟩ :=
    Graph.tensorRef?_output validP.distinctTensors bound atSlot
  rw [own] at atPr
  cases atPr
  refine ⟨sr, atSr, mapped.symm, ?_⟩
  cases wild : isWildcard (P.opAt p)
  case true => exact Or.inl rfl
  case false =>
  right
  -- op `p` pairs its outputs slot by slot with those of `f p`
  have outputPair : ∀ (i : Nat) (pt st' : Tensor), (P.opAt p).outputs[i]? = some pt →
      (S.opAt (f p)).outputs[i]? = some st' →
      (pt.name, st'.name) ∈ (List.range P.opCount).flatMap (pairsOf P S f perm) := by
    intro i pt st' atP atS
    refine List.mem_flatMap.mpr ⟨p, List.mem_range.mpr bound, ?_⟩
    simp only [pairsOf, wild, Bool.false_eq_true, if_false]
    exact mem_opPairs.mpr (Or.inr ⟨i, pt, st', atP, atS, rfl⟩)
  have mappedBound := embedding.inRange p (List.mem_range.mpr bound)
  obtain ⟨-, produced, atProduced, named⟩ := Graph.tensorRef?_eq_some atSr
  rw [← mapped] at atProduced
  have pLength : slot < (P.opAt p).outputs.length := (List.getElem?_eq_some_iff.mp atSlot).1
  have sLength : sr.slot < (S.opAt (f p)).outputs.length :=
    (List.getElem?_eq_some_iff.mp atProduced).1
  by_cases fits : slot < (S.opAt (f p)).outputs.length
  · -- the output of `f p` at `slot` is the tensor paired with `t`, and it sits at `slot`
    have atS := List.getElem?_eq_getElem fits
    have same : st = ((S.opAt (f p)).outputs[slot]).name :=
      (embedding.oneToOne _ paired _ (outputPair slot t _ atSlot atS)).mp rfl
    have found := Graph.tensorRef?_output validS.distinctTensors mappedBound atS
    rw [← same, atSr] at found
    cases found
    rfl
  · -- otherwise output `sr.slot` of `p` would be paired with `st` too, and it is not `t`
    have atP := List.getElem?_eq_getElem (show sr.slot < (P.opAt p).outputs.length by omega)
    have pairedToo := outputPair sr.slot _ produced atP atProduced
    rw [named] at pairedToo
    have same : t.name = ((P.opAt p).outputs[sr.slot]).name :=
      (embedding.oneToOne _ paired _ pairedToo).mpr rfl
    have found := Graph.tensorRef?_output validP.distinctTensors bound atP
    rw [← same, own] at found
    cases found
    omega

end Extend

end OpGraph
