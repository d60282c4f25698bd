import OpGraph.Proofs.Pattern.Extension
import OpGraph.Proofs.Graph.Restrict

namespace OpGraph

section Lookup

variable {α β : Type}

theorem OneToOne.swap {pairs : List (α × β)} (one : OneToOne pairs) :
    OneToOne (pairs.map Prod.swap) := by
  intro x xIn y yIn
  obtain ⟨a, aIn, rfl⟩ := List.mem_map.mp xIn
  obtain ⟨c, cIn, rfl⟩ := List.mem_map.mp yIn
  exact (one a aIn c cIn).symm

/-- In a one-to-one list the lookup finds exactly the pairs of the list. -/
theorem lookupPair_eq_some_iff [BEq α] [LawfulBEq α] {pairs : List (α × β)} (one : OneToOne pairs) {k : α} {v : β} :
    lookupPair pairs k = some v ↔ (k, v) ∈ pairs :=
  ⟨mem_of_lookupPair, fun member =>
    lookupPair_eq_some_of_mem (fun y yIn key => (one y yIn (k, v) member).mp key) member⟩

/-- The lookup by second component, as a lookup in the swapped list. -/
theorem find?_snd_eq_lookupPair_swap [BEq β] (pairs : List (α × β)) (v : β) :
    (pairs.find? (·.2 == v)).map (·.1) = lookupPair (pairs.map Prod.swap) v := by
  simp [lookupPair, List.find?_map, Function.comp_def]

/-- One-to-one lists with the same lookups hold the same pairs. -/
theorem lookupPair_congr_iff [BEq α] [LawfulBEq α] {l l' : List (α × β)} (one : OneToOne l) (one' : OneToOne l') :
    (∀ k, lookupPair l k = lookupPair l' k) ↔ ∀ x, x ∈ l ↔ x ∈ l' := by
  constructor
  · rintro same ⟨k, v⟩
    rw [← lookupPair_eq_some_iff one, ← lookupPair_eq_some_iff one', same]
  · intro same k
    apply Option.ext
    intro v
    rw [lookupPair_eq_some_iff one, lookupPair_eq_some_iff one', same]

/-- Setting a pair that agrees with every pair of the list keeps the list as a prefix. -/
theorem prefix_setPair [BEq α] [LawfulBEq α] {pairs : List (α × β)} {k : α} {v : β}
    (agree : ∀ y ∈ pairs, y.1 = k → y.2 = v) : pairs <+: setPair pairs k v := by
  cases present : pairs.any (·.1 == k) with
  | true =>
    rw [setPair_of_present present agree]
  | false =>
    rw [setPair, if_neg (by simp [present])]
    exact List.prefix_append _ _

end Lookup

namespace Binding

variable {P S : Graph} {b c : Binding} {p s : Nat} {pairs : List (String × String)}

/-- The bindings a search reaches: the empty one, and one more pattern op, not bound yet, bound
to an op of the subject with some tensor pairs. -/
inductive Reachable (P S : Graph) : Binding → Prop
  | empty : Reachable P S Binding.empty
  | bind {b c : Binding} {p s : Nat} {pairs : List (String × String)} :
      Reachable P S b → b.isBound p = false → p < P.opCount → s < S.opCount →
      b.bind p s pairs = some c → Reachable P S c

/-- Both correspondences one to one, each pair once, the owner tables their swaps, and the op
pairs within the two arenas. -/
structure Consistent (P S : Graph) (b : Binding) : Prop where
  opsOne : OneToOne b.ops
  opsNodup : b.ops.Nodup
  tensorsOne : OneToOne b.tensors
  tensorsNodup : b.tensors.Nodup
  owned : b.Owned
  inRange : ∀ x ∈ b.ops, x.1 < P.opCount ∧ x.2 < S.opCount

theorem consistent_empty (P S : Graph) : Consistent P S Binding.empty :=
  ⟨by simp [OneToOne, empty], by simp [empty], by simp [OneToOne, empty], by simp [empty],
    owned_empty, by simp [empty]⟩

theorem isBound_eq_false_iff : b.isBound p = false ↔ ∀ y ∈ b.ops, y.1 ≠ p := by
  simp [isBound]

/-- The fold of `bind` over tensor pairs keeps the pairs it started from as a prefix. -/
theorem foldlM_setPairs_prefix :
    ∀ {pairs : List (String × String)} {acc c : Binding}, pairs.foldlM tensorStep acc = some c →
      OneToOne acc.tensors → OwnersOf acc.tensorOwners acc.tensors → acc.tensors <+: c.tensors
  | [], acc, c, done, _, _ => by
    cases done
    exact List.prefix_refl _
  | (pt, st) :: rest, acc, c, done, one, owners => by
    rw [List.foldlM_cons] at done
    cases agrees : acc.tensorAgrees pt st with
    | false => simp [tensorStep_of_not_agrees agrees] at done
    | true =>
      rw [tensorStep_of_agrees agrees] at done
      have agree := (tensorAgrees_iff one owners).mp agrees
      obtain ⟨-, oneNext, -, ownersNext⟩ := setPair_of_tensorAgrees one owners agrees
      have later := foldlM_setPairs_prefix done oneNext ownersNext
      exact (prefix_setPair fun y yIn key => (agree y yIn).mp key).trans later

/-- A pattern op not bound yet binds only to a subject op paired with nothing. -/
theorem Consistent.unpaired_of_bind (consistent : Consistent P S b) (unbound : b.isBound p = false)
    (bound : b.bind p s pairs = some c) : ∀ y ∈ b.ops, y.2 ≠ s := by
  obtain ⟨unclaimed, -⟩ :=
    bind_eq_some consistent.owned consistent.tensorsOne consistent.tensorsNodup bound
  rintro ⟨q, t⟩ member rfl
  exact isBound_eq_false_iff.mp unbound _ member (unclaimed q member)

/-- Binding a pattern op not bound yet appends its pair to the op pairs and to the owner table,
keeps the tensor pairs made so far as a prefix and adds the pairs given. -/
theorem Consistent.bind_extends (consistent : Consistent P S b) (unbound : b.isBound p = false)
    (bound : b.bind p s pairs = some c) :
    c.ops = b.ops ++ [(p, s)] ∧ c.opOwners = b.opOwners ++ [(s, p)] ∧ b.tensors <+: c.tensors ∧
      ∀ x, x ∈ c.tensors ↔ x ∈ b.tensors ∨ x ∈ pairs := by
  obtain ⟨-, ops, opOwners, tensors, -, -, -⟩ :=
    bind_eq_some consistent.owned consistent.tensorsOne consistent.tensorsNodup bound
  have free := consistent.unpaired_of_bind unbound bound
  refine ⟨ops.trans (setPair_of_fresh s (isBound_eq_false_iff.mp unbound)),
    opOwners.trans (setPair_of_fresh p (consistent.owned.ops.not_mem free)), ?_, tensors⟩
  rw [Binding.bind_eq_foldlM] at bound
  split at bound
  · cases bound
  · -- the fold starts from `b` with the op pair set, whose tensor tables are `b`'s
    have kept := foldlM_setPairs_prefix bound consistent.tensorsOne consistent.owned.tensors
    exact kept

/-- Binding a pattern op not bound yet, within the arenas, keeps a binding consistent. -/
theorem Consistent.bind (consistent : Consistent P S b) (unbound : b.isBound p = false)
    (pIn : p < P.opCount) (sIn : s < S.opCount) (bound : b.bind p s pairs = some c) :
    Consistent P S c := by
  obtain ⟨-, -, -, -, oneT, nodupT, -⟩ :=
    bind_eq_some consistent.owned consistent.tensorsOne consistent.tensorsNodup bound
  obtain ⟨ops, -, -, -⟩ := consistent.bind_extends unbound bound
  have fresh := isBound_eq_false_iff.mp unbound
  have free := consistent.unpaired_of_bind unbound bound
  have owned := consistent.owned.bind (fun y yIn same => absurd same (fresh y yIn))
    consistent.tensorsOne consistent.tensorsNodup bound
  refine ⟨?_, ?_, oneT, nodupT, owned, ?_⟩
  · rw [ops]
    intro x xIn y yIn
    rcases List.mem_append.mp xIn with xOld | xNew <;> rcases List.mem_append.mp yIn with yOld | yNew
    · exact consistent.opsOne x xOld y yOld
    · obtain rfl := List.mem_singleton.mp yNew
      exact ⟨fun key => absurd key (fresh x xOld), fun key => absurd key (free x xOld)⟩
    · obtain rfl := List.mem_singleton.mp xNew
      exact ⟨fun key => absurd key.symm (fresh y yOld), fun key => absurd key.symm (free y yOld)⟩
    · rw [List.mem_singleton.mp xNew, List.mem_singleton.mp yNew]
      exact ⟨fun _ => rfl, fun _ => rfl⟩
  · rw [ops]
    exact nodup_append_fresh s consistent.opsNodup fresh
  · rw [ops]
    intro x xIn
    rcases List.mem_append.mp xIn with old | new
    · exact consistent.inRange x old
    · rw [List.mem_singleton.mp new]
      exact ⟨pIn, sIn⟩

theorem Reachable.consistent (reach : Reachable P S b) : Consistent P S b := by
  induction reach with
  | empty => exact consistent_empty P S
  | bind _ unbound pIn sIn bound ih => exact ih.bind unbound pIn sIn bound

/-- The children the search makes of a reachable binding, binding a pattern op not bound yet,
are reachable. -/
theorem Reachable.expand {m : Matcher} (reach : Reachable P S b)
    (unbound : b.isBound p = false) (pIn : p < P.opCount) (child : c ∈ m.expand S b p) :
    Reachable P S c := by
  obtain ⟨s, candidate, chosen⟩ := Matcher.mem_expand.mp child
  obtain ⟨sIn, -, -⟩ := Matcher.mem_candidates candidate
  rcases chosen with ⟨-, bound⟩ | ⟨-, perm, -, -, bound⟩
  · exact .bind reach unbound pIn sIn bound
  · exact .bind reach unbound pIn sIn bound

theorem Consistent.subjectOp?_iff (consistent : Consistent P S b) :
    b.subjectOp? p = some s ↔ lookupPair b.opOwners s = some p := by
  rw [subjectOp?, lookupPair_eq_some_iff consistent.opsOne, consistent.owned.ops]

theorem Consistent.subjectTensor?_iff (consistent : Consistent P S b) {pt st : String} :
    b.subjectTensor? pt = some st ↔ lookupPair b.tensorOwners st = some pt := by
  rw [subjectTensor?, lookupPair_eq_some_iff consistent.tensorsOne, consistent.owned.tensors]

theorem Consistent.isClaimed_iff (consistent : Consistent P S b) :
    b.isClaimed s = true ↔ ∃ q, b.subjectOp? q = some s := by
  simp only [consistent.owned.isClaimed_iff, subjectOp?, lookupPair_eq_some_iff consistent.opsOne]

/-- `bind` succeeds exactly when the subject op is free or already the pattern op's, and the pairs
given fit one one-to-one pairing with those made so far. -/
theorem Consistent.bind_isSome_iff (consistent : Consistent P S b) :
    (b.bind p s pairs).isSome = true ↔
      (b.isClaimed s = false ∨ b.subjectOp? p = some s) ∧ OneToOne (b.tensors ++ pairs) := by
  have owner : (∀ q, (q, s) ∈ b.ops → q = p) ↔ b.isClaimed s = false ∨ b.subjectOp? p = some s := by
    constructor
    · intro unclaimed
      by_cases claimed : b.isClaimed s = true
      · obtain ⟨q, member⟩ := consistent.owned.isClaimed_iff.mp claimed
        right
        rw [subjectOp?, lookupPair_eq_some_iff consistent.opsOne, ← unclaimed q member]
        exact member
      · exact Or.inl (Bool.eq_false_iff.mpr claimed)
    · rintro (free | mine) q member
      · exact absurd (consistent.owned.isClaimed_iff.mpr ⟨q, member⟩) (by simp [free])
      · rw [subjectOp?, lookupPair_eq_some_iff consistent.opsOne] at mine
        exact (consistent.opsOne _ member _ mine).mpr rfl
  rw [← owner, Option.isSome_iff_exists]
  constructor
  · rintro ⟨c, bound⟩
    obtain ⟨unclaimed, -, -, tensors, oneC, -, -⟩ :=
      bind_eq_some consistent.owned consistent.tensorsOne consistent.tensorsNodup bound
    refine ⟨unclaimed, oneC.mono fun x member => (tensors x).mpr ?_⟩
    exact List.mem_append.mp member
  · rintro ⟨unclaimed, one⟩
    exact bind_isSome consistent.owned unclaimed one (fun x member => List.mem_append_left _ member)
      (fun x member => List.mem_append_right _ member)

/-- The alignment filter drops only permutations under which binding fails: a proposed
permutation that does not line the operands up with the pairs made so far pairs some operand
against them. -/
theorem Consistent.bind_eq_none_of_not_aligns (consistent : Consistent P S b) {R : Equivalences}
    (wf : R.WellFormed) {pOp sOp : Op} {perm : Permutation} (proposed : perm ∈ R.proposals pOp sOp)
    (misaligned : b.aligns pOp.inputs sOp.inputs perm = false) (p s : Nat) :
    b.bind p s (opPairs pOp sOp perm) = none := by
  -- a proposed permutation reaches only operands that exist, so some pair disagrees
  obtain ⟨pt, st, paired, disagrees⟩ : ∃ pt st, (pt, st) ∈ opPairs pOp sOp perm ∧
      b.tensorAgrees pt st = false := by
    have notAll : ¬ ∀ x ∈ perm.zipIdx, ∃ pt st, pOp.inputs[x.1]? = some pt ∧
        sOp.inputs[x.2]? = some st ∧ b.tensorAgrees pt st = true := by
      rw [← Binding.aligns_iff, misaligned]
      decide
    push Not at notAll
    obtain ⟨⟨j, k⟩, member, missing⟩ := notAll
    have atK := List.mk_mem_zipIdx_iff_getElem?.mp member
    obtain ⟨jIn, kIn⟩ := Equivalences.proposals_inRange wf proposed atK
    refine ⟨pOp.inputs[j], sOp.inputs[k], mem_opPairs.mpr (Or.inl ⟨j, k, atK, by simp, by simp⟩), ?_⟩
    simpa using missing pOp.inputs[j] sOp.inputs[k] (by simp) (by simp)
  cases bound : b.bind p s (opPairs pOp sOp perm) with
  | none => rfl
  | some c =>
    obtain ⟨-, -, -, tensors, oneC, -, -⟩ :=
      bind_eq_some consistent.owned consistent.tensorsOne consistent.tensorsNodup bound
    have added : (pt, st) ∈ c.tensors := (tensors _).mpr (Or.inr paired)
    have agrees : b.tensorAgrees pt st = true :=
      (tensorAgrees_iff consistent.tensorsOne consistent.owned.tensors).mpr
      fun y yIn => oneC y ((tensors y).mpr (Or.inl yIn)) _ added
    rw [agrees] at disagrees
    cases disagrees

end Binding

namespace GraphMatch

/-- Two matches agree as maps: every lookup, in each of the four directions, answers the same. -/
def SameMaps (m m' : GraphMatch) : Prop :=
  (∀ p, m.subjectOp? p = m'.subjectOp? p) ∧ (∀ s, m.patternOp? s = m'.patternOp? s) ∧
    (∀ pt, m.subjectTensor? pt = m'.subjectTensor? pt) ∧
    (∀ st, m.patternTensor? st = m'.patternTensor? st)

/-- Matches whose correspondences are one to one agree as maps exactly when they hold the same op
pairs and the same tensor pairs. -/
theorem sameMaps_iff {m m' : GraphMatch} (ops : OneToOne m.ops) (ops' : OneToOne m'.ops)
    (tensors : OneToOne m.tensors) (tensors' : OneToOne m'.tensors) :
    SameMaps m m' ↔ (∀ x, x ∈ m.ops ↔ x ∈ m'.ops) ∧ ∀ x, x ∈ m.tensors ↔ x ∈ m'.tensors := by
  have swapped : ∀ {l l' : List (String × String)},
      (∀ x, x ∈ l.map Prod.swap ↔ x ∈ l'.map Prod.swap) ↔ ∀ x, x ∈ l ↔ x ∈ l' := by
    intro l l'
    constructor
    · rintro same ⟨a, c⟩
      simpa using same (c, a)
    · rintro same ⟨a, c⟩
      simpa using same (c, a)
  simp only [SameMaps, subjectOp?, patternOp?, subjectTensor?, patternTensor?,
    find?_snd_eq_lookupPair_swap, lookupPair_congr_iff ops ops',
    lookupPair_congr_iff ops.swap ops'.swap, lookupPair_congr_iff tensors tensors',
    lookupPair_congr_iff tensors.swap tensors'.swap, swapped]
  tauto

end GraphMatch

namespace Binding

variable {P S : Graph} {a b : Binding}

/-- A pair of ops by their names. -/
def named (P S : Graph) (x : Nat × Nat) : String × String :=
  ((P.opAt x.1).name, (S.opAt x.2).name)

theorem ofBinding_ops (b : Binding) : (GraphMatch.ofBinding P S b).ops = b.ops.map (named P S) :=
  rfl

section Names

variable (distinctP : (opNames P.ops.toList).Nodup) (distinctS : (opNames S.ops.toList).Nodup)
include distinctP distinctS

/-- With distinct op names, naming is one to one on the pairs of the two arenas. -/
theorem named_inj {x y : Nat × Nat} (xIn : x.1 < P.opCount ∧ x.2 < S.opCount)
    (yIn : y.1 < P.opCount ∧ y.2 < S.opCount) (same : named P S x = named P S y) : x = y := by
  obtain ⟨first, second⟩ := Prod.mk.injEq _ _ _ _ ▸ same
  exact Prod.ext (Graph.eq_of_opAt_name distinctP xIn.1 yIn.1 first)
    (Graph.eq_of_opAt_name distinctS xIn.2 yIn.2 second)

theorem Consistent.named_oneToOne (consistent : Consistent P S b) :
    OneToOne (b.ops.map (named P S)) := by
  intro x xIn y yIn
  obtain ⟨x', x'In, rfl⟩ := List.mem_map.mp xIn
  obtain ⟨y', y'In, rfl⟩ := List.mem_map.mp yIn
  have inX := consistent.inRange x' x'In
  have inY := consistent.inRange y' y'In
  simp only [named]
  constructor
  · intro same
    have := Graph.eq_of_opAt_name distinctP inX.1 inY.1 same
    rw [(consistent.opsOne x' x'In y' y'In).mp this]
  · intro same
    have := Graph.eq_of_opAt_name distinctS inX.2 inY.2 same
    rw [(consistent.opsOne x' x'In y' y'In).mpr this]

theorem Consistent.mem_named_iff (ca : Consistent P S a) (cb : Consistent P S b) :
    (∀ x, x ∈ a.ops.map (named P S) ↔ x ∈ b.ops.map (named P S)) ↔
      ∀ y, y ∈ a.ops ↔ y ∈ b.ops := by
  -- a named pair in both lists comes from the same pair of ids
  have transfer : ∀ {a b : Binding}, Consistent P S a → Consistent P S b →
      (∀ x, x ∈ a.ops.map (named P S) → x ∈ b.ops.map (named P S)) → ∀ y ∈ a.ops, y ∈ b.ops := by
    intro a b ca cb within y yIn
    obtain ⟨z, zIn, same⟩ := List.mem_map.mp (within _ (List.mem_map_of_mem yIn))
    rw [← named_inj distinctP distinctS (cb.inRange z zIn) (ca.inRange y yIn) same]
    exact zIn
  constructor
  · intro same y
    exact ⟨transfer ca cb (fun x => (same x).mp) y, transfer cb ca (fun x => (same x).mpr) y⟩
  · intro same x
    simp only [List.mem_map, same]

/-- Two reachable bindings are the same occurrence exactly when their matches agree as maps. -/
theorem Consistent.samePairs_iff_sameMaps (ca : Consistent P S a) (cb : Consistent P S b) :
    a.samePairs b = true ↔ (GraphMatch.ofBinding P S a).SameMaps (GraphMatch.ofBinding P S b) := by
  have one := ca.named_oneToOne distinctP distinctS
  have one' := cb.named_oneToOne distinctP distinctS
  rw [samePairs_iff ca.opsNodup cb.opsNodup ca.tensorsNodup cb.tensorsNodup,
    GraphMatch.sameMaps_iff (by rwa [ofBinding_ops]) (by rwa [ofBinding_ops]) ca.tensorsOne
      cb.tensorsOne, ofBinding_ops, ofBinding_ops, ca.mem_named_iff distinctP distinctS cb]
  rfl

end Names

end Binding

/-- Match records keep both correspondences bijective: in every binding the search reaches, each
owner table is the inverse of its pair table, binding an unbound pattern op appends both pairs, and
two reachable bindings have the same pairs exactly when their matches agree. -/
theorem match_records_stay_bijective {P S : Graph} {R : Equivalences}
    (distinctP : (opNames P.ops.toList).Nodup) (distinctS : (opNames S.ops.toList).Nodup)
    (wf : R.WellFormed) :
    (∀ (m : Matcher) (b c : Binding) (p : Nat), b.Reachable P S → b.isBound p = false →
      p < P.opCount → c ∈ m.expand S b p → c.Reachable P S) ∧
    ∀ b : Binding, b.Reachable P S →
      (∀ p s, b.subjectOp? p = some s ↔ lookupPair b.opOwners s = some p) ∧
      (∀ s, b.isClaimed s = true ↔ ∃ p, b.subjectOp? p = some s) ∧
      (∀ pt st, b.subjectTensor? pt = some st ↔ lookupPair b.tensorOwners st = some pt) ∧
      (∀ p s pairs, (b.bind p s pairs).isSome = true ↔
        (b.isClaimed s = false ∨ b.subjectOp? p = some s) ∧ OneToOne (b.tensors ++ pairs)) ∧
      (∀ p s pairs c, b.isBound p = false → b.bind p s pairs = some c →
        c.ops = b.ops ++ [(p, s)] ∧ c.opOwners = b.opOwners ++ [(s, p)] ∧
          b.tensors <+: c.tensors ∧ ∀ x, x ∈ c.tensors ↔ x ∈ b.tensors ∨ x ∈ pairs) ∧
      (∀ (pOp sOp : Op) (perm : Permutation), perm ∈ R.proposals pOp sOp →
        b.aligns pOp.inputs sOp.inputs perm = false →
        ∀ p s, b.bind p s (opPairs pOp sOp perm) = none) ∧
      (∀ a : Binding, a.Reachable P S →
        (a.samePairs b = true ↔
          (GraphMatch.ofBinding P S a).SameMaps (GraphMatch.ofBinding P S b))) := by
  refine ⟨fun m b c p reach unbound pIn child => reach.expand unbound pIn child, fun b reach => ?_⟩
  have consistent := reach.consistent
  exact ⟨fun p s => consistent.subjectOp?_iff, fun s => consistent.isClaimed_iff,
    fun pt st => consistent.subjectTensor?_iff, fun p s pairs => consistent.bind_isSome_iff,
    fun p s pairs c unbound bound => consistent.bind_extends unbound bound,
    fun pOp sOp perm proposed misaligned => consistent.bind_eq_none_of_not_aligns wf proposed misaligned,
    fun a other => other.consistent.samePairs_iff_sameMaps distinctP distinctS consistent⟩

/-- A rectifier over an input, as pattern. -/
def reluPattern : Graph :=
  ⟨#[⟨"x", "Placeholder", [], [⟨"x:0", .float, ⟨none⟩⟩], []⟩,
     ⟨"r", "Relu", ["x:0"], [⟨"r:0", .float, ⟨none⟩⟩], []⟩], [0, 1], [1], ⟨[]⟩⟩

/-- A rectifier over a sum, as subject. -/
def reluSubject : Graph :=
  ⟨#[⟨"a", "Placeholder", [], [⟨"a:0", .float, ⟨none⟩⟩], []⟩,
     ⟨"s", "Add", ["a:0", "a:0"], [⟨"s:0", .float, ⟨none⟩⟩], []⟩,
     ⟨"q", "Relu", ["s:0"], [⟨"q:0", .float, ⟨none⟩⟩], []⟩], [0, 1, 2], [2], ⟨[]⟩⟩

theorem reluGraphs_records_bijective :
    (opNames reluPattern.ops.toList).Nodup ∧ (opNames reluSubject.ops.toList).Nodup ∧
      Equivalences.defaults.WellFormed ∧
      ((∀ (m : Matcher) (b c : Binding) (p : Nat), b.Reachable reluPattern reluSubject →
        b.isBound p = false → p < reluPattern.opCount → c ∈ m.expand reluSubject b p →
        c.Reachable reluPattern reluSubject) ∧
      ∀ b : Binding, b.Reachable reluPattern reluSubject →
        (∀ p s, b.subjectOp? p = some s ↔ lookupPair b.opOwners s = some p) ∧
        (∀ s, b.isClaimed s = true ↔ ∃ p, b.subjectOp? p = some s) ∧
        (∀ pt st, b.subjectTensor? pt = some st ↔ lookupPair b.tensorOwners st = some pt) ∧
        (∀ p s pairs, (b.bind p s pairs).isSome = true ↔
          (b.isClaimed s = false ∨ b.subjectOp? p = some s) ∧ OneToOne (b.tensors ++ pairs)) ∧
        (∀ p s pairs c, b.isBound p = false → b.bind p s pairs = some c →
          c.ops = b.ops ++ [(p, s)] ∧ c.opOwners = b.opOwners ++ [(s, p)] ∧
            b.tensors <+: c.tensors ∧ ∀ x, x ∈ c.tensors ↔ x ∈ b.tensors ∨ x ∈ pairs) ∧
        (∀ (pOp sOp : Op) (perm : Permutation), perm ∈ Equivalences.defaults.proposals pOp sOp →
          b.aligns pOp.inputs sOp.inputs perm = false →
          ∀ p s, b.bind p s (opPairs pOp sOp perm) = none) ∧
        (∀ a : Binding, a.Reachable reluPattern reluSubject →
          (a.samePairs b = true ↔ (GraphMatch.ofBinding reluPattern reluSubject a).SameMaps
            (GraphMatch.ofBinding reluPattern reluSubject b)))) :=
  ⟨by decide, by decide, Equivalences.defaults_wellFormed,
    match_records_stay_bijective (by decide) (by decide) Equivalences.defaults_wellFormed⟩

end OpGraph
