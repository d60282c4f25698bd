import OpGraph.Proofs.Pattern.Embedding

namespace OpGraph

namespace Matcher

variable {S : Graph} {b : Binding}

/-- The producer scan only ever names the producer of a subject tensor. -/
theorem pairedProducer_lt {op : Op} {s : Nat} (paired : pairedProducer S b op = some (some s)) :
    s < S.opCount := by
  unfold pairedProducer at paired
  have start : ∀ k, (some none : Option (Option Nat)) = some (some k) → k < S.opCount := by simp
  revert start paired
  generalize (some none : Option (Option Nat)) = acc
  generalize op.outputs.zipIdx = outputs
  induction outputs generalizing acc with
  | nil =>
    intro paired start
    exact start s paired
  | cons output rest ih =>
    intro paired start
    rw [List.foldl_cons] at paired
    refine ih _ paired fun k stepped => ?_
    obtain ⟨t, slot⟩ := output
    -- one step keeps the accumulator, fails, or names the producer it looked up
    rcases acc with _ | known
    · cases stepped
    cases hst : b.subjectTensor? t.name with
    | none =>
      simp only [hst] at stepped
      exact start k stepped
    | some st =>
      cases hloc : S.tensorRef? st with
      | none => simp [hst, hloc] at stepped
      | some loc =>
        have bound := (Graph.tensorRef?_eq_some hloc).1
        simp only [hst, hloc] at stepped
        have named : k = loc.op := by
          rcases known with _ | k' <;> split at stepped <;> simp_all
        exact named ▸ bound

/-- When every subject tensor paired with an output of `op` is produced by `s`, at the output's
own slot unless `op` is a wildcard, the scan names `s` if some output is paired and nothing
otherwise. -/
theorem pairedProducer_of_agree {op : Op} {s : Nat}
    (agree : ∀ (t : Tensor) (slot : Nat) (st : String), (t, slot) ∈ op.outputs.zipIdx →
      b.subjectTensor? t.name = some st →
      ∃ loc, S.tensorRef? st = some loc ∧ loc.op = s ∧
        (isWildcard op = true ∨ loc.slot = slot)) :
    pairedProducer S b op =
      some (if op.outputs.zipIdx.any (fun x => (b.subjectTensor? x.1.name).isSome) then some s
        else none) := by
  unfold pairedProducer
  -- the scan starts from "nothing paired" and can only move to `s`
  suffices scan : ∀ (known : Option Nat), known = none ∨ known = some s →
      op.outputs.zipIdx.foldl _ (some known) =
        some (if op.outputs.zipIdx.any (fun x => (b.subjectTensor? x.1.name).isSome) then some s
          else known) from scan none (Or.inl rfl)
  revert agree
  generalize op.outputs.zipIdx = outputs
  intro agree
  induction outputs with
  | nil => simp
  | cons output rest ih =>
    intro known start
    obtain ⟨t, slot⟩ := output
    have restAgree : ∀ t slot st, (t, slot) ∈ rest → b.subjectTensor? t.name = some st →
        ∃ loc, S.tensorRef? st = some loc ∧ loc.op = s ∧
          (isWildcard op = true ∨ loc.slot = slot) :=
      fun t slot st member => agree t slot st (List.mem_cons_of_mem _ member)
    rw [List.foldl_cons, List.any_cons]
    cases hst : b.subjectTensor? t.name with
    | none =>
      simp only [hst, Option.isSome_none, Bool.false_or]
      exact ih restAgree known start
    | some st =>
      obtain ⟨loc, hloc, rfl, slotOk⟩ := agree t slot st List.mem_cons_self hst
      have keep : (!isWildcard op && loc.slot != slot) = false := by
        rcases slotOk with wild | same
        · simp [wild]
        · simp [same]
      simp only [hst, hloc, keep, Option.isSome_some, Bool.true_or, if_true, Bool.false_eq_true,
        if_false]
      rcases start with rfl | rfl
      · simpa using ih restAgree (some loc.op) (Or.inr rfl)
      simpa using ih restAgree (some loc.op) (Or.inr rfl)

/-- A candidate is an op of the subject arena that no pattern op is bound to yet, of the pattern
op's type when that is an output op. -/
theorem mem_candidates {m : Matcher} {p s : Nat} (member : s ∈ m.candidates S b p) :
    s < S.opCount ∧ b.isClaimed s = false ∧
      (m.pattern.isOutput p = true → (S.opAt s).opType = (m.pattern.opAt p).opType) := by
  unfold candidates at member
  obtain ⟨seed, free⟩ := List.mem_filter.mp member
  have free : b.isClaimed s = false := by simpa using free
  split at seed
  · cases seed
  · next id produced =>
    split at seed
    · cases seed
    · next typed =>
      obtain rfl := List.mem_singleton.mp seed
      refine ⟨pairedProducer_lt produced, free, fun output => ?_⟩
      simpa [output] using typed
  · split at seed
    · obtain ⟨bound, typed⟩ := Graph.mem_idsOfType.mp seed
      exact ⟨bound, free, fun _ => typed⟩
    · cases seed

theorem candidates_of_producer {m : Matcher} {p s : Nat}
    (produced : pairedProducer S b (m.pattern.opAt p) = some (some s))
    (typed : m.pattern.isOutput p = true → (S.opAt s).opType = (m.pattern.opAt p).opType)
    (free : b.isClaimed s = false) : s ∈ m.candidates S b p := by
  unfold candidates
  refine List.mem_filter.mpr ⟨?_, by simp [free]⟩
  simp only [produced]
  split
  · next clash =>
    simp only [Bool.and_eq_true, bne_iff_ne, ne_eq] at clash
    exact absurd (typed clash.1) clash.2
  · exact List.mem_singleton_self s

theorem candidates_of_output {m : Matcher} {p s : Nat}
    (unpaired : pairedProducer S b (m.pattern.opAt p) = some none)
    (output : m.pattern.isOutput p = true) (bound : s < S.opCount)
    (typed : (S.opAt s).opType = (m.pattern.opAt p).opType) (free : b.isClaimed s = false) :
    s ∈ m.candidates S b p := by
  unfold candidates
  refine List.mem_filter.mpr ⟨?_, by simp [free]⟩
  simp only [unpaired, output, if_true]
  exact Graph.mem_idsOfType.mpr ⟨bound, typed⟩

theorem expand_eq (m : Matcher) (S : Graph) (b : Binding) (p : Nat) :
    m.expand S b p = (m.candidates S b p).flatMap fun s =>
      if isWildcard (m.pattern.opAt p) then (b.bind p s []).toList
      else
        (m.tables.admissible (m.pattern.opAt p) (S.opAt s)
            (b.aligns (m.pattern.opAt p).inputs (S.opAt s).inputs)).filterMap fun perm =>
          b.bind p s (opPairs (m.pattern.opAt p) (S.opAt s) perm) :=
  rfl

/-- The children of a state: a candidate bound with no pairs for a wildcard, and otherwise with
the pairs of a proposed permutation that lines the operands up with the pairs made so far. -/
theorem mem_expand {m : Matcher} {p : Nat} {c : Binding} :
    c ∈ m.expand S b p ↔ ∃ s ∈ m.candidates S b p,
      (isWildcard (m.pattern.opAt p) = true ∧ b.bind p s [] = some c) ∨
      (isWildcard (m.pattern.opAt p) = false ∧
        ∃ perm ∈ m.tables.proposals (m.pattern.opAt p) (S.opAt s),
          b.aligns (m.pattern.opAt p).inputs (S.opAt s).inputs perm = true ∧
          b.bind p s (opPairs (m.pattern.opAt p) (S.opAt s) perm) = some c) := by
  rw [expand_eq, List.mem_flatMap]
  refine exists_congr fun s => and_congr_right fun _ => ?_
  cases wild : isWildcard (m.pattern.opAt p)
  · simp [Equivalences.admissible, List.mem_filterMap, List.mem_filter, and_assoc]
  · simp

/-- The check on a complete binding: every tensor pair is produced by a pair of bound ops. -/
theorem preservesProducers_iff {m : Matcher} :
    m.preservesProducers S b = true ↔
      ∀ x ∈ b.tensors, ∃ pr sr, m.pattern.tensorRef? x.1 = some pr ∧
      S.tensorRef? x.2 = some sr ∧ b.subjectOp? pr.op = some sr.op := by
  unfold preservesProducers
  rw [List.all_eq_true]
  refine forall₂_congr fun x _ => ?_
  obtain ⟨pt, st⟩ := x
  dsimp only
  cases m.pattern.tensorRef? pt <;> cases S.tensorRef? st <;> simp

end Matcher

end OpGraph
