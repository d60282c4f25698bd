import OpGraph.Proofs.Pattern.Extension

namespace OpGraph

namespace Matcher

/-- What checking a pattern establishes about its binding order: it lists every pattern op once,
and each op that is not an output op comes after an op it feeds. -/
structure Ordered (m : Matcher) : Prop where
  perm : m.order.Perm (List.range m.pattern.opCount)
  reached : ∀ (i x : Nat), m.order[i]? = some x → x ∈ m.pattern.outputs ∨
    ∃ (j c : Nat), j < i ∧ m.order[j]? = some c ∧ x ∈ m.pattern.neighbours .backward c

theorem make_eq_ok {P : Graph} {R : Equivalences} {m : Matcher} (made : make P R = .ok m) :
    m.pattern = P ∧ m.tables = R ∧ m.Ordered := by
  unfold make at made
  split at made
  · cases made
  · dsimp only at made
    split at made
    · cases made
    · next length =>
      cases made
      obtain ⟨nodup, inRange, reached⟩ := Graph.bfs_reached P .backward P.outputs
      simp only [bne_iff_ne, ne_eq, Decidable.not_not] at length
      exact ⟨rfl, rfl, perm_range_iff.mpr ⟨length, nodup, inRange⟩, reached⟩

variable {m : Matcher}

theorem Ordered.lt (ordered : m.Ordered) {p : Nat} (member : p ∈ m.order) :
    p < m.pattern.opCount :=
  List.mem_range.mp (ordered.perm.mem_iff.mp member)

theorem Ordered.not_mem_take (ordered : m.Ordered) {cursor p : Nat}
    (atCursor : m.order[cursor]? = some p) : p ∉ m.order.take cursor := by
  intro member
  obtain ⟨j, bound, atJ⟩ := List.mem_take_iff_getElem.mp member
  have inside : j < m.order.length := by omega
  have same : m.order[j]? = m.order[cursor]? := by rw [atCursor, List.getElem?_eq_getElem inside, atJ]
  have := (List.getElem?_inj inside (ordered.perm.nodup_iff.mpr List.nodup_range)).mp same
  omega

theorem Ordered.take_lt (ordered : m.Ordered) {cursor p : Nat} (member : p ∈ m.order.take cursor) :
    p < m.pattern.opCount :=
  ordered.lt (List.mem_of_mem_take member)

theorem take_add_one_of_getElem? {l : List Nat} {i x : Nat} (atI : l[i]? = some x) :
    l.take (i + 1) = l.take i ++ [x] := by
  rw [List.take_add_one, atI]
  rfl

end Matcher

/-- A search state binding the pattern ops `dom`: it represents a partial embedding on them,
lists no pair twice and keeps its owner tables. -/
structure PartialMatch (R : Equivalences) (P S : Graph) (dom : List Nat) (b : Binding) : Prop where
  opsNodup : b.ops.Nodup
  tensorsNodup : b.tensors.Nodup
  owned : b.Owned
  embeds : ∃ f perm, PartialEmbedding R P S dom f perm ∧ RepresentsOn P S dom f perm b

section Sound

variable {m : Matcher} {S : Graph} {dom : List Nat} {b c : Binding} {p : Nat}

theorem PartialMatch.empty (R : Equivalences) (P S : Graph) : PartialMatch R P S [] Binding.empty where
  opsNodup := List.nodup_nil
  tensorsNodup := List.nodup_nil
  owned := Binding.owned_empty
  embeds := ⟨id, fun _ => [], ⟨by simp, by simp, by simp, by simp, by simp [OneToOne]⟩,
    ⟨by simp [Binding.empty], by simp [Binding.empty]⟩⟩

theorem PartialMatch.not_isBound {R : Equivalences} {P : Graph}
    (state : PartialMatch R P S dom b) (fresh : p ∉ dom) : b.isBound p = false := by
  obtain ⟨-, -, -, f, perm, -, represents⟩ := state
  exact List.any_eq_false.mpr fun y member same =>
    represents.fresh fresh y member (by simpa using same)

/-- Every child of a search state binds one more op as a partial embedding. -/
theorem PartialMatch.extend (state : PartialMatch m.tables m.pattern S dom b) (fresh : p ∉ dom)
    (child : c ∈ m.expand S b p) : PartialMatch m.tables m.pattern S (dom ++ [p]) c := by
  obtain ⟨opsNodup, tensorsNodup, owned, f, perm, embedding, represents⟩ := state
  obtain ⟨s, candidate, chosen⟩ := Matcher.mem_expand.mp child
  obtain ⟨bound, -, typed⟩ := Matcher.mem_candidates candidate
  -- the permutation the child was bound under; a wildcard's is never read
  obtain ⟨π, proposed, bind⟩ : ∃ π : Permutation, (isWildcard (m.pattern.opAt p) = false →
      π ∈ m.tables.proposals (m.pattern.opAt p) (S.opAt s)) ∧
      b.bind p s (if isWildcard (m.pattern.opAt p) then []
        else opPairs (m.pattern.opAt p) (S.opAt s) π) = some c := by
    rcases chosen with ⟨wild, bind⟩ | ⟨wild, π, proposed, -, bind⟩
    · exact ⟨[], fun tame => absurd (wild.symm.trans tame) (by decide), by rwa [wild, if_pos rfl]⟩
    · exact ⟨π, fun _ => proposed, by rwa [wild, if_neg Bool.false_ne_true]⟩
  have updated := represents.update fresh s π
  have bind' : b.bind p (Function.update f p s p)
      (pairsOf m.pattern S (Function.update f p s) (Function.update perm p π) p) = some c := by
    simpa only [pairsOf, Function.update_self] using bind
  obtain ⟨extended, opsC, tensorsC, ownedC, oneC, unclaimed⟩ :=
    updated.bind opsNodup tensorsNodup owned (represents.oneToOne embedding.oneToOne) fresh bind'
  rw [Function.update_self] at unclaimed
  have old : ∀ q ∈ dom, q ≠ p := fun q member same => fresh (same ▸ member)
  -- `s` was free, so no op of `dom` goes to it
  have avoids : ∀ q ∈ dom, f q ≠ s := fun q member mapped =>
    old q member (unclaimed q ((represents.ops _).mpr ⟨q, member, by rw [mapped]⟩))
  refine ⟨opsC, tensorsC, ownedC, Function.update f p s, Function.update perm p π,
    ⟨?_, ?_, ?_, ?_, ?_⟩, extended⟩
  · intro q member
    rcases List.mem_append.mp member with inDom | new
    · rw [Function.update_of_ne (old q inDom)]
      exact embedding.inRange q inDom
    · rw [List.mem_singleton.mp new, Function.update_self]
      exact bound
  · intro q qIn q' q'In same
    rcases List.mem_append.mp qIn with qDom | qNew <;>
      rcases List.mem_append.mp q'In with q'Dom | q'New
    · rw [Function.update_of_ne (old q qDom), Function.update_of_ne (old q' q'Dom)] at same
      exact embedding.injective q qDom q' q'Dom same
    · rw [Function.update_of_ne (old q qDom), List.mem_singleton.mp q'New,
        Function.update_self] at same
      exact absurd same (avoids q qDom)
    · rw [Function.update_of_ne (old q' q'Dom), List.mem_singleton.mp qNew,
        Function.update_self] at same
      exact absurd same.symm (avoids q' q'Dom)
    · rw [List.mem_singleton.mp qNew, List.mem_singleton.mp q'New]
  · intro q member tame
    rcases List.mem_append.mp member with inDom | new
    · rw [Function.update_of_ne (old q inDom), Function.update_of_ne (old q inDom)]
      exact embedding.admissible q inDom tame
    · obtain rfl := List.mem_singleton.mp new
      rw [Function.update_self, Function.update_self, Equivalences.admissible_acceptAll]
      exact proposed tame
  · intro q member output
    rcases List.mem_append.mp member with inDom | new
    · rw [Function.update_of_ne (old q inDom)]
      exact embedding.outputType q inDom output
    · obtain rfl := List.mem_singleton.mp new
      rw [Function.update_self]
      exact typed (List.contains_iff_mem.mpr output)
  · exact oneC.mono fun x member => (extended.tensors x).mpr member

/-- A complete state whose tensor pairs pass the producer check represents an embedding. -/
theorem PartialMatch.complete (ordered : m.Ordered)
    (state : PartialMatch m.tables m.pattern S m.order b)
    (preserves : m.preservesProducers S b = true) :
    ∃ f perm, Embedding m.tables m.pattern S f perm ∧ Represents m.pattern S f perm b := by
  obtain ⟨-, -, -, f, perm, embedding, represents⟩ := state
  have same : ∀ p, p ∈ m.order ↔ p ∈ List.range m.pattern.opCount :=
    fun p => ordered.perm.mem_iff
  have whole := represents.congr same
  refine ⟨f, perm, ⟨embedding.mono fun p member => (same p).mpr member, fun x paired => ?_⟩,
    whole⟩
  obtain ⟨pr, sr, atPr, atSr, boundTo⟩ :=
    Matcher.preservesProducers_iff.mp preserves x ((whole.tensors x).mpr paired)
  obtain ⟨q, -, pair⟩ := (whole.ops _).mp (mem_of_lookupPair boundTo)
  obtain ⟨rfl, mapped⟩ := Prod.mk.injEq _ _ _ _ ▸ pair
  exact ⟨pr, sr, atPr, atSr, mapped.symm⟩

end Sound

/-- Where an embedding's ops are bound, nothing is bound to the image of the op next in order. -/
theorem Embedding.image_unbound {m : Matcher} {S : Graph} {f : Nat → Nat}
    {perm : Nat → Permutation}
    (ordered : m.Ordered) (embedding : Embedding m.tables m.pattern S f perm) {cursor p : Nat}
    (atCursor : m.order[cursor]? = some p) {b : Binding}
    (represents : RepresentsOn m.pattern S (m.order.take cursor) f perm b) :
    ∀ y ∈ b.ops, y.2 ≠ f p :=
  represents.image_free (ordered.not_mem_take atCursor) fun q member same =>
    embedding.injective q (List.mem_range.mpr (ordered.take_lt member)) p
      (List.mem_range.mpr (ordered.lt (List.mem_of_getElem? atCursor))) same

section Follow

variable {m : Matcher} {S : Graph} {f : Nat → Nat} {perm : Nat → Permutation}
  (ordered : m.Ordered) (wf : m.tables.WellFormed) (validP : m.pattern.Valid) (validS : S.Valid)
  (embedding : Embedding m.tables m.pattern S f perm) (covers : Covers m.pattern S f)
include ordered wf validP validS embedding covers

/-- Where an embedding's ops are bound, the op next in order has its image among the candidates:
its paired outputs all lead to that image, and an op that is not an output op has one, paired when
the op it feeds was bound. -/
theorem Embedding.candidate {cursor p : Nat} (atCursor : m.order[cursor]? = some p) {b : Binding}
    (represents : RepresentsOn m.pattern S (m.order.take cursor) f perm b) (owned : b.Owned) :
    f p ∈ m.candidates S b p := by
  have pBound := ordered.lt (List.mem_of_getElem? atCursor)
  have whole := represents.within fun q member => ordered.take_lt member
  have imageFree := embedding.image_unbound ordered atCursor represents
  have free : b.isClaimed (f p) = false := by
    rw [← Bool.not_eq_true, owned.isClaimed_iff]
    rintro ⟨q, member⟩
    exact imageFree _ member rfl
  have agree : ∀ (t : Tensor) (slot : Nat) (st : String),
      (t, slot) ∈ (m.pattern.opAt p).outputs.zipIdx →
      b.subjectTensor? t.name = some st → ∃ loc, S.tensorRef? st = some loc ∧ loc.op = f p ∧
        (isWildcard (m.pattern.opAt p) = true ∨ loc.slot = slot) := by
    intro t slot st member paired
    exact embedding.paired_output validP validS pBound (List.mk_mem_zipIdx_iff_getElem?.mp member)
      (whole _ (mem_of_lookupPair paired))
  have scan := Matcher.pairedProducer_of_agree agree
  by_cases output : m.pattern.isOutput p = true
  · have typed := embedding.outputType p (List.mem_range.mpr pBound) (List.contains_iff_mem.mp output)
    cases any : (m.pattern.opAt p).outputs.zipIdx.any fun x => (b.subjectTensor? x.1.name).isSome
    · rw [any, if_neg Bool.false_ne_true] at scan
      exact Matcher.candidates_of_output scan output (embedding.inRange p (List.mem_range.mpr pBound))
        typed free
    · rw [any, if_pos rfl] at scan
      exact Matcher.candidates_of_producer scan (fun _ => typed) free
  -- an op that is not an output op feeds an op bound before it, which paired the operand it reads
  rcases ordered.reached cursor p atCursor with root | ⟨j, c, before, atJ, near⟩
  · exact absurd (List.contains_iff_mem.mpr root) output
  obtain ⟨t, input, r, atR, rfl⟩ := Graph.mem_neighbours_backward.mp near
  have cIn : c ∈ m.order.take cursor :=
    List.mem_iff_getElem?.mpr ⟨j, by rw [List.getElem?_take, if_pos before, atJ]⟩
  have cBound := ordered.take_lt cIn
  obtain ⟨i, atI⟩ := List.mem_iff_getElem?.mp input
  have tame : isWildcard (m.pattern.opAt c) = false := by
    have nonempty : (m.pattern.opAt c).inputs ≠ [] := List.ne_nil_of_mem input
    simp [isWildcard, nonempty]
  have proposed := Equivalences.admissible_acceptAll _ _ _ ▸
    embedding.admissible c (List.mem_range.mpr cBound) tame
  obtain ⟨k, atK⟩ := Equivalences.proposals_cover wf proposed (covers c cBound)
    (List.getElem?_eq_some_iff.mp atI).1
  have kBound := (Equivalences.proposals_inRange wf proposed atK).2
  have operand : (t, ((S.opAt (f c)).inputs[k])) ∈ b.tensors := by
    refine (represents.tensors _).mpr (List.mem_flatMap.mpr ⟨c, cIn, ?_⟩)
    simp only [pairsOf, tame, Bool.false_eq_true, if_false]
    exact mem_opPairs.mpr (Or.inl ⟨i, k, atK, atI, List.getElem?_eq_getElem kBound⟩)
  obtain ⟨-, tensor, atSlot, named⟩ := Graph.tensorRef?_eq_some atR
  have any : (m.pattern.opAt r.op).outputs.zipIdx.any (fun x => (b.subjectTensor? x.1.name).isSome) =
      true := by
    refine List.any_eq_true.mpr ⟨(tensor, r.slot), List.mk_mem_zipIdx_iff_getElem?.mpr atSlot, ?_⟩
    cases found : b.subjectTensor? tensor.name with
    | none => exact absurd named.symm (lookupPair_eq_none found _ operand)
    | some _ => rfl
  rw [any, if_pos rfl] at scan
  exact Matcher.candidates_of_producer scan (fun isOutput => absurd isOutput output) free

/-- Where an embedding's ops are bound, the search state has a child that binds the op next in
order as the embedding does. -/
theorem Embedding.extend {cursor p : Nat} (atCursor : m.order[cursor]? = some p) {b : Binding}
    (represents : RepresentsOn m.pattern S (m.order.take cursor) f perm b) (opsNodup : b.ops.Nodup)
    (tensorsNodup : b.tensors.Nodup) (owned : b.Owned) :
    ∃ c ∈ m.expand S b p, RepresentsOn m.pattern S (m.order.take (cursor + 1)) f perm c ∧
      c.ops.Nodup ∧ c.tensors.Nodup ∧ c.Owned := by
  have fresh := ordered.not_mem_take atCursor
  have pBound := ordered.lt (List.mem_of_getElem? atCursor)
  have whole := represents.within fun q member => ordered.take_lt member
  have one : OneToOne b.tensors := embedding.oneToOne.mono whole
  have own : ∀ x ∈ pairsOf m.pattern S f perm p,
      x ∈ (List.range m.pattern.opCount).flatMap (pairsOf m.pattern S f perm) :=
    fun x member => List.mem_flatMap.mpr ⟨p, List.mem_range.mpr pBound, member⟩
  have imageFree := embedding.image_unbound ordered atCursor represents
  have unclaimed : ∀ q, (q, f p) ∈ b.ops → q = p :=
    fun q member => absurd rfl (imageFree _ member)
  have candidate := embedding.candidate ordered wf validP validS covers atCursor represents owned
  obtain ⟨c, bound⟩ := Binding.bind_isSome owned unclaimed embedding.oneToOne whole own
  obtain ⟨extended, opsC, tensorsC, ownedC, -, -⟩ :=
    represents.bind opsNodup tensorsNodup owned one fresh bound
  refine ⟨c, Matcher.mem_expand.mpr ⟨f p, candidate, ?_⟩, ?_, opsC, tensorsC, ownedC⟩
  · cases wild : isWildcard (m.pattern.opAt p)
    case true =>
      exact Or.inl ⟨rfl, by simpa only [pairsOf, wild, if_pos] using bound⟩
    case false =>
      -- the embedding's own permutation lines the operands up with the pairs made so far
      have proposed := Equivalences.admissible_acceptAll _ _ _ ▸
        embedding.admissible p (List.mem_range.mpr pBound) wild
      refine Or.inr ⟨rfl, perm p, proposed, Binding.aligns_iff.mpr fun x member => ?_,
        by simpa only [pairsOf, wild, Bool.false_eq_true, if_false] using bound⟩
      obtain ⟨j, k⟩ := x
      have atK := List.mk_mem_zipIdx_iff_getElem?.mp member
      obtain ⟨jBound, kBound⟩ := Equivalences.proposals_inRange wf proposed atK
      refine ⟨_, _, List.getElem?_eq_getElem jBound, List.getElem?_eq_getElem kBound, ?_⟩
      refine (Binding.tensorAgrees_iff one owned.tensors).mpr fun y yIn =>
        embedding.oneToOne y (whole y yIn)
          ((m.pattern.opAt p).inputs[j], (S.opAt (f p)).inputs[k]) (own _ ?_)
      simp only [pairsOf, wild, Bool.false_eq_true, if_false]
      exact mem_opPairs.mpr (Or.inl ⟨_, _, atK, List.getElem?_eq_getElem jBound,
        List.getElem?_eq_getElem kBound⟩)
  · rwa [Matcher.take_add_one_of_getElem? atCursor]

end Follow

section Folds

variable {α : Type} {run : α → SearchTally → SearchTally}

/-- Running over children keeps a property of the tally that each run keeps. -/
theorem foldl_keeps (I : SearchTally → Prop) :
    ∀ (children : List α) (tally : SearchTally), (∀ c ∈ children, ∀ t, I t → I (run c t)) →
      I tally → I (children.foldl (fun t c => run c t) tally)
  | [], _, _, start => start
  | c :: rest, tally, keeps, start =>
    foldl_keeps I rest (run c tally) (fun c' member => keeps c' (List.mem_cons_of_mem _ member))
      (keeps c List.mem_cons_self tally start)

/-- Running over children reaches a property that the run of one child reaches from any tally with
an invariant, when every run keeps both. -/
theorem foldl_reaches (I Q : SearchTally → Prop) :
    ∀ (children : List α) (tally : SearchTally), (∀ c ∈ children, ∀ t, I t → I (run c t)) →
      (∀ c ∈ children, ∀ t, Q t → Q (run c t)) →
      ∀ c ∈ children, (∀ t, I t → Q (run c t)) → I tally →
      Q (children.foldl (fun t c => run c t) tally)
  | [], _, _, _, c, member, _, _ => absurd member List.not_mem_nil
  | c' :: rest, tally, keepsI, keepsQ, c, member, reaches, start => by
    rw [List.foldl_cons]
    have restI : ∀ c ∈ rest, ∀ t, I t → I (run c t) :=
      fun c inRest => keepsI c (List.mem_cons_of_mem _ inRest)
    rcases List.mem_cons.mp member with rfl | inRest
    · exact foldl_keeps Q rest _ (fun c inRest => keepsQ c (List.mem_cons_of_mem _ inRest))
        (reaches tally start)
    · exact foldl_reaches I Q rest _ restI
        (fun c inRest => keepsQ c (List.mem_cons_of_mem _ inRest))
        c inRest reaches (keepsI c' List.mem_cons_self tally start)

end Folds

/-- What the search keeps: bindings that each represent an embedding and list no pair twice, no two
of them with the same pairs. -/
structure Found (R : Equivalences) (P S : Graph) (found : List Binding) : Prop where
  embeds : ∀ b ∈ found, b.ops.Nodup ∧ b.tensors.Nodup ∧
    ∃ f perm, Embedding R P S f perm ∧ Represents P S f perm b
  distinct : found.Pairwise fun a b => a.samePairs b = false

theorem Found.nil (R : Equivalences) (P S : Graph) : Found R P S [] :=
  ⟨fun _ member => absurd member List.not_mem_nil, List.Pairwise.nil⟩

theorem Found.represents_once {R : Equivalences} {P S : Graph} {found : List Binding}
    (kept : Found R P S found) {f : Nat → Nat} {perm : Nat → Permutation} {i j : Nat}
    {bi bj : Binding} (atI : found[i]? = some bi) (atJ : found[j]? = some bj)
    (representsI : Represents P S f perm bi) (representsJ : Represents P S f perm bj) : i = j := by
  -- two representatives of one embedding hold the same pairs
  have same : ∀ {a c : Binding}, a ∈ found → c ∈ found → Represents P S f perm a →
      Represents P S f perm c → a.samePairs c = true := by
    intro a c aIn cIn representsA representsC
    obtain ⟨ao, at', -⟩ := kept.embeds a aIn
    obtain ⟨co, ct, -⟩ := kept.embeds c cIn
    exact (Binding.samePairs_iff ao co at' ct).mpr (representsA.sameMembers representsC)
  obtain ⟨iBound, rfl⟩ := List.getElem?_eq_some_iff.mp atI
  obtain ⟨jBound, rfl⟩ := List.getElem?_eq_some_iff.mp atJ
  have pairwise := List.pairwise_iff_getElem.mp kept.distinct
  by_contra apart
  rcases Nat.lt_or_gt_of_ne apart with before | after
  · have := pairwise i j iBound jBound before
    rw [same (List.getElem_mem iBound) (List.getElem_mem jBound) representsI representsJ] at this
    cases this
  · have := pairwise j i jBound iBound after
    rw [same (List.getElem_mem jBound) (List.getElem_mem iBound) representsJ representsI] at this
    cases this

section Runs

variable {m : Matcher} {S : Graph}

theorem explore_grows (m : Matcher) (S : Graph) :
    ∀ (remaining : Nat) (b : Binding) (cursor : Nat) (tally : SearchTally),
      ∀ x ∈ tally.found, x ∈ (m.explore S remaining b cursor tally).found
  | 0, b, cursor, tally, x, member => by
    simp only [Matcher.explore]
    split
    · exact List.mem_append_left _ member
    · exact member
  | remaining + 1, b, cursor, tally, x, member => by
    simp only [Matcher.explore]
    split
    · exact member
    · split
      · exact explore_grows m S remaining b (cursor + 1) _ x member
      · exact foldl_keeps (fun t => x ∈ t.found) _ _
          (fun c _ t kept => explore_grows m S remaining c (cursor + 1) t x kept) member

/-- Soundness: from a state binding the first ops of the order as a partial embedding, the search
keeps only bindings of embeddings, each once. -/
theorem explore_found (ordered : m.Ordered) :
    ∀ (remaining : Nat) (b : Binding) (cursor : Nat) (tally : SearchTally),
      cursor + remaining = m.order.length →
      PartialMatch m.tables m.pattern S (m.order.take cursor) b →
      Found m.tables m.pattern S tally.found →
      Found m.tables m.pattern S (m.explore S remaining b cursor tally).found
  | 0, b, cursor, tally, ended, state, kept => by
    rw [Nat.add_zero] at ended
    rw [ended, List.take_length] at state
    simp only [Matcher.explore]
    split
    · next recorded =>
      simp only [Bool.and_eq_true, Bool.not_eq_eq_eq_not, Bool.not_true, List.any_eq_false]
        at recorded
      obtain ⟨preserves, fresh⟩ := recorded
      refine ⟨fun x member => ?_, ?_⟩
      · rcases List.mem_append.mp member with old | new
        · exact kept.embeds x old
        · rw [List.mem_singleton.mp new]
          exact ⟨state.opsNodup, state.tensorsNodup, state.complete ordered preserves⟩
      · refine List.pairwise_append.mpr ⟨kept.distinct, List.pairwise_singleton _ _, ?_⟩
        intro a old c new
        rw [List.mem_singleton.mp new]
        simpa using fresh a old
    · exact kept
  | remaining + 1, b, cursor, tally, ended, state, kept => by
    have inside : cursor < m.order.length := by omega
    obtain ⟨p, atCursor⟩ : ∃ p, m.order[cursor]? = some p :=
      ⟨_, List.getElem?_eq_getElem inside⟩
    have fresh := ordered.not_mem_take atCursor
    simp only [Matcher.explore, atCursor, state.not_isBound fresh, Bool.false_eq_true, if_false]
    refine foldl_keeps (fun t => Found m.tables m.pattern S t.found) _ _
      (fun c child t found => ?_) kept
    refine explore_found ordered remaining c (cursor + 1) t (by omega) ?_ found
    rw [Matcher.take_add_one_of_getElem? atCursor]
    exact state.extend fresh child

theorem Embedding.preservesProducers {f : Nat → Nat} {perm : Nat → Permutation}
    (embedding : Embedding m.tables m.pattern S f perm) {b : Binding}
    (represents : Represents m.pattern S f perm b) : m.preservesProducers S b = true := by
  refine Matcher.preservesProducers_iff.mpr fun x member => ?_
  obtain ⟨pr, sr, atPr, atSr, mapped⟩ := embedding.producers x ((represents.tensors x).mp member)
  have bound : pr.op < m.pattern.opCount := (Graph.tensorRef?_eq_some atPr).1
  have pair : (pr.op, sr.op) ∈ b.ops :=
    (represents.ops _).mpr ⟨pr.op, List.mem_range.mpr bound, by rw [mapped]⟩
  refine ⟨pr, sr, atPr, atSr, lookupPair_eq_some_of_mem (fun y yIn key => ?_) pair⟩
  obtain ⟨q, -, rfl⟩ := (represents.ops y).mp yIn
  rw [← mapped, ← key]

end Runs

section Complete

variable {m : Matcher} {S : Graph} {f : Nat → Nat} {perm : Nat → Permutation}
  (ordered : m.Ordered) (wf : m.tables.WellFormed) (validP : m.pattern.Valid) (validS : S.Valid)
  (embedding : Embedding m.tables m.pattern S f perm) (covers : Covers m.pattern S f)
include ordered wf validP validS embedding covers

/-- Completeness: from a state holding exactly the pairs an embedding makes on the first ops of the
order, the search keeps a binding of the whole embedding. -/
theorem explore_finds :
    ∀ (remaining : Nat) (b : Binding) (cursor : Nat) (tally : SearchTally),
      cursor + remaining = m.order.length →
      RepresentsOn m.pattern S (m.order.take cursor) f perm b →
      b.ops.Nodup → b.tensors.Nodup → b.Owned → Found m.tables m.pattern S tally.found →
      ∃ x ∈ (m.explore S remaining b cursor tally).found, Represents m.pattern S f perm x
  | 0, b, cursor, tally, ended, represents, opsNodup, tensorsNodup, _, kept => by
    rw [Nat.add_zero] at ended
    rw [ended, List.take_length] at represents
    have whole : Represents m.pattern S f perm b := represents.congr fun p => ordered.perm.mem_iff
    have preserves := embedding.preservesProducers whole
    simp only [Matcher.explore]
    split
    · exact ⟨b, List.mem_append_right _ (List.mem_singleton_self b), whole⟩
    · next skipped =>
      -- a binding with the same pairs was kept before
      simp only [preserves, Bool.true_and, Bool.not_eq_true', Bool.not_eq_false] at skipped
      obtain ⟨x, member, same⟩ := List.any_eq_true.mp skipped
      obtain ⟨xo, xt, -⟩ := kept.embeds x member
      obtain ⟨ops, tensors⟩ := (Binding.samePairs_iff xo opsNodup xt tensorsNodup).mp same
      exact ⟨x, member, whole.of_sameMembers ops tensors⟩
  | remaining + 1, b, cursor, tally, ended, represents, opsNodup, tensorsNodup, owned, kept => by
    have inside : cursor < m.order.length := by omega
    obtain ⟨p, atCursor⟩ : ∃ p, m.order[cursor]? = some p :=
      ⟨_, List.getElem?_eq_getElem inside⟩
    have fresh := ordered.not_mem_take atCursor
    have state : PartialMatch m.tables m.pattern S (m.order.take cursor) b :=
      ⟨opsNodup, tensorsNodup, owned, f, perm, embedding.mono fun q member =>
        List.mem_range.mpr (ordered.take_lt member), represents⟩
    obtain ⟨c, child, extended, opsC, tensorsC, ownedC⟩ :=
      embedding.extend ordered wf validP validS covers atCursor represents opsNodup tensorsNodup
        owned
    simp only [Matcher.explore, atCursor, state.not_isBound fresh, Bool.false_eq_true, if_false]
    refine foldl_reaches (fun t => Found m.tables m.pattern S t.found)
      (fun t => ∃ x ∈ t.found, Represents m.pattern S f perm x) _ _ ?keeps ?grows c child ?reaches
      kept
    case keeps =>
      intro c' child' t found
      refine explore_found ordered remaining c' (cursor + 1) t (by omega) ?_ found
      rw [Matcher.take_add_one_of_getElem? atCursor]
      exact state.extend fresh child'
    case grows =>
      rintro c' - t ⟨x, member, whole⟩
      exact ⟨x, explore_grows m S remaining c' (cursor + 1) t x member, whole⟩
    case reaches =>
      intro t found
      exact explore_finds remaining c (cursor + 1) t (by omega) extended opsC tensorsC ownedC found

end Complete

/-- The search lists bindings of embeddings only, no embedding twice, and every embedding whose
pattern ops have at most as many operands as their images. -/
theorem matchAll_lists_each_embedding_once {P S : Graph} {R : Equivalences} {m : Matcher}
    (made : Matcher.make P R = .ok m) (validP : P.Valid) (validS : S.Valid) (wf : R.WellFormed) :
    ∃ found : List Binding, (m.matchAll S).value = found.map (GraphMatch.ofBinding P S) ∧
      (∀ b ∈ found, ∃ f perm, Embedding R P S f perm ∧ Represents P S f perm b) ∧
      (∀ (f : Nat → Nat) (perm : Nat → Permutation) (i j : Nat) (bi bj : Binding),
        found[i]? = some bi → found[j]? = some bj →
        Represents P S f perm bi → Represents P S f perm bj → i = j) ∧
      (∀ (f : Nat → Nat) (perm : Nat → Permutation), Embedding R P S f perm → Covers P S f →
        ∃ b ∈ found, Represents P S f perm b) := by
  obtain ⟨rfl, rfl, ordered⟩ := Matcher.make_eq_ok made
  unfold Matcher.matchAll
  cases absent : (m.pattern.outputs.map m.pattern.opAt).find?
      fun op => (S.idsOfType op.opType).isEmpty with
  | some op =>
    -- an output op of a type the subject lacks has no image, so there is no embedding
    refine ⟨[], rfl, by simp, by simp, fun f perm embedding _ => absurd absent ?_⟩
    intro found
    obtain ⟨q, output, rfl⟩ := List.mem_map.mp (List.mem_of_find?_eq_some found)
    have qBound : q ∈ List.range m.pattern.opCount :=
      List.mem_range.mpr (validP.outputsInRange q output)
    have image := Graph.mem_idsOfType.mpr
      ⟨embedding.inRange q qBound, embedding.outputType q qBound output⟩
    have empty := List.find?_some found
    rw [List.isEmpty_iff] at empty
    rw [empty] at image
    exact List.not_mem_nil image
  | none =>
    have kept := explore_found ordered m.order.length Binding.empty 0 ⟨[], 0⟩ (Nat.zero_add _)
      (PartialMatch.empty m.tables m.pattern S) (Found.nil m.tables m.pattern S)
    refine ⟨_, rfl, fun b member => (kept.embeds b member).2.2,
      fun f perm i j bi bj atI atJ => kept.represents_once atI atJ,
      fun f perm embedding covers => ?_⟩
    exact explore_finds ordered wf validP validS embedding covers m.order.length Binding.empty 0
      ⟨[], 0⟩ (Nat.zero_add _) ⟨by simp [Binding.empty], by simp [Binding.empty]⟩ List.nodup_nil
      List.nodup_nil Binding.owned_empty (Found.nil m.tables m.pattern S)

def plainTensor (name : String) : Tensor := ⟨name, .float, ⟨none⟩⟩

/-- `x + y` over two wildcards. -/
def addPattern : Graph :=
  ⟨#[⟨"x", "Placeholder", [], [plainTensor "x:0"], []⟩,
     ⟨"y", "Placeholder", [], [plainTensor "y:0"], []⟩,
     ⟨"a", "Add", ["x:0", "y:0"], [plainTensor "a:0"], []⟩], [0, 1, 2], [2], ⟨[]⟩⟩

/-- `relu (p + q)`: the pattern occurs once for each order of the operands. -/
def addSubject : Graph :=
  ⟨#[⟨"p", "Placeholder", [], [plainTensor "p:0"], []⟩,
     ⟨"q", "Placeholder", [], [plainTensor "q:0"], []⟩,
     ⟨"s", "Add", ["p:0", "q:0"], [plainTensor "s:0"], []⟩,
     ⟨"r", "Relu", ["s:0"], [plainTensor "r:0"], []⟩], [0, 1, 2, 3], [3], ⟨[]⟩⟩

def addMatcher : Matcher := ⟨addPattern, Equivalences.defaults, [2, 0, 1]⟩

theorem addPattern_matched_both_ways :
    Matcher.make addPattern Equivalences.defaults = .ok addMatcher ∧ addPattern.Valid ∧
      addSubject.Valid ∧ Equivalences.defaults.WellFormed ∧
      (addMatcher.matchAll addSubject).value.length = 2 ∧
      ∃ found : List Binding,
        (addMatcher.matchAll addSubject).value =
          found.map (GraphMatch.ofBinding addPattern addSubject) ∧
        (∀ b ∈ found, ∃ f perm, Embedding Equivalences.defaults addPattern addSubject f perm ∧
          Represents addPattern addSubject f perm b) ∧
        (∀ (f : Nat → Nat) (perm : Nat → Permutation) (i j : Nat) (bi bj : Binding),
          found[i]? = some bi → found[j]? = some bj →
          Represents addPattern addSubject f perm bi → Represents addPattern addSubject f perm bj →
          i = j) ∧
        (∀ (f : Nat → Nat) (perm : Nat → Permutation),
          Embedding Equivalences.defaults addPattern addSubject f perm →
          Covers addPattern addSubject f →
          ∃ b ∈ found, Represents addPattern addSubject f perm b) := by
  have made : Matcher.make addPattern Equivalences.defaults = .ok addMatcher := rfl
  have validP : addPattern.Valid :=
    ⟨by decide, by decide, by decide, by decide, by decide, by decide⟩
  have validS : addSubject.Valid :=
    ⟨by decide, by decide, by decide, by decide, by decide, by decide⟩
  have twice : (addMatcher.matchAll addSubject).value.length = 2 := by decide +kernel
  exact ⟨made, validP, validS, Equivalences.defaults_wellFormed, twice,
    matchAll_lists_each_embedding_once made validP validS Equivalences.defaults_wellFormed⟩

/-- A matrix product of three wildcards under a rectifier. -/
def matmulPattern : Graph :=
  ⟨#[⟨"x", "Placeholder", [], [plainTensor "x:0"], []⟩,
     ⟨"y", "Placeholder", [], [plainTensor "y:0"], []⟩,
     ⟨"z", "Placeholder", [], [plainTensor "z:0"], []⟩,
     ⟨"m", "MatMul", ["x:0", "y:0", "z:0"], [plainTensor "m:0"], []⟩,
     ⟨"r", "Relu", ["m:0"], [plainTensor "r:0"], []⟩], [0, 1, 2, 3, 4], [4], ⟨[]⟩⟩

/-- A quantized product of two inputs under a rectifier, beside an unused input. -/
def quantizedSubject : Graph :=
  ⟨#[⟨"p1", "Placeholder", [], [plainTensor "p1:0"], []⟩,
     ⟨"p2", "Placeholder", [], [plainTensor "p2:0"], []⟩,
     ⟨"q", "QuantizedMatMul", ["p1:0", "p2:0"], [plainTensor "q:0"], []⟩,
     ⟨"rr", "Relu", ["q:0"], [plainTensor "rr:0"], []⟩,
     ⟨"extra", "Placeholder", [], [plainTensor "extra:0"], []⟩], [0, 1, 4, 2, 3], [3], ⟨[]⟩⟩

def matmulMatcher : Matcher := ⟨matmulPattern, Equivalences.defaults, [4, 3, 0, 1, 2]⟩

/-- The product's three operands against the quantized product's two: sending the third wildcard to
the unused input is an embedding, but the product pairs two operands only, so the search never
reaches the third wildcard and finds nothing. -/
theorem matmul_embedding_not_found :
    Matcher.make matmulPattern Equivalences.defaults = .ok matmulMatcher ∧
      Embedding Equivalences.defaults matmulPattern quantizedSubject
        (fun p => [0, 1, 4, 2, 3].getD p 0) (fun p => if p = 3 then [0, 1] else [0]) ∧
      ¬ Covers matmulPattern quantizedSubject (fun p => [0, 1, 4, 2, 3].getD p 0) ∧
      (matmulMatcher.matchAll quantizedSubject).value = [] := by
  refine ⟨rfl, by decide +kernel, fun covers => absurd (covers 3 (by decide)) (by decide), ?_⟩
  decide +kernel

end OpGraph
