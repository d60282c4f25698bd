import OpGraph.Proofs.Graph.MetaTable
import OpGraph.Graph.Query

namespace OpGraph

theorem hasDoubleUnderscore_tail {c : Char} {rest : List Char}
    (single : hasDoubleUnderscore (c :: rest) = false) : hasDoubleUnderscore rest = false := by
  cases rest with
  | nil => rfl
  | cons d rest =>
    by_cases first : c = '_' <;> by_cases second : d = '_' <;> simp_all [hasDoubleUnderscore]

theorem hasDoubleUnderscore_sep (rest : List Char) :
    hasDoubleUnderscore ('_' :: '_' :: rest) = true := rfl

/-- A separator at the front of one list meets the separator after a word without two underscores
in a row at the front, or one underscore later. -/
theorem sep_eq_append_sep {b x y : List Char} (single : hasDoubleUnderscore b = false)
    (same : '_' :: '_' :: x = b ++ '_' :: '_' :: y) : (b = [] ∧ x = y) ∨ (b = ['_'] ∧ x = '_' :: y) := by
  match b, same with
  | [], same => exact .inl ⟨rfl, by simpa using same⟩
  | [c], same =>
    simp only [List.cons_append, List.nil_append, List.cons.injEq] at same
    obtain ⟨rfl, -, rfl⟩ := same
    exact .inr ⟨rfl, rfl⟩
  | c :: d :: rest, same =>
    -- the word would start with two underscores
    simp only [List.cons_append, List.cons.injEq] at same
    obtain ⟨rfl, rfl, -⟩ := same
    rw [hasDoubleUnderscore_sep] at single
    cases single

/-- Two words without two underscores in a row, each followed by a separator, end in the same list
exactly when the separators stand at the same place or one underscore apart. The induction runs
along the common start of the two words. -/
theorem append_sep_eq_iff {a b x y : List Char} (singleA : hasDoubleUnderscore a = false)
    (singleB : hasDoubleUnderscore b = false) :
    a ++ '_' :: '_' :: x = b ++ '_' :: '_' :: y ↔
      (a = b ∧ x = y) ∨ (b = a ++ ['_'] ∧ x = '_' :: y) ∨ (a = b ++ ['_'] ∧ y = '_' :: x) := by
  constructor
  · intro same
    induction a generalizing b with
    | nil =>
      rcases sep_eq_append_sep singleB same with ⟨rfl, rfl⟩ | ⟨rfl, rfl⟩
      · exact .inl ⟨rfl, rfl⟩
      · exact .inr (.inl ⟨rfl, rfl⟩)
    | cons c a ih =>
      cases b with
      | nil =>
        rcases sep_eq_append_sep singleA same.symm with ⟨empty, _⟩ | ⟨one, rfl⟩
        · simp at empty
        · exact .inr (.inr ⟨one, rfl⟩)
      | cons d b =>
        simp only [List.cons_append, List.cons.injEq] at same
        obtain ⟨rfl, rest⟩ := same
        rcases ih (hasDoubleUnderscore_tail singleA) (hasDoubleUnderscore_tail singleB) rest with
          ⟨rfl, rfl⟩ | ⟨rfl, rfl⟩ | ⟨rfl, rfl⟩
        · exact .inl ⟨rfl, rfl⟩
        · exact .inr (.inl ⟨rfl, rfl⟩)
        · exact .inr (.inr ⟨rfl, rfl⟩)
  · rintro (⟨rfl, rfl⟩ | ⟨rfl, rfl⟩ | ⟨rfl, rfl⟩) <;> simp

namespace Namespace

theorem hasDoubleUnderscore_name (ns : Namespace) : hasDoubleUnderscore ns.name.toList = false := by
  have valid := ns.valid
  simp only [isValidName, Bool.and_eq_true, Bool.not_eq_true'] at valid
  exact valid.2

/-- Namespace `n₂` is `n₁` with one more underscore at the end, and kind `k₁` is `k₂` with one more
at the front: both pairs render as the same key. -/
def Shifted (n₁ : Namespace) (k₁ : String) (n₂ : Namespace) (k₂ : String) : Prop :=
  n₂.name = n₁.name ++ "_" ∧ k₁ = "_" ++ k₂

theorem toList_key (ns : Namespace) (kind : String) :
    (ns.key kind).toList = ns.name.toList ++ '_' :: '_' :: kind.toList := by
  simp [key, String.toList_append]

/-- Two keys are equal exactly when they render the same pair, or pairs one underscore apart. -/
theorem key_eq_key_iff {n₁ n₂ : Namespace} {k₁ k₂ : String} :
    n₁.key k₁ = n₂.key k₂ ↔ (n₁ = n₂ ∧ k₁ = k₂) ∨ n₁.Shifted k₁ n₂ k₂ ∨ n₂.Shifted k₂ n₁ k₁ := by
  have names : n₁ = n₂ ↔ n₁.name.toList = n₂.name.toList :=
    ⟨fun same => by rw [same], fun same => eq_of_name (String.toList_inj.mp same)⟩
  have kinds : ∀ {k k' : String}, k = k' ↔ k.toList = k'.toList := String.toList_inj.symm
  have shifted : ∀ {n n' : Namespace} {k k' : String}, n.Shifted k n' k' ↔
      n'.name.toList = n.name.toList ++ ['_'] ∧ k.toList = '_' :: k'.toList := by
    intro n n' k k'
    simp only [Shifted, ← String.toList_inj, String.toList_append]
    rfl
  rw [← String.toList_inj, toList_key, toList_key,
    append_sep_eq_iff n₁.hasDoubleUnderscore_name n₂.hasDoubleUnderscore_name, names, kinds,
    shifted, shifted]

end Namespace

namespace Metadata

/-- In a sorted table, two entries with the same key are the same entry. -/
theorem Sorted.eq_of_key {m : Metadata} (sorted : m.Sorted) {e e' : MetaEntry}
    (member : e ∈ m.entries) (member' : e' ∈ m.entries) (same : e.key = e'.key) : e = e' := by
  obtain ⟨entries⟩ := m
  induction entries with
  | nil => cases member
  | cons a rest ih =>
    obtain ⟨first, sortedRest⟩ := List.pairwise_cons.mp sorted
    rcases List.mem_cons.mp member with rfl | later <;>
      rcases List.mem_cons.mp member' with rfl | later'
    · rfl
    · exact absurd same (ne_of_lt (first e' later'))
    · exact absurd same.symm (ne_of_lt (first e later))
    · exact ih sortedRest later later'

theorem Sorted.forOp_pairwise {m : Metadata} (sorted : m.Sorted) (op : Nat) :
    (m.forOp op).Pairwise fun a b => a.key < b.key :=
  sorted.sublist List.filter_sublist

/-- Entries of one op with the same namespace and kind are the same entry. -/
theorem Sorted.eq_of_pair {m : Metadata} (sorted : m.Sorted) {op : Nat} {e e' : MetaEntry}
    (member : e ∈ m.forOp op) (member' : e' ∈ m.forOp op) (names : e.ns = e'.ns)
    (kinds : e.kind = e'.kind) : e = e' := by
  have ops : e.op = e'.op := by
    simp only [Metadata.forOp, List.mem_filter, beq_iff_eq] at member member'
    rw [member.2, member'.2]
  refine sorted.eq_of_key (List.mem_of_mem_filter member) (List.mem_of_mem_filter member') ?_
  unfold MetaEntry.key
  rw [ops, names, kinds]

end Metadata

/-- A search finds the one element that passes it. -/
theorem find?_eq_of_unique {α : Type} {p : α → Bool} {l : List α} {x : α} (member : x ∈ l)
    (passes : p x = true) (only : ∀ y ∈ l, p y = true → y = x) : l.find? p = some x := by
  cases found : l.find? p with
  | none => simp [List.find?_eq_none.mp found x member] at passes
  | some y => rw [only y (List.mem_of_find?_eq_some found) (List.find?_some found)]

namespace Graph

/-- The entries of one op in a sorted table name distinct pairs of namespace and kind. -/
theorem nodup_forOp_pairs {g : Graph} (sorted : g.metadata.Sorted) (id : Nat) :
    ((g.metadata.forOp id).map fun e => (e.ns, e.kind)).Nodup := by
  rw [List.nodup_map_iff_inj_on ((sorted.forOp_pairwise id).imp fun {a _} before => by
    rintro rfl
    exact lt_irrefl a.key before)]
  intro e member e' member' pairs
  simp only [Prod.mk.injEq] at pairs
  exact sorted.eq_of_pair member member' pairs.1 pairs.2

theorem viewAt_keys (g : Graph) (id : Nat) :
    (g.viewAt id).metadata.map (·.1) = (g.metadata.forOp id).map fun e => e.ns.key e.kind := by
  simp [viewAt, Function.comp_def]

/-- The keys of an op's view are distinct exactly when no two of its entries are one underscore
apart. -/
theorem nodup_viewAt_keys_iff {g : Graph} (sorted : g.metadata.Sorted) (id : Nat) :
    ((g.viewAt id).metadata.map (·.1)).Nodup ↔
      ∀ e ∈ g.metadata.forOp id, ∀ e' ∈ g.metadata.forOp id, ¬ e.ns.Shifted e.kind e'.ns e'.kind := by
  have distinct : (g.metadata.forOp id).Nodup := (nodup_forOp_pairs sorted id).of_map _
  rw [viewAt_keys, List.nodup_map_iff_inj_on distinct]
  constructor
  · intro injective e member e' member' shifted
    have same := injective e member e' member' (Namespace.key_eq_key_iff.mpr (.inr (.inl shifted)))
    -- a namespace is not itself with one more underscore
    have longer := congrArg String.length shifted.1
    rw [same] at longer
    simp at longer
  · intro unshifted e member e' member' keys
    rcases Namespace.key_eq_key_iff.mp keys with ⟨names, kinds⟩ | shifted | shifted
    · exact sorted.eq_of_pair member member' names kinds
    · exact absurd shifted (unshifted e member e' member')
    · exact absurd shifted (unshifted e' member' e member)

/-- A key that no other entry of the op renders looks up the value stored under its pair. -/
theorem meta?_viewAt_key {g : Graph} (sorted : g.metadata.Sorted) {id : Nat} {e : MetaEntry}
    (member : e ∈ g.metadata.forOp id)
    (unshifted : ∀ e' ∈ g.metadata.forOp id,
      ¬ e.ns.Shifted e.kind e'.ns e'.kind ∧ ¬ e'.ns.Shifted e'.kind e.ns e.kind) :
    (g.viewAt id).meta? (e.ns.key e.kind) = some e.value := by
  -- the entry is the only one of the op whose key matches
  have only : ∀ e' ∈ g.metadata.forOp id, e'.ns.key e'.kind = e.ns.key e.kind → e' = e := by
    intro e' member' keys
    rcases Namespace.key_eq_key_iff.mp keys with ⟨names, kinds⟩ | shifted | shifted
    · exact sorted.eq_of_pair member' member names kinds
    · exact absurd shifted (unshifted e' member').2
    · exact absurd shifted (unshifted e' member').1
  have found : ((g.metadata.forOp id).map fun e => (e.ns.key e.kind, e.value)).find?
      (·.1 == e.ns.key e.kind) = some (e.ns.key e.kind, e.value) := by
    refine find?_eq_of_unique (List.mem_map_of_mem member) (by simp) fun pair listed keys => ?_
    obtain ⟨e', member', rfl⟩ := List.mem_map.mp listed
    rw [only e' member' (by simpa using keys)]
  have listed : (g.viewAt id).metadata = (g.metadata.forOp id).map fun e => (e.ns.key e.kind, e.value) :=
    rfl
  rw [OpView.meta?, listed, found]
  rfl

end Graph

/-- Rendered keys meet only across an underscore: two keys are equal exactly when their pairs are
equal or one underscore apart, and in a sorted table an op's keys are distinct exactly when none of
its pairs are; a key no other entry renders looks up its own pair's value. -/
theorem rendered_keys_meet_only_across_an_underscore (n₁ n₂ : Namespace) (k₁ k₂ : String)
    (g : Graph) (sorted : g.metadata.Sorted) (id : Nat) :
    (n₁.key k₁ = n₂.key k₂ ↔ (n₁ = n₂ ∧ k₁ = k₂) ∨ n₁.Shifted k₁ n₂ k₂ ∨ n₂.Shifted k₂ n₁ k₁) ∧
      ((g.metadata.forOp id).map fun e => (e.ns, e.kind)).Nodup ∧
      (((g.viewAt id).metadata.map (·.1)).Nodup ↔
        ∀ e ∈ g.metadata.forOp id, ∀ e' ∈ g.metadata.forOp id, ¬ e.ns.Shifted e.kind e'.ns e'.kind) ∧
      ∀ e ∈ g.metadata.forOp id,
        (∀ e' ∈ g.metadata.forOp id,
          ¬ e.ns.Shifted e.kind e'.ns e'.kind ∧ ¬ e'.ns.Shifted e'.kind e.ns e.kind) →
        (g.viewAt id).meta? (e.ns.key e.kind) = some e.value :=
  ⟨Namespace.key_eq_key_iff, Graph.nodup_forOp_pairs sorted id, Graph.nodup_viewAt_keys_iff sorted id,
    fun _ member unshifted => Graph.meta?_viewAt_key sorted member unshifted⟩

/-- The namespace `quant`, and the same with a trailing underscore. -/
def quantNs : Namespace := ⟨"quant", by decide⟩

def quantTrailingNs : Namespace := ⟨"quant_", by decide⟩

/-- One op with an entry in each of the two namespaces, the kinds one underscore apart. -/
def clashGraph : Graph :=
  ⟨#[⟨"x", "Placeholder", [], [⟨"x:0", .float, ⟨none⟩⟩], []⟩], [0], [0],
    ⟨[⟨0, quantNs, "_range", .int 1⟩, ⟨0, quantTrailingNs, "range", .int 2⟩]⟩⟩

theorem clashGraph_view_repeats_key :
    clashGraph.metadata.Sorted ∧ quantNs.key "_range" = quantTrailingNs.key "range" ∧
      ¬ ((clashGraph.viewAt 0).metadata.map (·.1)).Nodup := by
  have sorted : clashGraph.metadata.Sorted := by decide
  obtain ⟨keys, -, distinct, -⟩ := rendered_keys_meet_only_across_an_underscore quantNs
    quantTrailingNs "_range" "range" clashGraph sorted 0
  have shifted : quantNs.Shifted "_range" quantTrailingNs "range" := ⟨by decide, by decide⟩
  refine ⟨sorted, keys.mpr (.inr (.inl shifted)), fun nodup => ?_⟩
  exact distinct.mp nodup ⟨0, quantNs, "_range", .int 1⟩ (by decide)
    ⟨0, quantTrailingNs, "range", .int 2⟩ (by decide) shifted

/-- Two distinct namespaces, one underscore apart, render the same key with kinds one underscore
apart. -/
theorem trailing_underscore_keys_collide :
    quantNs.key "_range" = quantTrailingNs.key "range" ∧ quantNs ≠ quantTrailingNs := by
  decide

end OpGraph
