import OpGraph.Proofs.Graph.Build
import Mathlib.Data.String.Basic
import Mathlib.Data.Prod.Lex

namespace OpGraph

theorem Namespace.eq_of_name {a b : Namespace} (same : a.name = b.name) : a = b := by
  cases a
  cases b
  simp_all

namespace MetaEntry

/-- The key of an entry, in the order of the table. -/
def key (e : MetaEntry) : Nat ×ₗ (String ×ₗ String) := toLex (e.op, toLex (e.ns.name, e.kind))

/-- The key of an op id, namespace and kind. -/
def keyOf (op : Nat) (ns : Namespace) (kind : String) : Nat ×ₗ (String ×ₗ String) :=
  toLex (op, toLex (ns.name, kind))

@[simp] theorem keyOf_entry (e : MetaEntry) : keyOf e.op e.ns e.kind = e.key := rfl

theorem keyBefore_eq_true_iff {a : MetaEntry} {op : Nat} {ns : Namespace} {kind : String} :
    a.keyBefore op ns kind = true ↔ a.key < keyOf op ns kind := by
  simp [keyBefore, key, keyOf, Prod.Lex.toLex_lt_toLex]

theorem hasKey_eq_true_iff {a : MetaEntry} {op : Nat} {ns : Namespace} {kind : String} :
    a.hasKey op ns kind = true ↔ a.key = keyOf op ns kind := by
  simp [hasKey, key, keyOf, and_assoc]

end MetaEntry

namespace Metadata

open MetaEntry

/-- The entries are strictly sorted by key, so each key is held once. -/
def Sorted (m : Metadata) : Prop := m.entries.Pairwise fun a b => a.key < b.key

instance (m : Metadata) : Decidable m.Sorted :=
  inferInstanceAs (Decidable (m.entries.Pairwise fun a b => a.key < b.key))

theorem sorted_empty : empty.Sorted := List.Pairwise.nil

theorem insertEntry_of_sameKey {e a : MetaEntry} (rest : List MetaEntry) (same : a.key = e.key) :
    insertEntry e (a :: rest) = (e :: rest, some a.value) := by
  simp [insertEntry, hasKey_eq_true_iff.mpr same]

theorem insertEntry_of_lt {e a : MetaEntry} (rest : List MetaEntry) (before : a.key < e.key) :
    insertEntry e (a :: rest) = (a :: (insertEntry e rest).1, (insertEntry e rest).2) := by
  simp [insertEntry, hasKey_eq_true_iff, keyBefore_eq_true_iff.mpr before, ne_of_lt before]

theorem insertEntry_of_gt {e a : MetaEntry} (rest : List MetaEntry) (after : e.key < a.key) :
    insertEntry e (a :: rest) = (e :: a :: rest, none) := by
  simp [insertEntry, hasKey_eq_true_iff, keyBefore_eq_true_iff, ne_of_gt after,
    not_lt_of_gt after]

/-- The entries after an insert: the new entry, and the old ones with another key. -/
theorem mem_insertEntry {e : MetaEntry} {l : List MetaEntry}
    (sorted : l.Pairwise fun a b => a.key < b.key) {x : MetaEntry} :
    x ∈ (insertEntry e l).1 ↔ x = e ∨ (x ∈ l ∧ x.key ≠ e.key) := by
  induction l with
  | nil => simp [insertEntry]
  | cons a rest ih =>
    obtain ⟨below, sortedRest⟩ := List.pairwise_cons.mp sorted
    rcases lt_trichotomy a.key e.key with before | same | after
    · rw [insertEntry_of_lt rest before, List.mem_cons, ih sortedRest, List.mem_cons]
      constructor
      · rintro (rfl | rfl | ⟨member, other⟩)
        · exact Or.inr ⟨Or.inl rfl, ne_of_lt before⟩
        · exact Or.inl rfl
        · exact Or.inr ⟨Or.inr member, other⟩
      · rintro (rfl | ⟨rfl | member, other⟩)
        · exact Or.inr (Or.inl rfl)
        · exact Or.inl rfl
        · exact Or.inr (Or.inr ⟨member, other⟩)
    · -- the rest lies after `a`, so none of it has the key of `e`
      rw [insertEntry_of_sameKey rest same, List.mem_cons, List.mem_cons]
      constructor
      · rintro (rfl | member)
        · exact Or.inl rfl
        · exact Or.inr ⟨Or.inr member, ne_of_gt (same ▸ below x member)⟩
      · rintro (rfl | ⟨rfl | member, other⟩)
        · exact Or.inl rfl
        · exact absurd same other
        · exact Or.inr member
    · -- `e` goes first, before every old entry
      rw [insertEntry_of_gt rest after, List.mem_cons]
      constructor
      · rintro (rfl | member)
        · exact Or.inl rfl
        · refine Or.inr ⟨member, ?_⟩
          rcases List.mem_cons.mp member with rfl | later
          · exact ne_of_gt after
          · exact ne_of_gt (after.trans (below x later))
      · rintro (rfl | ⟨member, _⟩)
        · exact Or.inl rfl
        · exact Or.inr member

theorem sorted_insertEntry (e : MetaEntry) {l : List MetaEntry}
    (sorted : l.Pairwise fun a b => a.key < b.key) :
    (insertEntry e l).1.Pairwise fun a b => a.key < b.key := by
  induction l with
  | nil => simp [insertEntry]
  | cons a rest ih =>
    obtain ⟨below, sortedRest⟩ := List.pairwise_cons.mp sorted
    rcases lt_trichotomy a.key e.key with before | same | after
    · rw [insertEntry_of_lt rest before]
      refine List.pairwise_cons.mpr ⟨fun x member => ?_, ih sortedRest⟩
      rcases (mem_insertEntry sortedRest).mp member with rfl | ⟨later, _⟩
      · exact before
      · exact below x later
    · rw [insertEntry_of_sameKey rest same]
      exact List.pairwise_cons.mpr ⟨fun x member => same ▸ below x member, sortedRest⟩
    · rw [insertEntry_of_gt rest after]
      exact List.pairwise_cons.mpr ⟨fun x member => by
        rcases List.mem_cons.mp member with rfl | later
        · exact after
        · exact after.trans (below x later), sorted⟩

theorem insert_fst (m : Metadata) (op : Nat) (ns : Namespace) (kind : String) (v : MetaValue) :
    (m.insert op ns kind v).1 = ⟨(insertEntry ⟨op, ns, kind, v⟩ m.entries).1⟩ := by
  simp [insert]

theorem Sorted.insert {m : Metadata} (sorted : m.Sorted) (op : Nat) (ns : Namespace)
    (kind : String) (v : MetaValue) : (m.insert op ns kind v).1.Sorted :=
  sorted_insertEntry _ sorted

theorem insertEntry_of_forall_lt {e : MetaEntry} {l : List MetaEntry}
    (after : ∀ a ∈ l, a.key < e.key) : insertEntry e l = (l ++ [e], none) := by
  induction l with
  | nil => rfl
  | cons a rest ih =>
    rw [insertEntry_of_lt rest (after a List.mem_cons_self),
      ih fun x member => after x (List.mem_cons_of_mem a member)]
    rfl

theorem op_eq_of_key {e : MetaEntry} {op : Nat} {ns : Namespace} {kind : String}
    (keyed : e.key = keyOf op ns kind) : e.op = op :=
  congrArg (fun k => (ofLex k).1) keyed

theorem get?_eq (m : Metadata) (op : Nat) (ns : Namespace) (kind : String) :
    m.get? op ns kind = (m.entries.find? fun e => decide (e.key = keyOf op ns kind)).map (·.value) := by
  simp only [get?, ← hasKey_eq_true_iff, Bool.decide_eq_true]

theorem find?_insertEntry (e : MetaEntry) (k : Nat ×ₗ (String ×ₗ String)) :
    ∀ l : List MetaEntry, ((insertEntry e l).1.find? fun a => decide (a.key = k)).map (·.value) =
      if e.key = k then some e.value else (l.find? fun a => decide (a.key = k)).map (·.value)
  | [] => by by_cases hit : e.key = k <;> simp [insertEntry, hit]
  | a :: rest => by
    rcases lt_trichotomy a.key e.key with before | same | after
    · rw [insertEntry_of_lt rest before]
      by_cases hit : a.key = k
      · have other : e.key ≠ k := hit ▸ (ne_of_lt before).symm
        simp [hit, other]
      · simp only [List.find?_cons, hit, decide_false]
        exact find?_insertEntry e k rest
    · rw [insertEntry_of_sameKey rest same]
      by_cases hit : e.key = k
      · simp [hit]
      · simp [hit, same]
    · rw [insertEntry_of_gt rest after]
      by_cases hit : e.key = k
      · simp [hit]
      · simp [hit]

/-- A lookup after an insert sees the new value under its key and the old table elsewhere. -/
theorem get?_insert (m : Metadata) (op : Nat) (ns : Namespace) (kind : String) (v : MetaValue)
    (op' : Nat) (ns' : Namespace) (kind' : String) :
    (m.insert op ns kind v).1.get? op' ns' kind' =
      if keyOf op ns kind = keyOf op' ns' kind' then some v else m.get? op' ns' kind' := by
  rw [insert_fst, get?_eq, get?_eq]
  exact find?_insertEntry ⟨op, ns, kind, v⟩ _ m.entries

theorem get?_removeOp (m : Metadata) (id op : Nat) (ns : Namespace) (kind : String) :
    (m.removeOp id).get? op ns kind = if op = id then none else m.get? op ns kind := by
  rw [get?_eq, get?_eq, removeOp, List.find?_filter]
  by_cases same : op = id
  · -- every entry under the key has op `id`, and those were dropped
    rw [if_pos same, List.find?_eq_none.mpr]
    · rfl
    · intro e _ found
      simp only [bne_iff_ne, ne_eq, decide_eq_true_eq] at found
      exact found.1 ((op_eq_of_key found.2).trans same)
  · rw [if_neg same]
    congr 2
    funext e
    by_cases keyed : e.key = keyOf op ns kind
    · have kept : e.op ≠ id := (op_eq_of_key keyed) ▸ same
      simp [keyed, kept]
    · simp [keyed]

/-- A metadata table fits an arena of `n` ops: it is sorted and names only ids below `n`. -/
structure Fits (m : Metadata) (n : Nat) : Prop where
  sorted : m.Sorted
  inRange : ∀ e ∈ m.entries, e.op < n

theorem Fits.mono {m : Metadata} {n n' : Nat} (fits : m.Fits n) (le : n ≤ n') : m.Fits n' :=
  ⟨fits.sorted, fun e member => Nat.lt_of_lt_of_le (fits.inRange e member) le⟩

theorem Fits.insert {m : Metadata} {n : Nat} (fits : m.Fits n) {op : Nat} (bound : op < n)
    (ns : Namespace) (kind : String) (v : MetaValue) : (m.insert op ns kind v).1.Fits n where
  sorted := fits.sorted.insert op ns kind v
  inRange e member := by
    rw [insert_fst] at member
    rcases (mem_insertEntry fits.sorted).mp member with rfl | ⟨old, _⟩
    · exact bound
    · exact fits.inRange e old

theorem Fits.removeOp {m : Metadata} {n : Nat} (fits : m.Fits n) (id : Nat) :
    (m.removeOp id).Fits n where
  sorted := fits.sorted.sublist List.filter_sublist
  inRange e member := fits.inRange e (List.mem_of_mem_filter member)

/-- An entry moved to the new id of its op, if its op has one. -/
def relabel (f : Nat → Option Nat) (e : MetaEntry) : Option MetaEntry :=
  (f e.op).map fun j => { e with op := j }

/-- A renaming of ids that keeps their order where it is defined. -/
def OrderPreserving (f : Nat → Option Nat) : Prop :=
  ∀ a b ja jb, f a = some ja → f b = some jb → (a < b ↔ ja < jb)

theorem OrderPreserving.eq {f : Nat → Option Nat} (mono : OrderPreserving f) {a b ja jb : Nat}
    (ha : f a = some ja) (hb : f b = some jb) : a = b ↔ ja = jb := by
  have lt := mono a b ja jb ha hb
  have gt := mono b a jb ja hb ha
  omega

theorem relabel_key_lt {f : Nat → Option Nat} (mono : OrderPreserving f) {a b a' b' : MetaEntry}
    (ha : relabel f a = some a') (hb : relabel f b = some b') (lt : a.key < b.key) :
    a'.key < b'.key := by
  obtain ⟨ja, fa, rfl⟩ := Option.map_eq_some_iff.mp ha
  obtain ⟨jb, fb, rfl⟩ := Option.map_eq_some_iff.mp hb
  simp only [key, Prod.Lex.toLex_lt_toLex] at lt ⊢
  rcases lt with ops | ⟨ops, rest⟩
  · exact Or.inl ((mono a.op b.op ja jb fa fb).mp ops)
  · exact Or.inr ⟨(mono.eq fa fb).mp ops, rest⟩

theorem Sorted.relabel {m : Metadata} (sorted : m.Sorted) {f : Nat → Option Nat}
    (mono : OrderPreserving f) :
    (m.entries.filterMap (relabel f)).Pairwise fun a b => a.key < b.key :=
  sorted.filterMap _ fun _ _ lt _ ha _ hb => relabel_key_lt mono ha hb lt

theorem Fits.relabel {m : Metadata} (sorted : m.Sorted) {f : Nat → Option Nat}
    (mono : OrderPreserving f) {n : Nat} (bound : ∀ a j, f a = some j → j < n) :
    (⟨m.entries.filterMap (relabel f)⟩ : Metadata).Fits n where
  sorted := sorted.relabel mono
  inRange e member := by
    obtain ⟨x, -, moved⟩ := List.mem_filterMap.mp member
    obtain ⟨j, fj, rfl⟩ := Option.map_eq_some_iff.mp moved
    exact bound _ _ fj

/-- The entries an op gets under a renaming that keeps ids apart are those of the op it came from. -/
theorem forOp_relabel {f : Nat → Option Nat} (mono : OrderPreserving f) {j k : Nat}
    (fj : f j = some k) (l : List MetaEntry) :
    (⟨l.filterMap (relabel f)⟩ : Metadata).forOp k =
      ((⟨l⟩ : Metadata).forOp j).map fun x => { x with op := k } := by
  induction l with
  | nil => rfl
  | cons x rest ih =>
    simp only [forOp, List.filterMap_cons, List.filter_cons] at ih ⊢
    by_cases same : x.op = j
    · simp [relabel, same, fj, ih]
    · cases fx : f x.op with
      | none => simp [relabel, fx, same, ih]
      | some k' =>
        have apart : k' ≠ k := fun eq => same ((mono.eq fx fj).mpr eq)
        simp [relabel, fx, same, apart, ih]

/-- Moving the entries of a sorted table to new ids in order, one insert after another, keeps
them sorted and in place. -/
theorem foldl_relabel {f : Nat → Option Nat} {step : Metadata → MetaEntry → Metadata}
    (moved : ∀ acc e j, f e.op = some j → step acc e = (acc.insert j e.ns e.kind e.value).1)
    (dropped : ∀ acc e, f e.op = none → step acc e = acc) :
    ∀ {l pre : List MetaEntry}, (pre ++ l.filterMap (relabel f)).Pairwise (fun a b => a.key < b.key) →
      l.foldl step ⟨pre⟩ = ⟨pre ++ l.filterMap (relabel f)⟩
  | [], pre, _ => by simp
  | e :: rest, pre, sorted => by
    cases target : f e.op with
    | none =>
      have skip : relabel f e = none := by simp [relabel, target]
      rw [List.foldl_cons, dropped _ e target, foldl_relabel moved dropped (by simpa [skip] using sorted)]
      simp [skip]
    | some j =>
      have here : relabel f e = some { e with op := j } := by simp [relabel, target]
      have after : ∀ a ∈ pre, a.key < ({ e with op := j } : MetaEntry).key := fun a member =>
        (List.pairwise_append.mp sorted).2.2 a member _ (by simp [here])
      have appended : ((⟨pre⟩ : Metadata).insert j e.ns e.kind e.value).1 = ⟨pre ++ [{ e with op := j }]⟩ := by
        rw [insert_fst, insertEntry_of_forall_lt after]
      rw [List.foldl_cons, moved _ e j target, appended,
        foldl_relabel moved dropped (by simpa [here] using sorted)]
      simp [here]

/-- Remapping a sorted table by an order-preserving renaming moves each entry whose op has a new
id to that id and drops the others, keeping their order. -/
theorem remap_eq {m : Metadata} (sorted : m.Sorted) {f : Nat → Option Nat}
    (mono : OrderPreserving f) : m.remap f = ⟨m.entries.filterMap (relabel f)⟩ := by
  rw [remap, show empty = ⟨[]⟩ from rfl, foldl_relabel]
  · rfl
  · intro acc e j target
    simp [target]
  · intro acc e target
    simp [target]
  · simpa using sorted.relabel mono

end Metadata

/-- A valid graph whose attributes hold each key once and whose metadata table is sorted and
refers only to ops of the arena. -/
structure Graph.WellFormed (g : Graph) : Prop where
  valid : g.Valid
  attrKeys : ∀ op ∈ g.ops.toList, (op.attrs.map (·.1)).Nodup
  metaFits : g.metadata.Fits g.ops.size

end OpGraph
