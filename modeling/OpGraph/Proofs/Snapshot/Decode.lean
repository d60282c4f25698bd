import OpGraph.Proofs.Snapshot.RoundTrip

namespace OpGraph

/-- Building with a stored order that differs only where op names repeat is refused alike. -/
theorem Rejects.of_nodup_eq {ops : List Op} {names : List String} {stored stored' : Option (List Nat)}
    {e : ValidationError} (rejects : Rejects ops names stored e)
    (same : (opNames ops).Nodup → stored = stored') : Rejects ops names stored' e := by
  cases rejects with
  | duplicateOp first => exact .duplicateOp first
  | duplicateTensor distinct first => exact .duplicateTensor distinct first
  | danglingTensor distinct distinctT first => exact .danglingTensor distinct distinctT first
  | invalidTopoOrder distinct distinctT resolve unfit =>
    rw [← same distinct]
    exact .invalidTopoOrder distinct distinctT resolve unfit
  | cycle distinct distinctT resolve cyclic =>
    rw [← same distinct]
    exact .cycle distinct distinctT resolve cyclic
  | unknownOutput distinct distinctT resolve fits first =>
    exact .unknownOutput distinct distinctT resolve (same distinct ▸ fits) first

namespace Snapshot

@[simp] theorem except_throw {ε α : Type} (e : ε) : (throw e : Except ε α) = .error e := rfl

@[simp] theorem except_pure {ε α : Type} (a : α) : (pure a : Except ε α) = .ok a := rfl

/-- `x` is the first element of `l` that fails `ok`. -/
def FirstFailing {α : Type} (ok : α → Prop) (l : List α) (x : α) : Prop :=
  ∃ pre rest, l = pre ++ x :: rest ∧ (∀ y ∈ pre, ok y) ∧ ¬ ok x

section FirstFailing

variable {α : Type} {ok : α → Prop} {l : List α} {x : α}

theorem FirstFailing.head {a : α} (fails : ¬ ok a) (rest : List α) :
    FirstFailing ok (a :: rest) a :=
  ⟨[], rest, rfl, by simp, fails⟩

theorem FirstFailing.cons {a : α} (passes : ok a) (first : FirstFailing ok l x) :
    FirstFailing ok (a :: l) x := by
  obtain ⟨pre, rest, rfl, before, fails⟩ := first
  exact ⟨a :: pre, rest, rfl, List.forall_mem_cons.mpr ⟨passes, before⟩, fails⟩

theorem FirstFailing.not_forall (first : FirstFailing ok l x) : ¬ ∀ y ∈ l, ok y := by
  obtain ⟨pre, rest, rfl, -, fails⟩ := first
  exact fun all => fails (all x (by simp))

end FirstFailing

/-- A map in `Except` whose step passes exactly on the elements `ok` holds of, and fails with an
error `fault` allows on the others, succeeds when every element passes, and otherwise fails with
the error of the first element that fails. -/
theorem mapM_except_cases {α β ε : Type} {f : α → Except ε β} (ok : α → Prop)
    (fault : α → ε → Prop)
    (step : ∀ x, (ok x ∧ ∃ b, f x = .ok b) ∨ (¬ ok x ∧ ∃ e, f x = .error e ∧ fault x e)) :
    ∀ l : List α, ((∀ x ∈ l, ok x) ∧ ∃ bs, l.mapM f = .ok bs) ∨
      ∃ x e, FirstFailing ok l x ∧ fault x e ∧ l.mapM f = .error e
  | [] => .inl ⟨by simp, [], rfl⟩
  | x :: rest => by
    rcases step x with ⟨passes, b, fx⟩ | ⟨fails, e, fx, faulty⟩
    · rcases mapM_except_cases ok fault step rest with ⟨all, bs, mapped⟩ |
        ⟨y, e, first, faulty, failed⟩
      · exact .inl ⟨List.forall_mem_cons.mpr ⟨passes, all⟩, b :: bs,
          by simp [List.mapM_cons, fx, mapped]⟩
      · exact .inr ⟨y, e, first.cons passes, faulty, by simp [List.mapM_cons, fx, failed]⟩
    · exact .inr ⟨x, e, .head fails rest, faulty, by simp [List.mapM_cons, fx]⟩

theorem mapM_except_forall₂ {α β ε : Type} {f : α → Except ε β} :
    ∀ {l : List α} {bs : List β}, l.mapM f = .ok bs → List.Forall₂ (fun x b => f x = .ok b) l bs
  | [], bs, mapped => by
    cases mapped
    exact .nil
  | x :: rest, bs, mapped => by
    simp only [List.mapM_cons, except_bind_eq_ok] at mapped
    obtain ⟨b, fx, more, mappedRest, done⟩ := mapped
    cases done
    exact .cons fx (mapM_except_forall₂ mappedRest)

/-- A fold in `Except` whose step keeps `inv` and passes exactly on the elements `ok` holds of
succeeds in an `inv` state when every element passes, and otherwise fails with the error of the
first element that fails. -/
theorem foldlM_except_cases {σ α ε : Type} {f : σ → α → Except ε σ} (ok : α → Prop)
    (fault : α → ε → Prop) (inv : σ → Prop) (step : ∀ s x, inv s →
      (ok x ∧ ∃ s', f s x = .ok s' ∧ inv s') ∨ (¬ ok x ∧ ∃ e, f s x = .error e ∧ fault x e)) :
    ∀ (l : List α) (s : σ), inv s →
      ((∀ x ∈ l, ok x) ∧ ∃ s', l.foldlM f s = .ok s' ∧ inv s') ∨
        ∃ x e, FirstFailing ok l x ∧ fault x e ∧ l.foldlM f s = .error e
  | [], s, holds => .inl ⟨by simp, s, rfl, holds⟩
  | x :: rest, s, holds => by
    rcases step s x holds with ⟨passes, s', fx, holds'⟩ | ⟨fails, e, fx, faulty⟩
    · rcases foldlM_except_cases ok fault inv step rest s' holds' with ⟨all, t, folded, final⟩ |
        ⟨y, e, first, faulty, failed⟩
      · exact .inl ⟨List.forall_mem_cons.mpr ⟨passes, all⟩, t,
          by simp [List.foldlM_cons, fx, folded], final⟩
      · exact .inr ⟨y, e, first.cons passes, faulty, by simp [List.foldlM_cons, fx, failed]⟩
    · exact .inr ⟨x, e, .head fails rest, faulty, by simp [List.foldlM_cons, fx]⟩

/-- A data type code the snapshot format knows. -/
def KnownCode (c : Int) : Prop := (DType.ofCode? c).isSome = true

/-- A tensor record decodes: its data type code is known. -/
def TensorRecord.Decodes (t : TensorRecord) : Prop := KnownCode t.dtype

/-- An attribute record decodes: it has a value, and a data type value has a known code. -/
def AttrRecord.Decodes (a : AttrRecord) : Prop :=
  ∃ v, a.value = some v ∧ ∀ c, v = .dtype c → KnownCode c

/-- An op record decodes: every output and every attribute does. -/
def OpRecord.Decodes (o : OpRecord) : Prop :=
  (∀ t ∈ o.outputs, t.Decodes) ∧ ∀ a ∈ o.attrs, a.Decodes

/-- The error refusing an attribute of op `op`: it has no value, or a data type value with an
unknown code. -/
inductive AttrRecord.Fault (op : String) (a : AttrRecord) : TransformError → Prop
  | noValue : a.value = none →
      Fault op a (.invalidSnapshot ("attribute '" ++ a.name ++ "' of op '" ++ op ++ "' has no value"))
  | unknownCode {c : Int} : a.value = some (.dtype c) → ¬ KnownCode c →
      Fault op a (.internal ("invalid data type: " ++ toString c))

/-- The error refusing an op record: the first output with an unknown data type code, or else the
error of the first attribute that does not decode. -/
inductive OpRecord.Fault (o : OpRecord) : TransformError → Prop
  | output {t : TensorRecord} : FirstFailing TensorRecord.Decodes o.outputs t →
      Fault o (.internal ("invalid data type: " ++ toString t.dtype))
  | attr {a : AttrRecord} {e : TransformError} : (∀ t ∈ o.outputs, t.Decodes) →
      FirstFailing AttrRecord.Decodes o.attrs a → a.Fault o.name e → Fault o e

theorem ofCode_cases (c : Int) :
    (KnownCode c ∧ ∃ d, DType.ofCode c = .ok d) ∨
      (¬ KnownCode c ∧ DType.ofCode c = .error (.internal ("invalid data type: " ++ toString c))) := by
  unfold KnownCode DType.ofCode
  cases DType.ofCode? c with
  | none => simp
  | some d => simp

theorem tensorOf_cases (t : TensorRecord) :
    (t.Decodes ∧ ∃ u, tensorOf t = .ok u) ∨
      (¬ t.Decodes ∧ tensorOf t = .error (.internal ("invalid data type: " ++ toString t.dtype))) := by
  rcases ofCode_cases t.dtype with ⟨known, d, decoded⟩ | ⟨unknown, failed⟩
  · exact .inl ⟨known, by simp [tensorOf, decoded]⟩
  · exact .inr ⟨unknown, by simp [tensorOf, failed]⟩

theorem attrInto_cases (op : String) (acc : Attrs) (a : AttrRecord) :
    (a.Decodes ∧ ∃ acc', attrInto op acc a = .ok acc') ∨
      (¬ a.Decodes ∧ ∃ e, attrInto op acc a = .error e ∧ a.Fault op e) := by
  cases value : a.value with
  | none =>
    refine .inr ⟨fun ⟨v, has, _⟩ => by simp [value] at has, _, by simp [attrInto, value],
      .noValue value⟩
  | some v =>
    cases v
    case dtype c =>
      rcases ofCode_cases c with ⟨known, d, decoded⟩ | ⟨unknown, failed⟩
      · refine .inl ⟨⟨_, value, fun c' same => by cases same; exact known⟩, ?_⟩
        simp [attrInto, value, attrValueOf, decoded]
      · refine .inr ⟨fun ⟨v, has, codes⟩ => ?_, _, by simp [attrInto, value, attrValueOf, failed],
          .unknownCode value unknown⟩
        rw [value, Option.some.injEq] at has
        exact unknown (codes c has.symm)
    all_goals
      refine .inl ⟨⟨_, value, fun c same => by cases same⟩, ?_⟩
      simp [attrInto, value, attrValueOf]

/-- An op record decodes exactly when all its parts do, keeping its name; otherwise it is refused
with the error of its first part that fails. -/
theorem opOf_cases (o : OpRecord) :
    (o.Decodes ∧ ∃ op, opOf o = .ok op ∧ op.name = o.name) ∨
      (¬ o.Decodes ∧ ∃ e, opOf o = .error e ∧ o.Fault e) := by
  rcases mapM_except_cases TensorRecord.Decodes
      (fun t e => e = .internal ("invalid data type: " ++ toString t.dtype))
      (fun t => (tensorOf_cases t).imp id fun ⟨fails, failed⟩ => ⟨fails, _, failed, rfl⟩)
      o.outputs with
    ⟨outputsOk, outputs, decoded⟩ | ⟨t, e, first, rfl, failed⟩
  · -- the attributes are folded from the empty list, and each one's error is its own
    rcases foldlM_except_cases AttrRecord.Decodes (AttrRecord.Fault o.name) (fun _ => True)
        (fun acc a _ => (attrInto_cases o.name acc a).imp
          (fun ⟨passes, acc', ok⟩ => ⟨passes, acc', ok, trivial⟩) id) o.attrs [] trivial with
      ⟨attrsOk, attrs, folded, -⟩ | ⟨a, e, first, fault, failed⟩
    · refine .inl ⟨⟨outputsOk, attrsOk⟩, ⟨o.name, o.opType, o.inputs, outputs, attrs⟩, ?_, rfl⟩
      simp [opOf, decoded, folded]
    · exact .inr ⟨fun decodes => first.not_forall decodes.2, e,
        by simp [opOf, decoded, failed], .attr outputsOk first fault⟩
  · exact .inr ⟨fun decodes => first.not_forall decodes.1, _, by simp [opOf, failed],
      .output first⟩

theorem opOf_name {o : OpRecord} {op : Op} (decoded : opOf o = .ok op) : op.name = o.name := by
  rcases opOf_cases o with ⟨_, op', decoded', named⟩ | ⟨_, e, failed, _⟩
  · rw [decoded] at decoded'
    cases decoded'
    exact named
  · rw [decoded] at failed
    cases failed

/-- The names of the ops a record stores. -/
def GraphRecord.names (r : GraphRecord) : List String := r.ops.map (·.name)

theorem opNames_of_decoded {r : GraphRecord} {ops : List Op} (decoded : r.ops.mapM opOf = .ok ops) :
    opNames ops = r.names := by
  unfold GraphRecord.names opNames
  generalize r.ops = records at decoded ⊢
  have each := mapM_except_forall₂ decoded
  clear decoded
  induction each with
  | nil => rfl
  | cons decodedHead _ ih => simp [opOf_name decodedHead, ih]

/-- Scanning for the last op of a name finds nothing exactly when no op has the name, and otherwise
an id of the arena. -/
theorem foldl_zipIdx_lastId_cases (name : String) (f : Option Nat → Op × Nat → Option Nat)
    (step : ∀ acc op i, f acc (op, i) = if op.name = name then some i else acc) :
    ∀ (ops : List Op) (k : Nat) (acc : Option Nat),
      ((ops.zipIdx k).foldl f acc = acc ∧ name ∉ opNames ops) ∨
        ∃ i, (ops.zipIdx k).foldl f acc = some i ∧ k ≤ i ∧ i < k + ops.length ∧ name ∈ opNames ops
  | [], k, acc => .inl ⟨rfl, by simp [opNames]⟩
  | op :: rest, k, acc => by
    rw [List.zipIdx_cons, List.foldl_cons, step]
    rcases foldl_zipIdx_lastId_cases name f step rest (k + 1) (if op.name = name then some k else acc) with
      ⟨scanned, absent⟩ | ⟨i, scanned, lower, upper, present⟩
    · by_cases same : op.name = name
      · exact .inr ⟨k, by rw [scanned, if_pos same], le_rfl, by simp, by simp [opNames, same]⟩
      · refine .inl ⟨by rw [scanned, if_neg same], ?_⟩
        simp only [opNames, List.map_cons, List.mem_cons, not_or] at absent ⊢
        exact ⟨Ne.symm same, absent⟩
    · refine .inr ⟨i, scanned, by omega, by simp; omega, ?_⟩
      simp only [opNames, List.map_cons, List.mem_cons] at present ⊢
      exact .inr present

theorem lastIdOf_cases (ops : List Op) (name : String) :
    (lastIdOf ops name = none ∧ name ∉ opNames ops) ∨
      ∃ i, lastIdOf ops name = some i ∧ i < ops.length ∧ name ∈ opNames ops := by
  -- the scan of `lastIdOf`, with its pattern-matching step written with projections
  rcases foldl_zipIdx_lastId_cases name (fun acc p => if p.1.name == name then some p.2 else acc)
      (fun acc op i => by simp) ops 0 none with
    ⟨scanned, absent⟩ | ⟨i, scanned, _, upper, present⟩
  · exact .inl ⟨scanned, absent⟩
  · exact .inr ⟨i, scanned, by simpa using upper, present⟩

/-- With distinct op names, a name of an op stands for that op's id. -/
theorem idOfName_of_nodup {ops : List Op} (distinct : (opNames ops).Nodup) {name : String}
    (named : name ∈ opNames ops) : idOfName ops name = .ok ((opNames ops).idxOf name) := by
  have found : lastIdOf ops name = some ((opNames ops).idxOf name) := by
    unfold lastIdOf
    rw [foldl_zipIdx_lastId _ 0 none distinct, if_pos named]
    · simp
    · intro acc op i
      simp
  simp [idOfName, found]

/-- The stored order reads back when each of its names names an op, as those ops' ids; otherwise
it is refused at its first unknown name. -/
theorem storedOrderOf_cases (ops : List Op) (names : List String) :
    ((∀ n ∈ names, n ∈ opNames ops) ∧ ∃ order, storedOrderOf ops names = .ok order ∧
        ((opNames ops).Nodup →
          order = if names = [] then none else some (names.map (opNames ops).idxOf))) ∨
      ∃ n, FirstFailing (· ∈ opNames ops) names n ∧
        storedOrderOf ops names = .error (.validation (.invalidTopoOrder (.unknownName n))) := by
  by_cases empty : names = []
  · subst empty
    exact .inl ⟨by simp, none, rfl, fun _ => rfl⟩
  have lookups : ∀ n, (n ∈ opNames ops ∧ ∃ i, idOfName ops n = .ok i) ∨
      (n ∉ opNames ops ∧ ∃ e, idOfName ops n = .error e ∧
        e = .validation (.invalidTopoOrder (.unknownName n))) := by
    intro n
    rcases lastIdOf_cases ops n with ⟨missing, absent⟩ | ⟨i, found, _, present⟩
    · exact .inr ⟨absent, _, by simp [idOfName, missing], rfl⟩
    · exact .inl ⟨present, i, by simp [idOfName, found]⟩
  rcases mapM_except_cases (· ∈ opNames ops) _ lookups names with ⟨all, ids, mapped⟩ |
    ⟨n, e, first, rfl, failed⟩
  · refine .inl ⟨all, some ids, by simp [storedOrderOf, empty, mapped], fun distinct => ?_⟩
    have each : names.mapM (idOfName ops) = .ok (names.map (opNames ops).idxOf) :=
      mapM_eq_ok_map _ fun n member => idOfName_of_nodup distinct (all n member)
    rw [mapped, Except.ok.injEq] at each
    simp [empty, each]
  · exact .inr ⟨n, first, by simp [storedOrderOf, empty, failed]⟩

/-- A metadata record the table admits: it names an op, its namespace is valid, it has a value. -/
def MetadataRecord.Admitted (names : List String) (m : MetadataRecord) : Prop :=
  m.op ∈ names ∧ Namespace.isValidName m.ns = true ∧ m.value.isSome = true

/-- The error refusing a metadata record: an unknown op, else an invalid namespace, else no
value. -/
inductive MetadataRecord.Fault (names : List String) (m : MetadataRecord) : TransformError → Prop
  | unknownOp : m.op ∉ names → Fault names m (.validation (.unknownOp m.op))
  | invalidNamespace : m.op ∈ names → Namespace.isValidName m.ns = false →
      Fault names m (.validation (.invalidNamespace m.ns))
  | noValue : m.op ∈ names → Namespace.isValidName m.ns = true → m.value = none →
      Fault names m
        (.invalidSnapshot ("metadata '" ++ m.kind ++ "' of op '" ++ m.op ++ "' has no value"))

/-- Admitting an entry into a table that fits the arena gives a table that fits it, or refuses
the entry with its error, whatever the table holds. -/
theorem metaInto_cases (ops : List Op) (table : Metadata) (m : MetadataRecord)
    (fits : table.Fits ops.length) :
    (m.Admitted (opNames ops) ∧ ∃ table', metaInto ops table m = .ok table' ∧
        table'.Fits ops.length) ∨
      (¬ m.Admitted (opNames ops) ∧ ∃ e, metaInto ops table m = .error e ∧ m.Fault (opNames ops) e) := by
  rcases lastIdOf_cases ops m.op with ⟨missing, absent⟩ | ⟨id, found, bound, present⟩
  · exact .inr ⟨fun admitted => absent admitted.1, _, by simp [metaInto, missing],
      .unknownOp absent⟩
  by_cases valid : Namespace.isValidName m.ns = true
  · have made : Namespace.make m.ns = .ok ⟨m.ns, valid⟩ := by simp [Namespace.make, valid]
    cases value : m.value with
    | none =>
      exact .inr ⟨fun admitted => by simp [MetadataRecord.Admitted, value] at admitted, _,
        by simp [metaInto, found, made, liftValidation, value], .noValue present valid value⟩
    | some v =>
      exact .inl ⟨⟨present, valid, by simp [value]⟩, _,
        by simp [metaInto, found, made, liftValidation, value], fits.insert bound ⟨m.ns, valid⟩ m.kind
          (metaValueOf v)⟩
  · have invalid : Namespace.isValidName m.ns = false := by simpa using valid
    have refused : Namespace.make m.ns = .error (.invalidNamespace m.ns) := by
      simp [Namespace.make, invalid]
    exact .inr ⟨fun admitted => valid admitted.2.1, _,
      by simp [metaInto, found, refused, liftValidation], .invalidNamespace present invalid⟩

/-- The stored order as ids, when one is stored. -/
def GraphRecord.storedOrder (r : GraphRecord) : Option (List Nat) :=
  if r.topoOrder = [] then none else some (r.topoOrder.map r.names.idxOf)

/-- A record that reads back: its ops decode, its stored order names ops, its metadata entries are
admitted, and the decoded ops pass every check of building with its output names and stored order. -/
structure GraphRecord.Readable (r : GraphRecord) : Prop where
  opsDecode : ∀ o ∈ r.ops, o.Decodes
  topoKnown : ∀ n ∈ r.topoOrder, n ∈ r.names
  metaAdmitted : ∀ m ∈ r.metadata, m.Admitted r.names
  builds : ∀ ops, r.ops.mapM opOf = .ok ops → Accepts ops r.outputNodes r.storedOrder

/-- The error refusing a record: that of the first element that fails, in the first stage that
fails. -/
inductive GraphRecord.Fault (r : GraphRecord) : TransformError → Prop
  | op {o : OpRecord} {e : TransformError} : FirstFailing OpRecord.Decodes r.ops o → o.Fault e →
      Fault r e
  | topoName {n : String} : (∀ o ∈ r.ops, o.Decodes) → FirstFailing (· ∈ r.names) r.topoOrder n →
      Fault r (.validation (.invalidTopoOrder (.unknownName n)))
  | metadata {m : MetadataRecord} {e : TransformError} : (∀ o ∈ r.ops, o.Decodes) →
      (∀ n ∈ r.topoOrder, n ∈ r.names) → FirstFailing (MetadataRecord.Admitted r.names) r.metadata m →
      m.Fault r.names e → Fault r e
  | build {ops : List Op} {e : ValidationError} : r.ops.mapM opOf = .ok ops →
      (∀ n ∈ r.topoOrder, n ∈ r.names) → (∀ m ∈ r.metadata, m.Admitted r.names) →
      Rejects ops r.outputNodes r.storedOrder e → Fault r (.validation e)

/-- Reading a record: it reads back exactly when it is readable, as the graph built from its
decoded ops, output names, stored order and admitted metadata; otherwise it is refused with the
error of its first failure. -/
theorem toGraph_cases (r : GraphRecord) :
    (r.Readable ∧ ∃ ops order table g, r.ops.mapM opOf = .ok ops ∧
        storedOrderOf ops r.topoOrder = .ok order ∧ order = r.storedOrder ∧
        table.Fits ops.length ∧ Graph.build ops.toArray r.outputNodes order table = .ok g ∧
        toGraph r = .ok g) ∨
      (¬ r.Readable ∧ ∃ e, toGraph r = .error e ∧ r.Fault e) := by
  rcases mapM_except_cases OpRecord.Decodes OpRecord.Fault (fun o => (opOf_cases o).imp
      (fun ⟨passes, op, ok, _⟩ => ⟨passes, op, ok⟩) id) r.ops with
    ⟨opsOk, ops, decoded⟩ | ⟨o, e, first, fault, failed⟩
  swap
  · exact .inr ⟨fun readable => first.not_forall readable.opsDecode, e,
      by simp [toGraph, failed], .op first fault⟩
  have named := opNames_of_decoded decoded
  rcases storedOrderOf_cases ops r.topoOrder with ⟨topoOk, order, ordered, orderEq⟩ |
    ⟨n, first, failed⟩
  swap
  · rw [named] at first
    exact .inr ⟨fun readable => first.not_forall readable.topoKnown, _,
      by simp [toGraph, decoded, failed], .topoName opsOk first⟩
  rw [named] at topoOk
  rcases foldlM_except_cases (MetadataRecord.Admitted (opNames ops))
      (MetadataRecord.Fault (opNames ops)) (Metadata.Fits · ops.length) (metaInto_cases ops)
      r.metadata Metadata.empty ⟨Metadata.sorted_empty, fun _ member => by cases member⟩ with
    ⟨metaOk, table, admitted, fits⟩ | ⟨m, e, first, fault, failed⟩
  swap
  · rw [named] at first fault
    exact .inr ⟨fun readable => first.not_forall readable.metaAdmitted, e,
      by simp [toGraph, decoded, ordered, metadataOf, failed], .metadata opsOk topoOk first fault⟩
  rw [named] at metaOk
  -- with distinct op names the order read back is the stored order
  have stored : (opNames ops).Nodup → order = r.storedOrder := by
    intro distinct
    rw [orderEq distinct, named]
    rfl
  have read : toGraph r = liftValidation (Graph.build ops.toArray r.outputNodes order table) := by
    simp [toGraph, decoded, ordered, metadataOf, admitted]
  rcases build_cases ops r.outputNodes order table with ⟨accepts, _, built, -⟩ |
    ⟨rejected, e, failed, rejects⟩
  · have sameOrder := stored accepts.distinctOps
    refine .inl ⟨⟨opsOk, topoOk, metaOk, fun ops' decoded' => ?_⟩, ops, order, table, _, decoded,
      ordered, sameOrder, fits, built, by rw [read, built]; rfl⟩
    rw [decoded, Except.ok.injEq] at decoded'
    subst decoded'
    exact sameOrder ▸ accepts
  · have refused : ¬ r.Readable := fun readable => by
      have accepts := readable.builds ops decoded
      exact rejected (stored accepts.distinctOps ▸ accepts)
    exact .inr ⟨refused, _, by rw [read, failed]; rfl,
      .build decoded topoOk metaOk (rejects.of_nodup_eq stored)⟩

/-- A record reads back exactly when its ops decode, its order and metadata name stored ops, its
metadata is valid, and the decoded ops build; the graph read back is valid with the stored order or
the sorted one. Otherwise it is refused with the first failing element's error. -/
theorem record_reads_back_iff_well_formed (r : GraphRecord) :
    ((∃ g, toGraph r = .ok g) ↔ r.Readable) ∧
      (∀ g, toGraph r = .ok g → g.Valid ∧ g.metadata.Fits g.ops.size ∧
        ∀ ops, r.ops.mapM opOf = .ok ops → g.ops = ops.toArray ∧
          g.outputs = (r.outputNodes.map (opNames ops).idxOf).eraseDups ∧
          (r.topoOrder = [] → Topo.sort ops (Index.outputSlots ops) = .ok g.topo) ∧
          (r.topoOrder ≠ [] → g.topo = r.topoOrder.map r.names.idxOf)) ∧
      ∀ e, toGraph r = .error e → r.Fault e := by
  rcases toGraph_cases r with ⟨readable, ops, order, table, g, decoded, _, stored, fits, built, read⟩ |
    ⟨unreadable, e, failed, fault⟩
  · obtain ⟨_, sameOps, sameTable, sameOutputs, kept, valid⟩ := build_eq_ok built
    refine ⟨⟨fun _ => readable, fun _ => ⟨g, read⟩⟩, fun g' read' => ?_, fun e failed => ?_⟩
    · rw [read, Except.ok.injEq] at read'
      subst read'
      refine ⟨valid, by simpa [sameTable, sameOps] using fits, fun ops' decoded' => ?_⟩
      rw [decoded, Except.ok.injEq] at decoded'
      subst decoded'
      refine ⟨sameOps, sameOutputs, fun empty => ?_, fun nonempty => ?_⟩
      · have none : order = none := by simp [stored, GraphRecord.storedOrder, empty]
        subst none
        exact Graph.build_none_sorted built
      · exact kept _ (by simp [stored, GraphRecord.storedOrder, nonempty])
    · rw [read] at failed
      cases failed
  · refine ⟨⟨fun ⟨g, read⟩ => ?_, fun readable => absurd readable unreadable⟩,
      fun g read => ?_, fun e' failed' => ?_⟩
    · rw [failed] at read
      cases read
    · rw [failed] at read
      cases read
    · rw [failed] at failed'
      cases failed'
      exact fault

end Snapshot

end OpGraph
