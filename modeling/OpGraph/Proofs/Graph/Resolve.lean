import OpGraph.Proofs.Graph.Edit
import OpGraph.Proofs.Graph.Restrict

namespace OpGraph

namespace Graph

theorem opId?_eq_some {g : Graph} {n : String} {s : Nat} (found : g.opId? n = some s) :
    ∃ op, g.ops[s]? = some op ∧ op.name = n := by
  rw [opId?, Array.findIdx?_eq_some_iff_getElem] at found
  obtain ⟨bound, named, -⟩ := found
  exact ⟨g.ops[s], Array.getElem?_eq_getElem bound, by simpa using named⟩

/-- No op of the arena carries a name that the lookup misses. -/
theorem opId?_eq_none {g : Graph} {n : String} (missing : g.opId? n = none) {i : Nat} {op : Op}
    (atI : g.ops[i]? = some op) : op.name ≠ n := by
  rw [opId?, Array.findIdx?_eq_none_iff] at missing
  simpa using missing op (Array.mem_of_getElem? atI)

theorem opId?_of_getElem? {g : Graph} (distinct : (opNames g.ops.toList).Nodup) {i : Nat} {op : Op}
    (atI : g.ops[i]? = some op) : g.opId? op.name = some i := by
  have bound : i < g.opCount := (Array.getElem?_eq_some_iff.mp atI).1
  have same : g.opAt i = op := opAt_of_getElem? (by simpa using atI)
  rw [← same]
  exact opId?_opAt_name distinct bound

end Graph

namespace Edit

/-- The name of the op in slot `j`, or nothing when the slot is empty or past the end. -/
def nameAt (e : Edit) (j : Nat) : Option String := ((e.slots[j]?).bind EditSlot.op?).map Op.name

/-- Slot `id` holds the live op named `n`, and the source has no op of that name in another slot. -/
def Holds (e : Edit) (n : String) (id : Nat) : Prop :=
  e.nameAt id = some n ∧ ∀ s, e.source.opId? n = some s → id = s

theorem resolve_of_source {e : Edit} {n : String} {s : Nat} (found : e.source.opId? n = some s) :
    e.resolve n = if (e.nameAt s).isSome then .ok s else .error (.unknownOp n) := by
  unfold resolve nameAt
  simp only [found]
  cases e.slots[s]? with
  | none => rfl
  | some slot => cases slot <;> rfl

theorem resolve_of_inserted {e : Edit} {n : String} {p : String × Nat}
    (missing : e.source.opId? n = none) (first : e.inserted.find? (·.1 == n) = some p) :
    e.resolve n = if (e.nameAt p.2).isSome then .ok p.2 else .error (.unknownOp n) := by
  unfold resolve nameAt
  simp only [missing, first, Option.map_some]
  cases e.slots[p.2]? with
  | none => rfl
  | some slot => cases slot <;> rfl

theorem resolve_of_untracked {e : Edit} {n : String}
    (missing : e.source.opId? n = none) (untracked : e.inserted.find? (·.1 == n) = none) :
    e.resolve n = .error (.unknownOp n) := by
  simp [resolve, missing, untracked]

/-- What every run of calls from `start g` keeps about names. -/
structure Naming (g : Graph) (e : Edit) : Prop where
  source : e.source = g
  grows : g.ops.size ≤ e.slots.size
  -- a live slot of the source carries the source op's name
  sourceNamed : ∀ i n, e.nameAt i = some n → ∀ op, g.ops[i]? = some op → op.name = n
  insertedBound : ∀ p ∈ e.inserted, p.2 < e.slots.size
  insertedNamed : ∀ p ∈ e.inserted, ∀ n, e.nameAt p.2 = some n → n = p.1
  insertedOnce : (e.inserted.map Prod.fst).Nodup
  -- a live slot past the source is found by its name, unless the source shadows it
  tracked : ∀ j n, g.ops.size ≤ j → e.nameAt j = some n → g.opId? n = none → (n, j) ∈ e.inserted
  shadowed : ∀ j n s, g.ops.size ≤ j → e.nameAt j = some n → g.opId? n = some s → e.nameAt s = none

section Resolve

variable {g : Graph} {e : Edit} {n : String} {id : Nat}

/-- A name resolves only to a live slot of that name that the source does not shadow. -/
theorem Naming.resolve_sound (naming : Naming g e) (resolved : e.resolve n = .ok id) :
    e.nameAt id = some n ∧ ∀ s, g.opId? n = some s → id = s := by
  cases found : g.opId? n with
  | some s =>
    rw [resolve_of_source (naming.source ▸ found)] at resolved
    split at resolved
    · next live =>
      obtain rfl : s = id := Except.ok.inj resolved
      obtain ⟨m, named⟩ := Option.isSome_iff_exists.mp live
      obtain ⟨op, atS, rfl⟩ := Graph.opId?_eq_some found
      rw [naming.sourceNamed s m named op atS]
      exact ⟨named, fun _ same => Option.some.inj same⟩
    · cases resolved
  | none =>
    cases first : e.inserted.find? (·.1 == n) with
    | none => rw [resolve_of_untracked (naming.source ▸ found) first] at resolved; cases resolved
    | some p =>
      rw [resolve_of_inserted (naming.source ▸ found) first] at resolved
      split at resolved
      · next live =>
        obtain rfl : p.2 = id := Except.ok.inj resolved
        obtain ⟨m, named⟩ := Option.isSome_iff_exists.mp live
        have key : p.1 = n := by simpa using List.find?_some first
        have tracked := naming.insertedNamed p (List.mem_of_find?_eq_some first) m named
        exact ⟨by rw [named, tracked, key], fun _ source => by cases source⟩
      · cases resolved

/-- A live slot under a name the source does not have lies past the source's ops. -/
theorem Naming.past_of_missing (naming : Naming g e) (named : e.nameAt id = some n)
    (missing : g.opId? n = none) : g.ops.size ≤ id := by
  by_contra inside
  have atId : g.ops[id]? = some g.ops[id] := Array.getElem?_eq_getElem (by omega)
  exact Graph.opId?_eq_none missing atId (naming.sourceNamed id n named _ atId)

/-- A live slot of a name that the source does not shadow is found by the name. -/
theorem Naming.resolve_complete (naming : Naming g e) (named : e.nameAt id = some n)
    (unshadowed : ∀ s, g.opId? n = some s → id = s) : e.resolve n = .ok id := by
  cases found : g.opId? n with
  | some s =>
    obtain rfl := unshadowed s found
    rw [resolve_of_source (naming.source ▸ found), if_pos (by simp [named])]
  | none =>
    have member := naming.tracked id n (naming.past_of_missing named found) named found
    obtain ⟨p, first⟩ : ∃ p, e.inserted.find? (·.1 == n) = some p :=
      Option.isSome_iff_exists.mp (List.find?_isSome.mpr ⟨_, member, by simp⟩)
    have key : p.1 = n := by simpa using List.find?_some first
    have same : p = (n, id) :=
      List.inj_on_of_nodup_map naming.insertedOnce (List.mem_of_find?_eq_some first) member key
    rw [resolve_of_inserted (naming.source ▸ found) first, same, if_pos (by simp [named])]

theorem Naming.resolve_eq_ok_iff (naming : Naming g e) : e.resolve n = .ok id ↔ e.Holds n id := by
  rw [Holds, naming.source]
  exact ⟨naming.resolve_sound, fun ⟨named, unshadowed⟩ => naming.resolve_complete named unshadowed⟩

/-- With distinct source names, a live op under a source name is the source's op, unless the
source's slot of that name is dead. -/
theorem Naming.eq_source (naming : Naming g e) (distinct : (opNames g.ops.toList).Nodup)
    (named : e.nameAt id = some n) {s : Nat} (found : g.opId? n = some s)
    (live : e.nameAt s ≠ none) : id = s := by
  by_cases inside : id < g.ops.size
  · have atId : g.ops[id]? = some g.ops[id] := Array.getElem?_eq_getElem inside
    have source := Graph.opId?_of_getElem? distinct atId
    rw [naming.sourceNamed id n named _ atId, found] at source
    exact (Option.some.inj source).symm
  · exact absurd (naming.shadowed id n s (by omega) named found) live

/-- Two live slots of one name are the same slot, unless the source's op of that name is dead. -/
theorem Naming.eq_of_nameAt (naming : Naming g e) (distinct : (opNames g.ops.toList).Nodup)
    {i j : Nat} (atI : e.nameAt i = some n) (atJ : e.nameAt j = some n) :
    i = j ∨ ∃ s, g.opId? n = some s ∧ e.nameAt s = none := by
  by_cases dead : ∃ s, g.opId? n = some s ∧ e.nameAt s = none
  · exact Or.inr dead
  · -- both slots resolve under the name, so they are the same slot
    have unshadowed : ∀ k, e.nameAt k = some n → ∀ s, g.opId? n = some s → k = s :=
      fun k atK s found => naming.eq_source distinct atK found fun none => dead ⟨s, found, none⟩
    have resolvedI := naming.resolve_complete atI (unshadowed i atI)
    have resolvedJ := naming.resolve_complete atJ (unshadowed j atJ)
    exact Or.inl (Except.ok.inj (resolvedI.symm.trans resolvedJ))

end Resolve

theorem naming_start (g : Graph) : Naming g (start g) where
  source := rfl
  grows := by simp [start]
  sourceNamed i n named op atI := by
    simp only [nameAt, start, Array.getElem?_map, atI] at named
    simpa [EditSlot.op?] using named
  insertedBound p member := by simp [start] at member
  insertedNamed p member := by simp [start] at member
  insertedOnce := by simp [start]
  tracked j n past named := by
    simp [nameAt, start, Array.getElem?_eq_none past] at named
  shadowed j n s past named := by
    simp [nameAt, start, Array.getElem?_eq_none past] at named

section Step

variable {g : Graph} {e : Edit}

theorem nameAt_of_set {e e' : Edit} {id : Nat} {old slot : EditSlot} (atId : e.slots[id]? = some old)
    (slots : e'.slots = e.slots.set! id slot) (j : Nat) :
    e'.nameAt j = if id = j then slot.op?.map Op.name else e.nameAt j := by
  simp only [nameAt, slots, getElem?_set!_of_getElem? atId]
  split <;> rfl

theorem nameAt_of_push {e e' : Edit} {slot : EditSlot} (slots : e'.slots = e.slots.push slot)
    (j : Nat) : e'.nameAt j = if j = e.slots.size then slot.op?.map Op.name else e.nameAt j := by
  simp only [nameAt, slots, Array.getElem?_push]
  split <;> rfl

/-- A call that changes neither the source nor the inserted names, and only takes ops out of
slots, keeps the invariant. -/
theorem Naming.shrink (naming : Naming g e) {e' : Edit} (source : e'.source = e.source)
    (inserted : e'.inserted = e.inserted) (size : e'.slots.size = e.slots.size)
    (sub : ∀ j n, e'.nameAt j = some n → e.nameAt j = some n) : Naming g e' where
  source := source.trans naming.source
  grows := size ▸ naming.grows
  sourceNamed i n named := naming.sourceNamed i n (sub i n named)
  insertedBound p member := size ▸ naming.insertedBound p (inserted ▸ member)
  insertedNamed p member m named := naming.insertedNamed p (inserted ▸ member) m (sub _ _ named)
  insertedOnce := inserted ▸ naming.insertedOnce
  tracked j n past named missing := inserted ▸ naming.tracked j n past (sub j n named) missing
  shadowed j n s past named found := by
    have dead := naming.shadowed j n s past (sub j n named) found
    cases atS : e'.nameAt s with
    | none => rfl
    | some m => rw [sub s m atS] at dead; cases dead

/-- When a name does not resolve, the source's slot of that name is dead. -/
theorem Naming.dead_of_unresolved (naming : Naming g e) {n : String}
    (unresolved : ∀ id, e.resolve n ≠ .ok id) {s : Nat} (found : g.opId? n = some s) :
    e.nameAt s = none := by
  cases atS : e.nameAt s with
  | none => rfl
  | some m =>
    obtain ⟨op, atOp, rfl⟩ := Graph.opId?_eq_some found
    have named : e.nameAt s = some op.name := by rw [atS, naming.sourceNamed s m atS op atOp]
    exact absurd (naming.resolve_complete named fun _ same => Option.some.inj (found.symm.trans same))
      (unresolved s)

/-- An insert of a name that does not resolve keeps the invariant. -/
theorem Naming.insert (naming : Naming g e) {op : Op} (unresolved : ∀ id, e.resolve op.name ≠ .ok id)
    {e' : Edit} (source : e'.source = e.source) (slots : e'.slots = e.slots.push (.fresh op))
    (inserted : e'.inserted = (op.name, e.slots.size) :: e.inserted.filter (·.1 != op.name)) :
    Naming g e' := by
  have pushed := nameAt_of_push slots
  simp only [EditSlot.op?, Option.map_some] at pushed
  -- a name already live in the edit would have resolved
  have untracked : ∀ j, e.nameAt j = some op.name → g.opId? op.name = none → False :=
    fun j named missing => unresolved j (naming.resolve_complete named fun _ found => by
      rw [missing] at found; cases found)
  refine ⟨source.trans naming.source, by simpa [slots] using Nat.le_succ_of_le naming.grows, ?_, ?_, ?_, ?_,
    ?_, ?_⟩
  · intro i n named old atI
    rw [pushed] at named
    split at named
    · next atEnd =>
      rw [Array.getElem?_eq_none (atEnd ▸ naming.grows)] at atI
      cases atI
    · exact naming.sourceNamed i n named old atI
  · intro p member
    rw [inserted] at member
    rcases List.mem_cons.mp member with rfl | kept
    · simp [slots]
    · rw [slots, Array.size_push]
      exact Nat.lt_succ_of_lt (naming.insertedBound p (List.mem_of_mem_filter kept))
  · intro p member m named
    rw [inserted] at member
    rw [pushed] at named
    rcases List.mem_cons.mp member with rfl | kept
    · simpa using named.symm
    · obtain ⟨older, other⟩ := List.mem_filter.mp kept
      rw [if_neg (Nat.ne_of_lt (naming.insertedBound p older))] at named
      exact naming.insertedNamed p older m named
  · have others : op.name ∉ (e.inserted.filter (·.1 != op.name)).map Prod.fst := by simp
    rw [inserted, List.map_cons]
    exact List.nodup_cons.mpr ⟨others, naming.insertedOnce.sublist (List.filter_sublist.map _)⟩
  · intro j n past named missing
    rw [pushed] at named
    split at named
    · next atEnd => cases named; simp [inserted, atEnd]
    · have older := naming.tracked j n past named missing
      have other : n ≠ op.name := fun same => untracked j (same ▸ named) (same ▸ missing)
      rw [inserted]
      exact List.mem_cons_of_mem _ (List.mem_filter.mpr ⟨older, by simpa using other⟩)
  · intro j n s past named found
    -- the source's slot of the name is an old slot, and it was dead if the new slot took the name
    have old : g.opId? n = some s → s ≠ e.slots.size := fun found => by
      obtain ⟨_, atS, -⟩ := Graph.opId?_eq_some found
      exact Nat.ne_of_lt (Nat.lt_of_lt_of_le (Array.getElem?_eq_some_iff.mp atS).1 naming.grows)
    rw [pushed, if_neg (old found)]
    rw [pushed] at named
    split at named
    · cases named
      exact naming.dead_of_unresolved unresolved found
    · exact naming.shadowed j n s past named found

theorem Naming.perform (naming : Naming g e) (c : EditCall) : Naming g (e.perform c) := by
  cases c with
  | setMeta name ns kind v =>
    cases resolved : e.resolve name with
    | error err => rw [perform_of_error (by rw [apply_setMeta, resolved]; rfl)]; exact naming
    | ok id =>
      rw [perform_of_ok (by rw [apply_setMeta, resolved]; rfl)]
      exact naming.shrink rfl rfl rfl fun _ _ named => named
  | setMetaById id ns kind v => exact naming.shrink rfl rfl rfl fun _ _ named => named
  | removeOp name =>
    cases resolved : e.resolve name with
    | error err => rw [perform_of_error (by rw [apply_removeOp, resolved]; rfl)]; exact naming
    | ok id =>
      rw [perform_of_ok (by rw [apply_removeOp, resolved]; rfl)]
      obtain ⟨old, atId, -⟩ := Option.bind_eq_some_iff.mp (resolve_eq_ok resolved).2.choose_spec
      refine naming.shrink rfl rfl (by simp) fun j m named => ?_
      rw [nameAt_of_set atId rfl] at named
      split at named
      · cases named
      · exact named
  | replaceOp op =>
    cases resolved : e.resolve op.name with
    | error err => rw [perform_of_error (by rw [apply_replaceOp, resolved]; rfl)]; exact naming
    | ok id =>
      rw [perform_of_ok (by rw [apply_replaceOp, resolved]; rfl)]
      -- the replaced slot held an op of the same name, so no name changes
      have named := (naming.resolve_sound resolved).1
      obtain ⟨old, atId, -⟩ := Option.bind_eq_some_iff.mp (resolve_eq_ok resolved).2.choose_spec
      refine naming.shrink rfl rfl (by simp) fun j m replaced => ?_
      rw [nameAt_of_set atId rfl] at replaced
      split at replaced
      · next same => subst same; simpa [EditSlot.op?, named] using replaced
      · exact replaced
  | insertOp op =>
    rw [perform_insertOp]
    cases resolved : e.resolve op.name with
    | ok => exact naming
    | error => exact naming.insert (fun id ok => by rw [resolved] at ok; cases ok) rfl rfl rfl
  | setOutputs names => exact naming.shrink rfl rfl rfl fun _ _ named => named

theorem Naming.performAll (naming : Naming g e) (calls : List EditCall) :
    Naming g (e.performAll calls) := by
  induction calls generalizing e with
  | nil => exact naming
  | cons c rest ih => exact ih (naming.perform c)

end Step

theorem exists_map_eq_ok {ε α β : Type} {x : Except ε α} {f : α → β} :
    (∃ b, x.map f = .ok b) ↔ ∃ a, x = .ok a := by
  cases x <;> simp [Except.map]

/-- An insert is refused exactly when its name resolves. -/
theorem apply_insertOp_error_iff (e : Edit) (op : Op) :
    (∃ err, e.apply (.insertOp op) = .error err) ↔ ∃ id, e.resolve op.name = .ok id := by
  simp only [apply, insertOp]
  cases e.resolve op.name <;> simp [Except.map]

end Edit

/-- Along any run of calls, a name resolves to a slot exactly when the slot holds a live op of that
name and no other source op has it; so an insert is refused, and a removal, replacement or metadata
write by name accepted, exactly for the names some slot holds in this way. -/
theorem resolve_finds_unshadowed_live_slot (g : Graph) (distinct : (opNames g.ops.toList).Nodup)
    (calls : List EditCall) :
    let e := (Edit.start g).performAll calls
    (∀ n id, e.resolve n = .ok id ↔ e.Holds n id) ∧
    (∀ n i j, e.nameAt i = some n → e.nameAt j = some n →
      i = j ∨ ∃ s, g.opId? n = some s ∧ e.nameAt s = none) ∧
    (∀ op, (∃ err, e.apply (.insertOp op) = .error err) ↔ ∃ id, e.Holds op.name id) ∧
    (∀ n, (∃ e', e.apply (.removeOp n) = .ok e') ↔ ∃ id, e.Holds n id) ∧
    (∀ op, (∃ e', e.apply (.replaceOp op) = .ok e') ↔ ∃ id, e.Holds op.name id) ∧
    (∀ n ns kind v, (∃ e', e.apply (.setMeta n ns kind v) = .ok e') ↔ ∃ id, e.Holds n id) := by
  intro e
  have naming : Edit.Naming g e := (Edit.naming_start g).performAll calls
  have resolves : ∀ n, (∃ id, e.resolve n = .ok id) ↔ ∃ id, e.Holds n id :=
    fun n => exists_congr fun id => naming.resolve_eq_ok_iff
  refine ⟨fun n id => naming.resolve_eq_ok_iff, fun n i j => naming.eq_of_nameAt distinct,
    fun op => (e.apply_insertOp_error_iff op).trans (resolves op.name), fun n => ?_, fun op => ?_,
    fun n ns kind v => ?_⟩
  · rw [Edit.apply_removeOp, Edit.exists_map_eq_ok]
    exact resolves n
  · rw [Edit.apply_replaceOp, Edit.exists_map_eq_ok]
    exact resolves op.name
  · rw [Edit.apply_setMeta, Edit.exists_map_eq_ok]
    exact resolves n

/-- A placeholder `x` with one output. -/
def xPlaceholder : Op := ⟨"x", "Placeholder", [], [⟨"x:0", .float, ⟨none⟩⟩], []⟩

def xGraph : Graph := ⟨#[xPlaceholder], [0], [0], ⟨[]⟩⟩

/-- Remove `x`, then insert an op of the same name. -/
def reinsertX : List EditCall := [.removeOp "x", .insertOp xPlaceholder]

/-- After `x` is removed and inserted twice, the two live slots named `x` are allowed only because
the source's slot of `x` is dead. -/
theorem reinsertedX_shadowed_by_dead_source :
    (opNames xGraph.ops.toList).Nodup ∧
      ((Edit.start xGraph).performAll (reinsertX ++ [.insertOp xPlaceholder])).nameAt 0 = none := by
  have distinct : (opNames xGraph.ops.toList).Nodup := by decide
  obtain ⟨-, unique, -⟩ :=
    resolve_finds_unshadowed_live_slot xGraph distinct (reinsertX ++ [.insertOp xPlaceholder])
  rcases unique "x" 1 2 (by decide +kernel) (by decide +kernel) with same | ⟨s, found, dead⟩
  · cases same
  · have source : xGraph.opId? "x" = some 0 := by decide +kernel
    rw [source, Option.some.injEq] at found
    exact ⟨distinct, found ▸ dead⟩

/-- The op inserted under the removed source name `x` is live in slot 1, yet `x` does not resolve;
a second insert of `x` is accepted, and finishing then fails on the duplicate name. -/
theorem reinsertedX_unresolved :
    let e := (Edit.start xGraph).performAll reinsertX
    e.nameAt 1 = some "x" ∧ e.resolve "x" = .error (.unknownOp "x") ∧
      (e.perform (.insertOp xPlaceholder)).nameAt 2 = some "x" ∧
      ((e.perform (.insertOp xPlaceholder)).finish).map Prod.fst = .error (.duplicateOp "x") := by
  decide +kernel

end OpGraph
