import OpGraph.Proofs.Graph.MetaTable
import OpGraph.Graph.Edit

namespace OpGraph

namespace Edit

/-- The fold behind `renumber`: the counter is the number of live slots, and the entry of slot `j`
is its rank among the live slots, or nothing for an empty slot. -/
theorem foldl_renumber {step : List (Option Nat) × Nat → EditSlot → List (Option Nat) × Nat}
    (behaves : ∀ acc next s, step (acc, next) s =
      if s.op?.isSome then (some next :: acc, next + 1) else (none :: acc, next))
    (slots : List EditSlot) :
    (slots.foldl step ([], 0)).2 = slots.countP (·.op?.isSome) ∧
      (slots.foldl step ([], 0)).1.length = slots.length ∧
      ∀ j, (slots.foldl step ([], 0)).1.reverse[j]? = slots[j]?.map fun (s : EditSlot) =>
        if s.op?.isSome then some ((slots.take j).countP (·.op?.isSome)) else none := by
  induction slots using List.reverseRecOn with
  | nil => simp
  | append_singleton slots s ih =>
    rw [List.foldl_append, List.foldl_cons, List.foldl_nil]
    generalize slots.foldl step ([], 0) = state at ih
    obtain ⟨entries, next⟩ := state
    obtain ⟨count, length, entry⟩ := ih
    simp only at count length entry
    subst count
    -- the new slot's entry goes last, after those of `slots`
    have shape : step (entries, slots.countP (·.op?.isSome)) s =
        ((if s.op?.isSome then some (slots.countP (·.op?.isSome)) else none) :: entries,
          slots.countP (·.op?.isSome) + if s.op?.isSome then 1 else 0) := by
      rw [behaves]
      cases s.op?.isSome <;> rfl
    rw [shape]
    refine ⟨by simp, by simp [length], fun j => ?_⟩
    rcases Nat.lt_trichotomy j slots.length with inside | rfl | past
    · rw [List.reverse_cons, List.getElem?_append_left (by simpa [length] using inside), entry,
        List.getElem?_append_left inside, List.take_append_of_le_length inside.le]
    · simp [length]
    · rw [List.getElem?_eq_none (by simp [length]; omega), List.getElem?_eq_none (by simp; omega)]
      rfl

/-- Where slot `j` lands once the empty slots are dropped: its rank among the live slots, or
nothing for an empty slot. -/
theorem renumber_getElem? (slots : List EditSlot) (j : Nat) :
    (renumber slots)[j]? = slots[j]?.map fun (s : EditSlot) =>
      if s.op?.isSome then some ((slots.take j).countP (·.op?.isSome)) else none := by
  rw [renumber]
  refine (foldl_renumber ?_ slots).2.2 j
  intro acc next s
  cases s <;> rfl

/-- The ops of the live slots, in slot order. -/
def liveOps (e : Edit) : List Op := e.slots.toList.filterMap EditSlot.op?

/-- The id a slot of the edit gets in the finished graph, if it holds an op. -/
def newId (e : Edit) (id : Nat) : Option Nat := ((renumber e.slots.toList)[id]?).getD none

theorem newId_eq (e : Edit) (j : Nat) :
    e.newId j = (e.slots[j]?).bind fun s =>
      if s.op?.isSome then some ((e.slots.toList.take j).countP (·.op?.isSome)) else none := by
  simp only [newId, renumber_getElem?, Array.getElem?_toList]
  cases e.slots[j]? <;> rfl

theorem newId_eq_some {e : Edit} {j k : Nat} :
    e.newId j = some k ↔ ∃ op, (e.slots[j]?).bind EditSlot.op? = some op ∧
      (e.slots.toList.take j).countP (·.op?.isSome) = k := by
  rw [newId_eq]
  cases e.slots[j]? with
  | none => simp
  | some s => cases s <;> simp [EditSlot.op?]

theorem getElem?_filterMap_countP {α β : Type} {f : α → Option β} {b : β} :
    ∀ {l : List α} {j : Nat}, (l[j]?).bind f = some b →
      (l.filterMap f)[(l.take j).countP fun a => (f a).isSome]? = some b
  | a :: rest, 0, kept => by simp_all
  | a :: rest, j + 1, kept => by
    have later := getElem?_filterMap_countP (l := rest) (j := j) (by simpa using kept)
    cases fa : f a <;> simp_all

theorem getElem?_liveOps {e : Edit} {j k : Nat} (moved : e.newId j = some k) :
    e.liveOps[k]? = (e.slots[j]?).bind EditSlot.op? := by
  obtain ⟨op, live, rfl⟩ := newId_eq_some.mp moved
  rw [live]
  exact getElem?_filterMap_countP (by simpa using live)

theorem newId_lt_length {e : Edit} {j k : Nat} (moved : e.newId j = some k) :
    k < e.liveOps.length := by
  have present := getElem?_liveOps moved
  obtain ⟨op, live, -⟩ := newId_eq_some.mp moved
  rw [live] at present
  exact (List.getElem?_eq_some_iff.mp present).1

theorem newId_lt_newId {e : Edit} {a b ja jb : Nat} (ha : e.newId a = some ja)
    (hb : e.newId b = some jb) (lt : a < b) : ja < jb := by
  obtain ⟨op, live, rfl⟩ := newId_eq_some.mp ha
  obtain ⟨-, -, rfl⟩ := newId_eq_some.mp hb
  -- slot `a` is live and lies among the first `b` slots
  have counted : (e.slots.toList.take (a + 1)).countP (·.op?.isSome) =
      (e.slots.toList.take a).countP (·.op?.isSome) + 1 := by
    obtain ⟨s, atA, holds⟩ := Option.bind_eq_some_iff.mp live
    simp [List.take_add_one, atA, holds]
  have within := (List.take_prefix_take_left (l := e.slots.toList) (show a + 1 ≤ b by omega)).countP_le
    (p := (·.op?.isSome))
  omega

theorem orderPreserving_newId (e : Edit) : Metadata.OrderPreserving e.newId := by
  intro a b ja jb ha hb
  refine ⟨newId_lt_newId ha hb, fun lt => ?_⟩
  rcases Nat.lt_trichotomy a b with before | same | after
  · exact before
  · subst same
    rw [ha, Option.some.injEq] at hb
    omega
  · have := newId_lt_newId hb ha after
    omega

theorem newId_of_forall_live {e : Edit} (live : ∀ s ∈ e.slots.toList, s.op?.isSome) (j : Nat) :
    e.newId j = if j < e.slots.size then some j else none := by
  rw [newId_eq]
  split
  · next inside =>
    have atJ : e.slots[j]? = some e.slots[j] := Array.getElem?_eq_getElem inside
    have holds := live _ (Array.getElem_mem_toList inside)
    have all : (e.slots.toList.take j).countP (·.op?.isSome) = j := by
      rw [List.countP_eq_length.mpr fun s member => live s (List.mem_of_mem_take member)]
      simp [inside.le]
    simp [atJ, holds, all]
  · next outside => simp [outside]

/-- A name resolves to a live slot, found through the source's ids or else the inserted names. -/
theorem resolve_eq_ok {e : Edit} {name : String} {id : Nat} (resolved : e.resolve name = .ok id) :
    (e.source.opId? name = some id ∨ ∃ p ∈ e.inserted, p.2 = id) ∧
      ∃ op, (e.slots[id]?).bind EditSlot.op? = some op := by
  unfold resolve at resolved
  simp only at resolved
  split at resolved
  · next i found =>
    -- the slot must hold an op, and then `id` is the id found
    have live : id = i ∧ ∃ op, (e.slots[i]?).bind EditSlot.op? = some op := by
      split at resolved
      · next op atI => exact ⟨(Except.ok.inj resolved).symm, op, by simp [atI, EditSlot.op?]⟩
      · next op atI => exact ⟨(Except.ok.inj resolved).symm, op, by simp [atI, EditSlot.op?]⟩
      · cases resolved
    obtain ⟨rfl, live⟩ := live
    refine ⟨?_, live⟩
    split at found
    · next j source => exact Or.inl (source.trans found)
    · next =>
      obtain ⟨p, inserted, rfl⟩ := Option.map_eq_some_iff.mp found
      exact Or.inr ⟨p, List.mem_of_find?_eq_some inserted, rfl⟩
  · cases resolved

end Edit

/-- A call on an edit, as a pass makes it. -/
inductive EditCall where
  | setMeta (name : String) (ns : Namespace) (kind : String) (value : MetaValue)
  | setMetaById (id : Nat) (ns : Namespace) (kind : String) (value : MetaValue)
  | removeOp (name : String)
  | replaceOp (op : Op)
  | insertOp (op : Op)
  | setOutputs (names : List String)

namespace Edit

/-- The edit after a call, or the call's error. -/
def apply (e : Edit) : EditCall → Except ValidationError Edit
  | .setMeta name ns kind v => (e.setMeta name ns kind v).map Prod.fst
  | .setMetaById id ns kind v => .ok (e.setMetaAt id ns kind v).1
  | .removeOp name => (e.removeOp name).map Prod.fst
  | .replaceOp op => (e.replaceOp op).map Prod.fst
  | .insertOp op => (e.insertOp op).map Prod.fst
  | .setOutputs names => .ok (e.setOutputs names)

/-- A call made on an edit; one that fails leaves the edit as it was. -/
def perform (e : Edit) (c : EditCall) : Edit :=
  match e.apply c with
  | .ok e' => e'
  | .error _ => e

def performAll (e : Edit) (calls : List EditCall) : Edit := calls.foldl perform e

/-- The id a call writes under without resolving a name is a slot of the edit. -/
def idFits (e : Edit) : EditCall → Prop
  | .setMetaById id _ _ _ => id < e.slots.size
  | _ => True

/-- Every id a run of calls writes under directly was handed out before the call: an id of the
source or one returned by an earlier insert of the same edit. -/
def IdsHandedOut : Edit → List EditCall → Prop
  | _, [] => True
  | e, c :: rest => e.idFits c ∧ IdsHandedOut (e.perform c) rest

theorem apply_setMeta (e : Edit) (name : String) (ns : Namespace) (kind : String) (v : MetaValue) :
    e.apply (.setMeta name ns kind v) =
      (e.resolve name).map fun id => { e with metadata := (e.metadata.insert id ns kind v).1 } := by
  simp only [apply, setMeta, setMetaAt]
  cases e.resolve name <;> rfl

/-- Removing an op fails only when its name does not resolve. -/
theorem apply_removeOp (e : Edit) (name : String) :
    e.apply (.removeOp name) = (e.resolve name).map fun id =>
      { e with slots := e.slots.set! id .removed, metadata := e.metadata.removeOp id,
               removedAny := true } := by
  simp only [apply, removeOp]
  cases resolved : e.resolve name with
  | error err => rfl
  | ok id =>
    obtain ⟨-, op, live⟩ := resolve_eq_ok resolved
    simp [live, bind, Except.bind, Except.map, pure, Except.pure]

/-- Replacing an op fails only when its name does not resolve. -/
theorem apply_replaceOp (e : Edit) (op : Op) :
    e.apply (.replaceOp op) = (e.resolve op.name).map fun id =>
      { e with slots := e.slots.set! id (.fresh op), rewired := true } := by
  simp only [apply, replaceOp]
  cases resolved : e.resolve op.name with
  | error err => rfl
  | ok id =>
    obtain ⟨-, old, live⟩ := resolve_eq_ok resolved
    simp [live, bind, Except.bind, Except.map, pure, Except.pure]

theorem perform_of_ok {e e' : Edit} {c : EditCall} (applied : e.apply c = .ok e') :
    e.perform c = e' := by
  rw [perform, applied]

theorem perform_of_error {e : Edit} {c : EditCall} {err : ValidationError}
    (failed : e.apply c = .error err) : e.perform c = e := by
  rw [perform, failed]

theorem perform_insertOp (e : Edit) (op : Op) :
    e.perform (.insertOp op) = match e.resolve op.name with
      | .ok _ => e
      | .error _ => { e with slots := e.slots.push (.fresh op),
                             inserted := (op.name, e.slots.size) :: e.inserted.filter (·.1 != op.name),
                             rewired := true } := by
  simp only [perform, apply, insertOp]
  cases e.resolve op.name <;> rfl

/-- How a slot relates to the source graph at its id: the source's op carried over, a record in
its place under the same name, or nothing. Past the source's ops this leaves inserted records and
nothing. -/
def SlotFrom (g : Graph) (i : Nat) : EditSlot → Prop
  | .kept op => g.ops[i]? = some op
  | .fresh op => ∀ old, g.ops[i]? = some old → op.name = old.name
  | .removed => True

/-- What holds of an edit of `g` after any run of calls. -/
structure Inv (g : Graph) (e : Edit) : Prop where
  source : e.source = g
  grows : g.ops.size ≤ e.slots.size
  slotFrom : ∀ i s, e.slots[i]? = some s → SlotFrom g i s
  insertedPast : ∀ p ∈ e.inserted, g.ops.size ≤ p.2
  metaFits : e.metadata.Fits e.slots.size
  untouched : e.removedAny = false → e.rewired = false → e.slots = g.ops.map .kept

theorem inv_start {g : Graph} (fits : g.metadata.Fits g.ops.size) : Inv g (start g) where
  source := rfl
  grows := by simp [start]
  slotFrom i s atI := by
    obtain ⟨op, atOp, rfl⟩ := Option.map_eq_some_iff.mp (by simpa [start] using atI)
    exact atOp
  insertedPast p member := by simp [start] at member
  metaFits := by simpa [start] using fits
  untouched _ _ := rfl

section Step

variable {g : Graph} {e : Edit}

theorem Inv.setMetaAt (inv : Inv g e) {id : Nat} (bound : id < e.slots.size) (ns : Namespace)
    (kind : String) (v : MetaValue) :
    Inv g { e with metadata := (e.metadata.insert id ns kind v).1 } :=
  { inv with metaFits := inv.metaFits.insert bound ns kind v }

theorem slotFrom_set {slots : Array EditSlot} {id : Nat} {old slot : EditSlot}
    (atId : slots[id]? = some old) (fits : SlotFrom g id slot)
    (before : ∀ i s, slots[i]? = some s → SlotFrom g i s) :
    ∀ i s, (slots.set! id slot)[i]? = some s → SlotFrom g i s := by
  intro i s atI
  rw [getElem?_set!_of_getElem? atId] at atI
  split at atI
  · next same =>
    cases atI
    exact same ▸ fits
  · exact before i s atI

theorem Inv.remove (inv : Inv g e) {id : Nat} {op : Op}
    (live : (e.slots[id]?).bind EditSlot.op? = some op) :
    Inv g { e with slots := e.slots.set! id .removed, metadata := e.metadata.removeOp id,
                   removedAny := true } := by
  obtain ⟨old, atId, -⟩ := Option.bind_eq_some_iff.mp live
  exact { inv with
    grows := by simpa using inv.grows
    slotFrom := slotFrom_set atId trivial inv.slotFrom
    metaFits := by simpa using inv.metaFits.removeOp id
    untouched := fun removed => by cases removed }

/-- A replacement keeps the name of the op it replaces, so a source slot keeps its name. -/
theorem Inv.replace (inv : Inv g e) {op : Op} {id : Nat} (resolved : e.resolve op.name = .ok id) :
    Inv g { e with slots := e.slots.set! id (.fresh op), rewired := true } := by
  obtain ⟨found, prev, live⟩ := resolve_eq_ok resolved
  obtain ⟨old, atId, -⟩ := Option.bind_eq_some_iff.mp live
  have named : SlotFrom g id (.fresh op) := by
    intro source atSource
    rcases found with fromSource | ⟨p, inserted, rfl⟩
    · rw [inv.source, Graph.opId?, Array.findIdx?_eq_some_iff_getElem] at fromSource
      obtain ⟨bound, same, -⟩ := fromSource
      rw [Array.getElem?_eq_getElem bound, Option.some.injEq] at atSource
      subst atSource
      exact (by simpa using same : g.ops[id].name = op.name).symm
    · -- an inserted id lies past the source's ops
      have past := inv.insertedPast p inserted
      rw [Array.getElem?_eq_none past] at atSource
      cases atSource
  exact { inv with
    grows := by simpa using inv.grows
    slotFrom := slotFrom_set atId named inv.slotFrom
    metaFits := by simpa using inv.metaFits
    untouched := fun _ rewired => by cases rewired }

theorem Inv.insert (inv : Inv g e) (op : Op) :
    Inv g { e with slots := e.slots.push (.fresh op),
                   inserted := (op.name, e.slots.size) :: e.inserted.filter (·.1 != op.name),
                   rewired := true } where
  source := inv.source
  grows := by simpa using Nat.le_succ_of_le inv.grows
  slotFrom i s atI := by
    rw [Array.getElem?_push] at atI
    split at atI
    · next atEnd =>
      cases atI
      intro old atOld
      have past : g.ops.size ≤ i := atEnd ▸ inv.grows
      rw [Array.getElem?_eq_none past] at atOld
      cases atOld
    · exact inv.slotFrom i s atI
  insertedPast p member := by
    rcases List.mem_cons.mp member with rfl | kept
    · exact inv.grows
    · exact inv.insertedPast p (List.mem_of_mem_filter kept)
  metaFits := inv.metaFits.mono (by simp)
  untouched _ rewired := by cases rewired

theorem Inv.perform (inv : Inv g e) {c : EditCall} (fits : e.idFits c) : Inv g (e.perform c) := by
  cases c with
  | setMeta name ns kind v =>
    cases resolved : e.resolve name with
    | error err => rw [perform_of_error (by rw [apply_setMeta, resolved]; rfl)]; exact inv
    | ok id =>
      rw [perform_of_ok (by rw [apply_setMeta, resolved]; rfl)]
      obtain ⟨-, op, live⟩ := resolve_eq_ok resolved
      obtain ⟨s, atId, -⟩ := Option.bind_eq_some_iff.mp live
      exact inv.setMetaAt (Array.getElem?_eq_some_iff.mp atId).1 ns kind v
  | setMetaById id ns kind v => exact inv.setMetaAt fits ns kind v
  | removeOp name =>
    cases resolved : e.resolve name with
    | error err => rw [perform_of_error (by rw [apply_removeOp, resolved]; rfl)]; exact inv
    | ok id =>
      rw [perform_of_ok (by rw [apply_removeOp, resolved]; rfl)]
      exact inv.remove (resolve_eq_ok resolved).2.choose_spec
  | replaceOp op =>
    cases resolved : e.resolve op.name with
    | error err => rw [perform_of_error (by rw [apply_replaceOp, resolved]; rfl)]; exact inv
    | ok id =>
      rw [perform_of_ok (by rw [apply_replaceOp, resolved]; rfl)]
      exact inv.replace resolved
  | insertOp op =>
    rw [perform_insertOp]
    cases e.resolve op.name with
    | ok => exact inv
    | error => exact inv.insert op
  | setOutputs names => exact { inv with }

theorem Inv.performAll (inv : Inv g e) {calls : List EditCall} (handed : IdsHandedOut e calls) :
    Inv g (e.performAll calls) := by
  induction calls generalizing e with
  | nil => exact inv
  | cons c rest ih => exact ih (inv.perform handed.1) handed.2

end Step

/-- An edit that only wrote metadata: nothing removed, replaced or inserted, and no output names
given. -/
def OnlyMetadata (e : Edit) : Prop :=
  e.removedAny = false ∧ e.rewired = false ∧ e.outputNames = none

theorem finish_of_onlyMetadata {e : Edit} (only : e.OnlyMetadata) :
    e.finish = .ok ({ e.source with metadata := e.metadata }, .whole) := by
  obtain ⟨removed, rewired, outputs⟩ := only
  simp [finish, removed, rewired, outputs, pure, Except.pure]

theorem changed_of_structural {e : Edit} (structural : ¬ e.OnlyMetadata) :
    (e.removedAny || e.rewired || e.outputNames.isSome) = true := by
  simp only [OnlyMetadata] at structural
  cases removed : e.removedAny <;> cases rewired : e.rewired <;> cases outputs : e.outputNames <;>
    simp_all

theorem build_of_finish {e : Edit} (structural : ¬ e.OnlyMetadata) {g' : Graph} {reuse : Reuse}
    (done : e.finish = .ok (g', reuse)) :
    Graph.build e.liveOps.toArray
      (match e.outputNames with
        | some names => names
        | none => (e.source.outputs.filter fun id => (e.newId id).isSome).map
            fun id => (e.source.opAt id).name)
      (if e.rewired then none else some (e.source.topo.filterMap e.newId))
      (e.metadata.remap e.newId) = .ok g' := by
  simp only [finish, changed_of_structural structural, Bool.not_true, Bool.false_eq_true, if_false] at done
  obtain ⟨built, buildOk, result⟩ := except_bind_eq_ok.mp done
  cases result
  exact buildOk

/-- Finishing a structural edit succeeds when building its live ops succeeds. -/
theorem finish_of_build {e : Edit} (structural : ¬ e.OnlyMetadata) {g' : Graph}
    (built : Graph.build e.liveOps.toArray
      (match e.outputNames with
        | some names => names
        | none => (e.source.outputs.filter fun id => (e.newId id).isSome).map
            fun id => (e.source.opAt id).name)
      (if e.rewired then none else some (e.source.topo.filterMap e.newId))
      (e.metadata.remap e.newId) = .ok g') :
    ∃ reuse, e.finish = .ok (g', reuse) := by
  simp only [finish, changed_of_structural structural, Bool.not_true, Bool.false_eq_true, if_false]
  exact ⟨_, except_bind_eq_ok.mpr ⟨g', built, rfl⟩⟩

/-- What a finished edit gives: the live ops, a valid graph, the edit's metadata renumbered, and
the output names given or else the source's surviving outputs. -/
structure Finished (g : Graph) (e : Edit) (g' : Graph) : Prop where
  ops : g'.ops.toList = e.liveOps
  valid : g'.Valid
  metadata : g'.metadata = ⟨e.metadata.entries.filterMap (Metadata.relabel e.newId)⟩
  survivors : e.outputNames = none → g'.outputs = g.outputs.filterMap e.newId
  given : ∀ names, e.outputNames = some names → g'.outputNames = names.eraseDups

theorem map_filter_isSome {α β : Type} {f : α → Option β} {h : α → β} :
    ∀ {l : List α}, (∀ a ∈ l, ∀ b, f a = some b → h a = b) →
      (l.filter fun a => (f a).isSome).map h = l.filterMap f
  | [], _ => rfl
  | a :: rest, agree => by
    have restAgree := fun x member => agree x (List.mem_cons_of_mem a member)
    cases fa : f a with
    | none => simp [fa, map_filter_isSome restAgree]
    | some b => simp [fa, agree a List.mem_cons_self b fa, map_filter_isSome restAgree]

section Finish

variable {g : Graph} {e : Edit}

theorem Inv.name_of_live (inv : Inv g e) {j : Nat} {op old : Op}
    (live : (e.slots[j]?).bind EditSlot.op? = some op) (atOld : g.ops[j]? = some old) :
    op.name = old.name := by
  obtain ⟨s, atJ, holds⟩ := Option.bind_eq_some_iff.mp live
  have fits := inv.slotFrom j s atJ
  cases s with
  | kept kept =>
    cases holds
    rw [SlotFrom, atOld, Option.some.injEq] at fits
    rw [fits]
  | fresh fresh =>
    cases holds
    exact fits old atOld
  | removed => cases holds

/-- The source's surviving outputs, looked up by name among the live ops, are their new ids. -/
theorem Inv.survivingOutputs (valid : g.Valid) (inv : Inv g e) (distinct : (opNames e.liveOps).Nodup) :
    ((g.outputs.filter fun id => (e.newId id).isSome).map fun id => (g.opAt id).name).map
      (opNames e.liveOps).idxOf = g.outputs.filterMap e.newId := by
  rw [List.map_map]
  apply map_filter_isSome
  intro id output k moved
  have bound := valid.outputsInRange id output
  obtain ⟨op, live, -⟩ := newId_eq_some.mp moved
  have named := inv.name_of_live live (show g.ops[id]? = some (g.opAt id) by simp [Graph.opAt, bound])
  have atK := getElem?_liveOps moved
  rw [live] at atK
  have inNames : k < (opNames e.liveOps).length := by simpa [opNames] using newId_lt_length moved
  have nameAtK : (opNames e.liveOps)[k] = op.name := by
    simp [opNames, List.getElem_map, (List.getElem?_eq_some_iff.mp atK).2]
  simp only [Function.comp_apply, ← named, ← nameAtK, distinct.idxOf_getElem]

theorem Inv.finish_structural (valid : g.Valid) (inv : Inv g e) (structural : ¬ e.OnlyMetadata)
    {g' : Graph} {reuse : Reuse} (done : e.finish = .ok (g', reuse)) : Finished g e g' := by
  obtain ⟨accepts, ops, metadata, outputs, -, valid'⟩ := build_eq_ok (build_of_finish structural done)
  have liveOps : g'.ops.toList = e.liveOps := by simp [ops]
  refine ⟨liveOps, valid', ?_, fun none => ?_, fun names given => ?_⟩
  · rw [metadata, Metadata.remap_eq inv.metaFits.sorted (orderPreserving_newId e)]
  · simp only [none, inv.source] at outputs
    rw [outputs, inv.survivingOutputs valid accepts.distinctOps, eraseDups_eq_self]
    exact valid.outputsDistinct.filterMap fun a a' b ha ha' =>
      ((orderPreserving_newId e).eq ha ha').mpr rfl
  · simp only [given] at outputs accepts
    rw [Graph.outputNames, outputs]
    apply eraseDups_map_of_leftInverse
    intro n member
    have named : n ∈ opNames g'.ops.toList := liveOps ▸ accepts.known n member
    simpa [liveOps] using opAt_idxOf_name named

theorem Inv.finish_onlyMetadata (valid : g.Valid) (inv : Inv g e) (only : e.OnlyMetadata)
    {g' : Graph} {reuse : Reuse} (done : e.finish = .ok (g', reuse)) :
    g' = { g with metadata := e.metadata } ∧ reuse = .whole ∧ Finished g e g' := by
  rw [finish_of_onlyMetadata only, inv.source, Except.ok.injEq, Prod.mk.injEq] at done
  obtain ⟨rfl, rfl⟩ := done
  have untouched := inv.untouched only.1 only.2.1
  -- every slot holds its source op, so every id stays where it is
  have stays : ∀ j, e.newId j = if j < g.ops.size then some j else none := by
    intro j
    rw [newId_of_forall_live (by simp [untouched, EditSlot.op?]), untouched, Array.size_map]
  have kept : e.metadata.entries.filterMap (Metadata.relabel e.newId) = e.metadata.entries := by
    rw [List.filterMap_congr (g := some), List.filterMap_some]
    intro x member
    have bound : x.op < g.ops.size := by
      simpa [untouched] using inv.metaFits.inRange x member
    simp [Metadata.relabel, stays, bound]
  have sameOps : g.ops.toList = e.liveOps := by
    rw [liveOps, untouched, Array.toList_map, List.filterMap_map]
    exact List.filterMap_some.symm
  refine ⟨rfl, rfl, ⟨sameOps, ⟨valid.distinctOps, valid.distinctTensors, valid.resolve, valid.topo,
    valid.outputsDistinct, valid.outputsInRange⟩, by simp [kept], fun _ => ?_,
    fun names given => absurd given (by simp [only.2.2])⟩⟩
  symm
  rw [List.filterMap_congr (g := some), List.filterMap_some]
  intro id output
  simp [stays, valid.outputsInRange id output]

end Finish

end Edit

open Edit in
/-- The contract of an edit of a valid graph: a finished edit keeps the source's slot layout, holds
the live slots' ops in slot order, is valid, moves each live slot's metadata to its new id,
renumbers the outputs, and shares all of the source when only metadata was written. -/
theorem finish_renumbers_live_slots (g : Graph) (valid : g.Valid)
    (fits : g.metadata.Fits g.ops.size) (calls : List EditCall)
    (handed : IdsHandedOut (start g) calls) {g' : Graph} {reuse : Reuse}
    (done : ((start g).performAll calls).finish = .ok (g', reuse)) :
    let e := (start g).performAll calls
    (g.ops.size ≤ e.slots.size ∧ ∀ i s, e.slots[i]? = some s → SlotFrom g i s) ∧
      g'.ops.toList = e.liveOps ∧ g'.Valid ∧ g'.metadata.Fits g'.ops.size ∧
      g'.metadata = ⟨e.metadata.entries.filterMap (Metadata.relabel e.newId)⟩ ∧
      (∀ j k, e.newId j = some k →
        g'.metadata.forOp k = (e.metadata.forOp j).map fun x => { x with op := k }) ∧
      (e.outputNames = none → g'.outputs = g.outputs.filterMap e.newId) ∧
      (∀ names, e.outputNames = some names → g'.outputNames = names.eraseDups) ∧
      (e.OnlyMetadata → g'.ops = g.ops ∧ g'.topo = g.topo ∧ g'.outputs = g.outputs ∧
        reuse = .whole) := by
  intro e
  have inv : Inv g e := (inv_start fits).performAll handed
  have finished : Finished g e g' := by
    by_cases only : e.OnlyMetadata
    · exact (inv.finish_onlyMetadata valid only done).2.2
    · exact inv.finish_structural valid only done
  have metaFits : g'.metadata.Fits g'.ops.size := by
    rw [finished.metadata, ← Array.length_toList, finished.ops]
    exact Metadata.Fits.relabel inv.metaFits.sorted (orderPreserving_newId e)
      fun _ _ moved => newId_lt_length moved
  refine ⟨⟨inv.grows, inv.slotFrom⟩, finished.ops, finished.valid, metaFits, finished.metadata,
    fun j k moved => ?_, finished.survivors, finished.given, fun only => ?_⟩
  · rw [finished.metadata]
    exact Metadata.forOp_relabel (orderPreserving_newId e) moved e.metadata.entries
  · obtain ⟨rfl, rfl, -⟩ := inv.finish_onlyMetadata valid only done
    exact ⟨rfl, rfl, rfl, rfl⟩

/-- A chain `x → y → z` with metadata on `y` and `z`. -/
def chainGraph : Graph :=
  ⟨#[⟨"x", "Placeholder", [], [⟨"x:0", .float, ⟨none⟩⟩], []⟩,
     ⟨"y", "Relu", ["x:0"], [⟨"y:0", .float, ⟨none⟩⟩], []⟩,
     ⟨"z", "Relu", ["y:0"], [⟨"z:0", .float, ⟨none⟩⟩], []⟩], [0, 1, 2], [2],
    ⟨[⟨1, ⟨"tags", by decide⟩, "seen", .flag true⟩, ⟨2, ⟨"tags", by decide⟩, "seen", .flag false⟩]⟩⟩

/-- Remove `z`, insert `w` after `x`, tag `w` under the id its insert handed out, and name the
outputs. -/
def chainCalls : List EditCall :=
  [.removeOp "z", .insertOp ⟨"w", "Relu", ["x:0"], [⟨"w:0", .float, ⟨none⟩⟩], []⟩,
   .setMetaById 3 ⟨"tags", by decide⟩ "seen" (.count 1), .setOutputs ["w", "y"]]

/-- The edited chain: `z`'s slot and metadata are gone and `w` takes the freed id. -/
def chainResult : Graph :=
  ⟨#[⟨"x", "Placeholder", [], [⟨"x:0", .float, ⟨none⟩⟩], []⟩,
     ⟨"y", "Relu", ["x:0"], [⟨"y:0", .float, ⟨none⟩⟩], []⟩,
     ⟨"w", "Relu", ["x:0"], [⟨"w:0", .float, ⟨none⟩⟩], []⟩], [0, 1, 2], [2, 1],
    ⟨[⟨1, ⟨"tags", by decide⟩, "seen", .flag true⟩, ⟨2, ⟨"tags", by decide⟩, "seen", .count 1⟩]⟩⟩

theorem chainEdit_finishes_valid :
    chainGraph.Valid ∧ chainGraph.metadata.Fits chainGraph.ops.size ∧
      Edit.IdsHandedOut (Edit.start chainGraph) chainCalls ∧
      ((Edit.start chainGraph).performAll chainCalls).finish = .ok (chainResult, .records ["x", "y"]) ∧
      chainResult.Valid ∧ chainResult.metadata.Fits chainResult.ops.size := by
  have valid : chainGraph.Valid :=
    ⟨by decide, by decide, by decide, by decide, by decide, by decide⟩
  have fits : chainGraph.metadata.Fits chainGraph.ops.size := ⟨by decide, by decide⟩
  have handed : Edit.IdsHandedOut (Edit.start chainGraph) chainCalls := by
    refine ⟨trivial, trivial, ?_, trivial, trivial⟩
    unfold Edit.idFits
    decide +kernel
  have done : ((Edit.start chainGraph).performAll chainCalls).finish =
      .ok (chainResult, .records ["x", "y"]) := by
    decide +kernel
  have contract := finish_renumbers_live_slots chainGraph valid fits chainCalls handed done
  exact ⟨valid, fits, handed, done, contract.2.2.1, contract.2.2.2.1⟩

end OpGraph
