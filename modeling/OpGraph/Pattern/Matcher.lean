import OpGraph.Pattern.Traversal
import OpGraph.Pattern.Binding
import OpGraph.Log

namespace OpGraph

/-- The op type of wildcard pattern inputs. -/
def wildcardOpType : String := "Placeholder"

def isWildcard (op : Op) : Bool := op.opType == wildcardOpType && op.inputs.isEmpty

/-- A validated pattern with its equivalence tables and consumption order. -/
structure Matcher where
  pattern : Graph
  tables : Equivalences
  order : List Nat

/-- What a search found and how many search states it visited. -/
structure SearchTally where
  found : List Binding
  explored : Nat

namespace Matcher

/-- Check a pattern: it needs output ops, and every op must feed one of them. -/
def make (pattern : Graph) (tables : Equivalences) : Except TransformError Matcher :=
  if pattern.outputs.isEmpty then .error (.invalidPattern "pattern has no output nodes")
  else
    let order := pattern.consumptionOrder
    if order.length != pattern.opCount then
      let stray := ((List.range pattern.opCount).find? (fun i => !order.contains i)).map
        fun i => (pattern.opAt i).name
      .error (.invalidPattern ("op '" ++ stray.getD "" ++ "' does not feed any output node"))
    else .ok ⟨pattern, tables, order⟩

/-- Names of the pattern ops in binding order. -/
def orderNames (m : Matcher) : List String := m.order.map fun i => (m.pattern.opAt i).name

/-- The producer shared by the subject tensors paired with a pattern op's outputs: `some none`
when nothing is paired yet, `none` when they disagree or a slot does not fit. -/
def pairedProducer (subject : Graph) (b : Binding) (op : Op) : Option (Option Nat) :=
  op.outputs.zipIdx.foldl (fun acc (t, slot) =>
    match acc, b.subjectTensor? t.name with
    | none, _ => none
    | some known, none => some known
    | some known, some st =>
      match subject.tensorRef? st with
      | none => none
      | some loc =>
        if !isWildcard op && loc.slot != slot then none
        else match known with
          | some k => if k != loc.op then none else some (some loc.op)
          | none => some (some loc.op)) (some none)

/-- Subject ops a pattern op may bind to next. -/
def candidates (m : Matcher) (subject : Graph) (b : Binding) (p : Nat) : List Nat :=
  let op := m.pattern.opAt p
  let seeds := match pairedProducer subject b op with
    | none => []
    | some (some id) =>
      if m.pattern.isOutput p && (subject.opAt id).opType != op.opType then [] else [id]
    | some none => if m.pattern.isOutput p then subject.idsOfType op.opType else []
  seeds.filter fun id => !b.isClaimed id

/-- Every extension of a binding that binds pattern op `p`. -/
def expand (m : Matcher) (subject : Graph) (b : Binding) (p : Nat) : List Binding :=
  let pOp := m.pattern.opAt p
  (m.candidates subject b p).flatMap fun s =>
    let sOp := subject.opAt s
    if isWildcard pOp then (b.bind p s []).toList
    else
      (m.tables.admissible pOp sOp (b.aligns pOp.inputs sOp.inputs)).filterMap fun perm =>
        let inputs := perm.zipIdx.filterMap fun (j, k) =>
          match pOp.inputs[j]?, sOp.inputs[k]? with
          | some pt, some st => some (pt, st)
          | _, _ => none
        let outputs := (pOp.outputs.zip sOp.outputs).map fun (pt, st) => (pt.name, st.name)
        b.bind p s (inputs ++ outputs)

/-- Whether every paired tensor comes from a pair of bound ops. -/
def preservesProducers (m : Matcher) (subject : Graph) (b : Binding) : Bool :=
  b.tensors.all fun (pt, st) =>
    match m.pattern.tensorRef? pt, subject.tensorRef? st with
    | some pr, some sr => b.subjectOp? pr.op == some sr.op
    | _, _ => false

/-- Visit the search state that binds `order[cursor]` next, with `remaining` ops left to bind, and
everything below it. Each visit counts as one explored state. -/
def explore (m : Matcher) (subject : Graph) : Nat → Binding → Nat → SearchTally → SearchTally
  | 0, b, _, tally =>
    let tally := { tally with explored := tally.explored + 1 }
    if m.preservesProducers subject b && !tally.found.any (·.samePairs b) then
      { tally with found := tally.found ++ [b] }
    else tally
  | remaining + 1, b, cursor, tally =>
    let tally := { tally with explored := tally.explored + 1 }
    match m.order[cursor]? with
    | none => tally
    | some p =>
      if b.isBound p then explore m subject remaining b (cursor + 1) tally
      else
        (m.expand subject b p).foldl (fun acc child => explore m subject remaining child (cursor + 1) acc)
          tally

/-- Every distinct occurrence of the pattern in `subject`, in discovery order. -/
def matchAll (m : Matcher) (subject : Graph) : Logged (List GraphMatch) := do
  let absent := (m.pattern.outputs.map m.pattern.opAt).find? fun op => (subject.idsOfType op.opType).isEmpty
  match absent with
  | some op =>
    Logged.emit .debug "Pattern output type absent from subject" [("op_type", op.opType)]
    pure []
  | none =>
    let tally := m.explore subject m.order.length Binding.empty 0 ⟨[], 0⟩
    Logged.emit .debug "Pattern matching finished"
      [("pattern_ops", toString m.pattern.opCount), ("subject_ops", toString subject.opCount),
        ("explored", toString tally.explored), ("matches", toString tally.found.length)]
    pure (tally.found.map (GraphMatch.ofBinding m.pattern subject))

end Matcher

/-- Find a pattern with the built-in equivalences. -/
def findMatches (pattern subject : Graph) : Except TransformError (Logged (List GraphMatch)) := do
  let m ← Matcher.make pattern Equivalences.defaults
  pure (m.matchAll subject)

end OpGraph
