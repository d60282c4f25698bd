import OpGraph.Transform.Pipeline
import Mathlib

namespace OpGraph

namespace Logged

variable {α β : Type}

@[simp] theorem bind_value (m : Logged α) (f : α → Logged β) : (m >>= f).value = (f m.value).value :=
  rfl

@[simp] theorem bind_events (m : Logged α) (f : α → Logged β) :
    (m >>= f).events = m.events ++ (f m.value).events := rfl

@[simp] theorem pure_value (a : α) : (pure a : Logged α).value = a := rfl

@[simp] theorem pure_events (a : α) : (pure a : Logged α).events = [] := rfl

@[simp] theorem emit_events (level : LogLevel) (message : String) (fields : List (String × String)) :
    (emit level message fields).events = [⟨level, message, fields⟩] := rfl

end Logged

namespace Reuse

@[simp] theorem andThen_whole (r : Reuse) : r.andThen .whole = r := by
  cases r <;> rfl

@[simp] theorem whole_andThen (r : Reuse) : Reuse.whole.andThen r = r := by
  cases r <;> rfl

/-- Sharing composes associatively: the records kept through three derivations are those kept by
each of them. -/
theorem andThen_assoc (a b c : Reuse) : (a.andThen b).andThen c = a.andThen (b.andThen c) := by
  cases c with
  | whole => simp
  | records lc =>
    cases b with
    | whole => simp
    | records lb =>
      cases a with
      | whole => rfl
      | records la =>
        simp only [andThen, List.filter_filter, Reuse.records.injEq]
        congr 1
        funext n
        simp [Bool.and_comm]

end Reuse

/-- The report of a pass that took `before` to `after`. -/
def PassReport.between (p : Pass) (before after : Graph) : PassReport :=
  ⟨p.name, before.opCount, after.opCount, before.metadata.size, after.metadata.size⟩

/-- The total is the sum over the entries of the ops each pass removed, a pass that added ops
counting none. -/
theorem PipelineReport.opsRemoved_eq_sum (r : PipelineReport) :
    r.opsRemoved = (r.passes.map fun e => e.opsBefore - e.opsAfter).sum := rfl

namespace Pass

/-- What a pass adds to the log of a pipeline when it runs on `g`: the pipeline's announcement,
then the pass's own events. -/
def runEvents (p : Pass) (g : Graph) : List LogEvent :=
  ⟨.debug, "Running pass", [("pass", p.name), ("ops", toString g.opCount)]⟩ :: (p.apply g).events

/-- `Chain ps g gs rs`: the passes `ps` succeed one after another from `g`, the `i`th taking the
graph before it to `gs[i]` and sharing `rs[i]` with it. -/
inductive Chain : List Pass → Graph → List Graph → List Reuse → Prop
  | nil (g : Graph) : Chain [] g [] []
  | cons {p : Pass} {ps : List Pass} {g g' : Graph} {gs : List Graph} {r : Reuse} {rs : List Reuse} :
      (p.apply g).value = .ok (g', r) → Chain ps g' gs rs → Chain (p :: ps) g (g' :: gs) (r :: rs)

/-- The reports of passes run through a chain of graphs from `g`. -/
def reportsAlong (ps : List Pass) (g : Graph) (gs : List Graph) : List PassReport :=
  (ps.zip ((g :: gs).zip gs)).map fun (p, before, after) => PassReport.between p before after

@[simp] theorem reportsAlong_nil (g : Graph) (gs : List Graph) : reportsAlong [] g gs = [] := rfl

@[simp] theorem reportsAlong_cons (p : Pass) (ps : List Pass) (g g' : Graph) (gs : List Graph) :
    reportsAlong (p :: ps) g (g' :: gs) = PassReport.between p g g' :: reportsAlong ps g' gs := rfl

theorem applyAll_nil (g : Graph) (acc : List PassReport) :
    applyAll [] g acc = ⟨.ok (g, .whole, ⟨acc.reverse⟩), []⟩ := rfl

/-- A pass that fails ends the run under its name; one that succeeds hands its graph to the rest,
with its report added. -/
theorem applyAll_cons_value (p : Pass) (rest : List Pass) (g : Graph) (acc : List PassReport) :
    (applyAll (p :: rest) g acc).value = match (p.apply g).value with
      | .error e => .error (.passFailed p.name e)
      | .ok (g', r) => match (applyAll rest g' (PassReport.between p g g' :: acc)).value with
        | .error e => .error e
        | .ok (g'', r', reports) => .ok (g'', r.andThen r', reports) := by
  rcases h : (p.apply g).value with e | ⟨g', r⟩
  · simp [applyAll, h]
  · simp only [applyAll, Logged.bind_value, h, PassReport.between]
    split <;> simp_all

/-- A pass logs its announcement and its own events, and the rest log only if it succeeds. -/
theorem applyAll_cons_events (p : Pass) (rest : List Pass) (g : Graph) (acc : List PassReport) :
    (applyAll (p :: rest) g acc).events = p.runEvents g ++ match (p.apply g).value with
      | .error _ => []
      | .ok (g', _) => (applyAll rest g' (PassReport.between p g g' :: acc)).events := by
  rcases h : (p.apply g).value with e | ⟨g', r⟩
  · simp [applyAll, h, runEvents]
  · simp only [applyAll, Logged.bind_events, h, runEvents, Logged.emit_events]
    split <;> simp [PassReport.between]

/-- A run of passes: the first passes succeed through a chain of graphs and log their events; then
either every pass has run and the run returns the last graph with one report per pass, or the next
pass fails and the run fails under its name. -/
theorem applyAll_run (ps : List Pass) (g : Graph) (acc : List PassReport) :
    ∃ gs rs, gs.length ≤ ps.length ∧ Chain (ps.take gs.length) g gs rs ∧
      (applyAll ps g acc).events = (ps.zip (g :: gs)).flatMap (fun (p, h) => p.runEvents h) ∧
      ((gs.length = ps.length ∧ (applyAll ps g acc).value =
          .ok (gs.getLastD g, rs.foldr Reuse.andThen .whole, ⟨acc.reverse ++ reportsAlong ps g gs⟩)) ∨
        ∃ (k : Fin ps.length) (e : TransformError), k.val = gs.length ∧
          (ps[k].apply (gs.getLastD g)).value = .error e ∧
          (applyAll ps g acc).value = .error (.passFailed ps[k].name e)) := by
  induction ps generalizing g acc with
  | nil => exact ⟨[], [], Nat.le_refl _, .nil g, rfl, Or.inl ⟨rfl, by simp [applyAll_nil]⟩⟩
  | cons p rest ih =>
    have value := applyAll_cons_value p rest g acc
    have events := applyAll_cons_events p rest g acc
    rcases h : (p.apply g).value with e | ⟨g', r⟩
    · -- the first pass fails: nothing after it runs
      simp only [h] at value events
      exact ⟨[], [], by simp, .nil g, by simp [events], Or.inr ⟨⟨0, by simp⟩, e, rfl, h, value⟩⟩
    · simp only [h] at value events
      obtain ⟨gs, rs, length, chain, restEvents, outcome⟩ :=
        ih g' (PassReport.between p g g' :: acc)
      refine ⟨g' :: gs, r :: rs, by simpa using length, by simpa using Chain.cons h chain,
        by simp [events, restEvents], ?_⟩
      rcases outcome with ⟨all, done⟩ | ⟨k, e, atK, failed, result⟩
      · left
        refine ⟨by simp [all], ?_⟩
        rw [value, done]
        simp [List.getLast?_cons]
      · right
        refine ⟨k.succ, e, by simp [atK], by simpa [List.getLast?_cons] using failed, ?_⟩
        rw [value, result]
        rfl

/-- Earlier reports only stand in front of the run's own. -/
theorem applyAll_value_acc (ps : List Pass) (g : Graph) (acc : List PassReport) :
    (applyAll ps g acc).value = ((applyAll ps g []).value).map
      fun (g', r, report) => (g', r, ⟨acc.reverse ++ report.passes⟩) := by
  induction ps generalizing g acc with
  | nil => simp [applyAll_nil, Except.map]
  | cons p rest ih =>
    rw [applyAll_cons_value, applyAll_cons_value]
    rcases (p.apply g).value with e | ⟨g', r⟩
    · rfl
    · simp only
      rw [ih g' (PassReport.between p g g' :: acc), ih g' [PassReport.between p g g']]
      rcases (applyAll rest g' []).value with e | ⟨g'', r', report⟩ <;> simp [Except.map]

/-- Running `A ++ B` is running `A`, then `B` on its result. -/
theorem applyAll_append (A B : List Pass) (g : Graph) :
    (applyAll (A ++ B) g []).value = (applyAll A g []).value >>= fun (g', r, report) =>
      ((applyAll B g' []).value).map fun (g'', r', report') =>
        (g'', r.andThen r', ⟨report.passes ++ report'.passes⟩) := by
  induction A generalizing g with
  | nil =>
    simp only [List.nil_append, applyAll_nil, bind, Except.bind]
    rcases (applyAll B g []).value with e | ⟨g'', r', report'⟩ <;> simp [Except.map]
  | cons p rest ih =>
    rw [List.cons_append, applyAll_cons_value, applyAll_cons_value]
    rcases (p.apply g).value with e | ⟨g', r⟩
    · rfl
    · -- both sides run `rest` first: its earlier report is carried along on each side
      simp only
      rw [applyAll_value_acc (rest ++ B), applyAll_value_acc rest, ih g']
      rcases (applyAll rest g' []).value with e | ⟨g'', r', report⟩
      · rfl
      · rcases hB : (applyAll B g'' []).value with e | ⟨gB, rB, reportB⟩ <;>
          simp [hB, Except.map, bind, Except.bind, Reuse.andThen_assoc]

theorem runWithReport_value (ps : List Pass) (g : Graph) :
    (runWithReport ps g).value = (applyAll ps g []).value := rfl

theorem apply_pipeline_value (ps : List Pass) (g : Graph) :
    (apply (.pipeline ps) g).value = ((applyAll ps g []).value).map fun (g', r, _) => (g', r) := by
  simp only [apply, bind, Logged.pure_value]

end Pass

open Pass in
/-- Pipelines run their passes in sequence through a chain of graphs, each pass logging only once it
succeeds, and a failure is atomic: the first pass to fail ends the run. Running `A ++ B` runs `A`
then `B`, the empty pipeline is the identity, and the ops removed add up. -/
theorem pipeline_runs_passes_in_sequence :
    (∀ (ps : List Pass) (g : Graph), ∃ gs rs, gs.length ≤ ps.length ∧
      Chain (ps.take gs.length) g gs rs ∧
      (runWithReport ps g).events = ⟨.info, "Transform pipeline: " ++ describe ps, []⟩ ::
        (ps.zip (g :: gs)).flatMap (fun (p, h) => p.runEvents h) ∧
      ((gs.length = ps.length ∧ (runWithReport ps g).value =
          .ok (gs.getLastD g, rs.foldr Reuse.andThen .whole, ⟨reportsAlong ps g gs⟩)) ∨
        ∃ (k : Fin ps.length) (e : TransformError), k.val = gs.length ∧
          (ps[k].apply (gs.getLastD g)).value = .error e ∧
          (runWithReport ps g).value = .error (.passFailed ps[k].name e))) ∧
    (∀ (A B : List Pass) (g : Graph), (runWithReport (A ++ B) g).value =
      (runWithReport A g).value >>= fun (g', r, report) =>
        ((runWithReport B g').value).map fun (g'', r', report') =>
          (g'', r.andThen r', ⟨report.passes ++ report'.passes⟩)) ∧
    (∀ (A B : List Pass) (g : Graph), (apply (.pipeline (A ++ B)) g).value =
      (apply (.pipeline A) g).value >>= fun (g', r) =>
        ((apply (.pipeline B) g').value).map fun (g'', r') => (g'', r.andThen r')) ∧
    (∀ g : Graph, (runWithReport [] g).value = .ok (g, .whole, ⟨[]⟩)) ∧
    (∀ r : PipelineReport, r.opsRemoved = (r.passes.map fun e => e.opsBefore - e.opsAfter).sum) := by
  refine ⟨fun ps g => ?_, fun A B g => applyAll_append A B g, fun A B g => ?_, fun g => rfl,
    PipelineReport.opsRemoved_eq_sum⟩
  · obtain ⟨gs, rs, length, chain, events, outcome⟩ := applyAll_run ps g []
    refine ⟨gs, rs, length, chain, by simp [runWithReport, events], ?_⟩
    simpa [runWithReport_value] using outcome
  · rw [apply_pipeline_value, apply_pipeline_value, applyAll_append]
    rcases (applyAll A g []).value with e | ⟨g', r, report⟩
    · rfl
    · rcases hB : (applyAll B g' []).value with e | ⟨g'', r', report'⟩ <;>
        simp [hB, apply_pipeline_value, Except.map, bind, Except.bind]

-- A caller's pass that fails ends the run under its own name, and the pass after it never logs.
example :
    let run := Pass.runWithReport [.custom "tag" .ok,
      .custom "fail" fun _ => .error (.internal "boom"), .refCount] ⟨#[], [], [], ⟨[]⟩⟩
    run.events.map LogEvent.message =
        ["Transform pipeline: tag -> fail -> refcnt", "Running pass", "Running pass"] ∧
      (match run.value with
        | .error e => e.message
        | .ok _ => "") = "Pass 'fail' failed: Internal error: boom" := by
  decide

end OpGraph
