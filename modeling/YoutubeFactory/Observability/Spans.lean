import YoutubeFactory.Lib.Managers
import YoutubeFactory.Observability.Traceparent

/-!
# Spans

`start_span` of `app/observability/tracing.py` without OpenTelemetry, for programs of nested blocks
(`Managers.Block`).  The clock is left out, and of a log record what it says of its span is kept.

The innermost span and the trace id of the log are in context variables, and a span finds its parent
there.  What it finds is the innermost block around it, whatever exceptions were raised and caught
before (`start_span_nests`).
-/

namespace YoutubeFactory.Observability

open Managers (Action Block Visit)

/-! ## Spans -/

inductive SpanStatus where
  | ok
  | error
deriving DecidableEq

structure Span (V : Type) where
  name : String
  context : SpanContext
  parentSpanId : Option String
  kind : String
  attributes : List (String × V)
  status : SpanStatus := .ok
  error : Option String := none
deriving DecidableEq

/-- The arguments of `start_span`. -/
structure SpanArgs (V : Type) where
  name : String
  kind : String := "internal"
  parent : Option SpanContext := none
  attributes : List (String × V) := []

/-- `new_trace_id` and `new_span_id`, when so many spans have been started. -/
structure IdSource where
  newTraceId : Nat → String
  newSpanId : Nat → String

/-- `current_span_var`, `trace_id_var`, the spans that were logged, and how many were started. -/
structure Tracing (V : Type) where
  currentSpan : Option (Span V)
  traceId : Option String
  logged : List (Span V)
  started : Nat

section

variable {V Exc : Type}

/-- `record_exception`.  `describe` gives the name of the type and the message. -/
def Span.recordException (describe : Exc → String) (span : Span V) (exc : Exc) : Span V :=
  { span with status := .error, error := some (describe exc) }

variable (ids : IdSource) (describe : Exc → String)

/-- The `effective_parent` of a span. -/
def effectiveParent (args : SpanArgs V) (s : Tracing V) : Option SpanContext :=
  match args.parent, s.currentSpan with
  | some parent, _ => some parent
  | none, some active => some active.context
  | none, none => none

/-- The span that `start_span` makes. -/
def newSpan (args : SpanArgs V) (s : Tracing V) : Span V :=
  let parent := effectiveParent args s
  let (traceId, spanId) := match parent with
    | some parent => (parent.traceId, ids.newSpanId s.started)
    | none => (ids.newTraceId s.started, ids.newSpanId s.started)
  { name := args.name
    context := { traceId, spanId, sampled := (parent.map SpanContext.sampled).getD true }
    parentSpanId := parent.map SpanContext.spanId
    kind := args.kind
    attributes := args.attributes }

/-- `start_span`, around a block. -/
def startSpan (args : SpanArgs V) (block : Span V → Action (Tracing V) Exc) :
    Action (Tracing V) Exc := fun s =>
  let span := newSpan ids args s
  let spanToken := s.currentSpan
  let traceToken := s.traceId
  let (outcome, s) := block span
    { s with
      currentSpan := some span
      traceId := some span.context.traceId
      started := s.started + 1 }
  let span := match outcome with
    | .ok _ => span
    | .error exc => span.recordException describe exc
  -- The context variables are reset and the span is logged however the block was left.
  (outcome, { s with
    currentSpan := spanToken
    traceId := traceToken
    logged := s.logged ++ [span] })

end

/-! ## What is logged of a block -/

section

variable {V Exc : Type}

/-- The explicit parent if there is one, and otherwise the innermost block around. -/
def parentOf (visit : Visit (SpanArgs V) (Span V) Exc) : Option SpanContext :=
  visit.arg.parent <|> visit.enclosing.map Span.context

/-- A span that was logged when its block was left. -/
structure Reported (describe : Exc → String) (visit : Visit (SpanArgs V) (Span V) Exc)
    (span : Span V) : Prop where
  name : span.name = visit.arg.name
  kind : span.kind = visit.arg.kind
  attributes : span.attributes = visit.arg.attributes
  context : span.context = visit.frame.context
  parentSpanId : span.parentSpanId = (parentOf visit).map SpanContext.spanId
  traceId : ∀ parent, parentOf visit = some parent → span.context.traceId = parent.traceId
  sampled : span.context.sampled = ((parentOf visit).map SpanContext.sampled).getD true
  status : span.status = .error ↔ ∃ exc, visit.left = some exc
  error : span.error = visit.left.map describe

/-- The context variables. -/
def Tracing.vars (s : Tracing V) : Option (Span V) × Option String := (s.currentSpan, s.traceId)

variable (ids : IdSource) (describe : Exc → String)

theorem parentOf_eq (args : SpanArgs V) (s : Tracing V) (frame : Span V) (left : Option Exc) :
    parentOf ⟨args, s.currentSpan, frame, left⟩ = effectiveParent args s := by
  unfold parentOf effectiveParent
  cases args.parent <;> cases s.currentSpan <;> rfl

theorem traceId_newSpan {args : SpanArgs V} {s : Tracing V} {parent : SpanContext}
    (h : effectiveParent args s = some parent) :
    (newSpan ids args s).context.traceId = parent.traceId := by
  unfold newSpan
  rw [h]

/-- A span that is logged is the one that was made, with the exception that left its block. -/
theorem reported (args : SpanArgs V) (s : Tracing V) (outcome : Managers.Outcome Exc) :
    Reported describe ⟨args, s.currentSpan, newSpan ids args s, Managers.left outcome⟩
      (match outcome with
        | .ok _ => newSpan ids args s
        | .error exc => (newSpan ids args s).recordException describe exc) := by
  cases outcome with
  | ok u =>
      refine ⟨rfl, rfl, rfl, rfl, ?_, fun parent hparent => ?_, ?_, ?_, rfl⟩
      · rw [parentOf_eq]
        rfl
      · rw [parentOf_eq] at hparent
        exact traceId_newSpan ids hparent
      · rw [parentOf_eq]
        rfl
      · exact iff_of_false nofun nofun
  | error exc =>
      refine ⟨rfl, rfl, rfl, rfl, ?_, fun parent hparent => ?_, ?_, ?_, rfl⟩
      · rw [parentOf_eq]
        rfl
      · rw [parentOf_eq] at hparent
        exact traceId_newSpan ids hparent
      · rw [parentOf_eq]
        rfl
      · exact iff_of_true rfl ⟨exc, rfl⟩

/-- `start_span` restores the context variables however its block is left. -/
theorem startSpan_manages :
    Managers.Manages (startSpan ids describe) Tracing.vars Prod.fst (Tracing.logged (V := V))
      (Reported describe) where
  spec args block s := by
    let opened : Tracing V :=
      { s with
        currentSpan := some (newSpan ids args s)
        traceId := some (newSpan ids args s).context.traceId
        started := s.started + 1 }
    exact ⟨newSpan ids args s, opened, _, rfl, rfl, rfl, rfl, rfl,
      reported ids describe args s (block (newSpan ids args s) opened).1⟩

/-! ## Nesting -/

/-- Without explicit parents, all that runs inside a span is of its trace. -/
theorem traceId_of_root {root : Span V} {block : Block (SpanArgs V) (Span V) Exc}
    {outcome : Managers.Outcome Exc} {visits : List (Visit (SpanArgs V) (Span V) Exc)}
    {spans : List (Span V)} (hruns : Managers.Runs (some root) block outcome visits)
    (hreported : List.Forall₂ (Reported describe) visits spans)
    (hparent : ∀ visit ∈ visits, visit.arg.parent = none) :
    ∀ span ∈ spans, span.context.traceId = root.context.traceId := by
  have hframes : ∀ visit ∈ visits, visit.frame.context.traceId = root.context.traceId := by
    refine @Managers.Runs.frames _ _ _ (fun frame => frame.context.traceId = root.context.traceId)
      _ _ _ _ hruns (fun visit hvisit => ?_) ⟨root, rfl, rfl⟩
    rintro ⟨frame, henclosing, hframe⟩
    obtain ⟨span, -, hspan⟩ := Managers.exists_report hreported visit hvisit
    have hfound : parentOf visit = some frame.context := by
      rw [parentOf, hparent visit hvisit, henclosing]
      rfl
    rw [← hspan.context, hspan.traceId _ hfound, hframe]
  intro span hspan
  obtain ⟨visit, hvisit, hreport⟩ :=
    Managers.exists_report (R := flip (Reported describe)) (List.Forall₂.flip hreported) span hspan
  rw [hreport.context]
  exact hframes visit hvisit

/-- However blocks are nested, and whatever is raised and caught in them, the program does what it
means, leaves the context variables as they were, and logs of each block what there is to say.
What runs inside a span is of its trace, unless it has a parent of its own. -/
theorem start_span_nests (block : Block (SpanArgs V) (Span V) Exc) (s : Tracing V) :
    ∃ visits spans,
      Managers.Leaves Tracing.vars Prod.fst Tracing.logged (Reported describe) block s
        (Managers.exec (startSpan ids describe) block s).1
        (Managers.exec (startSpan ids describe) block s).2 visits spans ∧
      ∀ root, s.currentSpan = some root → (∀ visit ∈ visits, visit.arg.parent = none) →
        ∀ span ∈ spans, span.context.traceId = root.context.traceId := by
  obtain ⟨visits, spans, hleaves⟩ := (startSpan_manages ids describe).exec_runs block s
  refine ⟨visits, spans, hleaves, fun root hroot hparent => ?_⟩
  have hruns := hleaves.runs
  unfold Tracing.vars at hruns
  rw [hroot] at hruns
  exact traceId_of_root describe hruns hleaves.reports hparent

end

/-- A request that catches the failure of a query, and then goes on to publish. -/
def request : Block (SpanArgs Nat) (Span Nat) String :=
  .within { name := "request" } fun _ =>
    .seq (.tryExcept (.within { name := "query" } fun _ => .raise "timeout") (fun _ => true)
        fun _ => .skip)
      (.within { name := "publish" } fun _ => .skip)

example :
    ((Managers.exec (startSpan ⟨fun n => s!"t{n}", fun n => s!"s{n}"⟩ id) request
        ⟨none, none, [], 0⟩).2.logged.map fun span =>
      (span.name, span.context.traceId, span.parentSpanId, span.status)) =
    [("query", "t0", some "s0", .error), ("publish", "t0", some "s0", .ok),
      ("request", "t0", none, .ok)] := by
  decide +kernel

end YoutubeFactory.Observability
