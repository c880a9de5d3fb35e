import Mathlib.Data.List.Forall2

/-!
# Blocks with a context manager

Programs that raise and catch exceptions, with blocks that a context manager opens and closes.  A
block is given the frame that the manager makes for it.

`Runs` is what such a program means: the frame of a block is there for what is inside the block, an
exception leaves the blocks up to the first handler that catches it, and a block changes nothing
about it.  It lists the visits of blocks as they are left.

`exec` runs a program with a manager that keeps the innermost frame in variables of its own.  If the
manager restores the variables however its block is left (`Manages`), the program does what it means
(`Manages.exec_runs`).
-/

namespace Managers

/-- A program.  `within` is a block with an argument for the manager. -/
inductive Block (Arg Frame Exc : Type) where
  | skip
  | raise (exc : Exc)
  | seq (first second : Block Arg Frame Exc)
  | tryExcept (body : Block Arg Frame Exc) (catches : Exc → Bool)
      (handler : Exc → Block Arg Frame Exc)
  | within (arg : Arg) (body : Frame → Block Arg Frame Exc)

/-- How a program ends. -/
abbrev Outcome (Exc : Type) := Except Exc Unit

/-- The exception that leaves a program. -/
def left {Exc : Type} : Outcome Exc → Option Exc
  | .ok _ => none
  | .error exc => some exc

/-- A block that was left: its argument, the frame of the innermost block around it, its own frame,
and the exception that left it. -/
structure Visit (Arg Frame Exc : Type) where
  arg : Arg
  enclosing : Option Frame
  frame : Frame
  left : Option Exc

variable {Arg Frame Exc : Type}

/-! ## What a program means -/

/-- A program inside a block ends in a way, with these visits. -/
inductive Runs : Option Frame → Block Arg Frame Exc → Outcome Exc →
    List (Visit Arg Frame Exc) → Prop where
  | skip {enclosing : Option Frame} : Runs enclosing .skip (.ok ()) []
  | raise {enclosing : Option Frame} {exc : Exc} : Runs enclosing (.raise exc) (.error exc) []
  | seq {enclosing : Option Frame} {first second : Block Arg Frame Exc} {outcome : Outcome Exc}
      {visits more : List (Visit Arg Frame Exc)} :
      Runs enclosing first (.ok ()) visits → Runs enclosing second outcome more →
      Runs enclosing (.seq first second) outcome (visits ++ more)
  | seqRaises {enclosing : Option Frame} {first second : Block Arg Frame Exc} {exc : Exc}
      {visits : List (Visit Arg Frame Exc)} :
      Runs enclosing first (.error exc) visits →
      Runs enclosing (.seq first second) (.error exc) visits
  | tryExcept {enclosing : Option Frame} {body : Block Arg Frame Exc} {catches : Exc → Bool}
      {handler : Exc → Block Arg Frame Exc} {visits : List (Visit Arg Frame Exc)} :
      Runs enclosing body (.ok ()) visits →
      Runs enclosing (.tryExcept body catches handler) (.ok ()) visits
  | caught {enclosing : Option Frame} {body : Block Arg Frame Exc} {catches : Exc → Bool}
      {handler : Exc → Block Arg Frame Exc} {exc : Exc} {outcome : Outcome Exc}
      {visits more : List (Visit Arg Frame Exc)} :
      Runs enclosing body (.error exc) visits → catches exc = true →
      Runs enclosing (handler exc) outcome more →
      Runs enclosing (.tryExcept body catches handler) outcome (visits ++ more)
  | notCaught {enclosing : Option Frame} {body : Block Arg Frame Exc} {catches : Exc → Bool}
      {handler : Exc → Block Arg Frame Exc} {exc : Exc} {visits : List (Visit Arg Frame Exc)} :
      Runs enclosing body (.error exc) visits → catches exc = false →
      Runs enclosing (.tryExcept body catches handler) (.error exc) visits
  | within {enclosing : Option Frame} {arg : Arg} {body : Frame → Block Arg Frame Exc}
      {frame : Frame} {outcome : Outcome Exc} {visits : List (Visit Arg Frame Exc)} :
      Runs (some frame) (body frame) outcome visits →
      Runs enclosing (.within arg body) outcome (visits ++ [⟨arg, enclosing, frame, left outcome⟩])

/-- What holds of the outermost blocks around a program and is handed from a block to the blocks
inside it holds of all its frames. -/
theorem Runs.frames {P : Frame → Prop} {enclosing : Option Frame} {block : Block Arg Frame Exc}
    {outcome : Outcome Exc} {visits : List (Visit Arg Frame Exc)}
    (h : Runs enclosing block outcome visits)
    (hvisits : ∀ visit ∈ visits, (∃ frame, visit.enclosing = some frame ∧ P frame) → P visit.frame)
    (hstart : ∃ frame, enclosing = some frame ∧ P frame) : ∀ visit ∈ visits, P visit.frame := by
  induction h with
  | skip => nofun
  | raise => nofun
  | seq _ _ ihFirst ihSecond =>
      obtain ⟨hfirst, hsecond⟩ := List.forall_mem_append.mp hvisits
      exact List.forall_mem_append.mpr ⟨ihFirst hfirst hstart, ihSecond hsecond hstart⟩
  | seqRaises _ ih => exact ih hvisits hstart
  | tryExcept _ ih => exact ih hvisits hstart
  | caught _ _ _ ihBody ihHandler =>
      obtain ⟨hbody, hhandler⟩ := List.forall_mem_append.mp hvisits
      exact List.forall_mem_append.mpr ⟨ihBody hbody hstart, ihHandler hhandler hstart⟩
  | notCaught _ _ ih => exact ih hvisits hstart
  | within _ ih =>
      obtain ⟨hinner, hown⟩ := List.forall_mem_append.mp hvisits
      have hframe := hown _ (List.mem_singleton_self _) hstart
      refine List.forall_mem_append.mpr ⟨ih hinner ⟨_, rfl, hframe⟩, ?_⟩
      exact List.forall_mem_singleton.mpr hframe

/-! ## Running a program with a manager -/

/-- A computation that may raise, on states. -/
abbrev Action (State Exc : Type) := State → Outcome Exc × State

variable {State : Type}

/-- A program, with a manager for its blocks. -/
def exec (manager : Arg → (Frame → Action State Exc) → Action State Exc) :
    Block Arg Frame Exc → Action State Exc
  | .skip, s => (.ok (), s)
  | .raise exc, s => (.error exc, s)
  | .seq first second, s =>
      match exec manager first s with
      | (.ok _, s) => exec manager second s
      | (.error exc, s) => (.error exc, s)
  | .tryExcept body catches handler, s =>
      match exec manager body s with
      | (.ok _, s) => (.ok (), s)
      | (.error exc, s) => if catches exc then exec manager (handler exc) s else (.error exc, s)
  | .within arg body, s => manager arg (fun frame => exec manager (body frame)) s

/-- A manager opens a frame, runs the block with it, restores its variables, and hands on how the
block ended.  It adds a report of the visit to its log. -/
structure Manages {Vars Entry : Type}
    (manager : Arg → (Frame → Action State Exc) → Action State Exc) (vars : State → Vars)
    (innermost : Vars → Option Frame) (log : State → List Entry)
    (Reports : Visit Arg Frame Exc → Entry → Prop) : Prop where
  spec : ∀ arg body s, ∃ frame opened entry, innermost (vars opened) = some frame ∧
    log opened = log s ∧ (manager arg body s).1 = (body frame opened).1 ∧
    vars (manager arg body s).2 = vars s ∧
    log (manager arg body s).2 = log (body frame opened).2 ++ [entry] ∧
    Reports ⟨arg, innermost (vars s), frame, left (body frame opened).1⟩ entry

/-- What a program leaves behind: the variables as they were, and a log of its visits. -/
structure Leaves {Vars Entry : Type} (vars : State → Vars) (innermost : Vars → Option Frame)
    (log : State → List Entry) (Reports : Visit Arg Frame Exc → Entry → Prop)
    (block : Block Arg Frame Exc) (s : State) (outcome : Outcome Exc) (s' : State)
    (visits : List (Visit Arg Frame Exc)) (entries : List Entry) : Prop where
  runs : Runs (innermost (vars s)) block outcome visits
  vars : vars s' = vars s
  log : log s' = log s ++ entries
  reports : List.Forall₂ Reports visits entries

/-- Each visit has its report. -/
theorem exists_report {α β : Type} {R : α → β → Prop} {xs : List α} {ys : List β}
    (h : List.Forall₂ R xs ys) : ∀ x ∈ xs, ∃ y ∈ ys, R x y := by
  induction h with
  | nil => nofun
  | cons hfirst _ ih =>
      refine List.forall_mem_cons.mpr ⟨⟨_, List.mem_cons_self, hfirst⟩, fun x hx => ?_⟩
      obtain ⟨y, hy, hxy⟩ := ih x hx
      exact ⟨y, List.mem_cons_of_mem _ hy, hxy⟩

/-- A program does what it means. -/
theorem Manages.exec_runs {Vars Entry : Type}
    {manager : Arg → (Frame → Action State Exc) → Action State Exc} {vars : State → Vars}
    {innermost : Vars → Option Frame} {log : State → List Entry}
    {Reports : Visit Arg Frame Exc → Entry → Prop} (h : Manages manager vars innermost log Reports)
    (block : Block Arg Frame Exc) (s : State) :
    ∃ visits entries, Leaves vars innermost log Reports block s (exec manager block s).1
      (exec manager block s).2 visits entries := by
  induction block generalizing s with
  | skip => exact ⟨[], [], .skip, rfl, (List.append_nil _).symm, .nil⟩
  | raise exc => exact ⟨[], [], .raise, rfl, (List.append_nil _).symm, .nil⟩
  | seq first second ihFirst ihSecond =>
      obtain ⟨visits, entries, hfirst⟩ := ihFirst s
      rw [exec]
      cases hexec : exec manager first s with
      | mk outcome s' =>
          rw [hexec] at hfirst
          cases outcome with
          | error exc => exact ⟨visits, entries, .seqRaises hfirst.runs, hfirst.vars, hfirst.log,
              hfirst.reports⟩
          | ok u =>
              obtain ⟨more, others, hsecond⟩ := ihSecond s'
              have hruns := hsecond.runs
              rw [hfirst.vars] at hruns
              refine ⟨visits ++ more, entries ++ others, .seq hfirst.runs hruns,
                hsecond.vars.trans hfirst.vars, ?_, List.rel_append hfirst.reports hsecond.reports⟩
              rw [← List.append_assoc, ← hfirst.log]
              exact hsecond.log
  | tryExcept body catches handler ihBody ihHandler =>
      obtain ⟨visits, entries, hbody⟩ := ihBody s
      rw [exec]
      cases hexec : exec manager body s with
      | mk outcome s' =>
          rw [hexec] at hbody
          cases outcome with
          | ok u =>
              exact ⟨visits, entries, .tryExcept hbody.runs, hbody.vars, hbody.log, hbody.reports⟩
          | error exc =>
              dsimp only
              cases hcatches : catches exc with
              | false => exact ⟨visits, entries, .notCaught hbody.runs hcatches, hbody.vars,
                  hbody.log, hbody.reports⟩
              | true =>
                  obtain ⟨more, others, hhandler⟩ := ihHandler exc s'
                  have hruns := hhandler.runs
                  rw [hbody.vars] at hruns
                  refine ⟨visits ++ more, entries ++ others, .caught hbody.runs hcatches hruns,
                    hhandler.vars.trans hbody.vars, ?_,
                    List.rel_append hbody.reports hhandler.reports⟩
                  rw [← List.append_assoc, ← hbody.log]
                  exact hhandler.log
  | within arg body ih =>
      obtain ⟨frame, opened, entry, hinnermost, hopened, houtcome, hvars, hlog, hreport⟩ :=
        h.spec arg (fun frame => exec manager (body frame)) s
      obtain ⟨visits, entries, hbody⟩ := ih frame opened
      have hruns := hbody.runs
      rw [hinnermost] at hruns
      rw [exec, houtcome]
      refine ⟨_, entries ++ [entry], .within hruns, hvars, ?_,
        List.rel_append hbody.reports (.cons hreport .nil)⟩
      rw [hlog, hbody.log, hopened, List.append_assoc]

end Managers
