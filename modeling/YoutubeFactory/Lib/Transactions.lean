import YoutubeFactory.Lib.Interleaving

/-!
# Transactions that run at the same time

A transaction looks at the tables, writes, and ends.  What it has written is seen by itself
alone until it returns, and then all of it is committed at once; if it raises, none of it is.
Between two of its steps others may commit, and any step may fail.

What the commits of the others may do to the tables is a relation, the rely.  A program whose
writes stay within the rely does the same for the others.  What a program ensures in spite of
such commits, it has ensured when it returns (`ensured_run`).
-/

namespace Transactions

variable {Db Exc α β : Type}

/-- A write.  It may be refused, by a unique column for instance. -/
abbrev Change (Db : Type) := Db → Option Db

inductive Program (Db Exc α : Type) where
  | done (a : α)
  | raise (e : Exc)
  | look (next : Db → Program Db Exc α)
  | write (change : Change Db) (next : Program Db Exc α)

namespace Program

/-- The tables as the transaction sees them. -/
def tables : Program Db Exc Db := .look .done

def change (c : Change Db) : Program Db Exc Unit := .write c (.done ())

/-- The result of a function that does not use the tables. -/
def ofExcept : Except Exc α → Program Db Exc α
  | .ok a => .done a
  | .error e => .raise e

protected def bind : Program Db Exc α → (α → Program Db Exc β) → Program Db Exc β
  | .done a, f => f a
  | .raise e, _ => .raise e
  | .look next, f => .look fun db => (next db).bind f
  | .write c next, f => .write c (next.bind f)

instance : Monad (Program Db Exc) where
  pure := .done
  bind := Program.bind

@[simp] theorem done_bind (a : α) (f : α → Program Db Exc β) : Program.done a >>= f = f a := rfl

@[simp] theorem raise_bind (e : Exc) (f : α → Program Db Exc β) :
    (Program.raise e : Program Db Exc α) >>= f = .raise e := rfl

@[simp] theorem look_bind (next : Db → Program Db Exc α) (f : α → Program Db Exc β) :
    Program.look next >>= f = .look fun db => next db >>= f := rfl

@[simp] theorem write_bind (c : Change Db) (next : Program Db Exc α)
    (f : α → Program Db Exc β) : Program.write c next >>= f = .write c (next >>= f) := rfl

end Program

/-- Several writes in their order. -/
def applyAll (changes : List (Change Db)) (db : Db) : Option Db :=
  changes.foldlM (fun db change => change db) db

@[simp] theorem applyAll_nil (db : Db) : applyAll [] db = some db := rfl

theorem applyAll_cons (c : Change Db) (changes : List (Change Db)) (db : Db) :
    applyAll (c :: changes) db = (c db).bind (applyAll changes) := rfl

theorem applyAll_append (changes more : List (Change Db)) (db : Db) :
    applyAll (changes ++ more) db = (applyAll changes db).bind (applyAll more) := by
  unfold applyAll
  rw [List.foldlM_append]
  rfl

/-! ## The steps of a transaction -/

/-- A transaction with what it has written, or its result. -/
inductive Transaction (Db Exc α : Type) where
  | running (program : Program Db Exc α) (written : List (Change Db))
  | ended (result : Except Exc α)

/-- One step.  It fails if the turn says so, and with `refused` if the tables do not take what
was written. -/
def Transaction.resume (refused : Exc) (db : Db) (failure : Option Exc) :
    Transaction Db Exc α → Db × Transaction Db Exc α
  | .ended result => (db, .ended result)
  | .running program written =>
      match failure, program with
      | some e, _ => (db, .ended (.error e))
      | none, .raise e => (db, .ended (.error e))
      | none, .done a =>
          match applyAll written db with
          | none => (db, .ended (.error refused))
          | some db' => (db', .ended (.ok a))
      | none, .look next =>
          match applyAll written db with
          | none => (db, .ended (.error refused))
          | some view => (db, .running (next view) written)
      | none, .write c next =>
          match applyAll (written ++ [c]) db with
          | none => (db, .ended (.error refused))
          | some _ => (db, .running next (written ++ [c]))

/-- Transactions on the same tables. -/
abbrev Pool (Db Exc α : Type) := Interleaving.System Db (Transaction Db Exc α)

def step (refused : Exc) (s : Pool Db Exc α)
    (turn : Interleaving.Turn (Option Exc)) : Pool Db Exc α :=
  Interleaving.step (Transaction.resume refused) s turn

/-! ## Writes within the rely -/

section

variable (R : Db → Db → Prop)

/-- The change stays within the rely. -/
def Within (c : Change Db) : Prop := ∀ db db', c db = some db' → R db db'

/-- All writes of the program do. -/
def Program.Within : Program Db Exc α → Prop
  | .done _ => True
  | .raise _ => True
  | .look next => ∀ db, (next db).Within
  | .write c next => Transactions.Within R c ∧ next.Within

def Transaction.Within : Transaction Db Exc α → Prop
  | .ended _ => True
  | .running program written => program.Within R ∧ ∀ c ∈ written, Transactions.Within R c

/-- What a program ensures of its result, of its writes and of the tables when it gets to its
end, whatever the others commit in the meantime. -/
def Program.Ensures (post : α → List (Change Db) → Db → Prop) :
    Program Db Exc α → List (Change Db) → Db → Prop
  | .done a, written, db => ∀ db', R db db' → post a written db'
  | .raise _, _, _ => True
  | .look next, written, db => ∀ db', R db db' → ∀ view, applyAll written db' = some view →
      (next view).Ensures post written db'
  | .write c next, written, db => ∀ db', R db db' → next.Ensures post (written ++ [c]) db'

/-- What a transaction ensures of its result and of the tables it leaves. -/
def Transaction.Ensures (Q : α → Db → Prop) : Transaction Db Exc α → Db → Prop
  | .ended (.ok a), db => Q a db
  | .ended (.error _), _ => True
  | .running program written, db => program.Ensures R
      (fun a written db => ∀ db', applyAll written db = some db' → Q a db') written db

end

variable {R : Db → Db → Prop}

namespace Program

variable {program : Program Db Exc α} {f : α → Program Db Exc β}
  {post : β → List (Change Db) → Db → Prop} {written : List (Change Db)} {db db' : Db}

theorem Within.bind (h : program.Within R) (hf : ∀ a, (f a).Within R) :
    (program >>= f).Within R := by
  induction program with
  | done a => exact hf a
  | raise e => trivial
  | look next ih => exact fun db => ih db (h db)
  | write c next ih => exact ⟨h.1, ih h.2⟩

theorem Within.ofExcept (result : Except Exc α) :
    (Program.ofExcept result : Program Db Exc α).Within R := by
  cases result <;> trivial

theorem Within.tables : (Program.tables : Program Db Exc Db).Within R := fun _ => trivial

theorem Within.change {c : Change Db} (h : Transactions.Within R c) :
    (Program.change c : Program Db Exc Unit).Within R := ⟨h, trivial⟩

/-- What a sequence ensures is up to its second part. -/
theorem Ensures.bind
    (h : program.Ensures R (fun a written db => (f a).Ensures R post written db) written db)
    (hrefl : ∀ db, R db db) : (program >>= f).Ensures R post written db := by
  induction program generalizing written db with
  | done a => exact h db (hrefl db)
  | raise e => trivial
  | look next ih => exact fun db' hdb view hview => ih view (h db' hdb view hview)
  | write c next ih => exact fun db' hdb => ih (h db' hdb)

theorem Ensures.imp {post' : α → List (Change Db) → Db → Prop}
    {post : α → List (Change Db) → Db → Prop} (h : program.Ensures R post written db)
    (himp : ∀ a written db, post a written db → post' a written db) :
    program.Ensures R post' written db := by
  induction program generalizing written db with
  | done a => exact fun db' hdb => himp a written db' (h db' hdb)
  | raise e => trivial
  | look next ih => exact fun db' hdb view hview => ih view (h db' hdb view hview)
  | write c next ih => exact fun db' hdb => ih (h db' hdb)

/-- A commit of another does not matter. -/
theorem Ensures.rely {post : α → List (Change Db) → Db → Prop}
    (h : program.Ensures R post written db)
    (htrans : ∀ {a b c}, R a b → R b c → R a c) (hdb : R db db') :
    program.Ensures R post written db' := by
  cases program with
  | done a => exact fun db'' hdb' => h db'' (htrans hdb hdb')
  | raise e => trivial
  | look next => exact fun db'' hdb' => h db'' (htrans hdb hdb')
  | write c next => exact fun db'' hdb' => h db'' (htrans hdb hdb')

theorem Ensures.and {post post' : α → List (Change Db) → Db → Prop}
    (h : program.Ensures R post written db) (h' : program.Ensures R post' written db) :
    program.Ensures R (fun a written db => post a written db ∧ post' a written db) written db := by
  induction program generalizing written db with
  | done a => exact fun db' hdb => ⟨h db' hdb, h' db' hdb⟩
  | raise e => trivial
  | look next ih =>
      exact fun db' hdb view hview => ih view (h db' hdb view hview) (h' db' hdb view hview)
  | write c next ih => exact fun db' hdb => ih (h db' hdb) (h' db' hdb)

/-- What the others commit until the end is within the rely. -/
theorem ensures_rel (program : Program Db Exc α) (htrans : ∀ {a b c}, R a b → R b c → R a c)
    (hdb : R db db') :
    program.Ensures R (fun _ _ last => R db last) written db' := by
  induction program generalizing written db' with
  | done a => exact fun db'' hdb' => htrans hdb hdb'
  | raise e => trivial
  | look next ih => exact fun db'' hdb' view _ => ih view (htrans hdb hdb')
  | write c next ih => exact fun db'' hdb' => ih (htrans hdb hdb')

/-- And so is what the program has written. -/
theorem Within.ensures (h : program.Within R) (hwritten : ∀ c ∈ written, Transactions.Within R c) :
    program.Ensures R (fun _ written _ => ∀ c ∈ written, Transactions.Within R c) written db := by
  induction program generalizing written db with
  | done a => exact fun _ _ => hwritten
  | raise e => trivial
  | look next ih => exact fun _ _ view _ => ih view (h view) hwritten
  | write c next ih =>
      refine fun _ _ => ih h.2 fun c' hc' => ?_
      rcases List.mem_append.mp hc' with hold | hnew
      · exact hwritten c' hold
      · exact List.mem_singleton.mp hnew ▸ h.1

end Program

/-- Writes within the rely, one after the other. -/
theorem applyAll_within (hrefl : ∀ db, R db db) (htrans : ∀ {a b c}, R a b → R b c → R a c)
    {changes : List (Change Db)} (h : ∀ c ∈ changes, Within R c) :
    ∀ {db db' : Db}, applyAll changes db = some db' → R db db' := by
  induction changes with
  | nil =>
      intro db db' happly
      cases happly
      exact hrefl db
  | cons c changes ih =>
      intro db db' happly
      rw [applyAll_cons, Option.bind_eq_some_iff] at happly
      obtain ⟨next, hnext, hrest⟩ := happly
      exact htrans (h c List.mem_cons_self db next hnext)
        (ih (fun c hc => h c (List.mem_cons_of_mem _ hc)) hrest)

namespace Transaction

variable {refused : Exc} {db : Db} {failure : Option Exc} {p : Transaction Db Exc α}
  {Q : α → Db → Prop}

theorem within_resume (h : p.Within R) : (p.resume refused db failure).2.Within R := by
  cases p with
  | ended result => trivial
  | running program written =>
      obtain ⟨hprogram, hwritten⟩ := h
      cases failure with
      | some e => trivial
      | none =>
          cases program with
          | done a =>
              unfold resume
              dsimp only
              split <;> trivial
          | raise e => trivial
          | look next =>
              unfold resume
              dsimp only
              split
              · trivial
              · exact ⟨hprogram _, hwritten⟩
          | write c next =>
              unfold resume
              dsimp only
              split
              · trivial
              · refine ⟨hprogram.2, fun c' hc' => ?_⟩
                rcases List.mem_append.mp hc' with hold | hnew
                · exact hwritten c' hold
                · rw [List.mem_singleton.mp hnew]
                  exact hprogram.1

/-- What a step does to the tables is within the rely. -/
theorem resume_within (hrefl : ∀ db, R db db) (htrans : ∀ {a b c}, R a b → R b c → R a c)
    (h : p.Within R) : R db (p.resume refused db failure).1 := by
  cases p with
  | ended result => exact hrefl db
  | running program written =>
      cases failure with
      | some e => exact hrefl db
      | none =>
          cases program with
          | raise e => exact hrefl db
          | done a =>
              unfold resume
              dsimp only
              split
              · exact hrefl db
              · next db' happly => exact applyAll_within hrefl htrans h.2 happly
          | look next =>
              unfold resume
              dsimp only
              split <;> exact hrefl db
          | write c next =>
              unfold resume
              dsimp only
              split <;> exact hrefl db

/-- A step of the transaction itself. -/
theorem ensures_resume (hrefl : ∀ db, R db db) (h : p.Ensures R Q db) :
    (p.resume refused db failure).2.Ensures R Q (p.resume refused db failure).1 := by
  cases p with
  | ended result => exact h
  | running program written =>
      cases failure with
      | some e => trivial
      | none =>
          cases program with
          | raise e => trivial
          | done a =>
              unfold resume
              dsimp only
              split
              · trivial
              · next db' happly => exact h db (hrefl db) db' happly
          | look next =>
              unfold resume
              dsimp only
              split
              · trivial
              · next view hview => exact h db (hrefl db) view hview
          | write c next =>
              unfold resume
              dsimp only
              split
              · trivial
              · exact h db (hrefl db)

/-- A step of another. -/
theorem Ensures.rely {db' : Db} (h : p.Ensures R Q db)
    (htrans : ∀ {a b c}, R a b → R b c → R a c)
    (hstable : ∀ {a db db'}, R db db' → Q a db → Q a db') (hdb : R db db') :
    p.Ensures R Q db' := by
  cases p with
  | running program written => exact Program.Ensures.rely h htrans hdb
  | ended result =>
      cases result with
      | ok a => exact hstable hdb h
      | error e => trivial

end Transaction

/-! ## Runs -/

/-- All transactions write within the rely. -/
def AllWithin (R : Db → Db → Prop) (s : Pool Db Exc α) : Prop :=
  ∀ p ∈ s.procs, p.Within R

section

variable {refused : Exc} {s : Pool Db Exc α}

theorem allWithin_step (turn : Interleaving.Turn (Option Exc)) (h : AllWithin R s) :
    AllWithin R (step refused s turn) := by
  cases hp : s.procs[turn.proc]? with
  | none =>
      rw [step, Interleaving.step_of_none hp]
      exact h
  | some p =>
      rw [step, Interleaving.step_of_some hp]
      intro q hq
      rcases List.mem_or_eq_of_mem_set hq with hold | rfl
      · exact h q hold
      · exact Transaction.within_resume (h p (List.mem_of_getElem? hp))

variable (hrefl : ∀ db, R db db) (htrans : ∀ {a b c}, R a b → R b c → R a c)

include hrefl htrans

theorem rel_step (turn : Interleaving.Turn (Option Exc)) (h : AllWithin R s) :
    R s.store (step refused s turn).store := by
  cases hp : s.procs[turn.proc]? with
  | none =>
      rw [step, Interleaving.step_of_none hp]
      exact hrefl _
  | some p =>
      rw [step, Interleaving.step_of_some hp]
      exact Transaction.resume_within hrefl htrans (h p (List.mem_of_getElem? hp))

/-- What all transactions do together is within the rely. -/
theorem rel_run (turns : List (Interleaving.Turn (Option Exc))) (h : AllWithin R s) :
    AllWithin R (Run.run (step refused) s turns) ∧
      R s.store (Run.run (step refused) s turns).store := by
  have hstep : ∀ (s' : Pool Db Exc α) turn, AllWithin R s' ∧ R s.store s'.store →
      AllWithin R (step refused s' turn) ∧ R s.store (step refused s' turn).store :=
    fun s' turn hs' =>
      ⟨allWithin_step turn hs'.1, htrans hs'.2 (rel_step hrefl htrans turn hs'.1)⟩
  exact @Run.run_invariant _ _ _ (fun s' => AllWithin R s' ∧ R s.store s'.store) hstep turns _
    ⟨h, hrefl _⟩

/-- The transaction `i` ensures `Q`, unless it does not exist. -/
theorem ensured_step {Q : α → Db → Prop} {i : Nat} (turn : Interleaving.Turn (Option Exc))
    (hstable : ∀ {a db db'}, R db db' → Q a db → Q a db') (hwithin : AllWithin R s)
    (h : ∀ p, s.procs[i]? = some p → p.Ensures R Q s.store) :
    ∀ p, (step refused s turn).procs[i]? = some p → p.Ensures R Q (step refused s turn).store := by
  have hrel : R s.store (step refused s turn).store := rel_step hrefl htrans turn hwithin
  cases hp : s.procs[turn.proc]? with
  | none =>
      rw [step, Interleaving.step_of_none hp]
      exact h
  | some q =>
      rw [step, Interleaving.step_of_some hp] at hrel ⊢
      intro p hget
      rcases Interleaving.getElem?_set_some hp hget with ⟨rfl, rfl⟩ | ⟨-, hold⟩
      · exact Transaction.ensures_resume hrefl (h q hp)
      · exact (h p hold).rely htrans hstable hrel

/-- What a transaction ensures, it has ensured when it returns, and from then on. -/
theorem ensured_run (Q : α → Db → Prop) {i : Nat}
    (turns : List (Interleaving.Turn (Option Exc)))
    (hstable : ∀ {a db db'}, R db db' → Q a db → Q a db') (hwithin : AllWithin R s)
    (h : ∀ p, s.procs[i]? = some p → p.Ensures R Q s.store) {a : α}
    (hreturned : (Run.run (step refused) s turns).procs[i]? = some (.ended (.ok a))) :
    Q a (Run.run (step refused) s turns).store := by
  have hstep : ∀ (s' : Pool Db Exc α) turn,
      (AllWithin R s' ∧ ∀ p, s'.procs[i]? = some p → p.Ensures R Q s'.store) →
      AllWithin R (step refused s' turn) ∧ ∀ p, (step refused s' turn).procs[i]? = some p →
        p.Ensures R Q (step refused s' turn).store :=
    fun s' turn hs' => ⟨allWithin_step turn hs'.1,
      ensured_step hrefl htrans turn hstable hs'.1 hs'.2⟩
  have hrun := @Run.run_invariant _ _ _
    (fun s' => AllWithin R s' ∧ ∀ p, s'.procs[i]? = some p → p.Ensures R Q s'.store) hstep turns
    s ⟨hwithin, h⟩
  exact hrun.2 _ hreturned

end

end Transactions
