import Mathlib.Algebra.BigOperators.Group.List.Lemmas
import Mathlib.Algebra.Order.Group.Abs
import Mathlib.Data.List.Nodup
import Mathlib.Tactic.Abel

/-!
# Rollups

Entries are logged one after the other, each with a key and an amount.  A table beside the log
has a row for each key, and each entry is added to the row of its key, or to a new row if there is
none.  Then the row of a key holds the sum of the entries with that key, however the entries of
different keys alternate (`Agrees.upsert`).
-/

namespace Rollup

variable {Row Key Amount Entry : Type} [DecidableEq Key] [AddCommMonoid Amount]

/-! ## Logs -/

/-- The entries of one key. -/
def entriesOf (key : Entry → Key) (log : List Entry) (k : Key) : List Entry :=
  log.filter fun e => key e = k

/-- What the entries of one key come to. -/
def total (key : Entry → Key) (amount : Entry → Amount) (log : List Entry) (k : Key) : Amount :=
  ((entriesOf key log k).map amount).sum

theorem total_append (key : Entry → Key) (amount : Entry → Amount) (log : List Entry) (e : Entry)
    (k : Key) : total key amount (log ++ [e]) k =
      total key amount log k + if key e = k then amount e else 0 := by
  rw [total, total, entriesOf, entriesOf, List.filter_append, List.map_append, List.sum_append]
  by_cases h : key e = k
  · simp [h]
  · simp [h]

theorem total_eq_zero {key : Entry → Key} {amount : Entry → Amount} {log : List Entry} {k : Key}
    (h : ∀ e ∈ log, key e ≠ k) : total key amount log k = 0 := by
  have hnone : entriesOf key log k = [] :=
    List.filter_eq_nil_iff.mpr fun e he => by simpa using h e he
  rw [total, hnone, List.map_nil, List.sum_nil]

/-- One component of a total. -/
theorem map_total {Part : Type} [AddCommMonoid Part] (f : Amount →+ Part) (key : Entry → Key)
    (amount : Entry → Amount) (log : List Entry) (k : Key) :
    f (total key amount log k) = ((entriesOf key log k).map fun e => f (amount e)).sum := by
  rw [total, map_list_sum, List.map_map]
  rfl

/-! ## Tables -/

/-- How a row holds the amount of its key. -/
structure Columns (Row Key Amount : Type) [AddCommMonoid Amount] where
  key : Row → Key
  amount : Row → Amount
  fresh : Key → Row
  add : Amount → Row → Row
  key_fresh : ∀ k, key (fresh k) = k
  amount_fresh : ∀ k, amount (fresh k) = 0
  key_add : ∀ a r, key (add a r) = key r
  amount_add : ∀ a r, amount (add a r) = amount r + a

variable (c : Columns Row Key Amount)

/-- An amount is added to the row of its key, or to a new one. -/
def Columns.upsert (k : Key) (a : Amount) (rows : List Row) : List Row :=
  if (rows.filter fun r => c.key r = k).isEmpty then rows ++ [c.add a (c.fresh k)]
  else rows.map fun r => if c.key r = k then c.add a r else r

/-- The table is the rollup of the log. -/
structure Columns.Agrees (key : Entry → Key) (amount : Entry → Amount) (rows : List Row)
    (log : List Entry) : Prop where
  nodup : (rows.map c.key).Nodup
  sums : ∀ r ∈ rows, c.amount r = total key amount log (c.key r)
  covers : ∀ e ∈ log, key e ∈ rows.map c.key

variable {c} {key : Entry → Key} {amount : Entry → Amount}

theorem Columns.Agrees.nil : c.Agrees key amount [] [] where
  nodup := List.nodup_nil
  sums := fun r hr => by cases hr
  covers := fun e he => by cases he

/-- There is at most one row for a key. -/
theorem Columns.Agrees.length_le {rows : List Row} {log : List Entry}
    (h : c.Agrees key amount rows log) (k : Key) :
    (rows.filter fun r => c.key r = k).length ≤ 1 := by
  have hcount := List.nodup_iff_count_le_one.mp h.nodup k
  rw [List.count_eq_countP, List.countP_map, List.countP_eq_length_filter] at hcount
  exact hcount

variable {rows : List Row} {log : List Entry} {e : Entry}

/-- The first entry of its key. -/
theorem Columns.Agrees.append (h : c.Agrees key amount rows log)
    (hfresh : key e ∉ rows.map c.key) :
    c.Agrees key amount (rows ++ [c.add (amount e) (c.fresh (key e))]) (log ++ [e]) := by
  have hkey : c.key (c.add (amount e) (c.fresh (key e))) = key e := by
    rw [c.key_add, c.key_fresh]
  constructor
  · rw [List.map_append, List.map_singleton, hkey]
    rw [← List.concat_eq_append]
    exact List.Nodup.concat hfresh h.nodup
  · intro r hr
    rcases List.mem_append.mp hr with hold | hnew
    · have hne : key e ≠ c.key r := fun heq => hfresh (heq ▸ List.mem_map_of_mem hold)
      rw [h.sums r hold, total_append, if_neg hne, add_zero]
    · have hnone : ∀ e' ∈ log, key e' ≠ key e := fun e' he' heq =>
        hfresh (heq ▸ h.covers e' he')
      rw [List.mem_singleton.mp hnew, hkey, c.amount_add, c.amount_fresh, total_append,
        total_eq_zero hnone, if_pos rfl]
  · intro e' he'
    rw [List.map_append, List.map_singleton, hkey, List.mem_append, List.mem_singleton]
    rcases List.mem_append.mp he' with hold | hnew
    · exact .inl (h.covers e' hold)
    · rw [List.mem_singleton.mp hnew]
      exact .inr rfl

/-- An entry whose key has a row. -/
theorem Columns.Agrees.map (h : c.Agrees key amount rows log) (hrow : key e ∈ rows.map c.key) :
    c.Agrees key amount (rows.map fun r => if c.key r = key e then c.add (amount e) r else r)
      (log ++ [e]) := by
  have hkeys : (rows.map fun r => if c.key r = key e then c.add (amount e) r else r).map c.key =
      rows.map c.key := by
    rw [List.map_map]
    refine List.map_congr_left fun r _ => ?_
    show c.key (if c.key r = key e then c.add (amount e) r else r) = c.key r
    split
    · exact c.key_add _ _
    · rfl
  constructor
  · rw [hkeys]
    exact h.nodup
  · intro r' hr'
    obtain ⟨r, hr, rfl⟩ := List.mem_map.mp hr'
    split
    · next heq => rw [c.key_add, c.amount_add, h.sums r hr, total_append, if_pos heq.symm]
    · next hne =>
        rw [h.sums r hr, total_append, if_neg fun heq => hne heq.symm, add_zero]
  · intro e' he'
    rw [hkeys]
    rcases List.mem_append.mp he' with hold | hnew
    · exact h.covers e' hold
    · rw [List.mem_singleton.mp hnew]
      exact hrow

/-- An entry that is logged and rolled up. -/
theorem Columns.Agrees.upsert (h : c.Agrees key amount rows log) (e : Entry) :
    c.Agrees key amount (c.upsert (key e) (amount e) rows) (log ++ [e]) := by
  rw [Columns.upsert]
  split
  · next hnone =>
      refine h.append fun hmem => ?_
      obtain ⟨r, hr, hkey⟩ := List.mem_map.mp hmem
      have hin : r ∈ rows.filter fun r => c.key r = key e := by
        rw [List.mem_filter, decide_eq_true_eq]
        exact ⟨hr, hkey⟩
      rw [List.isEmpty_iff.mp hnone] at hin
      cases hin
  · next hsome =>
      refine h.map ?_
      rw [List.isEmpty_iff] at hsome
      obtain ⟨r, hr⟩ := List.exists_mem_of_ne_nil _ hsome
      rw [List.mem_filter, decide_eq_true_eq] at hr
      exact List.mem_map.mpr ⟨r, hr.1, hr.2⟩

/-! ## Sums that are close -/

/-- Entry by entry, two quantities are close; then their sums are, by the number of entries. -/
theorem abs_sum_sub_sum_le {α : Type} [AddCommGroup α] [LinearOrder α] [IsOrderedAddMonoid α]
    {f g : Entry → α} {bound : α} :
    ∀ {entries : List Entry}, (∀ e ∈ entries, |f e - g e| ≤ bound) →
      |(entries.map f).sum - (entries.map g).sum| ≤ entries.length • bound
  | [], _ => by simp
  | e :: entries, h => by
      have hrest := abs_sum_sub_sum_le fun e' he' => h e' (List.mem_cons_of_mem e he')
      have hsplit : ((e :: entries).map f).sum - ((e :: entries).map g).sum =
          (f e - g e) + ((entries.map f).sum - (entries.map g).sum) := by
        rw [List.map_cons, List.map_cons, List.sum_cons, List.sum_cons]
        abel
      rw [hsplit, List.length_cons, succ_nsmul']
      exact (abs_add_le _ _).trans (add_le_add (h e List.mem_cons_self) hrest)

end Rollup
