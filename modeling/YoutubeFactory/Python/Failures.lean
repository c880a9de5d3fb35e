import YoutubeFactory.Lib.Except
import YoutubeFactory.Python.Value
import Mathlib.Tactic.ByContra

/-!
# Operators that fail

On which operands the operators of built-in values raise something else than `TypeError` and
`ZeroDivisionError`.  Arithmetic does so where a number is too large for a float, a sequence
cannot be repeated so often, or a text cannot be formatted (`fails_binary_iff`).  Membership does
so for an integer that is no byte (`contains_error_iff`).  The order of values never does, if that
of inexact numbers does not (`order_error`).
-/

namespace YoutubeFactory.Python

/-! ## Arithmetic that fails -/

section

variable {F : Type} [Inexact F]

/-- An exception that no clause around a binary operator handles. -/
def Fails {α : Type} (r : Except PyErr α) : Prop :=
  ∃ exc, r = .error exc ∧ exc.kind ≠ .zeroDivisionError ∧ exc.kind ≠ .typeError

@[simp] theorem not_fails_ok {α : Type} (a : α) : ¬ Fails (.ok a) := nofun

@[simp] theorem not_fails_zeroDivision {α : Type} :
    ¬ Fails (Value.zeroDivision : Except PyErr α) := by
  rintro ⟨exc, h, hzero, -⟩
  cases h
  exact hzero rfl

theorem not_fails_typeError {α : Type} (text : String) :
    ¬ Fails (.error (Value.typeError text) : Except PyErr α) := by
  rintro ⟨exc, h, -, htype⟩
  cases h
  exact htype rfl

@[simp] theorem not_fails_unsupportedOperands {α : Type} (symbol : String) (l r : Value F) :
    ¬ Fails (Value.unsupportedOperands symbol l r : Except PyErr α) := not_fails_typeError _

theorem notAdded_eq_typeError (α : Type) (l r : Value F) :
    ∃ text, (Value.notAdded l r : Except PyErr α) = .error (Value.typeError text) := by
  cases l <;> exact ⟨_, rfl⟩

theorem notMultiplied_eq_typeError (α : Type) (l r : Value F) :
    ∃ text, (Value.notMultiplied l r : Except PyErr α) = .error (Value.typeError text) := by
  unfold Value.notMultiplied
  split
  · exact ⟨_, rfl⟩
  · split
    · exact ⟨_, rfl⟩
    · exact ⟨_, rfl⟩

theorem not_fails_notAdded {α : Type} (l r : Value F) :
    ¬ Fails (Value.notAdded l r : Except PyErr α) := by
  obtain ⟨text, h⟩ := notAdded_eq_typeError α l r
  rw [h]
  exact not_fails_typeError text

@[simp] theorem not_fails_notMultiplied {α : Type} (l r : Value F) :
    ¬ Fails (Value.notMultiplied l r : Except PyErr α) := by
  obtain ⟨text, h⟩ := notMultiplied_eq_typeError α l r
  rw [h]
  exact not_fails_typeError text

theorem notAdded_ne_ok {α : Type} (l r : Value F) (a : α) : Value.notAdded l r ≠ .ok a := by
  obtain ⟨text, h⟩ := notAdded_eq_typeError α l r
  rw [h]
  rintro ⟨⟩

theorem notMultiplied_ne_ok {α : Type} (l r : Value F) (a : α) :
    Value.notMultiplied l r ≠ .ok a := by
  obtain ⟨text, h⟩ := notMultiplied_eq_typeError α l r
  rw [h]
  rintro ⟨⟩

@[simp] theorem fails_map {α β : Type} {r : Except PyErr α} {f : α → β} :
    Fails (r.map f) ↔ Fails r := by
  unfold Fails
  simp only [Except.map_eq_error]

/-- An operand of mixed arithmetic, converted. -/
def toInexact? : Value F → Option (Except PyErr F)
  | .inexact x => some (.ok x)
  | v => v.asInt?.map Inexact.ofInt

/-- The length of a sequence that `*` repeats. -/
def sequenceLength? : Value F → Option Nat
  | .str s => some s.toList.length
  | .bytes bs => some bs.length
  | .list items => some items.length
  | .tuple items => some items.length
  | _ => none

/-- A sequence of this length cannot be repeated this often. -/
def RepeatsTooFar (sequence : Value F) (length : Nat) (count : Int) : Prop :=
  (count > Value.maxSize ∨ count < -Value.maxSize - 1) ∨
    (length : Int) * count > sequence.itemLimit

/-- The operands on which a binary operator raises past its guard: a number too large for a float
or a float result out of range, a sequence that cannot be repeated so often, a text or bytes that
cannot be formatted. -/
inductive BinaryFails [Formatting F] : Binary → Value F → Value F → Prop
  | truediv {l r : Value F} {i j : Int} (hl : l.asInt? = some i) (hr : r.asInt? = some j)
      (hj : j ≠ 0) (fails : Fails (Inexact.truediv i j : Except PyErr F)) :
      BinaryFails .truediv l r
  | pow {l r : Value F} {i j : Int} (hl : l.asInt? = some i) (hr : r.asInt? = some j)
      (hj : j < 0)
      (fails : Fails (Value.inexactBinary .pow (Inexact.ofInt i : Except PyErr F)
        (Inexact.ofInt j))) : BinaryFails .pow l r
  | inexact {op : Binary} {l r : Value F} {x y : Except PyErr F}
      (mixed : l.asInt? = none ∨ r.asInt? = none) (hl : toInexact? l = some x)
      (hr : toInexact? r = some y) (fails : Fails (Value.inexactBinary op x y)) :
      BinaryFails op l r
  | repeatLeft {l r : Value F} {length : Nat} {count : Int} (hl : sequenceLength? l = some length)
      (hr : r.asInt? = some count) (far : RepeatsTooFar l length count) : BinaryFails .mul l r
  | repeatRight {l r : Value F} {length : Nat} {count : Int} (hl : l.asInt? = some count)
      (hr : sequenceLength? r = some length) (far : RepeatsTooFar r length count) :
      BinaryFails .mul l r
  | formatStr {s : String} {r : Value F} (fails : Fails (Formatting.str s r)) :
      BinaryFails .mod (.str s) r
  | formatBytes {bs : List UInt8} {r : Value F} (fails : Fails (Formatting.bytes bs r)) :
      BinaryFails .mod (.bytes bs) r

theorem toInexact?_of_ne {v : Value F} (h : ∀ x, v = .inexact x → False) :
    toInexact? v = v.asInt?.map Inexact.ofInt := by
  cases v with
  | inexact x => exact absurd rfl (h x)
  | _ => rfl

theorem toInexact?_eq_none {v : Value F} (h : toInexact? v = none) : v.asInt? = none := by
  cases v with
  | bool b => cases h
  | int i => cases h
  | _ => rfl

theorem asInt?_of_sequence {v : Value F} {length : Nat} (h : sequenceLength? v = some length) :
    v.asInt? = none ∧ toInexact? v = none := by
  cases v with
  | str s => exact ⟨rfl, rfl⟩
  | bytes bs => exact ⟨rfl, rfl⟩
  | list items => exact ⟨rfl, rfl⟩
  | tuple items => exact ⟨rfl, rfl⟩
  | _ => cases h

theorem numberBinary?_of_ints {op : Binary} {l r : Value F} {i j : Int}
    (hl : l.asInt? = some i) (hr : r.asInt? = some j) :
    Value.numberBinary? op l r = some (Value.intBinary op i j) := by
  unfold Value.numberBinary?
  split
  · cases hl
  · cases hl
  · cases hr
  · rw [hl, hr]

theorem numberBinary?_of_inexact {op : Binary} {l r : Value F} {x y : Except PyErr F}
    (mixed : l.asInt? = none ∨ r.asInt? = none) (hl : toInexact? l = some x)
    (hr : toInexact? r = some y) :
    Value.numberBinary? op l r = some (Value.inexactBinary op x y) := by
  unfold Value.numberBinary?
  split
  · cases hl
    cases hr
    rfl
  · next hne =>
      cases hl
      rw [toInexact?_of_ne hne] at hr
      obtain ⟨j, hj, rfl⟩ := Option.map_eq_some_iff.mp hr
      rw [hj]
      rfl
  · next hne =>
      cases hr
      rw [toInexact?_of_ne hne] at hl
      obtain ⟨i, hi, rfl⟩ := Option.map_eq_some_iff.mp hl
      rw [hi]
      rfl
  · next hnel hner _ =>
      rw [toInexact?_of_ne hnel] at hl
      rw [toInexact?_of_ne hner] at hr
      obtain ⟨i, hi, -⟩ := Option.map_eq_some_iff.mp hl
      obtain ⟨j, hj, -⟩ := Option.map_eq_some_iff.mp hr
      rw [hi, hj] at mixed
      rcases mixed with h | h <;> cases h

theorem numberBinary?_eq_none {op : Binary} {l r : Value F}
    (h : toInexact? l = none ∨ toInexact? r = none) : Value.numberBinary? op l r = none := by
  unfold Value.numberBinary?
  split
  · rcases h with h | h <;> cases h
  · rcases h with h | h
    · cases h
    · rw [toInexact?_eq_none h]
      rfl
  · rcases h with h | h
    · rw [toInexact?_eq_none h]
      rfl
    · cases h
  · split
    · next i j hi hj =>
        rcases h with h | h
        · rw [toInexact?_eq_none h] at hi
          cases hi
        · rw [toInexact?_eq_none h] at hj
          cases hj
    · rfl

theorem fails_intBinary {op : Binary} {i j : Int} :
    Fails (Value.intBinary op i j : Except PyErr (Value F)) ↔
      (op = .truediv ∧ j ≠ 0 ∧ Fails (Inexact.truediv i j : Except PyErr F)) ∨
        (op = .pow ∧ j < 0 ∧ Fails (Value.inexactBinary .pow (Inexact.ofInt i : Except PyErr F)
          (Inexact.ofInt j))) := by
  have hguard : ∀ {r : Except PyErr (Value F)},
      Fails (if j = 0 then Value.zeroDivision else r) ↔ j ≠ 0 ∧ Fails r := by
    intro r
    split
    · next hj => simp [hj]
    · next hj => simp [hj]
  cases op with
  | truediv =>
      simp only [Value.intBinary, hguard, fails_map]
      simp
  | floordiv =>
      simp only [Value.intBinary, hguard]
      simp
  | mod =>
      simp only [Value.intBinary, hguard]
      simp
  | pow =>
      simp only [Value.intBinary]
      split
      · next hj => simp [Int.not_lt.mpr hj]
      · next hj =>
          simp only [Int.not_le.mp hj, true_and, reduceCtorEq, false_and, false_or]
          rfl
  | add => simp [Value.intBinary]
  | sub => simp [Value.intBinary]
  | mul => simp [Value.intBinary]

omit [Inexact F] in
theorem fails_tooLong {α : Type} (sequence : Value F) :
    Fails (.error sequence.tooLong : Except PyErr α) := by
  refine ⟨_, rfl, ?_, ?_⟩
  · cases sequence <;> nofun
  · cases sequence <;> nofun

omit [Inexact F] in
theorem fails_repeatItems {α : Type} {sequence : Value F} {items : List α} {count : Int} :
    Fails (sequence.repeatItems items count) ↔ RepeatsTooFar sequence items.length count := by
  unfold Value.repeatItems RepeatsTooFar
  split
  · next h => exact iff_of_true ⟨_, rfl, nofun, nofun⟩ (.inl h)
  · next h =>
      rw [or_iff_right h]
      split
      · next hlong => exact iff_of_true (fails_tooLong sequence) hlong
      · next hshort => exact iff_of_false (not_fails_ok _) hshort

omit [Inexact F] in
theorem repeat?_eq_none {v : Value F} {count : Int} (h : sequenceLength? v = none) :
    Value.repeat? v count = none := by
  cases v with
  | str s => cases h
  | bytes bs => cases h
  | list items => cases h
  | tuple items => cases h
  | _ => rfl

omit [Inexact F] in
theorem fails_repeat? {v : Value F} {length : Nat} {count : Int}
    (h : sequenceLength? v = some length) :
    ∃ result, Value.repeat? v count = some result ∧
      (Fails result ↔ RepeatsTooFar v length count) := by
  cases v with
  | str s =>
      cases h
      exact ⟨_, rfl, fails_map.trans fails_repeatItems⟩
  | bytes bs =>
      cases h
      exact ⟨_, rfl, fails_map.trans fails_repeatItems⟩
  | list items =>
      cases h
      exact ⟨_, rfl, fails_map.trans fails_repeatItems⟩
  | tuple items =>
      cases h
      exact ⟨_, rfl, fails_map.trans fails_repeatItems⟩
  | _ => cases h

variable [Formatting F]

theorem binary_of_number {op : Binary} {l r : Value F} {result : Except PyErr (Value F)}
    (h : Value.numberBinary? op l r = some result) : Value.binary op l r = result := by
  unfold Value.binary
  rw [h]

omit [Formatting F] in
/-- `*`, once it is known which operand is the sequence. -/
theorem fails_repeat_iff {v l r : Value F} {count : Int} :
    Fails ((Value.repeat? v count).getD (Value.notMultiplied l r)) ↔
      ∃ length, sequenceLength? v = some length ∧ RepeatsTooFar v length count := by
  cases hlength : sequenceLength? v with
  | none =>
      rw [repeat?_eq_none hlength]
      simp
  | some length =>
      obtain ⟨result, hresult, hfails⟩ := @fails_repeat? _ _ _ count hlength
      rw [hresult, Option.getD_some, hfails]
      simp

/-- `*` with an operand that is no number. -/
theorem fails_mul {l r : Value F} (h : Value.numberBinary? .mul l r = none) :
    Fails (Value.binary .mul l r) ↔ ∃ length count,
      (sequenceLength? l = some length ∧ r.asInt? = some count ∧ RepeatsTooFar l length count) ∨
        (l.asInt? = some count ∧ sequenceLength? r = some length ∧
          RepeatsTooFar r length count) := by
  have hmul : Value.binary .mul l r = (Value.sequenceMul? l r).getD
      (Value.notMultiplied l r) := by
    unfold Value.binary
    rw [h]
    dsimp only
    cases Value.sequenceMul? l r <;> rfl
  rw [hmul, Value.sequenceMul?]
  cases hr : r.asInt? with
  | some count =>
      have hlength : sequenceLength? r = none := by
        by_contra hne
        obtain ⟨length, hlength⟩ := Option.ne_none_iff_exists'.mp hne
        rw [(asInt?_of_sequence hlength).1] at hr
        cases hr
      simp only [fails_repeat_iff, hlength, reduceCtorEq, false_and, and_false, or_false,
        Option.some.injEq]
      exact ⟨fun ⟨length, hl, hfar⟩ => ⟨length, count, hl, rfl, hfar⟩,
        fun ⟨length, _, hl, hcount, hfar⟩ => ⟨length, hl, hcount ▸ hfar⟩⟩
  | none =>
      cases hl : l.asInt? with
      | none => simp
      | some count =>
          simp only [Option.bind_some, fails_repeat_iff, reduceCtorEq, false_and, and_false,
            false_or, Option.some.injEq]
          exact ⟨fun ⟨length, hr, hfar⟩ => ⟨length, count, rfl, hr, hfar⟩,
            fun ⟨length, _, hcount, hr, hfar⟩ => ⟨length, hr, hcount ▸ hfar⟩⟩

/-- A binary operator raises past its guard exactly on these operands. -/
theorem fails_binary_iff {op : Binary} {l r : Value F} :
    Fails (Value.binary op l r) ↔ BinaryFails op l r := by
  constructor
  · intro h
    by_cases hnumbers : toInexact? l = none ∨ toInexact? r = none
    · have hnone : ∀ op, Value.numberBinary? op l r = none := fun _ =>
        numberBinary?_eq_none hnumbers
      cases op with
      | mul =>
          obtain ⟨length, count, ⟨hl, hr, hfar⟩ | ⟨hl, hr, hfar⟩⟩ := (fails_mul (hnone .mul)).mp h
          · exact .repeatLeft hl hr hfar
          · exact .repeatRight hl hr hfar
      | mod =>
          unfold Value.binary at h
          rw [hnone] at h
          cases l with
          | str s => exact .formatStr (fails_map.mp h)
          | bytes bs => exact .formatBytes (fails_map.mp h)
          | _ => exact absurd h (not_fails_unsupportedOperands _ _ _)
      | add =>
          unfold Value.binary at h
          rw [hnone] at h
          dsimp only at h
          split at h
          · exact absurd h (not_fails_ok _)
          · exact absurd h (not_fails_notAdded _ _)
      | _ =>
          unfold Value.binary at h
          rw [hnone] at h
          exact absurd h (not_fails_unsupportedOperands _ _ _)
    · rw [not_or] at hnumbers
      obtain ⟨x, hx⟩ := Option.ne_none_iff_exists'.mp hnumbers.1
      obtain ⟨y, hy⟩ := Option.ne_none_iff_exists'.mp hnumbers.2
      by_cases mixed : l.asInt? = none ∨ r.asInt? = none
      · rw [binary_of_number (numberBinary?_of_inexact mixed hx hy)] at h
        exact .inexact mixed hx hy h
      · rw [not_or] at mixed
        obtain ⟨i, hi⟩ := Option.ne_none_iff_exists'.mp mixed.1
        obtain ⟨j, hj⟩ := Option.ne_none_iff_exists'.mp mixed.2
        rw [binary_of_number (numberBinary?_of_ints hi hj), fails_intBinary] at h
        rcases h with ⟨rfl, hne, hfails⟩ | ⟨rfl, hneg, hfails⟩
        · exact .truediv hi hj hne hfails
        · exact .pow hi hj hneg hfails
  · intro h
    cases h with
    | truediv hl hr hj hfails =>
        rw [binary_of_number (numberBinary?_of_ints hl hr), fails_intBinary]
        exact .inl ⟨rfl, hj, hfails⟩
    | pow hl hr hj hfails =>
        rw [binary_of_number (numberBinary?_of_ints hl hr), fails_intBinary]
        exact .inr ⟨rfl, hj, hfails⟩
    | inexact mixed hl hr hfails =>
        rw [binary_of_number (numberBinary?_of_inexact mixed hl hr)]
        exact hfails
    | repeatLeft hl hr hfar =>
        have hnone := @numberBinary?_eq_none _ _ .mul l r (.inl (asInt?_of_sequence hl).2)
        exact (fails_mul hnone).mpr ⟨_, _, .inl ⟨hl, hr, hfar⟩⟩
    | repeatRight hl hr hfar =>
        have hnone := @numberBinary?_eq_none _ _ .mul l r (.inr (asInt?_of_sequence hr).2)
        exact (fails_mul hnone).mpr ⟨_, _, .inr ⟨hl, hr, hfar⟩⟩
    | @formatStr s _ hfails =>
        have hnone := @numberBinary?_eq_none _ _ .mod (.str s) r (.inl rfl)
        unfold Value.binary
        rw [hnone]
        exact fails_map.mpr hfails
    | @formatBytes bs _ hfails =>
        have hnone := @numberBinary?_eq_none _ _ .mod (.bytes bs) r (.inl rfl)
        unfold Value.binary
        rw [hnone]
        exact fails_map.mpr hfails

end

/-! ## Comparisons that fail -/

section

variable {F : Type} [Inexact F]

/-- Inexact numbers that cannot be ordered raise `TypeError`, and their comparisons raise nothing
else. -/
def ComparesPlainly (F : Type) [Inexact F] : Prop :=
  (∀ op (x y : F) exc, Inexact.compare op x y = .error exc → exc.kind = .typeError) ∧
    ∀ op (x : F) i exc, Inexact.compareInt op x i = .error exc → exc.kind = .typeError

theorem orderNumbers_error (hplain : ComparesPlainly F) {op : OrderOp} {l r : Value F} {exc : PyErr}
    (h : Value.orderNumbers op l r = .error exc) : exc.kind = .typeError := by
  have hunsupported : ∀ {l r : Value F}, Value.orderUnsupported op l r = .error exc →
      exc.kind = .typeError := fun h => by
    cases h
    rfl
  unfold Value.orderNumbers at h
  split at h
  · exact hplain.1 _ _ _ _ h
  · split at h
    · exact hplain.2 _ _ _ _ h
    · exact hunsupported h
  · split at h
    · exact hplain.2 _ _ _ _ h
    · exact hunsupported h
  · split at h
    · cases h
    · exact hunsupported h

mutual

theorem order_error (hplain : ComparesPlainly F) {op : OrderOp} {exc : PyErr} :
    ∀ l r : Value F, Value.order op l r = .error exc → exc.kind = .typeError
  | l, r, h => by
      rw [Value.order.eq_def] at h
      split at h
      · cases h
      · cases h
      · exact orderItems_error hplain _ _ h
      · exact orderItems_error hplain _ _ h
      · exact orderNumbers_error hplain h

theorem orderItems_error (hplain : ComparesPlainly F) {op : OrderOp} {exc : PyErr} :
    ∀ xs ys : List (Value F), Value.orderItems op xs ys = .error exc → exc.kind = .typeError
  | [], _, h => by
      rw [Value.orderItems.eq_def] at h
      cases h
  | _ :: _, [], h => by
      rw [Value.orderItems.eq_def] at h
      cases h
  | x :: xs, y :: ys, h => by
      rw [Value.orderItems.eq_def] at h
      dsimp only at h
      split at h
      · exact orderItems_error hplain xs ys h
      · exact order_error hplain x y h

end

/-- Membership fails, other than for unfit types, only for an integer that is no byte. -/
theorem contains_error_iff {needle container : Value F} :
    (∃ exc, Value.contains needle container = .error exc ∧ exc.kind ≠ .typeError) ↔
      ∃ bs i, container = .bytes bs ∧ needle.asInt? = some i ∧ ¬ (0 ≤ i ∧ i < 256) := by
  have hunfit : ∀ text, ¬ ∃ exc, (.error (Value.typeError text) : Except PyErr Bool) = .error exc ∧
      exc.kind ≠ .typeError := fun text ⟨_, h, htype⟩ => by
    cases h
    exact htype rfl
  cases container with
  | bytes bs =>
      unfold Value.contains
      dsimp only
      split
      · exact iff_of_false nofun fun ⟨_, _, _, h, _⟩ => by cases h
      · split
        · next i hi =>
            split
            · next hbyte =>
                refine iff_of_false nofun fun ⟨_, j, _, hj, hno⟩ => ?_
                rw [hi] at hj
                cases hj
                exact hno hbyte
            · next hno => exact iff_of_true ⟨_, rfl, nofun⟩ ⟨bs, i, rfl, hi, hno⟩
        · next hnone =>
            refine iff_of_false (hunfit _) fun ⟨_, _, _, h, _⟩ => ?_
            rw [hnone] at h
            cases h
  | dict entries =>
      unfold Value.contains
      dsimp only
      split
      · exact iff_of_false nofun nofun
      · exact iff_of_false (hunfit _) nofun
  | str s =>
      unfold Value.contains
      dsimp only
      split
      · exact iff_of_false nofun nofun
      · exact iff_of_false (hunfit _) nofun
  | list items => exact iff_of_false nofun nofun
  | tuple items => exact iff_of_false nofun nofun
  | _ => exact iff_of_false (hunfit _) nofun

omit [Inexact F] in
theorem itemAt_error {α : Type} {kind : String} {items : List α} {i : Int} {exc : PyErr}
    (h : Value.itemAt kind items i = .error exc) : exc.kind = .indexError := by
  unfold Value.itemAt at h
  split at h
  · cases h
  · cases h
    rfl

/-- A subscript raises `KeyError`, `IndexError` or `TypeError`. -/
theorem getitem_error {container key : Value F} {exc : PyErr}
    (h : Value.getitem container key = .error exc) :
    exc.kind = .keyError ∨ exc.kind = .indexError ∨ exc.kind = .typeError := by
  have hindex : ∀ {item : Int → Except PyErr (Value F)},
      (∀ i exc, item i = .error exc → exc.kind = .indexError) →
        Value.getitem.atIndex container key item = .error exc →
          exc.kind = .keyError ∨ exc.kind = .indexError ∨ exc.kind = .typeError := by
    intro item hitem h
    unfold Value.getitem.atIndex at h
    split at h
    · exact .inr (.inl (hitem _ _ h))
    · cases h
      exact .inr (.inr rfl)
  cases container with
  | dict entries =>
      unfold Value.getitem at h
      dsimp only at h
      split at h
      · split at h
        · cases h
        · cases h
          exact .inl rfl
      · cases h
        exact .inr (.inr rfl)
  | list items => exact hindex (fun _ _ h => itemAt_error h) h
  | tuple items => exact hindex (fun _ _ h => itemAt_error h) h
  | str s => exact hindex (fun _ _ h => itemAt_error (Except.map_eq_error.mp h)) h
  | bytes bs => exact hindex (fun _ _ h => itemAt_error (Except.map_eq_error.mp h)) h
  | _ =>
      cases h
      exact .inr (.inr rfl)

end

end YoutubeFactory.Python
