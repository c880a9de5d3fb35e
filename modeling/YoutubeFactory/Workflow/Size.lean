import YoutubeFactory.Lib.Except
import YoutubeFactory.Python.Failures
import YoutubeFactory.Workflow.Expressions
import Mathlib.Algebra.Group.Nat.Defs
import Mathlib.Order.Lattice

/-!
# The size of expression values

The evaluator limits the exponent of one power at a time and the length of the
text.  It does not limit the value a power is raised from, nor the number of times
a sequence is repeated, so nested powers and repetitions grow without a bound that
follows from these limits.

`Node.extent` computes a bound on the values of an expression without names from
its literals and operators alone.  It is sound (`evaluateNode_within`), except for
`%` on a text, which formats.  An expression all of whose parts have a small extent
has small values only (`Node.Fits.bounded`).  What the operators must be applied to
for the values to stay small is in `Growth`.
-/

namespace YoutubeFactory.Workflow

open Python

/-! ## Extents -/

/-- Bounds on a value and on everything inside it: the absolute value of its
integers, the length of its sequences, and whether it may hold a text.  A boolean
counts as an integer, so the first bound is positive. -/
structure Extent where
  mag : Nat
  len : Nat
  text : Bool
  one_le_mag : 1 ≤ mag

namespace Extent

def number (mag : Nat) : Extent := ⟨max 1 mag, 0, false, by omega⟩

/-- The extent of a value that holds no integer and no sequence. -/
def atom : Extent := number 1

def join (a b : Extent) : Extent :=
  ⟨max a.mag b.mag, max a.len b.len, a.text || b.text, by
    have ha := a.one_le_mag
    omega⟩

def sequence (length : Nat) (items : Extent) : Extent :=
  { items with len := max length items.len }

theorem one_le_add (l r : Extent) : 1 ≤ l.mag + r.mag :=
  Nat.le_add_right_of_le l.one_le_mag

theorem one_le_mul (l r : Extent) : 1 ≤ l.mag * r.mag :=
  Nat.mul_pos l.one_le_mag r.one_le_mag

/-- The extent of `l op r`.  `%` is the remainder of two numbers. -/
def binary (op : Binary) (l r : Extent) : Extent :=
  match op with
  | .add => ⟨l.mag + r.mag, l.len + r.len, l.text || r.text, one_le_add l r⟩
  | .sub => number (l.mag + r.mag)
  | .mul => ⟨l.mag * r.mag, max (l.len * r.mag) (r.len * l.mag), l.text || r.text, one_le_mul l r⟩
  | .truediv => atom
  | .floordiv => number l.mag
  | .mod => number r.mag
  | .pow => number (l.mag ^ min r.mag MAX_EXPONENT)

/-- Every bound of the first extent is at most that of the second. -/
structure Le (a b : Extent) : Prop where
  mag : a.mag ≤ b.mag
  len : a.len ≤ b.len
  text : a.text = true → b.text = true

theorem le_join_left (a b : Extent) : a.Le (a.join b) :=
  ⟨by simp [join], by simp [join], fun h => by simp [join, h]⟩

theorem le_join_right (a b : Extent) : b.Le (a.join b) :=
  ⟨by simp [join], by simp [join], fun h => by simp [join, h]⟩

theorem le_sequence (length : Nat) (items : Extent) : items.Le (sequence length items) :=
  ⟨Nat.le_refl _, Nat.le_max_right _ _, id⟩

theorem le_add_left (l r : Extent) : l.Le (binary .add l r) :=
  ⟨Nat.le_add_right _ _, Nat.le_add_right _ _, fun h => by simp [binary, h]⟩

theorem le_add_right (l r : Extent) : r.Le (binary .add l r) :=
  ⟨Nat.le_add_left _ _, Nat.le_add_left _ _, fun h => by simp [binary, h]⟩

theorem le_mul_left (l r : Extent) : l.Le (binary .mul l r) where
  mag := Nat.le_mul_of_pos_right _ r.one_le_mag
  len := (Nat.le_mul_of_pos_right _ r.one_le_mag).trans (Nat.le_max_left _ _)
  text h := by simp [binary, h]

theorem le_mul_right (l r : Extent) : r.Le (binary .mul l r) where
  mag := Nat.le_mul_of_pos_left _ l.one_le_mag
  len := (Nat.le_mul_of_pos_right _ l.one_le_mag).trans (Nat.le_max_right _ _)
  text h := by simp [binary, h]

end Extent

section

variable {F : Type}

mutual

/-- The value and everything inside it is within the extent. -/
def Within (e : Extent) : Value F → Prop
  | .int i => i.natAbs ≤ e.mag
  | .str s => e.text = true ∧ s.length ≤ e.len
  -- The items of bytes are integers.
  | .bytes bs => e.text = true ∧ bs.length ≤ e.len ∧ 255 ≤ e.mag
  | .list items => items.length ≤ e.len ∧ WithinAll e items
  | .tuple items => items.length ≤ e.len ∧ WithinAll e items
  | .dict entries => WithinEntries e entries
  | _ => True

def WithinAll (e : Extent) : List (Value F) → Prop
  | [] => True
  | v :: vs => Within e v ∧ WithinAll e vs

def WithinEntries (e : Extent) : List (Value F × Value F) → Prop
  | [] => True
  | (_, v) :: entries => Within e v ∧ WithinEntries e entries

end

theorem withinAll_iff {e : Extent} : ∀ {vs : List (Value F)},
    WithinAll e vs ↔ ∀ v ∈ vs, Within e v
  | [] => by simp [WithinAll]
  | v :: vs => by rw [WithinAll, withinAll_iff, List.forall_mem_cons]

theorem withinEntries_iff {e : Extent} : ∀ {entries : List (Value F × Value F)},
    WithinEntries e entries ↔ ∀ entry ∈ entries, Within e entry.2
  | [] => by simp [WithinEntries]
  | (k, v) :: entries => by rw [WithinEntries, withinEntries_iff, List.forall_mem_cons]

mutual

theorem Within.mono {a b : Extent} (hab : a.Le b) : ∀ {v : Value F}, Within a v → Within b v
  | .int i, h => by
      rw [Within] at h ⊢
      exact h.trans hab.mag
  | .str s, h => by
      rw [Within] at h ⊢
      exact ⟨hab.text h.1, h.2.trans hab.len⟩
  | .bytes bs, h => by
      rw [Within] at h ⊢
      exact ⟨hab.text h.1, h.2.1.trans hab.len, h.2.2.trans hab.mag⟩
  | .list items, h => by
      rw [Within] at h ⊢
      exact ⟨h.1.trans hab.len, WithinAll.mono hab h.2⟩
  | .tuple items, h => by
      rw [Within] at h ⊢
      exact ⟨h.1.trans hab.len, WithinAll.mono hab h.2⟩
  | .dict entries, h => by
      rw [Within] at h ⊢
      exact WithinEntries.mono hab h
  | .none, _ => trivial
  | .bool _, _ => trivial
  | .inexact _, _ => trivial
  | .ellipsis, _ => trivial

theorem WithinAll.mono {a b : Extent} (hab : a.Le b) :
    ∀ {vs : List (Value F)}, WithinAll a vs → WithinAll b vs
  | [], _ => trivial
  | _ :: _, h => by
      rw [WithinAll] at h ⊢
      exact ⟨Within.mono hab h.1, WithinAll.mono hab h.2⟩

theorem WithinEntries.mono {a b : Extent} (hab : a.Le b) :
    ∀ {entries : List (Value F × Value F)}, WithinEntries a entries → WithinEntries b entries
  | [], _ => trivial
  | (_, _) :: _, h => by
      rw [WithinEntries] at h ⊢
      exact ⟨Within.mono hab h.1, WithinEntries.mono hab h.2⟩

end

mutual

/-- The extent of a literal. -/
def valueExtent : Value F → Extent
  | .int i => .number i.natAbs
  | .str s => ⟨1, s.length, true, Nat.one_pos⟩
  | .bytes bs => ⟨255, bs.length, true, by omega⟩
  | .list items => .sequence items.length (itemsExtent items)
  | .tuple items => .sequence items.length (itemsExtent items)
  | .dict entries => entriesExtent entries
  | _ => .atom

def itemsExtent : List (Value F) → Extent
  | [] => .atom
  | v :: vs => (valueExtent v).join (itemsExtent vs)

def entriesExtent : List (Value F × Value F) → Extent
  | [] => .atom
  | (_, v) :: entries => (valueExtent v).join (entriesExtent entries)

end

mutual

theorem within_valueExtent : ∀ v : Value F, Within (valueExtent v) v
  | .int i => by
      rw [valueExtent, Within]
      exact Nat.le_max_right _ _
  | .str s => by
      rw [valueExtent, Within]
      exact ⟨rfl, Nat.le_refl _⟩
  | .bytes bs => by
      rw [valueExtent, Within]
      exact ⟨rfl, Nat.le_refl _, Nat.le_refl _⟩
  | .list items => by
      rw [valueExtent, Within]
      exact ⟨Nat.le_max_left _ _,
        (withinAll_itemsExtent items).mono (Extent.le_sequence _ _)⟩
  | .tuple items => by
      rw [valueExtent, Within]
      exact ⟨Nat.le_max_left _ _,
        (withinAll_itemsExtent items).mono (Extent.le_sequence _ _)⟩
  | .dict entries => by
      rw [valueExtent, Within]
      exact withinEntries_entriesExtent entries
  | .none => trivial
  | .bool _ => trivial
  | .inexact _ => trivial
  | .ellipsis => trivial

theorem withinAll_itemsExtent : ∀ vs : List (Value F), WithinAll (itemsExtent vs) vs
  | [] => trivial
  | v :: vs => by
      rw [itemsExtent, WithinAll]
      exact ⟨(within_valueExtent v).mono (Extent.le_join_left _ _),
        (withinAll_itemsExtent vs).mono (Extent.le_join_right _ _)⟩

theorem withinEntries_entriesExtent : ∀ entries : List (Value F × Value F),
    WithinEntries (entriesExtent entries) entries
  | [] => trivial
  | (_, v) :: entries => by
      rw [entriesExtent, WithinEntries]
      exact ⟨(within_valueExtent v).mono (Extent.le_join_left _ _),
        (withinEntries_entriesExtent entries).mono (Extent.le_join_right _ _)⟩

end

end

/-! ## The operators -/

section

variable {F : Type}

theorem natAbs_le_of_asInt? {e : Extent} {v : Value F} {i : Int} (hv : Within e v)
    (h : v.asInt? = some i) : i.natAbs ≤ e.mag := by
  have he := e.one_le_mag
  cases v with
  | bool b =>
      cases h
      cases b with
      | true => exact he
      | false => exact Nat.zero_le _
  | int j =>
      cases h
      rw [Within] at hv
      exact hv
  | _ => cases h

theorem within_int {e : Extent} {i : Int} (h : i.natAbs ≤ e.mag) :
    Within e (.int i : Value F) := by
  rw [Within]
  exact h

theorem natAbs_fmod_le {i j : Int} (hj : j ≠ 0) : (i.fmod j).natAbs ≤ j.natAbs := by
  rcases Int.lt_or_gt_of_ne hj with hneg | hpos
  · have h1 := Int.fmod_nonneg_of_pos (-i) (show 0 < -j by omega)
    have h2 := Int.fmod_lt_of_pos (-i) (show 0 < -j by omega)
    rw [Int.neg_fmod_neg] at h1 h2
    omega
  · have h1 := Int.fmod_nonneg_of_pos i hpos
    have h2 := Int.fmod_lt_of_pos i hpos
    omega

theorem number_mag (n : Nat) : n ≤ (Extent.number n).mag := Nat.le_max_right _ _

theorem length_repeatItems {α : Type} {sequence : Value F} {items ys : List α} {count : Int}
    (h : sequence.repeatItems items count = .ok ys) : ys.length = items.length * count.toNat := by
  unfold Value.repeatItems at h
  split at h
  · cases h
  · split at h
    · cases h
    · cases h
      rw [List.length_flatten, List.map_replicate, List.sum_replicate_nat, Nat.mul_comm]

theorem mem_of_mem_repeatItems {α : Type} {sequence : Value F} {items ys : List α} {count : Int}
    (h : sequence.repeatItems items count = .ok ys) {y : α} (hy : y ∈ ys) : y ∈ items := by
  unfold Value.repeatItems at h
  split at h
  · cases h
  · split at h
    · cases h
    · cases h
      obtain ⟨block, hblock, hy⟩ := List.mem_flatten.mp hy
      rwa [List.eq_of_mem_replicate hblock] at hy

/-- A repeated sequence, within any extent above the sequence's that has room. -/
theorem repeat?_within {sequence v : Value F} {count : Int} {a e : Extent}
    (hs : Within a sequence) (hle : a.Le e)
    (hroom : ∀ n, sequenceLength? sequence = some n → n * count.toNat ≤ e.len)
    (h : Value.repeat? sequence count = some (.ok v)) : Within e v := by
  cases sequence with
  | str s =>
      obtain ⟨ys, hys, rfl⟩ := Except.map_eq_ok.mp (Option.some.inj h)
      rw [Within] at hs ⊢
      refine ⟨hle.text hs.1, ?_⟩
      rw [String.length_ofList, length_repeatItems hys]
      exact hroom _ rfl
  | bytes bs =>
      obtain ⟨ys, hys, rfl⟩ := Except.map_eq_ok.mp (Option.some.inj h)
      rw [Within] at hs ⊢
      rw [length_repeatItems hys]
      exact ⟨hle.text hs.1, hroom _ rfl, hs.2.2.trans hle.mag⟩
  | list items =>
      obtain ⟨ys, hys, rfl⟩ := Except.map_eq_ok.mp (Option.some.inj h)
      rw [Within, withinAll_iff] at hs ⊢
      rw [length_repeatItems hys]
      exact ⟨hroom _ rfl, fun y hy => (hs.2 y (mem_of_mem_repeatItems hys hy)).mono hle⟩
  | tuple items =>
      obtain ⟨ys, hys, rfl⟩ := Except.map_eq_ok.mp (Option.some.inj h)
      rw [Within, withinAll_iff] at hs ⊢
      rw [length_repeatItems hys]
      exact ⟨hroom _ rfl, fun y hy => (hs.2 y (mem_of_mem_repeatItems hys hy)).mono hle⟩
  | _ => cases h

theorem sequenceLength?_le {v : Value F} {e : Extent} (hv : Within e v) {n : Nat}
    (h : sequenceLength? v = some n) : n ≤ e.len := by
  cases v with
  | str s =>
      cases h
      rw [String.length_toList]
      exact hv.2
  | bytes bs =>
      cases h
      exact hv.2.1
  | list items =>
      cases h
      exact hv.1
  | tuple items =>
      cases h
      exact hv.1
  | _ => cases h

theorem sequenceMul?_within {l r v : Value F} {a b : Extent} (hl : Within a l)
    (hr : Within b r) (h : Value.sequenceMul? l r = some (.ok v)) :
    Within (Extent.binary .mul a b) v := by
  have hcount : ∀ {count : Int} {m : Nat}, count.natAbs ≤ m → count.toNat ≤ m := by
    intro count m hm
    omega
  unfold Value.sequenceMul? at h
  split at h
  · next count hr' =>
      refine repeat?_within hl (Extent.le_mul_left a b) (fun n hn => ?_) h
      exact (Nat.mul_le_mul (sequenceLength?_le hl hn)
        (hcount (natAbs_le_of_asInt? hr hr'))).trans (Nat.le_max_left _ _)
  · obtain ⟨count, hl', h⟩ := Option.bind_eq_some_iff.mp h
    refine repeat?_within hr (Extent.le_mul_right a b) (fun n hn => ?_) h
    exact (Nat.mul_le_mul (sequenceLength?_le hr hn)
      (hcount (natAbs_le_of_asInt? hl hl'))).trans (Nat.le_max_right _ _)

/-- Two joined sequences, within any extent above both that has room. -/
theorem concat?_within {l r v : Value F} {a b e : Extent} (hl : Within a l) (hr : Within b r)
    (hla : a.Le e) (hrb : b.Le e)
    (hroom : ∀ m n, sequenceLength? l = some m → sequenceLength? r = some n → m + n ≤ e.len)
    (h : Value.concat? l r = some v) : Within e v := by
  unfold Value.concat? at h
  split at h
  · cases h
    rw [Within] at hl hr ⊢
    rw [String.length_append, ← String.length_toList, ← String.length_toList]
    exact ⟨hla.text hl.1, hroom _ _ rfl rfl⟩
  · cases h
    rw [Within] at hl hr ⊢
    rw [List.length_append]
    exact ⟨hla.text hl.1, hroom _ _ rfl rfl, hl.2.2.trans hla.mag⟩
  · cases h
    rw [Within, withinAll_iff] at hl hr ⊢
    rw [List.length_append]
    exact ⟨hroom _ _ rfl rfl, List.forall_mem_append.mpr
      ⟨fun x hx => (hl.2 x hx).mono hla, fun x hx => (hr.2 x hx).mono hrb⟩⟩
  · cases h
    rw [Within, withinAll_iff] at hl hr ⊢
    rw [List.length_append]
    exact ⟨hroom _ _ rfl rfl, List.forall_mem_append.mpr
      ⟨fun x hx => (hl.2 x hx).mono hla, fun x hx => (hr.2 x hx).mono hrb⟩⟩
  · cases h

variable [Inexact F]

/-- Arithmetic on integers whose exponents the guard lets through. -/
theorem intBinary_within {op : Binary} {i j : Int} {a b : Extent} {v : Value F}
    (hi : i.natAbs ≤ a.mag) (hj : j.natAbs ≤ b.mag)
    (hexp : op = .pow → j.natAbs ≤ MAX_EXPONENT) (h : Value.intBinary op i j = .ok v) :
    Within (Extent.binary op a b) v := by
  cases op with
  | add =>
      cases h
      exact within_int ((Int.natAbs_add_le i j).trans (Nat.add_le_add hi hj))
  | sub =>
      cases h
      refine within_int (le_trans ?_ (number_mag _))
      exact (Int.natAbs_sub_le i j).trans (Nat.add_le_add hi hj)
  | mul =>
      cases h
      refine within_int ?_
      rw [Int.natAbs_mul]
      exact Nat.mul_le_mul hi hj
  | truediv =>
      rw [Value.intBinary] at h
      split at h
      · cases h
      · obtain ⟨x, -, rfl⟩ := Except.map_eq_ok.mp h
        trivial
  | floordiv =>
      rw [Value.intBinary] at h
      split at h
      · cases h
      · cases h
        exact within_int (((Int.natAbs_fdiv_le_natAbs i j).trans hi).trans (number_mag _))
  | mod =>
      rw [Value.intBinary] at h
      split at h
      · cases h
      · next hne =>
          cases h
          exact within_int (((natAbs_fmod_le hne).trans hj).trans (number_mag _))
  | pow =>
      rw [Value.intBinary] at h
      split at h
      · next hnonneg =>
          cases h
          refine within_int (le_trans ?_ (number_mag _))
          rw [Int.natAbs_pow]
          calc i.natAbs ^ j.toNat ≤ a.mag ^ j.toNat := Nat.pow_le_pow_left hi _
            _ ≤ a.mag ^ min b.mag MAX_EXPONENT :=
                Nat.pow_le_pow_right a.one_le_mag (by
                  have hle := hexp rfl
                  omega)
      · obtain ⟨x, -, h⟩ := Except.bind_eq_ok.mp h
        obtain ⟨y, -, h⟩ := Except.bind_eq_ok.mp h
        obtain ⟨z, -, h⟩ := Except.bind_eq_ok.mp h
        cases h
        trivial

theorem inexactBinary_within {op : Binary} {x y : Except PyErr F} {e : Extent} {v : Value F}
    (h : Value.inexactBinary op x y = .ok v) : Within e v := by
  obtain ⟨a, -, h⟩ := Except.bind_eq_ok.mp h
  obtain ⟨b, -, h⟩ := Except.bind_eq_ok.mp h
  obtain ⟨c, -, h⟩ := Except.bind_eq_ok.mp h
  cases h
  trivial

/-- Arithmetic is on two integers or has an inexact result. -/
theorem numberBinary?_eq_some {op : Binary} {l r : Value F} {result : Except PyErr (Value F)}
    (h : Value.numberBinary? op l r = some result) :
    (∃ i j, l.asInt? = some i ∧ r.asInt? = some j ∧ result = Value.intBinary op i j) ∨
      ∃ x y, result = Value.inexactBinary op x y := by
  unfold Value.numberBinary? at h
  split at h
  · cases h
    exact .inr ⟨_, _, rfl⟩
  · obtain ⟨j, -, rfl⟩ := Option.map_eq_some_iff.mp h
    exact .inr ⟨_, _, rfl⟩
  · obtain ⟨i, -, rfl⟩ := Option.map_eq_some_iff.mp h
    exact .inr ⟨_, _, rfl⟩
  · split at h
    · next i j hi hj =>
        cases h
        exact .inl ⟨i, j, hi, hj, rfl⟩
    · cases h

/-- An operator applied to values within two extents.  An exponent is within the
guard's limit, and the left operand of `%` is no text. -/
theorem binary_within [Formatting F] {op : Binary} {l r v : Value F} {a b : Extent}
    (hl : Within a l) (hr : Within b r)
    (hexp : op = .pow → ∀ j, r.asInt? = some j → j.natAbs ≤ MAX_EXPONENT)
    (htext : op = .mod → a.text = false) (h : Value.binary op l r = .ok v) :
    Within (Extent.binary op a b) v := by
  unfold Value.binary at h
  split at h
  · next result hnumber =>
      subst h
      rcases numberBinary?_eq_some hnumber with ⟨i, j, hi, hj, heq⟩ | ⟨x, y, heq⟩
      · exact intBinary_within (natAbs_le_of_asInt? hl hi) (natAbs_le_of_asInt? hr hj)
          (fun hpow => hexp hpow j hj) heq.symm
      · exact inexactBinary_within heq.symm
  · split at h
    · split at h
      · next hconcat =>
          cases h
          exact concat?_within hl hr (Extent.le_add_left a b) (Extent.le_add_right a b)
            (fun m n hm hn => Nat.add_le_add (sequenceLength?_le hl hm) (sequenceLength?_le hr hn))
            hconcat
      · exact absurd h (notAdded_ne_ok l r v)
    · split at h
      · next hmul =>
          subst h
          exact sequenceMul?_within hl hr hmul
      · exact absurd h (notMultiplied_ne_ok l r v)
    · rw [Within, htext rfl] at hl
      cases hl.1
    · rw [Within, htext rfl] at hl
      cases hl.1
    · cases h

theorem unary_within {op : Unary} {v w : Value F} {e : Extent} (hv : Within e v)
    (h : Value.unary op v = .ok w) : Within e w := by
  unfold Value.unary at h
  split at h
  · cases h
    trivial
  · next hi =>
      cases h
      refine within_int ?_
      rw [Int.natAbs_neg]
      exact natAbs_le_of_asInt? hv hi
  · next hi =>
      cases h
      exact within_int (natAbs_le_of_asInt? hv hi)
  · cases h
    trivial
  · cases h
    trivial
  · cases h

omit [Inexact F] in
/-- An index into a sequence that has a result finds an item of it. -/
theorem mem_of_itemAt {α : Type} {kind : String} {items : List α} {i : Int} {x : α}
    (h : Value.itemAt kind items i = .ok x) : x ∈ items := by
  unfold Value.itemAt at h
  split at h
  · next hx =>
      cases h
      obtain ⟨n, -, hx⟩ := Option.bind_eq_some_iff.mp hx
      exact List.mem_of_getElem? hx
  · cases h

theorem getitem_within {container key v : Value F} {e : Extent} (hc : Within e container)
    (h : Value.getitem container key = .ok v) : Within e v := by
  have hindex : ∀ {item : Int → Except PyErr (Value F)},
      Value.getitem.atIndex container key item = .ok v → ∃ i, item i = .ok v := by
    intro item h
    unfold Value.getitem.atIndex at h
    split at h
    · exact ⟨_, h⟩
    · cases h
  unfold Value.getitem at h
  split at h
  · next entries =>
      split at h
      · split at h
        · next hentry =>
            cases h
            obtain ⟨entry, hfound, rfl⟩ := Option.map_eq_some_iff.mp hentry
            rw [Within, withinEntries_iff] at hc
            exact hc entry (List.mem_of_find?_eq_some hfound)
        · cases h
      · cases h
  · obtain ⟨i, hi⟩ := hindex h
    rw [Within, withinAll_iff] at hc
    exact hc.2 v (mem_of_itemAt hi)
  · obtain ⟨i, hi⟩ := hindex h
    rw [Within, withinAll_iff] at hc
    exact hc.2 v (mem_of_itemAt hi)
  · next s =>
      obtain ⟨i, hi⟩ := hindex h
      obtain ⟨c, hmem, rfl⟩ := Except.map_eq_ok.mp hi
      rw [Within] at hc ⊢
      have hpos : 0 < s.toList.length := List.length_pos_of_mem (mem_of_itemAt hmem)
      rw [String.length_toList] at hpos
      exact ⟨hc.1, by simpa using Nat.le_trans hpos hc.2⟩
  · next bs =>
      obtain ⟨i, hi⟩ := hindex h
      obtain ⟨byte, -, rfl⟩ := Except.map_eq_ok.mp hi
      rw [Within] at hc
      refine within_int (le_trans ?_ hc.2.2)
      have := byte.toNat_lt
      omega
  · cases h

end

/-! ## Expressions -/

section

variable {F : Type}

mutual

/-- The node and its descendants. -/
def Node.subnodes : Node (Value F) → List (Node (Value F))
  | .expression body => .expression body :: body.subnodes
  | .constant value => [.constant value]
  | .name id => [.name id]
  | .subscript value slice => .subscript value slice :: (value.subnodes ++ slice.subnodes)
  | .boolOp op values => .boolOp op values :: subnodesAll values
  | .unaryOp op operand => .unaryOp op operand :: operand.subnodes
  | .binOp op left right => .binOp op left right :: (left.subnodes ++ right.subnodes)
  | .compare left links => .compare left links :: (left.subnodes ++ subnodesLinks links)
  | .list elts => .list elts :: subnodesAll elts
  | .tuple elts => .tuple elts :: subnodesAll elts
  | .unsupported kind children => .unsupported kind children :: subnodesAll children

def subnodesAll : List (Node (Value F)) → List (Node (Value F))
  | [] => []
  | node :: nodes => node.subnodes ++ subnodesAll nodes

def subnodesLinks : List (CmpOperator × Node (Value F)) → List (Node (Value F))
  | [] => []
  | (_, comparator) :: links => comparator.subnodes ++ subnodesLinks links

end

theorem Node.self_mem_subnodes (node : Node (Value F)) : node ∈ node.subnodes := by
  cases node <;> simp [Node.subnodes]

/-- What is below a node and closed under descent is closed with the node on top. -/
theorem subnodes_subset_of_below {tree : Node (Value F)} {below : List (Node (Value F))}
    (htree : tree.subnodes = tree :: below)
    (hbelow : ∀ node ∈ below, ∀ n ∈ node.subnodes, n ∈ below) {node : Node (Value F)}
    (h : node ∈ tree.subnodes) : ∀ n ∈ node.subnodes, n ∈ tree.subnodes := by
  rw [htree] at h ⊢
  rcases List.mem_cons.mp h with rfl | h
  · rw [htree]
    exact fun n hn => hn
  · exact fun n hn => List.mem_cons_of_mem _ (hbelow node h n hn)

theorem forall_mem_append_subset {α : Type} {below : α → List α} {xs ys : List α}
    (hx : ∀ a ∈ xs, ∀ b ∈ below a, b ∈ xs) (hy : ∀ a ∈ ys, ∀ b ∈ below a, b ∈ ys) :
    ∀ a ∈ xs ++ ys, ∀ b ∈ below a, b ∈ xs ++ ys := by
  intro a ha b hb
  rcases List.mem_append.mp ha with ha | ha
  · exact List.mem_append_left _ (hx a ha b hb)
  · exact List.mem_append_right _ (hy a ha b hb)

mutual

/-- The descendants of a descendant are descendants. -/
theorem Node.subnodes_subset : ∀ (tree : Node (Value F)),
    ∀ node ∈ tree.subnodes, ∀ n ∈ node.subnodes, n ∈ tree.subnodes
  | .expression body, _, h =>
      subnodes_subset_of_below (by rw [Node.subnodes]) body.subnodes_subset h
  | .constant _, _, h => subnodes_subset_of_below (by rw [Node.subnodes]) (by simp) h
  | .name _, _, h => subnodes_subset_of_below (by rw [Node.subnodes]) (by simp) h
  | .subscript value slice, _, h =>
      subnodes_subset_of_below (by rw [Node.subnodes])
        (forall_mem_append_subset value.subnodes_subset slice.subnodes_subset) h
  | .boolOp _ values, _, h =>
      subnodes_subset_of_below (by rw [Node.subnodes]) (subnodesAll_subset values) h
  | .unaryOp _ operand, _, h =>
      subnodes_subset_of_below (by rw [Node.subnodes]) operand.subnodes_subset h
  | .binOp _ left right, _, h =>
      subnodes_subset_of_below (by rw [Node.subnodes])
        (forall_mem_append_subset left.subnodes_subset right.subnodes_subset) h
  | .compare left links, _, h =>
      subnodes_subset_of_below (by rw [Node.subnodes])
        (forall_mem_append_subset left.subnodes_subset (subnodesLinks_subset links)) h
  | .list elts, _, h =>
      subnodes_subset_of_below (by rw [Node.subnodes]) (subnodesAll_subset elts) h
  | .tuple elts, _, h =>
      subnodes_subset_of_below (by rw [Node.subnodes]) (subnodesAll_subset elts) h
  | .unsupported _ children, _, h =>
      subnodes_subset_of_below (by rw [Node.subnodes]) (subnodesAll_subset children) h

theorem subnodesAll_subset : ∀ (nodes : List (Node (Value F))),
    ∀ node ∈ subnodesAll nodes, ∀ n ∈ node.subnodes, n ∈ subnodesAll nodes
  | [] => by simp [subnodesAll]
  | node :: nodes => by
      rw [subnodesAll]
      exact forall_mem_append_subset node.subnodes_subset (subnodesAll_subset nodes)

theorem subnodesLinks_subset : ∀ (links : List (CmpOperator × Node (Value F))),
    ∀ node ∈ subnodesLinks links, ∀ n ∈ node.subnodes, n ∈ subnodesLinks links
  | [] => by simp [subnodesLinks]
  | (_, comparator) :: links => by
      rw [subnodesLinks]
      exact forall_mem_append_subset comparator.subnodes_subset (subnodesLinks_subset links)

end

mutual

/-- A bound on the values of a node, from its literals and operators. -/
def Node.extent : Node (Value F) → Extent
  | .expression body => body.extent
  | .constant value => valueExtent value
  | .subscript value _ => value.extent
  | .unaryOp _ operand => operand.extent
  | .binOp op left right =>
      match binaryTable op with
      | some function => .binary function left.extent right.extent
      | none => .atom
  | .list elts => .sequence elts.length (extentAll elts)
  | .tuple elts => .sequence elts.length (extentAll elts)
  -- A comparison and a boolean operator give a boolean.
  | _ => .atom

def extentAll : List (Node (Value F)) → Extent
  | [] => .atom
  | node :: nodes => node.extent.join (extentAll nodes)

end

def Node.isName : Node (Value F) → Bool
  | .name _ => true
  | _ => false

/-- A `%` whose left operand may be a text. -/
def Node.formats : Node (Value F) → Bool
  | .binOp .mod left _ => left.extent.text
  | _ => false

/-- A node whose extent says something about its values. -/
def Node.closed (node : Node (Value F)) : Bool := !node.isName && !node.formats

end

section

variable {F : Type} [Inexact F] [Formatting F]

theorem subscript_within {container key v : Value F} {e : Extent} (hc : Within e container)
    (h : subscript container key = .ok v) : Within e v := by
  unfold subscript at h
  split at h
  · next hget =>
      cases h
      exact getitem_within hc hget
  · split at h
    · cases h
      trivial
    · cases h

theorem exponentRefused_of_int {r : Value F} {j : Int} (hj : r.asInt? = some j) :
    exponentRefused r = .ok (decide ((j.natAbs : Int) > MAX_EXPONENT)) := by
  cases r with
  | bool b =>
      cases hj
      rfl
  | int i =>
      cases hj
      rfl
  | _ => cases hj

/-- The exponent guard lets only small exponents through. -/
theorem natAbs_le_of_exponentRefused {r : Value F} (h : exponentRefused r = .ok false) {j : Int}
    (hj : r.asInt? = some j) : j.natAbs ≤ MAX_EXPONENT := by
  rw [exponentRefused_of_int hj] at h
  have hle := of_decide_eq_false (Except.ok.inj h)
  omega

/-- The guards around an arithmetic operator change no value. -/
theorem applyBinary_ok_iff {op : Operator} {function : Binary} {l r v : Value F} :
    applyBinary op function l r = .ok v ↔
      (op = .pow → exponentRefused r = .ok false) ∧ Value.binary function l r = .ok v := by
  have hguard : ∀ {x : Except PyErr (Value F)}, guardBinary x = .ok v ↔ x = .ok v := by
    intro x
    cases x with
    | ok w => exact ⟨fun h => congrArg _ (Except.ok.inj h), fun h => congrArg _ (Except.ok.inj h)⟩
    | error exc =>
        refine ⟨fun h => ?_, nofun⟩
        unfold guardBinary at h
        dsimp only at h
        split at h <;> cases h
  unfold applyBinary
  by_cases hop : op = .pow
  · rw [if_pos hop]
    constructor
    · intro h
      obtain ⟨refused, hrefused, h⟩ := Except.bind_eq_ok.mp h
      cases refused with
      | true => cases h
      | false => exact ⟨fun _ => hrefused, hguard.mp h⟩
    · rintro ⟨hrefused, h⟩
      rw [hrefused hop]
      exact hguard.mpr h
  · rw [if_neg hop]
    exact ⟨fun h => ⟨fun hpow => absurd hpow hop, hguard.mp h⟩, fun h => hguard.mpr h.2⟩

/-- Only `**` is the power, and only `%` the remainder. -/
theorem eq_pow_of_binaryTable {op : Operator} (ht : binaryTable op = some .pow) : op = .pow := by
  cases op <;> first | rfl | cases ht

theorem eq_mod_of_binaryTable {op : Operator} (ht : binaryTable op = some .mod) : op = .mod := by
  cases op <;> first | rfl | cases ht

theorem applyBinary_within {op : Operator} {function : Binary} {l r v : Value F} {a b : Extent}
    (ht : binaryTable op = some function) (hl : Within a l) (hr : Within b r)
    (htext : op = .mod → a.text = false) (h : applyBinary op function l r = .ok v) :
    Within (Extent.binary function a b) v := by
  obtain ⟨hexp, h⟩ := applyBinary_ok_iff.mp h
  refine binary_within hl hr ?_ ?_ h
  · rintro rfl j hj
    exact natAbs_le_of_exponentRefused (hexp (eq_pow_of_binaryTable ht)) hj
  · rintro rfl
    exact htext (eq_mod_of_binaryTable ht)

/-- A boolean operator gives a boolean. -/
theorem applyBoolOp_within {op : BoolOperator} {vs : List (Value F)} {v : Value F} {e : Extent}
    (h : applyBoolOp op vs = .ok v) : Within e v := by
  cases op with
  | and =>
      obtain ⟨b, -, rfl⟩ := Except.map_eq_ok.mp h
      trivial
  | or =>
      obtain ⟨b, -, rfl⟩ := Except.map_eq_ok.mp h
      trivial

theorem uncaught_unary_within {function : Unary} {x v : Value F} {e : Extent}
    (hx : Within e x) (h : uncaught (PyObject.unary function x) = .ok v) : Within e v := by
  cases hu : Value.unary function x with
  | error exc =>
      have hu' : PyObject.unary function x = .error exc := hu
      rw [hu'] at h
      cases h
  | ok w =>
      have hu' : PyObject.unary function x = .ok w := hu
      rw [hu'] at h
      cases h
      exact unary_within hx hu

theorem length_evaluateNodes {context : Context (Value F)} {depth : Nat} :
    ∀ {nodes : List (Node (Value F))} {vs : List (Value F)},
      evaluateNodes context depth nodes = .ok vs → vs.length = nodes.length
  | [], _, h => by
      cases h
      rfl
  | _ :: nodes, _, h => by
      obtain ⟨v, -, vs, hvs, rfl⟩ := evaluateNodes_cons_eq_ok.mp h
      rw [List.length_cons, List.length_cons, length_evaluateNodes hvs]

/-- The items of a display, as the items of a sequence of its length. -/
theorem display_within {context : Context (Value F)} {depth : Nat} {elts : List (Node (Value F))}
    {vs : List (Value F)} {items : Extent} (hvs : evaluateNodes context depth elts = .ok vs)
    (hitems : WithinAll items vs) :
    vs.length ≤ (Extent.sequence elts.length items).len ∧
      WithinAll (.sequence elts.length items) vs := by
  rw [length_evaluateNodes hvs]
  exact ⟨Nat.le_max_left _ _, hitems.mono (Extent.le_sequence _ _)⟩

mutual

/-- The extent of a closed expression bounds its values. -/
theorem evaluateNode_within (context : Context (Value F)) :
    ∀ (node : Node (Value F)) (depth : Nat) {v : Value F},
      (∀ n ∈ node.subnodes, n.closed = true) → evaluateNode context depth node = .ok v →
        Within node.extent v
  | .expression body, depth, v, hclosed, h => by
      rw [Node.subnodes, List.forall_mem_cons] at hclosed
      obtain ⟨-, h⟩ := evaluateNode_expression_eq_ok.mp h
      exact evaluateNode_within context body (depth + 1) hclosed.2 h
  | .constant value, depth, v, _, h => by
      obtain ⟨-, rfl⟩ := evaluateNode_constant_eq_ok.mp h
      exact within_valueExtent value
  | .name id, depth, v, hclosed, h => by
      rw [Node.subnodes, List.forall_mem_singleton] at hclosed
      cases hclosed
  | .subscript value slice, depth, v, hclosed, h => by
      rw [Node.subnodes, List.forall_mem_cons, List.forall_mem_append] at hclosed
      obtain ⟨-, container, hc, key, -, h⟩ := evaluateNode_subscript_eq_ok.mp h
      exact subscript_within (evaluateNode_within context value (depth + 1) hclosed.2.1 hc) h
  | .boolOp op values, depth, v, _, h => by
      obtain ⟨-, vs, -, h⟩ := evaluateNode_boolOp_eq_ok.mp h
      exact applyBoolOp_within h
  | .unaryOp op operand, depth, v, hclosed, h => by
      rw [Node.subnodes, List.forall_mem_cons] at hclosed
      obtain ⟨-, function, -, x, hx, h⟩ := evaluateNode_unaryOp_eq_ok.mp h
      exact uncaught_unary_within (evaluateNode_within context operand (depth + 1) hclosed.2 hx) h
  | .binOp op left right, depth, v, hclosed, h => by
      rw [Node.subnodes, List.forall_mem_cons, List.forall_mem_append] at hclosed
      obtain ⟨hself, hleft, hright⟩ := hclosed
      obtain ⟨-, function, ht, l, hl, r, hr, h⟩ := evaluateNode_binOp_eq_ok.mp h
      have htext : op = .mod → left.extent.text = false := by
        rintro rfl
        simpa [Node.closed, Node.isName, Node.formats] using hself
      rw [Node.extent, ht]
      exact applyBinary_within ht (evaluateNode_within context left (depth + 1) hleft hl)
        (evaluateNode_within context right (depth + 1) hright hr) htext h
  | .compare left links, depth, v, _, h => by
      obtain ⟨-, l, -, b, -, rfl⟩ := evaluateNode_compare_eq_ok.mp h
      trivial
  | .list elts, depth, v, hclosed, h => by
      rw [Node.subnodes, List.forall_mem_cons] at hclosed
      obtain ⟨-, vs, hvs, rfl⟩ := evaluateNode_list_eq_ok.mp h
      exact display_within hvs (evaluateNodes_within context elts (depth + 1) hclosed.2 hvs)
  | .tuple elts, depth, v, hclosed, h => by
      rw [Node.subnodes, List.forall_mem_cons] at hclosed
      obtain ⟨-, vs, hvs, rfl⟩ := evaluateNode_tuple_eq_ok.mp h
      exact display_within hvs (evaluateNodes_within context elts (depth + 1) hclosed.2 hvs)
  | .unsupported _ _, depth, v, _, h => absurd h evaluateNode_unsupported_ne_ok

theorem evaluateNodes_within (context : Context (Value F)) :
    ∀ (nodes : List (Node (Value F))) (depth : Nat) {vs : List (Value F)},
      (∀ n ∈ subnodesAll nodes, n.closed = true) → evaluateNodes context depth nodes = .ok vs →
        WithinAll (extentAll nodes) vs
  | [], _, _, _, h => by
      rw [evaluateNodes] at h
      cases h
      trivial
  | node :: nodes, depth, vs, hclosed, h => by
      rw [subnodesAll, List.forall_mem_append] at hclosed
      obtain ⟨v, hv, rest, hrest, rfl⟩ := evaluateNodes_cons_eq_ok.mp h
      exact ⟨(evaluateNode_within context node depth hclosed.1 hv).mono
          (Extent.le_join_left _ _),
        (evaluateNodes_within context nodes depth hclosed.2 hrest).mono
          (Extent.le_join_right _ _)⟩

end

/-! ## The limit -/

/-- The number of bits of an integer, and of items of a sequence, that the limits on
the exponent and on the text suggest. -/
def sizeLimit : Nat := MAX_EXPONENT * 4 * MAX_LENGTH

/-- An integer has at most `sizeLimit` bits, and a sequence at most that many items. -/
def Bounded : Value F → Prop
  | .int i => i.natAbs < 2 ^ sizeLimit
  | .str s => s.length ≤ sizeLimit
  | .bytes bs => bs.length ≤ sizeLimit
  | .list items => items.length ≤ sizeLimit
  | .tuple items => items.length ≤ sizeLimit
  | _ => True

structure Extent.Small (e : Extent) : Prop where
  mag : e.mag < 2 ^ sizeLimit
  len : e.len ≤ sizeLimit

omit [Inexact F] [Formatting F] in
theorem Within.bounded {e : Extent} (he : e.Small) {v : Value F} (h : Within e v) :
    Bounded v := by
  cases v with
  | int i => exact lt_of_le_of_lt h he.mag
  | str s => exact h.2.trans he.len
  | bytes bs => exact h.2.1.trans he.len
  | list items => exact h.1.trans he.len
  | tuple items => exact h.1.trans he.len
  | _ => trivial

/-- No part of the expression formats a text, and the extent of every part is small. -/
def Node.Fits (tree : Node (Value F)) : Prop :=
  ∀ node ∈ tree.subnodes, node.formats = false ∧ node.extent.Small

/-- Every value of every part of the expression is bounded. -/
theorem Node.Fits.bounded {context : Context (Value F)} {tree : Node (Value F)}
    (hnames : ∀ node ∈ tree.subnodes, node.isName = false) (hfits : tree.Fits) :
    ∀ node ∈ tree.subnodes, ∀ depth v, evaluateNode context depth node = .ok v → Bounded v := by
  intro node hnode depth v h
  refine (evaluateNode_within context node depth ?_ h).bounded (hfits node hnode).2
  intro n hn
  have hmem := tree.subnodes_subset node hnode n hn
  rw [Node.closed, hnames n hmem, (hfits n hmem).1]
  rfl

end

end YoutubeFactory.Workflow
