import YoutubeFactory.Workflow.Visits

/-!
# Room for the operators

Sums, differences, products, powers, repetitions, concatenations and formatting are
the only steps of a walk that make anything larger.  `WalkStep.HasRoom` says of the
operands of such a step that its exact result stays within `sizeLimit`; no other
step has anything to say.

Every value a walk computes is bounded exactly if each of its operator steps has
room (`evaluate_bounded`).  Only the nodes the walk visits count: what is behind a
comparison that has failed may be as large as it likes.  A literal needs no
condition, since it is no larger than the text it stands in.
-/

namespace YoutubeFactory.Workflow

open Python

/-! ## Room -/

section

variable {F : Type}

/-- The sum, difference, product or power of two integers has at most `sizeLimit` bits.
A power is computed only for an exponent the guard lets through. -/
def IntegersFit : Binary → Int → Int → Prop
  | .add, i, j => (i + j).natAbs < 2 ^ sizeLimit
  | .sub, i, j => (i - j).natAbs < 2 ^ sizeLimit
  | .mul, i, j => (i * j).natAbs < 2 ^ sizeLimit
  | .pow, i, j => 0 ≤ j → j.natAbs ≤ MAX_EXPONENT → (i ^ j.toNat).natAbs < 2 ^ sizeLimit
  | _, _, _ => True

/-- One operand is this sequence and the other the number of times it is repeated. -/
def Repeats (l r sequence : Value F) (count : Int) : Prop :=
  (sequence = l ∧ r.asInt? = some count) ∨ (l.asInt? = some count ∧ sequence = r)

/-- Two joined sequences, a repeated one and a formatted text have at most `sizeLimit`
items together. -/
def SequencesFit [Formatting F] (op : Binary) (l r : Value F) : Prop :=
  match op with
  | .add => (Value.concat? l r).isSome → ∀ m n, sequenceLength? l = some m →
      sequenceLength? r = some n → m + n ≤ sizeLimit
  | .mul => ∀ sequence length count, Repeats l r sequence count →
      sequenceLength? sequence = some length → ¬ RepeatsTooFar sequence length count →
        length * count.toNat ≤ sizeLimit
  | .mod => (∀ s t, l = .str s → Formatting.str s r = .ok t → t.length ≤ sizeLimit) ∧
      (∀ s t, l = .bytes s → Formatting.bytes s r = .ok t → t.length ≤ sizeLimit)
  | _ => True

structure HasRoom [Formatting F] (op : Binary) (l r : Value F) : Prop where
  integers : ∀ i j, l.asInt? = some i → r.asInt? = some j → IntegersFit op i j
  sequences : SequencesFit op l r

/-- The operands of a step leave room for its result. -/
def WalkStep.HasRoom [Formatting F] : WalkStep (Value F) → Prop
  | .binary _ function left right => Workflow.HasRoom function left right
  | _ => True

/-- The largest bounds a value may have. -/
def Extent.limit : Extent where
  mag := 2 ^ sizeLimit - 1
  len := sizeLimit
  text := true
  one_le_mag := by
    have h : 2 ^ 1 ≤ 2 ^ sizeLimit := Nat.pow_le_pow_right (by decide) (by decide)
    omega

theorem Extent.limit_small : Extent.limit.Small where
  mag := Nat.sub_lt (Nat.two_pow_pos _) Nat.one_pos
  len := Nat.le_refl _

theorem Extent.le_refl (e : Extent) : e.Le e := ⟨Nat.le_refl _, Nat.le_refl _, id⟩

theorem within_limit_int {i : Int} (h : i.natAbs < 2 ^ sizeLimit) :
    Within .limit (.int i : Value F) :=
  within_int (Nat.le_sub_one_of_lt h)

variable [Inexact F]

theorem intBinary_limited {op : Binary} {i j : Int} {v : Value F}
    (hi : i.natAbs ≤ Extent.limit.mag) (hj : j.natAbs ≤ Extent.limit.mag)
    (hexp : op = .pow → j.natAbs ≤ MAX_EXPONENT) (hroom : IntegersFit op i j)
    (h : Value.intBinary op i j = .ok v) : Within .limit v := by
  have hshrinks : (Extent.binary op .limit .limit).Le .limit → Within .limit v :=
    (intBinary_within hi hj hexp h).mono
  have hnumber : (Extent.number Extent.limit.mag).Le .limit :=
    ⟨Nat.max_le.mpr ⟨Extent.limit.one_le_mag, Nat.le_refl _⟩, Nat.zero_le _, nofun⟩
  cases op with
  | add =>
      cases h
      exact within_limit_int hroom
  | sub =>
      cases h
      exact within_limit_int hroom
  | mul =>
      cases h
      exact within_limit_int hroom
  | truediv =>
      exact hshrinks ⟨Nat.max_le.mpr ⟨Extent.limit.one_le_mag, Extent.limit.one_le_mag⟩,
        Nat.zero_le _, nofun⟩
  | floordiv => exact hshrinks hnumber
  | mod => exact hshrinks hnumber
  | pow =>
      rw [Value.intBinary] at h
      split at h
      · next hnonneg =>
          cases h
          exact within_limit_int (hroom hnonneg (hexp rfl))
      · have hinexact : Value.inexactBinary .pow (Inexact.ofInt i) (Inexact.ofInt j) = .ok v := h
        exact inexactBinary_within hinexact

omit [Inexact F] in
theorem repeat?_eq_ok {v : Value F} {n : Nat} {count : Int} (hn : sequenceLength? v = some n)
    (hfar : ¬ RepeatsTooFar v n count) :
    ∃ w, Value.repeat? v count = some (.ok w) ∧ sequenceLength? w = some (n * count.toNat) := by
  have hitems : ∀ {α : Type} {items : List α}, items.length = n →
      ∃ ys, v.repeatItems items count = .ok ys ∧ ys.length = n * count.toNat := by
    rintro α items rfl
    have hys : v.repeatItems items count = .ok (List.replicate count.toNat items).flatten := by
      rw [Value.repeatItems, if_neg fun h => hfar (.inl h), if_neg fun h => hfar (.inr h)]
    exact ⟨_, hys, length_repeatItems hys⟩
  cases v with
  | str s =>
      obtain ⟨ys, hys, hlength⟩ := hitems (Option.some.inj hn)
      refine ⟨.str (String.ofList ys), by rw [Value.repeat?, hys]; rfl, ?_⟩
      rw [sequenceLength?, String.toList_ofList, hlength]
  | bytes bs =>
      obtain ⟨ys, hys, hlength⟩ := hitems (Option.some.inj hn)
      exact ⟨.bytes ys, by rw [Value.repeat?, hys]; rfl, congrArg some hlength⟩
  | list items =>
      obtain ⟨ys, hys, hlength⟩ := hitems (Option.some.inj hn)
      exact ⟨.list ys, by rw [Value.repeat?, hys]; rfl, congrArg some hlength⟩
  | tuple items =>
      obtain ⟨ys, hys, hlength⟩ := hitems (Option.some.inj hn)
      exact ⟨.tuple ys, by rw [Value.repeat?, hys]; rfl, congrArg some hlength⟩
  | _ => cases hn

omit [Inexact F] in
theorem not_repeatsTooFar {v w : Value F} {n : Nat} {count : Int}
    (hn : sequenceLength? v = some n) (h : Value.repeat? v count = some (.ok w)) :
    ¬ RepeatsTooFar v n count := by
  obtain ⟨result, hresult, hfails⟩ := @fails_repeat? _ _ _ count hn
  rw [h] at hresult
  cases hresult
  exact fun hfar => not_fails_ok _ (hfails.mpr hfar)

omit [Inexact F] in
theorem sequenceMul?_limited {l r v : Value F} (hl : Within .limit l) (hr : Within .limit r)
    (hroom : ∀ sequence length count, Repeats l r sequence count →
      sequenceLength? sequence = some length → ¬ RepeatsTooFar sequence length count →
        length * count.toNat ≤ sizeLimit)
    (h : Value.sequenceMul? l r = some (.ok v)) : Within .limit v := by
  unfold Value.sequenceMul? at h
  split at h
  · next count hcount =>
      exact repeat?_within hl (Extent.le_refl _) (fun n hn =>
        hroom l n count (.inl ⟨rfl, hcount⟩) hn (not_repeatsTooFar hn h)) h
  · obtain ⟨count, hcount, h⟩ := Option.bind_eq_some_iff.mp h
    exact repeat?_within hr (Extent.le_refl _) (fun n hn =>
      hroom r n count (.inr ⟨hcount, rfl⟩) hn (not_repeatsTooFar hn h)) h

variable [Formatting F]

/-- An operator with room does not leave the limit. -/
theorem binary_limited {op : Binary} {l r v : Value F} (hl : Within .limit l)
    (hr : Within .limit r) (hexp : op = .pow → ∀ j, r.asInt? = some j → j.natAbs ≤ MAX_EXPONENT)
    (hroom : HasRoom op l r) (h : Value.binary op l r = .ok v) : Within .limit v := by
  unfold Value.binary at h
  split at h
  · next result hnumber =>
      subst h
      rcases numberBinary?_eq_some hnumber with ⟨i, j, hi, hj, heq⟩ | ⟨x, y, heq⟩
      · exact intBinary_limited (natAbs_le_of_asInt? hl hi) (natAbs_le_of_asInt? hr hj)
          (fun hpow => hexp hpow j hj) (hroom.integers i j hi hj) heq.symm
      · exact inexactBinary_within heq.symm
  · split at h
    · split at h
      · next hconcat =>
          cases h
          exact concat?_within hl hr (Extent.le_refl _) (Extent.le_refl _)
            (hroom.sequences (Option.isSome_of_eq_some hconcat)) hconcat
      · exact absurd h (notAdded_ne_ok l r v)
    · split at h
      · next hmul =>
          subst h
          exact sequenceMul?_limited hl hr hroom.sequences hmul
      · exact absurd h (notMultiplied_ne_ok l r v)
    · next s _ =>
        obtain ⟨t, ht, rfl⟩ := Except.map_eq_ok.mp h
        rw [Within]
        exact ⟨rfl, hroom.sequences.1 s t rfl ht⟩
    · next bs _ =>
        obtain ⟨t, ht, rfl⟩ := Except.map_eq_ok.mp h
        rw [Within] at hl ⊢
        exact ⟨rfl, hroom.sequences.2 bs t rfl ht, hl.2.2⟩
    · cases h

omit [Inexact F] [Formatting F] in
theorem Bounded.length {v : Value F} (hv : Bounded v) {n : Nat} (h : sequenceLength? v = some n) :
    n ≤ sizeLimit := by
  cases v with
  | str s =>
      cases h
      rw [String.length_toList]
      exact hv
  | bytes bs =>
      cases h
      exact hv
  | list items =>
      cases h
      exact hv
  | tuple items =>
      cases h
      exact hv
  | _ => cases h

omit [Inexact F] [Formatting F] in
theorem length_concat? {l r v : Value F} {m n : Nat} (h : Value.concat? l r = some v)
    (hm : sequenceLength? l = some m) (hn : sequenceLength? r = some n) :
    sequenceLength? v = some (m + n) := by
  unfold Value.concat? at h
  split at h
  · cases h
    cases hm
    cases hn
    rw [sequenceLength?, String.toList_append, List.length_append]
  all_goals cases h
  all_goals
    cases hm
    cases hn
    rw [sequenceLength?, List.length_append]

omit [Formatting F] in
theorem numberBinary?_of_sequence {op : Binary} {l r : Value F} {n : Nat}
    (h : sequenceLength? l = some n ∨ sequenceLength? r = some n) :
    Value.numberBinary? op l r = none :=
  numberBinary?_eq_none (h.imp (asInt?_of_sequence · |>.2) (asInt?_of_sequence · |>.2))

/-- A repetition that is not refused has this length. -/
theorem binary_mul_of_repeats {l r sequence : Value F} {length : Nat} {count : Int}
    (h : Repeats l r sequence count) (hlength : sequenceLength? sequence = some length)
    (hfar : ¬ RepeatsTooFar sequence length count) :
    ∃ w, Value.binary .mul l r = .ok w ∧ sequenceLength? w = some (length * count.toNat) := by
  have hnone : Value.numberBinary? .mul l r = none :=
    numberBinary?_of_sequence (h.imp (fun h => h.1 ▸ hlength) fun h => h.2 ▸ hlength)
  have hmul : ∀ {w : Value F}, Value.sequenceMul? l r = some (.ok w) →
      Value.binary .mul l r = .ok w := by
    intro w hw
    unfold Value.binary
    rw [hnone]
    dsimp only
    rw [hw]
  obtain ⟨w, hw, hproduct⟩ := repeat?_eq_ok hlength hfar
  refine ⟨w, hmul ?_, hproduct⟩
  rcases h with ⟨rfl, hr⟩ | ⟨hl, rfl⟩
  · rw [Value.sequenceMul?, hr]
    exact hw
  · rw [Value.sequenceMul?, (asInt?_of_sequence hlength).1, hl]
    exact hw

theorem integersFit_of_bounded {function : Binary} {l r : Value F} {i j : Int}
    (hl : l.asInt? = some i) (hr : r.asInt? = some j)
    (hvalue : ∀ {v : Value F}, (function = .pow → exponentRefused r = .ok false) →
      Value.binary function l r = .ok v → Bounded v) : IntegersFit function i j := by
  have hint : ∀ {k : Int}, (function = .pow → j.natAbs ≤ MAX_EXPONENT) →
      Value.intBinary function i j = .ok (.int k : Value F) → k.natAbs < 2 ^ sizeLimit := by
    intro k hexp hk
    have hk' : Bounded (.int k : Value F) := by
      refine hvalue (fun hf => ?_) ((binary_of_number (numberBinary?_of_ints hl hr)).trans hk)
      rw [exponentRefused_of_int hr, decide_eq_false]
      have hle := hexp hf
      omega
    exact hk'
  cases function with
  | add => exact hint (by rintro ⟨⟩) rfl
  | sub => exact hint (by rintro ⟨⟩) rfl
  | mul => exact hint (by rintro ⟨⟩) rfl
  | pow =>
      intro hnonneg hle
      exact hint (fun _ => hle) (by rw [Value.intBinary, if_pos hnonneg])
  | _ => trivial

theorem sequencesFit_of_bounded {function : Binary} {l r : Value F}
    (hvalue : ∀ {v : Value F}, (function = .pow → exponentRefused r = .ok false) →
      Value.binary function l r = .ok v → Bounded v) : SequencesFit function l r := by
  cases function with
  | add =>
      intro hsome m n hm hn
      obtain ⟨v, hv⟩ := Option.isSome_iff_exists.mp hsome
      have hadd : Value.binary .add l r = .ok v := by
        unfold Value.binary
        rw [numberBinary?_of_sequence (.inl hm)]
        dsimp only
        rw [hv]
      exact (hvalue (by rintro ⟨⟩) hadd).length (length_concat? hv hm hn)
  | mul =>
      intro sequence length count hrepeats hlength hfar
      obtain ⟨w, hw, hproduct⟩ := binary_mul_of_repeats hrepeats hlength hfar
      exact (hvalue (by rintro ⟨⟩) hw).length hproduct
  | mod =>
      constructor
      · rintro s t rfl ht
        have hmod : Value.binary .mod (.str s) r = .ok (.str t) := by
          unfold Value.binary
          rw [numberBinary?_of_sequence (.inl rfl)]
          dsimp only
          rw [ht]
          rfl
        exact hvalue (by rintro ⟨⟩) hmod
      · rintro s t rfl ht
        have hmod : Value.binary .mod (.bytes s) r = .ok (.bytes t) := by
          unfold Value.binary
          rw [numberBinary?_of_sequence (.inl rfl)]
          dsimp only
          rw [ht]
          rfl
        exact hvalue (by rintro ⟨⟩) hmod
  | _ => trivial

/-- An operator whose result is bounded had room for it. -/
theorem hasRoom_of_bounded {op : Operator} {function : Binary} {l r : Value F}
    (ht : binaryTable op = some function)
    (hbounded : ∀ v, applyBinary op function l r = .ok v → Bounded v) : HasRoom function l r := by
  have hpow : op = .pow → function = .pow := by
    rintro rfl
    exact (Option.some.inj ht).symm
  have hvalue : ∀ {v : Value F}, (function = .pow → exponentRefused r = .ok false) →
      Value.binary function l r = .ok v → Bounded v :=
    fun hexp h => hbounded _ (applyBinary_ok_iff.mpr ⟨fun hop => hexp (hpow hop), h⟩)
  exact ⟨fun _ _ hl hr => integersFit_of_bounded hl hr hvalue, sequencesFit_of_bounded hvalue⟩

end

/-! ## Literals -/

section

variable {F : Type}

/-- A literal is no larger than the text it is written in: a digit has at most sixteen
values, and an item, like a character, takes a character.  Constants are no containers. -/
def Node.WrittenIn (text : String) : Node (Value F) → Prop
  | .constant (.int i) => i.natAbs < 16 ^ text.length
  | .constant (.str s) => s.length ≤ text.length
  | .constant (.bytes bs) => bs.length ≤ text.length
  | .constant (.list _) => False
  | .constant (.tuple _) => False
  | .constant (.dict _) => False
  | .list elts => elts.length ≤ text.length
  | .tuple elts => elts.length ≤ text.length
  | _ => True

/-- What is relied on of `ast.parse`. -/
def LiteralsWithinText (parse : String → Except String (Node (Value F))) : Prop :=
  ∀ text tree, parse text = .ok tree → ∀ node ∈ tree.subnodes, node.WrittenIn text

theorem length_strip_le (text : String) : (strip text).length ≤ text.length := by
  rw [strip, String.length_ofList, List.length_reverse]
  calc _ ≤ _ := (List.dropWhile_suffix _).length_le
    _ = _ := List.length_reverse
    _ ≤ text.toList.length := (List.dropWhile_suffix _).length_le
    _ = text.length := String.length_toList

theorem four_mul_maxLength_le : 4 * MAX_LENGTH ≤ sizeLimit := by decide

theorem constant_limited {text : String} (htext : text.length ≤ MAX_LENGTH) {value : Value F}
    (h : (Node.constant value).WrittenIn text) : Within .limit value := by
  have hlimit := four_mul_maxLength_le
  have hlength : ∀ {n : Nat}, n ≤ text.length → n ≤ sizeLimit := by
    intro n hn
    omega
  cases value with
  | int i =>
      refine within_limit_int (lt_of_lt_of_le h ?_)
      calc 16 ^ text.length = 2 ^ (4 * text.length) := by rw [Nat.pow_mul]
        _ ≤ 2 ^ sizeLimit := Nat.pow_le_pow_right (by decide) (by omega)
  | str s => exact ⟨rfl, hlength h⟩
  | bytes bs =>
      have hbyte : 2 ^ 8 ≤ 2 ^ sizeLimit := Nat.pow_le_pow_right (by decide) (by decide)
      exact ⟨rfl, hlength h, show 255 ≤ 2 ^ sizeLimit - 1 by omega⟩
  | list items => exact h.elim
  | tuple items => exact h.elim
  | dict entries => exact h.elim
  | _ => trivial

end

/-! ## Bounded evaluations -/

section

variable {F : Type} [Inexact F] [Formatting F]

theorem applyBinary_limited {op : Operator} {function : Binary} {l r v : Value F}
    (ht : binaryTable op = some function) (hl : Within .limit l) (hr : Within .limit r)
    (hroom : HasRoom function l r) (h : applyBinary op function l r = .ok v) :
    Within .limit v := by
  obtain ⟨hexp, h⟩ := applyBinary_ok_iff.mp h
  refine binary_limited hl hr ?_ hroom h
  rintro rfl j hj
  exact natAbs_le_of_exponentRefused (hexp (eq_pow_of_binaryTable ht)) hj

/-- The items of a display that is written in a text. -/
theorem display_limited {context : Context (Value F)} {depth : Nat} {text : String}
    (htext : text.length ≤ MAX_LENGTH) {elts : List (Node (Value F))} {vs : List (Value F)}
    (helts : elts.length ≤ text.length) (hvs : evaluateNodes context depth elts = .ok vs)
    (hitems : WithinAll .limit vs) : vs.length ≤ Extent.limit.len ∧ WithinAll .limit vs := by
  have hlimit := four_mul_maxLength_le
  refine ⟨?_, hitems⟩
  rw [length_evaluateNodes hvs]
  show elts.length ≤ sizeLimit
  omega

mutual

/-- When every step has room, a value stays within the limit. -/
theorem evaluateNode_limited (context : Context (Value F)) {text : String}
    (htext : text.length ≤ MAX_LENGTH) :
    ∀ (node : Node (Value F)) (depth : Nat) {v : Value F},
      (∀ n ∈ node.subnodes, n.isName = false ∧ n.WrittenIn text) →
        (∀ s ∈ walk context depth node, s.HasRoom) →
          evaluateNode context depth node = .ok v → Within .limit v
  | .expression body, depth, v, hnodes, hroom, h => by
      rw [Node.subnodes, List.forall_mem_cons] at hnodes
      obtain ⟨hd, h⟩ := evaluateNode_expression_eq_ok.mp h
      rw [walk, if_neg (Nat.not_lt.mpr hd)] at hroom
      exact evaluateNode_limited context htext body _ hnodes.2 hroom h
  | .constant value, depth, v, hnodes, _, h => by
      rw [Node.subnodes, List.forall_mem_singleton] at hnodes
      obtain ⟨-, rfl⟩ := evaluateNode_constant_eq_ok.mp h
      exact constant_limited htext hnodes.2
  | .name id, depth, v, hnodes, _, h => by
      rw [Node.subnodes, List.forall_mem_singleton] at hnodes
      cases hnodes.1
  | .subscript value slice, depth, v, hnodes, hroom, h => by
      rw [Node.subnodes, List.forall_mem_cons, List.forall_mem_append] at hnodes
      obtain ⟨hd, container, hc, key, -, h⟩ := evaluateNode_subscript_eq_ok.mp h
      rw [walk, if_neg (Nat.not_lt.mpr hd), List.forall_mem_append] at hroom
      exact subscript_within
        (evaluateNode_limited context htext value _ hnodes.2.1 hroom.1 hc) h
  | .boolOp op values, depth, v, _, _, h => by
      obtain ⟨-, vs, -, h⟩ := evaluateNode_boolOp_eq_ok.mp h
      exact applyBoolOp_within h
  | .unaryOp op operand, depth, v, hnodes, hroom, h => by
      rw [Node.subnodes, List.forall_mem_cons] at hnodes
      obtain ⟨hd, function, ht, x, hx, h⟩ := evaluateNode_unaryOp_eq_ok.mp h
      rw [walk, if_neg (Nat.not_lt.mpr hd), ht, List.forall_mem_append] at hroom
      exact uncaught_unary_within
        (evaluateNode_limited context htext operand _ hnodes.2 hroom.1 hx) h
  | .binOp op left right, depth, v, hnodes, hroom, h => by
      rw [Node.subnodes, List.forall_mem_cons, List.forall_mem_append] at hnodes
      obtain ⟨hd, function, ht, l, hl, r, hr, h⟩ := evaluateNode_binOp_eq_ok.mp h
      rw [walk, if_neg (Nat.not_lt.mpr hd), ht, List.forall_mem_append] at hroom
      obtain ⟨hleft, hroom⟩ := hroom
      rw [hl, following_ok, List.forall_mem_append, hr, following_ok,
        List.forall_mem_singleton] at hroom
      exact applyBinary_limited ht
        (evaluateNode_limited context htext left _ hnodes.2.1 hleft hl)
        (evaluateNode_limited context htext right _ hnodes.2.2 hroom.1 hr) hroom.2 h
  | .compare left links, depth, v, _, _, h => by
      obtain ⟨-, l, -, b, -, rfl⟩ := evaluateNode_compare_eq_ok.mp h
      trivial
  | .list elts, depth, v, hnodes, hroom, h => by
      rw [Node.subnodes, List.forall_mem_cons] at hnodes
      obtain ⟨hd, vs, hvs, rfl⟩ := evaluateNode_list_eq_ok.mp h
      rw [walk, if_neg (Nat.not_lt.mpr hd)] at hroom
      exact display_limited htext hnodes.1.2 hvs
        (evaluateNodes_limited context htext elts _ hnodes.2 hroom hvs)
  | .tuple elts, depth, v, hnodes, hroom, h => by
      rw [Node.subnodes, List.forall_mem_cons] at hnodes
      obtain ⟨hd, vs, hvs, rfl⟩ := evaluateNode_tuple_eq_ok.mp h
      rw [walk, if_neg (Nat.not_lt.mpr hd)] at hroom
      exact display_limited htext hnodes.1.2 hvs
        (evaluateNodes_limited context htext elts _ hnodes.2 hroom hvs)
  | .unsupported kind children, depth, v, _, _, h => absurd h evaluateNode_unsupported_ne_ok

theorem evaluateNodes_limited (context : Context (Value F)) {text : String}
    (htext : text.length ≤ MAX_LENGTH) :
    ∀ (nodes : List (Node (Value F))) (depth : Nat) {vs : List (Value F)},
      (∀ n ∈ subnodesAll nodes, n.isName = false ∧ n.WrittenIn text) →
        (∀ s ∈ walkNodes context depth nodes, s.HasRoom) →
          evaluateNodes context depth nodes = .ok vs → WithinAll .limit vs
  | [], _, _, _, _, h => by
      rw [evaluateNodes] at h
      cases h
      trivial
  | node :: nodes, depth, vs, hnodes, hroom, h => by
      rw [subnodesAll, List.forall_mem_append] at hnodes
      rw [walkNodes, List.forall_mem_append] at hroom
      obtain ⟨v, hv, rest, hrest, rfl⟩ := evaluateNodes_cons_eq_ok.mp h
      rw [hv, following_ok] at hroom
      exact ⟨evaluateNode_limited context htext node depth hnodes.1 hroom.1 hv,
        evaluateNodes_limited context htext nodes depth hnodes.2 hroom.2 hrest⟩

end

/-- Every value the walk computes is bounded. -/
def Node.EvaluatesBounded (context : Context (Value F)) (tree : Node (Value F)) : Prop :=
  ∀ p ∈ visited context 0 tree, ∀ v, evaluateNode context p.1 p.2 = .ok v → Bounded v

/-- An operator whose result is bounded had room for it, at every step. -/
theorem Node.EvaluatesBounded.hasRoom {context : Context (Value F)} {tree : Node (Value F)}
    (h : tree.EvaluatesBounded context) : ∀ s ∈ walk context 0 tree, s.HasRoom := by
  intro s hs
  cases s with
  | binary op function l r =>
      obtain ⟨ht, p, hp, heq⟩ := walk_applied context tree 0 hs
      exact hasRoom_of_bounded ht fun v hv => h p hp v (heq.trans hv)
  | _ => trivial

/-- The extents of its parts show that an expression leaves room. -/
theorem Node.Fits.hasRoom {context : Context (Value F)} {tree : Node (Value F)}
    (hnames : ∀ node ∈ tree.subnodes, node.isName = false) (hfits : tree.Fits) :
    ∀ s ∈ walk context 0 tree, s.HasRoom :=
  Node.EvaluatesBounded.hasRoom fun p hp =>
    hfits.bounded hnames p.2 (visited_covered context tree 0 p hp).2 p.1

/-- An expression without names evaluates to a bounded value, through bounded values, exactly
if each operator it applies has room for its result. -/
theorem evaluate_bounded (parse : String → Except String (Node (Value F)))
    (hliterals : LiteralsWithinText parse) (expression : String) (context : Context (Value F))
    (tree : Node (Value F)) (hlength : expression.length ≤ MAX_LENGTH)
    (hparse : parse (strip expression) = .ok tree)
    (hnames : ∀ node ∈ tree.subnodes, node.isName = false) :
    ((∀ v, evaluate parse expression context = .ok v → Bounded v) ∧
        tree.EvaluatesBounded context) ↔
      ∀ s ∈ walk context 0 tree, s.HasRoom := by
  refine ⟨fun h => h.2.hasRoom, fun hroom => ?_⟩
  have htext : (strip expression).length ≤ MAX_LENGTH := (length_strip_le _).trans hlength
  have hnodes : ∀ n ∈ tree.subnodes, n.isName = false ∧ n.WrittenIn (strip expression) :=
    fun n hn => ⟨hnames n hn, hliterals _ tree hparse n hn⟩
  have hvalue : evaluate parse expression context = evaluateNode context 0 tree := by
    rw [evaluate, if_neg (not_lt.mpr hlength), hparse]
  refine ⟨fun v hv => ?_, fun p hp v hv => ?_⟩
  · rw [hvalue] at hv
    exact (evaluateNode_limited context htext tree 0 hnodes hroom hv).bounded Extent.limit_small
  · obtain ⟨hsteps, hmem⟩ := visited_covered context tree 0 p hp
    exact (evaluateNode_limited context htext p.2 p.1
      (fun n hn => hnodes n (tree.subnodes_subset p.2 hmem n hn))
      (fun s hs => hroom s (hsteps hs)) hv).bounded Extent.limit_small

end

/-! ## Nested powers -/

theorem applyBinary_pow_int {F : Type} [Inexact F] [Formatting F] (i : Int) {n : Nat}
    (h : n ≤ MAX_EXPONENT) :
    applyBinary .pow .pow (.int i : Value F) (.int n) = .ok (.int (i ^ n)) := by
  have hint : (Value.int (n : Int) : Value F).asInt? = some (n : Int) := rfl
  refine applyBinary_ok_iff.mpr ⟨fun _ => ?_, ?_⟩
  · rw [exponentRefused_of_int hint, decide_eq_false (by omega)]
  · rw [binary_of_number (numberBinary?_of_ints rfl hint), Value.intBinary,
      if_pos (Int.natCast_nonneg n), Int.toNat_natCast]

/-- `((base ** e₁) ** e₂) ** …`, the last exponent first. -/
def powers (base : Int) : List Nat → Node (Value Empty)
  | [] => .constant (.int base)
  | e :: es => .binOp .pow (powers base es) (.constant (.int e))

theorem evaluateNode_powers (context : Context (Value Empty)) (base : Int) :
    ∀ (es : List Nat) (depth : Nat), (∀ e ∈ es, e ≤ MAX_EXPONENT) →
      depth + es.length ≤ MAX_DEPTH →
        evaluateNode context depth (powers base es) = .ok (.int (base ^ es.prod))
  | [], depth, _, hd => by
      rw [List.length_nil] at hd
      rw [powers, evaluateNode, if_neg (by omega), List.prod_nil, Int.pow_one]
  | e :: es, depth, he, hd => by
      rw [List.length_cons] at hd
      rw [List.forall_mem_cons] at he
      have hconst : evaluateNode context (depth + 1) (.constant (.int (e : Int))) =
          .ok (.int (e : Int)) := by
        rw [evaluateNode, if_neg (by omega)]
      rw [powers, evaluateNode, if_neg (by omega)]
      simp only [binaryTable, evaluateNode_powers context base es (depth + 1) he.2 (by omega),
        hconst, Except.ok_bind]
      rw [applyBinary_pow_int _ he.1, List.prod_cons, Nat.mul_comm, Int.pow_mul]

theorem forall_mem_powers {P : Node (Value Empty) → Prop} {base : Int} {es : List Nat}
    (hexpression : ∀ body, P (.expression body)) (hpow : ∀ l r, P (.binOp .pow l r))
    (hbase : P (.constant (.int base))) (hes : ∀ e ∈ es, P (.constant (.int (e : Int)))) :
    ∀ node ∈ (Node.expression (powers base es)).subnodes, P node := by
  rw [Node.subnodes, List.forall_mem_cons]
  refine ⟨hexpression _, ?_⟩
  induction es with
  | nil =>
      rw [powers, Node.subnodes, List.forall_mem_singleton]
      exact hbase
  | cons e es ih =>
      rw [List.forall_mem_cons] at hes
      rw [powers, Node.subnodes, List.forall_mem_cons, List.forall_mem_append, Node.subnodes,
        List.forall_mem_singleton]
      exact ⟨hpow _ _, ih hes.2, hes.1⟩

theorem powers_isName (base : Int) (es : List Nat) :
    ∀ node ∈ (Node.expression (powers base es)).subnodes, node.isName = false :=
  forall_mem_powers (fun _ => rfl) (fun _ _ => rfl) rfl fun _ _ => rfl

theorem powers_writtenIn {text : String} {base : Int} {es : List Nat}
    (hbase : base.natAbs < 16 ^ text.length) (hes : ∀ e ∈ es, e < 16 ^ text.length) :
    ∀ node ∈ (Node.expression (powers base es)).subnodes, node.WrittenIn text :=
  forall_mem_powers (fun _ => trivial) (fun _ _ => trivial) hbase hes

/-- The parser, on two texts. -/
def parsePowers (text : String) : Except String (Node (Value Empty)) :=
  if text = "(2 ** 3) ** 2" then .ok (.expression (powers 2 [2, 3]))
  else if text = "((2 ** 64) ** 64) ** 64" then .ok (.expression (powers 2 [64, 64, 64]))
  else .error "invalid syntax"

theorem parsePowers_literals : LiteralsWithinText parsePowers := by
  intro text tree h
  unfold parsePowers at h
  split at h
  · next htext =>
      subst htext
      cases h
      exact powers_writtenIn (by decide) (by decide)
  · split at h
    · next htext =>
        subst htext
        cases h
        exact powers_writtenIn (by decide) (by decide)
    · cases h

theorem evaluate_bounded_powers :
    (∀ v, evaluate parsePowers "(2 ** 3) ** 2" ∅ = .ok v → Bounded v) ∧
      (Node.expression (powers 2 [2, 3])).EvaluatesBounded ∅ := by
  have hlimit : 2 ^ 6 < 2 ^ sizeLimit := Nat.pow_lt_pow_right (by decide) (by decide)
  have hfits : (Node.expression (powers 2 [2, 3])).Fits := by
    intro node hnode
    have hsmall : node.formats = false ∧ node.extent.mag ≤ 2 ^ 6 ∧ node.extent.len ≤ sizeLimit := by
      revert node
      decide
    exact ⟨hsmall.1, lt_of_le_of_lt hsmall.2.1 hlimit, hsmall.2.2⟩
  exact (evaluate_bounded parsePowers parsePowers_literals "(2 ** 3) ** 2" ∅
    (.expression (powers 2 [2, 3])) (by decide) rfl (powers_isName 2 _)).mpr
    (hfits.hasRoom (powers_isName 2 _))

theorem not_bounded_two_pow {n : Nat} (h : sizeLimit ≤ n) :
    ¬ Bounded (.int (2 ^ n) : Value Empty) := by
  rw [Bounded, Int.natAbs_pow, not_lt]
  exact Nat.pow_le_pow_right (by decide) h

/-- Each exponent is within the limit, and the value has 262145 bits. -/
theorem evaluate_unbounded_powers :
    (∀ node ∈ (Node.expression (powers 2 [64, 64, 64])).subnodes, node.isName = false) ∧
    ∃ v, evaluate parsePowers "((2 ** 64) ** 64) ** 64" ∅ = .ok v ∧ ¬ Bounded v := by
  refine ⟨powers_isName 2 _, .int (2 ^ [64, 64, 64].prod), ?_, not_bounded_two_pow (by decide)⟩
  have h := evaluateNode_powers ∅ 2 [64, 64, 64] 1 (by decide) (by decide)
  have hparse : parsePowers (strip "((2 ** 64) ** 64) ** 64") =
      .ok (.expression (powers 2 [64, 64, 64])) := rfl
  rw [evaluate, if_neg (by decide), hparse]
  dsimp only
  rw [evaluateNode, if_neg (by decide), h]

end YoutubeFactory.Workflow
