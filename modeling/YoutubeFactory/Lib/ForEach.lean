import YoutubeFactory.Lib.Stateful

/-!
# Loops whose body is a call

A loop over a list that calls its body with the index and the item, and collects what the body
returns.  `Calls` is the run of such a loop without an exception: one call for every item, in
order, each from the state that the call before has left.  The list may be part of the state, so
that the body can change it while the loop goes on (`enumerate`).
-/

namespace EStateM

variable {ε σ ι α : Type} {body : Nat → ι → EStateM ε σ α}

/-- `for index, item in enumerate(items, start)`, with what the body returns. -/
def forEach (body : Nat → ι → EStateM ε σ α) : Nat → List ι → EStateM ε σ (List α)
  | _, [] => pure []
  | index, item :: items => do
      let output ← body index item
      let outputs ← forEach body (index + 1) items
      return output :: outputs

/-- One call of the body for every item, in order, from one state to the other. -/
inductive Calls (body : Nat → ι → EStateM ε σ α) : Nat → List ι → σ → List α → σ → Prop
  | nil {index : Nat} {s : σ} : Calls body index [] s [] s
  | cons {index : Nat} {item : ι} {items : List ι} {s s₁ s' : σ} {output : α} {outputs : List α}
      (call : (body index item).run s = .ok output s₁)
      (rest : Calls body (index + 1) items s₁ outputs s') :
      Calls body index (item :: items) s (output :: outputs) s'

theorem Calls.length {index : Nat} {items : List ι} {s s' : σ} {outputs : List α}
    (h : Calls body index items s outputs s') : outputs.length = items.length := by
  induction h with
  | nil => rfl
  | cons _ _ ih => rw [List.length_cons, List.length_cons, ih]

/-- The loop after its first call. -/
theorem run_forEach_cons {index : Nat} {item : ι} {items : List ι} {s s₁ : σ} {output : α}
    (h : (body index item).run s = .ok output s₁) :
    (forEach body index (item :: items)).run s =
      ((forEach body (index + 1) items >>= fun outputs => pure (output :: outputs)) :
        EStateM ε σ (List α)).run s₁ := run_bind_of_ok h

theorem Calls.run {index : Nat} {items : List ι} {s s' : σ} {outputs : List α}
    (h : Calls body index items s outputs s') :
    (forEach body index items).run s = .ok outputs s' := by
  induction h with
  | nil => rfl
  | cons hcall _ ih =>
      rw [run_forEach_cons hcall, run_bind_of_ok ih]
      rfl

/-- A loop makes all its calls, or it ends with the first that raises. -/
theorem run_forEach (body : Nat → ι → EStateM ε σ α) :
    ∀ (items : List ι) (index : Nat) (s : σ),
      (∃ outputs s', Calls body index items s outputs s' ∧
        (forEach body index items).run s = .ok outputs s') ∨
      ∃ done item rest outputs s₁ e s', items = done ++ item :: rest ∧
        Calls body index done s outputs s₁ ∧
        (body (index + done.length) item).run s₁ = .error e s' ∧
        (forEach body index items).run s = .error e s' := by
  intro items
  induction items with
  | nil => exact fun index s => .inl ⟨[], s, .nil, rfl⟩
  | cons item items ih =>
      intro index s
      cases hcall : (body index item).run s with
      | error e s' =>
          exact .inr ⟨[], item, items, [], s, e, s', rfl, .nil, hcall, run_bind_of_error hcall⟩
      | ok output s₁ =>
          rcases ih (index + 1) s₁ with ⟨outputs, s', hcalls, -⟩ |
            ⟨done, last, rest, outputs, s₂, e, s', hitems, hcalls, hlast, hrun⟩
          · have hall := Calls.cons hcall hcalls
            exact .inl ⟨_, s', hall, hall.run⟩
          · refine .inr ⟨item :: done, last, rest, output :: outputs, s₂, e, s', ?_,
              .cons hcall hcalls, ?_, ?_⟩
            · rw [hitems, List.cons_append]
            · rw [List.length_cons, Nat.add_comm done.length 1, ← Nat.add_assoc]
              exact hlast
            · rw [run_forEach_cons hcall, run_bind_of_error hrun]

/-- `for index, item in enumerate(xs, start)` over a list that the body may change, with what the
body returns, unless the loop goes on for longer than the fuel. -/
def enumerate (items : σ → List ι) (body : Nat → ι → EStateM ε σ α) :
    Nat → Nat → EStateM ε σ (Option (List α))
  | 0, _ => pure none
  | fuel + 1, index => do
      let s ← get
      match (items s)[index]? with
      | none => return some []
      | some item =>
          let output ← body index item
          let outputs ← enumerate items body fuel (index + 1)
          return outputs.map (output :: ·)

/-- The loop whose body has returned, when what is left of it goes over the rest of the items. -/
theorem run_enumerate_cons {index : Nat} {item : ι} {found : List ι} {s s₁ : σ} {output : α}
    {rest : EStateM ε σ (Option (List α))} (hcall : (body index item).run s = .ok output s₁)
    (hrest : rest.run s₁ =
      ((forEach body (index + 1) found >>= fun outputs => pure (some outputs)) :
        EStateM ε σ (Option (List α))).run s₁) :
    ((body index item >>= fun output => rest >>= fun outputs =>
        pure (outputs.map (output :: ·))) : EStateM ε σ (Option (List α))).run s =
      ((forEach body index (item :: found) >>= fun outputs => pure (some outputs)) :
        EStateM ε σ (Option (List α))).run s := by
  rw [run_bind_of_ok hcall]
  cases hrun : (forEach body (index + 1) found).run s₁ with
  | error e s' =>
      have hall : (forEach body index (item :: found)).run s = .error e s' := by
        rw [run_forEach_cons hcall, run_bind_of_error hrun]
      rw [run_bind_of_error hrun] at hrest
      rw [run_bind_of_error hrest, run_bind_of_error hall]
  | ok outputs s' =>
      have hall : (forEach body index (item :: found)).run s = .ok (output :: outputs) s' := by
        rw [run_forEach_cons hcall, run_bind_of_ok hrun]
        rfl
      rw [run_bind_of_ok hrun] at hrest
      rw [run_bind_of_ok hrest, run_bind_of_ok hall]
      rfl

/-- The loop whose body raises, whatever would come after. -/
theorem run_enumerate_error {index : Nat} {item : ι} {found : List ι} {s s' : σ} {e : ε}
    {rest : EStateM ε σ (Option (List α))} (hcall : (body index item).run s = .error e s') :
    ((body index item >>= fun output => rest >>= fun outputs =>
        pure (outputs.map (output :: ·))) : EStateM ε σ (Option (List α))).run s =
      ((forEach body index (item :: found) >>= fun outputs => pure (some outputs)) :
        EStateM ε σ (Option (List α))).run s := by
  have hall : (forEach body index (item :: found)).run s = .error e s' := run_bind_of_error hcall
  rw [run_bind_of_error hcall, run_bind_of_error hall]

/-- A loop that ends has gone over a list of items, whatever the list is in the end. -/
theorem run_enumerate (items : σ → List ι) (body : Nat → ι → EStateM ε σ α) :
    ∀ (fuel index : Nat) (s : σ), (∃ s', (enumerate items body fuel index).run s = .ok none s') ∨
      ∃ found, (enumerate items body fuel index).run s =
        ((forEach body index found >>= fun outputs => pure (some outputs)) :
          EStateM ε σ (Option (List α))).run s
  | 0, _, s => .inl ⟨s, rfl⟩
  | fuel + 1, index, s => by
      rw [enumerate, run_get_bind]
      cases (items s)[index]? with
      | none => exact .inr ⟨[], rfl⟩
      | some item =>
          dsimp only
          cases hcall : (body index item).run s with
          | error e s' => exact .inr ⟨[item], run_enumerate_error hcall⟩
          | ok output s₁ =>
              rcases run_enumerate items body fuel (index + 1) s₁ with ⟨s', hrest⟩ | ⟨found, hrest⟩
              · refine .inl ⟨s', ?_⟩
                rw [run_bind_of_ok hcall, run_bind_of_ok hrest]
                rfl
              · exact .inr ⟨item :: found, run_enumerate_cons hcall hrest⟩

/-- Where the body leaves the list alone, the loop goes over its items. -/
theorem run_enumerate_of_keeps {items : σ → List ι} {body : Nat → ι → EStateM ε σ α}
    (hbody : ∀ index item, Keeps items (body index item)) :
    ∀ (fuel index : Nat) (s : σ), (items s).length - index < fuel →
      (enumerate items body fuel index).run s =
        ((forEach body index ((items s).drop index) >>= fun outputs => pure (some outputs)) :
          EStateM ε σ (Option (List α))).run s
  | 0, _, _, hfuel => absurd hfuel (Nat.not_lt_zero _)
  | fuel + 1, index, s, hfuel => by
      rw [enumerate, run_get_bind]
      cases hitem : (items s)[index]? with
      | none =>
          rw [List.drop_eq_nil_of_le (List.getElem?_eq_none_iff.mp hitem)]
          rfl
      | some item =>
          dsimp only
          obtain ⟨hlt, hget⟩ := List.getElem?_eq_some_iff.mp hitem
          rw [List.drop_eq_getElem_cons hlt, hget]
          have hkept := hbody index item s
          cases hcall : (body index item).run s with
          | error e s' => exact run_enumerate_error hcall
          | ok output s₁ =>
              rw [hcall] at hkept
              have hkept : items s₁ = items s := hkept
              have hrest := run_enumerate_of_keeps hbody fuel (index + 1) s₁ (by rw [hkept]; omega)
              rw [hkept] at hrest
              exact run_enumerate_cons hcall hrest

/-- A view that every call keeps, the loop keeps. -/
theorem Keeps.enumerate {γ : Type} {view : σ → γ} {items : σ → List ι}
    (hbody : ∀ index item, Keeps view (body index item)) :
    ∀ fuel index : Nat, Keeps view (EStateM.enumerate items body fuel index)
  | 0, _ => pure _
  | fuel + 1, index => by
      refine get_bind fun s => ?_
      cases (items s)[index]? with
      | none => rfl
      | some item =>
          exact bind (hbody index item)
            (fun _ => bind (Keeps.enumerate hbody fuel (index + 1)) fun _ => pure _) s

/-- What a call returns or raises. -/
def Result.toExcept : Result ε σ α → Except ε α
  | .ok a _ => .ok a
  | .error e _ => .error e

end EStateM
