import Mathlib.Init

/-!
# Computations that may raise

Inversion of `Except` computations: a sequence gives a value when its parts do,
and raises when one of them does.
-/

namespace Except

variable {ε α β : Type}

@[simp] theorem ok_bind (a : α) (f : α → Except ε β) : (ok a >>= f) = f a := rfl

@[simp] theorem error_bind (e : ε) (f : α → Except ε β) : (error e >>= f) = error e := rfl

@[simp] theorem pure_eq_ok (a : α) : (pure a : Except ε α) = ok a := rfl

@[simp] theorem ok_map (f : α → β) (a : α) : (ok a : Except ε α).map f = ok (f a) := rfl

@[simp] theorem error_map (f : α → β) (e : ε) : (error e : Except ε α).map f = error e := rfl

theorem bind_eq_ok {x : Except ε α} {f : α → Except ε β} {b : β} :
    (x >>= f) = ok b ↔ ∃ a, x = ok a ∧ f a = ok b := by
  cases x with
  | error e => simp
  | ok a => simp

theorem bind_eq_error {x : Except ε α} {f : α → Except ε β} {e : ε} :
    (x >>= f) = error e ↔ x = error e ∨ ∃ a, x = ok a ∧ f a = error e := by
  cases x with
  | error e' => simp
  | ok a => simp

theorem map_eq_ok {x : Except ε α} {f : α → β} {b : β} :
    x.map f = ok b ↔ ∃ a, x = ok a ∧ f a = b := by
  cases x with
  | error e => simp
  | ok a => simp

theorem map_eq_error {x : Except ε α} {f : α → β} {e : ε} :
    x.map f = error e ↔ x = error e := by
  cases x with
  | error e' => simp
  | ok a => simp

theorem mapM_of_forall {f : α → Except ε β} {g : α → β} :
    ∀ {l : List α}, (∀ a ∈ l, f a = ok (g a)) → l.mapM f = ok (l.map g)
  | [], _ => rfl
  | a :: l, h => by
      have hrest := mapM_of_forall fun b hb => h b (List.mem_cons_of_mem a hb)
      rw [List.mapM_cons, h a List.mem_cons_self, hrest]
      rfl

theorem mapM_cons_eq_ok {f : α → Except ε β} {a : α} {l : List α} {bs : List β} :
    (a :: l).mapM f = ok bs ↔ ∃ b bs', f a = ok b ∧ l.mapM f = ok bs' ∧ b :: bs' = bs := by
  rw [List.mapM_cons, bind_eq_ok]
  constructor
  · rintro ⟨b, ha, hrest⟩
    obtain ⟨bs', hl, hbs⟩ := bind_eq_ok.mp hrest
    exact ⟨b, bs', ha, hl, ok.inj hbs⟩
  · rintro ⟨b, bs', ha, hl, rfl⟩
    exact ⟨b, ha, bind_eq_ok.mpr ⟨bs', hl, rfl⟩⟩

/-- The results of a loop that does not raise. -/
theorem mem_of_mapM {f : α → Except ε β} {b : β} :
    ∀ {l : List α} {bs : List β}, l.mapM f = ok bs → (b ∈ bs ↔ ∃ a ∈ l, f a = ok b)
  | [], bs, h => by
      cases h
      exact iff_of_false List.not_mem_nil fun h => nomatch h
  | a :: l, bs, h => by
      obtain ⟨b', bs', ha, hl, rfl⟩ := mapM_cons_eq_ok.mp h
      rw [List.mem_cons, mem_of_mapM hl]
      constructor
      · rintro (rfl | ⟨a', ha', hb⟩)
        · exact ⟨a, List.mem_cons_self, ha⟩
        · exact ⟨a', List.mem_cons_of_mem a ha', hb⟩
      · rintro ⟨a', ha', hb⟩
        rcases List.mem_cons.mp ha' with rfl | hmem
        · exact .inl (ok.inj (hb.symm.trans ha))
        · exact .inr ⟨a', hmem, hb⟩

/-- A loop raises if and only if one of its calls does. -/
theorem exists_mapM_eq_ok_iff {f : α → Except ε β} :
    ∀ {l : List α}, (∃ bs, l.mapM f = ok bs) ↔ ∀ a ∈ l, ∃ b, f a = ok b
  | [] => iff_of_true ⟨[], rfl⟩ nofun
  | a :: l => by
      rw [List.forall_mem_cons, ← exists_mapM_eq_ok_iff]
      constructor
      · rintro ⟨bs, h⟩
        obtain ⟨b, bs', ha, hl, -⟩ := mapM_cons_eq_ok.mp h
        exact ⟨⟨b, ha⟩, bs', hl⟩
      · rintro ⟨⟨b, ha⟩, bs', hl⟩
        exact ⟨b :: bs', mapM_cons_eq_ok.mpr ⟨b, bs', ha, hl, rfl⟩⟩

/-- A loop that does not raise. -/
theorem forM_eq_ok {f : α → Except ε PUnit} :
    ∀ {l : List α}, l.forM f = ok PUnit.unit ↔ ∀ a ∈ l, f a = ok PUnit.unit
  | [] => iff_of_true rfl nofun
  | a :: l => by
      have hcons : (a :: l).forM f = (f a >>= fun _ => l.forM f) := rfl
      rw [hcons, List.forall_mem_cons, ← forM_eq_ok]
      cases f a with
      | error e => exact iff_of_false nofun (fun h => nomatch h.1)
      | ok u => exact (and_iff_right rfl).symm

end Except
