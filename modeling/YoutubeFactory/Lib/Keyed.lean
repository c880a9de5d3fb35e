import Mathlib.Data.List.Nodup
import Mathlib.Data.List.Perm.Basic

/-!
# Entries with keys

Where the keys are distinct, a key names one entry (`key_mem_iff`).

First come, first kept: entries arrive one after the other, some of them more than once.  An entry is kept
unless its key is taken already, by an entry kept before or from the outset.  Where
entries of one key are equal, what is kept depends on which entries arrive, and
neither on their order nor on how often they do (`keepAll_perm`).
-/

namespace Keyed

variable {α κ : Type} [DecidableEq κ] (key : α → κ) (taken : κ → Bool)

/-! ## Distinct keys -/

section

variable {key : α → κ} {entries part : List α} {a : α}

omit [DecidableEq κ] in
/-- The keys of some of the entries name those alone. -/
theorem key_mem_iff (hnodup : (entries.map key).Nodup) (hpart : ∀ a ∈ part, a ∈ entries)
    (ha : a ∈ entries) : key a ∈ part.map key ↔ a ∈ part := by
  refine ⟨fun hkey => ?_, List.mem_map_of_mem⟩
  obtain ⟨b, hb, hsame⟩ := List.mem_map.mp hkey
  rw [← List.inj_on_of_nodup_map hnodup (hpart b hb) ha hsame]
  exact hb

omit [DecidableEq κ] in
/-- The keys of the entries of a kind. -/
theorem key_mem_filter_iff (hnodup : (entries.map key).Nodup) {p : α → Bool} (ha : a ∈ entries) :
    key a ∈ (entries.filter p).map key ↔ p a = true := by
  rw [key_mem_iff hnodup (fun _ => List.mem_of_mem_filter) ha, List.mem_filter]
  exact and_iff_right ha

end

/-! ## Arrivals -/

/-- One arrival. -/
def keep (kept : List α) (a : α) : List α :=
  if taken (key a) ∨ key a ∈ kept.map key then kept else kept ++ [a]

/-- All arrivals. -/
def keepAll (kept arrivals : List α) : List α := arrivals.foldl (keep key taken) kept

variable {key taken}

theorem nodup_keep {kept : List α} (h : (kept.map key).Nodup) (a : α) :
    ((keep key taken kept a).map key).Nodup := by
  unfold keep
  split
  · exact h
  · next hfresh =>
      rw [not_or] at hfresh
      rw [List.map_append, List.map_singleton]
      refine List.nodup_append.mpr ⟨h, List.nodup_singleton _, ?_⟩
      rintro k hk l hl rfl
      rw [List.mem_singleton.mp hl] at hk
      exact hfresh.2 hk

theorem nodup_keepAll {arrivals : List α} :
    ∀ {kept : List α}, (kept.map key).Nodup →
      ((keepAll key taken kept arrivals).map key).Nodup := by
  induction arrivals with
  | nil => exact fun h => h
  | cons a arrivals ih => exact fun h => ih (nodup_keep h a)

/-- What is kept in the end, where entries of one key are equal. -/
theorem mem_keepAll {arrivals : List α} :
    ∀ {kept : List α}, (∀ a ∈ kept ++ arrivals, ∀ b ∈ kept ++ arrivals, key a = key b → a = b) →
      ∀ {b : α}, b ∈ keepAll key taken kept arrivals ↔
        b ∈ kept ∨ (b ∈ arrivals ∧ taken (key b) = false) := by
  induction arrivals with
  | nil =>
      intro kept _ b
      simp [keepAll]
  | cons a arrivals ih =>
      intro kept hsame b
      have hhead : a ∈ kept ++ a :: arrivals := by simp
      have hkeep : keepAll key taken kept (a :: arrivals) =
          keepAll key taken (keep key taken kept a) arrivals := rfl
      by_cases htaken : taken (key a) ∨ key a ∈ kept.map key
      · have hold : keep key taken kept a = kept := if_pos htaken
        rw [hkeep, hold, ih fun x hx y hy => hsame x (by grind) y (by grind), List.mem_cons]
        constructor
        · rintro (hb | ⟨hb, hfree⟩)
          · exact .inl hb
          · exact .inr ⟨.inr hb, hfree⟩
        · rintro (hb | ⟨rfl | hb, hfree⟩)
          · exact .inl hb
          · rcases htaken with htaken | hkey
            · rw [htaken] at hfree
              cases hfree
            · obtain ⟨c, hc, hkey⟩ := List.mem_map.mp hkey
              rw [← hsame c (List.mem_append_left _ hc) b hhead hkey]
              exact .inl hc
          · exact .inr ⟨hb, hfree⟩
      · have hnew : keep key taken kept a = kept ++ [a] := if_neg htaken
        have hfree : taken (key a) = false := by
          rw [not_or, Bool.not_eq_true] at htaken
          exact htaken.1
        rw [hkeep, hnew, ih fun x hx y hy => hsame x (by simpa using hx) y (by simpa using hy),
          List.mem_append, List.mem_singleton, List.mem_cons]
        constructor
        · rintro ((hb | rfl) | ⟨hb, hb'⟩)
          · exact .inl hb
          · exact .inr ⟨.inl rfl, hfree⟩
          · exact .inr ⟨.inr hb, hb'⟩
        · rintro (hb | ⟨rfl | hb, hb'⟩)
          · exact .inl (.inl hb)
          · exact .inl (.inr rfl)
          · exact .inr ⟨hb, hb'⟩

/-- Two lists of the same entries keep the same. -/
theorem keepAll_perm {arrivals arrivals' : List α}
    (hsame : ∀ a ∈ arrivals, ∀ b ∈ arrivals, key a = key b → a = b)
    (hmem : ∀ a, a ∈ arrivals ↔ a ∈ arrivals') :
    (keepAll key taken [] arrivals).Perm (keepAll key taken [] arrivals') := by
  have hnodup : ∀ as : List α, (keepAll key taken [] as).Nodup := fun as =>
    List.Nodup.of_map key (nodup_keepAll (by rw [List.map_nil]; exact List.nodup_nil))
  refine (List.perm_ext_iff_of_nodup (hnodup _) (hnodup _)).mpr fun b => ?_
  have hsame' : ∀ a ∈ arrivals', ∀ b ∈ arrivals', key a = key b → a = b := fun a ha b hb =>
    hsame a ((hmem a).mpr ha) b ((hmem b).mpr hb)
  rw [mem_keepAll hsame, mem_keepAll hsame', hmem]

end Keyed
