import Mathlib.Data.List.Basic
import Mathlib.Order.Basic

/-!
# Cumulative counts

For each bound, the number of the values that do not exceed it.  One more value raises the counts
at a part of the bounds (`tally_concat`), and a program that goes through the bounds by their index
does that (`foldl_modify`).  Where the bounds ascend, so do the counts (`pairwise_tally`).
-/

namespace Cumulative

variable {Value : Type} [LE Value] [DecidableLE Value]

/-- The number of values up to each bound. -/
def tally (bounds values : List Value) : List Nat :=
  bounds.map fun bound => values.countP (· ≤ bound)

theorem tally_nil (bounds : List Value) : tally bounds [] = List.replicate bounds.length 0 :=
  List.map_const'

theorem length_tally (bounds values : List Value) : (tally bounds values).length = bounds.length :=
  List.length_map _

/-- The counts with one more value. -/
theorem tally_concat (bounds values : List Value) (value : Value) :
    tally bounds (values ++ [value]) =
      List.zipWith (fun n bound => if value ≤ bound then n + 1 else n) (tally bounds values)
        bounds := by
  unfold tally
  rw [List.zipWith_map_left, List.zipWith_self]
  refine List.map_congr_left fun bound _ => ?_
  rw [List.countP_append, List.countP_singleton]
  by_cases h : value ≤ bound
  · simp [h]
  · simp [h]

/-- A loop over the bounds that changes the count at each index where a condition holds. -/
theorem foldl_modify {Bound : Type} (holds : Bound → Prop) [DecidablePred holds] (f : Nat → Nat) :
    ∀ (bounds : List Bound) (done counts : List Nat), counts.length = bounds.length →
      (bounds.zipIdx done.length).foldl
          (fun counts b => if holds b.1 then counts.modify b.2 f else counts) (done ++ counts) =
        done ++ List.zipWith (fun n bound => if holds bound then f n else n) counts bounds
  | [], done, [], _ => rfl
  | bound :: bounds, done, n :: counts, hlength => by
      have hfirst : (if holds bound then (done ++ n :: counts).modify done.length f
          else done ++ n :: counts) = done ++ [if holds bound then f n else n] ++ counts := by
        split
        · have hmodify := List.modifyTailIdx_add (List.modifyHead f) 0 done (n :: counts)
          rw [List.append_assoc]
          exact hmodify
        · exact (List.append_cons done n counts)
      have hrest := foldl_modify holds f bounds (done ++ [if holds bound then f n else n]) counts
        (Nat.succ.inj hlength)
      rw [List.length_append, List.length_singleton] at hrest
      rw [List.zipIdx_cons, List.foldl_cons, hfirst, List.zipWith_cons_cons, hrest,
        List.append_assoc]
      rfl

/-- Where the bounds ascend, so do the counts. -/
theorem pairwise_tally (htrans : ∀ a b c : Value, a ≤ b → b ≤ c → a ≤ c) {bounds : List Value}
    (hbounds : bounds.Pairwise (· ≤ ·)) (values : List Value) :
    (tally bounds values).Pairwise (· ≤ ·) := by
  refine List.pairwise_map.mpr (hbounds.imp fun {low high} hle => ?_)
  refine List.countP_mono_left fun value _ h => ?_
  rw [decide_eq_true_eq] at h ⊢
  exact htrans value low high h hle

/-- A bound that no value exceeds counts them all. -/
theorem getLast?_tally {bounds values : List Value} {top : Value}
    (htop : bounds.getLast? = some top) (hvalues : ∀ value ∈ values, value ≤ top) :
    (tally bounds values).getLast? = some values.length := by
  rw [tally, List.getLast?_map, htop, Option.map_some]
  refine congrArg some (List.countP_eq_length.mpr fun value hvalue => ?_)
  exact decide_eq_true (hvalues value hvalue)

end Cumulative
