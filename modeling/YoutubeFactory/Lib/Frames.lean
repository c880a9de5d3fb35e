import Mathlib.Data.List.Infix

/-!
# Frames in a stream

A stream is cut at the places where a separator stands twice, from left to right, and what comes
after the last place is kept for later.  It may arrive in chunks: the frames are those of the
stream, wherever it is cut into chunks (`receive_eq`).

A sender that never writes the separator inside a frame sends the frames it means.  The receiver
of a part of its stream has the frames that arrived as a whole, and no other ones (`cut_of_prefix`).

A text of parts that are joined by a separator has one part before its first one
(`append_sep_inj`).
-/

namespace Frames

variable {α : Type}

/-! ## Joining -/

/-- What stands before the first separator, and what behind it. -/
theorem append_sep_inj {sep : α} {xs ys rest rest' : List α} (hxs : sep ∉ xs) (hys : sep ∉ ys)
    (h : xs ++ sep :: rest = ys ++ sep :: rest') : xs = ys ∧ rest = rest' := by
  induction xs generalizing ys with
  | nil =>
      cases ys with
      | nil => exact ⟨rfl, (List.cons.inj h).2⟩
      | cons y ys => exact absurd (List.mem_cons.mpr (.inl (List.cons.inj h).1)) hys
  | cons x xs ih =>
      cases ys with
      | nil => exact absurd (List.mem_cons.mpr (.inl (List.cons.inj h).1.symm)) hxs
      | cons y ys =>
          obtain ⟨hfirst, hmore⟩ := List.cons.inj h
          obtain ⟨hsame, hrest⟩ := ih (fun hmem => hxs (List.mem_cons_of_mem x hmem))
            (fun hmem => hys (List.mem_cons_of_mem y hmem)) hmore
          exact ⟨by rw [hfirst, hsame], hrest⟩

/-! ## Sending -/

/-- The stream of some frames. -/
def send (sep : α) (frames : List (List α)) : List α :=
  frames.flatMap fun frame => frame ++ [sep, sep]

theorem send_cons (sep : α) (frame : List α) (frames : List (List α)) :
    send sep (frame :: frames) = frame ++ [sep, sep] ++ send sep frames := List.flatMap_cons

theorem send_take_prefix (sep : α) (frames : List (List α)) (k : Nat) :
    send sep (frames.take k) <+: send sep frames := by
  refine ⟨send sep (frames.drop k), ?_⟩
  rw [send, send, ← List.flatMap_append, List.take_append_drop]
  rfl

/-! ## Cutting -/

/-- One more at the front of what was cut. -/
def extend (a : α) : List (List α) × List α → List (List α) × List α
  | ([], rest) => ([], a :: rest)
  | (frame :: frames, rest) => ((a :: frame) :: frames, rest)

theorem extend_of_nil {a : α} {p : List (List α) × List α} (h : p.1 = []) :
    extend a p = ([], a :: p.2) := by
  obtain ⟨_ | ⟨frame, frames⟩, rest⟩ := p
  · rfl
  · cases h

theorem extend_of_ne_nil {a : α} {p : List (List α) × List α} (h : p.1 ≠ [])
    (frames : List (List α)) (rest : List α) :
    extend a (p.1 ++ frames, rest) = ((extend a p).1 ++ frames, rest) ∧
      (extend a p).2 = p.2 ∧ (extend a p).1 ≠ [] := by
  obtain ⟨_ | ⟨frame, more⟩, rest'⟩ := p
  · exact absurd rfl h
  · exact ⟨rfl, rfl, List.cons_ne_nil _ _⟩

variable [DecidableEq α] (sep : α)

/-- The frames of a stream, and what comes after them. -/
def cut : List α → List (List α) × List α
  | a :: b :: s =>
      if a = sep ∧ b = sep then ([] :: (cut s).1, (cut s).2) else extend a (cut (b :: s))
  | s => ([], s)

/-- A receiver keeps what it could not cut. -/
def receiveChunk (received : List (List α) × List α) (chunk : List α) : List (List α) × List α :=
  let arrived := cut sep (received.2 ++ chunk)
  (received.1 ++ arrived.1, arrived.2)

def receive (chunks : List (List α)) : List (List α) × List α :=
  chunks.foldl (receiveChunk sep) ([], [])

variable {sep}

theorem cut_sep (s : List α) :
    cut sep (sep :: sep :: s) = ([] :: (cut sep s).1, (cut sep s).2) := by
  simp [cut]

theorem cut_cons {a b : α} (h : ¬ (a = sep ∧ b = sep)) (s : List α) :
    cut sep (a :: b :: s) = extend a (cut sep (b :: s)) := by
  rw [cut, if_neg h]

/-- A stream without a frame is kept as it is. -/
theorem cut_of_no_frame {s : List α} (h : (cut sep s).1 = []) : (cut sep s).2 = s := by
  induction s using cut.induct sep with
  | case1 a b s hsep ih =>
      obtain ⟨rfl, rfl⟩ := hsep
      rw [cut_sep] at h
      cases h
  | case2 a b s hsep ih =>
      by_cases hnone : (cut sep (b :: s)).1 = []
      · rw [cut_cons hsep, extend_of_nil hnone, ih hnone]
      · rw [cut_cons hsep] at h
        exact absurd h (extend_of_ne_nil hnone [] []).2.2
  | case3 s hshort => rw [cut.eq_2 sep s hshort]

/-- What is cut off a part of a stream is cut off the stream. -/
theorem cut_append (s t : List α) :
    cut sep (s ++ t) =
      ((cut sep s).1 ++ (cut sep ((cut sep s).2 ++ t)).1, (cut sep ((cut sep s).2 ++ t)).2) := by
  induction s using cut.induct sep with
  | case1 a b s hsep ih =>
      obtain ⟨rfl, rfl⟩ := hsep
      rw [List.cons_append, List.cons_append, cut_sep, cut_sep, ih]
      rfl
  | case2 a b s hsep ih =>
      by_cases hnone : (cut sep (b :: s)).1 = []
      · have hall : (cut sep (a :: b :: s)).1 = [] := by
          rw [cut_cons hsep, extend_of_nil hnone]
        rw [hall, cut_of_no_frame hall, List.nil_append]
      · obtain ⟨hframes, hrest, -⟩ := extend_of_ne_nil (a := a) hnone
          (cut sep ((cut sep (b :: s)).2 ++ t)).1 (cut sep ((cut sep (b :: s)).2 ++ t)).2
        rw [List.cons_append, List.cons_append, cut_cons hsep, ← List.cons_append, ih, hframes,
          cut_cons hsep, hrest]
  | case3 s hshort =>
      rw [cut.eq_2 sep s hshort]
      rfl

/-- The chunks do not matter. -/
theorem receive_eq (chunks : List (List α)) : receive sep chunks = cut sep chunks.flatten := by
  induction chunks using List.reverseRecOn with
  | nil => rfl
  | append_singleton chunks chunk ih =>
      rw [receive] at ih ⊢
      rw [List.foldl_append, ih, List.flatten_append, List.flatten_singleton, cut_append]
      rfl

/-! ## Frames that are received -/

/-- A frame without the separator is the first one. -/
theorem cut_frame {frame : List α} (h : sep ∉ frame) (s : List α) :
    cut sep (frame ++ [sep, sep] ++ s) = (frame :: (cut sep s).1, (cut sep s).2) := by
  induction frame with
  | nil => exact cut_sep s
  | cons a frame ih =>
      rw [List.mem_cons, not_or] at h
      obtain ⟨b, more, hmore⟩ : ∃ b more, frame ++ [sep, sep] ++ s = b :: more :=
        List.exists_cons_of_ne_nil (by simp)
      have ih := ih h.2
      rw [hmore] at ih
      rw [List.cons_append, List.cons_append, hmore, cut_cons (fun hsep => h.1 hsep.1.symm), ih]
      rfl

/-- A frame that has not arrived as a whole is not received. -/
theorem cut_part {frame s : List α} (h : sep ∉ frame) (hs : s <+: frame ++ [sep]) :
    (cut sep s).1 = [] := by
  induction frame generalizing s with
  | nil =>
      obtain _ | ⟨a, _ | ⟨b, s⟩⟩ := s
      · rfl
      · rfl
      · exact absurd hs.length_le (by simp)
  | cons a frame ih =>
      rw [List.mem_cons, not_or] at h
      obtain _ | ⟨b, _ | ⟨c, s⟩⟩ := s
      · rfl
      · rfl
      · rw [List.cons_append, List.cons_prefix_cons] at hs
        obtain ⟨rfl, hs⟩ := hs
        rw [cut_cons (fun hsep => h.1 hsep.1.symm), extend_of_nil (ih h.2 hs)]

/-- Of a part of a stream, the frames are received that arrived as a whole. -/
theorem cut_of_prefix {frames : List (List α)} (h : ∀ frame ∈ frames, sep ∉ frame) {s : List α}
    (hs : s <+: send sep frames) :
    ∃ k ≤ frames.length, (cut sep s).1 = frames.take k ∧ send sep (frames.take k) <+: s ∧
      (k < frames.length → s.length < (send sep (frames.take (k + 1))).length) := by
  induction frames generalizing s with
  | nil =>
      obtain rfl := List.prefix_nil.mp hs
      exact ⟨0, Nat.le_refl _, rfl, List.nil_prefix, fun hlt => absurd hlt (Nat.lt_irrefl _)⟩
  | cons frame frames ih =>
      obtain ⟨hframe, hframes⟩ := List.forall_mem_cons.mp h
      have hwhole : ∀ s, s <+: send sep frames → ∃ k ≤ (frame :: frames).length,
          (cut sep (frame ++ [sep, sep] ++ s)).1 = (frame :: frames).take k ∧
            send sep ((frame :: frames).take k) <+: frame ++ [sep, sep] ++ s ∧
            (k < (frame :: frames).length → (frame ++ [sep, sep] ++ s).length <
              (send sep ((frame :: frames).take (k + 1))).length) := by
        intro s hs
        obtain ⟨k, hk, hcut, hsent, hlength⟩ := ih hframes hs
        refine ⟨k + 1, Nat.succ_le_succ hk, ?_, ?_, fun hlt => ?_⟩
        · rw [cut_frame hframe, hcut, List.take_succ_cons]
        · rw [List.take_succ_cons, send_cons, List.prefix_append_right_inj]
          exact hsent
        · have hlength := hlength (Nat.lt_of_succ_lt_succ hlt)
          rw [List.take_succ_cons, send_cons, List.length_append, @List.length_append _ _ (send ..)]
          exact Nat.add_lt_add_left hlength _
      rw [send_cons] at hs
      obtain hpart | ⟨s, rfl⟩ := List.prefix_or_prefix_of_prefix hs (List.prefix_append _ _)
      · have hsplit : frame ++ [sep, sep] = (frame ++ [sep]) ++ [sep] := by simp
        rw [hsplit, List.prefix_concat_iff, ← hsplit] at hpart
        obtain rfl | hpart := hpart
        · simpa using hwhole [] List.nil_prefix
        · refine ⟨0, Nat.zero_le _, cut_part hframe hpart, List.nil_prefix, fun _ => ?_⟩
          have hlength := hpart.length_le
          rw [List.take_succ_cons, send_cons]
          simp only [List.length_append, List.length_cons, List.length_nil] at hlength ⊢
          omega
      · exact hwhole s ((List.prefix_append_right_inj _).mp hs)

end Frames
