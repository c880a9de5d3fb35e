import YoutubeFactory.Workflow.Refusal
import YoutubeFactory.Workflow.Size

/-!
# The nodes a walk visits

`visited` lists the nodes an evaluation looks at, beside the operator steps that
`walk` lists.  What stands behind a comparison that has failed, or behind a part
that has raised, is not among them.

The two lists belong together.  A walk takes every step of the nodes it visits
(`visited_covered`), and every binary step is taken at a node that is visited
(`walk_applied`).
-/

namespace YoutubeFactory.Workflow

open Python

/-! ## The nodes a walk visits -/

section

variable {V : Type} [PyObject V]

mutual

/-- The nodes `evaluateNode` looks at, in order, each with its depth. -/
def visited (context : Context V) (depth : Nat) (node : Node V) : List (Nat × Node V) :=
  if depth > MAX_DEPTH then []
  else
    (depth, node) ::
      match node with
      | .expression body => visited context (depth + 1) body
      | .constant _ => []
      | .name _ => []
      | .subscript value slice =>
          visited context (depth + 1) value ++
            following (evaluateNode context (depth + 1) value) fun _ =>
              visited context (depth + 1) slice
      | .boolOp _ values => visitedNodes context (depth + 1) values
      | .unaryOp op operand =>
          match unaryTable op with
          | none => []
          | some _ => visited context (depth + 1) operand
      | .binOp op left right =>
          match binaryTable op with
          | none => []
          | some _ =>
              visited context (depth + 1) left ++
                following (evaluateNode context (depth + 1) left) fun _ =>
                  visited context (depth + 1) right
      | .compare left links =>
          visited context (depth + 1) left ++
            following (evaluateNode context (depth + 1) left) fun l =>
              visitedLinks context (depth + 1) l links
      | .list elts => visitedNodes context (depth + 1) elts
      | .tuple elts => visitedNodes context (depth + 1) elts
      | .unsupported _ _ => []

/-- The nodes `evaluateNodes` looks at. -/
def visitedNodes (context : Context V) (depth : Nat) : List (Node V) → List (Nat × Node V)
  | [] => []
  | node :: nodes =>
      visited context depth node ++
        following (evaluateNode context depth node) fun _ => visitedNodes context depth nodes

/-- The nodes `evaluateLinks` looks at. -/
def visitedLinks (context : Context V) (depth : Nat) (left : V) :
    List (CmpOperator × Node V) → List (Nat × Node V)
  | [] => []
  | (op, comparator) :: links =>
      match compareTable op with
      | none => []
      | some compare =>
          visited context depth comparator ++
            following (evaluateNode context depth comparator) fun right =>
              following (applyCompare compare left right) fun b =>
                if b then visitedLinks context depth right links else []

end

omit [PyObject V] in
theorem mem_following {α β : Type} {r : Except EvalError α} {next : α → List β} {b : β} :
    b ∈ following r next ↔ ∃ a, r = .ok a ∧ b ∈ next a := by
  cases r with
  | error e => simp [following]
  | ok a => simp [following]

end

section

variable {F : Type} [Inexact F] [Formatting F]

/-- The steps below a node are among these steps, and the node is among these nodes. -/
def Covered (context : Context (Value F)) (steps : List (WalkStep (Value F)))
    (nodes : List (Node (Value F))) (p : Nat × Node (Value F)) : Prop :=
  walk context p.1 p.2 ⊆ steps ∧ p.2 ∈ nodes

theorem Covered.mono {context : Context (Value F)} {steps steps' : List (WalkStep (Value F))}
    {nodes nodes' : List (Node (Value F))} {p : Nat × Node (Value F)}
    (h : Covered context steps nodes p) (hsteps : steps ⊆ steps') (hnodes : nodes ⊆ nodes') :
    Covered context steps' nodes' p :=
  ⟨fun _ hs => hsteps (h.1 hs), hnodes h.2⟩

/-- The node itself is covered, and so is what is covered below it. -/
theorem covered_of_visited {context : Context (Value F)} {node : Node (Value F)} {depth : Nat}
    {below : List (Nat × Node (Value F))} {steps : List (WalkStep (Value F))}
    {nodes : List (Node (Value F))} (hwalk : walk context depth node = steps)
    (hnodes : node.subnodes = node :: nodes) (hbelow : ∀ p ∈ below, Covered context steps nodes p)
    {p : Nat × Node (Value F)} (hp : p ∈ (depth, node) :: below) :
    Covered context (walk context depth node) node.subnodes p := by
  rcases List.mem_cons.mp hp with rfl | hp
  · exact ⟨fun _ hs => hs, node.self_mem_subnodes⟩
  · rw [hwalk, hnodes]
    exact (hbelow p hp).mono (List.Subset.refl _) (List.subset_cons_self _ _)

theorem not_deep_of_visited {context : Context (Value F)} {node : Node (Value F)} {depth : Nat}
    {p : Nat × Node (Value F)} (hp : p ∈ visited context depth node) : ¬ depth > MAX_DEPTH := by
  intro hd
  rw [visited.eq_def, if_pos hd] at hp
  cases hp

mutual

/-- A walk takes every step of the nodes it visits, and these are nodes of the tree. -/
theorem visited_covered (context : Context (Value F)) :
    ∀ (node : Node (Value F)) (depth : Nat), ∀ p ∈ visited context depth node,
      Covered context (walk context depth node) node.subnodes p
  | .expression body, depth, p, hp => by
      have hd := not_deep_of_visited hp
      rw [visited, if_neg hd] at hp
      refine covered_of_visited (by rw [walk, if_neg hd]) (by rw [Node.subnodes]) ?_ hp
      exact visited_covered context body _
  | .constant value, depth, p, hp => by
      have hd := not_deep_of_visited hp
      rw [visited, if_neg hd] at hp
      exact covered_of_visited rfl (by rw [Node.subnodes]) (fun _ hq => by cases hq) hp
  | .name id, depth, p, hp => by
      have hd := not_deep_of_visited hp
      rw [visited, if_neg hd] at hp
      exact covered_of_visited rfl (by rw [Node.subnodes]) (fun _ hq => by cases hq) hp
  | .subscript value slice, depth, p, hp => by
      have hd := not_deep_of_visited hp
      rw [visited, if_neg hd] at hp
      refine covered_of_visited (by rw [walk, if_neg hd]) (by rw [Node.subnodes]) ?_ hp
      intro q hq
      rcases List.mem_append.mp hq with hq | hq
      · exact (visited_covered context value _ q hq).mono (List.subset_append_left _ _)
          (List.subset_append_left _ _)
      · obtain ⟨container, hc, hq⟩ := mem_following.mp hq
        rw [hc, following_ok]
        exact (visited_covered context slice _ q hq).mono
          (List.Subset.trans (List.subset_append_left _ _) (List.subset_append_right _ _))
          (List.subset_append_right _ _)
  | .boolOp op values, depth, p, hp => by
      have hd := not_deep_of_visited hp
      rw [visited, if_neg hd] at hp
      refine covered_of_visited (by rw [walk, if_neg hd]) (by rw [Node.subnodes]) ?_ hp
      exact fun q hq => (visitedNodes_covered context values _ q hq).mono
        (List.subset_append_left _ _) (List.Subset.refl _)
  | .unaryOp op operand, depth, p, hp => by
      have hd := not_deep_of_visited hp
      rw [visited, if_neg hd] at hp
      refine covered_of_visited (by rw [walk, if_neg hd]) (by rw [Node.subnodes]) ?_ hp
      intro q hq
      cases ht : unaryTable op with
      | none => rw [ht] at hq; cases hq
      | some function =>
          rw [ht] at hq
          exact (visited_covered context operand _ q hq).mono (List.subset_append_left _ _)
            (List.Subset.refl _)
  | .binOp op left right, depth, p, hp => by
      have hd := not_deep_of_visited hp
      rw [visited, if_neg hd] at hp
      refine covered_of_visited (by rw [walk, if_neg hd]) (by rw [Node.subnodes]) ?_ hp
      intro q hq
      cases ht : binaryTable op with
      | none => rw [ht] at hq; cases hq
      | some function =>
          rw [ht] at hq
          rcases List.mem_append.mp hq with hq | hq
          · exact (visited_covered context left _ q hq).mono (List.subset_append_left _ _)
              (List.subset_append_left _ _)
          · obtain ⟨l, hl, hq⟩ := mem_following.mp hq
            simp only [hl, following_ok]
            exact (visited_covered context right _ q hq).mono
              (List.Subset.trans (List.subset_append_left _ _) (List.subset_append_right _ _))
              (List.subset_append_right _ _)
  | .compare left links, depth, p, hp => by
      have hd := not_deep_of_visited hp
      rw [visited, if_neg hd] at hp
      refine covered_of_visited (by rw [walk, if_neg hd]) (by rw [Node.subnodes]) ?_ hp
      intro q hq
      rcases List.mem_append.mp hq with hq | hq
      · exact (visited_covered context left _ q hq).mono (List.subset_append_left _ _)
          (List.subset_append_left _ _)
      · obtain ⟨l, hl, hq⟩ := mem_following.mp hq
        rw [hl, following_ok]
        exact (visitedLinks_covered context links _ l q hq).mono
          (List.subset_append_right _ _) (List.subset_append_right _ _)
  | .list elts, depth, p, hp => by
      have hd := not_deep_of_visited hp
      rw [visited, if_neg hd] at hp
      refine covered_of_visited (by rw [walk, if_neg hd]) (by rw [Node.subnodes]) ?_ hp
      exact visitedNodes_covered context elts _
  | .tuple elts, depth, p, hp => by
      have hd := not_deep_of_visited hp
      rw [visited, if_neg hd] at hp
      refine covered_of_visited (by rw [walk, if_neg hd]) (by rw [Node.subnodes]) ?_ hp
      exact visitedNodes_covered context elts _
  | .unsupported kind children, depth, p, hp => by
      have hd := not_deep_of_visited hp
      rw [visited, if_neg hd] at hp
      exact covered_of_visited rfl (by rw [Node.subnodes]) (fun _ hq => by cases hq) hp

theorem visitedNodes_covered (context : Context (Value F)) :
    ∀ (nodes : List (Node (Value F))) (depth : Nat), ∀ p ∈ visitedNodes context depth nodes,
      Covered context (walkNodes context depth nodes) (subnodesAll nodes) p
  | [], _, _, hp => by cases hp
  | node :: nodes, depth, p, hp => by
      rw [visitedNodes] at hp
      rw [walkNodes, subnodesAll]
      rcases List.mem_append.mp hp with hp | hp
      · exact (visited_covered context node _ p hp).mono (List.subset_append_left _ _)
          (List.subset_append_left _ _)
      · obtain ⟨v, hv, hp⟩ := mem_following.mp hp
        rw [hv, following_ok]
        exact (visitedNodes_covered context nodes _ p hp).mono
          (List.subset_append_right _ _) (List.subset_append_right _ _)

theorem visitedLinks_covered (context : Context (Value F)) :
    ∀ (links : List (CmpOperator × Node (Value F))) (depth : Nat) (left : Value F),
      ∀ p ∈ visitedLinks context depth left links,
        Covered context (walkLinks context depth left links) (subnodesLinks links) p
  | [], _, _, _, hp => by cases hp
  | (op, comparator) :: links, depth, left, p, hp => by
      rw [visitedLinks] at hp
      rw [walkLinks, subnodesLinks]
      cases ht : compareTable op with
      | none => rw [ht] at hp; cases hp
      | some function =>
          rw [ht] at hp
          rcases List.mem_append.mp hp with hp | hp
          · exact (visited_covered context comparator _ p hp).mono
              (List.subset_append_left _ _) (List.subset_append_left _ _)
          · obtain ⟨right, hr, hp⟩ := mem_following.mp hp
            obtain ⟨b, hb, hp⟩ := mem_following.mp hp
            cases b with
            | false => cases hp
            | true =>
                simp only [hr, following_ok, hb, if_true]
                exact (visitedLinks_covered context links _ right p hp).mono
                  (List.Subset.trans (List.subset_cons_self _ _) (List.subset_append_right _ _))
                  (List.subset_append_right _ _)

end

end

/-! ## Where a binary operator is applied -/

section

variable {V : Type} [PyObject V]

/-- Among these visited nodes one is the binary operation, and its value is the operator's
result. -/
def AppliedIn (context : Context V) (nodes : List (Nat × Node V)) (op : Operator)
    (function : Binary) (l r : V) : Prop :=
  binaryTable op = some function ∧
    ∃ p ∈ nodes, evaluateNode context p.1 p.2 = applyBinary op function l r

theorem AppliedIn.mono {context : Context V} {nodes nodes' : List (Nat × Node V)}
    {op : Operator} {function : Binary} {l r : V} (h : AppliedIn context nodes op function l r)
    (hsub : nodes ⊆ nodes') : AppliedIn context nodes' op function l r :=
  ⟨h.1, h.2.imp fun _ hp => ⟨hsub hp.1, hp.2⟩⟩

mutual

/-- Every binary step of a walk is taken at a node it visits. -/
theorem walk_applied (context : Context V) {op : Operator} {function : Binary} {l r : V} :
    ∀ (node : Node V) (depth : Nat), .binary op function l r ∈ walk context depth node →
      AppliedIn context (visited context depth node) op function l r
  | node, depth, h => by
      by_cases hd : depth > MAX_DEPTH
      · rw [walk.eq_def, if_pos hd] at h
        cases h
      cases node with
      | expression body =>
          rw [walk, if_neg hd] at h
          rw [visited, if_neg hd]
          exact (walk_applied context body _ h).mono (List.subset_cons_self _ _)
      | constant value =>
          rw [walk, if_neg hd] at h
          cases h
      | name id =>
          rw [walk, if_neg hd] at h
          cases h
      | subscript value slice =>
          rw [walk, if_neg hd] at h
          rw [visited, if_neg hd]
          refine AppliedIn.mono ?_ (List.subset_cons_self _ _)
          rcases List.mem_append.mp h with h | h
          · exact (walk_applied context value _ h).mono (List.subset_append_left _ _)
          · obtain ⟨container, hc, h⟩ := mem_following.mp h
            rw [hc, following_ok]
            rcases List.mem_append.mp h with h | h
            · exact (walk_applied context slice _ h).mono (List.subset_append_right _ _)
            · obtain ⟨key, -, h⟩ := mem_following.mp h
              cases List.mem_singleton.mp h
      | boolOp op values =>
          rw [walk, if_neg hd] at h
          rw [visited, if_neg hd]
          refine AppliedIn.mono ?_ (List.subset_cons_self _ _)
          rcases List.mem_append.mp h with h | h
          · exact walkNodes_applied context values _ h
          · obtain ⟨vs, -, h⟩ := mem_following.mp h
            cases List.mem_singleton.mp h
      | unaryOp op operand =>
          rw [walk, if_neg hd] at h
          rw [visited, if_neg hd]
          refine AppliedIn.mono ?_ (List.subset_cons_self _ _)
          cases ht : unaryTable op with
          | none => rw [ht] at h; cases h
          | some function =>
              rw [ht] at h
              rcases List.mem_append.mp h with h | h
              · exact walk_applied context operand _ h
              · obtain ⟨v, -, h⟩ := mem_following.mp h
                cases List.mem_singleton.mp h
      | binOp op left right =>
          rw [walk, if_neg hd] at h
          cases ht : binaryTable op with
          | none => rw [ht] at h; cases h
          | some function =>
              rw [ht] at h
              rcases List.mem_append.mp h with h | h
              · rw [visited, if_neg hd, ht]
                exact (walk_applied context left _ h).mono
                  (List.Subset.trans (List.subset_append_left _ _) (List.subset_cons_self _ _))
              obtain ⟨x, hx, h⟩ := mem_following.mp h
              rcases List.mem_append.mp h with h | h
              · rw [visited, if_neg hd, ht]
                simp only [hx, following_ok]
                exact (walk_applied context right _ h).mono
                  (List.Subset.trans (List.subset_append_right _ _) (List.subset_cons_self _ _))
              -- The step of the node itself.
              obtain ⟨y, hy, h⟩ := mem_following.mp h
              cases List.mem_singleton.mp h
              refine ⟨ht, (depth, .binOp op left right), ?_, ?_⟩
              · rw [visited, if_neg hd]
                exact List.mem_cons_self
              · rw [evaluateNode, if_neg hd]
                simp only [ht, hx, hy, Except.ok_bind]
      | compare left links =>
          rw [walk, if_neg hd] at h
          rw [visited, if_neg hd]
          refine AppliedIn.mono ?_ (List.subset_cons_self _ _)
          rcases List.mem_append.mp h with h | h
          · exact (walk_applied context left _ h).mono (List.subset_append_left _ _)
          · obtain ⟨x, hx, h⟩ := mem_following.mp h
            rw [hx, following_ok]
            exact (walkLinks_applied context links _ x h).mono (List.subset_append_right _ _)
      | list elts =>
          rw [walk, if_neg hd] at h
          rw [visited, if_neg hd]
          exact (walkNodes_applied context elts _ h).mono (List.subset_cons_self _ _)
      | tuple elts =>
          rw [walk, if_neg hd] at h
          rw [visited, if_neg hd]
          exact (walkNodes_applied context elts _ h).mono (List.subset_cons_self _ _)
      | unsupported kind children =>
          rw [walk, if_neg hd] at h
          cases h

theorem walkNodes_applied (context : Context V) {op : Operator} {function : Binary} {l r : V} :
    ∀ (nodes : List (Node V)) (depth : Nat),
      .binary op function l r ∈ walkNodes context depth nodes →
        AppliedIn context (visitedNodes context depth nodes) op function l r
  | [], _, h => by cases h
  | node :: nodes, depth, h => by
      rw [walkNodes] at h
      rw [visitedNodes]
      rcases List.mem_append.mp h with h | h
      · exact (walk_applied context node _ h).mono (List.subset_append_left _ _)
      · obtain ⟨v, hv, h⟩ := mem_following.mp h
        rw [hv, following_ok]
        exact (walkNodes_applied context nodes _ h).mono (List.subset_append_right _ _)

theorem walkLinks_applied (context : Context V) {op : Operator} {function : Binary} {l r : V} :
    ∀ (links : List (CmpOperator × Node V)) (depth : Nat) (left : V),
      .binary op function l r ∈ walkLinks context depth left links →
        AppliedIn context (visitedLinks context depth left links) op function l r
  | [], _, _, h => by cases h
  | (op, comparator) :: links, depth, left, h => by
      rw [walkLinks] at h
      rw [visitedLinks]
      cases ht : compareTable op with
      | none => rw [ht] at h; cases h
      | some compare =>
          rw [ht] at h
          rcases List.mem_append.mp h with h | h
          · exact (walk_applied context comparator _ h).mono (List.subset_append_left _ _)
          obtain ⟨right, hr, h⟩ := mem_following.mp h
          rcases List.mem_cons.mp h with h | h
          · cases h
          obtain ⟨b, hb, h⟩ := mem_following.mp h
          cases b with
          | false => cases h
          | true =>
              simp only [hr, following_ok, hb, if_true]
              exact (walkLinks_applied context links _ right h).mono
                (List.subset_append_right _ _)

end

end

end YoutubeFactory.Workflow
