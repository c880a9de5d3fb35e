import YoutubeFactory.Lib.Budget
import YoutubeFactory.LlmCore.Messages
import Mathlib.Data.List.Induction

/-!
# The window of a conversation

`WindowMemory` of `app/core/llm/memory.py` and the estimate of `tokenizer.py`.  `trim`
walks the messages from the newest to the oldest and adds up an estimate for each of
them, so what it keeps is the newest message with what `Budget.within` takes after it.
The estimate of a list divides its characters by four once.  The estimates of its
messages round each of them, so they may add up to less.

The summarizer is a parameter.  It runs in any monad, where it may raise.
-/

namespace YoutubeFactory.LlmCore

variable {A : Type}

/-! ## The estimates -/

/-- `_CHARS_PER_TOKEN` -/
def charsPerToken : Nat := 4

/-- `heuristic_token_count` -/
def heuristicTokenCount (request : ChatRequest A) : Nat :=
  let chars := (request.system.getD "").length +
    (request.messages.map fun message => message.content.length).sum
  max (chars / charsPerToken) 1

/-- `estimate_messages_tokens` -/
def estimateMessagesTokens (messages : List (Message A)) (system : Option String) : Nat :=
  heuristicTokenCount
    { messages, model := "", maxTokens := 4096, system, temperature := none, topP := none,
      topK := none, stopSequences := [], tools := [], thinking := true, responseSchema := none }

/-- The estimate of a message on its own. -/
def messageTokens (message : Message A) : Nat := estimateMessagesTokens [message] none

/-- The estimates of the system prompt and of each message, added up. -/
def separateTokens (messages : List (Message A)) (system : Option String) : Nat :=
  estimateMessagesTokens ([] : List (Message A)) system + (messages.map messageTokens).sum

/-- A part of a list is not estimated at more than the list. -/
theorem estimateMessagesTokens_le {messages more : List (Message A)} {system : Option String}
    (h : messages <:+ more) :
    estimateMessagesTokens messages system ≤ estimateMessagesTokens more system := by
  obtain ⟨older, rfl⟩ := h
  simp only [estimateMessagesTokens, heuristicTokenCount, List.map_append, List.sum_append]
  refine max_le_max_right 1 (Nat.div_le_div_right ?_)
  omega

theorem separateTokens_reverse (messages : List (Message A)) (system : Option String) :
    separateTokens messages.reverse system = separateTokens messages system := by
  rw [separateTokens, List.map_reverse, List.sum_reverse, separateTokens]

/-! ## The window -/

/-- The loop of `trim`: `kept` holds the messages that were taken, the newest first, and
`total` their estimates. -/
def trimLoop (maxTokens : Int) (kept : List (Message A)) (total : Nat) :
    List (Message A) → List (Message A)
  | [] => kept
  | message :: older =>
      let cost := messageTokens message
      if (total + cost : Nat) > maxTokens ∧ kept ≠ [] then kept
      else trimLoop maxTokens (kept ++ [message]) (total + cost) older

/-- `WindowMemory.trim` -/
def trim (maxTokens : Int) (messages : List (Message A)) (system : Option String) :
    List (Message A) :=
  (trimLoop maxTokens [] (estimateMessagesTokens ([] : List (Message A)) system)
    messages.reverse).reverse

/-- The message that stands for the older ones. -/
def summaryMessage (summary : String) : Message A :=
  { role := .system, content := "Summary of earlier conversation:\n" ++ summary, toolCalls := [],
    toolResults := [] }

/-- `WindowMemory.compress` -/
def compress {m : Type → Type} [Monad m] (maxTokens : Int)
    (summarizer : Option (List (Message A) → m String)) (messages : List (Message A))
    (system : Option String) : m (List (Message A)) :=
  let fitting := trim maxTokens messages system
  match summarizer with
  | none => pure fitting
  | some summarize =>
      if fitting.length = messages.length then pure fitting
      else do
        let overflow := messages.take (messages.length - fitting.length)
        let summary ← summarize overflow
        pure (summaryMessage summary :: fitting)

/-! ## What is kept -/

variable {maxTokens : Int} {messages : List (Message A)} {system : Option String}

/-- After the first message the loop takes what the budget allows. -/
theorem trimLoop_eq {kept : List (Message A)} (hkept : kept ≠ []) (total : Nat)
    (older : List (Message A)) :
    trimLoop maxTokens kept total older =
      kept ++ Budget.within messageTokens maxTokens total older := by
  induction older generalizing kept total with
  | nil => exact (List.append_nil kept).symm
  | cons message older ih =>
      rw [trimLoop, Budget.within]
      by_cases hover : (total + messageTokens message : Nat) > maxTokens
      · rw [if_pos ⟨hover, hkept⟩, if_pos hover, List.append_nil]
      · rw [if_neg fun h => hover h.1, if_neg hover, ih (by simp), List.append_assoc]
        rfl

@[simp] theorem trim_nil : trim maxTokens ([] : List (Message A)) system = [] := rfl

/-- The newest message is kept, and as many of the others as the budget allows. -/
theorem trim_concat (older : List (Message A)) (newest : Message A) :
    trim maxTokens (older ++ [newest]) system =
      (newest :: Budget.within messageTokens maxTokens
        (estimateMessagesTokens ([] : List (Message A)) system + messageTokens newest)
        older.reverse).reverse := by
  rw [trim, List.reverse_concat, trimLoop, if_neg fun h => h.2 rfl, List.nil_append,
    trimLoop_eq (List.cons_ne_nil newest []), List.singleton_append]

theorem trim_suffix : trim maxTokens messages system <:+ messages := by
  induction messages using List.reverseRecOn with
  | nil => exact List.suffix_rfl
  | append_singleton older newest _ =>
      rw [trim_concat, ← List.reverse_prefix, List.reverse_reverse, List.reverse_concat]
      exact (List.prefix_cons_inj newest).mpr Budget.within_prefix

theorem getLast?_trim : (trim maxTokens messages system).getLast? = messages.getLast? := by
  induction messages using List.reverseRecOn with
  | nil => rfl
  | append_singleton older newest _ =>
      rw [trim_concat, List.reverse_cons, List.getLast?_concat, List.getLast?_concat]

/-- What is kept is within the budget by its separate estimates, a single message apart. -/
theorem separateTokens_trim_le (h : 2 ≤ (trim maxTokens messages system).length) :
    (separateTokens (trim maxTokens messages system) system : Nat) ≤ maxTokens := by
  induction messages using List.reverseRecOn with
  | nil => simp at h
  | append_singleton older newest _ =>
      rw [trim_concat] at h ⊢
      rw [List.length_reverse, List.length_cons] at h
      rw [separateTokens_reverse, separateTokens, List.map_cons, List.sum_cons, ← Nat.add_assoc]
      refine Budget.within_le fun hnone => ?_
      rw [hnone] at h
      simp at h

/-- Every part that ends with the newest message and is within the budget is kept. -/
theorem suffix_trim {part : List (Message A)} (hsuffix : part <:+ messages)
    (hle : (separateTokens part system : Nat) ≤ maxTokens) :
    part <:+ trim maxTokens messages system := by
  induction messages using List.reverseRecOn with
  | nil => exact hsuffix
  | append_singleton older newest _ =>
      induction part using List.reverseRecOn with
      | nil => exact List.nil_suffix
      | append_singleton part last _ =>
          rw [← List.reverse_prefix, List.reverse_concat, List.reverse_concat,
            List.cons_prefix_cons] at hsuffix
          obtain ⟨rfl, hstart⟩ := hsuffix
          rw [← separateTokens_reverse, separateTokens, List.reverse_concat, List.map_cons,
            List.sum_cons, ← Nat.add_assoc] at hle
          rw [trim_concat, ← List.reverse_prefix, List.reverse_reverse, List.reverse_concat]
          exact (List.prefix_cons_inj last).mpr (Budget.prefix_within hstart hle)

/-! ## What is summarized -/

section

variable {m : Type → Type} [Monad m] {dropped : List (Message A)}

/-- Nothing is asked of the summarizer if nothing was dropped. -/
theorem compress_of_all (summarizer : Option (List (Message A) → m String))
    (h : trim maxTokens messages system = messages) :
    compress maxTokens summarizer messages system = pure messages := by
  cases summarizer with
  | none => exact congrArg pure h
  | some summarize =>
      simp only [compress]
      rw [h, if_pos rfl]

/-- The summarizer gets what was dropped, and the summary stands before what was kept. -/
theorem compress_of_dropped (summarize : List (Message A) → m String) (hdropped : dropped ≠ [])
    (h : messages = dropped ++ trim maxTokens messages system) :
    compress maxTokens (some summarize) messages system =
      summarize dropped >>= fun summary =>
        pure (summaryMessage summary :: trim maxTokens messages system) := by
  have hlength : messages.length = dropped.length + (trim maxTokens messages system).length :=
    (congrArg List.length h).trans List.length_append
  have hpos : 0 < dropped.length := List.length_pos_iff.mpr hdropped
  have hne : (trim maxTokens messages system).length ≠ messages.length := by omega
  have htake : messages.take (messages.length - (trim maxTokens messages system).length) =
      dropped := by
    rw [hlength, Nat.add_sub_cancel]
    conv_lhs => rw [h]
    exact List.take_left
  simp only [compress]
  rw [if_neg hne, htake]

end

/-- What the window promises for a conversation. -/
structure KeepsFittingSuffix (maxTokens : Int) (messages : List (Message A))
    (system : Option String) : Prop where
  suffix : trim maxTokens messages system <:+ messages
  last : (trim maxTokens messages system).getLast? = messages.getLast?
  fits : (trim maxTokens messages system).length ≠ 1 →
    (estimateMessagesTokens (trim maxTokens messages system) system : Nat) ≤ maxTokens
  unsummarized : ∀ {m : Type → Type} [Monad m] (summarizer : Option (List (Message A) → m String)),
    trim maxTokens messages system = messages ∨ summarizer = none →
      compress maxTokens summarizer messages system = pure (trim maxTokens messages system)
  summarized : ∀ {m : Type → Type} [Monad m] (summarize : List (Message A) → m String)
    (dropped : List (Message A)), dropped ≠ [] →
    messages = dropped ++ trim maxTokens messages system →
      compress maxTokens (some summarize) messages system =
        summarize dropped >>= fun summary =>
          pure (summaryMessage summary :: trim maxTokens messages system)

/-- The window keeps a suffix that fits if and only if the estimate of the whole holds wherever
the separate estimates of two or more messages do, and the system prompt fits if there are no
messages at all. -/
theorem keepsFittingSuffix_iff (maxTokens : Int) (messages : List (Message A))
    (system : Option String) :
    KeepsFittingSuffix maxTokens messages system ↔
      (messages = [] → (estimateMessagesTokens messages system : Nat) ≤ maxTokens) ∧
        ∀ part, part <:+ messages → 2 ≤ part.length →
          (separateTokens part system : Nat) ≤ maxTokens →
          (estimateMessagesTokens part system : Nat) ≤ maxTokens := by
  constructor
  · intro h
    refine ⟨fun hnone => ?_, fun part hsuffix htwo hle => ?_⟩
    · subst hnone
      exact h.fits Nat.zero_ne_one
    · have hkept : part <:+ trim maxTokens messages system := suffix_trim hsuffix hle
      have hlength := hkept.length_le
      have hall := h.fits (by omega)
      have hpart := @estimateMessagesTokens_le A _ _ system hkept
      omega
  · rintro ⟨hempty, hparts⟩
    refine ⟨trim_suffix, getLast?_trim, fun hone => ?_, fun summarizer h => ?_,
      fun summarize dropped => compress_of_dropped summarize⟩
    · by_cases htwo : 2 ≤ (trim maxTokens messages system).length
      · exact hparts _ trim_suffix htwo (separateTokens_trim_le htwo)
      · have hnil : trim maxTokens messages system = [] :=
          List.length_eq_zero_iff.mp (by omega)
        have hnone : messages = [] := by
          rw [← List.getLast?_eq_none_iff, ← @getLast?_trim A maxTokens messages system, hnil]
          rfl
        subst hnone
        exact hempty rfl
    · rcases h with hall | rfl
      · rw [compress_of_all summarizer hall, hall]
      · rfl

/-- Five messages of seven characters are estimated at one token each and at eight together. -/
theorem not_keepsFittingSuffix_five :
    ¬ KeepsFittingSuffix 6 (List.replicate 5 (Message.user (A := Unit) "seven 7")) none := by
  intro h
  have hfits := h.fits (by decide)
  revert hfits
  decide

end YoutubeFactory.LlmCore
