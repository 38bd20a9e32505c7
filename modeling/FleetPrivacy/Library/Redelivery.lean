import Mathlib.Data.List.Basic

/-!
# Redelivery of unacknowledged messages

A queue adapter is used by publishing, receiving and acknowledging messages,
while visibility timeouts run out.  Its consumers rely on one contract: a
message that was delivered and not acknowledged is delivered again without
being published again.  A first-in first-out queue without timeouts keeps it
for further copies only.
-/

namespace Redelivery

universe u v w x

inductive Move (μ : Type u) (η : Type v) where
  | publish (message : μ)
  | receive (limit : Nat)
  | acknowledge (handle : η)
  /-- The visibility timeout of a delivered message runs out. -/
  | timeout (handle : η)

variable {μ : Type u} {η : Type v} {σ : Type w} {τ : Type x}

def Move.published : Move μ η → List μ
  | .publish message => [message]
  | .receive _ | .acknowledge _ | .timeout _ => []

def Move.acknowledged : Move μ η → List η
  | .acknowledge handle => [handle]
  | .publish _ | .receive _ | .timeout _ => []

def published (moves : List (Move μ η)) : List μ :=
  moves.flatMap Move.published

def acknowledged (moves : List (Move μ η)) : List η :=
  moves.flatMap Move.acknowledged

/-- What a queue does, and what it hands to the receiver. -/
structure Adapter (σ : Type w) (μ : Type u) (η : Type v) where
  initial : σ
  handle : μ → η
  perform : σ → Move μ η → σ × List μ

namespace Adapter

def after (adapter : Adapter σ μ η) : σ → List (Move μ η) → σ
  | state, [] => state
  | state, move :: moves => adapter.after (adapter.perform state move).1 moves

def deliveries (adapter : Adapter σ μ η) : σ → List (Move μ η) → List μ
  | _, [] => []
  | state, move :: moves =>
      (adapter.perform state move).2 ++
        adapter.deliveries (adapter.perform state move).1 moves

/-- The message is delivered at some time, though nothing is published. -/
def Redelivers (adapter : Adapter σ μ η) (state : σ) (message : μ) : Prop :=
  ∃ moves, published moves = [] ∧ message ∈ adapter.deliveries state moves

/-- What was delivered and not acknowledged will be delivered again. -/
def KeepsContract (adapter : Adapter σ μ η) (moves : List (Move μ η)) : Prop :=
  ∀ message ∈ adapter.deliveries adapter.initial moves,
    adapter.handle message ∉ acknowledged moves →
    adapter.Redelivers (adapter.after adapter.initial moves) message

/-- The second adapter is the first one, seen through a projection. -/
structure Projects (first : Adapter σ μ η) (second : Adapter τ μ η)
    (project : σ → τ) : Prop where
  initial : project first.initial = second.initial
  handle : first.handle = second.handle
  perform : ∀ state move, second.perform (project state) move =
    (project (first.perform state move).1, (first.perform state move).2)

namespace Projects

variable {first : Adapter σ μ η} {second : Adapter τ μ η} {project : σ → τ}

theorem after (projects : first.Projects second project) (state : σ)
    (moves : List (Move μ η)) :
    second.after (project state) moves = project (first.after state moves) := by
  induction moves generalizing state with
  | nil => rfl
  | cons move moves induction =>
      rw [Adapter.after, projects.perform]
      exact induction _

theorem deliveries (projects : first.Projects second project) (state : σ)
    (moves : List (Move μ η)) :
    second.deliveries (project state) moves = first.deliveries state moves := by
  induction moves generalizing state with
  | nil => rfl
  | cons move moves induction =>
      rw [Adapter.deliveries, projects.perform, Adapter.deliveries]
      exact congrArg _ (induction _)

theorem redelivers_iff (projects : first.Projects second project) (state : σ)
    (message : μ) :
    second.Redelivers (project state) message ↔
      first.Redelivers state message := by
  unfold Redelivers
  simp only [projects.deliveries]

theorem keepsContract_iff (projects : first.Projects second project)
    (moves : List (Move μ η)) :
    second.KeepsContract moves ↔ first.KeepsContract moves := by
  unfold KeepsContract
  rw [← projects.initial, ← projects.handle, projects.deliveries,
    projects.after]
  simp only [projects.redelivers_iff]

end Projects

end Adapter

/-! ## First in, first out -/

/-- A received message is gone. -/
def fifo (handle : μ → η) : Adapter (List μ) μ η where
  initial := []
  handle
  perform
    | messages, .publish message => (messages ++ [message], [])
    | messages, .receive limit => (messages.drop limit, messages.take limit)
    | messages, .acknowledge _ => (messages, [])
    | messages, .timeout _ => (messages, [])

section Fifo

variable {handle : μ → η}

/-- Nothing is lost before it is received, and nothing is delivered twice. -/
theorem fifo_conserves (handle : μ → η) (messages : List μ)
    (moves : List (Move μ η)) :
    (fifo handle).deliveries messages moves ++
      (fifo handle).after messages moves = messages ++ published moves := by
  induction moves generalizing messages with
  | nil => exact (List.append_nil messages).symm
  | cons move moves induction =>
      rw [Adapter.deliveries, Adapter.after, List.append_assoc, induction]
      cases move with
      | publish message => simp [fifo, published, Move.published]
      | receive limit =>
          rw [← List.append_assoc]
          exact congrArg (· ++ _) (List.take_append_drop limit messages)
      | acknowledge handle => rfl
      | timeout handle => rfl

theorem fifo_redelivers_iff {messages : List μ} {message : μ} :
    (fifo handle).Redelivers messages message ↔ message ∈ messages := by
  constructor
  · rintro ⟨moves, nothing, member⟩
    have conserved := fifo_conserves handle messages moves
    rw [nothing, List.append_nil] at conserved
    rw [← conserved]
    exact List.mem_append_left _ member
  · intro member
    refine ⟨[.receive messages.length], rfl, ?_⟩
    simpa [Adapter.deliveries, fifo] using member

/-- Another copy has to be published for each delivery. -/
theorem fifo_keepsContract_iff [DecidableEq μ] (moves : List (Move μ η)) :
    (fifo handle).KeepsContract moves ↔
      ∀ message ∈ (fifo handle).deliveries [] moves,
        handle message ∉ acknowledged moves →
        ((fifo handle).deliveries [] moves).count message <
          (published moves).count message := by
  have copies : ∀ message, message ∈ (fifo handle).after [] moves ↔
      ((fifo handle).deliveries [] moves).count message <
        (published moves).count message := by
    intro message
    have conserved := congrArg (List.count message)
      (fifo_conserves handle [] moves)
    rw [List.count_append, List.nil_append] at conserved
    rw [← List.count_pos_iff]
    omega
  unfold Adapter.KeepsContract
  simp only [fifo_redelivers_iff]
  constructor
  · intro keeps message delivered unacknowledged
    exact (copies message).mp (keeps message delivered unacknowledged)
  · intro counts message delivered unacknowledged
    exact (copies message).mpr (counts message delivered unacknowledged)

end Fifo

end Redelivery
