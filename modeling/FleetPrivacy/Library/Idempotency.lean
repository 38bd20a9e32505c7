import Mathlib.Data.List.Basic

/-!
# Servers that honour idempotency keys

A server performs the first request that it sees under a key, answers the same
request again without performing it, and refuses another request under the key.
If requests with one key are always the same request, then whatever arrives in
whatever order and however often, each request that arrives is performed once
and none is refused.
-/

namespace Idempotency

universe u v

inductive Answer where
  | performed
  | replayed
  | conflict
  deriving DecidableEq

variable {ρ : Type u} {κ : Type v} [DecidableEq ρ] [DecidableEq κ]

/-- One arrival, after the requests that were performed before. -/
def receive (key : ρ → κ) (done : List ρ) (request : ρ) : List ρ × Answer :=
  match done.find? fun earlier => decide (key earlier = key request) with
  | none => (done ++ [request], .performed)
  | some earlier =>
      (done, if earlier = request then .replayed else .conflict)

def receiveAll (key : ρ → κ) : List ρ → List ρ → List ρ × List Answer
  | done, [] => (done, [])
  | done, request :: later =>
      let (next, answer) := receive key done request
      let (final, answers) := receiveAll key next later
      (final, answer :: answers)

/-- A key names one request. -/
def Consistent (key : ρ → κ) (requests : List ρ) : Prop :=
  ∀ first ∈ requests, ∀ second ∈ requests, key first = key second →
    first = second

section Consistent

omit [DecidableEq ρ] [DecidableEq κ]

variable {key : ρ → κ} {done requests later : List ρ} {request : ρ}

theorem Consistent.subset {part : List ρ}
    (consistent : Consistent key requests) (fewer : part ⊆ requests) :
    Consistent key part :=
  fun first isFirst second isSecond =>
    consistent first (fewer isFirst) second (fewer isSecond)

/-- The next arrival and what was performed. -/
theorem Consistent.arrival
    (consistent : Consistent key (request :: later ++ done)) :
    Consistent key (request :: done) := by
  apply consistent.subset
  intro other member
  rcases List.mem_cons.mp member with rfl | inDone
  · exact List.mem_cons_self
  · exact List.mem_append_right _ inDone

theorem Consistent.performed
    (consistent : Consistent key (request :: later ++ done)) :
    Consistent key (later ++ (done ++ [request])) := by
  apply consistent.subset
  intro other member
  rcases List.mem_append.mp member with inLater | present
  · exact List.mem_cons_of_mem _ (List.mem_append_left _ inLater)
  · rcases List.mem_append.mp present with inDone | isRequest
    · exact List.mem_append_right _ inDone
    · rw [List.mem_singleton.mp isRequest]
      exact List.mem_cons_self

theorem Consistent.replayed
    (consistent : Consistent key (request :: later ++ done)) :
    Consistent key (later ++ done) :=
  consistent.subset fun _ => List.mem_cons_of_mem _

end Consistent

section Server

variable {key : ρ → κ} {done requests : List ρ} {request : ρ}

/-- An arrival is performed if its key is new, and is a replay otherwise. -/
theorem receive_cases (consistent : Consistent key (request :: done)) :
    key request ∉ done.map key ∧
        receive key done request = (done ++ [request], .performed) ∨
      request ∈ done ∧ receive key done request = (done, .replayed) := by
  unfold receive
  cases located : done.find? fun earlier =>
      decide (key earlier = key request) with
  | none =>
      left
      refine ⟨?_, rfl⟩
      intro known
      obtain ⟨earlier, member, same⟩ := List.mem_map.mp known
      have other := List.find?_eq_none.mp located earlier member
      exact other (decide_eq_true same)
  | some earlier =>
      have member := List.mem_of_find?_eq_some located
      have same : key earlier = key request := by
        simpa using List.find?_some located
      obtain rfl := consistent earlier (List.mem_cons_of_mem _ member) request
        List.mem_cons_self same
      exact .inr ⟨member, by simp⟩

/-- What arrives is performed, and nothing else. -/
theorem mem_receiveAll_iff
    (consistent : Consistent key (requests ++ done)) {entry : ρ} :
    entry ∈ (receiveAll key done requests).1 ↔
      entry ∈ done ∨ entry ∈ requests := by
  induction requests generalizing done with
  | nil => simp [receiveAll]
  | cons request later induction =>
      rw [receiveAll]
      dsimp only
      rcases receive_cases consistent.arrival with
        ⟨_, answered⟩ | ⟨known, answered⟩
      · rw [answered, induction consistent.performed, List.mem_append,
          List.mem_singleton, List.mem_cons, or_assoc]
      · rw [answered, induction consistent.replayed, List.mem_cons]
        constructor
        · rintro (inDone | inLater)
          · exact .inl inDone
          · exact .inr (.inr inLater)
        · rintro (inDone | rfl | inLater)
          · exact .inl inDone
          · exact .inl known
          · exact .inr inLater

/-- Each key is performed once. -/
theorem nodup_receiveAll (consistent : Consistent key (requests ++ done))
    (distinct : (done.map key).Nodup) :
    ((receiveAll key done requests).1.map key).Nodup := by
  induction requests generalizing done with
  | nil => exact distinct
  | cons request later induction =>
      rw [receiveAll]
      dsimp only
      rcases receive_cases consistent.arrival with
        ⟨fresh, answered⟩ | ⟨_, answered⟩
      · rw [answered]
        apply induction consistent.performed
        rw [List.map_append, List.nodup_append]
        refine ⟨distinct, by simp, ?_⟩
        intro first isFirst second isSecond same
        rw [List.map_singleton, List.mem_singleton] at isSecond
        rw [same, isSecond] at isFirst
        exact fresh isFirst
      · rw [answered]
        exact induction consistent.replayed distinct

/-- Nothing is refused. -/
theorem conflict_not_mem_receiveAll
    (consistent : Consistent key (requests ++ done)) :
    .conflict ∉ (receiveAll key done requests).2 := by
  induction requests generalizing done with
  | nil => exact List.not_mem_nil
  | cons request later induction =>
      rw [receiveAll]
      dsimp only
      rcases receive_cases consistent.arrival with
        ⟨_, answered⟩ | ⟨_, answered⟩
      · rw [answered, List.mem_cons, not_or]
        exact ⟨Answer.noConfusion, induction consistent.performed⟩
      · rw [answered, List.mem_cons, not_or]
        exact ⟨Answer.noConfusion, induction consistent.replayed⟩

end Server

end Idempotency
