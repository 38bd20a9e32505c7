import Mathlib.Data.List.Basic

/-!
# Backlogs served in batches from the head

A pass takes the first `size` jobs and completes those that do not fail; the
others stay where they are, and new jobs come in behind.  When the same jobs
fail in every pass, they gather at the head: `stuck` is the part of a backlog
that no number of passes completes.
-/

namespace Backlog

universe u

variable {α : Type u} (size : Nat) (fails : α → Bool)

/-- What one pass leaves. -/
def pass (backlog : List α) : List α :=
  (backlog.take size).filter fails ++ backlog.drop size

/-- What is left for ever: jobs that fail, and everything behind `size` of
them. -/
def stuck : Nat → List α → List α
  | 0, backlog => backlog
  | _ + 1, [] => []
  | room + 1, job :: backlog =>
      if fails job then job :: stuck room backlog
      else stuck (room + 1) backlog

/-- Passes with arrivals after each of them. -/
def serve : List (List α) → List α → List α
  | [], backlog => backlog
  | arrivals :: rest, backlog =>
      serve rest (pass size fails backlog ++ arrivals)

section Stuck

variable {fails}

theorem stuck_nil (room : Nat) : stuck fails room [] = [] := by
  cases room with
  | zero => rfl
  | succ room => rfl

/-- The jobs behind see the room that the failing ones leave. -/
theorem stuck_append (room : Nat) (front back : List α) :
    stuck fails room (front ++ back) =
      stuck fails room front ++
        stuck fails (room - front.countP fails) back := by
  induction front generalizing room with
  | nil => simp [stuck_nil]
  | cons job front induction =>
      cases room with
      | zero => simp [stuck]
      | succ room =>
          by_cases failing : fails job = true
          · simp only [List.cons_append, stuck, failing, if_true,
              List.countP_cons_of_pos, induction room,
              Nat.add_sub_add_right]
          · simp only [List.cons_append, stuck, failing,
              Bool.false_eq_true, if_false, List.countP_cons_of_neg,
              not_false_eq_true, induction (room + 1)]

/-- Failing jobs stay. -/
theorem stuck_filter (room : Nat) (backlog : List α) :
    stuck fails room (backlog.filter fails) = backlog.filter fails := by
  induction backlog generalizing room with
  | nil => exact stuck_nil room
  | cons job backlog induction =>
      by_cases failing : fails job = true
      · rw [List.filter_cons_of_pos failing]
        cases room with
        | zero => rfl
        | succ room => rw [stuck, if_pos failing, induction room]
      · rw [List.filter_cons_of_neg failing, induction room]

theorem stuck_eq_filter {room : Nat} {backlog : List α}
    (enough : backlog.length ≤ room) :
    stuck fails room backlog = backlog.filter fails := by
  induction backlog generalizing room with
  | nil => exact stuck_nil room
  | cons job backlog induction =>
      cases room with
      | zero => simp at enough
      | succ room =>
          rw [List.length_cons] at enough
          by_cases failing : fails job = true
          · rw [stuck, if_pos failing, List.filter_cons_of_pos failing,
              induction (by omega)]
          · rw [stuck, if_neg failing, List.filter_cons_of_neg failing,
              induction (by omega)]

/-- A pass leaves what is stuck. -/
theorem stuck_pass (backlog : List α) :
    stuck fails size (pass size fails backlog) = stuck fails size backlog := by
  have whole : stuck fails size backlog = stuck fails size
      (backlog.take size ++ backlog.drop size) := by
    rw [List.take_append_drop]
  rw [whole, pass, stuck_append, stuck_append, stuck_filter,
    stuck_eq_filter (List.length_take_le size backlog), List.countP_filter]
  simp only [Bool.and_self]

theorem stuck_subset (room : Nat) (backlog : List α) :
    stuck fails room backlog ⊆ backlog := by
  induction backlog generalizing room with
  | nil =>
      rw [stuck_nil]
      exact List.Subset.refl []
  | cons job backlog induction =>
      cases room with
      | zero => exact List.Subset.refl _
      | succ room =>
          intro other member
          rw [stuck] at member
          split at member
          next =>
            rcases List.mem_cons.mp member with rfl | later
            · exact List.mem_cons_self
            · exact List.mem_cons_of_mem job (induction room later)
          next => exact List.mem_cons_of_mem job (induction _ member)

/-- A job is stuck if it fails, or if `size` failing jobs are ahead of it. -/
theorem mem_stuck_iff {ahead behind : List α} {job : α} (isNew : job ∉ ahead)
    (single : job ∉ behind) :
    job ∈ stuck fails size (ahead ++ job :: behind) ↔
      fails job = true ∨ size ≤ ahead.countP fails := by
  rw [stuck_append, List.mem_append]
  constructor
  · rintro (front | back)
    · exact absurd (stuck_subset size ahead front) isNew
    · cases room : size - ahead.countP fails with
      | zero => exact .inr (by omega)
      | succ left =>
          rw [room, stuck] at back
          split at back
          next failing => exact .inl failing
          next => exact absurd (stuck_subset _ behind back) single
  · intro blocked
    right
    cases room : size - ahead.countP fails with
    | zero => exact List.mem_cons_self
    | succ left =>
        have failing : fails job = true := by
          rcases blocked with failing | full
          · exact failing
          · omega
        rw [stuck, if_pos failing]
        exact List.mem_cons_self

end Stuck

/-! ## Passes with arrivals -/

section Serve

variable {size fails}

theorem pass_subset (backlog : List α) : pass size fails backlog ⊆ backlog := by
  intro job member
  rcases List.mem_append.mp member with front | back
  · exact List.mem_of_mem_take (List.mem_of_mem_filter front)
  · exact List.mem_of_mem_drop back

/-- What is stuck stays, whatever comes in. -/
theorem mem_serve_of_stuck {passes : List (List α)} {backlog : List α}
    {job : α} (blocked : job ∈ stuck fails size backlog) :
    job ∈ serve size fails passes backlog := by
  induction passes generalizing backlog with
  | nil => exact stuck_subset size backlog blocked
  | cons arrivals passes induction =>
      apply induction
      rw [stuck_append, stuck_pass]
      exact List.mem_append_left _ blocked

/-- A job that is gone does not come back. -/
theorem not_mem_serve {passes : List (List α)} {backlog : List α} {job : α}
    (gone : job ∉ backlog) (fresh : ∀ arrivals ∈ passes, job ∉ arrivals) :
    job ∉ serve size fails passes backlog := by
  induction passes generalizing backlog with
  | nil => exact gone
  | cons arrivals passes induction =>
      apply induction
      · rw [List.mem_append, not_or]
        exact ⟨fun member => gone (pass_subset backlog member),
          fresh arrivals List.mem_cons_self⟩
      · exact fun later member => fresh later (List.mem_cons_of_mem _ member)

theorem countP_pass (backlog : List α) :
    (pass size fails backlog).countP fails = backlog.countP fails := by
  rw [pass, List.countP_append, List.countP_filter]
  simp only [Bool.and_self]
  rw [← List.countP_append, List.take_append_drop]

/-- A pass that meets a job that does not fail makes the backlog shorter. -/
theorem length_pass_lt {backlog : List α} (long : size ≤ backlog.length)
    (some_ : backlog.countP fails < size) :
    (pass size fails backlog).length < backlog.length := by
  have fewer : (backlog.take size).countP fails ≤ backlog.countP fails :=
    (List.take_sublist size backlog).countP_le
  rw [pass, List.length_append, ← List.countP_eq_length_filter,
    List.length_drop]
  omega

/-- A job with less than `size` failing ones ahead is completed after as many
passes as jobs are ahead, and one more. -/
theorem not_mem_serve_of_few {passes : List (List α)} {ahead behind : List α}
    {job : α} (few : ahead.countP fails < size) (works : fails job = false)
    (isNew : job ∉ ahead) (single : job ∉ behind)
    (fresh : ∀ arrivals ∈ passes, job ∉ arrivals)
    (enough : ahead.length < passes.length) :
    job ∉ serve size fails passes (ahead ++ job :: behind) := by
  induction passes generalizing ahead behind with
  | nil => exact absurd enough (Nat.not_lt_zero _)
  | cons arrivals passes induction =>
      have notArriving := fresh arrivals List.mem_cons_self
      have later : ∀ arrivals ∈ passes, job ∉ arrivals :=
        fun arrivals member => fresh arrivals (List.mem_cons_of_mem _ member)
      rw [List.length_cons] at enough
      rw [serve]
      by_cases reached : ahead.length < size
      · -- the job is in the batch
        apply not_mem_serve ?_ later
        obtain ⟨room, split⟩ : ∃ room, size = ahead.length + (room + 1) :=
          ⟨size - ahead.length - 1, by omega⟩
        have left : pass size fails (ahead ++ job :: behind) =
            ahead.filter fails ++ pass room fails behind := by
          rw [pass, pass, split, List.take_length_add_append,
            List.drop_length_add_append, List.take_succ_cons,
            List.drop_succ_cons, List.filter_append,
            List.filter_cons_of_neg (by simp [works]), List.append_assoc]
        rw [left]
        simp only [List.mem_append, not_or]
        exact ⟨⟨fun member => isNew (List.mem_of_mem_filter member),
          fun member => single (pass_subset behind member)⟩, notArriving⟩
      · have whole : pass size fails (ahead ++ job :: behind) ++ arrivals =
            pass size fails ahead ++ job :: (behind ++ arrivals) := by
          rw [pass, pass, List.take_append_of_le_length (by omega),
            List.drop_append_of_le_length (by omega)]
          simp only [List.append_assoc, List.cons_append]
        have shorter := length_pass_lt (Nat.le_of_not_lt reached) few
        rw [whole]
        apply induction
        · rw [countP_pass]
          exact few
        · exact fun member => isNew (pass_subset ahead member)
        · rw [List.mem_append, not_or]
          exact ⟨single, notArriving⟩
        · exact later
        · omega

/-- Which jobs enough passes complete. -/
theorem not_mem_serve_iff {passes : List (List α)} {ahead behind : List α}
    {job : α} (isNew : job ∉ ahead) (single : job ∉ behind)
    (fresh : ∀ arrivals ∈ passes, job ∉ arrivals)
    (enough : ahead.length < passes.length) :
    job ∉ serve size fails passes (ahead ++ job :: behind) ↔
      fails job = false ∧ ahead.countP fails < size := by
  constructor
  · intro gone
    have free := mt mem_serve_of_stuck gone
    rw [mem_stuck_iff size isNew single, not_or, Nat.not_le] at free
    exact ⟨Bool.eq_false_iff.mpr free.1, free.2⟩
  · rintro ⟨works, few⟩
    exact not_mem_serve_of_few few works isNew single fresh enough

end Serve

end Backlog
