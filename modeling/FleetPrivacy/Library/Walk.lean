import Mathlib.Data.List.Basic

/-!
# Walks in a tree of names

A place in the tree is the list of names that lead to it.  A step goes to the
parent, or into a name; the root is its own parent.  What a walk does does not
depend on where it starts: it climbs some levels and then descends.
-/

namespace Walk

universe u

variable {α : Type u}

/-! ## Courses -/

/-- The levels that a walk climbs above its start, and its way down. -/
structure Course (α : Type u) where
  climb : Nat
  descent : List α
  deriving DecidableEq, Repr

/-- Where a course leads from a place. -/
def Course.follow (course : Course α) (place : List α) : List α :=
  place.take (place.length - course.climb) ++ course.descent

/-- A course ends at or below its start when it comes down the way that it
climbed. -/
theorem Course.prefix_follow_iff (course : Course α) (place : List α) :
    place <+: course.follow place ↔
      place.drop (place.length - course.climb) <+: course.descent := by
  have split : place.take (place.length - course.climb) ++
      place.drop (place.length - course.climb) = place :=
    List.take_append_drop _ _
  unfold Course.follow
  conv_lhs => lhs; rw [← split]
  exact List.prefix_append_right_inj _

theorem Course.follow_root (course : Course α) :
    course.follow [] = course.descent := by
  simp [follow]

/-! ## Walks -/

variable [DecidableEq α] {parent : α}

/-- One step; `parent` is the name of the step upwards. -/
def enter (parent : α) (place : List α) (step : α) : List α :=
  if step = parent then place.dropLast else place ++ [step]

def walk (parent : α) (place steps : List α) : List α :=
  steps.foldl (enter parent) place

/-- One more step at the end of a course. -/
def Course.extend (parent : α) (course : Course α) (step : α) : Course α :=
  if step = parent then
    if course.descent = [] then { course with climb := course.climb + 1 }
    else { course with descent := course.descent.dropLast }
  else { course with descent := course.descent ++ [step] }

def course (parent : α) (steps : List α) : Course α :=
  steps.foldl (Course.extend parent) ⟨0, []⟩

theorem Course.follow_extend (course : Course α) (step : α) (place : List α) :
    (course.extend parent step).follow place =
      enter parent (course.follow place) step := by
  unfold Course.extend enter
  split
  next =>
    split
    next level =>
      simp only [follow, level, List.append_nil]
      rw [List.dropLast_eq_take, List.take_take, List.length_take]
      congr 1
      omega
    next below => exact (List.dropLast_append_of_ne_nil below).symm
  next => exact (List.append_assoc _ _ _).symm

/-- A walk from any place follows its course. -/
theorem walk_eq_follow (place steps : List α) :
    walk parent place steps = (course parent steps).follow place := by
  have general : ∀ taken : Course α,
      steps.foldl (enter parent) (taken.follow place) =
        (steps.foldl (Course.extend parent) taken).follow place := by
    induction steps with
    | nil =>
        intro taken
        rfl
    | cons step steps induction =>
        intro taken
        rw [List.foldl_cons, List.foldl_cons, ← Course.follow_extend]
        exact induction (taken.extend parent step)
  have start : (Course.mk 0 []).follow place = place := by
    simp [Course.follow]
  calc walk parent place steps
      = steps.foldl (enter parent) ((Course.mk 0 []).follow place) := by
        rw [start]
        rfl
    _ = (course parent steps).follow place := general ⟨0, []⟩

end Walk
