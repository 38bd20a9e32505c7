import Mathlib.Data.List.Basic

/-!
# Words around a separator

Two texts that are put together with a separator between them can be told
apart again when the second one is free of it, whatever the first one holds.
-/

namespace Separated

universe u

variable {α : Type u} [DecidableEq α] {separator : α}

/-- What follows the last separator is determined. -/
theorem last_unique {front other left right : List α}
    (same : front ++ separator :: left = other ++ separator :: right)
    (leftPlain : separator ∉ left) (rightPlain : separator ∉ right) :
    left = right := by
  have divided := congrArg (List.splitOn separator) same
  rw [List.splitOn_append_cons_self, List.splitOn_append_cons_self,
    List.splitOn_eq_singleton leftPlain,
    List.splitOn_eq_singleton rightPlain] at divided
  exact List.singleton_inj.mp (List.append_inj_right' divided rfl)

/-- So is what precedes it. -/
theorem front_unique {front other left right : List α}
    (same : front ++ separator :: left = other ++ separator :: right)
    (leftPlain : separator ∉ left) (rightPlain : separator ∉ right) :
    front = other := by
  have last := last_unique same leftPlain rightPlain
  subst last
  exact List.append_cancel_right same

end Separated
