import Mathlib.Data.List.Nodup
import Mathlib.Data.List.Sort

/-!
# Pages by offset over a changing table

A client reads page after page, each at the offset behind the last one, while
rows come into the table.  A row whose position only grows is not passed over,
and one whose position stays is read once.
-/

namespace Paging

universe u v

variable {α : Type u} {κ : Type v}

/-- `LIMIT` and `OFFSET`. -/
def page (limit offset : Nat) (rows : List α) : List α :=
  (rows.drop offset).take limit

/-- The pages of successive answers. -/
def pages (limit : Nat) : Nat → List (List α) → List (List α)
  | _, [] => []
  | offset, rows :: later =>
      page limit offset rows :: pages limit (offset + limit) later

/-- Where a key is in successive answers, how it moves from one to the next, and
that the last page is not full. -/
inductive Follows (key : α → κ) (value : κ) (limit : Nat)
    (moves : Nat → Nat → Prop) : Nat → Nat → List (List α) → Prop where
  | last {offset position : Nat} {rows : List α} :
      (rows[position]?).map key = some value →
      (page limit offset rows).length < limit →
      Follows key value limit moves offset position [rows]
  | more {offset position next : Nat} {rows : List α}
      {later : List (List α)} :
      (rows[position]?).map key = some value →
      moves position next →
      Follows key value limit moves (offset + limit) next later →
      Follows key value limit moves offset position (rows :: later)

section Pages

variable {key : α → κ} {value : κ} {limit offset position : Nat}
  {rows : List α}

theorem getElem?_page (within : position < limit) :
    (page limit offset rows)[position]? = rows[offset + position]? := by
  rw [page, List.getElem?_take_of_lt within, List.getElem?_drop]

/-- A page that is not full is the last one. -/
theorem lt_of_short {row : α} (located : rows[position]? = some row)
    (short : (page limit offset rows).length < limit) :
    position < offset + limit := by
  have present : position < rows.length :=
    (List.getElem?_eq_some_iff.mp located).1
  rw [page, List.length_take, List.length_drop] at short
  omega

/-- The page at `offset` has the key exactly if its position is there. -/
theorem exists_mem_page_iff (unique : (rows.map key).Nodup)
    (located : (rows[position]?).map key = some value) :
    (∃ row ∈ page limit offset rows, key row = value) ↔
      offset ≤ position ∧ position < offset + limit := by
  obtain ⟨found, here, same⟩ := Option.map_eq_some_iff.mp located
  constructor
  · rintro ⟨row, member, named⟩
    obtain ⟨index, there⟩ := List.getElem?_of_mem member
    have within : index < limit := by
      have bound := (List.getElem?_eq_some_iff.mp there).1
      rw [page, List.length_take] at bound
      omega
    rw [getElem?_page within] at there
    have first : (rows.map key)[offset + index]? = some value := by
      rw [List.getElem?_map, there, Option.map_some, named]
    have second : (rows.map key)[position]? = some value := by
      rw [List.getElem?_map, located]
    have bound := (List.getElem?_eq_some_iff.mp first).1
    have equal := unique.getElem_inj_iff.mp
      ((List.getElem?_eq_some_iff.mp first).2.trans
        (List.getElem?_eq_some_iff.mp second).2.symm)
    omega
  · rintro ⟨after, before⟩
    have within : position - offset < limit := by omega
    have there : (page limit offset rows)[position - offset]? =
        some found := by
      rw [getElem?_page within, Nat.add_sub_cancel' after, here]
    exact ⟨found, List.mem_of_getElem? there, same⟩

theorem nodup_page (unique : (rows.map key).Nodup) :
    ((page limit offset rows).map key).Nodup :=
  unique.sublist (((List.take_sublist _ _).trans
    (List.drop_sublist _ _)).map key)

variable {moves : Nat → Nat → Prop} {answers : List (List α)}

/-- A key whose position does not fall is read. -/
theorem Follows.exists_mem
    (follows : Follows key value limit (· ≤ ·) offset position answers)
    (unique : ∀ rows ∈ answers, (rows.map key).Nodup)
    (ahead : offset ≤ position) :
    ∃ page ∈ pages limit offset answers, ∃ row ∈ page, key row = value := by
  induction follows with
  | last located short =>
      obtain ⟨found, here, same⟩ := Option.map_eq_some_iff.mp located
      exact ⟨_, List.mem_singleton_self _,
        (exists_mem_page_iff (unique _ List.mem_cons_self) located).mpr
          ⟨ahead, lt_of_short here short⟩⟩
  | @more offset position next rows later located rises _ induction =>
      by_cases before : position < offset + limit
      · exact ⟨_, List.mem_cons_self,
          (exists_mem_page_iff (unique _ List.mem_cons_self) located).mpr
            ⟨ahead, before⟩⟩
      · obtain ⟨page, isPage, shown⟩ := induction
          (fun rows member => unique rows (List.mem_cons_of_mem _ member))
          (by omega)
        exact ⟨page, List.mem_cons_of_mem _ isPage, shown⟩

variable [DecidableEq κ]

theorem countP_page (unique : (rows.map key).Nodup)
    (located : (rows[position]?).map key = some value) :
    ((page limit offset rows).countP fun row => decide (key row = value)) =
      if offset ≤ position ∧ position < offset + limit then 1 else 0 := by
  have shown : (∃ row ∈ page limit offset rows, key row = value) ↔
      offset ≤ position ∧ position < offset + limit :=
    exists_mem_page_iff unique located
  split
  next here =>
    obtain ⟨row, member, named⟩ := shown.mpr here
    have positive : 0 < (page limit offset rows).countP fun row =>
        decide (key row = value) :=
      List.countP_pos_iff.mpr ⟨row, member, decide_eq_true named⟩
    have single : ((page limit offset rows).countP fun row =>
        decide (key row = value)) ≤ 1 := by
      have once := List.nodup_iff_count_le_one.mp
        (nodup_page unique : ((page limit offset rows).map key).Nodup) value
      rw [List.count, List.countP_map] at once
      exact once
    omega
  next elsewhere =>
    rw [List.countP_eq_zero]
    intro row member named
    exact elsewhere (shown.mp ⟨row, member, of_decide_eq_true named⟩)

/-- A key whose position stays is read once. -/
theorem Follows.countP
    (follows : Follows key value limit (· = ·) offset position answers)
    (unique : ∀ rows ∈ answers, (rows.map key).Nodup) :
    ((pages limit offset answers).flatten.countP fun row =>
        decide (key row = value)) = if offset ≤ position then 1 else 0 := by
  induction follows with
  | @last offset position rows located short =>
      obtain ⟨found, here, same⟩ := Option.map_eq_some_iff.mp located
      have before := lt_of_short here short
      rw [pages, pages, List.flatten_singleton,
        countP_page (unique _ List.mem_cons_self) located]
      simp only [before, and_true]
  | @more offset position next rows later located stays _ induction =>
      cases stays
      have rest := induction fun rows member =>
        unique rows (List.mem_cons_of_mem _ member)
      rw [pages, List.flatten_cons, List.countP_append, rest,
        countP_page (unique _ List.mem_cons_self) located]
      split
      next here => split <;> split <;> omega
      next elsewhere => split <;> split <;> omega

end Pages

/-! ## Positions in an order -/

/-- In a descending list a row that shares its column with no other has as many
rows ahead as there are larger ones. -/
theorem getElem?_of_descending {ι : Type v} [LinearOrder ι] {column : α → ι}
    {rows : List α}
    (descending : rows.Pairwise fun first second =>
      column second ≤ column first)
    {row : α} (member : row ∈ rows)
    (alone : ∀ other ∈ rows, column other = column row → other = row) :
    rows[rows.countP fun other => decide (column row < column other)]? =
      some row := by
  induction rows with
  | nil => cases member
  | cons first rows induction =>
      obtain ⟨below, rest⟩ := List.pairwise_cons.mp descending
      by_cases larger : column row < column first
      · have inRows : row ∈ rows := by
          rcases List.mem_cons.mp member with rfl | later
          · exact absurd larger (lt_irrefl _)
          · exact later
        rw [List.countP_cons_of_pos (by simpa using larger),
          List.getElem?_cons_succ]
        exact induction rest inRows fun other isIn =>
          alone other (List.mem_cons_of_mem _ isIn)
      · have isFirst : first = row := by
          rcases List.mem_cons.mp member with rfl | later
          · rfl
          · exact alone first List.mem_cons_self
              (le_antisymm (not_lt.mp larger) (below row later))
        have none : ((first :: rows).countP fun other =>
            decide (column row < column other)) = 0 := by
          rw [List.countP_eq_zero]
          intro other isIn
          rw [decide_eq_true_iff, not_lt, ← isFirst]
          rcases List.mem_cons.mp isIn with rfl | later
          · exact le_refl _
          · exact below other later
        rw [none, isFirst]
        rfl

end Paging
