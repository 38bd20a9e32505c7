import Mathlib.Algebra.BigOperators.Group.List.Basic
import Mathlib.Algebra.Ring.Nat
import Mathlib.Data.List.Basic
import Mathlib.Data.List.Sort

/-!
# Relational tables as lists of rows

`updateWhere` is `UPDATE … WHERE`, `List.filter` is `SELECT … WHERE`,
`List.insertionSort` is a stable `ORDER BY` and `List.take` is `LIMIT`.  The
lemmas say how these commute, which is what a proof about one part of a table
needs when a statement touches another part.
-/

namespace Table

universe u v

variable {ρ : Type u} {κ : Type v}

/-- `UPDATE rows SET change WHERE matching`. -/
def updateWhere (matching : ρ → Bool) (change : ρ → ρ) (rows : List ρ) :
    List ρ :=
  rows.map fun row => if matching row then change row else row

@[simp] theorem updateWhere_nil (matching : ρ → Bool) (change : ρ → ρ) :
    updateWhere matching change [] = [] := rfl

theorem mem_updateWhere {matching : ρ → Bool} {change : ρ → ρ}
    {rows : List ρ} {row : ρ} :
    row ∈ updateWhere matching change rows ↔
      ∃ old ∈ rows, (if matching old then change old else old) = row := by
  simp [updateWhere]

/-- A column that the update does not touch reads the same afterwards. -/
theorem map_updateWhere {matching : ρ → Bool} {change : ρ → ρ}
    (column : ρ → κ) (kept : ∀ row, column (change row) = column row)
    (rows : List ρ) :
    (updateWhere matching change rows).map column = rows.map column := by
  induction rows with
  | nil => rfl
  | cons row rows induction =>
      have tail : (updateWhere matching change rows).map column =
          rows.map column := induction
      by_cases hit : matching row
      · simpa [updateWhere, hit, kept] using tail
      · simpa [updateWhere, hit] using tail

/-- Rows outside the update's reach are left alone. -/
theorem updateWhere_eq_self {matching : ρ → Bool} {change : ρ → ρ}
    {rows : List ρ} (none : ∀ row ∈ rows, matching row = false) :
    updateWhere matching change rows = rows := by
  induction rows with
  | nil => rfl
  | cons row rows induction =>
      have head : matching row = false := none row (by simp)
      have tail := induction fun other member => none other (by simp [member])
      simpa [updateWhere, head] using tail

theorem updateWhere_congr {matching other : ρ → Bool} {change : ρ → ρ}
    {rows : List ρ} (same : ∀ row ∈ rows, matching row = other row) :
    updateWhere matching change rows = updateWhere other change rows := by
  apply List.map_congr_left
  intro row member
  rw [same row member]

/-- Selecting a part that the update maps to itself commutes with it. -/
theorem filter_updateWhere {matching part : ρ → Bool} {change : ρ → ρ}
    (kept : ∀ row, part (change row) = part row) (rows : List ρ) :
    (updateWhere matching change rows).filter part =
      updateWhere matching change (rows.filter part) := by
  induction rows with
  | nil => rfl
  | cons row rows induction =>
      have tail : (List.map
          (fun row => if matching row then change row else row) rows).filter
            part =
          updateWhere matching change (rows.filter part) := induction
      by_cases hit : matching row <;> by_cases inside : part row <;>
        simp [updateWhere, hit, inside, kept, tail]

/-- An update that hits no row of a part leaves that part alone. -/
theorem filter_updateWhere_of_disjoint {matching part : ρ → Bool}
    {change : ρ → ρ} (kept : ∀ row, part (change row) = part row)
    {rows : List ρ}
    (disjoint : ∀ row ∈ rows, part row = true → matching row = false) :
    (updateWhere matching change rows).filter part = rows.filter part := by
  rw [filter_updateWhere kept]
  apply updateWhere_eq_self
  intro row member
  obtain ⟨present, inside⟩ := List.mem_filter.mp member
  exact disjoint row present inside

/-- A narrower selection can be made from any part that contains it. -/
theorem filter_filter_of_imp {narrow wide : ρ → Bool} {rows : List ρ}
    (implied : ∀ row ∈ rows, narrow row = true → wide row = true) :
    (rows.filter wide).filter narrow = rows.filter narrow := by
  rw [List.filter_filter]
  apply List.filter_congr
  intro row member
  by_cases hit : narrow row
  · simp [hit, implied row member hit]
  · simp [hit]

theorem find?_filter_of_imp {narrow wide : ρ → Bool} {rows : List ρ}
    (implied : ∀ row ∈ rows, narrow row = true → wide row = true) :
    (rows.filter wide).find? narrow = rows.find? narrow := by
  rw [← List.head?_filter, ← List.head?_filter, filter_filter_of_imp implied]

section Keyed

variable (key : ρ → κ)

/-- The key column holds no value twice. -/
def KeyUnique (rows : List ρ) : Prop :=
  (rows.map key).Nodup

variable {key}

theorem KeyUnique.eq_of_mem {rows : List ρ} (unique : KeyUnique key rows)
    {first second : ρ} (left : first ∈ rows) (right : second ∈ rows)
    (same : key first = key second) : first = second :=
  List.inj_on_of_nodup_map unique left right same

theorem KeyUnique.updateWhere {rows : List ρ} (unique : KeyUnique key rows)
    {matching : ρ → Bool} {change : ρ → ρ}
    (kept : ∀ row, key (change row) = key row) :
    KeyUnique key (updateWhere matching change rows) := by
  unfold KeyUnique
  rw [map_updateWhere key kept]
  exact unique

theorem KeyUnique.filter {rows : List ρ} (unique : KeyUnique key rows)
    (part : ρ → Bool) : KeyUnique key (rows.filter part) :=
  unique.sublist ((List.filter_sublist (l := rows)).map key)

theorem KeyUnique.append {first second : List ρ}
    (left : KeyUnique key first) (right : KeyUnique key second)
    (disjoint : ∀ old ∈ first, ∀ new ∈ second, key old ≠ key new) :
    KeyUnique key (first ++ second) := by
  unfold KeyUnique
  rw [List.map_append]
  refine List.Nodup.append left right ?_
  intro value inFirst inSecond
  obtain ⟨old, oldMember, rfl⟩ := List.mem_map.mp inFirst
  obtain ⟨new, newMember, same⟩ := List.mem_map.mp inSecond
  exact disjoint old oldMember new newMember same.symm

/-- A selection is recovered from the keys it returned. -/
theorem KeyUnique.mem_keys_filter {rows : List ρ}
    (unique : KeyUnique key rows) (part : ρ → Bool) {row : ρ}
    (member : row ∈ rows) :
    key row ∈ (rows.filter part).map key ↔ part row = true := by
  rw [List.mem_map]
  constructor
  · rintro ⟨other, otherMember, same⟩
    obtain ⟨inTable, matching⟩ := List.mem_filter.mp otherMember
    rwa [unique.eq_of_mem inTable member same] at matching
  · intro matching
    exact ⟨row, List.mem_filter.mpr ⟨member, matching⟩, rfl⟩

variable [DecidableEq κ]

/-- The row with a given key value. -/
def get (key : ρ → κ) (value : κ) (rows : List ρ) : Option ρ :=
  rows.find? fun row => decide (key row = value)

theorem get_mem {value : κ} {rows : List ρ} {row : ρ}
    (found : get key value rows = some row) :
    row ∈ rows ∧ key row = value := by
  refine ⟨List.mem_of_find?_eq_some found, ?_⟩
  simpa using List.find?_some found

theorem get_eq_none_iff {value : κ} {rows : List ρ} :
    get key value rows = none ↔ ∀ row ∈ rows, key row ≠ value := by
  simp [get]

theorem KeyUnique.get_eq_some {rows : List ρ} (unique : KeyUnique key rows)
    {row : ρ} (member : row ∈ rows) :
    get key (key row) rows = some row := by
  cases found : get key (key row) rows with
  | none => exact absurd rfl (get_eq_none_iff.mp found row member)
  | some other =>
      obtain ⟨otherMember, same⟩ := get_mem found
      rw [unique.eq_of_mem otherMember member same]

theorem get_append (value : κ) (first second : List ρ) :
    get key value (first ++ second) =
      (get key value first).or (get key value second) :=
  List.find?_append

end Keyed

/-! ## Tables made of blocks -/

/-- A selection that only one block can satisfy is made from that block. -/
theorem filter_flatMap_block {ι : Type v} (block : ι → List ρ)
    (selected : ρ → Bool) {before after : List ι} {index : ι}
    (others : ∀ other ∈ before ++ after, ∀ row ∈ block other,
      selected row = false) :
    ((before ++ index :: after).flatMap block).filter selected =
      (block index).filter selected := by
  have silent : ∀ indices : List ι, (∀ other ∈ indices,
      ∀ row ∈ block other, selected row = false) →
      (indices.flatMap block).filter selected = [] := by
    intro indices unselected
    rw [List.filter_eq_nil_iff]
    intro row member
    obtain ⟨other, otherMember, inBlock⟩ := List.mem_flatMap.mp member
    rw [unselected other otherMember row inBlock]
    decide
  have front := silent before fun other member =>
    others other (List.mem_append_left _ member)
  have back := silent after fun other member =>
    others other (List.mem_append_right _ member)
  rw [List.flatMap_append, List.flatMap_cons, List.filter_append,
    List.filter_append, front, back, List.nil_append, List.append_nil]

/-! ## Totals -/

section Totals

variable {μ : Type*} [AddCommMonoid μ]

/-- A total over a selection, as a total over the table. -/
theorem sum_map_filter (part : ρ → Bool) (weight : ρ → μ) (rows : List ρ) :
    ((rows.filter part).map weight).sum =
      (rows.map fun row => if part row then weight row else 0).sum := by
  induction rows with
  | nil => rfl
  | cons row rows induction =>
      by_cases inside : part row
      · simp [inside, induction]
      · simp [inside, induction]

/-- The weight of one row changes. -/
theorem KeyUnique.sum_map_change {ι : Type v} {key : ρ → ι} {rows : List ρ}
    (unique : KeyUnique key rows) (before after : ρ → μ) {row : ρ}
    (member : row ∈ rows)
    (others : ∀ other ∈ rows, key other ≠ key row →
      after other = before other) :
    (rows.map after).sum + before row = (rows.map before).sum + after row := by
  induction rows with
  | nil => cases member
  | cons first rows induction =>
      obtain ⟨fresh, rest⟩ := List.nodup_cons.mp unique
      rcases List.mem_cons.mp member with rfl | inRest
      · have tail : rows.map after = rows.map before := by
          apply List.map_congr_left
          intro other inRows
          apply others other (List.mem_cons_of_mem row inRows)
          intro same
          exact fresh (List.mem_map.mpr ⟨other, inRows, same⟩)
        simp only [List.map_cons, List.sum_cons, tail]
        rw [add_right_comm, add_assoc, add_comm]
      · have differs : key first ≠ key row := by
          intro same
          exact fresh (List.mem_map.mpr ⟨row, inRest, same.symm⟩)
        have tail := induction rest inRest fun other inRows =>
          others other (List.mem_cons_of_mem first inRows)
        simp only [List.map_cons, List.sum_cons,
          others first List.mem_cons_self differs]
        rw [add_assoc, tail, add_assoc]

/-- The updated rows enter the counted part. -/
theorem countP_updateWhere {matching part : ρ → Bool} {change : ρ → ρ}
    {rows : List ρ}
    (outside : ∀ row ∈ rows, matching row = true → part row = false)
    (inside : ∀ row ∈ rows, matching row = true → part (change row) = true) :
    (updateWhere matching change rows).countP part =
      rows.countP part + rows.countP matching := by
  induction rows with
  | nil => rfl
  | cons row rows induction =>
      have tail : (List.map
          (fun row => if matching row then change row else row) rows).countP
            part = rows.countP part + rows.countP matching :=
        induction (fun other member => outside other (by simp [member]))
          (fun other member => inside other (by simp [member]))
      by_cases hit : matching row = true
      · have left := outside row List.mem_cons_self hit
        have entered := inside row List.mem_cons_self hit
        simp only [updateWhere, List.map_cons, List.countP_cons, hit, if_true,
          left, entered, tail]
        simp only [Bool.false_eq_true, if_false]
        omega
      · simp only [updateWhere, List.map_cons, List.countP_cons, hit,
          if_false, tail, Bool.false_eq_true]
        omega

/-- The updated rows keep their side of the counted part. -/
theorem countP_updateWhere_of_kept {matching part : ρ → Bool}
    {change : ρ → ρ} {rows : List ρ}
    (kept : ∀ row ∈ rows, matching row = true →
      part (change row) = part row) :
    (updateWhere matching change rows).countP part = rows.countP part := by
  unfold updateWhere
  rw [List.countP_map]
  apply List.countP_congr
  intro row member
  by_cases hit : matching row = true
  · simp [hit, kept row member hit]
  · simp [hit]

/-- Selected rows are as many as the keys they were selected by. -/
theorem KeyUnique.countP_mem_keys {ι : Type v} [DecidableEq ι] {key : ρ → ι}
    {rows chosen : List ρ} (unique : KeyUnique key rows)
    (distinct : KeyUnique key chosen)
    (present : ∀ row ∈ chosen, row ∈ rows) :
    (rows.countP fun row => decide (key row ∈ chosen.map key)) =
      chosen.length := by
  rw [List.countP_eq_length_filter]
  apply List.Perm.length_eq
  have nodup : (rows.filter fun row =>
      decide (key row ∈ chosen.map key)).Nodup :=
    (unique.filter _).of_map
  apply (List.perm_ext_iff_of_nodup nodup distinct.of_map).mpr
  intro row
  rw [List.mem_filter, decide_eq_true_iff]
  constructor
  · rintro ⟨member, hit⟩
    obtain ⟨other, inChosen, same⟩ := List.mem_map.mp hit
    rw [← unique.eq_of_mem (present other inChosen) member same]
    exact inChosen
  · intro inChosen
    exact ⟨present row inChosen, List.mem_map.mpr ⟨row, inChosen, rfl⟩⟩

/-- One row enters or leaves the counted part. -/
theorem KeyUnique.countP_change {ι : Type v} {key : ρ → ι} {rows : List ρ}
    (unique : KeyUnique key rows) (before after : ρ → Bool) {row : ρ}
    (member : row ∈ rows)
    (others : ∀ other ∈ rows, key other ≠ key row →
      after other = before other) :
    rows.countP after + (if before row then 1 else 0) =
      rows.countP before + (if after row then 1 else 0) := by
  have read : ∀ (part : ρ → Bool) (all : List ρ), all.countP part =
      (all.map fun row => if part row then 1 else 0).sum := by
    intro part all
    induction all with
    | nil => rfl
    | cons first all induction =>
        rw [List.countP_cons, induction, List.map_cons, List.sum_cons]
        exact Nat.add_comm _ _
  rw [read, read]
  apply unique.sum_map_change _ _ member
  intro other inRows differs
  rw [others other inRows differs]

/-- Entries are counted row by row, or by the keys of all rows. -/
theorem KeyUnique.sum_countP {ι : Type v} [DecidableEq ι] {key : ρ → ι}
    {rows : List ρ} (unique : KeyUnique key rows) {ε : Type*} (owner : ε → ι)
    (entries : List ε) :
    (rows.map fun row =>
      entries.countP fun entry => decide (owner entry = key row)).sum =
      entries.countP fun entry => decide (owner entry ∈ rows.map key) := by
  induction rows with
  | nil => simp
  | cons row rows induction =>
      obtain ⟨fresh, rest⟩ := List.nodup_cons.mp unique
      rw [List.map_cons, List.sum_cons, induction rest]
      clear induction
      induction entries with
      | nil => rfl
      | cons entry entries induction =>
          simp only [List.countP_cons, List.map_cons, List.mem_cons] at induction ⊢
          by_cases here : owner entry = key row
          · have absent : owner entry ∉ rows.map key := by
              rw [here]
              exact fresh
            simp only [here, true_or, decide_true, if_true] at induction ⊢
            rw [here] at absent
            simp only [absent, decide_false, Bool.false_eq_true, if_false]
            omega
          · simp only [here, false_or, decide_false, Bool.false_eq_true,
              if_false]
            omega

end Totals

/-- Distinct entries, counted as the members of a sublist of them and the
rest. -/
theorem countP_split {ε : Type*} [DecidableEq ε] {all part : List ε}
    (distinct : all.Nodup) (chosen : part.Nodup)
    (inside : ∀ entry ∈ part, entry ∈ all) (counted : ε → Bool) :
    all.countP counted = part.countP counted +
      all.countP fun entry => counted entry && decide (entry ∉ part) := by
  have members : (all.filter fun entry => decide (entry ∈ part)).Perm part := by
    apply (List.perm_ext_iff_of_nodup (distinct.filter _) chosen).mpr
    intro entry
    rw [List.mem_filter, decide_eq_true_iff]
    exact ⟨And.right, fun member => ⟨inside entry member, member⟩⟩
  rw [← members.countP_eq, List.countP_filter]
  clear members distinct inside
  induction all with
  | nil => rfl
  | cons entry all induction =>
      simp only [List.countP_cons, induction]
      by_cases member : entry ∈ part
      · simp [member]
        omega
      · simp [member]
        omega

/-! ## Ordered and limited selections -/

theorem mem_insertionSort_iff (order : ρ → ρ → Prop) [DecidableRel order]
    {rows : List ρ} {row : ρ} :
    row ∈ rows.insertionSort order ↔ row ∈ rows :=
  (List.perm_insertionSort order rows).mem_iff

section Ordered

variable (order : ρ → ρ → Prop) [DecidableRel order] [IsTrans ρ order]

theorem filter_orderedInsert (part : ρ → Bool) (row : ρ) {rows : List ρ}
    (sorted : rows.Pairwise order) :
    (rows.orderedInsert order row).filter part =
      if part row then (rows.filter part).orderedInsert order row
      else rows.filter part := by
  induction rows with
  | nil => by_cases inside : part row <;> simp [inside]
  | cons first rows induction =>
      obtain ⟨below, rest⟩ := List.pairwise_cons.mp sorted
      by_cases before : order row first
      · -- `row` goes to the front and is below every selected row
        rw [List.orderedInsert_cons, if_pos before, List.filter_cons]
        split
        next =>
          cases selected : (first :: rows).filter part with
          | nil => rfl
          | cons head tail =>
              have member : head ∈ first :: rows := by
                apply List.mem_of_mem_filter
                rw [selected]
                exact List.mem_cons_self
              have low : order row head := by
                rcases List.mem_cons.mp member with rfl | inRows
                · exact before
                · exact Trans.trans before (below head inRows)
              rw [List.orderedInsert_cons, if_pos low]
        next => rfl
      · rw [List.orderedInsert_cons, if_neg before, List.filter_cons,
          List.filter_cons, induction rest]
        by_cases inside : part row
        · by_cases kept : part first
          · simp [inside, kept, before]
          · simp [inside, kept]
        · simp [inside]

/-- A selection of the ordered table is the ordered selection. -/
theorem filter_insertionSort [Std.Total order] (part : ρ → Bool)
    (rows : List ρ) :
    (rows.insertionSort order).filter part =
      (rows.filter part).insertionSort order := by
  induction rows with
  | nil => rfl
  | cons row rows induction =>
      rw [List.insertionSort_cons,
        filter_orderedInsert order part row
          (List.pairwise_insertionSort order rows),
        induction, List.filter_cons]
      split
      next => rfl
      next => rfl

omit [IsTrans ρ order] in
theorem orderedInsert_append {row : ρ} {front back : List ρ}
    (low : ∀ other ∈ back, order row other) :
    (front ++ back).orderedInsert order row =
      front.orderedInsert order row ++ back := by
  induction front with
  | nil =>
      cases back with
      | nil => rfl
      | cons other back =>
          exact if_pos (low other List.mem_cons_self)
  | cons first front induction =>
      rw [List.cons_append, List.orderedInsert_cons, List.orderedInsert_cons,
        induction]
      split
      next => rfl
      next => rfl

omit [IsTrans ρ order] in
/-- Rows that are above all others come last. -/
theorem insertionSort_append {front back : List ρ}
    (low : ∀ row ∈ front, ∀ other ∈ back, order row other) :
    (front ++ back).insertionSort order =
      front.insertionSort order ++ back.insertionSort order := by
  induction front with
  | nil => rfl
  | cons row front induction =>
      rw [List.cons_append, List.insertionSort_cons, List.insertionSort_cons,
        induction fun other member => low other (List.mem_cons_of_mem row member),
        orderedInsert_append]
      intro other member
      exact low row List.mem_cons_self other
        ((mem_insertionSort_iff order).mp member)

end Ordered

/-- In an ascending table a row is among the first `size` when fewer than
`size` rows are below it. -/
theorem mem_take_iff_of_ascending {ι : Type v} [LinearOrder ι] {column : ρ → ι}
    {rows : List ρ}
    (ascending : rows.Pairwise fun first second => column first < column second)
    {row : ρ} (member : row ∈ rows) (size : Nat) :
    row ∈ rows.take size ↔
      (rows.countP fun other => decide (column other < column row)) < size := by
  induction rows generalizing size with
  | nil => cases member
  | cons first rows induction =>
      obtain ⟨below, rest⟩ := List.pairwise_cons.mp ascending
      rcases List.mem_cons.mp member with rfl | inRows
      · -- nothing is below the first row
        have none : ((row :: rows).countP fun other =>
            decide (column other < column row)) = 0 := by
          rw [List.countP_eq_zero]
          intro other inTable
          rw [decide_eq_true_iff, not_lt]
          rcases List.mem_cons.mp inTable with rfl | later
          · exact le_refl _
          · exact le_of_lt (below other later)
        rw [none]
        cases size with
        | zero => simp
        | succ size => simp
      · have step := below row inRows
        rw [List.countP_cons, if_pos (decide_eq_true step)]
        cases size with
        | zero => simp
        | succ size =>
            have differs : row ≠ first := by
              rintro rfl
              exact lt_irrefl _ step
            rw [List.take_succ_cons, List.mem_cons, induction rest inRows size]
            constructor
            · rintro (same | fewer)
              · exact absurd same differs
              · omega
            · intro fewer
              exact .inr (by omega)

/-- `ORDER BY column LIMIT size` over distinct values of the column. -/
theorem mem_take_insertionSort_iff {ι : Type v} [LinearOrder ι]
    {column : ρ → ι} {rows : List ρ} (distinct : (rows.map column).Nodup)
    {row : ρ} (member : row ∈ rows) (size : Nat) :
    row ∈ (rows.insertionSort fun first second =>
        column first ≤ column second).take size ↔
      (rows.countP fun other => decide (column other < column row)) < size := by
  have permuted := List.perm_insertionSort
    (fun first second => column first ≤ column second) rows
  have differ : (rows.insertionSort fun first second =>
      column first ≤ column second).Pairwise fun first second =>
        column first ≠ column second :=
    List.pairwise_map.mp ((permuted.map column).nodup_iff.mpr distinct)
  have ordered : (rows.insertionSort fun first second =>
      column first ≤ column second).Pairwise fun first second =>
        column first ≤ column second := by
    have : Std.Total fun first second : ρ => column first ≤ column second :=
      ⟨fun first second => le_total (column first) (column second)⟩
    have : IsTrans ρ fun first second => column first ≤ column second :=
      ⟨fun _ _ _ => le_trans⟩
    exact List.pairwise_insertionSort _ rows
  have ascending := (ordered.and differ).imp fun ⟨below, other⟩ =>
    lt_of_le_of_ne below other
  rw [mem_take_iff_of_ascending ascending (permuted.mem_iff.mpr member),
    permuted.countP_eq]

end Table
