import Mathlib.Data.Int.Order.Basic
import Mathlib.Data.List.Induction
import Mathlib.Data.List.Sort

/-!
# Numbered hash chains

A row of a chain carries its number, the digest of its predecessor and its own
digest, which can be recomputed from the row.  `accepts` is the forward check
from a given start; the lemmas read it from the last row backwards, because
that is the end at which chains grow and at which an observer keeps a digest.
-/

universe u v

/-- How to read the rows of a chain. -/
structure HashChain (ρ : Type u) (δ : Type v) where
  number : ρ → Int
  previous : ρ → δ
  digest : ρ → δ
  recompute : ρ → δ

namespace HashChain

variable {ρ : Type u} {δ : Type v} [DecidableEq δ] (chain : HashChain ρ δ)

/-- The forward check: `start` is the digest and `first` the number expected
at the front. -/
def accepts (start : δ) (first : Int) : List ρ → Bool
  | [] => true
  | row :: rows =>
      decide (chain.number row = first) &&
        decide (chain.previous row = start) &&
        decide (chain.recompute row = chain.digest row) &&
        accepts (chain.digest row) (first + 1) rows

/-- The digest that the next row has to refer to. -/
def lastDigest (start : δ) (rows : List ρ) : δ :=
  (rows.getLast?.map chain.digest).getD start

variable {chain}

theorem accepts_append_singleton {start : δ} {first : Int} {rows : List ρ}
    {row : ρ} :
    chain.accepts start first (rows ++ [row]) = true ↔
      chain.accepts start first rows = true ∧
        chain.number row = first + rows.length ∧
        chain.previous row = chain.lastDigest start rows ∧
        chain.recompute row = chain.digest row := by
  induction rows generalizing start first with
  | nil => simp [accepts, lastDigest, and_assoc]
  | cons head tail induction =>
      have next : chain.lastDigest start (head :: tail) =
          chain.lastDigest (chain.digest head) tail := by
        cases tail with
        | nil => rfl
        | cons second rest =>
            cases last : (second :: rest).getLast? with
            | none => exact absurd last (by simp)
            | some row => simp [lastDigest, List.getLast?_cons_cons, last]
      have shifted : first + 1 + (tail.length : Int) =
          first + ((head :: tail).length : Int) := by
        simp only [List.length_cons]
        omega
      simp only [List.cons_append, accepts, Bool.and_eq_true,
        decide_eq_true_eq, induction, next, shifted]
      constructor
      · rintro ⟨front, rest, numbered, linked, digested⟩
        exact ⟨⟨front, rest⟩, numbered, linked, digested⟩
      · rintro ⟨⟨front, rest⟩, numbered, linked, digested⟩
        exact ⟨front, rest, numbered, linked, digested⟩

/-- An accepted chain is numbered without gap or repetition. -/
theorem number_of_accepts {start : δ} {first : Int} {rows : List ρ}
    (accepted : chain.accepts start first rows = true) {index : Nat} {row : ρ}
    (found : rows[index]? = some row) :
    chain.number row = first + index := by
  induction rows generalizing start first index with
  | nil => simp at found
  | cons head tail induction =>
      simp only [accepts, Bool.and_eq_true, decide_eq_true_eq] at accepted
      obtain ⟨⟨⟨numbered, _⟩, _⟩, rest⟩ := accepted
      cases index with
      | zero =>
          simp only [List.getElem?_cons_zero, Option.some.injEq] at found
          subst found
          simpa using numbered
      | succ index =>
          have later := induction rest (by simpa using found)
          rw [later]
          omega

theorem numbers_of_accepts {start : δ} {first : Int} {rows : List ρ}
    (accepted : chain.accepts start first rows = true) :
    rows.map chain.number =
      (List.range rows.length).map fun (index : Nat) => first + (index : Int) := by
  apply List.ext_getElem
  · simp
  · intro index bound _
    have inside : index < rows.length := by simpa using bound
    rw [List.getElem_map, List.getElem_map, List.getElem_range]
    exact number_of_accepts accepted (List.getElem?_eq_getElem inside)

theorem sorted_of_accepts {start : δ} {first : Int} {rows : List ρ}
    (accepted : chain.accepts start first rows = true) :
    rows.Pairwise fun left right => chain.number left < chain.number right := by
  rw [List.pairwise_iff_getElem]
  intro left right leftBound rightBound before
  rw [number_of_accepts accepted (List.getElem?_eq_getElem leftBound),
    number_of_accepts accepted (List.getElem?_eq_getElem rightBound)]
  omega

/-- Two accepted chains from the same start that end in the same digest are
equal, provided digests determine the rows they are recomputed from. -/
theorem eq_of_lastDigest {start : δ} {first : Int}
    (binding : ∀ left right : ρ, chain.recompute left = chain.recompute right →
      chain.digest left = chain.digest right → left = right)
    {left right : List ρ}
    (leftAccepted : chain.accepts start first left = true)
    (rightAccepted : chain.accepts start first right = true)
    (sameEnd : left.getLast?.map chain.digest =
      right.getLast?.map chain.digest) : left = right := by
  induction left using List.reverseRecOn generalizing right with
  | nil =>
      have empty : right.getLast? = none := by simpa using sameEnd.symm
      exact (List.getLast?_eq_none_iff.mp empty).symm
  | append_singleton left row induction =>
      rcases List.eq_nil_or_concat' right with empty | ⟨rest, other, shape⟩
      · subst empty
        simp at sameEnd
      subst shape
      rw [accepts_append_singleton] at leftAccepted rightAccepted
      obtain ⟨leftRest, leftNumber, leftPrevious, leftDigest⟩ := leftAccepted
      obtain ⟨rightRest, rightNumber, rightPrevious, rightDigest⟩ :=
        rightAccepted
      have digests : chain.digest row = chain.digest other := by
        simpa using sameEnd
      have rows : row = other :=
        binding row other (by rw [leftDigest, rightDigest, digests]) digests
      subst rows
      have lengths : left.length = rest.length := by omega
      have shorterEnd : left.getLast?.map chain.digest =
          rest.getLast?.map chain.digest := by
        rcases List.eq_nil_or_concat' left with empty | ⟨front, last, shape⟩
        · subst empty
          have restEmpty : rest = [] := List.length_eq_zero_iff.mp (by
            simpa using lengths.symm)
          rw [restEmpty]
        · rcases List.eq_nil_or_concat' rest with empty | ⟨front', last', shape'⟩
          · subst empty shape
            simp at lengths
          · subst shape shape'
            have linked := leftPrevious.symm.trans rightPrevious
            simpa [lastDigest] using linked
      rw [induction leftRest rightRest shorterEnd]

/-- Rows taken from an accepted chain are accepted again only as one of its
prefixes. -/
theorem isPrefix_of_accepts {start : δ} {first : Int} {rows kept : List ρ}
    (accepted : chain.accepts start first rows = true)
    (keptAccepted : chain.accepts start first kept = true)
    (subset : ∀ row ∈ kept, row ∈ rows) : kept <+: rows := by
  rw [List.prefix_iff_getElem?]
  intro index bound
  have keptFound := List.getElem?_eq_getElem bound
  obtain ⟨position, inside, located⟩ :=
    List.getElem_of_mem (subset _ (List.getElem_mem bound))
  have positionFound := List.getElem?_eq_getElem inside
  have numbered := number_of_accepts keptAccepted keptFound
  have placed := number_of_accepts accepted positionFound
  rw [located] at placed
  have same : position = index := by omega
  subst same
  rw [positionFound, located]

end HashChain
