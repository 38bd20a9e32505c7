import Mathlib.Data.List.Forall2
import Mathlib.Data.List.Nodup
import Mathlib.Logic.Function.Basic
import Mathlib.Logic.Relation

/-!
# Jobs whose parts settle one by one

A job is opened with one open part for each name that its facts require.  Every
part settles once, with an outcome.  When no part is open any more, the job is
closed with the verdict that its outcomes call for.  Along every sequence of
such steps the facts of a job, its settled outcomes and its verdict are final,
and a verdict is never anything but the judgement on the outcomes of all
required parts.
-/

namespace Settlement

universe u

structure Job (φ π ο ν : Type u) where
  facts : φ
  parts : List (π × Option ο)
  verdict : Option ν

/-- The parts that the facts of a job require, and the judgement on their
outcomes. -/
structure Rules (φ π ο ν : Type u) where
  required : φ → List π
  judge : List (π × ο) → ν

abbrev Register (κ φ π ο ν : Type u) := κ → Option (Job φ π ο ν)

namespace Job

variable {φ π ο ν : Type u}

def fresh (facts : φ) (names : List π) : Job φ π ο ν :=
  { facts, parts := names.map fun name => (name, none), verdict := none }

def names (job : Job φ π ο ν) : List π := job.parts.map Prod.fst

def Settled (job : Job φ π ο ν) : Prop := ∀ part ∈ job.parts, part.2 ≠ none

/-- The outcomes so far, under the names of their parts. -/
def outcomes (job : Job φ π ο ν) : List (π × ο) :=
  job.parts.filterMap fun part => part.2.map fun outcome => (part.1, outcome)

/-- The part has kept its name and, if it had one, its outcome. -/
def PartKept (before after : π × Option ο) : Prop :=
  after.1 = before.1 ∧ ∀ outcome, before.2 = some outcome → after = before

structure Keeps (before after : Job φ π ο ν) : Prop where
  facts : after.facts = before.facts
  parts : List.Forall₂ PartKept before.parts after.parts
  closed : before.verdict ≠ none → after = before

/-- The parts are the required ones, each of them once, and a verdict judges the
outcomes of all of them. -/
structure Sound (rules : Rules φ π ο ν) (job : Job φ π ο ν) : Prop where
  names : job.names = rules.required job.facts
  nodup : job.names.Nodup
  verdict : ∀ verdict, job.verdict = some verdict →
    job.parts ≠ [] ∧ job.Settled ∧ verdict = rules.judge job.outcomes

end Job

section Step

variable {κ φ π ο ν : Type u} [DecidableEq κ]

inductive Step (rules : Rules φ π ο ν) :
    Register κ φ π ο ν → Register κ φ π ο ν → Prop where
  | opened (ledger : Register κ φ π ο ν) (key : κ) (facts : φ) :
      ledger key = none →
      (rules.required facts).Nodup →
      Step rules ledger (Function.update ledger key
        (some (.fresh facts (rules.required facts))))
  | settled (ledger : Register κ φ π ο ν) (key : κ) (job : Job φ π ο ν)
      (before after : List (π × Option ο)) (name : π) (outcome : ο) :
      ledger key = some job →
      job.verdict = none →
      job.parts = before ++ (name, none) :: after →
      Step rules ledger (Function.update ledger key (some { job with
        parts := before ++ (name, some outcome) :: after }))
  | closed (ledger : Register κ φ π ο ν) (key : κ) (job : Job φ π ο ν) :
      ledger key = some job →
      job.verdict = none →
      job.parts ≠ [] →
      job.Settled →
      Step rules ledger (Function.update ledger key (some { job with
        verdict := some (rules.judge job.outcomes) }))

def Attains (rules : Rules φ π ο ν) :
    Register κ φ π ο ν → Register κ φ π ο ν → Prop :=
  Relation.ReflTransGen (Step rules)

end Step

/-! ## What a step keeps -/

namespace Job

variable {φ π ο ν : Type u}

theorem PartKept.refl (part : π × Option ο) : PartKept part part :=
  ⟨rfl, fun _ _ => rfl⟩

theorem PartKept.trans {first second third : π × Option ο}
    (left : PartKept first second) (right : PartKept second third) :
    PartKept first third := by
  refine ⟨right.1.trans left.1, ?_⟩
  intro outcome settled
  have same := left.2 outcome settled
  subst same
  exact right.2 outcome settled

theorem partsKept_refl (parts : List (π × Option ο)) :
    List.Forall₂ PartKept parts parts := by
  induction parts with
  | nil => exact .nil
  | cons part parts induction => exact .cons (.refl part) induction

theorem partsKept_trans {first second third : List (π × Option ο)}
    (left : List.Forall₂ PartKept first second)
    (right : List.Forall₂ PartKept second third) :
    List.Forall₂ PartKept first third := by
  induction left generalizing third with
  | nil =>
      cases right
      exact .nil
  | cons kept _ induction =>
      cases right with
      | cons later rest => exact .cons (kept.trans later) (induction rest)

/-- One open part settles. -/
theorem partsKept_settle (before after : List (π × Option ο)) (name : π)
    (outcome : ο) :
    List.Forall₂ PartKept (before ++ (name, none) :: after)
      (before ++ (name, some outcome) :: after) := by
  induction before with
  | nil =>
      refine .cons ⟨rfl, ?_⟩ (partsKept_refl after)
      intro other settled
      cases settled
  | cons part before induction => exact .cons (.refl part) induction

theorem names_eq_of_kept {before after : List (π × Option ο)}
    (kept : List.Forall₂ PartKept before after) :
    after.map Prod.fst = before.map Prod.fst := by
  induction kept with
  | nil => rfl
  | cons part _ induction =>
      rw [List.map_cons, List.map_cons, part.1, induction]

theorem Keeps.refl (job : Job φ π ο ν) : job.Keeps job :=
  ⟨rfl, partsKept_refl job.parts, fun _ => rfl⟩

theorem Keeps.trans {first second third : Job φ π ο ν}
    (left : first.Keeps second) (right : second.Keeps third) :
    first.Keeps third := by
  refine ⟨right.facts.trans left.facts, partsKept_trans left.parts right.parts,
    ?_⟩
  intro closed
  have same := left.closed closed
  subst same
  exact right.closed closed

theorem Keeps.names {before after : Job φ π ο ν} (kept : before.Keeps after) :
    after.names = before.names :=
  names_eq_of_kept kept.parts

theorem names_fresh (facts : φ) (names : List π) :
    (fresh facts names : Job φ π ο ν).names = names := by
  unfold Job.names fresh
  rw [List.map_map]
  exact List.map_id names

/-- A settled job has an outcome under every name. -/
theorem map_fst_outcomes {job : Job φ π ο ν} (settled : job.Settled) :
    job.outcomes.map Prod.fst = job.names := by
  unfold Job.outcomes Job.names
  rw [List.map_filterMap, ← List.filterMap_eq_map]
  apply List.filterMap_congr
  intro part member
  obtain ⟨outcome, isOutcome⟩ :=
    Option.ne_none_iff_exists'.mp (settled part member)
  rw [isOutcome]
  rfl

theorem sound_fresh {rules : Rules φ π ο ν} {facts : φ}
    (nodup : (rules.required facts).Nodup) :
    (fresh facts (rules.required facts) : Job φ π ο ν).Sound rules := by
  constructor
  · exact names_fresh facts (rules.required facts)
  · rw [names_fresh]
    exact nodup
  · intro verdict closed
    cases closed

end Job

section Register

variable {κ φ π ο ν : Type u} [DecidableEq κ] {rules : Rules φ π ο ν}
  {before after : Register κ φ π ο ν}

/-- The step touches one job, and keeps it. -/
theorem Step.touches (step : Step rules before after) :
    ∃ key job, after = Function.update before key (some job) ∧
      (∀ old, before key = some old → old.Keeps job) ∧
      ((∀ old, before key = some old → old.Sound rules) → job.Sound rules) := by
  cases step with
  | opened key facts free nodup =>
      refine ⟨key, _, rfl, ?_, fun _ => Job.sound_fresh nodup⟩
      intro old found
      rw [free] at found
      cases found
  | settled key job left right name outcome found open_ shape =>
      have kept : job.Keeps { job with
          parts := left ++ (name, some outcome) :: right } := by
        refine ⟨rfl, ?_, fun closed => absurd open_ closed⟩
        rw [shape]
        exact Job.partsKept_settle left right name outcome
      refine ⟨key, _, rfl, ?_, ?_⟩
      · intro old isOld
        rw [found] at isOld
        cases isOld
        exact kept
      · intro sound
        have before := sound job found
        constructor
        · exact kept.names.trans before.names
        · rw [kept.names]
          exact before.nodup
        · intro verdict closed
          rw [open_] at closed
          cases closed
  | closed key job found open_ nonempty settled =>
      refine ⟨key, _, rfl, ?_, ?_⟩
      · intro old isOld
        rw [found] at isOld
        cases isOld
        exact ⟨rfl, Job.partsKept_refl job.parts,
          fun closed => absurd open_ closed⟩
      · intro sound
        refine ⟨(sound job found).names, (sound job found).nodup, ?_⟩
        intro verdict closed
        cases closed
        exact ⟨nonempty, settled, rfl⟩

theorem Step.keeps (step : Step rules before after) {key : κ}
    {job : Job φ π ο ν} (found : before key = some job) :
    ∃ later, after key = some later ∧ job.Keeps later := by
  obtain ⟨touched, next, isNext, kept, _⟩ := step.touches
  subst isNext
  by_cases same : key = touched
  · subst same
    exact ⟨next, Function.update_self .., kept job found⟩
  · refine ⟨job, ?_, .refl job⟩
    rw [Function.update_of_ne same]
    exact found

theorem Step.sound (step : Step rules before after)
    (sound : ∀ key job, before key = some job → job.Sound rules) :
    ∀ key job, after key = some job → job.Sound rules := by
  intro key job found
  obtain ⟨touched, next, isNext, _, becomes⟩ := step.touches
  subst isNext
  by_cases same : key = touched
  · subst same
    rw [Function.update_self] at found
    cases found
    exact becomes fun old => sound key old
  · rw [Function.update_of_ne same] at found
    exact sound key job found

/-! ## Sequences of steps -/

/-- Facts, settled outcomes and verdicts are final. -/
theorem Attains.keeps (attains : Attains rules before after) {key : κ}
    {job : Job φ π ο ν} (found : before key = some job) :
    ∃ later, after key = some later ∧ job.Keeps later := by
  induction attains with
  | refl => exact ⟨job, found, .refl job⟩
  | tail _ step induction =>
      obtain ⟨middle, isMiddle, kept⟩ := induction
      obtain ⟨later, isLater, keptOn⟩ := step.keeps isMiddle
      exact ⟨later, isLater, kept.trans keptOn⟩

/-- Every job has the required parts, and every verdict judges the outcomes of
all of them. -/
theorem Attains.sound (attains : Attains rules (fun _ => none) after) :
    ∀ key job, after key = some job → job.Sound rules := by
  induction attains with
  | refl =>
      intro key job found
      cases found
  | tail _ step induction => exact step.sound induction

end Register

end Settlement
