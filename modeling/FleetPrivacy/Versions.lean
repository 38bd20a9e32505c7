import FleetPrivacy.Holding
import FleetPrivacy.Sessions

/-!
# The version column of a request

`refresh_request_status` increments the version of the copy that its session
holds.  The column counts the status changes of refreshes as long as every
refresh locks its request with a copy of the committed version.
-/

namespace FleetPrivacy

open Transition

/-- A refresh works on a copy with the committed version, if the session holds
one at all. -/
def VersionCurrent (state : State) : Action → Prop
  | .refreshSelect index =>
      ∀ target ∈ state.refreshTarget index,
        ∀ copy ∈ target.2.request target.1,
        ∀ row ∈ state.database.requests, row.id = target.1 →
          copy.version = row.version
  | _ => True

instance (state : State) (action : Action) :
    Decidable (VersionCurrent state action) :=
  match action with
  | .refreshSelect index =>
      inferInstanceAs (Decidable (∀ target ∈ state.refreshTarget index,
        ∀ copy ∈ target.2.request target.1,
        ∀ row ∈ state.database.requests, row.id = target.1 →
          copy.version = row.version))
  | .create _ | .relaySelect _ | .relayPublish _ _ _ _ | .relayCommit _
  | .relayCrash _ | .deliver _ _ _ | .messageGet _ _ | .messageClaim _
  | .processOnce _ | .selectTask _ | .work _ _ | .recordTask _ _
  | .upload _ _ _ | .refreshCommit _ _ _ | .ack _ | .crash _
  | .extendLease _ _ _ => .isTrue trivial

/-- Requests stay, and their versions do not decrease. -/
def Database.VersionsLead (before after : Database) : Prop :=
  ∀ requestId row, before.request requestId = some row →
    ∃ current, after.request requestId = some current ∧
      row.version ≤ current.version

/-- Requests whose status changes get a greater version. -/
def Database.CountsChanges (before after : Database) : Prop :=
  ∀ requestId row current, before.request requestId = some row →
    after.request requestId = some current →
    current.status ≠ row.status → row.version < current.version

theorem Database.VersionsLead.refl (database : Database) :
    database.VersionsLead database :=
  fun _ row found => ⟨row, found, Nat.le_refl _⟩

theorem Database.VersionsLead.trans {first second third : Database}
    (left : first.VersionsLead second) (right : second.VersionsLead third) :
    first.VersionsLead third := by
  intro requestId row found
  obtain ⟨middle, middleFound, before⟩ := left requestId row found
  obtain ⟨last, lastFound, after⟩ := right requestId middle middleFound
  exact ⟨last, lastFound, Nat.le_trans before after⟩

/-- A refresh from a current copy keeps the version, with the status, or
increments it. -/
theorem PrivacyRequest.flush_refresh_version {request row : PrivacyRequest}
    (current : request.version = row.version) (status : RequestStatus)
    (reference : Option String) (now : Time) :
    let after := request.flush (request.refresh status reference) row now
    after.version = row.version ∧ after.status = row.status ∨
      after.version = row.version + 1 := by
  dsimp only
  by_cases same : status = request.status
  · left
    simp [PrivacyRequest.flush, PrivacyRequest.refresh, same]
  · right
    simp [PrivacyRequest.flush, PrivacyRequest.refresh, same, flushColumn,
      current]

/-! ## The invariant -/

/-- The holder of a row lock has a copy of the committed version. -/
structure Versioned (state : State) : Prop where
  grounded : state.Grounded
  exclusive : state.Exclusive
  locked : ∀ call ∈ state.calls, ∀ requestId own reference,
    call.phase = .refreshing requestId own reference →
    ∀ copy, call.session.request requestId = some copy →
    ∀ row, state.database.request requestId = some row →
      copy.version = row.version

namespace Versioned

variable {deployment : Deployment} {state next : State}

/-- Without a refresh, no version changes. -/
theorem versions_eq {action : Action}
    (effect : Effect deployment state action next)
    (other : ∀ index noticeId now, action ≠ .refreshCommit index noticeId now)
    {requestId : String} {row : PrivacyRequest}
    (found : state.database.request requestId = some row) :
    ∃ current, next.database.request requestId = some current ∧
      current.version = row.version := by
  rcases effect.revision with
    ⟨intake, _, _, inserted⟩ | ⟨task, request, revises, _, _, keeps⟩
  · refine ⟨row, ?_, rfl⟩
    rw [inserted, Database.insertRows_request, found]
    rfl
  · refine ⟨request row, ?_, (keeps other row).version⟩
    rw [revises.request_eq, found]
    rfl

/-- The commit of a refresh: other requests stay, its own counts. -/
theorem refreshed (versioned : Versioned state) {index : Nat}
    {noticeId : String} {now : Time}
    (effect : Effect deployment state (.refreshCommit index noticeId now)
      next) :
    state.database.VersionsLead next.database ∧
      state.database.CountsChanges next.database := by
  obtain ⟨call, lockedId, own, reference, request, found, phase, held, _, _,
    rfl⟩ := effect.of_refreshCommit
  have member := List.mem_of_getElem? found
  obtain ⟨owner, ownerFound, key, _⟩ :=
    versioned.grounded.request_of_copy member held
  have current := versioned.locked call member lockedId own reference phase
    request held owner ownerFound
  have rows : ∀ requestId row, state.database.request requestId = some row →
      ∃ after, (commitRefresh deployment.runtime call.session request reference
          noticeId now state.database).request requestId = some after ∧
        (after.version = row.version ∧ after.status = row.status ∨
          after.version = row.version + 1) := by
    intro requestId row rowFound
    by_cases same : requestId = request.id
    · rw [same, key, ownerFound] at rowFound
      cases rowFound
      have hit : decide (owner.id = request.id) = true :=
        decide_eq_true ((Database.request_mem ownerFound).2.trans key.symm)
      refine ⟨_, ?_, PrivacyRequest.flush_refresh_version current
        (call.session.derivedStatus lockedId) reference now⟩
      rw [(Database.commitRefresh_revises ..).request_eq, same, key,
        ownerFound]
      exact congrArg some (if_pos hit)
    · refine ⟨row, ?_, .inl ⟨rfl, rfl⟩⟩
      rw [Database.commitRefresh_request_of_ne _ _ _ _ _ _ same]
      exact rowFound
  constructor
  · intro requestId row rowFound
    obtain ⟨after, afterFound, counted⟩ := rows requestId row rowFound
    refine ⟨after, afterFound, ?_⟩
    rcases counted with ⟨same, _⟩ | incremented
    · rw [same]
    · rw [incremented]
      exact Nat.le_succ _
  · intro requestId row after rowFound afterFound changed
    obtain ⟨written, writtenFound, counted⟩ := rows requestId row rowFound
    dsimp only at afterFound
    rw [writtenFound] at afterFound
    cases afterFound
    rcases counted with ⟨_, same⟩ | incremented
    · exact absurd same changed
    · rw [incremented]
      exact Nat.lt_succ_self _

theorem step (postgresql : deployment.dialect = .postgresql)
    {action : Action} (versioned : Versioned state)
    (current : VersionCurrent state action)
    (stepped : FleetPrivacy.step deployment state action = some next) :
    Versioned next ∧ state.database.VersionsLead next.database := by
  have grounded := versioned.grounded.step stepped
  have formed := versioned.grounded.tidy.tables
  have effect := effect_of_step formed.taskIds stepped
  have lead : state.database.VersionsLead next.database := by
    by_cases refresh : ∃ index noticeId now,
        action = .refreshCommit index noticeId now
    · obtain ⟨index, noticeId, now, rfl⟩ := refresh
      exact (versioned.refreshed effect).1
    · intro requestId row found
      obtain ⟨after, afterFound, same⟩ := versions_eq effect
        (fun index noticeId now isRefresh =>
          refresh ⟨index, noticeId, now, isRefresh⟩) found
      exact ⟨after, afterFound, Nat.le_of_eq same.symm⟩
  refine ⟨⟨grounded, versioned.exclusive.step postgresql effect, ?_⟩, lead⟩
  intro call member requestId own reference phase copy held row rowFound
  obtain ⟨slot, located⟩ := List.getElem?_of_mem member
  rcases effect.refreshing located phase with
    ⟨old, before, oldFound, oldPhase, session, elsewhere⟩ |
    ⟨old, session, isSelect, oldFound, target, loaded, same⟩
  · rw [← session] at held
    have oldMember := List.mem_of_getElem? oldFound
    obtain ⟨committed, committedFound, _⟩ :=
      versioned.grounded.request_of_copy oldMember held
    have agreed := versioned.locked old oldMember requestId own before oldPhase
      copy held committed committedFound
    by_cases refresh : ∃ index noticeId now,
        action = .refreshCommit index noticeId now
    · -- Another refresh commits, so it is one of another request.
      obtain ⟨index, noticeId, now, rfl⟩ := refresh
      obtain ⟨other, lockedId, lockedOwn, uploadedTo, request, otherFound,
        otherPhase, otherHeld, _, _, rfl⟩ := effect.of_refreshCommit
      obtain ⟨_, _, key, _⟩ := versioned.grounded.request_of_copy
        (List.mem_of_getElem? otherFound) otherHeld
      have different : requestId ≠ request.id := by
        intro isSame
        apply elsewhere noticeId now
        have sameSlot := versioned.exclusive slot index old other
          requestId oldFound otherFound
          (Phase.refreshes_iff.mpr ⟨own, before, oldPhase⟩)
          (Phase.refreshes_iff.mpr ⟨lockedOwn, uploadedTo, by
            rw [isSame, key]
            exact otherPhase⟩)
        rw [sameSlot]
      dsimp only at rowFound
      rw [Database.commitRefresh_request_of_ne _ _ _ _ _ _ different,
        committedFound] at rowFound
      cases rowFound
      exact agreed
    · obtain ⟨after, afterFound, sameVersion⟩ := versions_eq effect
        (fun index noticeId now isRefresh =>
          refresh ⟨index, noticeId, now, isRefresh⟩) committedFound
      rw [rowFound] at afterFound
      cases afterFound
      exact agreed.trans sameVersion.symm
  · subst isSelect
    rw [same] at rowFound
    obtain ⟨rowMember, rowId⟩ := Database.request_mem rowFound
    rw [loaded, Session.loadRefresh_request] at held
    rcases Option.or_eq_some_iff.mp held with kept | ⟨_, fresh⟩
    · exact current _ (target.refreshTarget formed oldFound) copy kept row
        rowMember rowId
    · obtain ⟨inFilter, copyId⟩ := Table.get_mem fresh
      have isRow : copy = row := formed.requestIds.eq_of_mem
        (List.mem_filter.mp inFilter).1 rowMember (copyId.trans rowId.symm)
      rw [isRow]

theorem initial : Versioned State.initial := by
  refine ⟨State.Grounded.initial, State.exclusive_initial, ?_⟩
  intro call member
  cases member

end Versioned

/-- In every run on PostgreSQL whose refreshes work on the committed version,
versions never decrease, and a refresh that changes the status leaves a version
greater than every one committed before. -/
theorem version_counts_status_changes (deployment : Deployment)
    (postgresql : deployment.dialect = .postgresql)
    {actions continuation : List Action} {earlier state : State}
    (execution : Runs (step deployment) VersionCurrent State.initial actions
      earlier)
    (further : Runs (step deployment) VersionCurrent earlier continuation
      state) :
    earlier.database.VersionsLead state.database ∧
      ∀ index noticeId now next,
        step deployment state (.refreshCommit index noticeId now) =
          some next →
        ∀ requestId first before after,
          earlier.database.request requestId = some first →
          state.database.request requestId = some before →
          next.database.request requestId = some after →
          after.status ≠ before.status → first.version < after.version := by
  have preserved : ∀ {before : State} {action : Action} {after : State},
      Versioned before → VersionCurrent before action →
      step deployment before action = some after →
      Versioned after ∧ before.database.VersionsLead after.database :=
    fun versioned current stepped => versioned.step postgresql current
      stepped
  have reached := execution.invariant
    (fun versioned current stepped => (preserved versioned current stepped).1)
    Versioned.initial
  have later := further.invariant
    (fun versioned current stepped => (preserved versioned current stepped).1)
    reached
  have lead := further.related
    (fun state => Database.VersionsLead.refl state.database)
    (fun left right => left.trans right) preserved reached
  refine ⟨lead, ?_⟩
  intro index noticeId now next stepped requestId first before after
    firstFound beforeFound afterFound changed
  have effect := effect_of_step later.grounded.tidy.tables.taskIds stepped
  obtain ⟨current, currentFound, grown⟩ := lead requestId first firstFound
  rw [beforeFound] at currentFound
  cases currentFound
  exact Nat.lt_of_le_of_lt grown ((later.refreshed effect).2 requestId before
    after beforeFound afterFound changed)

/-! Two workers delete from the two sources of one request. -/

private def demoDeleteRequest : Intake :=
  demoIntake 'a' .delete ["jobs", "profile"] demoSources_nodup
    demoSources_allowed

private def deletionWork : Work :=
  { ending := .returned (deleteResult []), deleted := [], deletedAt := 0 }

private def deletionRefreshed (call : Nat) : List Action :=
  [.refreshSelect call, .refreshCommit call "n" 20]

private def deliveredDeletions : List Action :=
  .create demoDeleteRequest :: demoRelay 0 3 ++
    [.deliver "w1" 1 false, .deliver "w2" 2 false]

/-- The second worker starts after the first one has refreshed. -/
private def successiveRefreshes : List Action :=
  deliveredDeletions ++ demoExecution 0 deletionWork ++ deletionRefreshed 0 ++
    demoExecution 1 deletionWork ++ [.refreshSelect 1]

theorem successive_deletions_count :
    ∃ state next, Runs (step demoDeployment) VersionCurrent State.initial
        successiveRefreshes state ∧
      step demoDeployment state (.refreshCommit 1 "n" 20) = some next ∧
      next.database.requests.map (fun row => (row.status, row.version)) =
        [(.completed, 3)] ∧
      state.database.VersionsLead state.database ∧
      ∀ requestId before after,
        state.database.request requestId = some before →
        next.database.request requestId = some after →
        after.status ≠ before.status → before.version < after.version := by
  have evaluated : ((run (step demoDeployment) VersionCurrent State.initial
      successiveRefreshes).bind fun state =>
        (step demoDeployment state (.refreshCommit 1 "n" 20)).map fun next =>
          next.database.requests.map fun row => (row.status, row.version)) =
      some [(.completed, 3)] := by
    decide +kernel
  obtain ⟨state, result, rest⟩ := Option.bind_eq_some_iff.mp evaluated
  obtain ⟨next, stepped, versions⟩ := Option.map_eq_some_iff.mp rest
  have execution := runs_of_run result
  obtain ⟨lead, counted⟩ := version_counts_status_changes demoDeployment
    rfl execution (.nil state)
  refine ⟨state, next, execution, stepped, versions, lead, ?_⟩
  intro requestId before after beforeFound afterFound changed
  exact counted 1 "n" 20 next stepped requestId before before after beforeFound
    beforeFound afterFound changed

/-! Both workers have loaded the request before either refreshes. -/

private def overlappingRefreshes : List Action :=
  deliveredDeletions ++
    [.messageGet 0 11, .messageClaim 0, .selectTask 0, .work 0 deletionWork,
      .messageGet 1 11, .messageClaim 1, .selectTask 1, .work 1 deletionWork,
      .recordTask 0 12] ++ deletionRefreshed 0 ++
    [.recordTask 1 13, .refreshSelect 1]

theorem overlapping_deletions_reuse_version :
    ∃ state next before after,
      Runs (step demoDeployment) QueueDriven State.initial
        overlappingRefreshes state ∧
      step demoDeployment state (.refreshCommit 1 "n" 20) = some next ∧
      state.database.request "a" = some before ∧
      next.database.request "a" = some after ∧
      after.status ≠ before.status ∧ ¬ before.version < after.version := by
  have evaluated : ((run (step demoDeployment) QueueDriven State.initial
      overlappingRefreshes).bind fun state =>
        (step demoDeployment state (.refreshCommit 1 "n" 20)).bind fun next =>
          (state.database.request "a").bind fun before =>
            (next.database.request "a").map fun after =>
              (before.status, before.version, after.status, after.version)) =
      some (.verifying, 2, .completed, 2) := by
    decide +kernel
  obtain ⟨state, result, rest⟩ := Option.bind_eq_some_iff.mp evaluated
  obtain ⟨next, stepped, rest⟩ := Option.bind_eq_some_iff.mp rest
  obtain ⟨before, beforeFound, rest⟩ := Option.bind_eq_some_iff.mp rest
  obtain ⟨after, afterFound, columns⟩ := Option.map_eq_some_iff.mp rest
  refine ⟨state, next, before, after, runs_of_run result, stepped, beforeFound,
    afterFound, ?_, ?_⟩
  · intro same
    have status := congrArg (fun columns => columns.1) columns
    have later := congrArg (fun columns => columns.2.2.1) columns
    dsimp only at status later
    rw [status, later] at same
    cases same
  · have version := congrArg (fun columns => columns.2.1) columns
    have later := congrArg (fun columns => columns.2.2.2) columns
    dsimp only at version later
    rw [version, later]
    exact Nat.lt_irrefl 2

end FleetPrivacy
