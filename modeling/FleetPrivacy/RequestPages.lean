import FleetPrivacy.Api
import FleetPrivacy.Library.Paging
import FleetPrivacy.Sessions

/-!
# Reading the requests page by page

`list_privacy_requests` orders by `created_at` alone and leaves the order of
equal times open.  A client reads page after page while requests come in and
workers commit; no request that was there at the first read is passed over.
-/

namespace FleetPrivacy

open Transition

/-! ## What a select may answer -/

/-- The rows that match, newest first, in any order among equal times. -/
structure Listing (database : Database) (tenantId : String)
    (status : Option RequestStatus) (rows : List PrivacyRequest) : Prop where
  matching : rows.Perm (database.requests.filter fun request =>
    decide (request.tenantId = tenantId ∧
      ∀ wanted ∈ status, request.status = wanted))
  descending : rows.Pairwise fun first second =>
    second.createdAt ≤ first.createdAt

/-- `list_privacy_requests` answers with a page of one such order. -/
theorem listPrivacyRequests_listing (database : Database) (tenantId : String)
    (status : Option RequestStatus) (limit offset : Nat) :
    ∃ rows, Listing database tenantId status rows ∧
      listPrivacyRequests database tenantId status limit offset =
        Paging.page limit offset rows := by
  refine ⟨_, ⟨List.perm_insertionSort (fun first second : PrivacyRequest =>
    second.createdAt ≤ first.createdAt) _, ?_⟩, rfl⟩
  have : Std.Total fun first second : PrivacyRequest =>
      second.createdAt ≤ first.createdAt :=
    ⟨fun first second => le_total second.createdAt first.createdAt⟩
  have : IsTrans PrivacyRequest fun first second =>
      second.createdAt ≤ first.createdAt :=
    ⟨fun _ _ _ left right => le_trans right left⟩
  exact List.pairwise_insertionSort _ _

/-- A client reads on at the next offset as long as its pages are full; between
two reads anything can happen. -/
inductive ReadsPages (deployment : Deployment) (tenantId : String)
    (limit : Nat) : Nat → State → List (List PrivacyRequest) → State → Prop
    where
  | last {offset : Nat} {state : State} {rows : List PrivacyRequest} :
      Listing state.database tenantId none rows →
      (Paging.page limit offset rows).length < limit →
      ReadsPages deployment tenantId limit offset state [rows] state
  | more {offset : Nat} {state next finish : State}
      {rows : List PrivacyRequest} {later : List (List PrivacyRequest)} :
      Listing state.database tenantId none rows →
      (Paging.page limit offset rows).length = limit →
      Reaches (step deployment) Always state next →
      ReadsPages deployment tenantId limit (offset + limit) next later finish →
      ReadsPages deployment tenantId limit offset state (rows :: later) finish

/-! ## The columns of the order -/

def PrivacyRequest.listed (request : PrivacyRequest) :
    String × String × Time :=
  (request.id, request.tenantId, request.createdAt)

namespace Database

theorem startRow_listed (requestIds : List String) (now : Time)
    (row : PrivacyRequest) :
    (startRow requestIds now row).listed = row.listed := by
  unfold startRow
  split
  next => rfl
  next => rfl

theorem verifyRow_listed (request : PrivacyRequest) (now : Time)
    (row : PrivacyRequest) :
    (verifyRow request now row).listed = row.listed := by
  unfold verifyRow
  split
  next => rfl
  next => rfl

theorem refreshRow_listed (request : PrivacyRequest) (status : RequestStatus)
    (reference : Option String) (now : Time) (row : PrivacyRequest) :
    (refreshRow request status reference now row).listed = row.listed := by
  unfold refreshRow
  split
  next => rfl
  next => rfl

/-- Rows are only added. -/
def Extends (before after : Database) : Prop :=
  before.requests.map PrivacyRequest.listed <+:
    after.requests.map PrivacyRequest.listed

theorem Extends.refl (database : Database) : database.Extends database :=
  List.prefix_refl _

theorem Extends.trans {first second third : Database}
    (left : first.Extends second) (right : second.Extends third) :
    first.Extends third :=
  List.IsPrefix.trans left right

theorem Revises.extends_ {before after : Database}
    {task : RequestTask → RequestTask}
    {request : PrivacyRequest → PrivacyRequest}
    (revises : Revises before after task request)
    (kept : ∀ row, (request row).listed = row.listed) :
    before.Extends after := by
  have unchanged : before.requests.map PrivacyRequest.listed =
      after.requests.map PrivacyRequest.listed := by
    rw [revises.requests, List.map_map]
    apply List.map_congr_left
    intro row _
    exact (kept row).symm
  exact ⟨[], by rw [unchanged, List.append_nil]⟩

end Database

theorem Effect.extends_ {deployment : Deployment} {state next : State}
    {action : Action} (effect : Effect deployment state action next) :
    state.database.Extends next.database := by
  cases effect with
  | created intake =>
      have added : (intake.insertRows deployment.runtime
          state.database).requests.map PrivacyRequest.listed =
            state.database.requests.map PrivacyRequest.listed ++
              [(intake.request deployment.runtime).listed] :=
        List.map_append
      exact ⟨_, added.symm⟩
  | relayed | opened | moved | selected | locked | acked =>
      exact Database.Extends.refl _
  | messageClaimed | batchClaimed =>
      exact (Database.markClaimed_revises ..).extends_
        (Database.startRow_listed _ _)
  | recorded =>
      exact (Database.recordOutcome_revises ..).extends_
        (Database.verifyRow_listed _ _)
  | refreshed =>
      exact (Database.commitRefresh_revises ..).extends_
        (Database.refreshRow_listed _ _ _ _)
  | extended =>
      exact (Database.extendTaskLease_revises ..).extends_ fun _ => rfl

section Order

variable {deployment : Deployment} {tenantId : String} {limit offset : Nat}
  {state finish : State}

theorem State.extends_of_reaches (tidy : state.Tidy)
    (reaches : Reaches (step deployment) Always state finish) :
    finish.Tidy ∧ state.database.Extends finish.database := by
  obtain ⟨actions, execution⟩ := reaches
  constructor
  · exact execution.invariant (fun tidy _ stepped => tidy.step stepped) tidy
  · have preserved : ∀ {before : State} {action : Action} {after : State},
        before.Tidy → Always before action →
        step deployment before action = some after →
        after.Tidy ∧ before.database.Extends after.database := by
      intro before action after tidy _ stepped
      exact ⟨tidy.step stepped,
        (effect_of_step tidy.tables.taskIds stepped).extends_⟩
    exact execution.related (fun state => Database.Extends.refl state.database)
      (fun left right => left.trans right) preserved tidy

/-- The requests of a tenant that are newer than a time. -/
def Database.newer (database : Database) (tenantId : String) (time : Time) :
    Nat :=
  (database.requests.map PrivacyRequest.listed).countP fun columns =>
    decide (columns.2.1 = tenantId ∧ time < columns.2.2)

theorem Listing.countP {database : Database} {rows : List PrivacyRequest}
    (listing : Listing database tenantId none rows) (time : Time) :
    (rows.countP fun row => decide (time < row.createdAt)) =
      database.newer tenantId time := by
  rw [listing.matching.countP_eq, List.countP_filter, Database.newer,
    List.countP_map]
  congr 1
  funext row
  rw [Bool.eq_iff_iff, Function.comp_apply, Bool.and_eq_true,
    decide_eq_true_iff, decide_eq_true_iff, decide_eq_true_iff]
  simp [PrivacyRequest.listed, and_comm]

theorem Listing.mem_iff {database : Database} {rows : List PrivacyRequest}
    (listing : Listing database tenantId none rows) {row : PrivacyRequest} :
    row ∈ rows ↔ row ∈ database.requests ∧ row.tenantId = tenantId := by
  rw [listing.matching.mem_iff, List.mem_filter]
  simp

theorem Listing.nodup {database : Database} {rows : List PrivacyRequest}
    (listing : Listing database tenantId none rows)
    (unique : Table.KeyUnique PrivacyRequest.id database.requests) :
    (rows.map PrivacyRequest.id).Nodup :=
  (listing.matching.map PrivacyRequest.id).nodup_iff.mpr (unique.filter _)

/-- The position of a request whose time no other request of the tenant has. -/
theorem Listing.position {database : Database} {rows : List PrivacyRequest}
    (listing : Listing database tenantId none rows)
    (unique : Table.KeyUnique PrivacyRequest.id database.requests)
    {request : PrivacyRequest} (member : request ∈ database.requests)
    (own : request.tenantId = tenantId)
    (alone : ∀ other ∈ database.requests, other.tenantId = tenantId →
      other.createdAt = request.createdAt → other.id = request.id) :
    (rows[database.newer tenantId request.createdAt]?).map
      PrivacyRequest.id = some request.id := by
  have located := Paging.getElem?_of_descending listing.descending
    (listing.mem_iff.mpr ⟨member, own⟩) (by
      intro other inRows same
      obtain ⟨inTable, otherOwn⟩ := listing.mem_iff.mp inRows
      exact unique.eq_of_mem inTable member
        (alone other inTable otherOwn same))
  rw [listing.countP] at located
  rw [located]
  rfl

theorem Database.Extends.newer_le {before after : Database}
    (extended : before.Extends after) (tenantId : String) (time : Time) :
    before.newer tenantId time ≤ after.newer tenantId time :=
  extended.sublist.countP_le

/-- No newer request has come in if the newer ones at the end were there at the
start. -/
theorem Database.Extends.newer_eq {before after : Database}
    (extended : before.Extends after)
    (unique : Table.KeyUnique PrivacyRequest.id after.requests)
    {tenantId : String} {time : Time}
    (known : ∀ other ∈ after.requests, other.tenantId = tenantId →
      time < other.createdAt → ∃ old ∈ before.requests, old.id = other.id) :
    after.newer tenantId time = before.newer tenantId time := by
  obtain ⟨added, split⟩ := extended
  unfold Database.newer
  rw [← split, List.countP_append, Nat.add_eq_left, List.countP_eq_zero]
  intro columns isNew newer
  obtain ⟨own, late⟩ := of_decide_eq_true newer
  have inAfter : columns ∈ after.requests.map PrivacyRequest.listed := by
    rw [← split]
    exact List.mem_append_right _ isNew
  obtain ⟨other, inTable, rfl⟩ := List.mem_map.mp inAfter
  obtain ⟨old, inBefore, same⟩ := known other inTable own late
  -- the id would be in both parts of the table
  have ids : (after.requests.map PrivacyRequest.listed).map Prod.fst =
      after.requests.map PrivacyRequest.id := by
    rw [List.map_map]
    rfl
  have distinct : ((before.requests.map PrivacyRequest.listed).map Prod.fst ++
      added.map Prod.fst).Nodup := by
    rw [← List.map_append, split, ids]
    exact unique
  exact (List.nodup_append.mp distinct).2.2 old.id
    (List.mem_map_of_mem (List.mem_map_of_mem inBefore)) other.id
    (List.mem_map_of_mem isNew) same

/-- A row that was there is there with the columns of the order. -/
theorem Database.Extends.exists_row {before after : Database}
    (extended : before.Extends after) {request : PrivacyRequest}
    (member : request ∈ before.requests) :
    ∃ row ∈ after.requests, row.listed = request.listed :=
  List.mem_map.mp (extended.subset (List.mem_map_of_mem member))

end Order

/-! ## Reading while requests come in -/

section Reading

variable {deployment : Deployment} {tenantId : String} {limit offset : Nat}
  {state finish : State} {answers : List (List PrivacyRequest)}

/-- The reads of a client, ending in a reachable state. -/
theorem ReadsPages.extends_ (tidy : state.Tidy)
    (reads : ReadsPages deployment tenantId limit offset state answers
      finish) :
    finish.Tidy ∧ state.database.Extends finish.database ∧
      ∀ rows ∈ answers, (rows.map PrivacyRequest.id).Nodup := by
  induction reads with
  | last listing =>
      refine ⟨tidy, .refl _, ?_⟩
      intro rows member
      cases List.mem_singleton.mp member
      exact listing.nodup tidy.tables.requestIds
  | more listing _ reaches _ induction =>
      obtain ⟨next, first⟩ := State.extends_of_reaches tidy reaches
      obtain ⟨last, second, unique⟩ := induction next
      refine ⟨last, first.trans second, ?_⟩
      intro rows member
      rcases List.mem_cons.mp member with rfl | later
      · exact listing.nodup tidy.tables.requestIds
      · exact unique rows later

/-- The positions of a request in the answers, with what is known of the
numbers of newer requests. -/
theorem ReadsPages.follows {moves : Nat → Nat → Prop} (tidy : state.Tidy)
    (reads : ReadsPages deployment tenantId limit offset state answers finish)
    {request : PrivacyRequest} (member : request ∈ state.database.requests)
    (own : request.tenantId = tenantId)
    (alone : ∀ other ∈ finish.database.requests, other.tenantId = tenantId →
      other.createdAt = request.createdAt → other.id = request.id)
    (moving : ∀ before after : Database,
      state.database.Extends before → before.Extends after →
      after.Extends finish.database →
      moves (before.newer tenantId request.createdAt)
        (after.newer tenantId request.createdAt)) :
    Paging.Follows PrivacyRequest.id request.id limit moves offset
      (state.database.newer tenantId request.createdAt) answers := by
  induction reads generalizing request with
  | last listing short =>
      exact .last (listing.position tidy.tables.requestIds member own alone)
        short
  | @more offset state next finish rows later listing _ reaches rest
      induction =>
      obtain ⟨nextTidy, first⟩ := State.extends_of_reaches tidy reaches
      obtain ⟨_, second, _⟩ := rest.extends_ nextTidy
      have aloneNow : ∀ other ∈ state.database.requests,
          other.tenantId = tenantId → other.createdAt = request.createdAt →
          other.id = request.id := by
        intro other inTable otherOwn same
        obtain ⟨row, inFinish, columns⟩ :=
          (first.trans second).exists_row inTable
        simp only [PrivacyRequest.listed, Prod.mk.injEq] at columns
        rw [← columns.1]
        exact alone row inFinish (columns.2.1.trans otherOwn)
          (columns.2.2.trans same)
      obtain ⟨current, inNext, columns⟩ := first.exists_row member
      simp only [PrivacyRequest.listed, Prod.mk.injEq] at columns
      obtain ⟨id, tenant, createdAt⟩ := columns
      have followed := induction nextTidy inNext (tenant.trans own) (by
        intro other inFinish otherOwn same
        rw [id]
        exact alone other inFinish otherOwn (same.trans createdAt)) (by
        intro before after left middle right
        rw [createdAt]
        exact moving before after (first.trans left) middle right)
      rw [id, createdAt] at followed
      exact .more (listing.position tidy.tables.requestIds member own aloneNow)
        (moving state.database next.database (.refl _) first second)
        followed

/-- A client that reads until a page is short reads every request of its tenant
that was there at the first read and whose creation time no other one shares,
whatever happens in between; and reads it once if no newer request comes in. -/
theorem pages_show_every_request (deployment : Deployment) {state : State}
    (reached : Reaches (step deployment) Always .initial state)
    {tenantId : String} {limit : Nat} {answers : List (List PrivacyRequest)}
    {finish : State}
    (reads : ReadsPages deployment tenantId limit 0 state answers finish)
    {request : PrivacyRequest} (member : request ∈ state.database.requests)
    (own : request.tenantId = tenantId)
    (alone : ∀ other ∈ finish.database.requests, other.tenantId = tenantId →
      other.createdAt = request.createdAt → other.id = request.id) :
    (∃ page ∈ Paging.pages limit 0 answers,
        ∃ row ∈ page, row.id = request.id) ∧
      ((∀ other ∈ finish.database.requests, other.tenantId = tenantId →
          request.createdAt < other.createdAt →
          ∃ old ∈ state.database.requests, old.id = other.id) →
        ((Paging.pages limit 0 answers).flatten.countP fun row =>
          decide (row.id = request.id)) = 1) := by
  have tidy : state.Tidy := reached.invariant
    (fun tidy _ stepped => tidy.step stepped) State.tidy_initial
  obtain ⟨last, extended, unique⟩ := reads.extends_ tidy
  constructor
  · have rising : Paging.Follows PrivacyRequest.id request.id limit (· ≤ ·) 0
        (state.database.newer tenantId request.createdAt) answers :=
      reads.follows tidy member own alone fun before after _ later _ =>
        later.newer_le tenantId request.createdAt
    exact rising.exists_mem unique (Nat.zero_le _)
  · intro known
    have total := extended.newer_eq last.tables.requestIds known
    have staying : Paging.Follows PrivacyRequest.id request.id limit (· = ·) 0
        (state.database.newer tenantId request.createdAt) answers := by
      refine reads.follows tidy member own alone ?_
      intro before after left middle right
      have first := left.newer_le tenantId request.createdAt
      have second := middle.newer_le tenantId request.createdAt
      have third := right.newer_le tenantId request.createdAt
      omega
    rw [staying.countP unique, if_pos (Nat.zero_le _)]

end Reading

/-! A second request comes in between the reads of a client whose pages hold one
row: it reads the first request twice. -/

def demoSecondRequest : Intake :=
  { demoIntake 'b' .access ["jobs"] demoSource_nodup demoSource_allowed with
    idempotencyKey := "second"
    fresh := {
      ids := fun index => String.ofList (List.replicate (index + 1) 'b')
      clock := fun index => index + 100 } }

def demoListed : State :=
  { State.initial with
    database := demoRequest.insertRows demoDeployment.runtime .empty }

def demoListedLater : State :=
  { demoListed with
    database := demoSecondRequest.insertRows demoDeployment.runtime
      demoListed.database }

theorem demoListed_created : step demoDeployment .initial
    (.create demoRequest) = some demoListed := by
  unfold step createStep
  exact if_pos (by decide +kernel)

theorem demoListedLater_created : step demoDeployment demoListed
    (.create demoSecondRequest) = some demoListedLater := by
  unfold step createStep
  exact if_pos (by decide +kernel)

def demoNewestFirst : List PrivacyRequest :=
  [demoSecondRequest.request demoDeployment.runtime,
    demoRequest.request demoDeployment.runtime]

theorem request_is_read_across_an_insertion :
    ∃ page ∈ Paging.pages 1 0 [demoNewestFirst.drop 1, demoNewestFirst, demoNewestFirst],
      ∃ row ∈ page, row.id = "a" := by
  have first : Listing demoListed.database "t" none (demoNewestFirst.drop 1) :=
    ⟨by decide +kernel, by decide +kernel⟩
  have later : Listing demoListedLater.database "t" none demoNewestFirst :=
    ⟨by decide +kernel, by decide +kernel⟩
  have reads : ReadsPages demoDeployment "t" 1 0 demoListed
      [demoNewestFirst.drop 1, demoNewestFirst, demoNewestFirst] demoListedLater :=
    .more first (by decide +kernel)
      (.single trivial demoListedLater_created)
      (.more later (by decide +kernel) (.refl _)
        (.last later (by decide +kernel)))
  have member : demoRequest.request demoDeployment.runtime ∈
      demoListed.database.requests := by
    decide +kernel
  exact (pages_show_every_request demoDeployment
    (.single trivial demoListed_created) reads member rfl
    (by decide +kernel)).1

end FleetPrivacy
