import FleetPrivacy.Api
import FleetPrivacy.ArtifactPaths
import FleetPrivacy.ControlPlane
import FleetPrivacy.Library.Walk

/-!
# Where local artifacts are kept

`LocalArtifactStore.put_json` joins the tenant id into a path as it is, and
`tenant_context` admits any text of 2 to 64 characters.  `download_artifact`
serves a file below the artifact root only.  A tenant id is a walk from the
root: the file is below the root when the walk comes down the way that it
climbed, and an absolute tenant id walks from `/`.
-/

namespace FleetPrivacy

open Walk

/-! ## The directory of a tenant -/

/-- The components of the resolved artifact root. -/
def Deployment.artifactRoot (deployment : Deployment) : List String :=
  (PosixPath.parse deployment.settings.artifactDir).resolve
    deployment.workingDirectory

/-- The text does not begin with a slash. -/
def isRelative (tenantId : String) : Bool :=
  decide ((PosixPath.parse tenantId).root = "")

/-- The levels that a tenant id climbs, and the names it then descends. -/
def tenantCourse (tenantId : String) : Course String :=
  course ".." (PosixPath.parse tenantId).parts

/-- A relative tenant id comes back through the last components of the root
that it climbed above; an absolute one begins with the root. -/
def StaysBelow (root : List String) (tenantId : String) : Prop :=
  (if isRelative tenantId then
      root.drop (root.length - (tenantCourse tenantId).climb)
    else root) <+: (tenantCourse tenantId).descent

instance (root : List String) (tenantId : String) :
    Decidable (StaysBelow root tenantId) :=
  inferInstanceAs (Decidable (_ <+: _))

/-- Where the walk of a tenant id ends. -/
def tenantFolder (root : List String) (tenantId : String) : List String :=
  (tenantCourse tenantId).follow (if isRelative tenantId then root else [])

theorem prefix_tenantFolder_iff (root : List String) (tenantId : String) :
    root <+: tenantFolder root tenantId ↔ StaysBelow root tenantId := by
  unfold tenantFolder StaysBelow
  split
  next => exact (tenantCourse tenantId).prefix_follow_iff root
  next => rw [Course.follow_root]

theorem PosixPath.resolve_eq_walk (workingDirectory : List String)
    (path : PosixPath) :
    path.resolve workingDirectory =
      walk ".." (if path.root = "" then walk ".." [] workingDirectory else [])
        path.parts := by
  unfold PosixPath.resolve walk
  rw [List.foldl_append]
  split
  next => rfl
  next => rfl

/-- Joining a path walks on from where the first one leads. -/
theorem PosixPath.resolve_join (workingDirectory : List String)
    (left right : PosixPath) :
    (left.join right).resolve workingDirectory =
      walk ".." (if right.root = "" then left.resolve workingDirectory else [])
        right.parts := by
  unfold PosixPath.join
  by_cases relative : right.root = ""
  · rw [if_pos relative, if_pos relative, PosixPath.resolve_eq_walk,
      PosixPath.resolve_eq_walk]
    exact List.foldl_append
  · rw [if_neg relative, if_neg relative, PosixPath.resolve_eq_walk,
      if_neg relative]

/-- The file of a request is in the directory of its tenant. -/
theorem resolve_localArtifactPath (deployment : Deployment) (tenantId : String)
    {requestId : String} (plain : '/' ∉ requestId.toList) :
    (localArtifactPath deployment.settings tenantId requestId).resolve
        deployment.workingDirectory =
      tenantFolder deployment.artifactRoot tenantId ++
        [requestId ++ ".json"] := by
  have folder : ((PosixPath.parse deployment.settings.artifactDir).join
      (PosixPath.parse tenantId)).resolve deployment.workingDirectory =
        tenantFolder deployment.artifactRoot tenantId := by
    rw [PosixPath.resolve_join, walk_eq_follow]
    simp [tenantFolder, isRelative, tenantCourse, Deployment.artifactRoot]
  have last : requestId ++ ".json" ≠ ".." := json_ne_parent requestId
  unfold localArtifactPath
  rw [PosixPath.resolve_join, parse_json plain, folder]
  simp [walk, enter, last]

/-! ## Serving a file -/

theorem PosixPath.text_ne_empty {path : PosixPath}
    (canonical : path.Canonical) : path.text ≠ "" := by
  intro empty
  have same := PosixPath.parse_text canonical
  rw [empty] at same
  rw [← same] at empty
  exact absurd empty (by decide)

/-- A local path is never taken for an S3 uri: its components are not empty. -/
theorem PosixPath.not_s3_uri {path : PosixPath} (canonical : path.Canonical) :
    "s3://".toList.isPrefixOf path.text.toList = false := by
  rw [Bool.eq_false_iff]
  intro isUri
  obtain ⟨rest, spelled⟩ := List.isPrefixOf_iff_prefix.mp isUri
  have uri : path.text.toList =
      ['s', '3', ':'] ++ '/' :: ([] ++ '/' :: rest) := spelled.symm
  obtain ⟨root, parts⟩ := path
  obtain ⟨rooted, components⟩ := canonical
  by_cases bare : root = "" ∧ parts = []
  · have dot : (PosixPath.mk root parts).text = "." := if_pos bare
    rw [dot] at uri
    cases uri
  · have shown : (PosixPath.mk root parts).text =
        root ++ "/".intercalate parts := if_neg bare
    rw [shown, String.toList_append, String.toList_intercalate] at uri
    rcases rooted with rfl | rfl | rfl
    · have clean : ∀ part ∈ parts.map String.toList, '/' ∉ part := by
        intro characters member
        obtain ⟨part, present, rfl⟩ := List.mem_map.mp member
        exact (components part present).2.2
      have several : parts.map String.toList ≠ [] := by
        intro none
        exact bare ⟨rfl, List.map_eq_nil_iff.mp none⟩
      have divided := congrArg (List.splitOn '/') uri
      rw [String.toList_empty, List.nil_append] at divided
      rw [List.splitOn_append_cons_self, List.splitOn_append_cons_self] at divided
      have joined : (['/'].intercalate (parts.map String.toList)).splitOn '/' =
          parts.map String.toList := List.splitOn_intercalate '/' clean several
      have emptyPart : [] ∈ parts.map String.toList := by
        rw [← joined]
        exact divided ▸ by simp
      obtain ⟨part, present, empty⟩ := List.mem_map.mp emptyPart
      exact (components part present).1 (String.toList_eq_nil_iff.mp empty)
    · cases uri
    · cases uri

/-- The file is a strict descendant of the root. -/
def StrictlyBelow (root file : List String) : Prop :=
  root <+: file ∧ root ≠ file

instance (root file : List String) : Decidable (StrictlyBelow root file) :=
  inferInstanceAs (Decidable (_ ∧ _))

theorem strictlyBelow_concat_iff {root folder : List String} {name : String} :
    StrictlyBelow root (folder ++ [name]) ↔ root <+: folder := by
  unfold StrictlyBelow
  rw [List.prefix_concat_iff]
  constructor
  · rintro ⟨same | below, different⟩
    · exact absurd same different
    · exact below
  · intro below
    refine ⟨.inr below, ?_⟩
    rintro rfl
    have longer := below.length_le
    rw [List.length_append, List.length_singleton] at longer
    omega

/-- The resolved file that `put_json` writes. -/
def artifactFile (deployment : Deployment) (tenantId requestId : String) :
    List String :=
  (localArtifactPath deployment.settings tenantId requestId).resolve
    deployment.workingDirectory

/-- Whatever else is stored, the tenant's download of the request answers with
the content of the file that `put_json` wrote for it. -/
def ServedBack (deployment : Deployment) (tenantId requestId : String) :
    Prop :=
  ∀ (storage : Storage) (row : PrivacyRequest) (content : String),
    getPrivacyRequest storage.database tenantId requestId = some row →
    row.artifactPath =
      some (artifactUri deployment.settings tenantId requestId) →
    storage.artifacts.get
        (.file (artifactFile deployment tenantId requestId)) = some content →
    downloadArtifact deployment tenantId requestId storage =
      .ok (.file (requestId ++ ".json") content)

theorem servedBack_of_strictlyBelow {deployment : Deployment}
    (onDisk : deployment.settings.artifactBackend = .localDirectory)
    {tenantId requestId : String}
    (below : StrictlyBelow deployment.artifactRoot
      (artifactFile deployment tenantId requestId)) :
    ServedBack deployment tenantId requestId := by
  intro storage row content found stored kept
  obtain ⟨isPrefix, different⟩ := below
  have written := canonical_localArtifactPath deployment.settings tenantId
    requestId
  have uri : artifactUri deployment.settings tenantId requestId =
      (localArtifactPath deployment.settings tenantId requestId).text := by
    simp only [artifactUri, onDisk]
  have named : artifactUri deployment.settings tenantId requestId ≠ "" := by
    rw [uri]
    exact PosixPath.text_ne_empty written
  have onFile : "s3://".toList.isPrefixOf
      (artifactUri deployment.settings tenantId requestId).toList = false := by
    rw [uri]
    exact PosixPath.not_s3_uri written
  have resolved : (PosixPath.parse (artifactUri deployment.settings tenantId
      requestId)).resolve deployment.workingDirectory =
        artifactFile deployment tenantId requestId := by
    rw [uri, PosixPath.parse_text written, artifactFile]
  have contained : deployment.artifactRoot.isPrefixOf
      (artifactFile deployment tenantId requestId) = true :=
    List.isPrefixOf_iff_prefix.mpr isPrefix
  have elsewhere : deployment.artifactRoot ≠
      artifactFile deployment tenantId requestId := different
  unfold downloadArtifact
  simp only [found, stored, Option.getD_some, named, if_false, onFile,
    Bool.false_eq_true, serveFile, resolved, kept]
  unfold Deployment.artifactRoot at contained elsewhere
  rw [contained, Bool.true_and, if_pos (decide_eq_true elsewhere)]

/-! ## Tenant ids -/

/-- The file is below the root and served back exactly when the walk of the
tenant id stays there.  Files of different requests are different; one request
id under two tenant ids has one file exactly when their walks end alike. -/
theorem local_artifacts_contained_iff (deployment : Deployment)
    (onDisk : deployment.settings.artifactBackend = .localDirectory)
    (tenantId otherTenant requestId otherRequest : String)
    (plain : '/' ∉ requestId.toList) (otherPlain : '/' ∉ otherRequest.toList) :
    (StrictlyBelow deployment.artifactRoot
          (artifactFile deployment tenantId requestId) ∧
        ServedBack deployment tenantId requestId ↔
      StaysBelow deployment.artifactRoot tenantId) ∧
    (((tenantId, requestId) ≠ (otherTenant, otherRequest) →
        artifactFile deployment tenantId requestId ≠
          artifactFile deployment otherTenant otherRequest) ↔
      (requestId = otherRequest → tenantId ≠ otherTenant →
        tenantFolder deployment.artifactRoot tenantId ≠
          tenantFolder deployment.artifactRoot otherTenant)) := by
  have file : artifactFile deployment tenantId requestId =
      tenantFolder deployment.artifactRoot tenantId ++
        [requestId ++ ".json"] :=
    resolve_localArtifactPath deployment tenantId plain
  have otherFile : artifactFile deployment otherTenant otherRequest =
      tenantFolder deployment.artifactRoot otherTenant ++
        [otherRequest ++ ".json"] :=
    resolve_localArtifactPath deployment otherTenant otherPlain
  constructor
  · rw [← prefix_tenantFolder_iff]
    constructor
    · rintro ⟨below, _⟩
      rw [file] at below
      exact strictlyBelow_concat_iff.mp below
    · intro stays
      have below : StrictlyBelow deployment.artifactRoot
          (artifactFile deployment tenantId requestId) := by
        rw [file]
        exact strictlyBelow_concat_iff.mpr stays
      exact ⟨below, servedBack_of_strictlyBelow onDisk below⟩
  · rw [file, otherFile]
    constructor
    · rintro apart rfl different sameFolder
      refine apart ?_ (by rw [sameFolder])
      intro same
      exact different (congrArg Prod.fst same)
    · intro apart different sameFile
      have folders := List.append_inj_left' sameFile rfl
      have names := List.append_inj_right' sameFile rfl
      have requests := json_injective (List.singleton_inj.mp names)
      subst requests
      refine apart rfl ?_ folders
      rintro rfl
      exact different rfl

private def demoUuid : String := "00000000-0000-4000-8000-000000000000"

theorem local_artifacts_contained_for_plain_names :
    StrictlyBelow demoDeployment.artifactRoot
        (artifactFile demoDeployment "acme" demoUuid) ∧
      artifactFile demoDeployment "acme" demoUuid ≠
        artifactFile demoDeployment "globex" demoUuid := by
  have plain : '/' ∉ demoUuid.toList := by decide
  obtain ⟨contained, apart⟩ := local_artifacts_contained_iff demoDeployment rfl
    "acme" "globex" demoUuid demoUuid plain plain
  exact ⟨(contained.mpr (by decide)).1,
    apart.mpr (fun _ _ => by decide) (by decide)⟩

private def escapedStorage : Storage :=
  { database := { Database.empty with
      requests := [{ demoRequest.request demoRuntime with
        id := demoUuid
        tenantId := ".."
        artifactPath := some (artifactUri demoDeployment.settings ".."
          demoUuid) }] }
    artifacts :=
      [(.file (artifactFile demoDeployment ".." demoUuid), "content")] }

/-- The tenant `..` writes its files next to the root, where no download finds
them, and `acme/` writes into the directory of `acme`. -/
theorem local_artifacts_escape_their_root :
    (¬ ∀ (deployment : Deployment) (tenantId requestId : String),
      deployment.settings.artifactBackend = .localDirectory →
      lengthWithin 2 64 tenantId = true →
      '/' ∉ requestId.toList →
      StrictlyBelow deployment.artifactRoot
          (artifactFile deployment tenantId requestId) ∧
        ServedBack deployment tenantId requestId) ∧
      downloadArtifact demoDeployment ".." demoUuid escapedStorage =
        .httpException 404 "artifact file not found" ∧
      artifactFile demoDeployment "acme/" demoUuid =
        artifactFile demoDeployment "acme" demoUuid := by
  refine ⟨?_, by decide, by decide⟩
  intro contained
  have below := (contained demoDeployment ".." demoUuid rfl (by decide)
    (by decide)).1
  exact absurd below (by decide)

end FleetPrivacy
