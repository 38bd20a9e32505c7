import FleetPrivacy.Worker

/-!
# Access artifacts

`artifacts.py` and `_write_artifact`.  A store maps a resolved path or an S3
object to its content; local paths follow `pathlib` on a file system without
symbolic links.
-/

namespace FleetPrivacy

/-- A parsed `PurePosixPath`; `root` is empty for a relative path. -/
structure PosixPath where
  root : String
  parts : List String
  deriving DecidableEq, Repr

namespace PosixPath

/-- `Path(text)`: empty and `.` components disappear, and exactly two leading
slashes are kept. -/
def parse (text : String) : PosixPath :=
  { root := match (text.toList.takeWhile (· = '/')).length with
      | 0 => ""
      | 2 => "//"
      | _ => "/"
    parts := ((text.toList.splitOn '/').filter fun part =>
      decide (part ≠ [] ∧ part ≠ ['.'])).map String.ofList }

/-- `left / right`. -/
def join (left right : PosixPath) : PosixPath :=
  if right.root = "" then
    { root := left.root, parts := left.parts ++ right.parts }
  else right

/-- `str(path)`. -/
def text (path : PosixPath) : String :=
  if path.root = "" ∧ path.parts = [] then "."
  else path.root ++ "/".intercalate path.parts

/-- One component of `resolve`. -/
def enter (parts : List String) (part : String) : List String :=
  if part = ".." then parts.dropLast else parts ++ [part]

/-- The components of `path.resolve()`. -/
def resolve (workingDirectory : List String) (path : PosixPath) :
    List String :=
  ((if path.root = "" then workingDirectory else []) ++ path.parts).foldl
    enter []

end PosixPath

/-- Everything outside the tables that the services are configured with. -/
structure Deployment where
  runtime : Runtime
  settings : Settings
  dialect : Dialect
  workingDirectory : List String
  /-- `datetime.isoformat`. -/
  isoformat : Time → String
  /-- `generate_presigned_url("get_object", …)`: bucket, key and lifetime. -/
  presign : String → String → Nat → String

/-- Where an artifact's content is kept. -/
inductive ArtifactLocation where
  | file (parts : List String)
  | object (bucket key : String)
  deriving DecidableEq, Repr

abbrev ArtifactStore := List (ArtifactLocation × String)

def ArtifactStore.put (store : ArtifactStore) (location : ArtifactLocation)
    (content : String) : ArtifactStore :=
  (location, content) :: store

def ArtifactStore.get (store : ArtifactStore) (location : ArtifactLocation) :
    Option String :=
  store.lookup location

/-- `encode_artifact`. -/
def encodeArtifact (runtime : Runtime) (document : Json) : String × String :=
  (document.dumps, runtime.sha256 document.dumps)

/-- `str.strip("/")`. -/
def stripSlashes (text : String) : String :=
  String.ofList ((text.toList.dropWhile (· = '/')).reverse.dropWhile
    (· = '/')).reverse

/-- `self.root / tenant_id / f"{request_id}.json"`. -/
def localArtifactPath (settings : Settings) (tenantId requestId : String) :
    PosixPath :=
  ((PosixPath.parse settings.artifactDir).join
    (PosixPath.parse tenantId)).join (PosixPath.parse (requestId ++ ".json"))

/-- `f"{self.key_prefix}/{tenant_id}/{request_id}.json"`. -/
def s3ArtifactKey (keyPrefix tenantId requestId : String) : String :=
  stripSlashes keyPrefix ++ "/" ++ tenantId ++ "/" ++ requestId ++ ".json"

/-- The uri that `put_json` returns. -/
def artifactUri (settings : Settings) (tenantId requestId : String) : String :=
  match settings.artifactBackend with
  | .localDirectory => (localArtifactPath settings tenantId requestId).text
  | .s3 bucket keyPrefix =>
      "s3://" ++ bucket ++ "/" ++ s3ArtifactKey keyPrefix tenantId requestId

/-- The place that `put_json` writes to. -/
def artifactLocation (deployment : Deployment) (tenantId requestId : String) :
    ArtifactLocation :=
  match deployment.settings.artifactBackend with
  | .localDirectory =>
      .file ((localArtifactPath deployment.settings tenantId requestId).resolve
        deployment.workingDirectory)
  | .s3 bucket keyPrefix =>
      .object bucket (s3ArtifactKey keyPrefix tenantId requestId)

/-- The document of `_write_artifact`. -/
def artifactDocument (deployment : Deployment) (request : PrivacyRequest)
    (tasks : List RequestTask) (now : Time) : Json :=
  .obj [
    ("request_id", .str request.id),
    ("tenant_id", .str request.tenantId),
    ("kind", .str request.kind.value),
    ("policy_version", .str request.policyVersion),
    ("sources", .obj (tasks.map fun task =>
      (task.source, task.resultSummary))),
    ("generated_at", .str (deployment.isoformat now))]

/-- `_write_artifact`: the store after the upload, and the artifact's uri. -/
def writeArtifact (deployment : Deployment) (request : PrivacyRequest)
    (tasks : List RequestTask) (now : Time) (store : ArtifactStore) :
    ArtifactStore × String :=
  (store.put (artifactLocation deployment request.tenantId request.id)
      (encodeArtifact deployment.runtime
        (artifactDocument deployment request tasks now)).1,
    artifactUri deployment.settings request.tenantId request.id)

end FleetPrivacy
