import FleetPrivacy.Artifacts
import FleetPrivacy.Library.Separated

/-!
# Paths and keys of artifacts

A path that `pathlib` built is read back from its text, and the last component
of an artifact's place is the request id with `.json`.  Two requests therefore
never share a place, whatever their tenants are called.
-/

namespace FleetPrivacy

namespace PosixPath

/-- A component that `Path` keeps. -/
def IsComponent (part : String) : Prop :=
  part ≠ "" ∧ part ≠ "." ∧ '/' ∉ part.toList

/-- What every parsed or joined path satisfies. -/
structure Canonical (path : PosixPath) : Prop where
  root : path.root = "" ∨ path.root = "/" ∨ path.root = "//"
  parts : ∀ part ∈ path.parts, IsComponent part

private theorem slash_not_mem_splitOn (text : List Char) :
    ∀ part ∈ text.splitOn '/', '/' ∉ part := by
  induction text with
  | nil => simp
  | cons character text induction =>
      rw [List.splitOn_cons_eq_if_modifyHead]
      split
      next =>
        intro part member
        rcases List.mem_cons.mp member with rfl | inTail
        · simp
        · exact induction part inTail
      next other =>
        cases split : text.splitOn '/' with
        | nil => exact absurd split (List.splitOn_ne_nil '/' text)
        | cons first rest =>
            rw [split] at induction
            intro part member
            rcases List.mem_cons.mp member with rfl | inRest
            · have clean := induction first (by simp)
              simpa [clean] using Ne.symm (by simpa using other)
            · exact induction part (by simp [inRest])

theorem canonical_parse (text : String) : (parse text).Canonical := by
  constructor
  · unfold parse
    split
    · exact .inl rfl
    · exact .inr (.inr rfl)
    · exact .inr (.inl rfl)
  · intro part member
    obtain ⟨characters, kept, rfl⟩ := List.mem_map.mp member
    obtain ⟨inSplit, proper⟩ := List.mem_filter.mp kept
    obtain ⟨nonempty, notDot⟩ := of_decide_eq_true proper
    refine ⟨?_, ?_, ?_⟩
    · intro same
      exact nonempty (by simpa using congrArg String.toList same)
    · intro same
      exact notDot (by simpa using congrArg String.toList same)
    · simpa using slash_not_mem_splitOn _ _ inSplit

theorem Canonical.join {left right : PosixPath} (leftOk : left.Canonical)
    (rightOk : right.Canonical) : (left.join right).Canonical := by
  unfold PosixPath.join
  split
  next =>
    refine ⟨leftOk.root, ?_⟩
    intro part member
    rcases List.mem_append.mp member with inLeft | inRight
    · exact leftOk.parts part inLeft
    · exact rightOk.parts part inRight
  next => exact rightOk

private theorem takeWhile_slashes (count : Nat) {body : List Char}
    (head : body.head? ≠ some '/') :
    (List.replicate count '/' ++ body).takeWhile (· = '/') =
      List.replicate count '/' := by
  induction count with
  | zero =>
      cases body with
      | nil => rfl
      | cons first rest =>
          have other : first ≠ '/' := by simpa using head
          simp [other]
  | succ count induction =>
      simpa [List.replicate_succ] using induction

private theorem splitOn_slashes (count : Nat) (body : List Char) :
    (List.replicate count '/' ++ body).splitOn '/' =
      List.replicate count [] ++ body.splitOn '/' := by
  induction count with
  | zero => rfl
  | succ count induction =>
      rw [List.replicate_succ, List.cons_append,
        List.splitOn_cons_eq_if_modifyHead, induction]
      simp [List.replicate_succ]

/-- The components of a text made of slashes and joined components. -/
private theorem parse_joined {count : Nat} {text : String}
    {parts : List String} (nonempty : parts ≠ [])
    (components : ∀ part ∈ parts, IsComponent part)
    (spelled : text.toList =
      List.replicate count '/' ++ (['/'].intercalate
        (parts.map String.toList))) :
    (text.toList.takeWhile (· = '/')).length = count ∧
      (parse text).parts = parts := by
  have clean : ∀ part ∈ parts.map String.toList, '/' ∉ part := by
    intro characters member
    obtain ⟨part, present, rfl⟩ := List.mem_map.mp member
    exact (components part present).2.2
  have head : (['/'].intercalate (parts.map String.toList)).head? ≠
      some '/' := by
    cases parts with
    | nil => exact absurd rfl nonempty
    | cons first rest =>
        obtain ⟨proper, _, slashFree⟩ := components first (by simp)
        cases letters : first.toList with
        | nil => exact absurd (String.toList_eq_nil_iff.mp letters) proper
        | cons letter letters =>
            rw [letters] at slashFree
            have other : letter ≠ '/' := by
              rintro rfl
              exact slashFree (by simp)
            simpa [letters, List.intercalate_cons_cons_left] using other
  constructor
  · rw [spelled, takeWhile_slashes count head, List.length_replicate]
  · have divided : text.toList.splitOn '/' =
        List.replicate count [] ++ parts.map String.toList := by
      rw [spelled, splitOn_slashes, List.splitOn_intercalate '/' clean
        (by simpa using nonempty)]
    have dropped : (List.replicate count ([] : List Char)).filter
        (fun part => decide (part ≠ [] ∧ part ≠ ['.'])) = [] := by
      rw [List.filter_eq_nil_iff]
      intro part member
      simp [List.eq_of_mem_replicate member]
    have kept : (parts.map String.toList).filter
        (fun part => decide (part ≠ [] ∧ part ≠ ['.'])) =
          parts.map String.toList := by
      rw [List.filter_eq_self]
      intro characters member
      obtain ⟨part, present, rfl⟩ := List.mem_map.mp member
      obtain ⟨proper, notDot, _⟩ := components part present
      refine decide_eq_true ⟨?_, ?_⟩
      · intro empty
        exact proper (String.toList_eq_nil_iff.mp empty)
      · intro dot
        exact notDot (String.toList_inj.mp dot)
    calc (parse text).parts
        = ((text.toList.splitOn '/').filter fun part =>
            decide (part ≠ [] ∧ part ≠ ['.'])).map String.ofList := rfl
      _ = (parts.map String.toList).map String.ofList := by
          rw [divided, List.filter_append, dropped, kept, List.nil_append]
      _ = parts := by simp

/-- `Path(str(path)) == path`. -/
theorem parse_text {path : PosixPath} (canonical : path.Canonical) :
    parse path.text = path := by
  obtain ⟨root, parts⟩ := path
  obtain ⟨rooted, components⟩ := canonical
  by_cases bare : parts = []
  · cases bare
    rcases rooted with rfl | rfl | rfl <;> rfl
  · have shown : (PosixPath.mk root parts).text =
        root ++ "/".intercalate parts := by
      simp [text, bare]
    have spelled : ∀ count, root.toList = List.replicate count '/' →
        (PosixPath.mk root parts).text.toList = List.replicate count '/' ++
          (['/'].intercalate (parts.map String.toList)) := by
      intro count slashes
      rw [shown, String.toList_append, slashes, String.toList_intercalate]
      rfl
    rcases rooted with rfl | rfl | rfl
    · obtain ⟨count, same⟩ :=
        parse_joined bare components (spelled 0 rfl)
      exact congrArg₂ PosixPath.mk (by rw [count]; rfl) same
    · obtain ⟨count, same⟩ :=
        parse_joined bare components (spelled 1 rfl)
      exact congrArg₂ PosixPath.mk (by rw [count]; rfl) same
    · obtain ⟨count, same⟩ :=
        parse_joined bare components (spelled 2 rfl)
      exact congrArg₂ PosixPath.mk (by rw [count]; rfl) same

/-- A last component other than `..` survives `resolve`. -/
theorem resolve_of_parts_append {path : PosixPath} {front : List String}
    {last : String} (ends : path.parts = front ++ [last])
    (notParent : last ≠ "..") (workingDirectory : List String) :
    ∃ parents, path.resolve workingDirectory = parents ++ [last] := by
  refine ⟨((if path.root = "" then workingDirectory else []) ++
    front).foldl enter [], ?_⟩
  rw [resolve, ends, ← List.append_assoc, List.foldl_append]
  simp [enter, notParent]

end PosixPath

/-! ## Places of artifacts -/

section Places

variable {requestId : String}

private theorem json_toList (requestId : String) :
    (requestId ++ ".json").toList = requestId.toList ++ ".json".toList :=
  String.toList_append

private theorem json_plain (plain : '/' ∉ requestId.toList) :
    '/' ∉ (requestId ++ ".json").toList := by
  rw [json_toList, List.mem_append]
  rintro (inId | inSuffix)
  · exact plain inId
  · revert inSuffix
    decide

private theorem json_length (requestId : String) :
    5 ≤ (requestId ++ ".json").toList.length := by
  rw [json_toList, List.length_append]
  exact Nat.le_add_left 5 _

theorem json_injective {first second : String}
    (same : first ++ ".json" = second ++ ".json") : first = second := by
  have characters := congrArg String.toList same
  rw [json_toList, json_toList] at characters
  exact String.toList_inj.mp (List.append_cancel_right characters)

theorem json_ne_parent (requestId : String) :
    requestId ++ ".json" ≠ ".." := by
  intro same
  have long := json_length requestId
  rw [same] at long
  exact absurd long (by decide)

theorem parse_json (plain : '/' ∉ requestId.toList) :
    PosixPath.parse (requestId ++ ".json") =
      { root := "", parts := [requestId ++ ".json"] } := by
  have component : PosixPath.IsComponent (requestId ++ ".json") := by
    have long := json_length requestId
    refine ⟨?_, ?_, json_plain plain⟩
    · intro same
      rw [same] at long
      exact absurd long (by decide)
    · intro same
      rw [same] at long
      exact absurd long (by decide)
  have canonical : (PosixPath.mk "" [requestId ++ ".json"]).Canonical := by
    refine ⟨.inl rfl, ?_⟩
    intro part member
    rw [List.mem_singleton.mp member]
    exact component
  have shown : (PosixPath.mk "" [requestId ++ ".json"]).text =
      requestId ++ ".json" := by
    simp [PosixPath.text]
  rw [← shown]
  exact PosixPath.parse_text canonical

theorem canonical_localArtifactPath (settings : Settings)
    (tenantId requestId : String) :
    (localArtifactPath settings tenantId requestId).Canonical :=
  ((PosixPath.canonical_parse _).join (PosixPath.canonical_parse _)).join
    (PosixPath.canonical_parse _)

theorem localArtifactPath_parts (settings : Settings) (tenantId : String)
    (plain : '/' ∉ requestId.toList) :
    ∃ front, (localArtifactPath settings tenantId requestId).parts =
      front ++ [requestId ++ ".json"] := by
  refine ⟨((PosixPath.parse settings.artifactDir).join
    (PosixPath.parse tenantId)).parts, ?_⟩
  simp [localArtifactPath, parse_json plain, PosixPath.join]

/-- What `download_artifact` resolves is the place that `put_json` wrote. -/
theorem artifactLocation_of_local {deployment : Deployment}
    (onDisk : deployment.settings.artifactBackend = .localDirectory)
    (tenantId requestId : String) :
    artifactLocation deployment tenantId requestId =
      .file ((PosixPath.parse (artifactUri deployment.settings tenantId
        requestId)).resolve deployment.workingDirectory) := by
  have written := canonical_localArtifactPath deployment.settings tenantId
    requestId
  simp only [artifactLocation, artifactUri, onDisk,
    PosixPath.parse_text written]

private theorem s3ArtifactKey_toList (keyPrefix tenantId requestId : String) :
    (s3ArtifactKey keyPrefix tenantId requestId).toList =
      ((stripSlashes keyPrefix).toList ++ '/' :: tenantId.toList) ++
        '/' :: (requestId ++ ".json").toList := by
  simp [s3ArtifactKey, List.append_assoc]

/-- Different requests keep their artifacts in different places. -/
theorem artifactLocation_injective {deployment : Deployment}
    {firstTenant secondTenant first second : String}
    (firstPlain : '/' ∉ first.toList) (secondPlain : '/' ∉ second.toList)
    (same : artifactLocation deployment firstTenant first =
      artifactLocation deployment secondTenant second) :
    first = second := by
  unfold artifactLocation at same
  cases backend : deployment.settings.artifactBackend with
  | localDirectory =>
      simp only [backend, ArtifactLocation.file.injEq] at same
      obtain ⟨firstFront, firstEnds⟩ := localArtifactPath_parts
        deployment.settings firstTenant firstPlain
      obtain ⟨secondFront, secondEnds⟩ := localArtifactPath_parts
        deployment.settings secondTenant secondPlain
      obtain ⟨firstParents, firstResolved⟩ :=
        PosixPath.resolve_of_parts_append firstEnds (json_ne_parent first)
          deployment.workingDirectory
      obtain ⟨secondParents, secondResolved⟩ :=
        PosixPath.resolve_of_parts_append secondEnds (json_ne_parent second)
          deployment.workingDirectory
      rw [firstResolved, secondResolved] at same
      exact json_injective
        (List.singleton_inj.mp (List.append_inj_right' same rfl))
  | s3 bucket keyPrefix =>
      simp only [backend, ArtifactLocation.object.injEq, true_and] at same
      have characters := congrArg String.toList same
      rw [s3ArtifactKey_toList, s3ArtifactKey_toList] at characters
      exact json_injective (String.toList_inj.mp (Separated.last_unique
        characters (json_plain firstPlain) (json_plain secondPlain)))

end Places

end FleetPrivacy
