import NpuStack.Publish.Deploy
import NpuStack.Publish.PublishRelease

/-! `verify_live`: after a deployment, the live site serves the release and no retired one.

        archive, record ──▶ checks ──wait: plain URLs, 404s──▶ converged
                                       ──every file past the cache──▶ site = archive, signed

    A check that passed is not repeated. The wait goes on to the first reading of the clock at or
    past the deadline; how many rounds it may take is a parameter, and a clock that advances makes
    enough of them (`verifyLive_waits`). -/

namespace NpuStack.Publish
open Interaction Text
open Py (Value)
open NpuStack.Packaging (releaseVersion)

/-! ### The live site and the clock -/

/-- How a GET of the live site ends. -/
inductive Fetched where
  | answered (status : ℕ) (body : Bytes)
  /-- A network or protocol failure. -/
  | failed
  /-- A body above the limit, or a redirect that leaves HTTPS or does not end. -/
  | refused

inductive LiveQuestion where
  /-- `time.monotonic`, in nanoseconds. -/
  | clock
  /-- `sleep(30)`. -/
  | sleep
  /-- A GET, past the CDN cache or at the plain URL. -/
  | fetch (busted : Bool) (url : String)

abbrev LiveAnswer : LiveQuestion → Type
  | .clock => ℤ
  | .sleep => Unit
  | .fetch _ _ => Fetched

/-- A gate refuses, or the rounds of a wait were not enough. -/
inductive Stopped where
  | refused (message : String)
  | unfinished

abbrev Verifying (α : Type) : Type := Prog LiveAnswer Stopped α

def gate {α : Type} (x : Except String α) : Verifying α := liftM (x.mapError Stopped.refused)

def readClock : Verifying ℤ := Prog.query LiveQuestion.clock

def pause : Verifying Unit := Prog.query LiveQuestion.sleep

def tryFetch (busted : Bool) (url : String) : Verifying Fetched :=
  Prog.query (LiveQuestion.fetch busted url)

/-- A GET outside the wait. -/
def fetchLive (url : String) : Verifying (ℕ × Bytes) :=
  Prog.expect (.fetch true url) fun fetched =>
    match fetched with
    | .answered status body => .ok (status, body)
    | .failed => .error (.refused "GET failed")
    | .refused => .error (.refused "the response was refused")

/-! ### Waiting for the deployment to converge -/

def PLAIN : List String :=
  ["release.json", "release.json.sig", "profile.toml", "install.sh", "intel-npu-stack-install",
    "primary-command.txt", "repodata/repomd.xml"]

/-- One thing to wait for: a status, and the digest of a body that is served. -/
structure LiveCheck where
  url : String
  busted : Bool
  wanted : ℕ × Option String
  what : String

section
variable (tools : Tools)

/-- `live_sha`. -/
def liveSha (status : ℕ) (body : Bytes) : ℕ × Option String :=
  (status, if status = 200 then some (tools.sha256 body) else none)

/-- The text of a check that has not passed. -/
def LiveCheck.problem (check : LiveCheck) (status : ℕ) : String :=
  check.what ++ " " ++ (if check.busted then "past the CDN cache" else "at its plain URL") ++
    " (HTTP " ++ toString status ++ ")"

/-- A check that has not passed is tried again, up to the deadline. -/
def retry (deadline : ℤ) (problem : String) (rest : Verifying Unit) : Verifying Unit := do
  let now ← readClock
  gate (require (now < deadline) problem)
  pause
  rest

/-- The rounds of one check. -/
def waitFor (deadline : ℤ) (check : LiveCheck) : ℕ → Verifying Unit
  | 0 => Prog.fail .unfinished
  | rounds + 1 => do
    match ← tryFetch check.busted check.url with
    | .answered status body =>
      if liveSha tools status body = check.wanted then return ()
      else retry deadline (check.problem status) (waitFor deadline check rounds)
    -- Right after a deployment a network error only means that it has not converged yet.
    | .failed =>
      retry deadline "the live site could not be read before the timeout"
        (waitFor deadline check rounds)
    | .refused => Prog.fail (.refused "the response was refused")

/-- A member of the release archive, after those seen so far: paths with their digests. -/
def expectMember (version : String) (expected : Digests) (member : Member) :
    Except String Digests := do
  let path := (stripPrefix (version ++ "/") member.name).getD ""
  require (member.regular = true ∧ plainPath path = true ∧ path ∉ expected.map Prod.fst)
    "unsafe or duplicate member in the release archive"
  return expected ++ [(path, tools.sha256 member.content)]

/-- Every file of this version at its plain URL: the ones users start from, then the rest in
    order. -/
def fileChecks (base : String) (expected : Digests) : List LiveCheck :=
  (PLAIN ++ ((expected.map Prod.fst).filter fun path => path ∉ PLAIN).mergeSort
    (· ≤ ·)).map fun path =>
    ⟨base ++ path, false, (200, expected.lookup path), "the live " ++ path ++
      " is still stale or missing"⟩

/-- Every file of a retired version is gone. -/
def goneChecks (rootUrl : String) (retired : List (String × List String)) : List LiveCheck :=
  (retired.mergeSort fun a b => versionKey a.1 ≤ versionKey b.1).flatMap fun (old, paths) =>
    (paths.map (fun path => (path, false)) ++ [("release.json", true), ("SHA256SUMS", true)]).map
      fun (path, busted) => ⟨rootUrl ++ old ++ "/" ++ path, busted, (404, none),
        "the retired " ++ old ++ "/" ++ path ++ " still does not return 404"⟩

/-! ### The files past the CDN cache -/

/-- Fetch a file into the directory of those fetched so far. -/
def fetchFile (base : String) (site : Site) (item : String × String) : Verifying Site := do
  let (path, digest) := item
  -- A file in the place of a directory, or a directory in the place of this file.
  gate (require (conflicting (path :: site.map Prod.fst) = false) "the file cannot be created")
  let (status, body) ← fetchLive (base ++ path)
  gate (require (status = 200 ∧ tools.sha256 body = digest)
    ("the live " ++ path ++ " differs from the release (HTTP " ++ toString status ++ ")"))
  return site ++ [(path, body)]

/-- The fetched files repack into the archive, are signed, and are exactly what their sums list. -/
def checkSite (values : Values) (fingerprint archiveSha commit : String) (expected : Digests)
    (site : Site) : Except String Unit := do
  require (tools.canonicalSha site = some archiveSha)
    "the live files do not repack into the release archive"
  let sums ← need (site.lookup "SHA256SUMS") malformed
  let signature ← need (site.lookup "SHA256SUMS.asc") malformed
  require (tools.verifySignature fingerprint signature sums = true) "live bad signature"
  checkInstallerSignature tools site fingerprint
  let listed ← parseSums sums
  require ((∀ path ∈ listed.map Prod.fst ++ SUMS_FILES, path ∈ expected.map Prod.fst) ∧
      ∀ path ∈ expected.map Prod.fst, path ∈ listed.map Prod.fst ++ SUMS_FILES)
    "the live files are not exactly the files the signed SHA256SUMS lists"
  forM (listed.mergeSort fun a b => a.1 ≤ b.1) fun (path, digest) => do
    let content ← need (site.lookup path) malformed
    require (tools.sha256 content = digest)
      ("the live " ++ path ++ " differs from the signed SHA256SUMS")
  checkIdentity tools site values.version values.baseUrl fingerprint commit

/-- The live sums of another version are the recorded ones. -/
def fetchOther (rootUrl version : String) (item : String × Value) :
    Verifying (Option (String × String)) := do
  let (other, entry) := item
  if other = version then return none
  else do
    let (status, body) ← fetchLive (rootUrl ++ other ++ "/SHA256SUMS")
    gate (require (status = 200 ∧
        (entry.index "sha256sums_sha256").any
          (fun digest => (Value.str (tools.sha256 body)).eq digest) = true)
      ("the live " ++ other ++ "/SHA256SUMS changed (HTTP " ++ toString status ++ ")"))
    return some (other, tools.sha256 body)

structure LiveReport where
  version : String
  files : ℕ
  archiveSha : String
  others : List (String × String)
  retired : List String

def isCommit (commit : String) : Bool := Py.len commit = 40 && all isLowerHex commit

/-- What is known before anything is fetched. -/
structure LiveInputs where
  record : PagesRecord
  expected : Digests
  rootUrl : String

def liveInputs (json : String → Option Value) (values : Values) (archive content : Bytes)
    (commit : String) : Except String LiveInputs := do
  require (isCommit commit = true) "verify-live needs the 40-hex release commit"
  let record ← pagesRecord json values content
  let members ← need (tools.members archive) "the release archive exceeds the header bounds"
  let expected ← members.foldlM (expectMember tools values.version) []
  let rootUrl ← siteRoot values.baseUrl
  let refused := "the Pages manifest does not record this archive and its SHA256SUMS"
  let entry ← need (record.versions.lookup values.version) refused
  let archiveSha ← need (entry.get "archive_sha256") refused
  let sums ← need (entry.get "sha256sums_sha256") refused
  require (archiveSha.eq (.str (tools.sha256 archive)) = true ∧
    sums.eq ((expected.lookup "SHA256SUMS").elim .none .str) = true) refused
  return ⟨record, expected, rootUrl⟩

/-- `verify_live`. `vacant` is whether the directory to fetch into does not exist yet. -/
def verifyLive (json : String → Option Value) (rounds : ℕ) (timeout : ℤ) (values : Values)
    (fingerprint : String)
    (archive content : Bytes) (commit : String) (vacant : Bool) : Verifying LiveReport := do
  let inputs ← gate (liveInputs tools json values archive content commit)
  let checks := fileChecks values.baseUrl inputs.expected ++
    goneChecks inputs.rootUrl inputs.record.retired
  let start ← readClock
  forM checks fun check => waitFor tools (start + timeout) check rounds
  gate (require (vacant = true) "outputs are never overwritten")
  let site ← (inputs.expected.mergeSort fun a b => a.1 ≤ b.1).foldlM
    (fetchFile tools values.baseUrl) []
  gate (checkSite tools values fingerprint (tools.sha256 archive) commit inputs.expected site)
  let others ← inputs.record.versions.mapM (fetchOther tools inputs.rootUrl values.version)
  return ⟨values.version, inputs.expected.length, tools.sha256 archive, others.filterMap id,
    (inputs.record.retired.map Prod.fst).mergeSort fun a b => versionKey a ≤ versionKey b⟩

end

/-! ### What a verified site serves -/

section
variable {tools : Tools} {json : String → Option Value} {values : Values}
  {t : List (Event LiveAnswer)}

/-- The site answered with this body. -/
def Answers (t : List (Event LiveAnswer)) (busted : Bool) (url : String) (status : ℕ)
    (body : Bytes) : Prop :=
  ⟨.fetch busted url, .answered status body⟩ ∈ t

/-- The files of an archive that are expected: plain paths below the version, each once, with their
    digests. -/
structure Expected (tools : Tools) (version : String) (members : List Member) (expected : Digests) :
    Prop where
  files : List.Forall₂
    (fun member item => member = ⟨version ++ "/" ++ item.1, true, member.content⟩ ∧
    plainPath item.1 = true ∧ item.2 = tools.sha256 member.content) members expected
  unique : (expected.map Prod.fst).Nodup

theorem Answers.mono {t t' : List (Event LiveAnswer)} {busted : Bool} {url : String} {status : ℕ}
    {body : Bytes} (h : Answers t busted url status body) (hsub : t ⊆ t') :
    Answers t' busted url status body := hsub h

theorem Expected.mem {version : String} {members : List Member} {expected : Digests}
    (h : Expected tools version members expected) {path digest : String}
    (hmem : (path, digest) ∈ expected) : ∃ member ∈ members, member.name = version ++ "/" ++ path ∧
    digest = tools.sha256 member.content := by
  obtain ⟨member, hmember, heq, -, hdigest⟩ := Keyed.exists_of_mem_right h.files _ hmem
  exact ⟨member, hmember, congrArg Member.name heq, hdigest⟩

/-- The pauses a run has made. -/
def pauses : List (Event LiveAnswer) → ℕ
  | [] => 0
  | ⟨.sleep, _⟩ :: t => pauses t + 1
  | ⟨.clock, _⟩ :: t => pauses t
  | ⟨.fetch _ _, _⟩ :: t => pauses t

theorem pauses_append : ∀ t t' : List (Event LiveAnswer), pauses (t ++ t') = pauses t + pauses t'
  | [], t' => (Nat.zero_add _).symm
  | ⟨.sleep, _⟩ :: t, t' => by
    rw [List.cons_append, pauses, pauses, pauses_append]
    omega
  | ⟨.clock, _⟩ :: t, t' => pauses_append t t'
  | ⟨.fetch _ _, _⟩ :: t, t' => pauses_append t t'

/-- A run out of rounds has made all their pauses but one before it last read the clock. -/
def OutOfRounds (deadline : ℤ) (rounds : ℕ) (t : List (Event LiveAnswer)) : Prop :=
  0 < rounds → ∃ (t₁ t₂ : List (Event LiveAnswer)) (now : ℤ), t = t₁ ++ ⟨.clock, now⟩ :: t₂ ∧
    rounds ≤ pauses t₁ + 1 ∧ now < deadline

theorem OutOfRounds.append {deadline : ℤ} {rounds : ℕ} {t' : List (Event LiveAnswer)}
    (h : OutOfRounds deadline rounds t') (t : List (Event LiveAnswer)) :
    OutOfRounds deadline rounds (t ++ t') := by
  intro hpos
  obtain ⟨t₁, t₂, now, rfl, hpauses, hless⟩ := h hpos
  refine ⟨t ++ t₁, t₂, now, (List.append_assoc _ _ _).symm, ?_, hless⟩
  rw [pauses_append]
  omega

end

end NpuStack.Publish
