import NpuStack.Install.Environment

/-! The distribution's own repository configuration. Two repository files and the distribution key
    must be regular, bounded, package owned and unmodified, and say exactly what Fedora 44 ships:

        fedora.repo ──▶ [fedora] enabled, pinned metalink      fedora-updates.repo ──▶ [updates] …
                        every other stanza disabled

    What was read is recorded as digests and link targets, which stay bound until replay. -/

namespace NpuStack.Install
open Interaction Text NpuStack.Runtime

def MAX_REPOSITORY_BYTES : ℕ := 1048576
def MAX_BOUND_BYTES : ℕ := 8 * MAX_REPOSITORY_BYTES
def MAX_REPODATA_BYTES : ℕ := 256 * 1024 * 1024

def FEDORA_KEY_TEMPLATE : String :=
  "file:///etc/pki/rpm-gpg/RPM-GPG-KEY-fedora-$releasever-$basearch"

/-- `integrity()`. -/
def boundError : InstallError :=
  .integrity "bound installer inputs no longer match their recorded content"

/-! ### Shared file checks -/

section
variable (crates : Crates)

def digestFileWithLimit (path : Path) (limit : ℕ) : Sys String := do
  let input ← readFile path boundError
  refuse ((input.take (limit + 1)).length > limit) boundError
  return crates.sha256 (input.take (limit + 1))

def digestFile (path : Path) : Sys String := digestFileWithLimit crates path MAX_BOUND_BYTES

variable {crates} {path : Path} {limit : ℕ} {t : Trace}

end

/-- Preserves the distribution's verified link layout. -/
def verifySymlinks (symlinks : List (Path × LinkTarget)) : Sys Unit :=
  forM symlinks fun (path, target) => do
    let found ← readLink path boundError
    refuse (found ≠ target) boundError

def macroArguments : List String :=
  ["--macros", "/usr/lib/rpm/macros", "--noplugins", "--dbpath", "/usr/lib/sysimage/rpm"]

/-! ### Repository files -/

structure FedoraRepository where
  name : String
  metalink : String
  deriving DecidableEq, Repr

/-- Independently verified Fedora system repository configuration. -/
structure FedoraSources where
  releasever : String
  gpgkey : String
  repositories : List (String × FedoraRepository)
  digests : List (Path × String)
  symlinks : List (Path × LinkTarget)
  deriving DecidableEq, Repr

def repositoryError : InstallError :=
  .metadata "unexpected Fedora repository configuration content"

def DIRECTIVES : List String := ["name", "metalink", "enabled", "countme", "metadata_expire",
  "repo_gpgcheck", "type", "gpgcheck", "gpgkey", "skip_if_unavailable"]

abbrev Stanza := String × List (String × String)

/-- The identity of a stanza header. -/
def stanzaId (line : String) : Option String := (stripPrefix "[" line).bind (stripSuffix "]")

/-- One line of a repository file, after the stanzas before it, the newest first. -/
def repositoryLine (stanzas : List Stanza) (line : String) : Except InstallError (List Stanza) := do
  if line = "" ∨ startsWith "#" line = true then return stanzas
  else match stanzaId line with
  | some id => do
    refuse (id ∈ stanzas.map Prod.fst ∨ (id ∉ ["fedora", "updates"] ∧
      startsWith "fedora-" id = false ∧ startsWith "updates-" id = false)) repositoryError
    return (id, []) :: stanzas
  | none => do
    let (key, value) ← need (splitOnce '=' line) repositoryError
    match stanzas with
    | [] => .error repositoryError
    | (id, directives) :: rest => do
      refuse (key ∈ directives.map Prod.fst ∨ key ∉ DIRECTIVES ∨ value = "" ∨
        value.toList.any (fun c => ['\n', '\r', '[', ']'].contains c || isAsciiControl c) = true)
        repositoryError
      return (id, directives ++ [(key, value)]) :: rest

/-- Resolve the release and architecture; nothing else may be substituted. -/
def substitute (releasever text : String) : Except InstallError String := do
  let substituted := replace "$basearch" "x86_64" (replace "$releasever" releasever text)
  refuse (contains '$' substituted = true) repositoryError
  return substituted

/-- The metalink of the distribution's mirrors. -/
def pinnedMetalink (id releasever : String) : String :=
  "https://mirrors.fedoraproject.org/metalink?repo=" ++
    (if id = "fedora" then "fedora-" ++ releasever else "updates-released-f" ++ releasever) ++
    "&arch=x86_64"

/-- One stanza, after the base repository found so far. -/
def checkStanza (releasever expectedId : String) (found : Option FedoraRepository) (stanza : Stanza) :
    Except InstallError (Option FedoraRepository) := do
  let (id, directives) := stanza
  let value (key : String) : Option String := directives.lookup key
  if id ∉ ["fedora", "updates"] then do
    refuse (value "enabled" ≠ some "0") repositoryError
    return found
  else do
    refuse (value "enabled" ≠ some "1" ∨ value "gpgcheck" ≠ some "1" ∨
      value "repo_gpgcheck" ≠ some "0" ∨ value "skip_if_unavailable" ≠ some "False" ∨
      value "gpgkey" ≠ some FEDORA_KEY_TEMPLATE) repositoryError
    let metalink ← need (value "metalink") repositoryError
    let metalink ← substitute releasever metalink
    refuse (metalink ≠ pinnedMetalink id releasever ∨ id ≠ expectedId ∨ found.isSome) repositoryError
    let name ← need (value "name") repositoryError
    let name ← substitute releasever name
    return some ⟨name, metalink⟩

/-- Parses one repository file; the enabled base repository, if it has one. -/
def parseRepository (releasever expectedId : String) (bytes : Bytes) :
    Except InstallError (Option FedoraRepository) := do
  let text ← need (fromUtf8 bytes) repositoryError
  let stanzas ← (lines text).foldlM repositoryLine []
  stanzas.reverse.foldlM (checkStanza releasever expectedId) none

/-! ### Verification of the sources -/

def unverified : InstallError :=
  .metadata "Fedora repository configuration is not a verified system file"

/-- The file itself, or the target of a link that stays in its own directory. -/
def resolveSource (file : Path) : Sys (Path × List (Path × LinkTarget)) := do
  let metadata ← lstat file unverified
  if metadata.kind = .symlink then do
    let parent ← need file.parent unverified
    let target ← readLink file unverified
    refuse (target.absolute = true) unverified
    let canonical ← Prog.expect (.canonicalize ⟨parent.components ++ target.components⟩)
      fun answer => okOr answer unverified
    let parent ← Prog.expect (.canonicalize parent) fun answer => .ok (Except.toOption answer)
    refuse (canonical.parent ≠ parent) unverified
    return (canonical, [(file, target)])
  else return (file, [])

/-- Ownership must name the files, verification must print nothing. -/
def probeRequest (probe : String) (files : List Path) : ProcessRequest where
  executable := "/usr/bin/rpm"
  args := macroArguments ++ [probe] ++ files.map Path.display
  timeout := 10
  stdoutLimit := 4096
  stderrLimit := 4096
  environment := []

section
variable (crates : Crates)

/-- Resolves, bounds and digests one source file. -/
def bindSource (seen : List (Path × String) × List (Path × LinkTarget)) (file : Path) :
    Sys (List (Path × String) × List (Path × LinkTarget)) := do
  let (resolved, links) ← resolveSource file
  let metadata ← lstat resolved unverified
  refuse (!metadata.isFile || metadata.len > MAX_REPOSITORY_BYTES) unverified
  let digest ← digestFile crates resolved
  return (seen.1 ++ [(resolved, digest)], seen.2 ++ links)

def sourceFiles (etc : Path) (releasever basearch : String) : List Path :=
  [etc.join "yum.repos.d/fedora.repo", etc.join "yum.repos.d/fedora-updates.repo",
    etc.join ("pki/rpm-gpg/RPM-GPG-KEY-fedora-" ++ releasever ++ "-" ++ basearch)]

/-- Verifies the distribution repository sources under a configuration root. -/
def FedoraSources.verifyAt (etc : Path) (releasever basearch : String) : Sys FedoraSources := do
  refuse (isDigits releasever = false ∨ len releasever > 4 ∨ basearch ≠ "x86_64") unverified
  let files := sourceFiles etc releasever basearch
  let (digests, symlinks) ← files.foldlM (bindSource crates) ([], [])
  forM [("-qf", false), ("-Vf", true)] fun (probe, expectEmpty) => do
    let stdout ← runClean (probeRequest probe files) unverified unverified
    refuse (stdout.isEmpty ≠ expectEmpty) unverified
  let base ← readFile (etc.join "yum.repos.d/fedora.repo") repositoryError
  let base ← parseRepository releasever "fedora" base
  let updates ← readFile (etc.join "yum.repos.d/fedora-updates.repo") repositoryError
  let updates ← parseRepository releasever "updates" updates
  let base ← need base unverified
  let updates ← need updates unverified
  return {
    releasever
    gpgkey := replace "$basearch" basearch (replace "$releasever" releasever FEDORA_KEY_TEMPLATE)
    repositories := [("fedora", base), ("updates", updates)]
    digests
    symlinks }

variable {crates}

end

end NpuStack.Install
