import NpuStack.Install.Prepare
import NpuStack.Install.SourcePolicy

/-! What the rendered configuration says to whoever reads it. The values come from two parsers and
    are pasted between line ends and brackets:

        manifest ──identifier, releaseVersion, repositoryUrl──┐
        sources  ──plainValue, pinned metalink and key────────┼──renderConfig──▶ text
        tree     ──no control characters, no brackets─────────┘                   │
                          configSections ◀──────────────Ini.read──────────────────┘

    None of them can leave its line, so the text reads back as the intended sections, and the replay
    rendering points at the private tree only. -/

namespace NpuStack.Install
open Interaction Text

/-! ### The intended sections -/

/-- Where the frozen metadata of a repository is. -/
def replayUrl (tree : Path) (id : String) : String :=
  "file://" ++ tree.display ++ "/replay-repos/" ++ id ++ "/"

def releaseSection (manifest : ReleaseManifest) (tree : Path) (planning : Bool) : Ini.Section where
  name := manifest.repository.id
  pairs := [
    ("name", "Intel NPU Stack " ++ manifest.stackRelease ++ " repository"),
    ("baseurl", if planning then manifest.repository.baseUrl else replayUrl tree manifest.repository.id),
    ("gpgkey", "file://" ++ tree.display ++ "/public.asc"), ("enabled", "1"), ("gpgcheck", "1"),
    ("repo_gpgcheck", "1"), ("cost", "100")]

def fedoraSection (fedora : FedoraSources) (tree : Path) (planning : Bool)
    (entry : String × FedoraRepository) : Ini.Section where
  name := entry.1
  pairs := [
    ("name", entry.2.name),
    if planning then ("metalink", entry.2.metalink) else ("baseurl", replayUrl tree entry.1),
    ("gpgkey", fedora.gpgkey), ("enabled", "1"), ("gpgcheck", "1"), ("repo_gpgcheck", "0"),
    ("skip_if_unavailable", "False")]

/-- The release repository, then the verified distribution repositories. -/
def renderedRepositories (input : PrepareInput) (tree : Path) (planning : Bool) : List Ini.Section :=
  releaseSection input.manifest tree planning ::
    match input.fedora with
    | some fedora => fedora.repositories.map (fedoraSection fedora tree planning)
    | none => []

/-- `[main]` has no settings of its own. -/
def configSections (input : PrepareInput) (tree : Path) (planning : Bool) : List Ini.Section :=
  ⟨"main", []⟩ :: renderedRepositories input tree planning

/-! ### The text is the sections, rendered -/

theorem fedoraStanza_eq {fedora : FedoraSources} {tree : Path} {planning : Bool}
    {entry : String × FedoraRepository} : fedoraStanza fedora tree planning entry =
      unlines (fedoraSection fedora tree planning entry).lines := by
  have hname : "]\nname=" = "]" ++ ("\n" ++ ("name" ++ "=")) := by decide
  have hkey : "\ngpgkey=" = "\n" ++ ("gpgkey" ++ "=") := by decide
  have htail : "\nenabled=1\ngpgcheck=1\nrepo_gpgcheck=0\nskip_if_unavailable=False\n" =
      "\n" ++ ("enabled" ++ ("=" ++ ("1" ++ ("\n" ++ ("gpgcheck" ++ ("=" ++ ("1" ++ ("\n" ++
        ("repo_gpgcheck" ++ ("=" ++ ("0" ++ ("\n" ++ ("skip_if_unavailable" ++ ("=" ++ ("False" ++
          "\n"))))))))))))))) := by decide
  have hmetalink : "metalink=" = "metalink" ++ "=" := by decide
  have hbaseurl : "baseurl=file://" = "baseurl" ++ ("=" ++ "file://") := by decide
  cases planning with
  | true =>
    simp only [fedoraStanza, fedoraSection, Ini.Section.lines, Ini.pairLine, unlines, List.map_cons,
      List.map_nil, if_true, hname, hkey, htail, hmetalink, String.append_assoc, String.append_empty]
  | false =>
    simp only [fedoraStanza, fedoraSection, Ini.Section.lines, Ini.pairLine, unlines, List.map_cons,
      List.map_nil, if_false, Bool.false_eq_true, hname, hkey, htail, hbaseurl, replayUrl,
      String.append_assoc, String.append_empty]

theorem render_fedora {fedora : FedoraSources} {tree : Path} {planning : Bool} :
    Ini.render (fedora.repositories.map (fedoraSection fedora tree planning)) =
      String.join (fedora.repositories.map (fedoraStanza fedora tree planning)) := by
  induction fedora.repositories with
  | nil => rfl
  | cons entry entries ih =>
    rw [List.map_cons, List.map_cons, Ini.render_cons, String.join_cons, fedoraStanza_eq, ih]

/-- Whatever is rendered is the intended sections. -/
theorem renderConfig_ok {input : PrepareInput} {tree : Path} {planning : Bool} {text : String} :
    renderConfig input tree planning = .ok text ↔
      renderable input.manifest.repository.id = true ∧
      renderable input.manifest.repository.baseUrl = true ∧
      text = Ini.render (configSections input tree planning) := by
  have hmain : "[main]\n[" = "[" ++ ("main" ++ ("]" ++ ("\n" ++ "["))) := by decide
  have hname : "]\nname=Intel NPU Stack " = "]" ++ ("\n" ++ ("name" ++ ("=" ++ "Intel NPU Stack "))) := by
    decide
  have hurl : " repository\nbaseurl=" = " repository" ++ ("\n" ++ ("baseurl" ++ "=")) := by decide
  have hkey : "\ngpgkey=file://" = "\n" ++ ("gpgkey" ++ ("=" ++ "file://")) := by decide
  have htail : "/public.asc\nenabled=1\ngpgcheck=1\nrepo_gpgcheck=1\ncost=100\n" =
      "/public.asc" ++ ("\n" ++ ("enabled" ++ ("=" ++ ("1" ++ ("\n" ++ ("gpgcheck" ++ ("=" ++ ("1" ++
        ("\n" ++ ("repo_gpgcheck" ++ ("=" ++ ("1" ++ ("\n" ++ ("cost" ++ ("=" ++ ("100" ++
          "\n")))))))))))))))) := by decide
  have hfedora : (match input.fedora with
      | some fedora => String.join (fedora.repositories.map (fedoraStanza fedora tree planning))
      | none => "") = Ini.render (match input.fedora with
      | some fedora => fedora.repositories.map (fedoraSection fedora tree planning)
      | none => []) := by
    cases input.fedora with
    | none => rfl
    | some fedora => exact render_fedora.symm
  have htext : Ini.render (configSections input tree planning) = "[main]\n[" ++
      input.manifest.repository.id ++ "]\nname=Intel NPU Stack " ++ input.manifest.stackRelease ++
      " repository\nbaseurl=" ++ (if planning then input.manifest.repository.baseUrl
        else "file://" ++ tree.display ++ "/replay-repos/" ++ input.manifest.repository.id ++ "/") ++
      "\ngpgkey=file://" ++ tree.display ++
      "/public.asc\nenabled=1\ngpgcheck=1\nrepo_gpgcheck=1\ncost=100\n" ++
      (match input.fedora with
        | some fedora => String.join (fedora.repositories.map (fedoraStanza fedora tree planning))
        | none => "") := by
    rw [hfedora, hmain, hname, hurl, hkey, htail, configSections, Ini.render_cons, renderedRepositories,
      Ini.render_cons]
    simp only [releaseSection, replayUrl, Ini.Section.lines, Ini.pairLine, unlines, List.map_cons,
      List.map_nil, String.append_assoc, String.append_empty]
  rw [htext]
  simp only [renderConfig, except_bind_ok, refuse_ok, Bool.not_eq_false, pure, Except.pure, Except.ok.injEq]
  constructor
  · rintro ⟨_, hid, _, hurl, rfl⟩
    exact ⟨hid, hurl, rfl⟩
  · rintro ⟨hid, hurl, rfl⟩
    exact ⟨(), hid, (), hurl, rfl⟩

/-! ### What the two parsers let through -/

/-- Printing ASCII, without what a header or a variable needs. -/
def plainChar (c : Char) : Bool := isGraphic c && !(['[', ']', '$'].contains c)

theorem plainChar_of_isAlphanum {c : Char} (h : c.isAlphanum = true) : plainChar c = true := by
  rw [plainChar, isGraphic_of_isAlphanum h, Bool.true_and, Bool.not_eq_true', Bool.eq_false_iff]
  intro hmem
  have hspecial : ∀ x ∈ ['[', ']', '$'], x.isAlphanum = false := forall_chars (by decide)
  rw [hspecial c (List.contains_iff_mem.mp hmem)] at h
  cases h

theorem plainChar_of_identifierChar {c : Char} (h : identifierChar c = true) : plainChar c = true := by
  simp only [identifierChar, Bool.or_eq_true, List.contains_iff_mem] at h
  rcases h with h | h
  · exact plainChar_of_isAlphanum h
  · have : ∀ x ∈ "-_.+".toList, plainChar x = true := forall_chars (by decide)
    exact this c h

theorem all_plainChar_of_identifier {value : String} (h : identifier value = true) :
    value ≠ "" ∧ all plainChar value = true := by
  simp only [identifier, Bool.and_eq_true, decide_eq_true_eq] at h
  exact ⟨h.1.1.1, all_iff.mpr fun c hc => plainChar_of_identifierChar (all_iff.mp h.2 c hc)⟩

theorem all_plainChar_of_hostLabel {label : String} (h : hostLabel label = true) :
    all plainChar label = true := by
  simp only [hostLabel, Bool.and_eq_true] at h
  refine all_iff.mpr fun c hc => ?_
  have hchar := all_iff.mp h.2 c hc
  simp only [Bool.or_eq_true, decide_eq_true_eq] at hchar
  rcases hchar with hchar | rfl
  · exact plainChar_of_isAlphanum hchar
  · decide

/-- Every part of a repository location is plain. -/
theorem all_plainChar_of_repositoryUrl {url version : String} (h : repositoryUrl url version = true) :
    all plainChar url = true := by
  simp only [repositoryUrl] at h
  split at h
  · cases h
  split at h
  · cases h
  next rest hrest =>
  split at h
  · cases h
  next host path hsplit =>
  split at h
  · cases h
  next hhost =>
  split at h
  · cases h
  next segments hsegments =>
  simp only [Bool.or_eq_true, Bool.not_eq_true', not_or, Bool.not_eq_false] at hhost
  simp only [Bool.and_eq_true] at h
  have hlabels : all plainChar host = true := by
    rw [← join_split '.' host]
    exact all_join (by decide) fun label hlabel =>
      all_plainChar_of_hostLabel (List.all_eq_true.mp hhost.2 label hlabel)
  have hpath : all plainChar segments = true := by
    rw [← join_split '/' segments]
    refine all_join (by decide) fun segment hsegment => ?_
    have hvalid := List.all_eq_true.mp h.2 segment hsegment
    simp only [pathSegment, Bool.and_eq_true] at hvalid
    exact (all_plainChar_of_identifier hvalid.1.1.1).2
  have hurl : url = "https://" ++ (host ++ "/" ++ (segments ++ "/")) := by
    have hslash : "/".toList = ['/'] := by decide
    rw [stripPrefix_eq_some.mp hrest, ← stripSuffix_eq_some.mp hsegments, ← String.toList_inj]
    simp [(splitOnce_eq_some.mp hsplit).1, hslash]
  have hscheme : all plainChar "https://" = true := by decide
  have hslash : all plainChar "/" = true := by decide
  rw [hurl]
  simp only [all_append, hscheme, hslash, hlabels, hpath, Bool.and_self]

theorem plainChar_ne {c : Char} (h : plainChar c = true) : isAsciiControl c = false ∧
    (!(['[', ']', '$'].contains c)) = true := by
  simp only [plainChar, isGraphic, Bool.and_eq_true, decide_eq_true_eq] at h
  refine ⟨?_, h.2⟩
  rw [isAsciiControl, Bool.or_eq_false_iff, decide_eq_false_iff_not, beq_eq_false_iff_ne]
  omega

theorem renderable_of_plain {value : String} (hne : value ≠ "") (h : all plainChar value = true) :
    renderable value = true := by
  rw [renderable, decide_eq_true hne, Bool.true_and, all_iff]
  intro c hc
  obtain ⟨hcontrol, hspecial⟩ := plainChar_ne (all_iff.mp h c hc)
  rw [hcontrol, hspecial]
  rfl

/-- Text without control characters stays on its line. -/
theorem oneLine_of_control {value : String} (h : ∀ c ∈ value.toList, isAsciiControl c = false) :
    Ini.oneLine value = true := by
  refine Ini.oneLine_iff.mpr ⟨fun hmem => ?_, fun hmem => ?_⟩
  · exact absurd (h _ hmem) (by decide)
  · exact absurd (h _ hmem) (by decide)

theorem oneLine_of_plain {value : String} (h : all plainChar value = true) :
    Ini.oneLine value = true :=
  oneLine_of_control fun c hc => (plainChar_ne (all_iff.mp h c hc)).1

theorem all_plainChar_of_isDigits {value : String} (h : isDigits value = true) :
    all plainChar value = true := by
  simp only [isDigits, Bool.and_eq_true] at h
  refine all_iff.mpr fun c hc => plainChar_of_isAlphanum ?_
  rw [Char.isAlphanum, all_iff.mp h.2 c hc, Bool.or_true]

theorem all_plainChar_of_releaseVersion {value : String} (h : releaseVersion value = true) :
    all plainChar value = true := by
  simp only [releaseVersion, Bool.and_eq_true] at h
  rw [← join_split '.' value]
  refine all_join (by decide) fun part hpart => ?_
  have hcanonical := List.all_eq_true.mp h.2 part hpart
  simp only [canonicalU32, Bool.and_eq_true] at hcanonical
  exact all_plainChar_of_isDigits hcanonical.1.1

/-- The identity of a validated release. -/
theorem ReleaseManifest.identity_valid (m : ReleaseManifest) : releaseVersion m.stackRelease = true ∧
    identifier m.repository.id = true ∧
    repositoryUrl m.repository.baseUrl m.stackRelease = true := by
  have h := m.validated
  simp only [validateDocument, except_bind_ok, refuse_ok, Bool.or_eq_true, Bool.not_eq_true', not_or,
    Bool.not_eq_false] at h
  obtain ⟨_, ⟨⟨⟨⟨⟨-, hrelease⟩, -⟩, hid⟩, -⟩, hurl⟩, -⟩ := h
  exact ⟨hrelease, hid, hurl⟩

/-- Substitution puts nothing in that could end a line. -/
theorem oneLine_substituted {releasever value : String} (hreleasever : isDigits releasever = true)
    (h : Ini.oneLine value = true) :
    Ini.oneLine (replace "$basearch" "x86_64" (replace "$releasever" releasever value)) = true := by
  have hdigits := oneLine_of_plain (all_plainChar_of_isDigits hreleasever)
  have harch : Ini.oneLine "x86_64" = true := by decide
  rw [Ini.oneLine] at h hdigits harch ⊢
  exact all_replace harch (all_replace hdigits h)

theorem oneLine_pinnedMetalink {id releasever : String} (hreleasever : isDigits releasever = true) :
    Ini.oneLine (pinnedMetalink id releasever) = true := by
  have hdigits := oneLine_of_plain (all_plainChar_of_isDigits hreleasever)
  have hmirrors : Ini.oneLine "https://mirrors.fedoraproject.org/metalink?repo=" = true := by decide
  have harch : Ini.oneLine "&arch=x86_64" = true := by decide
  have hrepo : Ini.oneLine (if id = "fedora" then "fedora-" ++ releasever
      else "updates-released-f" ++ releasever) = true := by
    split
    · exact Ini.oneLine_append.mpr ⟨by decide, hdigits⟩
    · exact Ini.oneLine_append.mpr ⟨by decide, hdigits⟩
  exact Ini.oneLine_append.mpr ⟨Ini.oneLine_append.mpr ⟨hmirrors, hrepo⟩, harch⟩

/-- Sources whose values stay on their lines, under the two names of the distribution. -/
structure FedoraSources.Plain (fedora : FedoraSources) : Prop where
  gpgkey : Ini.oneLine fedora.gpgkey = true
  repositories : ∀ entry ∈ fedora.repositories, entry.1 ∈ ["fedora", "updates"] ∧
    Ini.oneLine entry.2.name = true ∧ Ini.oneLine entry.2.metalink = true

theorem verifyAt_plain {crates : Crates} {etc : Path} {releasever basearch : String} {t : Trace}
    {fedora : FedoraSources}
    (h : (FedoraSources.verifyAt crates etc releasever basearch).Runs t (.ok fedora)) : fedora.Plain := by
  obtain ⟨hreleasever, -, _, _, _, base, updates, -, hbase, hupdates, hrepositories, hkey⟩ := verifyAt_ok h
  have hparsed {expectedId : String} {bytes : Bytes} {repository : FedoraRepository}
      (hparse : parseRepository releasever expectedId bytes = .ok (some repository)) :
      Ini.oneLine repository.name = true ∧ Ini.oneLine repository.metalink = true := by
    obtain ⟨_, _, -, -, -, hmetalink, name, hname, hshown⟩ := parseRepository_ok hparse
    rw [hshown, hmetalink]
    exact ⟨oneLine_substituted hreleasever (oneLine_of_plainValue hname),
      oneLine_pinnedMetalink hreleasever⟩
  refine ⟨?_, ?_⟩
  · rw [hkey]
    exact oneLine_substituted hreleasever (by decide)
  · rw [hrepositories]
    exact List.forall_mem_cons.mpr ⟨⟨by simp, hparsed hbase⟩,
      List.forall_mem_cons.mpr ⟨⟨by simp, hparsed hupdates⟩, by simp⟩⟩

/-! ### What is read back -/

section
variable {input : PrepareInput} {tree : Path} {planning : Bool}

theorem oneLine_replayUrl {id : String} (htree : Ini.oneLine tree.display = true)
    (hid : Ini.oneLine id = true) : Ini.oneLine (replayUrl tree id) = true := by
  simp only [replayUrl, Ini.oneLine_append]
  exact ⟨⟨⟨⟨by decide, htree⟩, by decide⟩, hid⟩, by decide⟩

theorem releaseSection_plain (htree : Ini.oneLine tree.display = true) :
    (releaseSection input.manifest tree planning).Plain := by
  obtain ⟨hrelease, hid, hurl⟩ := input.manifest.identity_valid
  have hid := oneLine_of_plain (all_plainChar_of_identifier hid).2
  refine ⟨hid, ?_, ?_⟩
  · simp only [releaseSection, List.mem_cons, List.not_mem_nil, or_false, forall_eq_or_imp, forall_eq]
    decide
  · simp only [releaseSection, List.mem_cons, List.not_mem_nil, or_false, forall_eq_or_imp, forall_eq,
      Ini.oneLine_append]
    refine ⟨⟨⟨by decide, oneLine_of_plain (all_plainChar_of_releaseVersion hrelease)⟩, by decide⟩, ?_,
      ⟨⟨by decide, htree⟩, by decide⟩, by decide, by decide, by decide, by decide⟩
    cases planning with
    | true => exact oneLine_of_plain (all_plainChar_of_repositoryUrl hurl)
    | false => exact oneLine_replayUrl htree hid

theorem fedoraSection_plain {fedora : FedoraSources} (htree : Ini.oneLine tree.display = true)
    (hfedora : fedora.Plain) {entry : String × FedoraRepository} (hentry : entry ∈ fedora.repositories) :
    (fedoraSection fedora tree planning entry).Plain := by
  obtain ⟨hid, hname, hmetalink⟩ := hfedora.repositories entry hentry
  have hid : Ini.oneLine entry.1 = true := by
    have hall : ∀ id ∈ ["fedora", "updates"], Ini.oneLine id = true := by decide
    exact hall _ hid
  have hkey := hfedora.gpgkey
  cases planning with
  | true =>
    refine ⟨hid, ?_, ?_⟩
    · simp only [fedoraSection, if_true, List.mem_cons, List.not_mem_nil, or_false, forall_eq_or_imp,
        forall_eq]
      decide
    · simp only [fedoraSection, if_true, List.mem_cons, List.not_mem_nil, or_false, forall_eq_or_imp,
        forall_eq, hname, hmetalink, hkey]
      decide
  | false =>
    refine ⟨hid, ?_, ?_⟩
    · simp only [fedoraSection, Bool.false_eq_true, if_false, List.mem_cons, List.not_mem_nil, or_false,
        forall_eq_or_imp, forall_eq]
      decide
    · simp only [fedoraSection, Bool.false_eq_true, if_false, List.mem_cons, List.not_mem_nil, or_false,
        forall_eq_or_imp, forall_eq, hname, hkey, oneLine_replayUrl htree hid]
      decide

theorem configSections_plain (htree : Ini.oneLine tree.display = true)
    (hfedora : ∀ fedora, input.fedora = some fedora → fedora.Plain) :
    ∀ s ∈ configSections input tree planning, s.Plain := by
  refine List.forall_mem_cons.mpr ⟨⟨by decide, by simp, by simp⟩,
    List.forall_mem_cons.mpr ⟨releaseSection_plain htree, ?_⟩⟩
  cases hsome : input.fedora with
  | none => simp
  | some fedora =>
    intro s hs
    obtain ⟨entry, hentry, rfl⟩ := List.mem_map.mp hs
    exact fedoraSection_plain htree (hfedora fedora hsome) hentry

/-- Keys that say where a repository is. -/
def LOCATION_KEYS : List String := ["baseurl", "metalink", "mirrorlist"]

/-- The only location of the repository is its frozen copy in the tree, named by its identifier. -/
structure FrozenLocation (tree : Path) (s : Ini.Section) : Prop where
  named : identifier s.name = true
  located : s.value "baseurl" = some (replayUrl tree s.name)
  only : ∀ p ∈ s.pairs, p.1 ∈ LOCATION_KEYS → p = ("baseurl", replayUrl tree s.name)

theorem renderedRepositories_frozen (hfedora : ∀ fedora, input.fedora = some fedora → fedora.Plain) :
    ∀ s ∈ renderedRepositories input tree false, FrozenLocation tree s := by
  refine List.forall_mem_cons.mpr ⟨⟨input.manifest.identity_valid.2.1, rfl, ?_⟩, ?_⟩
  · simp only [releaseSection, List.mem_cons, List.not_mem_nil, or_false, forall_eq_or_imp, forall_eq,
      Bool.false_eq_true, if_false]
    simp [LOCATION_KEYS]
  · cases hsome : input.fedora with
    | none => simp
    | some fedora =>
      intro s hs
      obtain ⟨entry, hentry, rfl⟩ := List.mem_map.mp hs
      have hid : ∀ id ∈ ["fedora", "updates"], identifier id = true := by decide
      refine ⟨hid _ ((hfedora fedora hsome).repositories entry hentry).1, rfl, ?_⟩
      simp only [fedoraSection, List.mem_cons, List.not_mem_nil, or_false, forall_eq_or_imp, forall_eq,
        Bool.false_eq_true, if_false]
      simp [LOCATION_KEYS]

theorem renderedRepositories_checked : ∀ s ∈ renderedRepositories input tree planning,
    s.value "gpgcheck" = some "1" ∧ (s.pairs.map Prod.fst).Nodup := by
  refine List.forall_mem_cons.mpr ⟨⟨rfl, ?_⟩, ?_⟩
  · simp only [releaseSection, List.map_cons, List.map_nil]
    decide
  · cases input.fedora with
    | none => simp
    | some fedora =>
      intro s hs
      obtain ⟨entry, hentry, rfl⟩ := List.mem_map.mp hs
      cases planning with
      | true =>
        simp only [fedoraSection, if_true, List.map_cons, List.map_nil]
        exact ⟨rfl, by decide⟩
      | false =>
        simp only [fedoraSection, Bool.false_eq_true, if_false, List.map_cons, List.map_nil]
        exact ⟨rfl, by decide⟩

/-- The configuration of a validated release and verified sources is rendered, and reads back as the
    intended sections; a replay finds every repository in the tree. -/
theorem renderConfig_reads (planning : Bool)
    (htree : all (fun c => !isAsciiControl c && !(['[', ']'].contains c)) tree.display = true)
    (hfedora : ∀ fedora, input.fedora = some fedora → ∃ crates etc releasever basearch t,
      (FedoraSources.verifyAt crates etc releasever basearch).Runs t (.ok fedora)) :
    ∃ text, renderConfig input tree planning = .ok text ∧
      Ini.read text = some (⟨"main", []⟩ :: renderedRepositories input tree planning) ∧
      (∀ s ∈ renderedRepositories input tree planning,
        s.value "gpgcheck" = some "1" ∧ (s.pairs.map Prod.fst).Nodup) ∧
      (releaseSection input.manifest tree planning).value "repo_gpgcheck" = some "1" ∧
      (planning = false → ∀ s ∈ renderedRepositories input tree planning, FrozenLocation tree s) := by
  have hplain : ∀ fedora, input.fedora = some fedora → fedora.Plain := by
    intro fedora hsome
    obtain ⟨_, _, _, _, _, hrun⟩ := hfedora fedora hsome
    exact verifyAt_plain hrun
  have hline : Ini.oneLine tree.display = true := by
    refine oneLine_of_control fun c hc => ?_
    have hchar := all_iff.mp htree c hc
    rw [Bool.and_eq_true, Bool.not_eq_true'] at hchar
    exact hchar.1
  obtain ⟨-, hid, hurl⟩ := input.manifest.identity_valid
  have hid := all_plainChar_of_identifier hid
  have hurl' : input.manifest.repository.baseUrl ≠ "" := by
    intro hempty
    have hscheme : stripPrefix "https://" "" = none := by decide
    rw [hempty, repositoryUrl, hscheme] at hurl
    simp at hurl
  refine ⟨_, renderConfig_ok.mpr ⟨renderable_of_plain hid.1 hid.2,
      renderable_of_plain hurl' (all_plainChar_of_repositoryUrl hurl), rfl⟩,
    Ini.read_render (configSections_plain hline hplain), renderedRepositories_checked, rfl, ?_⟩
  rintro rfl
  exact renderedRepositories_frozen hplain

end

namespace Minimal

/-- A tree and the sources of the minimal system. -/
def tree : Path := ⟨["tmp", "tree"]⟩

def withSources : PrepareInput := { input with fedora := some sources }

end Minimal

theorem renderConfig_reads_minimal : ∃ text, renderConfig Minimal.withSources Minimal.tree false = .ok text ∧
    Ini.read text = some (⟨"main", []⟩ :: renderedRepositories Minimal.withSources Minimal.tree false) ∧
    (∀ s ∈ renderedRepositories Minimal.withSources Minimal.tree false,
      s.value "gpgcheck" = some "1" ∧ (s.pairs.map Prod.fst).Nodup) ∧
    (releaseSection Minimal.manifest Minimal.tree false).value "repo_gpgcheck" = some "1" ∧
    (false = false → ∀ s ∈ renderedRepositories Minimal.withSources Minimal.tree false,
      FrozenLocation Minimal.tree s) := by
  refine @renderConfig_reads Minimal.withSources Minimal.tree false (by decide) fun fedora hsome => ?_
  cases hsome
  obtain ⟨t, h⟩ := Minimal.verifyAt_runs
  exact ⟨_, _, _, _, t, h⟩

end NpuStack.Install
