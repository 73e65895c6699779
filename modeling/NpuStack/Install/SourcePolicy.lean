import NpuStack.Install.FedoraSources
import NpuStack.Schemes.Ini
import NpuStack.Schemes.Keyed

/-! The policy an accepted pair of repository files meets, in terms of their sections. The parser
    first collects stanzas, then judges them:

        text ──repositoryLine──▶ stanzas ──checkStanza──▶ the one enabled repository
          └────────────Ini.read────▲

    Collecting agrees with reading the file as sections and pairs (`collected`), so what is judged is
    what any reader of the format sees: one enabled base repository with pinned settings, every other
    section disabled, nothing twice, and no key that is not allowed. -/

namespace NpuStack.Install
open Interaction Text NpuStack.Runtime

/-! ### What the files must say -/

/-- The settings of the enabled repository. -/
structure PinnedSource (releasever : String) (s : Ini.Section) : Prop where
  enabled : s.value "enabled" = some "1"
  gpgcheck : s.value "gpgcheck" = some "1"
  repoGpgcheck : s.value "repo_gpgcheck" = some "0"
  skipIfUnavailable : s.value "skip_if_unavailable" = some "False"
  gpgkey : s.value "gpgkey" = some FEDORA_KEY_TEMPLATE
  metalink : ∃ metalink, s.value "metalink" = some metalink ∧
    replace "$basearch" "x86_64" (replace "$releasever" releasever metalink) =
      pinnedMetalink s.name releasever

/-- One repository is enabled and pinned; everything else is disabled. -/
structure SourcePolicy (releasever expectedId : String) (sections : List Ini.Section) : Prop where
  distinct : (sections.map (·.name)).Nodup
  keys : ∀ s ∈ sections, (s.pairs.map Prod.fst).Nodup ∧ ∀ key ∈ s.pairs.map Prod.fst, key ∈ DIRECTIVES
  enabled : ∃ s ∈ sections, s.name = expectedId ∧ PinnedSource releasever s
  disabled : ∀ s ∈ sections, s.name ≠ expectedId → s.value "enabled" = some "0"

/-! ### Collecting the stanzas -/

/-- A value that stays on its line and opens no section. -/
def plainValue (value : String) : Bool :=
  value ≠ "" && !value.toList.any fun c => ['\n', '\r', '[', ']'].contains c || isAsciiControl c

theorem plainValue_iff {value : String} : plainValue value = true ↔ ¬ value = "" ∧
    ¬ (value.toList.any fun c => ['\n', '\r', '[', ']'].contains c || isAsciiControl c) = true := by
  rw [plainValue, Bool.and_eq_true, decide_eq_true_eq, Bool.not_eq_true', Bool.eq_false_iff]

/-- A header the files may have. -/
def allowedId (id : String) : Prop :=
  id ∈ ["fedora", "updates"] ∨ startsWith "fedora-" id = true ∨ startsWith "updates-" id = true

/-- What one line does to the stanzas. -/
theorem repositoryLine_ok {stanzas stanzas' : List Stanza} {line : String} :
    repositoryLine stanzas line = .ok stanzas' ↔
      (Ini.readLine line = .skip ∧ stanzas' = stanzas) ∨
      (∃ id, Ini.readLine line = .header id ∧ id ∉ stanzas.map Prod.fst ∧ allowedId id ∧
        stanzas' = (id, []) :: stanzas) ∨
      ∃ key value id directives rest, Ini.readLine line = .pair key value ∧
        stanzas = (id, directives) :: rest ∧ key ∉ directives.map Prod.fst ∧ key ∈ DIRECTIVES ∧
        plainValue value = true ∧ stanzas' = (id, directives ++ [(key, value)]) :: rest := by
  rw [repositoryLine, Ini.readLine]
  by_cases hskip : line = "" ∨ startsWith "#" line = true
  · rw [if_pos hskip, if_pos hskip]
    constructor
    · intro h
      exact .inl ⟨rfl, (Except.ok.inj h).symm⟩
    · rintro (⟨-, rfl⟩ | ⟨_, habs, -⟩ | ⟨_, _, _, _, _, habs, -⟩)
      · rfl
      · cases habs
      · cases habs
  rw [if_neg hskip, if_neg hskip, show stanzaId line = Ini.headerName line from rfl]
  cases hheader : Ini.headerName line with
  | some id =>
    simp only [except_bind_ok, refuse_ok, pure, Except.pure, Except.ok.injEq, allowedId]
    constructor
    · rintro ⟨_, hrefuse, rfl⟩
      simp only [not_or, not_and_or, not_not, Bool.not_eq_false] at hrefuse
      exact .inr (.inl ⟨id, rfl, hrefuse.1, hrefuse.2, rfl⟩)
    · rintro (⟨habs, -⟩ | ⟨id', heq, hfresh, hallowed, rfl⟩ | ⟨_, _, _, _, _, habs, -⟩)
      · cases habs
      · cases heq
        refine ⟨(), ?_, rfl⟩
        simp only [not_or, not_and_or, not_not, Bool.not_eq_false]
        exact ⟨hfresh, hallowed⟩
      · cases habs
  | none =>
    cases hsplit : splitOnce '=' line with
    | none => simp [need, except_bind_ok]
    | some pair =>
      obtain ⟨key, value⟩ := pair
      cases stanzas with
      | nil => simp [need, except_bind_ok]
      | cons stanza rest =>
        obtain ⟨id, directives⟩ := stanza
        simp only [need, except_bind_ok, refuse_ok, pure, Except.pure, Except.ok.injEq]
        constructor
        · rintro ⟨_, rfl, _, hrefuse, rfl⟩
          simp only [not_or, not_not] at hrefuse
          exact .inr (.inr ⟨key, value, id, directives, rest, rfl, rfl, hrefuse.1, hrefuse.2.1,
            plainValue_iff.mpr hrefuse.2.2, rfl⟩)
        · rintro (⟨habs, -⟩ | ⟨_, habs, -⟩ | ⟨key', value', id', directives', rest', heq, hstanza, hfresh,
            hallowed, hplain, rfl⟩)
          · cases habs
          · cases habs
          · cases heq
            cases hstanza
            refine ⟨(key, value), rfl, (), ?_, rfl⟩
            simp only [not_or, not_not]
            exact ⟨hfresh, hallowed, plainValue_iff.mp hplain⟩

/-- The section a stanza is. -/
def sectionOf (stanza : Stanza) : Ini.Section := ⟨stanza.1, stanza.2⟩

/-- Stanzas as the parser keeps them: ids and keys occur once, keys and values are allowed. -/
structure Collected (stanzas : List Stanza) : Prop where
  distinct : (stanzas.map Prod.fst).Nodup
  keys : ∀ s ∈ stanzas, (s.2.map Prod.fst).Nodup
  directives : ∀ s ∈ stanzas, ∀ p ∈ s.2, p.1 ∈ DIRECTIVES ∧ plainValue p.2 = true

theorem repositoryLine_collected {stanzas stanzas' : List Stanza} {line : String}
    (h : Collected stanzas) (hline : repositoryLine stanzas line = .ok stanzas') :
    Collected stanzas' := by
  rcases repositoryLine_ok.mp hline with ⟨-, rfl⟩ | ⟨id, -, hfresh, -, rfl⟩ |
    ⟨key, value, id, directives, rest, -, rfl, hfresh, hallowed, hplain, rfl⟩
  · exact h
  · exact ⟨List.nodup_cons.mpr ⟨hfresh, h.distinct⟩,
      List.forall_mem_cons.mpr ⟨List.nodup_nil, h.keys⟩,
      List.forall_mem_cons.mpr ⟨by simp, h.directives⟩⟩
  · obtain ⟨hkeys, hrest⟩ := List.forall_mem_cons.mp h.keys
    obtain ⟨hdirectives, hrest'⟩ := List.forall_mem_cons.mp h.directives
    refine ⟨h.distinct, List.forall_mem_cons.mpr ⟨?_, hrest⟩, List.forall_mem_cons.mpr ⟨?_, hrest'⟩⟩
    · rw [List.map_append, List.nodup_append]
      refine ⟨hkeys, by simp, fun a ha b hb hab => ?_⟩
      rw [List.map_singleton, List.mem_singleton] at hb
      exact hfresh (by rwa [hab, hb] at ha)
    · intro p hp
      rcases List.mem_append.mp hp with hp | hp
      · exact hdirectives p hp
      · rw [List.mem_singleton.mp hp]
        exact ⟨hallowed, hplain⟩

theorem repositoryLines_collected {lines : List String} {stanzas stanzas' : List Stanza}
    (h : Collected stanzas) (hrun : lines.foldlM repositoryLine stanzas = .ok stanzas') :
    Collected stanzas' := by
  induction lines generalizing stanzas with
  | nil =>
    cases hrun
    exact h
  | cons line lines ih =>
    rw [List.foldlM_cons, except_bind_ok] at hrun
    obtain ⟨mid, hline, hrest⟩ := hrun
    exact ih (repositoryLine_collected h hline) hrest

/-- Below a header, collecting reads the pairs of its section and then the further sections. -/
theorem repositoryLines_read {lines : List String} {id : String} {directives : List (String × String)}
    {rest stanzas' : List Stanza}
    (h : lines.foldlM repositoryLine ((id, directives) :: rest) = .ok stanzas') :
    ∃ pairs sections, Ini.readLines lines = some (pairs, sections) ∧
      stanzas'.reverse.map sectionOf =
        rest.reverse.map sectionOf ++ ⟨id, directives ++ pairs⟩ :: sections := by
  induction lines generalizing id directives rest with
  | nil =>
    cases h
    exact ⟨[], [], rfl, by simp [sectionOf]⟩
  | cons line lines ih =>
    rw [List.foldlM_cons, except_bind_ok] at h
    obtain ⟨mid, hline, hrest⟩ := h
    rcases repositoryLine_ok.mp hline with ⟨hread, rfl⟩ | ⟨id', hread, -, -, rfl⟩ |
      ⟨key, value, _, _, _, hread, heq, -, -, -, rfl⟩
    · obtain ⟨pairs, sections, hlines, hstanzas⟩ := ih hrest
      refine ⟨pairs, sections, ?_, hstanzas⟩
      rw [Ini.readLines, hlines, Option.bind_some]
      simp only [hread]
    · obtain ⟨pairs, sections, hlines, hstanzas⟩ := ih hrest
      refine ⟨[], ⟨id', pairs⟩ :: sections, ?_, ?_⟩
      · rw [Ini.readLines, hlines, Option.bind_some]
        simp only [hread]
      · rw [hstanzas]
        simp [sectionOf]
    · cases heq
      obtain ⟨pairs, sections, hlines, hstanzas⟩ := ih hrest
      refine ⟨(key, value) :: pairs, sections, ?_, ?_⟩
      · rw [Ini.readLines, hlines, Option.bind_some]
        simp only [hread]
      · rw [hstanzas]
        simp

/-- Collecting a file reads its sections. -/
theorem collected {lines : List String} {stanzas : List Stanza}
    (h : lines.foldlM repositoryLine [] = .ok stanzas) :
    Ini.readLines lines = some ([], stanzas.reverse.map sectionOf) := by
  induction lines with
  | nil =>
    cases h
    rfl
  | cons line lines ih =>
    rw [List.foldlM_cons, except_bind_ok] at h
    obtain ⟨mid, hline, hrest⟩ := h
    rcases repositoryLine_ok.mp hline with ⟨hread, rfl⟩ | ⟨id, hread, -, -, rfl⟩ |
      ⟨key, value, _, _, _, -, heq, -⟩
    · rw [Ini.readLines, ih hrest, Option.bind_some]
      simp only [hread]
    · obtain ⟨pairs, sections, hlines, hstanzas⟩ := repositoryLines_read hrest
      rw [Ini.readLines, hlines, Option.bind_some, hstanzas]
      simp only [hread]
      rfl
    · cases heq

/-! ### Judging the stanzas -/

/-- What one accepted stanza is. -/
theorem checkStanza_ok {releasever expectedId : String} {found found' : Option FedoraRepository}
    {stanza : Stanza} (h : checkStanza releasever expectedId found stanza = .ok found') :
    (stanza.1 ∉ ["fedora", "updates"] ∧ (sectionOf stanza).value "enabled" = some "0" ∧
      found' = found) ∨
    (stanza.1 = expectedId ∧ PinnedSource releasever (sectionOf stanza) ∧ ∃ name,
      (sectionOf stanza).value "name" = some name ∧ found' = some
        ⟨replace "$basearch" "x86_64" (replace "$releasever" releasever name),
          pinnedMetalink stanza.1 releasever⟩) := by
  obtain ⟨id, directives⟩ := stanza
  simp only [checkStanza] at h
  split at h
  · next hid =>
    simp only [except_bind_ok, refuse_ok, not_not, pure, Except.pure, Except.ok.injEq] at h
    obtain ⟨_, henabled, rfl⟩ := h
    exact .inl ⟨hid, henabled, rfl⟩
  · simp only [except_bind_ok, refuse_ok, need_ok, not_or, not_not, substitute, pure, Except.pure,
      Except.ok.injEq, Bool.not_eq_true] at h
    obtain ⟨_, ⟨henabled, hgpgcheck, hrepo, hskip, hgpgkey⟩, metalink, hmetalink, _, ⟨_, -, rfl⟩, _,
      ⟨hpinned, rfl, -⟩, name, hname, _, ⟨_, -, rfl⟩, rfl⟩ := h
    refine .inr ⟨rfl, ⟨henabled, hgpgcheck, hrepo, hskip, hgpgkey, metalink, hmetalink, hpinned⟩, name,
      hname, ?_⟩
    rw [hpinned]

/-- The repository an enabled stanza describes. -/
structure Describes (releasever : String) (stanza : Stanza) (repository : FedoraRepository) : Prop where
  metalink : repository.metalink = pinnedMetalink stanza.1 releasever
  name : ∃ name, (sectionOf stanza).value "name" = some name ∧ repository.name =
    replace "$basearch" "x86_64" (replace "$releasever" releasever name)

theorem checkStanzas_ok {releasever expectedId : String} {found found' : Option FedoraRepository}
    {stanzas : List Stanza}
    (h : stanzas.foldlM (checkStanza releasever expectedId) found = .ok found') :
    (∀ s ∈ stanzas, s.1 ≠ expectedId → (sectionOf s).value "enabled" = some "0") ∧
    (found' = found ∨ ∃ s ∈ stanzas, s.1 = expectedId ∧ PinnedSource releasever (sectionOf s) ∧
      ∃ repository, found' = some repository ∧ Describes releasever s repository) := by
  induction stanzas generalizing found with
  | nil =>
    cases h
    exact ⟨by simp, .inl rfl⟩
  | cons s stanzas ih =>
    rw [List.foldlM_cons, except_bind_ok] at h
    obtain ⟨mid, hstanza, hrest⟩ := h
    obtain ⟨hdisabled, hfound⟩ := ih hrest
    have hlater : (∃ s ∈ stanzas, s.1 = expectedId ∧ PinnedSource releasever (sectionOf s) ∧
        ∃ repository, found' = some repository ∧ Describes releasever s repository) →
        ∃ s' ∈ s :: stanzas, s'.1 = expectedId ∧ PinnedSource releasever (sectionOf s') ∧
          ∃ repository, found' = some repository ∧ Describes releasever s' repository := by
      rintro ⟨s', hs', hrest⟩
      exact ⟨s', List.mem_cons_of_mem _ hs', hrest⟩
    rcases checkStanza_ok hstanza with ⟨-, hzero, rfl⟩ | ⟨hid, hpinned, name, hname, rfl⟩
    · exact ⟨List.forall_mem_cons.mpr ⟨fun _ => hzero, hdisabled⟩, hfound.imp_right hlater⟩
    · refine ⟨List.forall_mem_cons.mpr ⟨fun hne => absurd hid hne, hdisabled⟩, .inr ?_⟩
      rcases hfound with rfl | hfound
      · exact ⟨s, List.mem_cons_self, hid, hpinned, _, rfl, rfl, name, hname, rfl⟩
      · exact hlater hfound

/-- What an accepted file with a base repository says. -/
theorem parseRepository_ok {releasever expectedId : String} {bytes : Bytes}
    {repository : FedoraRepository}
    (h : parseRepository releasever expectedId bytes = .ok (some repository)) :
    ∃ text sections, bytes = utf8 text ∧ Ini.read text = some sections ∧
      SourcePolicy releasever expectedId sections ∧
      repository.metalink = pinnedMetalink expectedId releasever ∧
      ∃ name, plainValue name = true ∧ repository.name =
        replace "$basearch" "x86_64" (replace "$releasever" releasever name) := by
  simp only [parseRepository, except_bind_ok, need_ok] at h
  obtain ⟨text, htext, stanzas, hstanzas, hcheck⟩ := h
  have hcollected : Collected stanzas :=
    repositoryLines_collected ⟨by simp, by simp, by simp⟩ hstanzas
  have hread : Ini.read text = some (stanzas.reverse.map sectionOf) := by
    rw [Ini.read, collected hstanzas]
  obtain ⟨hdisabled, hfound⟩ := checkStanzas_ok hcheck
  obtain ⟨s, hs, rfl, hpinned, _, heq, hmetalink, name, hname, hshown⟩ := hfound.resolve_left (by simp)
  obtain rfl := Option.some.inj heq
  have hnames : (stanzas.reverse.map sectionOf).map (·.name) = (stanzas.map Prod.fst).reverse := by
    rw [List.map_map, ← List.map_reverse]
    rfl
  refine ⟨text, _, fromUtf8_eq_some.mp htext, hread, ⟨?_, ?_, ?_, ?_⟩, hmetalink, name, ?_, hshown⟩
  · rw [hnames, List.nodup_reverse]
    exact hcollected.distinct
  · intro s hs
    obtain ⟨s, hmem, rfl⟩ := List.mem_map.mp hs
    rw [List.mem_reverse] at hmem
    refine ⟨hcollected.keys s hmem, fun key hkey => ?_⟩
    obtain ⟨p, hp, rfl⟩ := List.mem_map.mp hkey
    exact (hcollected.directives s hmem p hp).1
  · exact ⟨sectionOf s, List.mem_map_of_mem hs, rfl, hpinned⟩
  · intro s hs hne
    obtain ⟨s, hmem, rfl⟩ := List.mem_map.mp hs
    exact hdisabled s hmem hne
  · exact (hcollected.directives s (List.mem_reverse.mp hs) _ (Keyed.mem_of_lookup hname)).2

/-- What a verified pair of sources was made from. -/
theorem verifyAt_ok {crates : Crates} {etc : Path} {releasever basearch : String} {t : Trace}
    {sources : FedoraSources}
    (h : (FedoraSources.verifyAt crates etc releasever basearch).Runs t (.ok sources)) :
    isDigits releasever = true ∧ basearch = "x86_64" ∧ ∃ front baseBytes updatesBytes base updates,
      t = front ++ [⟨.readFile (etc.join "yum.repos.d/fedora.repo"), .ok baseBytes⟩,
        ⟨.readFile (etc.join "yum.repos.d/fedora-updates.repo"), .ok updatesBytes⟩] ∧
      parseRepository releasever "fedora" baseBytes = .ok (some base) ∧
      parseRepository releasever "updates" updatesBytes = .ok (some updates) ∧
      sources.repositories = [("fedora", base), ("updates", updates)] ∧
      sources.gpgkey = replace "$basearch" "x86_64" (replace "$releasever" releasever
        FEDORA_KEY_TEMPLATE) := by
  rw [FedoraSources.verifyAt, Prog.runs_lift_bind_ok] at h
  obtain ⟨_, hargs, h⟩ := h
  simp only [refuse_ok, not_or, not_not, Bool.not_eq_false] at hargs
  obtain ⟨⟨digests, symlinks⟩, t₁, t₂, rfl, -, h⟩ := Prog.runs_bind_ok.mp h
  obtain ⟨_, t₃, t₄, rfl, -, h⟩ := Prog.runs_bind_ok.mp h
  simp only [readFile, Prog.runs_expect_bind_ok, Prog.runs_lift_bind_ok, okOr_ok, exists_eq_left,
    need_ok, Prog.runs_pure, Except.ok.injEq] at h
  obtain ⟨baseBytes, _, rfl, base, hbase, updatesBytes, _, rfl, updates, hupdates, base', rfl, updates',
    rfl, rfl, rfl⟩ := h
  refine ⟨hargs.1, hargs.2.2, t₁ ++ t₃, baseBytes, updatesBytes, base', updates', by simp, hbase,
    hupdates, rfl, ?_⟩
  rw [hargs.2.2]

/-! ### Files that keep the rules -/

/-- The stanza a section is. -/
def stanzaOf (s : Ini.Section) : Stanza := (s.name, s.pairs)

/-- A section the collector takes. -/
structure Allowed (s : Ini.Section) : Prop where
  id : allowedId s.name
  keys : (s.pairs.map Prod.fst).Nodup
  directives : ∀ p ∈ s.pairs, p.1 ∈ DIRECTIVES ∧ plainValue p.2 = true

theorem plainKey_of_directive {key : String} (h : key ∈ DIRECTIVES) : Ini.plainKey key = true := by
  have hall : ∀ key ∈ DIRECTIVES, Ini.plainKey key = true := by decide
  exact hall key h

theorem repositoryLines_pairs {id : String} {directives pairs : List (String × String)}
    {rest : List Stanza} (hkeys : ((directives ++ pairs).map Prod.fst).Nodup)
    (hallowed : ∀ p ∈ pairs, p.1 ∈ DIRECTIVES ∧ plainValue p.2 = true) :
    (pairs.map Ini.pairLine).foldlM repositoryLine ((id, directives) :: rest) =
      .ok ((id, directives ++ pairs) :: rest) := by
  induction pairs generalizing directives with
  | nil => simp [pure, Except.pure]
  | cons p pairs ih =>
    obtain ⟨⟨hkey, hvalue⟩, hallowed⟩ := List.forall_mem_cons.mp hallowed
    have hfresh : p.1 ∉ directives.map Prod.fst := by
      rw [List.map_append, List.nodup_append] at hkeys
      intro hmem
      exact hkeys.2.2 _ hmem _ (by simp) rfl
    have hline := repositoryLine_ok.mpr (.inr (.inr ⟨p.1, p.2, id, directives, rest,
      Ini.readLine_pair (plainKey_of_directive hkey), rfl, hfresh, hkey, hvalue, rfl⟩))
    rw [List.map_cons, List.foldlM_cons, hline, except_ok_bind]
    have hkeys' : ((directives ++ [(p.1, p.2)] ++ pairs).map Prod.fst).Nodup := by simpa using hkeys
    simpa using ih hkeys' hallowed

/-- Sections that keep the rules are collected. -/
theorem repositoryLines_sections {sections : List Ini.Section} {stanzas : List Stanza}
    (hdistinct : (stanzas.map Prod.fst ++ sections.map (·.name)).Nodup)
    (hallowed : ∀ s ∈ sections, Allowed s) :
    (sections.flatMap Ini.Section.lines).foldlM repositoryLine stanzas =
      .ok ((sections.map stanzaOf).reverse ++ stanzas) := by
  induction sections generalizing stanzas with
  | nil => rfl
  | cons s sections ih =>
    obtain ⟨hs, hallowed⟩ := List.forall_mem_cons.mp hallowed
    have hfresh : s.name ∉ stanzas.map Prod.fst := by
      intro hmem
      exact (List.nodup_append.mp hdistinct).2.2 _ hmem _ (by simp) rfl
    have hline := repositoryLine_ok.mpr (.inr (.inl ⟨s.name, Ini.readLine_header, hfresh, hs.id, rfl⟩))
    have hpairs := @repositoryLines_pairs s.name [] s.pairs stanzas (by simpa using hs.keys) hs.directives
    have hdistinct' : (((s.name, s.pairs) :: stanzas).map Prod.fst ++ sections.map (·.name)).Nodup := by
      rw [List.map_cons, List.cons_append]
      exact (List.nodup_middle.mp hdistinct)
    rw [List.flatMap_cons, Ini.Section.lines, List.cons_append, List.foldlM_cons, hline, except_ok_bind,
      List.foldlM_append, hpairs, except_ok_bind, List.nil_append, ih hdistinct' hallowed]
    simp [stanzaOf]

theorem oneLine_of_plainValue {value : String} (h : plainValue value = true) :
    Ini.oneLine value = true := by
  obtain ⟨-, hfree⟩ := plainValue_iff.mp h
  refine Ini.oneLine_iff.mpr ⟨fun hmem => hfree ?_, fun hmem => hfree ?_⟩
  · exact List.any_eq_true.mpr ⟨_, hmem, by decide⟩
  · exact List.any_eq_true.mpr ⟨_, hmem, by decide⟩

/-- What a file rendered from such sections is parsed as. -/
theorem parseRepository_render {sections : List Ini.Section} {releasever expectedId : String}
    {found : Option FedoraRepository} (hdistinct : (sections.map (·.name)).Nodup)
    (hallowed : ∀ s ∈ sections, Allowed s) (hnames : ∀ s ∈ sections, Ini.oneLine s.name = true)
    (hcheck : (sections.map stanzaOf).foldlM (checkStanza releasever expectedId) none = .ok found) :
    parseRepository releasever expectedId (utf8 (Ini.render sections)) = .ok found := by
  have hplain : ∀ s ∈ sections, s.Plain := fun s hs =>
    ⟨hnames s hs, fun p hp => plainKey_of_directive ((hallowed s hs).directives p hp).1,
      fun p hp => oneLine_of_plainValue ((hallowed s hs).directives p hp).2⟩
  have hstanzas := @repositoryLines_sections sections [] (by simpa using hdistinct) hallowed
  simp only [parseRepository, except_bind_ok, need_ok]
  refine ⟨_, fromUtf8_utf8 _, (sections.map stanzaOf).reverse, ?_, by simpa using hcheck⟩
  rw [Ini.lines_render hplain, hstanzas, List.append_nil]

namespace Minimal

/-- One repository file, with a disabled companion. -/
def repositorySections (id : String) : List Ini.Section := [
  ⟨id, [("name", "Fedora 44"), ("metalink", pinnedMetalink id "44"), ("enabled", "1"),
    ("repo_gpgcheck", "0"), ("gpgcheck", "1"), ("gpgkey", FEDORA_KEY_TEMPLATE),
    ("skip_if_unavailable", "False")]⟩,
  ⟨id ++ "-debuginfo", [("enabled", "0")]⟩]

/-- A system whose repository files say this. -/
def fedoraAnswers : ∀ q : Question, Answer q
  | .symlinkMetadata _ => .ok ⟨.file, 1024⟩
  | .readFile path => .ok (utf8 (Ini.render (repositorySections
      (if path.fileName = some "fedora.repo" then "fedora" else "updates"))))
  | .run request => .ok ⟨.exit 0, if "-qf" ∈ request.args then utf8 "fedora-repos\n" else [], false, false⟩
  | .plan _ => .error unverified
  | .detectPlatform => none
  | .readLink _ | .canonicalize _ | .tempDir _ | .execute _ | .readResponse | .readDir _ =>
    .error .other
  | .createDir _ | .createDirAll _ | .writeFile _ _ | .setPrivate _ | .copyFile _ _ | .writeOut _
  | .flushOut | .writeErr _ => .ok ()

theorem allowed_repositorySections {id : String} (hid : allowedId id)
    (hcompanion : allowedId (id ++ "-debuginfo"))
    (hmetalink : plainValue (pinnedMetalink id "44") = true) :
    ∀ s ∈ repositorySections id, Allowed s := by
  simp only [repositorySections, List.mem_cons, List.not_mem_nil, or_false, forall_eq_or_imp, forall_eq]
  refine ⟨⟨hid, ?_, ?_⟩, hcompanion, ?_, ?_⟩
  · simp only [List.map_cons, List.map_nil]
    decide
  · simp only [List.mem_cons, List.not_mem_nil, or_false, forall_eq_or_imp, forall_eq, hmetalink]
    decide
  · simp only [List.map_cons, List.map_nil]
    decide
  · simp only [List.mem_cons, List.not_mem_nil, or_false, forall_eq]
    decide

/-- The repository a file describes. -/
def repository (id : String) : FedoraRepository := ⟨"Fedora 44", pinnedMetalink id "44"⟩

theorem parseRepository_fedora :
    parseRepository "44" "fedora" (utf8 (Ini.render (repositorySections "fedora"))) =
      .ok (some (repository "fedora")) := by
  refine parseRepository_render (by decide)
    (allowed_repositorySections (.inl (by decide)) (.inr (.inl (by decide))) (by decide)) (by decide) ?_
  rfl

theorem parseRepository_updates :
    parseRepository "44" "updates" (utf8 (Ini.render (repositorySections "updates"))) =
      .ok (some (repository "updates")) := by
  refine parseRepository_render (by decide)
    (allowed_repositorySections (.inl (by decide)) (.inr (.inr (by decide))) (by decide)) (by decide) ?_
  rfl

/-- What `readFile` answers. -/
def content (path : Path) : Bytes := utf8 (Ini.render (repositorySections
  (if path.fileName = some "fedora.repo" then "fedora" else "updates")))

theorem content_length (path : Path) : (content path).length ≤ 1000 := by
  have hid : ∀ id ∈ ["fedora", "updates"], len (Ini.render (repositorySections id)) ≤ 1000 := by
    have hshort : ∀ id ∈ ["fedora", "updates"], len id ≤ 10 ∧ len (pinnedMetalink id "44") ≤ 100 := by
      decide
    have hfixed : len FEDORA_KEY_TEMPLATE ≤ 100 := by decide
    intro id hmem
    obtain ⟨hid, hmetalink⟩ := hshort id hmem
    rw [Ini.render, len_unlines]
    simp only [repositorySections, List.flatMap_cons, List.flatMap_nil, Ini.Section.lines, Ini.pairLine,
      List.map_cons, List.map_nil, List.append_nil, List.cons_append, List.nil_append, List.sum_cons,
      List.sum_nil, len_append]
    have hlits : len "[" = 1 ∧ len "]" = 1 ∧ len "=" = 1 ∧ len "name" = 4 ∧ len "Fedora 44" = 9 ∧
        len "metalink" = 8 ∧ len "enabled" = 7 ∧ len "1" = 1 ∧ len "repo_gpgcheck" = 13 ∧ len "0" = 1 ∧
        len "gpgcheck" = 8 ∧ len "gpgkey" = 6 ∧ len "skip_if_unavailable" = 19 ∧ len "False" = 5 ∧
        len "-debuginfo" = 10 := by
      decide
    omega
  rw [content, length_utf8]
  split
  · exact hid _ (by simp)
  · exact hid _ (by simp)

theorem bindSource_eval {seen : List (Path × String) × List (Path × LinkTarget)} {file : Path} :
    (bindSource crates seen file).eval fedoraAnswers =
      .ok (seen.1 ++ [(file, crates.sha256 (content file))], seen.2) := by
  have hsource : (resolveSource file).eval fedoraAnswers = .ok (file, []) := rfl
  have hlength : (content file).length ≤ MAX_BOUND_BYTES :=
    Nat.le_trans (content_length file) (by decide)
  have hdigest : (digestFile crates file).eval fedoraAnswers = .ok (crates.sha256 (content file)) := by
    have hread : fedoraAnswers (.readFile file) = .ok (content file) := rfl
    have hall : (content file).take (MAX_BOUND_BYTES + 1) = content file :=
      List.take_of_length_le (Nat.le_succ_of_le hlength)
    rw [digestFile, digestFileWithLimit, readFile, Prog.eval_bind, Prog.eval_expect, hread, okOr,
      except_ok_bind, Prog.eval_bind, Prog.eval_lift, hall, (refuse_ok (u := ())).mpr (Nat.not_lt.mpr hlength)]
    rfl
  rw [bindSource, Prog.eval_bind, hsource, except_ok_bind, Prog.eval_bind]
  rw [show (lstat file unverified).eval fedoraAnswers = .ok ⟨.file, 1024⟩ from rfl, except_ok_bind,
    Prog.eval_bind, Prog.eval_lift, (refuse_ok (u := ())).mpr (by decide), except_ok_bind, Prog.eval_bind, hdigest,
    except_ok_bind, Prog.eval_pure, List.append_nil]

/-- What the sources of this system are. -/
def sources : FedoraSources where
  releasever := "44"
  gpgkey := "file:///etc/pki/rpm-gpg/RPM-GPG-KEY-fedora-44-x86_64"
  repositories := [("fedora", repository "fedora"), ("updates", repository "updates")]
  digests := (sourceFiles ⟨["etc"]⟩ "44" "x86_64").map fun file => (file, crates.sha256 (content file))
  symlinks := []

theorem verifyAt_eval :
    (FedoraSources.verifyAt crates ⟨["etc"]⟩ "44" "x86_64").eval fedoraAnswers = .ok sources := by
  have hbase : content (Path.join ⟨["etc"]⟩ "yum.repos.d/fedora.repo") =
      utf8 (Ini.render (repositorySections "fedora")) := by
    rw [content, if_pos (by decide)]
  have hupdates : content (Path.join ⟨["etc"]⟩ "yum.repos.d/fedora-updates.repo") =
      utf8 (Ini.render (repositorySections "updates")) := by
    rw [content, if_neg (by decide)]
  have hbound : ((sourceFiles ⟨["etc"]⟩ "44" "x86_64").foldlM (bindSource crates) ([], [])).eval
      fedoraAnswers = .ok (sources.digests, []) := by
    rw [sourceFiles, List.foldlM_cons, Prog.eval_bind, bindSource_eval, except_ok_bind, List.foldlM_cons,
      Prog.eval_bind, bindSource_eval, except_ok_bind, List.foldlM_cons, Prog.eval_bind, bindSource_eval]
    rfl
  have hread (path : Path) : (readFile path repositoryError).eval fedoraAnswers = .ok (content path) := rfl
  rw [FedoraSources.verifyAt, Prog.eval_bind, Prog.eval_lift, (refuse_ok (u := ())).mpr (by decide), except_ok_bind,
    Prog.eval_bind, hbound, except_ok_bind]
  dsimp only
  rw [Prog.eval_bind]
  -- both probes of the package that owns the files answer as expected
  change (Except.ok () : Except InstallError Unit) >>= _ = _
  rw [except_ok_bind, Prog.eval_bind, hread, except_ok_bind, Prog.eval_bind, Prog.eval_lift, hbase, parseRepository_fedora, except_ok_bind, Prog.eval_bind, hread, except_ok_bind,
    Prog.eval_bind, Prog.eval_lift, hupdates, parseRepository_updates]
  rfl

theorem verifyAt_runs : ∃ t,
    (FedoraSources.verifyAt crates ⟨["etc"]⟩ "44" "x86_64").Runs t (.ok sources) := by
  obtain ⟨t, h⟩ := Prog.runs_eval fedoraAnswers
    (FedoraSources.verifyAt crates ⟨["etc"]⟩ "44" "x86_64")
  rw [verifyAt_eval] at h
  exact ⟨t, h⟩

end Minimal

/-! ### The policy -/

/-- Verified sources were read last, from files that keep the policy. -/
theorem fedora_policy {crates : Crates} {etc : Path} {releasever basearch : String} {t : Trace}
    {sources : FedoraSources}
    (h : (FedoraSources.verifyAt crates etc releasever basearch).Runs t (.ok sources)) :
    ∃ front base updates, t = front ++
      [⟨.readFile (etc.join "yum.repos.d/fedora.repo"), .ok (utf8 base)⟩,
        ⟨.readFile (etc.join "yum.repos.d/fedora-updates.repo"), .ok (utf8 updates)⟩] ∧
    (∃ sections, Ini.read base = some sections ∧ SourcePolicy releasever "fedora" sections) ∧
    ∃ sections, Ini.read updates = some sections ∧ SourcePolicy releasever "updates" sections := by
  obtain ⟨-, -, front, baseBytes, updatesBytes, base, updates, ht, hbase, hupdates, -⟩ := verifyAt_ok h
  obtain ⟨text, sections, rfl, hread, hpolicy, -⟩ := parseRepository_ok hbase
  obtain ⟨text', sections', rfl, hread', hpolicy', -⟩ := parseRepository_ok hupdates
  exact ⟨front, text, text', ht, ⟨sections, hread, hpolicy⟩, sections', hread', hpolicy'⟩

theorem fedora_policy_minimal : ∃ t sources,
    (FedoraSources.verifyAt Minimal.crates ⟨["etc"]⟩ "44" "x86_64").Runs t (.ok sources) ∧
    ∃ front base updates, t = front ++
      [⟨.readFile (Path.join ⟨["etc"]⟩ "yum.repos.d/fedora.repo"), .ok (utf8 base)⟩,
        ⟨.readFile (Path.join ⟨["etc"]⟩ "yum.repos.d/fedora-updates.repo"), .ok (utf8 updates)⟩] ∧
    (∃ sections, Ini.read base = some sections ∧ SourcePolicy "44" "fedora" sections) ∧
    ∃ sections, Ini.read updates = some sections ∧ SourcePolicy "44" "updates" sections := by
  obtain ⟨t, h⟩ := Minimal.verifyAt_runs
  exact ⟨t, Minimal.sources, h, fedora_policy h⟩

end NpuStack.Install
