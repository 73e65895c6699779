import NpuStack.Schemes.Chains
import NpuStack.Schemes.Gather
import NpuStack.Schemes.Interaction
import NpuStack.Schemes.PosixPath

/-! The payload of a package, read from its archive without extracting it.

        members ──names, kinds──▶ files, hard links, symbolic links ──rounds──▶ files, symbolic links

    Names are made canonical and may not repeat, and every hard link must lead to a regular file. A
    directory is looked up among the names before it and not recorded for those after it, so whether a
    directory may share its name depends on the order of the members (`payload_specified_iff`). -/

namespace NpuStack.Packaging.Payload
open Interaction Text
open PosixPath (names pureStr)
open Chains (Reaches Cyclic Dangling Apart)

inductive Kind where
  | directory | hardLink | symbolicLink | regular | other
  deriving DecidableEq, Repr

/-- A member as the archive is read; the data of a regular file has the size of the member. -/
structure Member where
  name : String
  kind : Kind
  linkname : String
  data : Bytes
  deriving DecidableEq, Repr

/-- Digest and size. -/
abbrev File := String × ℕ

/-- The dictionaries of the reader. -/
structure Contents where
  files : List (String × File)
  links : List (String × String)
  symlinks : List (String × String)
  deriving DecidableEq, Repr

namespace Contents

def empty : Contents := ⟨[], [], []⟩

def names (contents : Contents) : List String :=
  contents.files.map Prod.fst ++ contents.links.map Prod.fst ++ contents.symlinks.map Prod.fst

end Contents

def safeName (name : String) : Except String String := do
  let name := Py.removePrefix "./" name
  require (pureStr name = name ∧ ".." ∉ names name) "noncanonical archive path"
  return name

/-- `safe_name(name).lstrip('/')`. -/
def memberName (name : String) : Except String String := do
  let name ← safeName name
  return Py.lstrip '/' name

section
variable (sha256 : Bytes → String)

/-- One member of the archive. -/
def payloadMember (contents : Contents) (member : Member) : Except String Contents := do
  let name ← memberName member.name
  require (name ∉ contents.names) "duplicate payload member"
  match member.kind with
  | .directory => return contents
  | .hardLink => do
    let target ← memberName member.linkname
    return { contents with links := contents.links ++ [(name, target)] }
  | .symbolicLink => return { contents with symlinks := contents.symlinks ++ [(name, member.linkname)] }
  | .regular => return { contents with files := contents.files ++ [(name, sha256 member.data, member.data.length)] }
  | .other => .error "unsupported payload member"

/-- `payload`: the members of the archive, and the exit status of the process that writes it. -/
def payload (members : List Member) (status : ℤ) :
    Except String (List (String × File) × List (String × String)) := do
  let contents ← members.foldlM (payloadMember sha256) Contents.empty
  require (status = 0) "rpm2archive failed"
  let files ← need (Chains.resolve contents.files contents.links) "unresolved payload hardlink"
  return (files, contents.symlinks)

/-! ### What the archive lists -/

/-- The regular files by name. -/
def regularFiles (members : List Member) : List (String × File) :=
  members.filterMap fun member => if member.kind = .regular then
    (memberName member.name).toOption.map fun name => (name, sha256 member.data, member.data.length) else none

/-- The hard links by name, with the names they lead to. -/
def hardLinks (members : List Member) : List (String × String) :=
  members.filterMap fun member => if member.kind = .hardLink then do
    let name ← (memberName member.name).toOption
    let target ← (memberName member.linkname).toOption
    return (name, target) else none

def symbolicLinks (members : List Member) : List (String × String) :=
  members.filterMap fun member => if member.kind = .symbolicLink then
    (memberName member.name).toOption.map fun name => (name, member.linkname) else none

/-- Following hard links from the name ends at the file. -/
abbrev LeadsTo (members : List Member) (name : String) (file : File) : Prop :=
  Reaches (regularFiles sha256 members) (hardLinks members) name file

end

section
variable {sha256 : Bytes → String}

theorem mem_regularFiles {members : List Member} {name : String} {file : File} :
    (name, file) ∈ regularFiles sha256 members ↔ ∃ member ∈ members, member.kind = .regular ∧
      memberName member.name = .ok name ∧ file = (sha256 member.data, member.data.length) := by
  simp only [regularFiles, List.mem_filterMap, Option.ite_none_right_eq_some, Option.map_eq_some_iff,
    Prod.mk.injEq]
  constructor
  · rintro ⟨member, hmem, hkind, _, hname, rfl, rfl⟩
    exact ⟨member, hmem, hkind, ok_of_toOption hname, rfl⟩
  · rintro ⟨member, hmem, hkind, hname, rfl⟩
    exact ⟨member, hmem, hkind, name, by rw [hname]; rfl, rfl, rfl⟩

theorem mem_hardLinks {members : List Member} {name target : String} : (name, target) ∈ hardLinks members ↔
    ∃ member ∈ members, member.kind = .hardLink ∧ memberName member.name = .ok name ∧
      memberName member.linkname = .ok target := by
  simp only [hardLinks, List.mem_filterMap, Option.ite_none_right_eq_some, bind, Option.bind_eq_some_iff, pure,
    Option.some.injEq, Prod.mk.injEq]
  constructor
  · rintro ⟨member, hmem, hkind, _, hname, _, htarget, rfl, rfl⟩
    exact ⟨member, hmem, hkind, ok_of_toOption hname, ok_of_toOption htarget⟩
  · rintro ⟨member, hmem, hkind, hname, htarget⟩
    exact ⟨member, hmem, hkind, name, by rw [hname]; rfl, target, by rw [htarget]; rfl, rfl, rfl⟩

theorem mem_symbolicLinks {members : List Member} {name target : String} :
    (name, target) ∈ symbolicLinks members ↔ ∃ member ∈ members, member.kind = .symbolicLink ∧
      memberName member.name = .ok name ∧ target = member.linkname := by
  simp only [symbolicLinks, List.mem_filterMap, Option.ite_none_right_eq_some, Option.map_eq_some_iff,
    Prod.mk.injEq]
  constructor
  · rintro ⟨member, hmem, hkind, _, hname, rfl, rfl⟩
    exact ⟨member, hmem, hkind, ok_of_toOption hname, rfl⟩
  · rintro ⟨member, hmem, hkind, hname, rfl⟩
    exact ⟨member, hmem, hkind, name, by rw [hname]; rfl, rfl, rfl⟩

/-! ### Reading the members -/

/-- What is asked of a member on its own. -/
structure Readable (member : Member) : Prop where
  name : ∃ name, memberName member.name = .ok name
  kind : member.kind ≠ .other
  target : member.kind = .hardLink → ∃ target, memberName member.linkname = .ok target

/-- The contents and those of further members. -/
def Contents.extend (sha256 : Bytes → String) (contents : Contents) (members : List Member) : Contents :=
  ⟨contents.files ++ regularFiles sha256 members, contents.links ++ hardLinks members,
    contents.symlinks ++ symbolicLinks members⟩

theorem Contents.extend_cons (contents : Contents) (member : Member) (members : List Member) :
    (contents.extend sha256 [member]).extend sha256 members = contents.extend sha256 (member :: members) := by
  have hone : ∀ {α : Type} (f : Member → Option α), (member :: members).filterMap f =
      [member].filterMap f ++ members.filterMap f := fun f => List.filterMap_append (l := [member])
  simp only [Contents.extend, List.append_assoc, regularFiles, hardLinks, symbolicLinks]
  rw [hone, hone, hone]

section
variable {contents : Contents} {member : Member} {name target : String}

theorem Contents.extend_directory (hkind : member.kind = .directory) :
    contents.extend sha256 [member] = contents := by
  simp [Contents.extend, regularFiles, hardLinks, symbolicLinks, hkind]

theorem Contents.extend_hardLink (hkind : member.kind = .hardLink) (hname : memberName member.name = .ok name)
    (htarget : memberName member.linkname = .ok target) :
    contents.extend sha256 [member] = { contents with links := contents.links ++ [(name, target)] } := by
  simp [Contents.extend, regularFiles, hardLinks, symbolicLinks, hkind, hname, htarget, Except.toOption]

theorem Contents.extend_symbolicLink (hkind : member.kind = .symbolicLink)
    (hname : memberName member.name = .ok name) : contents.extend sha256 [member] =
      { contents with symlinks := contents.symlinks ++ [(name, member.linkname)] } := by
  simp [Contents.extend, regularFiles, hardLinks, symbolicLinks, hkind, hname, Except.toOption]

theorem Contents.extend_regular (hkind : member.kind = .regular) (hname : memberName member.name = .ok name) :
    contents.extend sha256 [member] = { contents with
      files := contents.files ++ [(name, sha256 member.data, member.data.length)] } := by
  simp [Contents.extend, regularFiles, hardLinks, symbolicLinks, hkind, hname, Except.toOption]

/-- The name of a member is kept unless it is a directory. -/
theorem Contents.mem_names_extend (h : Readable member) (hname : memberName member.name = .ok name)
    (other : String) : other ∈ (contents.extend sha256 [member]).names ↔
      other ∈ contents.names ∨ (member.kind ≠ .directory ∧ other = name) := by
  cases hkind : member.kind with
  | directory => simp [Contents.extend_directory hkind]
  | hardLink =>
    obtain ⟨target, htarget⟩ := h.target hkind
    rw [Contents.extend_hardLink hkind hname htarget]
    simp [Contents.names, or_assoc, or_comm, or_left_comm]
  | symbolicLink =>
    rw [Contents.extend_symbolicLink hkind hname]
    simp [Contents.names, or_assoc]
  | regular =>
    rw [Contents.extend_regular hkind hname]
    simp [Contents.names, or_assoc, or_comm]
  | other => exact absurd hkind h.kind

/-- One member: it is readable, its name is new among those kept, and it is kept. -/
theorem payloadMember_ok {contents' : Contents} : payloadMember sha256 contents member = .ok contents' ↔
    Readable member ∧ (∀ name, memberName member.name = .ok name → name ∉ contents.names) ∧
      contents' = contents.extend sha256 [member] := by
  rw [payloadMember, except_bind_ok]
  constructor
  · rintro ⟨name, hname, hrest⟩
    rw [except_bind_ok] at hrest
    obtain ⟨_, hnew, hrest⟩ := hrest
    rw [require_ok] at hnew
    have hfresh : ∀ other, memberName member.name = .ok other → other ∉ contents.names := by
      intro other hother
      rw [hname] at hother
      rwa [← Except.ok.inj hother]
    cases hkind : member.kind with
    | directory =>
      rw [hkind] at hrest
      cases hrest
      exact ⟨⟨⟨name, hname⟩, by simp [hkind], by simp [hkind]⟩, hfresh, (Contents.extend_directory hkind).symm⟩
    | hardLink =>
      simp only [hkind, except_bind_ok] at hrest
      obtain ⟨target, htarget, hrest⟩ := hrest
      cases hrest
      exact ⟨⟨⟨name, hname⟩, by simp [hkind], fun _ => ⟨target, htarget⟩⟩, hfresh,
        (Contents.extend_hardLink hkind hname htarget).symm⟩
    | symbolicLink =>
      rw [hkind] at hrest
      cases hrest
      exact ⟨⟨⟨name, hname⟩, by simp [hkind], by simp [hkind]⟩, hfresh,
        (Contents.extend_symbolicLink hkind hname).symm⟩
    | regular =>
      rw [hkind] at hrest
      cases hrest
      exact ⟨⟨⟨name, hname⟩, by simp [hkind], by simp [hkind]⟩, hfresh,
        (Contents.extend_regular hkind hname).symm⟩
    | other =>
      rw [hkind] at hrest
      cases hrest
  · rintro ⟨hreadable, hfresh, rfl⟩
    obtain ⟨name, hname⟩ := hreadable.name
    refine ⟨name, hname, ?_⟩
    rw [require_pos (hfresh name hname), except_ok_bind]
    cases hkind : member.kind with
    | directory => rw [Contents.extend_directory hkind]; rfl
    | hardLink =>
      obtain ⟨target, htarget⟩ := hreadable.target hkind
      rw [Contents.extend_hardLink hkind hname htarget]
      simp only [htarget, except_ok_bind]
      rfl
    | symbolicLink => rw [Contents.extend_symbolicLink hkind hname]; rfl
    | regular => rw [Contents.extend_regular hkind hname]; rfl
    | other => exact absurd hkind hreadable.kind

end

/-- An earlier member that is kept does not share its name with a later one. -/
def Fresh (members : List Member) : Prop :=
  members.Pairwise fun member later => member.kind ≠ .directory → memberName member.name ≠ memberName later.name

/-- The loop reads every member. -/
theorem payloadMembers_ok {members : List Member} : ∀ {contents contents' : Contents},
    members.foldlM (payloadMember sha256) contents = .ok contents' ↔ (∀ member ∈ members, Readable member) ∧
      (∀ member ∈ members, ∀ name, memberName member.name = .ok name → name ∉ contents.names) ∧
      Fresh members ∧ contents' = contents.extend sha256 members := by
  induction members with
  | nil =>
    intro contents contents'
    have hnil : contents.extend sha256 [] = contents := by
      simp [Contents.extend, regularFiles, hardLinks, symbolicLinks]
    simp [Fresh, hnil, pure, Except.pure, eq_comm]
  | cons member members ih =>
    intro contents contents'
    rw [List.foldlM_cons, except_bind_ok]
    constructor
    · rintro ⟨next, hstep, hrest⟩
      obtain ⟨hreadable, hnew, rfl⟩ := payloadMember_ok.mp hstep
      obtain ⟨hall, hlater, hfresh, rfl⟩ := ih.mp hrest
      obtain ⟨name, hname⟩ := hreadable.name
      refine ⟨List.forall_mem_cons.mpr ⟨hreadable, hall⟩, List.forall_mem_cons.mpr ⟨hnew, ?_⟩,
        List.pairwise_cons.mpr ⟨?_, hfresh⟩, Contents.extend_cons contents member members⟩
      · intro later hmem other hother hin
        exact hlater later hmem other hother ((Contents.mem_names_extend hreadable hname other).mpr (.inl hin))
      · intro later hmem hkept heq
        have hin : name ∈ (contents.extend sha256 [member]).names :=
          (Contents.mem_names_extend hreadable hname name).mpr (.inr ⟨hkept, rfl⟩)
        exact hlater later hmem name (heq ▸ hname) hin
    · rintro ⟨hall, hnew, hfresh, rfl⟩
      obtain ⟨hreadable, hall⟩ := List.forall_mem_cons.mp hall
      obtain ⟨hnew, hlater⟩ := List.forall_mem_cons.mp hnew
      obtain ⟨hhead, hfresh⟩ := List.pairwise_cons.mp hfresh
      obtain ⟨name, hname⟩ := hreadable.name
      refine ⟨_, payloadMember_ok.mpr ⟨hreadable, hnew, rfl⟩,
        ih.mpr ⟨hall, ?_, hfresh, (Contents.extend_cons contents member members).symm⟩⟩
      intro later hmem other hother hin
      rcases (Contents.mem_names_extend hreadable hname other).mp hin with hin | ⟨hkept, rfl⟩
      · exact hlater later hmem other hother hin
      · exact hhead later hmem hkept (hname.trans hother.symm)

/-! ### What an archive must be -/

/-- No two members that are kept share a name. -/
def KeptApart (members : List Member) : Prop :=
  members.Pairwise fun a b => a.kind ≠ .directory → b.kind ≠ .directory → memberName a.name ≠ memberName b.name

/-- Valid up to the names of its directories. -/
structure Resolvable (sha256 : Bytes → String) (members : List Member) : Prop where
  kinds : ∀ member ∈ members, member.kind ≠ .other
  canonical : ∀ member ∈ members, ∃ name, memberName member.name = .ok name
  apart : KeptApart members
  resolved : ∀ member ∈ members, member.kind = .hardLink →
    ∀ name, memberName member.name = .ok name → ∃ file, LeadsTo sha256 members name file

/-- Every member is of a known kind under a canonical name of its own, and every hard link leads to a
    regular file. -/
structure Valid (sha256 : Bytes → String) (members : List Member) : Prop where
  kinds : ∀ member ∈ members, member.kind ≠ .other
  canonical : ∀ member ∈ members, ∃ name, memberName member.name = .ok name
  distinct : members.Pairwise fun a b => memberName a.name ≠ memberName b.name
  resolved : ∀ member ∈ members, member.kind = .hardLink →
    ∀ name, memberName member.name = .ok name → ∃ file, LeadsTo sha256 members name file

/-- No directory shares its name with another member. -/
def DirectoriesApart (members : List Member) : Prop :=
  members.Pairwise fun a b => a.kind = .directory ∨ b.kind = .directory → memberName a.name ≠ memberName b.name

section
variable {members : List Member}

theorem valid_iff : Valid sha256 members ↔ Resolvable sha256 members ∧ DirectoriesApart members := by
  constructor
  · intro h
    refine ⟨⟨h.kinds, h.canonical, h.distinct.imp ?_, h.resolved⟩, h.distinct.imp ?_⟩
    · intro a b hne _ _
      exact hne
    · intro a b hne _
      exact hne
  · rintro ⟨h, hdirectories⟩
    refine ⟨h.kinds, h.canonical, (h.apart.and hdirectories).imp fun {a b} hab => ?_, h.resolved⟩
    by_cases ha : a.kind = .directory
    · exact hab.2 (.inl ha)
    · by_cases hb : b.kind = .directory
      · exact hab.2 (.inr hb)
      · exact hab.1 ha hb

theorem Valid.fresh (h : Valid sha256 members) : Fresh members := by
  refine h.distinct.imp ?_
  intro a b hne _
  exact hne

/-- Members that are kept under one name are one member. -/
theorem KeptApart.eq_of_name (h : KeptApart members) {a b : Member} (ha : a ∈ members) (hb : b ∈ members)
    (hkind : a.kind ≠ .directory) (hkind' : b.kind ≠ .directory) (hname : memberName a.name = memberName b.name) :
    a = b := by
  by_contra hne
  have hsymm : Std.Symm fun a b : Member => a.kind ≠ .directory → b.kind ≠ .directory →
      memberName a.name ≠ memberName b.name := ⟨fun _ _ hab hb ha heq => hab ha hb heq.symm⟩
  exact List.Pairwise.forall h ha hb hne hkind hkind' hname

theorem Resolvable.readable (h : Resolvable sha256 members) {member : Member} (hmem : member ∈ members) :
    Readable member := by
  refine ⟨h.canonical member hmem, h.kinds member hmem, fun hkind => ?_⟩
  have hkept : member.kind ≠ .directory := by simp [hkind]
  obtain ⟨name, hname⟩ := h.canonical member hmem
  obtain ⟨file, hleads⟩ := h.resolved member hmem hkind name hname
  cases hleads with
  | here hfile =>
    obtain ⟨other, hother, hregular, hsame, -⟩ := mem_regularFiles.mp hfile
    have heq := h.apart.eq_of_name hmem hother hkept (by simp [hregular]) (hname.trans hsame.symm)
    rw [← heq, hkind] at hregular
    cases hregular
  | there hlink _ =>
    obtain ⟨other, hother, hlinked, hsame, htarget⟩ := mem_hardLinks.mp hlink
    rw [← h.apart.eq_of_name hmem hother hkept (by simp [hlinked]) (hname.trans hsame.symm)] at htarget
    exact ⟨_, htarget⟩

/-- What is kept of the members under their names has distinct names. -/
theorem KeptApart.nodup (h : KeptApart members) {α : Type} {f : Member → Option (String × α)}
    (hf : ∀ member item, f member = some item → member.kind ≠ .directory ∧ memberName member.name = .ok item.1) :
    ((members.filterMap f).map Prod.fst).Nodup := by
  rw [List.Nodup, List.pairwise_map, List.pairwise_filterMap]
  refine List.Pairwise.imp (fun {a b} hab x hx y hy heq => ?_) h
  obtain ⟨hkind, hname⟩ := hf a x hx
  obtain ⟨hkind', hname'⟩ := hf b y hy
  exact hab hkind hkind' (by rw [hname, hname', heq])

theorem KeptApart.apart (h : KeptApart members) : Apart (regularFiles sha256 members) (hardLinks members) := by
  refine List.nodup_append.mpr ⟨h.nodup fun member item hitem => ?_, h.nodup fun member item hitem => ?_, ?_⟩
  · simp only [Option.ite_none_right_eq_some, Option.map_eq_some_iff] at hitem
    obtain ⟨hkind, name, hname, rfl⟩ := hitem
    exact ⟨by simp [hkind], ok_of_toOption hname⟩
  · simp only [Option.ite_none_right_eq_some, bind, Option.bind_eq_some_iff, pure, Option.some.injEq] at hitem
    obtain ⟨hkind, name, hname, target, -, rfl⟩ := hitem
    exact ⟨by simp [hkind], ok_of_toOption hname⟩
  · intro name hfile name' hlink heq
    subst heq
    obtain ⟨⟨_, file⟩, hfileIn, rfl⟩ := List.mem_map.mp hfile
    obtain ⟨⟨_, target⟩, hlinkIn, rfl⟩ := List.mem_map.mp hlink
    obtain ⟨a, ha, hregular, hname, -⟩ := mem_regularFiles.mp hfileIn
    obtain ⟨b, hb, hlinked, hname', -⟩ := mem_hardLinks.mp hlinkIn
    obtain rfl := h.eq_of_name ha hb (by simp [hregular]) (by simp [hlinked]) (hname.trans hname'.symm)
    rw [hregular] at hlinked
    cases hlinked

theorem KeptApart.nodup_symbolicLinks (h : KeptApart members) : ((symbolicLinks members).map Prod.fst).Nodup := by
  refine h.nodup fun member item hitem => ?_
  simp only [Option.ite_none_right_eq_some, Option.map_eq_some_iff] at hitem
  obtain ⟨hkind, name, hname, rfl⟩ := hitem
  exact ⟨by simp [hkind], ok_of_toOption hname⟩

/-- The maps of a payload, and what it takes to get them. -/
theorem payload_ok {files : List (String × File)} {symlinks : List (String × String)} :
    payload sha256 members 0 = .ok (files, symlinks) ↔ (∀ member ∈ members, Readable member) ∧ Fresh members ∧
      Chains.resolve (regularFiles sha256 members) (hardLinks members) = some files ∧
      symlinks = symbolicLinks members := by
  have hempty : ∀ member ∈ members, ∀ name, memberName member.name = .ok name → name ∉ Contents.empty.names := by
    simp [Contents.empty, Contents.names]
  simp only [payload, except_bind_ok, payloadMembers_ok, require_ok, need_ok, exists_const, true_and]
  constructor
  · rintro ⟨contents, ⟨hreadable, -, hfresh, rfl⟩, values, hvalues, hpair⟩
    cases hpair
    exact ⟨hreadable, hfresh, hvalues, rfl⟩
  · rintro ⟨hreadable, hfresh, hvalues, rfl⟩
    exact ⟨_, ⟨hreadable, hempty, hfresh, rfl⟩, files, hvalues, rfl⟩

theorem Fresh.keptApart (h : Fresh members) : KeptApart members := by
  refine List.Pairwise.imp ?_ h
  intro a b hab ha _
  exact hab ha

/-- A payload is read exactly when it is resolvable in an order that repeats no name that is kept. -/
theorem payload_isOk_iff : (∃ maps, payload sha256 members 0 = .ok maps) ↔
    Resolvable sha256 members ∧ Fresh members := by
  constructor
  · rintro ⟨⟨files, symlinks⟩, h⟩
    obtain ⟨hreadable, hfresh, hfiles, -⟩ := payload_ok.mp h
    have hall := (Chains.resolve_isSome hfresh.keptApart.apart).mp (Option.isSome_of_eq_some hfiles)
    refine ⟨⟨fun m hm => (hreadable m hm).kind, fun m hm => (hreadable m hm).name, hfresh.keptApart, ?_⟩, hfresh⟩
    intro member hmem hkind name hname
    obtain ⟨target, htarget⟩ := (hreadable member hmem).target hkind
    exact hall (name, target) (mem_hardLinks.mpr ⟨member, hmem, hkind, hname, htarget⟩)
  · rintro ⟨h, hfresh⟩
    have hall : ∀ link ∈ hardLinks members, ∃ file, LeadsTo sha256 members link.1 file := by
      rintro ⟨name, target⟩ hlink
      obtain ⟨member, hmem, hkind, hname, -⟩ := mem_hardLinks.mp hlink
      exact h.resolved member hmem hkind name hname
    obtain ⟨files, hfiles⟩ := Option.isSome_iff_exists.mp ((Chains.resolve_isSome h.apart.apart).mpr hall)
    exact ⟨_, payload_ok.mpr ⟨fun m hm => h.readable hm, hfresh, hfiles, rfl⟩⟩

/-! ### The order of the members -/

theorem LeadsTo.perm {members' : List Member} (hperm : members.Perm members') {name : String} {file : File}
    (h : LeadsTo sha256 members name file) : LeadsTo sha256 members' name file :=
  h.mono (fun _ => ((hperm.filterMap _).mem_iff).mp) (fun _ => ((hperm.filterMap _).mem_iff).mp)

theorem Resolvable.perm {members' : List Member} (hperm : members.Perm members') (h : Resolvable sha256 members) :
    Resolvable sha256 members' := by
  refine ⟨fun m hm => h.kinds m (hperm.mem_iff.mpr hm), fun m hm => h.canonical m (hperm.mem_iff.mpr hm),
    hperm.pairwise h.apart fun {a b} hab hb ha heq => hab ha hb heq.symm, fun m hm hkind name hname => ?_⟩
  obtain ⟨file, hleads⟩ := h.resolved m (hperm.mem_iff.mpr hm) hkind name hname
  exact ⟨file, LeadsTo.perm hperm hleads⟩

theorem Valid.perm {members' : List Member} (hperm : members.Perm members') (h : Valid sha256 members) :
    Valid sha256 members' := by
  have hresolvable := (valid_iff.mp h).1.perm hperm
  exact ⟨hresolvable.kinds, hresolvable.canonical, hperm.pairwise h.distinct fun {a b} hab => hab.symm,
    hresolvable.resolved⟩

/-- With the directories first, nothing is in their way. -/
theorem Resolvable.directories_first (h : Resolvable sha256 members) : ∃ members', members'.Perm members ∧
    ∃ maps, payload sha256 members' 0 = .ok maps := by
  have hperm := List.filter_append_perm (fun member : Member => member.kind = .directory) members
  refine ⟨_, hperm, payload_isOk_iff.mpr ⟨h.perm hperm.symm, ?_⟩⟩
  refine List.pairwise_append.mpr ⟨?_, ?_, ?_⟩
  · refine List.pairwise_of_forall_mem_list fun a ha b _ hkind => ?_
    exact absurd (by simpa using List.of_mem_filter ha) hkind
  · rw [List.pairwise_filter]
    refine List.Pairwise.imp ?_ h.apart
    intro a b hab ha hb _
    exact hab (by simpa using ha) (by simpa using hb)
  · intro a ha b _ hkind
    exact absurd (by simpa using List.of_mem_filter ha) hkind

theorem lookup_files {maps : List (String × File) × List (String × String)}
    (h : payload sha256 members 0 = .ok maps) (name : String) (file : File) :
    maps.1.lookup name = some file ↔ LeadsTo sha256 members name file := by
  obtain ⟨files, symlinks⟩ := maps
  obtain ⟨-, hfresh, hfiles, -⟩ := payload_ok.mp h
  obtain ⟨hnd, hmem⟩ := Chains.mem_resolve hfresh.keptApart.apart hfiles
  exact ⟨fun hfile => (hmem name file).mp (Keyed.mem_of_lookup hfile),
    fun hleads => Keyed.lookup_of_mem hnd ((hmem name file).mpr hleads)⟩

theorem lookup_symlinks {maps : List (String × File) × List (String × String)}
    (h : payload sha256 members 0 = .ok maps) (name target : String) :
    maps.2.lookup name = some target ↔ ∃ member ∈ members, member.kind = .symbolicLink ∧
      memberName member.name = .ok name ∧ target = member.linkname := by
  obtain ⟨files, symlinks⟩ := maps
  obtain ⟨-, hfresh, -, rfl⟩ := payload_ok.mp h
  rw [← mem_symbolicLinks]
  exact ⟨Keyed.mem_of_lookup, Keyed.lookup_of_mem hfresh.keptApart.nodup_symbolicLinks⟩

/-- What reading the members is for. -/
structure Specified (sha256 : Bytes → String) (members : List Member) : Prop where
  accepted : (∃ maps, payload sha256 members 0 = .ok maps) ↔ Valid sha256 members
  files : ∀ maps, payload sha256 members 0 = .ok maps → ∀ name file,
    maps.1.lookup name = some file ↔ LeadsTo sha256 members name file
  symlinks : ∀ maps, payload sha256 members 0 = .ok maps → ∀ name target,
    maps.2.lookup name = some target ↔ ∃ member ∈ members, member.kind = .symbolicLink ∧
      memberName member.name = .ok name ∧ target = member.linkname
  unordered : ∀ members', members'.Perm members →
    ((∃ maps, payload sha256 members' 0 = .ok maps) ↔ ∃ maps, payload sha256 members 0 = .ok maps) ∧
      ∀ maps maps', payload sha256 members 0 = .ok maps → payload sha256 members' 0 = .ok maps' →
        ∀ name, maps'.1.lookup name = maps.1.lookup name ∧ maps'.2.lookup name = maps.2.lookup name
  refused : ∀ name, Cyclic (hardLinks members) name ∨
      Dangling (regularFiles sha256 members) (hardLinks members) name →
    ∀ maps, payload sha256 members 0 ≠ .ok maps

theorem refused_of_unresolved {name : String} (h : Cyclic (hardLinks members) name ∨
    Dangling (regularFiles sha256 members) (hardLinks members) name)
    (maps : List (String × File) × List (String × String)) : payload sha256 members 0 ≠ .ok maps := by
  intro hmaps
  obtain ⟨-, hfresh, hfiles, -⟩ := payload_ok.mp hmaps
  have hapart : Apart (regularFiles sha256 members) (hardLinks members) := hfresh.keptApart.apart
  have hall := (Chains.resolve_isSome hapart).mp (Option.isSome_of_eq_some hfiles)
  rcases h with hcyclic | hdangling
  · obtain ⟨target, hlink, -⟩ := Relation.TransGen.head'_iff.mp hcyclic
    obtain ⟨file, hleads⟩ := hall _ hlink
    exact Chains.not_reaches_of_cyclic hapart hcyclic file hleads
  · have ⟨target, hlink, _⟩ := hdangling
    obtain ⟨file, hleads⟩ := hall _ hlink
    exact Chains.not_reaches_of_dangling hapart hdangling file hleads

/-- Reading is as specified unless a directory shares its name in an archive that has no other fault. -/
theorem payload_specified_iff (sha256 : Bytes → String) (members : List Member) :
    Specified sha256 members ↔ (Resolvable sha256 members → DirectoriesApart members) := by
  constructor
  · intro h hresolvable
    obtain ⟨members', hperm, hmaps⟩ := hresolvable.directories_first
    exact (valid_iff.mp (h.accepted.mp ((h.unordered members' hperm).1.mp hmaps))).2
  · intro h
    have hvalid : (∃ maps, payload sha256 members 0 = .ok maps) ↔ Valid sha256 members := by
      rw [payload_isOk_iff, valid_iff]
      exact ⟨fun hok => ⟨hok.1, h hok.1⟩, fun hok => ⟨hok.1, (valid_iff.mpr hok).fresh⟩⟩
    refine ⟨hvalid, fun _ => lookup_files, fun _ => lookup_symlinks, fun members' hperm => ⟨?_, ?_⟩,
      fun _ => refused_of_unresolved⟩
    · rw [hvalid]
      constructor
      · intro hmaps
        have hresolvable := (payload_isOk_iff.mp hmaps).1.perm hperm
        exact valid_iff.mpr ⟨hresolvable, h hresolvable⟩
      · intro hv
        have hv' := hv.perm hperm.symm
        exact payload_isOk_iff.mpr ⟨(valid_iff.mp hv').1, hv'.fresh⟩
    · intro maps maps' hmaps hmaps' name
      refine ⟨Option.ext fun file => ?_, Option.ext fun target => ?_⟩
      · rw [lookup_files hmaps, lookup_files hmaps']
        exact ⟨LeadsTo.perm hperm, LeadsTo.perm hperm.symm⟩
      · rw [lookup_symlinks hmaps, lookup_symlinks hmaps']
        simp only [hperm.mem_iff]

/-- A directory, and a file of its name behind it. -/
def shadowed : List Member := [⟨"./usr/lib", .directory, "", []⟩, ⟨"./usr/lib", .regular, "", []⟩]

theorem directory_shadowed : ¬ ∀ (sha256 : Bytes → String) (members : List Member), Specified sha256 members := by
  intro h
  have hmaps : payload (fun _ => "") shadowed 0 = .ok ([("usr/lib", "", 0)], []) := by
    have hlinks : hardLinks shadowed = [] := rfl
    rw [payload_ok, hlinks, Chains.resolve, if_pos rfl]
    refine ⟨?_, by simp [Fresh, shadowed], rfl, rfl⟩
    rw [shadowed, List.forall_mem_cons, List.forall_mem_singleton]
    exact ⟨⟨⟨"usr/lib", rfl⟩, nofun, nofun⟩, ⟨"usr/lib", rfl⟩, nofun, nofun⟩
  have hdistinct := ((h (fun _ => "") shadowed).accepted.mp ⟨_, hmaps⟩).distinct
  simp [shadowed] at hdistinct

end

end

end NpuStack.Packaging.Payload
