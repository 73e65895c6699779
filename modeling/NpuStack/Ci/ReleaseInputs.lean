import Mathlib.Data.Rat.Defs
import NpuStack.Ci.ReleaseTar
import NpuStack.Schemes.Keyed
import NpuStack.Schemes.PosixPath
import NpuStack.Schemes.Unpack

/-! `release_inputs.py`: the release inputs are unpacked from an archive into a new directory.

        stream ──scan──▶ headers ──tarfile──▶ members ──safe_members──▶ accepted ──extractall──▶ output

    Everything up to `safe_members` is decided before the output directory is made, and what is accepted
    is unpacked to exactly the members and their parents. A file may still be the parent of another
    member, or the file system may take no entry of a name, and then unpacking fails when part of the
    output is written (`extract_specified_iff`). -/

namespace NpuStack.Ci.Inputs
open Text Interaction
open PosixPath (names)
open Tar (INPUT_TYPES REGULAR_TYPES EXTENSIONS DIRTYPE BLOCK Info Header readAt)

def MAX_UNPACKED : ℕ := 2 ^ 33
def MAX_MEMBERS : ℕ := 20000
def MAX_MTIME : ℕ := 2 ^ 33

/-- A member as `tarfile` reads it; a time that is no finite number is `none`. -/
structure TarInfo where
  name : String
  type : UInt8
  size : ℤ
  mtime : Option ℚ
  data : Bytes

def TarInfo.isreg (member : TarInfo) : Bool := member.type ∈ REGULAR_TYPES

def TarInfo.isdir (member : TarInfo) : Bool := member.type = DIRTYPE

/-- Why an archive is refused. -/
inductive Refused where
  | outputExists
  | archive (reason : Tar.Refusal)
  | unreadable
  | kind (name : String)
  | path (name : String)
  | duplicate (name : String)
  | time (name : String)
  | unpacked
  deriving DecidableEq

/-! ### Members -/

def memberName (member : TarInfo) : String :=
  let name := (stripPrefix "./" member.name).getD member.name
  if member.isdir then Py.rstrip '/' name else name

/-- The characters a segment starts with. -/
def startsSegment (c : Char) : Bool := c.isAlphanum || c = '_' || c = '+'

/-- `SEGMENT.fullmatch`. -/
def isSegment (part : String) : Bool :=
  match part.toList with
  | [] => false
  | c :: cs => startsSegment c && cs.all fun c => startsSegment c || c = '.' || c = '~' || c = '@' || c = '-'

/-- `0 <= mtime < MAX_MTIME`. -/
def inTime (mtime : Option ℚ) : Bool := mtime.any fun mtime : ℚ => 0 ≤ mtime && mtime < (MAX_MTIME : ℚ)

/-- The local variables of `safe_members`. -/
structure Accepted where
  members : List TarInfo
  seen : List String
  total : ℤ

/-- An entry of the output directory itself. -/
def isTop (member : TarInfo) : Bool := member.isdir && (memberName member = "" || memberName member = ".")

def acceptMember (accepted : Accepted) (member : TarInfo) : Except Refused Accepted := do
  let name := memberName member
  if isTop member then return accepted
  require (member.isreg = true ∨ member.isdir = true) (Refused.kind member.name)
  require (contains '\\' name = false ∧ startsWith "/" name = false ∧ (split '/' name).all isSegment = true)
    (Refused.path member.name)
  refuse (name ∈ accepted.seen) (Refused.duplicate name)
  require (inTime member.mtime = true) (Refused.time member.name)
  let total := accepted.total + member.size
  require (total ≤ MAX_UNPACKED) Refused.unpacked
  return ⟨accepted.members ++ [member], name :: accepted.seen, total⟩

def safeMembers (members : List TarInfo) : Except Refused (List TarInfo) := do
  let accepted ← members.foldlM acceptMember ⟨[], [], 0⟩
  return accepted.members

/-! ### Unpacking -/

abbrev Tree := Unpack.Tree String Bytes

/-- Where a path leads from a directory, unless it leads out of the whole. -/
def resolve (above : List String) : List String → Option (List String)
  | [] => some above
  | name :: names =>
    if name = ".." then
      if above = [] then none else resolve above.dropLast names
    else resolve (above ++ [name]) names

/-- Where the `data` filter lets a member go. -/
def dataFilter (name : String) : Option (List String) := resolve [] (names (Py.lstrip '/' name))

def item (member : TarInfo) (path : List String) : Unpack.Item String Bytes :=
  ⟨path, if member.isdir then none else some member.data⟩

/-- What comes of an archive, and what is left of one that fails. -/
inductive Outcome where
  | refused (reason : Refused)
  | failed (written : Tree)
  | extracted (members : ℕ) (output : Tree)

section
variable (fits : List String → Bool)

def extractMember (tree : Tree) (member : TarInfo) : Except Tree Tree :=
  match dataFilter member.name with
  | none => .error tree
  | some path => Unpack.put fits tree (item member path)

/-- `extractall` into an empty directory. -/
def extractall (members : List TarInfo) : Outcome :=
  match members.foldlM (extractMember fits) Unpack.empty with
  | .error written => .failed written
  | .ok output => .extracted members.length output

variable (frombuf : Bytes → Option Info) (tarfile : Bytes → Option (List TarInfo)) (outputExists : Bool)

/-- The scan of the inputs. -/
def scanned (data : Bytes) : Tar.Scanned := Tar.scan frombuf data MAX_MEMBERS INPUT_TYPES (some MAX_UNPACKED)

/-- The members of a stream, once every check before the output has passed. -/
def checkedMembers (data : Bytes) : Except Refused (List TarInfo) := do
  refuse (outputExists = true) Refused.outputExists
  let _ ← (scanned frombuf data).result.mapError Refused.archive
  let members ← need (tarfile data) Refused.unreadable
  safeMembers members

def extract (data : Bytes) : Outcome :=
  match checkedMembers frombuf tarfile outputExists data with
  | .error reason => .refused reason
  | .ok members => extractall fits members

end

/-! ### What is accepted -/

/-- The path of a member below the output. -/
def path (member : TarInfo) : List String := split '/' (memberName member)

/-- A regular file or directory with a plain relative name and a time in range. -/
structure Sound (member : TarInfo) : Prop where
  kind : member.isreg = true ∨ member.isdir = true
  segments : ∀ part ∈ path member, isSegment part = true
  time : inTime member.mtime = true

/-- What `safe_members` has when it has accepted these members of the stream. -/
structure Tallied (accepted : Accepted) (members : List TarInfo) : Prop where
  members : accepted.members = members.filter fun member => !isTop member
  sound : ∀ member ∈ accepted.members, Sound member
  seen : accepted.seen.Perm (accepted.members.map memberName)
  distinct : (accepted.members.map memberName).Nodup
  total : accepted.total = (accepted.members.map TarInfo.size).sum
  bounded : accepted.total ≤ MAX_UNPACKED

theorem acceptMember_ok {accepted accepted' : Accepted} {member : TarInfo} {members : List TarInfo}
    (h : Tallied accepted members) (hstep : acceptMember accepted member = .ok accepted') :
    Tallied accepted' (members ++ [member]) := by
  rw [acceptMember] at hstep
  split at hstep
  next htop =>
    cases hstep
    have hfilter : (members ++ [member]).filter (fun m => !isTop m) = members.filter fun m => !isTop m := by
      simp [List.filter_append, htop]
    exact ⟨hfilter ▸ h.members, h.sound, h.seen, h.distinct, h.total, h.bounded⟩
  next htop =>
    rw [except_bind_ok] at hstep
    obtain ⟨_, hkind, hstep⟩ := hstep
    rw [except_bind_ok] at hstep
    obtain ⟨_, hname, hstep⟩ := hstep
    rw [except_bind_ok] at hstep
    obtain ⟨_, hnew, hstep⟩ := hstep
    rw [except_bind_ok] at hstep
    obtain ⟨_, htime, hstep⟩ := hstep
    rw [except_bind_ok] at hstep
    obtain ⟨_, htotal, hstep⟩ := hstep
    cases hstep
    rw [require_ok] at hkind hname htime htotal
    rw [refuse_ok] at hnew
    have hfresh : memberName member ∉ accepted.members.map memberName :=
      fun hmem => hnew (h.seen.mem_iff.mpr hmem)
    have hsound : Sound member := ⟨hkind, List.all_eq_true.mp hname.2.2, htime⟩
    refine ⟨?_, ?_, ?_, ?_, ?_, htotal⟩
    · simp [List.filter_append, htop, h.members]
    · simpa [or_imp, forall_and, hsound] using h.sound
    · rw [List.map_append]
      exact (h.seen.cons _).trans (List.perm_append_singleton _ _).symm
    · rw [List.map_append]
      exact List.nodup_append.mpr ⟨h.distinct, by simp, by
        rintro name hmem _ hself rfl
        exact hfresh (List.mem_singleton.mp hself ▸ hmem)⟩
    · simp [h.total]

/-- The loop of `safe_members` keeps the tally. -/
theorem foldlM_tallied {accepted accepted' : Accepted} {before members : List TarInfo}
    (h : Tallied accepted before) (hrun : members.foldlM acceptMember accepted = .ok accepted') :
    Tallied accepted' (before ++ members) := by
  induction members generalizing accepted before with
  | nil =>
    cases hrun
    rwa [List.append_nil]
  | cons member members ih =>
    rw [List.foldlM_cons, except_bind_ok] at hrun
    obtain ⟨accepted₁, hstep, hrun⟩ := hrun
    rw [List.append_cons]
    exact ih (acceptMember_ok h hstep) hrun

theorem safeMembers_ok {members accepted : List TarInfo} (h : safeMembers members = .ok accepted) :
    accepted = members.filter (fun member => !isTop member) ∧ (∀ member ∈ accepted, Sound member) ∧
      (accepted.map memberName).Nodup ∧ (accepted.map TarInfo.size).sum ≤ MAX_UNPACKED := by
  rw [safeMembers, except_bind_ok] at h
  obtain ⟨tally, hrun, h⟩ := h
  cases h
  have hstart : Tallied ⟨[], [], 0⟩ [] :=
    ⟨rfl, nofun, .refl _, List.nodup_nil, rfl, Int.natCast_nonneg _⟩
  have htally := foldlM_tallied hstart hrun
  rw [List.nil_append] at htally
  exact ⟨htally.members, htally.sound, htally.distinct, htally.total ▸ htally.bounded⟩

theorem path_injective {a b : TarInfo} (h : path a = path b) : memberName a = memberName b := by
  rw [← join_split '/' (memberName a), ← join_split '/' (memberName b)]
  exact congrArg (join '/') h

/-! ### Where a member goes -/

theorem isSegment_ne {part : String} (h : isSegment part = true) : part ≠ "" ∧ part ≠ "." ∧ part ≠ ".." := by
  refine ⟨?_, ?_, ?_⟩ <;> rintro rfl <;> exact absurd h (by decide)

theorem resolve_plain {above rest : List String} (h : ".." ∉ rest) :
    resolve above rest = some (above ++ rest) := by
  induction rest generalizing above with
  | nil => rw [resolve, List.append_nil]
  | cons name rest ih =>
    rw [List.mem_cons, not_or] at h
    rw [resolve, if_neg (Ne.symm h.1), ih h.2, List.append_assoc, List.singleton_append]

theorem names_slashes (s : String) (k : ℕ) : names (s ++ String.ofList (List.replicate k '/')) = names s := by
  induction k with
  | zero => simp
  | succ k ih =>
    have hsplit : s ++ String.ofList (List.replicate (k + 1) '/') =
        s ++ String.ofList (List.replicate k '/') ++ "/" ++ "" := by
      rw [← String.toList_inj]
      simp [List.replicate_succ']
    have hnone : names "" = [] := by decide
    rw [hsplit, PosixPath.names_append, ih, hnone, List.append_nil]

theorem names_lstrip (s : String) : names (Py.lstrip '/' s) = names s := by
  suffices h : ∀ cs : List Char, names (String.ofList (cs.dropWhile (· == '/'))) = names (String.ofList cs) by
    have hs := h s.toList
    rwa [String.ofList_toList] at hs
  intro cs
  induction cs with
  | nil => rfl
  | cons c cs ih =>
    by_cases hc : c = '/'
    · have hsplit : String.ofList (c :: cs) = "" ++ "/" ++ String.ofList cs := by
        rw [← String.toList_inj]
        simp [hc]
      have hnone : names "" = [] := by decide
      rw [List.dropWhile_cons_of_pos (by simpa using hc), ih, hsplit, PosixPath.names_append, hnone,
        List.nil_append]
    · rw [List.dropWhile_cons_of_neg (by simpa using hc)]

/-- A sound member goes where its name says, however its name is written. -/
theorem dataFilter_sound {member : TarInfo} (h : Sound member) :
    dataFilter member.name = some (path member) := by
  have hpart : ∀ part ∈ path member, part ≠ "" ∧ part ≠ "." ∧ part ≠ ".." :=
    fun part hmem => isSegment_ne (h.segments part hmem)
  have hplain : names (memberName member) = path member :=
    PosixPath.names_of_plain fun part hmem => ⟨(hpart part hmem).1, (hpart part hmem).2.1⟩
  have hbase : names ((stripPrefix "./" member.name).getD member.name) = path member := by
    rw [← hplain, memberName]
    split
    next =>
      obtain ⟨k, hk⟩ := Py.rstrip_spec '/' ((stripPrefix "./" member.name).getD member.name)
      conv_lhs => rw [hk]
      exact names_slashes _ _
    next => rfl
  have hname : names member.name = path member := by
    cases hstrip : stripPrefix "./" member.name with
    | none => rwa [hstrip, Option.getD_none] at hbase
    | some rest =>
      rw [hstrip, Option.getD_some] at hbase
      have hdot : "./" = "." ++ "/" := by decide
      have hnames : names "." = [] := by decide
      rw [stripPrefix_eq_some.mp hstrip, hdot, PosixPath.names_append, hnames, List.nil_append, hbase]
  rw [dataFilter, names_lstrip, hname, resolve_plain fun hmem => (hpart _ hmem).2.2 rfl, List.nil_append]

theorem path_ne_nil (member : TarInfo) : path member ≠ [] := split_ne_nil _ _

/-- What is unpacked: each member at its path. -/
def items (members : List TarInfo) : List (Unpack.Item String Bytes) :=
  members.map fun member => item member (path member)

theorem map_path_items (members : List TarInfo) :
    (items members).map Unpack.Item.path = members.map path := by
  rw [items, List.map_map]
  rfl

theorem extract_items {fits : List String → Bool} {members : List TarInfo}
    (hsound : ∀ member ∈ members, Sound member) (tree : Tree) :
    members.foldlM (extractMember fits) tree = (items members).foldlM (Unpack.put fits) tree := by
  induction members generalizing tree with
  | nil => rfl
  | cons member members ih =>
    have hstep : extractMember fits tree member = Unpack.put fits tree (item member (path member)) := by
      rw [extractMember, dataFilter_sound (hsound member List.mem_cons_self)]
    have hrest : members.foldlM (extractMember fits) = (items members).foldlM (Unpack.put fits) :=
      funext (ih fun m hm => hsound m (List.mem_cons_of_mem _ hm))
    rw [items, List.map_cons, List.foldlM_cons, List.foldlM_cons, hstep]
    exact congrArg (Unpack.put fits tree (item member (path member)) >>= ·) hrest

/-- No file of the archive stands above another member, and the file system takes every path. -/
structure Clear (fits : List String → Bool) (members : List TarInfo) : Prop where
  files : ∀ a ∈ members, ∀ b ∈ members, a.isdir = false → path a <+: path b → path a = path b
  taken : ∀ member ∈ members, ∀ p, p ≠ [] → p <+: path member → fits p = true

theorem item_isSome (member : TarInfo) :
    (item member (path member)).content.isSome = true ↔ member.isdir = false := by
  rw [item]
  cases member.isdir with
  | true => simp
  | false => simp

/-- Members with distinct paths are all unpacked exactly when they are clear of each other. -/
theorem extractall_iff {fits : List String → Bool} {members : List TarInfo}
    (hsound : ∀ member ∈ members, Sound member) (hdistinct : (members.map path).Nodup) :
    (∃ tree, members.foldlM (extractMember fits) Unpack.empty = .ok tree) ↔ Clear fits members := by
  have hpaths : ((items members).map Unpack.Item.path).Nodup := by rwa [map_path_items]
  have hne : ∀ z ∈ items members, z.path ≠ [] := by
    intro z hz
    obtain ⟨member, -, rfl⟩ := List.mem_map.mp hz
    exact path_ne_nil member
  rw [extract_items hsound, Unpack.unpack_iff hpaths hne, Unpack.pairwise_apart_iff hpaths]
  simp only [items, List.forall_mem_map, item_isSome]
  constructor
  · rintro ⟨htaken, hfiles⟩
    exact ⟨hfiles, htaken⟩
  · rintro ⟨hfiles, htaken⟩
    exact ⟨htaken, hfiles⟩

theorem extractall_holds {fits : List String → Bool} {members : List TarInfo} {tree : Tree}
    (hsound : ∀ member ∈ members, Sound member) (hdistinct : (members.map path).Nodup)
    (hrun : members.foldlM (extractMember fits) Unpack.empty = .ok tree) :
    Unpack.Holds tree (items members) := by
  rw [extract_items hsound] at hrun
  refine Unpack.unpack_holds (by rwa [map_path_items]) ?_ hrun
  intro z hz
  obtain ⟨member, -, rfl⟩ := List.mem_map.mp hz
  exact path_ne_nil member

/-! ### The archive -/

section
variable (frombuf : Bytes → Option Info) (tarfile : Bytes → Option (List TarInfo)) (data : Bytes)

/-- The headers of the stream that are members. -/
def memberHeaders : List Header :=
  (scanned frombuf data).headers.filter fun header => header.type ∉ EXTENSIONS

/-- The member `tarfile` reads at a header: a regular member has all the data its header declares. -/
structure Stands (header : Header) (member : TarInfo) : Prop where
  type : member.type = header.type
  size : ∃ info, frombuf (readAt data header.offset BLOCK) = some info ∧ member.size = info.size
  data : member.isreg = true → member.data = readAt data (header.offset + BLOCK) member.size.toNat ∧
    member.data.length = member.size.toNat

/-- `tarfile` reads exactly the headers an accepted scan has counted. -/
def ReadsScanned : Prop := ∀ n members, (scanned frombuf data).result = .ok n → tarfile data = some members →
  List.Forall₂ (Stands frombuf data) (memberHeaders frombuf data) members

/-- What is to hold of an extraction that returns. -/
structure Extracted (members : List TarInfo) (n : ℕ) (output : Tree) : Prop where
  read : ∃ all, List.Forall₂ (Stands frombuf data) (memberHeaders frombuf data) all ∧
    members = all.filter fun member => !isTop member
  count : members.length = n
  sound : ∀ member ∈ members, Sound member
  distinct : (members.map path).Nodup
  held : Unpack.Holds output (items members)
  bounded : ((members.filter TarInfo.isreg).map fun member => member.data.length).sum ≤ MAX_UNPACKED

/-- An archive is refused before anything is written, or unpacked as it should be. -/
def Specified : Outcome → Prop
  | .refused _ => True
  | .failed _ => False
  | .extracted n output => ∃ members, Extracted frombuf data members n output

end

section
variable {fits : List String → Bool} {frombuf : Bytes → Option Info} {tarfile : Bytes → Option (List TarInfo)}
  {outputExists : Bool} {data : Bytes}

theorem checkedMembers_ok {members : List TarInfo}
    (h : checkedMembers frombuf tarfile outputExists data = .ok members) :
    ∃ n all, (scanned frombuf data).result = .ok n ∧ tarfile data = some all ∧
      safeMembers all = .ok members := by
  rw [checkedMembers, except_bind_ok] at h
  obtain ⟨_, -, h⟩ := h
  rw [except_bind_ok] at h
  obtain ⟨n, hscan, h⟩ := h
  rw [except_bind_ok] at h
  obtain ⟨all, hall, h⟩ := h
  rw [need_ok] at hall
  exact ⟨n, all, mapError_ok.mp hscan, hall, h⟩

/-- A member an accepted scan has counted declares no negative size, and a file has that many bytes. -/
theorem stands_size {members : List TarInfo}
    (h : List.Forall₂ (Stands frombuf data) (memberHeaders frombuf data) members) :
    ∀ member ∈ members, 0 ≤ member.size ∧ (member.isreg = true → (member.data.length : ℤ) = member.size) := by
  intro member hmember
  obtain ⟨header, hheader, hstands⟩ := Keyed.exists_of_mem_right h member hmember
  obtain ⟨info, hparsed, hsize⟩ := hstands.size
  obtain ⟨info', hparsed', -, -, hnonneg⟩ := Tar.run_parsed 0 _ header (List.mem_filter.mp hheader).1
  cases hparsed.symm.trans hparsed'
  have hmember : 0 ≤ member.size := hsize ▸ hnonneg
  exact ⟨hmember, fun hreg => by rw [(hstands.data hreg).2, Int.toNat_of_nonneg hmember]⟩

theorem sum_length_le {members : List TarInfo}
    (h : ∀ member ∈ members, 0 ≤ member.size ∧
      (member.isreg = true → (member.data.length : ℤ) = member.size)) :
    (((members.filter TarInfo.isreg).map fun member => member.data.length).sum : ℕ) ≤
      (members.map TarInfo.size).sum := by
  induction members with
  | nil => simp
  | cons member members ih =>
    obtain ⟨hsize, hlength⟩ := h member List.mem_cons_self
    have hrest := ih fun m hm => h m (List.mem_cons_of_mem _ hm)
    by_cases hreg : member.isreg = true
    · have hmember := hlength hreg
      rw [List.filter_cons_of_pos hreg, List.map_cons, List.sum_cons, List.map_cons, List.sum_cons,
        Int.natCast_add]
      omega
    · rw [List.filter_cons_of_neg hreg, List.map_cons, List.sum_cons]
      omega

/-- An extraction is as it should be exactly when an archive that passes every check has no file above
    another member and no path the file system refuses. -/
theorem extract_specified_iff (hreads : ReadsScanned frombuf tarfile data) :
    Specified frombuf data (extract fits frombuf tarfile outputExists data) ↔
      ((checkedMembers frombuf tarfile outputExists data).isOk = true → ∀ members,
        tarfile data = some members → Clear fits (members.filter fun member => !isTop member)) := by
  rw [extract]
  cases hchecked : checkedMembers frombuf tarfile outputExists data with
  | error reason => simp [Specified, Except.isOk, Except.toBool]
  | ok members =>
    obtain ⟨n, all, hscan, hall, hsafe⟩ := checkedMembers_ok hchecked
    obtain ⟨hmembers, hsound, hnames, htotal⟩ := safeMembers_ok hsafe
    have hdistinct : (members.map path).Nodup := by
      rw [List.Nodup, List.pairwise_map] at hnames ⊢
      exact hnames.imp fun hne heq => hne (path_injective heq)
    have hstands := hreads n all hscan hall
    have hcondition : ((Except.ok members : Except Refused (List TarInfo)).isOk = true → ∀ found,
        tarfile data = some found → Clear fits (found.filter fun member => !isTop member)) ↔
          Clear fits members := by
      rw [hmembers]
      constructor
      · exact fun h => h rfl all hall
      · intro h _ found hfound
        obtain rfl : all = found := Option.some.inj (hall.symm.trans hfound)
        exact h
    rw [hcondition, ← extractall_iff hsound hdistinct]
    simp only [extractall]
    cases hrun : members.foldlM (extractMember fits) Unpack.empty with
    | error written => simp [Specified]
    | ok output =>
      refine iff_of_true ⟨members, ⟨all, hstands, hmembers⟩, rfl, hsound, hdistinct,
        extractall_holds hsound hdistinct hrun, ?_⟩ ⟨output, rfl⟩
      have hsizes : ∀ member ∈ members, 0 ≤ member.size ∧
          (member.isreg = true → (member.data.length : ℤ) = member.size) := by
        intro member hmember
        rw [hmembers] at hmember
        exact stands_size hstands member (List.mem_filter.mp hmember).1
      have hsum := sum_length_le hsizes
      omega

end

/-! ### An archive of the files `a` and `a/b` -/

namespace Sample
open Tar (frombuf ustar field Access Counters REGTYPE)

def archive : Bytes :=
  ustar "a" REGTYPE "00000000001" "006037" ++ field BLOCK "x" ++
    ustar "a/b" REGTYPE "00000000001" "006260" ++ field BLOCK "y" ++ List.replicate 1024 0

def parent : TarInfo := ⟨"a", REGTYPE, 1, some 0, utf8 "x"⟩

def child : TarInfo := ⟨"a/b", REGTYPE, 1, some 0, utf8 "y"⟩

def tarfile (_ : Bytes) : Option (List TarInfo) := some [parent, child]

theorem step_parent :
    Tar.scanStep frombuf archive MAX_MEMBERS INPUT_TYPES (some MAX_UNPACKED) 0 ⟨0, 0, 0, 0, 0⟩ =
    ⟨[.header 0, .member 512 ⟨REGTYPE, 1⟩], .ok (some ⟨⟨0, REGTYPE, 1024⟩, ⟨1, 0, 1, 0, 0⟩⟩)⟩ := by
  decide +kernel

theorem step_child :
    Tar.scanStep frombuf archive MAX_MEMBERS INPUT_TYPES (some MAX_UNPACKED) 1024 ⟨1, 0, 1, 0, 0⟩ =
    ⟨[.header 1024, .member 1536 ⟨REGTYPE, 1⟩], .ok (some ⟨⟨1024, REGTYPE, 2048⟩, ⟨2, 0, 2, 0, 0⟩⟩)⟩ := by
  decide +kernel

theorem scanned_archive : scanned frombuf archive =
    ⟨[⟨0, REGTYPE, 1024⟩, ⟨1024, REGTYPE, 2048⟩],
      [.header 0, .member 512 ⟨REGTYPE, 1⟩, .header 1024, .member 1536 ⟨REGTYPE, 1⟩, .header 2048],
      .ok 2⟩ := by
  have hend : Tar.isEnd (readAt archive 2048 BLOCK) = true := by decide +kernel
  rw [scanned, Tar.scan, Tar.scanFrom_next step_parent, Tar.scanFrom_next step_child, Tar.scanFrom_end hend]
  rfl

theorem archive_read : ReadsScanned frombuf tarfile archive := by
  intro n members _ hmembers
  cases hmembers
  have hheaders : memberHeaders frombuf archive = [⟨0, REGTYPE, 1024⟩, ⟨1024, REGTYPE, 2048⟩] := by
    rw [memberHeaders, scanned_archive]
    decide
  rw [hheaders]
  refine .cons ⟨rfl, ⟨⟨REGTYPE, 1⟩, ?_, rfl⟩, fun _ => ⟨?_, rfl⟩⟩
    (.cons ⟨rfl, ⟨⟨REGTYPE, 1⟩, ?_, rfl⟩, fun _ => ⟨?_, rfl⟩⟩ .nil) <;> decide +kernel

theorem parent_accepted : acceptMember ⟨[], [], 0⟩ parent = .ok ⟨[parent], ["a"], 1⟩ := by
  have htop : isTop parent = false := by decide
  have hname : memberName parent = "a" := by decide
  have htime : inTime parent.mtime = true := by decide
  rw [acceptMember, htop, hname, require_pos (.inl (by decide)), require_pos (by decide), htime,
    (refuse_ok (u := ⟨⟩)).mpr List.not_mem_nil]
  rfl

theorem child_accepted :
    acceptMember ⟨[parent], ["a"], 1⟩ child = .ok ⟨[parent, child], ["a/b", "a"], 2⟩ := by
  have htop : isTop child = false := by decide
  have hname : memberName child = "a/b" := by decide
  have htime : inTime child.mtime = true := by decide
  rw [acceptMember, htop, hname, require_pos (.inl (by decide)), require_pos (by decide), htime,
    (refuse_ok (u := ⟨⟩)).mpr (by simp)]
  rfl

theorem members_checked : checkedMembers frombuf tarfile false archive = .ok [parent, child] := by
  rw [checkedMembers, scanned_archive, (refuse_ok (u := ⟨⟩)).mpr Bool.false_ne_true, except_ok_bind]
  simp only [Except.mapError, except_ok_bind, tarfile, need, safeMembers, List.foldlM_cons, parent_accepted,
    child_accepted]
  rfl

theorem members_obstructed : ¬ Clear (fun _ => true) [parent, child] := by
  intro hclear
  have hpaths : path parent = ["a"] ∧ path child = ["a", "b"] := by decide
  have heq := hclear.files parent (by simp) child (by simp) (by decide) (by rw [hpaths.1, hpaths.2]; decide)
  rw [hpaths.1, hpaths.2] at heq
  cases heq

end Sample

/-- The archive passes every check, and its first file is the parent of its second. -/
theorem extract_specified_archive : ReadsScanned Tar.frombuf Sample.tarfile Sample.archive ∧
    (Specified Tar.frombuf Sample.archive
        (extract (fun _ => true) Tar.frombuf Sample.tarfile false Sample.archive) ↔
      ((checkedMembers Tar.frombuf Sample.tarfile false Sample.archive).isOk = true → ∀ members,
        Sample.tarfile Sample.archive = some members →
          Clear (fun _ => true) (members.filter fun member => !isTop member))) :=
  ⟨Sample.archive_read, extract_specified_iff Sample.archive_read⟩

/-- Its extraction fails when `a` is written. -/
theorem parent_file_fails : ¬ ∀ fits frombuf tarfile outputExists data, ReadsScanned frombuf tarfile data →
    Specified frombuf data (extract fits frombuf tarfile outputExists data) := by
  intro hclaim
  have hspecified := hclaim (fun _ => true) _ _ false _ Sample.archive_read
  rw [extract, Sample.members_checked] at hspecified
  obtain ⟨_, _, _, _, hsafe⟩ := checkedMembers_ok Sample.members_checked
  have hsound := (safeMembers_ok hsafe).2.1
  have hdistinct : ([Sample.parent, Sample.child].map path).Nodup := by decide
  simp only [extractall] at hspecified
  cases hrun : [Sample.parent, Sample.child].foldlM (extractMember fun _ => true) Unpack.empty with
  | error written =>
    rw [hrun] at hspecified
    exact hspecified
  | ok output => exact Sample.members_obstructed ((extractall_iff hsound hdistinct).mp ⟨output, hrun⟩)

end NpuStack.Ci.Inputs
