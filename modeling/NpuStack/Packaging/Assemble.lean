import NpuStack.Install.Manifest
import NpuStack.Schemes.Python

/-! The identities `assemble.py` accepts, beside the ones the installer accepts.

        location   "https://" host "/" segment "/" … "/" segment "/"⋯"/"
                              └── Location ──────────────────────┘ └ slashes

    Both read the same shape. The composer takes any number of trailing slashes, segments of any
    length and version numbers of ten digits; the installer takes one slash, 128 characters and
    numbers below `2 ^ 32`. -/

namespace NpuStack.Packaging
open Text

def ALIAS_SEGMENTS : List String := ["latest", "current", "stable", "experimental"]

/-- Letters `str.isalnum` admits beyond ASCII are refused by the pattern beside it. -/
def hostLabel (label : String) : Bool :=
  0 < Py.len label && Py.len label ≤ 63 && label.toList.head?.any Char.isAlphanum &&
    label.toList.getLast?.any Char.isAlphanum && all (fun c => c.isAlphanum || c = '-') label

def segmentChar (c : Char) : Bool := c.isAlphanum || "._+-".toList.contains c

/-- `[A-Za-z0-9][A-Za-z0-9._+-]*` in full. -/
def isName (value : String) : Bool := value.toList.head?.any Char.isAlphanum && all segmentChar value

def pathSegment (segment : String) : Bool :=
  isName segment && !([".", ".."].contains segment) && !ALIAS_SEGMENTS.contains segment

def repositoryUrl (url version : String) : Bool :=
  if Py.len url > 2048 || !startsWith "https://" url then false else
  let (host, path) := Py.partition '/' (Py.removePrefix "https://" url)
  let labels := split '.' host
  if host = "" || Py.len host > 253 || labels.length < 2 || !labels.all hostLabel then false else
  let segments := split '/' (Py.rstrip '/' path)
  if !endsWith "/" path || segments = [] || segments.getLast? = some "" then false else
  if !segments.contains version && !segments.contains ("v" ++ version) then false else
  segments.all pathSegment

/-- `0|[1-9][0-9]*` in full. -/
def isCanonical (part : String) : Bool :=
  part = "0" || (part.toList.head?.any (fun c => c.isDigit && c ≠ '0') && all Char.isDigit part)

def releaseVersion (version : String) : Bool :=
  let parts := split '.' version
  parts.length = 3 && parts.all fun part => isCanonical part && Py.len part ≤ 10

def identifier (value : String) : Bool := isName value && Py.len value ≤ 128

/-! ### The shape of a location -/

/-- A location of these parts, before either side's limits on slashes and segments. -/
structure Location (url version host : String) (segments : List String) (slashes : ℕ) : Prop where
  text : url = "https://" ++ (host ++ "/" ++ (join '/' segments ++
    String.ofList (List.replicate slashes '/')))
  bounded : Py.len url ≤ 2048
  hostBounded : Py.len host ≤ 253
  labelled : 2 ≤ (split '.' host).length
  labels : (split '.' host).all hostLabel = true
  versioned : version ∈ segments ∨ "v" ++ version ∈ segments
  named : ∀ segment ∈ segments, pathSegment segment = true

theorem toNat_lt_of_isAlphanum {c : Char} (h : c.isAlphanum = true) : c.toNat < 128 := by
  have := isGraphic_of_isAlphanum h
  simp only [isGraphic, Bool.and_eq_true, decide_eq_true_eq] at this
  omega

theorem segmentChar_ascii {c : Char} (h : segmentChar c = true) : c.toNat < 128 ∧ c ≠ '/' := by
  simp only [segmentChar, Bool.or_eq_true, List.contains_iff_mem] at h
  rcases h with h | h
  · refine ⟨toNat_lt_of_isAlphanum h, ?_⟩
    rintro rfl
    exact absurd h (by decide)
  · have : ∀ x ∈ "._+-".toList, x.toNat < 128 ∧ x ≠ '/' := forall_chars (by decide)
    exact this c h

/-- Names are ASCII and hold no slash. -/
theorem isName_ascii {s : String} (h : isName s = true) :
    ∀ c ∈ s.toList, c.toNat < 128 ∧ c ≠ '/' := by
  simp only [isName, Bool.and_eq_true] at h
  exact fun c hc => segmentChar_ascii (all_iff.mp h.2 c hc)

theorem pathSegment_ascii {s : String} (h : pathSegment s = true) :
    ∀ c ∈ s.toList, c.toNat < 128 ∧ c ≠ '/' := by
  simp only [pathSegment, Bool.and_eq_true] at h
  exact isName_ascii h.1.1

theorem pathSegment_ne_empty {s : String} (h : pathSegment s = true) : s ≠ "" := by
  rintro rfl
  exact absurd h (by decide)

def hostChar (c : Char) : Bool := c.isAlphanum || c = '-' || c = '.'

/-- Hosts of valid labels hold letters, digits, dashes and dots only. -/
theorem host_chars {host : String} (h : (split '.' host).all hostLabel = true) :
    all hostChar host = true := by
  rw [← join_split '.' host]
  refine all_join (by decide) fun label hlabel => ?_
  have := List.all_eq_true.mp h label hlabel
  simp only [hostLabel, Bool.and_eq_true] at this
  rw [all_iff]
  intro c hc
  have := all_iff.mp this.2 c hc
  simp only [hostChar, Bool.or_eq_true] at this ⊢
  exact Or.inl this

theorem host_ascii {host : String} (h : (split '.' host).all hostLabel = true) :
    ∀ c ∈ host.toList, c.toNat < 128 ∧ c ≠ '/' := by
  intro c hc
  have := all_iff.mp (host_chars h) c hc
  simp only [hostChar, Bool.or_eq_true, decide_eq_true_eq] at this
  rcases this with (h | rfl) | rfl
  · refine ⟨toNat_lt_of_isAlphanum h, ?_⟩
    rintro rfl
    exact absurd h (by decide)
  · decide
  · decide

/-! ### What each side accepts -/

theorem Location.segments_ne_nil {url version host : String} {segments : List String} {k : ℕ}
    (h : Location url version host segments k) : segments ≠ [] := by
  rintro rfl
  rcases h.versioned with hv | hv <;> cases hv

theorem Location.split_join {url version host : String} {segments : List String} {k : ℕ}
    (h : Location url version host segments k) : split '/' (join '/' segments) = segments :=
  Text.split_join (fun s hs hc => (pathSegment_ascii (h.named s hs) '/' hc).2 rfl) h.segments_ne_nil

/-- The path does not end with a slash before its trailing slashes. -/
theorem getLast_join : ∀ {segments : List String}, segments ≠ [] →
    (∀ s ∈ segments, pathSegment s = true) → (join '/' segments).toList.getLast? ≠ some '/'
  | [s], _, h => by
    have hs := h s (by simp)
    intro hlast
    have hmem : '/' ∈ s.toList := List.mem_of_getLast? (by simpa [join] using hlast)
    exact (pathSegment_ascii hs '/' hmem).2 rfl
  | s :: t :: segments, _, h => by
    have hrest := @getLast_join (t :: segments) (by simp) fun x hx =>
      h x (List.mem_cons_of_mem _ hx)
    have hne : (join '/' (t :: segments)).toList ≠ [] := by
      intro hnil
      have ht := pathSegment_ne_empty (h t (by simp))
      cases segments <;> simp_all [join]
    rw [join, String.toList_ofList] at hrest hne ⊢
    rw [List.map_cons, List.intercalate_cons_of_ne_nil (by simp), List.getLast?_append_of_ne_nil _ hne]
    exact hrest

theorem endsWith_slash {s : String} : endsWith "/" s = true ↔ s.toList.getLast? = some '/' := by
  have hslash : "/".toList = ['/'] := by decide
  rw [endsWith, hslash, List.isSuffixOf_iff_suffix, List.singleton_suffix_iff_getLast?_eq_some]

/-- The composer accepts exactly the locations with at least one trailing slash. -/
theorem repositoryUrl_iff {url version : String} : repositoryUrl url version = true ↔
    ∃ host segments k, Location url version host segments k ∧ 0 < k := by
  have hslash : "/".toList = ['/'] := by decide
  constructor
  · intro h
    simp only [repositoryUrl] at h
    split at h
    · cases h
    next hstart =>
    split at h
    · cases h
    next hhost =>
    split at h
    · cases h
    next hpath =>
    split at h
    · cases h
    next hversion =>
    simp only [Bool.or_eq_true, decide_eq_true_eq, Bool.not_eq_true', not_or, Bool.not_eq_false,
      not_lt] at hstart hhost hpath
    obtain ⟨hbounded, hpre⟩ := hstart
    obtain ⟨⟨⟨_, hhostBounded⟩, hlabelled⟩, hlabels⟩ := hhost
    obtain ⟨⟨hend, _⟩, hlast⟩ := hpath
    have hurl := Py.removePrefix_of_startsWith hpre
    set rest := Py.removePrefix "https://" url
    set path := (Py.partition '/' rest).2
    have hne : path ≠ "" := by
      intro hempty
      rw [hempty] at hend
      exact absurd hend (by decide)
    obtain ⟨hrest, -⟩ := Py.partition_of_tail hslash hne
    obtain ⟨k, hk⟩ := Py.rstrip_spec '/' path
    refine ⟨(Py.partition '/' rest).1, split '/' (Py.rstrip '/' path), k, ?_, ?_⟩
    · refine ⟨?_, hbounded, hhostBounded, hlabelled, hlabels, ?_, List.all_eq_true.mp h⟩
      · rw [join_split, ← hk, ← hrest]
        exact hurl
      · simpa [imp_iff_not_or] using hversion
    · rcases Nat.eq_zero_or_pos k with rfl | hpos
      · -- without a trailing slash the path would be its own last segment's end
        have hjoin := getLast_join (split_ne_nil '/' _) (List.all_eq_true.mp h)
        rw [join_split] at hjoin
        rw [hk, endsWith_slash] at hend
        exact absurd (by simpa using hend) hjoin
      · exact hpos
  · rintro ⟨host, segments, k, h, hk⟩
    have hfree : '/' ∉ host.toList := fun hc => (host_ascii h.labels '/' hc).2 rfl
    have hrest : Py.removePrefix "https://" url = host ++ "/" ++ (join '/' segments ++
        String.ofList (List.replicate k '/')) := by
      rw [h.text, Py.removePrefix_append, String.append_assoc]
    have hpart := Py.partition_append hslash hfree (join '/' segments ++
      String.ofList (List.replicate k '/'))
    have hstrip := Py.rstrip_append (getLast_join h.segments_ne_nil h.named) k
    simp only [repositoryUrl, hrest, hpart, hstrip, h.split_join]
    rw [if_neg, if_neg, if_neg, if_neg]
    · exact List.all_eq_true.mpr h.named
    · simpa [imp_iff_not_or] using h.versioned
    · have hlast : segments.getLast? ≠ some "" := fun hempty =>
        pathSegment_ne_empty (h.named "" (List.mem_of_getLast? hempty)) rfl
      have hend : endsWith "/" (join '/' segments ++ String.ofList (List.replicate k '/')) = true := by
        obtain ⟨k, rfl⟩ := Nat.exists_eq_add_one_of_ne_zero hk.ne'
        rw [endsWith_slash, String.toList_append, String.toList_ofList, List.replicate_succ',
          ← List.append_assoc, List.getLast?_concat]
      simp [hend, hlast, h.segments_ne_nil]
    · have hhost : host ≠ "" := by
        rintro rfl
        exact absurd h.labelled (by decide)
      have hlabelled := h.labelled
      have hbounded := h.hostBounded
      have hlabels := h.labels
      simp only [hhost, hlabels, Bool.or_eq_true, decide_eq_true_eq]
      simp
      omega
    · have hpre : startsWith "https://" url = true := h.text ▸ Py.startsWith_append _ _
      have hbounded := h.bounded
      simp [hpre]
      omega

/-! ### The installer's side -/

theorem len_eq {s : String} {p : Char → Bool} (hp : ∀ c, p c = true → c.toNat < 128)
    (h : all p s = true) : Text.len s = Py.len s :=
  len_of_ascii fun c hc => hp c (all_iff.mp h c hc)

theorem hostLabel_eq (label : String) : Install.hostLabel label = hostLabel label := by
  have hascii : ∀ c : Char, (c.isAlphanum || c = '-') = true → c.toNat < 128 := by
    intro c hc
    simp only [Bool.or_eq_true, decide_eq_true_eq] at hc
    rcases hc with hc | rfl
    · exact toNat_lt_of_isAlphanum hc
    · decide
  rw [Install.hostLabel, hostLabel]
  cases hall : all (fun c => c.isAlphanum || c = '-') label with
  | false => simp
  | true =>
    rw [len_eq hascii hall]
    have hne : decide (label ≠ "") = decide (0 < Py.len label) := by
      rw [decide_eq_decide, Py.len, List.length_pos_iff, ne_eq, ne_eq, String.toList_eq_nil_iff]
    rw [hne]

theorem identifierChar_eq (c : Char) : Install.identifierChar c = segmentChar c := by
  rw [Install.identifierChar, segmentChar, Bool.eq_iff_iff]
  simp only [Bool.or_eq_true, List.contains_iff_mem]
  have : ∀ c : Char, c ∈ "-_.+".toList ↔ c ∈ "._+-".toList := by
    intro c
    simp
    tauto
  rw [this]

/-- Both sides accept the same repository ids. -/
theorem identifier_eq (value : String) : Install.identifier value = identifier value := by
  have hchars : Install.identifierChar = segmentChar := funext identifierChar_eq
  rw [Install.identifier, identifier, isName, hchars]
  cases hall : all segmentChar value with
  | false => simp
  | true =>
    rw [len_eq (fun c hc => (segmentChar_ascii hc).1) hall]
    by_cases hne : value = ""
    · subst hne
      decide
    · simp only [ne_eq, hne, not_false_eq_true, decide_true, Bool.true_and, Bool.and_true]
      rw [Bool.and_comm]

theorem pathSegment_eq (part : String) :
    Install.pathSegment part = (pathSegment part && Py.len part ≤ 128) := by
  rw [Install.pathSegment, identifier_eq, identifier, pathSegment, ALIAS_SEGMENTS]
  by_cases h1 : part = "." <;> by_cases h2 : part = ".." <;> simp [h1, h2]
  cases isName part <;> cases decide (Py.len part ≤ 128) <;> simp

theorem contains_dot {host : String} : contains '.' host = true ↔ 2 ≤ (split '.' host).length := by
  rw [contains, List.contains_iff_mem]
  constructor
  · intro hdot
    by_contra hlt
    obtain ⟨s, hs⟩ : ∃ s, split '.' host = [s] := by
      have := List.length_pos_iff.mpr (split_ne_nil '.' host)
      exact List.length_eq_one_iff.mp (by omega)
    have hjoin := join_split '.' host
    rw [hs] at hjoin
    have hfree : '.' ∉ s.toList := split_free (hs ▸ List.mem_singleton_self s)
    rw [show join '.' [s] = s by simp [join]] at hjoin
    exact hfree (hjoin ▸ hdot)
  · intro hlen
    by_contra hdot
    rw [split_of_notMem hdot] at hlen
    simp at hlen

/-- The text of a location is ASCII, so its bytes are its characters. -/
theorem Location.len_eq {url version host : String} {segments : List String} {k : ℕ}
    (h : Location url version host segments k) : Text.len url = Py.len url := by
  apply len_of_ascii
  have hslash : ('/').toNat < 128 := by decide
  have hjoin : ∀ c ∈ (join '/' segments).toList, c.toNat < 128 := by
    have := all_join (p := fun c => decide (c.toNat < 128)) (c := '/') (by decide) fun s hs =>
      all_iff.mpr fun c hc => decide_eq_true (pathSegment_ascii (h.named s hs) c hc).1
    simpa [all_iff] using this
  intro c hc
  rw [h.text] at hc
  simp only [String.toList_append, List.mem_append, String.toList_ofList] at hc
  rcases hc with hc | (hc | hc) | hc | hc
  · have : ∀ x ∈ "https://".toList, x.toNat < 128 := forall_chars (by decide)
    exact this c hc
  · exact (host_ascii h.labels c hc).1
  · have : ∀ x ∈ "/".toList, x.toNat < 128 := forall_chars (by decide)
    exact this c hc
  · exact hjoin c hc
  · rw [List.eq_of_mem_replicate hc]
    exact hslash

/-- The installer accepts exactly the locations with one trailing slash and bounded segments. -/
theorem installRepositoryUrl_iff {url version : String} :
    Install.repositoryUrl url version = true ↔
      ∃ host segments, Location url version host segments 1 ∧ ∀ s ∈ segments, Py.len s ≤ 128 := by
  have hslash : "/".toList = ['/'] := by decide
  have hlabelEq : Install.hostLabel = hostLabel := funext hostLabel_eq
  constructor
  · intro h
    rw [Install.repositoryUrl] at h
    split at h
    · cases h
    next hlen =>
    split at h
    · cases h
    next rest hpre =>
    split at h
    · cases h
    next host path hhost =>
    split at h
    · cases h
    next hlabels =>
    split at h
    · cases h
    next body hsuffix =>
    simp only [Bool.or_eq_true, decide_eq_true_eq, Bool.not_eq_true', not_or, Bool.not_eq_false,
      not_lt] at hlen hlabels
    simp only [Bool.and_eq_true, Bool.or_eq_true, List.contains_iff_mem, List.all_eq_true] at h
    obtain ⟨hversion, hnamed⟩ := h
    obtain ⟨⟨hhostLen, hdot⟩, hall⟩ := hlabels
    obtain ⟨hrest, -⟩ := splitOnce_eq_some.mp hhost
    have hparts : ∀ s ∈ split '/' body, pathSegment s = true ∧ Py.len s ≤ 128 := by
      intro s hs
      have := hnamed s hs
      rw [pathSegment_eq, Bool.and_eq_true, decide_eq_true_eq] at this
      exact this
    refine ⟨host, split '/' body, ⟨?_, ?_, ?_, contains_dot.mp hdot, hlabelEq ▸ hall, hversion,
      fun s hs => (hparts s hs).1⟩, fun s hs => (hparts s hs).2⟩
    · rw [join_split, stripPrefix_eq_some.mp hpre]
      congr 1
      rw [← String.toList_inj, hrest, stripSuffix_eq_some.mp hsuffix]
      simp [hslash]
    · exact (Py.len_le url).trans hlen
    · exact (Py.len_le host).trans hhostLen
  · rintro ⟨host, segments, h, hbounds⟩
    have hfree : '/' ∉ host.toList := fun hc => (host_ascii h.labels '/' hc).2 rfl
    have hpre := stripPrefix_append "https://" (host ++ "/" ++ (join '/' segments ++ "/"))
    have hsplit : splitOnce '/' (host ++ "/" ++ (join '/' segments ++ "/")) =
        some (host, join '/' segments ++ "/") := splitOnce_eq_some.mpr ⟨by simp [hslash], hfree⟩
    have htext : url = "https://" ++ (host ++ "/" ++ (join '/' segments ++ "/")) := h.text
    have hlen : Text.len url ≤ 2048 := h.len_eq ▸ h.bounded
    have hhostLen : Text.len host ≤ 253 := by
      rw [len_of_ascii fun c hc => (host_ascii h.labels c hc).1]
      exact h.hostBounded
    have hnamed : segments.all Install.pathSegment = true := by
      refine List.all_eq_true.mpr fun s hs => ?_
      rw [pathSegment_eq, h.named s hs, Bool.true_and, decide_eq_true (hbounds s hs)]
    rw [Install.repositoryUrl, if_neg (by omega), htext, hpre]
    simp only [hsplit, stripSuffix_append, h.split_join, hlabelEq, h.labels, hnamed,
      contains_dot.mpr h.labelled]
    rw [if_neg (by simp; omega)]
    simpa using h.versioned

/-- A location is put together in one way only. -/
theorem Location.unique {url version host host' : String} {segments segments' : List String}
    {k k' : ℕ} (h : Location url version host segments k)
    (h' : Location url version host' segments' k') : segments = segments' ∧ k = k' := by
  have hslash : "/".toList = ['/'] := by decide
  have hpath : join '/' segments ++ String.ofList (List.replicate k '/') =
      join '/' segments' ++ String.ofList (List.replicate k' '/') := by
    have hrest := congrArg (Py.removePrefix "https://") (h.text.symm.trans h'.text)
    rw [Py.removePrefix_append, Py.removePrefix_append] at hrest
    have hpart := congrArg (Py.partition '/') hrest
    rw [Py.partition_append hslash fun hc => (host_ascii h.labels '/' hc).2 rfl,
      Py.partition_append hslash fun hc => (host_ascii h'.labels '/' hc).2 rfl] at hpart
    exact congrArg Prod.snd hpart
  have hjoin : join '/' segments = join '/' segments' := by
    have hstrip := congrArg (Py.rstrip '/') hpath
    rwa [Py.rstrip_append (getLast_join h.segments_ne_nil h.named),
      Py.rstrip_append (getLast_join h'.segments_ne_nil h'.named)] at hstrip
  have hsegments : segments = segments' := by
    rw [← h.split_join, hjoin, h'.split_join]
  refine ⟨hsegments, ?_⟩
  have hlen := congrArg (fun s : String => s.toList.length) hpath
  simpa [hjoin] using hlen

/-! ### Release versions -/

/-- The number a decimal part writes. -/
def number (part : String) : ℕ := Nat.ofDigitChars 10 part.toList 0

theorem isCanonical_digits {part : String} (h : isCanonical part = true) :
    isDigits part = true := by
  simp only [isCanonical, Bool.or_eq_true, decide_eq_true_eq, Bool.and_eq_true] at h
  rcases h with rfl | ⟨hhead, hall⟩
  · decide
  · have hne : part ≠ "" := by
      rintro rfl
      exact absurd hhead (by decide)
    simp [isDigits, hne, hall]

theorem isDigits_ascii {part : String} (h : isDigits part = true) :
    Text.len part = Py.len part := by
  simp only [isDigits, Bool.and_eq_true] at h
  refine len_eq (fun c hc => toNat_lt_of_isAlphanum ?_) h.2
  simp [Char.isAlphanum, hc]

/-- Without a leading zero, a part of more than ten digits writes a number past `2 ^ 32`. -/
theorem len_le_of_number {part : String} (h : isCanonical part = true)
    (hnumber : number part < 2 ^ 32) : Py.len part ≤ 10 := by
  simp only [isCanonical, Bool.or_eq_true, decide_eq_true_eq, Bool.and_eq_true] at h
  rcases h with rfl | ⟨hhead, -⟩
  · decide
  · rw [number] at hnumber
    rw [Py.len]
    cases hl : part.toList with
    | nil => simp
    | cons c cs =>
      rw [hl] at hhead hnumber
      simp only [List.head?_cons, Option.any_some, Bool.and_eq_true, decide_eq_true_eq] at hhead
      have hdigit : 1 ≤ c.toNat - '0'.toNat := by
        obtain ⟨hc, hne⟩ := hhead
        have hlow : '0'.toNat ≤ c.toNat := by
          simp only [Char.isDigit, Bool.and_eq_true, decide_eq_true_eq, ge_iff_le,
            UInt32.le_iff_toNat_le] at hc
          exact hc.1
        have : c.toNat ≠ '0'.toNat := fun heq => hne (Char.toNat_inj.mp heq)
        omega
      rw [Nat.ofDigitChars_cons, Nat.ofDigitChars_eq_ofDigitChars_zero] at hnumber
      by_contra hlong
      have hpow : 10 ^ 10 ≤ 10 ^ cs.length :=
        Nat.pow_le_pow_right (by decide) (by simp at hlong; omega)
      have hmul : 10 ^ cs.length * 1 ≤ 10 ^ cs.length * (10 * 0 + (c.toNat - '0'.toNat)) :=
        Nat.mul_le_mul_left _ (by omega)
      omega

theorem canonicalU32_iff {part : String} :
    Install.canonicalU32 part = true ↔ isCanonical part = true ∧ number part < 2 ^ 32 := by
  have hzero : "0".toList = ['0'] := by decide
  have hparse : isDigits part = true →
      ((parseUnsigned 32 part).isSome = true ↔ number part < 2 ^ 32) := by
    intro h
    rw [parseUnsigned_digits h, number]
    split <;> simp_all
  have hshape : isDigits part = true →
      ((Text.len part = 1 ∨ startsWith "0" part = false) ↔ isCanonical part = true) := by
    intro h
    rw [isDigits_ascii h, Py.len, startsWith, hzero, isCanonical]
    simp only [isDigits, Bool.and_eq_true, decide_eq_true_eq] at h
    rw [h.2]
    cases hl : part.toList with
    | nil => exact absurd (String.toList_eq_nil_iff.mp hl) h.1
    | cons c cs =>
      have hc : c.isDigit = true := all_iff.mp h.2 c (hl ▸ List.mem_cons_self)
      have hpart : part = "0" ↔ c = '0' ∧ cs = [] := by
        rw [← String.toList_inj, hl, hzero]
        simp
      have hpre : ['0'].isPrefixOf (c :: cs) = false ↔ c ≠ '0' := by
        simp only [List.isPrefixOf, Bool.and_true, beq_eq_false_iff_ne]
        exact ne_comm
      simp only [hpart, hc, hpre, List.length_cons, List.head?_cons, Option.any_some]
      simp
      tauto
  rw [Install.canonicalU32]
  simp only [Bool.and_eq_true, Bool.or_eq_true, Bool.not_eq_true', decide_eq_true_eq]
  constructor
  · rintro ⟨⟨hd, hs⟩, hp⟩
    exact ⟨(hshape hd).mp hs, (hparse hd).mp hp⟩
  · rintro ⟨hc, hn⟩
    have hd := isCanonical_digits hc
    exact ⟨⟨hd, (hshape hd).mpr hc⟩, (hparse hd).mpr hn⟩

theorem installReleaseVersion_iff {version : String} : Install.releaseVersion version = true ↔
    releaseVersion version = true ∧ ∀ part ∈ split '.' version, number part < 2 ^ 32 := by
  simp only [Install.releaseVersion, releaseVersion, Bool.and_eq_true, decide_eq_true_eq,
    List.all_eq_true, canonicalU32_iff]
  constructor
  · rintro ⟨hlen, hall⟩
    exact ⟨⟨hlen, fun p hp => ⟨(hall p hp).1, len_le_of_number (hall p hp).1 (hall p hp).2⟩⟩,
      fun p hp => (hall p hp).2⟩
  · rintro ⟨⟨hlen, hall⟩, hbounds⟩
    exact ⟨hlen, fun p hp => ⟨(hall p hp).1, hbounds p hp⟩⟩

/-! ### Where the two sides agree -/

/-- Locations of the right shape with a slash too many or a segment too long for the installer. -/
def LooseUrl (url version : String) : Prop := ∃ host segments k,
  Location url version host segments k ∧ 0 < k ∧ (2 ≤ k ∨ ∃ s ∈ segments, 128 < Py.len s)

/-- Three canonical numbers of at most ten digits, one of them past the installer's range. -/
def LargeVersion (version : String) : Prop := ∃ parts, version = join '.' parts ∧
  parts.length = 3 ∧ (∀ part ∈ parts, isCanonical part = true ∧ Py.len part ≤ 10) ∧
  ∃ part ∈ parts, 2 ^ 32 ≤ number part

theorem repositoryUrl_agrees {url version : String} :
    repositoryUrl url version = Install.repositoryUrl url version ↔ ¬ LooseUrl url version := by
  rw [Bool.eq_iff_iff, repositoryUrl_iff, installRepositoryUrl_iff]
  constructor
  · rintro hiff ⟨host, segments, k, h, hk, hloose⟩
    obtain ⟨host', segments', h', hbounds⟩ := hiff.mp ⟨host, segments, k, h, hk⟩
    obtain ⟨rfl, rfl⟩ := h.unique h'
    rcases hloose with hk | ⟨s, hs, hlong⟩
    · omega
    · exact absurd (hbounds s hs) (by omega)
  · intro hloose
    constructor
    · rintro ⟨host, segments, k, h, hk⟩
      have hone : k = 1 := by
        by_contra hne
        exact hloose ⟨host, segments, k, h, hk, Or.inl (by omega)⟩
      subst hone
      refine ⟨host, segments, h, fun s hs => ?_⟩
      by_contra hlong
      exact hloose ⟨host, segments, 1, h, hk, Or.inr ⟨s, hs, by omega⟩⟩
    · rintro ⟨host, segments, h, -⟩
      exact ⟨host, segments, 1, h, Nat.one_pos⟩

theorem isCanonical_free {part : String} (h : isCanonical part = true) : '.' ∉ part.toList := by
  intro hdot
  have hdigits := isCanonical_digits h
  simp only [isDigits, Bool.and_eq_true] at hdigits
  exact absurd (all_iff.mp hdigits.2 '.' hdot) (by decide)

theorem releaseVersion_agrees {version : String} :
    releaseVersion version = Install.releaseVersion version ↔ ¬ LargeVersion version := by
  rw [Bool.eq_iff_iff, installReleaseVersion_iff, iff_self_and]
  constructor
  · rintro himp ⟨parts, rfl, hlen, hparts, part, hpart, hlarge⟩
    have hne : parts ≠ [] := by
      rintro rfl
      cases hpart
    have hsplit := split_join (fun p hp => isCanonical_free (hparts p hp).1) hne
    have haccepted : releaseVersion (join '.' parts) = true := by
      rw [releaseVersion, hsplit]
      simpa [hlen] using hparts
    have := himp haccepted part (hsplit.symm ▸ hpart)
    omega
  · intro hlarge h part hpart
    simp only [releaseVersion, Bool.and_eq_true, decide_eq_true_eq, List.all_eq_true] at h
    by_contra hnumber
    exact hlarge ⟨split '.' version, (join_split '.' version).symm, h.1, h.2, part, hpart, by omega⟩

/-- Composer and installer accept the same location, repository id and release version exactly when
    the location is not loose and no version number is past the installer's range. -/
theorem identities_agree (url id version : String) :
    (repositoryUrl url version = Install.repositoryUrl url version ∧
      identifier id = Install.identifier id ∧
      releaseVersion version = Install.releaseVersion version) ↔
      ¬ LooseUrl url version ∧ ¬ LargeVersion version := by
  rw [repositoryUrl_agrees, releaseVersion_agrees, identifier_eq]
  simp

/-- A second trailing slash, or a number of ten digits past `2 ^ 32`, passes the composer only. -/
theorem slashes_disagree : ¬ ∀ url id version : String,
    repositoryUrl url version = Install.repositoryUrl url version ∧
      identifier id = Install.identifier id ∧
      releaseVersion version = Install.releaseVersion version := by
  intro h
  exact absurd (h "https://a.b/1.0.0//" "stack" "1.0.0").1 (by decide)

end NpuStack.Packaging
