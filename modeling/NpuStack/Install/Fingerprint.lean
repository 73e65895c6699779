import Mathlib.Data.List.Forall2
import NpuStack.Install.Inventory
import NpuStack.Schemes.Gather

/-! The fingerprinted text as an encoding of the installed records. Two lists of records are written
    the same only if they are the same list, so equal fingerprints mean an unchanged database.

        query output ──parse──▶ records, sorted ──render──▶ hashed text
             ▲                                                   │
             └────── the same records, leading zeros dropped ────┘

    Reading the hashed text back (`parseQuery_render`) is what makes it injective: no field that was
    accepted has the bar or the line feed that separate the fields and the records. -/

namespace NpuStack.Install
open Interaction Text

/-! ### The lines of a query output -/

/-- The lines, each ended by a line feed. -/
def outputLines (output : Bytes) : List String :=
  match (fromUtf8 output).bind (stripSuffix "\n") with
  | some body => split '\n' body
  | none => []

/-- The line without the leading zeros of its install time. -/
def normalLine (line : String) : String :=
  match split '|' line with
  | [name, evr, arch, time] => join '|' [name, evr, arch, dropZeros time]
  | _ => line

/-- The line writes the record, its install time in decimal. -/
def States (line : String) (r : InstalledRpm) : Prop :=
  ∃ time, line = join '|' [r.name, r.evr, r.arch, time] ∧ isDigits time = true ∧
    Nat.ofDigitChars 10 time.toList 0 = r.installTime

/-- Both outputs hold the same records, up to order and leading zeros. -/
def SameRecords (output output' : Bytes) : Prop :=
  ∀ line, line ∈ (outputLines output).map normalLine ↔ line ∈ (outputLines output').map normalLine

/-- Every record of the output is in the list, once, and nothing else is. -/
def HoldsExactly (output : Bytes) (packages : List InstalledRpm) : Prop :=
  ∃ records, List.Forall₂ States (outputLines output) records ∧ records.Perm packages

/-- The parsed packages, one a line. -/
def NativeInventory.render (inventory : NativeInventory) : Bytes :=
  inventory.packages.flatMap fun r => utf8 (NativeInventory.recordLine r)

/-! ### One record -/

/-- The text of a record, without the end of its line. -/
def recordText (r : InstalledRpm) : String := join '|' [r.name, r.evr, r.arch, r.installTime.repr]

theorem recordLine_eq (r : InstalledRpm) : NativeInventory.recordLine r = recordText r ++ "\n" := by
  have hbar : "|".toList = ['|'] := by decide
  rw [← String.toList_inj]
  simp [NativeInventory.recordLine, recordText, join, hbar, List.intercalate_cons_of_ne_nil]

/-- A character that no field of a record may have. -/
def isSeparator (c : Char) : Bool := c = '|' || c = '\n'

theorem notMem_of_isDigits {time : String} (h : isDigits time = true) {c : Char}
    (hc : isSeparator c = true) : c ∉ time.toList := by
  simp only [isDigits, Bool.and_eq_true] at h
  intro hmem
  have hdigit := all_iff.mp h.2 c hmem
  simp only [isSeparator, Bool.or_eq_true, decide_eq_true_eq] at hc
  rcases hc with rfl | rfl <;> exact absurd hdigit (by decide)

theorem notMem_of_validEvr {evr : String} (h : validEvr evr = true) {c : Char}
    (hc : isSeparator c = true) : c ∉ evr.toList := by
  obtain ⟨-, epoch, version, release, hepoch, hversion, hrelease, rfl⟩ := validEvr_iff.mp h
  have hfree : c ∉ "._+~^".toList ∧ c.isAlphanum = false ∧ c.isDigit = false ∧ c ≠ ':' ∧ c ≠ '-' := by
    simp only [isSeparator, Bool.or_eq_true, decide_eq_true_eq] at hc
    rcases hc with rfl | rfl <;> decide
  have hcolon : ":".toList = [':'] := by decide
  have hdash : "-".toList = ['-'] := by decide
  simp only [String.toList_append, hcolon, hdash, List.mem_append, List.mem_singleton, not_or]
  exact ⟨⟨notMem_of_canonicalEpoch hepoch hfree.2.2.1, hfree.2.2.2.1⟩,
    ⟨notMem_of_rpmScalar hversion hfree.1 hfree.2.1, hfree.2.2.2.2⟩,
    notMem_of_rpmScalar hrelease hfree.1 hfree.2.1⟩

theorem notMem_of_rpmName {name : String} (h : rpmName name = true) {c : Char}
    (hc : isSeparator c = true) : c ∉ name.toList := by
  simp only [rpmName, Bool.and_eq_true] at h
  intro hmem
  have hchar := all_iff.mp h.2 c hmem
  simp only [isSeparator, Bool.or_eq_true, decide_eq_true_eq] at hc
  rcases hc with rfl | rfl <;> exact absurd hchar (by decide)

theorem notMem_of_rpmArch {name arch : String} (h : rpmArch name arch = true) {c : Char}
    (hc : isSeparator c = true) : c ∉ arch.toList := by
  simp only [rpmArch, Bool.and_eq_true, Bool.or_eq_true, decide_eq_true_eq] at h
  simp only [isSeparator, Bool.or_eq_true, decide_eq_true_eq] at hc
  intro hmem
  rcases h.2 with hall | ⟨-, rfl⟩
  · have hchar := all_iff.mp hall c hmem
    rcases hc with rfl | rfl <;> exact absurd hchar (by decide)
  · rcases hc with rfl | rfl <;> exact absurd hmem (by decide)

/-- The text of a well-formed record, with any digits for its time, has four fields. -/
theorem split_fields {r : InstalledRpm} (h : validRecord r = true) {time : String}
    (htime : isDigits time = true) :
    split '|' (join '|' [r.name, r.evr, r.arch, time]) = [r.name, r.evr, r.arch, time] := by
  simp only [validRecord, Bool.and_eq_true] at h
  have hbar : isSeparator '|' = true := by decide
  refine split_join ?_ (by simp)
  simp only [List.mem_cons, List.not_mem_nil, or_false, forall_eq_or_imp, forall_eq]
  exact ⟨notMem_of_rpmName h.1.1.1 hbar, notMem_of_validEvr h.1.1.2 hbar,
    notMem_of_rpmArch h.1.2 hbar, notMem_of_isDigits htime hbar⟩

theorem newline_notMem {r : InstalledRpm} (h : validRecord r = true) {time : String}
    (htime : isDigits time = true) : '\n' ∉ (join '|' [r.name, r.evr, r.arch, time]).toList := by
  simp only [validRecord, Bool.and_eq_true] at h
  have hnewline : isSeparator '\n' = true := by decide
  have hne : '\n' ≠ '|' := by decide
  have := notMem_of_rpmName h.1.1.1 hnewline
  have := notMem_of_validEvr h.1.1.2 hnewline
  have := notMem_of_rpmArch h.1.2 hnewline
  have := notMem_of_isDigits htime hnewline
  simp_all [join, List.intercalate_cons_of_ne_nil]

/-- A parsed line writes its record. -/
theorem parseRecord_ok {line : String} {r : InstalledRpm} (h : parseRecord line = some r) :
    States line r := by
  rw [parseRecord] at h
  split at h
  · next name evr arch time hfields =>
    split at h
    · next htime =>
      obtain ⟨n, hn, rfl⟩ := Option.map_eq_some_iff.mp h
      rw [parseUnsigned_digits htime] at hn
      split at hn
      · refine ⟨time, ?_, htime, Option.some.inj hn⟩
        rw [← hfields, join_split]
      · cases hn
    · cases h
  · cases h

/-- What writes a well-formed record parses to it. -/
theorem parseRecord_states {line : String} {r : InstalledRpm} (hvalid : validRecord r = true)
    (h : States line r) : parseRecord line = some r := by
  obtain ⟨time, rfl, htime, hvalue⟩ := h
  have hbound : r.installTime < 2 ^ 64 := by
    simp only [validRecord, Bool.and_eq_true, decide_eq_true_eq] at hvalid
    exact hvalid.2
  rw [parseRecord, split_fields hvalid htime]
  simp only [htime, if_true, parseUnsigned_digits htime, hvalue, if_pos hbound, Option.map_some]

theorem states_recordText (r : InstalledRpm) : States (recordText r) r :=
  ⟨r.installTime.repr, rfl, isDigits_repr _, by simp [Nat.toList_repr, Nat.ofDigitChars_ten_toDigits]⟩

/-- Without its leading zeros, every line that writes the record is the record's text. -/
theorem normalLine_states {line : String} {r : InstalledRpm} (hvalid : validRecord r = true)
    (h : States line r) : normalLine line = recordText r := by
  obtain ⟨time, rfl, htime, hvalue⟩ := h
  have hdigits : all Char.isDigit time = true := by
    simp only [isDigits, Bool.and_eq_true] at htime
    exact htime.2
  rw [normalLine, split_fields hvalid htime]
  simp only [recordText, dropZeros_eq_repr hdigits, hvalue]

/-- The text determines the record. -/
theorem recordText_inj {r s : InstalledRpm} (hr : validRecord r = true) (hs : validRecord s = true)
    (h : recordText r = recordText s) : r = s := by
  have hread := parseRecord_states hr (states_recordText r)
  rw [h, parseRecord_states hs (states_recordText s)] at hread
  exact (Option.some.inj hread).symm

theorem len_join_four (a b c d : String) :
    len (join '|' [a, b, c, d]) = len a + len b + len c + len d + 3 := by
  have hbar : len "|" = 1 := by decide
  have hjoin : join '|' [a, b, c, d] = a ++ "|" ++ b ++ "|" ++ c ++ "|" ++ d := by
    have hbar : "|".toList = ['|'] := by decide
    rw [← String.toList_inj]
    simp [join, hbar, List.intercalate_cons_of_ne_nil]
  rw [hjoin]
  simp only [len_append, hbar]
  omega

theorem len_of_isDigits {time : String} (h : isDigits time = true) : len time = time.toList.length := by
  simp only [isDigits, Bool.and_eq_true] at h
  refine len_of_ascii fun c hc => ?_
  have hdigit := all_iff.mp h.2 c hc
  simp only [Char.isDigit, Bool.and_eq_true, decide_eq_true_eq, UInt32.le_iff_toNat_le] at hdigit
  have hle : c.toNat ≤ 57 := hdigit.2
  omega

/-- The text of a record is no longer than any line that writes it. -/
theorem len_recordText_le {line : String} {r : InstalledRpm} (h : States line r) :
    len (recordText r) ≤ len line := by
  obtain ⟨time, rfl, htime, hvalue⟩ := h
  have hdigits : all Char.isDigit time = true := by
    simp only [isDigits, Bool.and_eq_true] at htime
    exact htime.2
  have hle := len_dropZeros_le htime
  rw [dropZeros_eq_repr hdigits, hvalue] at hle
  rw [recordText, len_join_four, len_join_four, len_of_isDigits (isDigits_repr _),
    len_of_isDigits htime]
  omega

/-! ### Whole outputs -/

/-- What an accepted output is. -/
theorem parseQuery_ok {output : Bytes} {inventory : NativeInventory}
    (h : NativeInventory.parseQuery output = .ok inventory) :
    output = utf8 (unlines (outputLines output)) ∧ outputLines output ≠ [] ∧
      output.length ≤ MAX_INVENTORY_BYTES ∧ ∃ records,
        List.Forall₂ States (outputLines output) records ∧ records.length ≤ 100000 ∧
        NativeInventory.ofRecords records = some inventory := by
  rw [NativeInventory.parseQuery] at h
  obtain ⟨_, hsize, h⟩ := except_bind_ok.mp h
  obtain ⟨text, htext, h⟩ := except_bind_ok.mp h
  obtain ⟨body, hbody, h⟩ := except_bind_ok.mp h
  obtain ⟨records, hrecords, h⟩ := except_bind_ok.mp h
  obtain ⟨_, hcount, h⟩ := except_bind_ok.mp h
  simp only [refuse_ok, not_or, not_lt] at hsize hcount
  have hlines : outputLines output = split '\n' body := by
    rw [outputLines, need_ok.mp htext, Option.bind_some, need_ok.mp hbody]
  have houtput : output = utf8 (body ++ "\n") := by
    rw [← stripSuffix_eq_some.mp (need_ok.mp hbody), fromUtf8_eq_some.mp (need_ok.mp htext)]
  refine ⟨?_, ?_, hsize.2, records, ?_, hcount, need_ok.mp h⟩
  · rw [hlines, ← join_newline (split_ne_nil _ _), join_split, ← houtput]
  · rw [hlines]
    exact split_ne_nil _ _
  · rw [hlines]
    exact (Gather.mapM_some.mp (need_ok.mp hrecords)).imp fun _ _ => parseRecord_ok

theorem ofRecords_some {records : List InstalledRpm} {inventory : NativeInventory}
    (h : NativeInventory.ofRecords records = some inventory) :
    (∀ r ∈ records, validRecord r = true) ∧ records.Perm inventory.packages := by
  rw [NativeInventory.ofRecords] at h
  split at h
  · next hvalid =>
    obtain rfl := Option.some.inj h
    exact ⟨hvalid.1, (List.perm_insertionSort _ _).symm⟩
  · cases h

/-- Strictly increasing records are determined by their members. -/
theorem packages_ext {inventory inventory' : NativeInventory}
    (h : inventory.packages.Perm inventory'.packages) : inventory = inventory' := by
  have heq : inventory.packages = inventory'.packages :=
    h.eq_of_pairwise (fun _ _ _ _ hab hba => absurd (hab.trans hba) (lt_irrefl _))
      inventory.increasing inventory'.increasing
  cases inventory
  cases inventory'
  simpa using heq

/-- The records of an inventory make it, in any order. -/
theorem ofRecords_perm {records : List InstalledRpm} {inventory : NativeInventory}
    (h : records.Perm inventory.packages) : NativeInventory.ofRecords records = some inventory := by
  have hvalid : ∀ r ∈ records, validRecord r = true := fun r hr =>
    inventory.valid r (h.mem_iff.mp hr)
  have hkeys : (records.map InstalledRpm.key).Nodup :=
    (h.map InstalledRpm.key).nodup_iff.mpr inventory.keys_nodup
  rw [NativeInventory.ofRecords, dif_pos ⟨hvalid, hkeys⟩]
  exact congrArg some (packages_ext ((List.perm_insertionSort _ _).trans h))

theorem forall₂_parseRecord {lines : List String} {records : List InstalledRpm}
    (hvalid : ∀ r ∈ records, validRecord r = true) (h : List.Forall₂ States lines records) :
    List.Forall₂ (fun l r => parseRecord l = some r) lines records := by
  induction h with
  | nil => exact .nil
  | cons hline _ ih =>
    obtain ⟨hr, hrest⟩ := List.forall_mem_cons.mp hvalid
    exact .cons (parseRecord_states hr hline) (ih hrest)

theorem newline_free {lines : List String} {records : List InstalledRpm}
    (hvalid : ∀ r ∈ records, validRecord r = true) (h : List.Forall₂ States lines records) :
    ∀ l ∈ lines, '\n' ∉ l.toList := by
  induction h with
  | nil => simp
  | cons hline _ ih =>
    obtain ⟨hr, hrest⟩ := List.forall_mem_cons.mp hvalid
    obtain ⟨time, rfl, htime, -⟩ := hline
    exact List.forall_mem_cons.mpr ⟨newline_notMem hr htime, ih hrest⟩

/-- Lines that write the records of an inventory, in any order, are accepted as that inventory. -/
theorem parseQuery_states {lines : List String} {records : List InstalledRpm}
    {inventory : NativeInventory} (hne : lines ≠ [])
    (hsize : len (unlines lines) ≤ MAX_INVENTORY_BYTES) (hstates : List.Forall₂ States lines records)
    (hperm : records.Perm inventory.packages) (hcount : records.length ≤ 100000) :
    NativeInventory.parseQuery (utf8 (unlines lines)) = .ok inventory := by
  have hvalid : ∀ r ∈ records, validRecord r = true := fun r hr =>
    inventory.valid r (hperm.mem_iff.mp hr)
  have hfree := newline_free hvalid hstates
  have hempty : utf8 (unlines lines) ≠ [] := by
    intro h
    have hlength := congrArg List.length h
    rw [length_utf8, ← join_newline hne, len_append] at hlength
    have hnewline : len "\n" = 1 := by decide
    simp only [hnewline, List.length_nil] at hlength
    omega
  have hbound : ¬(utf8 (unlines lines) = [] ∨ (utf8 (unlines lines)).length > MAX_INVENTORY_BYTES) := by
    rw [length_utf8]
    exact not_or.mpr ⟨hempty, not_lt.mpr hsize⟩
  rw [NativeInventory.parseQuery]
  refine except_bind_ok.mpr ⟨(), refuse_ok.mpr hbound, ?_⟩
  refine except_bind_ok.mpr ⟨unlines lines, need_ok.mpr (fromUtf8_utf8 _), ?_⟩
  refine except_bind_ok.mpr ⟨join '\n' lines, need_ok.mpr ?_, ?_⟩
  · exact stripSuffix_eq_some.mpr (join_newline hne).symm
  refine except_bind_ok.mpr ⟨records, need_ok.mpr ?_, ?_⟩
  · rw [split_join hfree hne]
    exact Gather.mapM_some.mpr (forall₂_parseRecord hvalid hstates)
  exact except_bind_ok.mpr ⟨(), refuse_ok.mpr (not_lt.mpr hcount), need_ok.mpr (ofRecords_perm hperm)⟩

/-! ### Reading the rendered packages back -/

theorem render_eq (inventory : NativeInventory) :
    inventory.render = utf8 (unlines (inventory.packages.map recordText)) := by
  rw [NativeInventory.render]
  induction inventory.packages with
  | nil => rfl
  | cons r packages ih =>
    rw [List.flatMap_cons, ih, recordLine_eq, List.map_cons, unlines, utf8_append, utf8_append,
      utf8_append]

/-- Lines that write the records are at least as long as their rendering. -/
theorem len_recordTexts_le {lines : List String} {records : List InstalledRpm}
    (h : List.Forall₂ States lines records) :
    len (unlines (records.map recordText)) ≤ len (unlines lines) := by
  induction h with
  | nil => rfl
  | cons hline _ ih =>
    have hle := len_recordText_le hline
    rw [List.map_cons, unlines, unlines]
    simp only [len_append]
    omega

/-- Rendering what was parsed and parsing it again gives the same inventory. -/
theorem parseQuery_render {output : Bytes} {inventory : NativeInventory}
    (h : NativeInventory.parseQuery output = .ok inventory) :
    NativeInventory.parseQuery inventory.render = .ok inventory := by
  obtain ⟨houtput, hne, hsize, records, hstates, hcount, hof⟩ := parseQuery_ok h
  obtain ⟨-, hperm⟩ := ofRecords_some hof
  have hlength : (outputLines output).length = inventory.packages.length :=
    hstates.length_eq.trans hperm.length_eq
  rw [render_eq]
  have htexts : List.Forall₂ States (inventory.packages.map recordText) inventory.packages := by
    rw [List.forall₂_map_left_iff, List.forall₂_same]
    exact fun r _ => states_recordText r
  refine parseQuery_states ?_ ?_ htexts (.refl _) ?_
  · intro hnil
    rw [List.map_eq_nil_iff.mp hnil, List.length_nil] at hlength
    exact hne (List.length_eq_zero_iff.mp hlength)
  · rw [houtput, length_utf8] at hsize
    calc len (unlines (inventory.packages.map recordText))
        = len (unlines (records.map recordText)) := by
          rw [len_unlines, len_unlines]
          exact ((hperm.symm.map _).map _).sum_nat
      _ ≤ len (unlines (outputLines output)) := len_recordTexts_le hstates
      _ ≤ MAX_INVENTORY_BYTES := hsize
  · rw [← hperm.length_eq]
    exact hcount

/-! ### Equal fingerprints -/

theorem render_inj {output output' : Bytes} {inventory inventory' : NativeInventory}
    (h : NativeInventory.parseQuery output = .ok inventory)
    (h' : NativeInventory.parseQuery output' = .ok inventory')
    (heq : inventory.render = inventory'.render) : inventory = inventory' := by
  have hread := parseQuery_render h
  rw [heq, parseQuery_render h'] at hread
  exact (Except.ok.inj hread).symm

theorem normalLines_states {lines : List String} {records : List InstalledRpm}
    (hvalid : ∀ r ∈ records, validRecord r = true) (h : List.Forall₂ States lines records) :
    lines.map normalLine = records.map recordText := by
  induction h with
  | nil => rfl
  | cons hline _ ih =>
    obtain ⟨hr, hrest⟩ := List.forall_mem_cons.mp hvalid
    rw [List.map_cons, List.map_cons, normalLine_states hr hline, ih hrest]

/-- Normalised, the lines of an output are the texts of its packages. -/
theorem mem_normalLines {output : Bytes} {inventory : NativeInventory}
    (h : NativeInventory.parseQuery output = .ok inventory) {line : String} :
    line ∈ (outputLines output).map normalLine ↔ line ∈ inventory.packages.map recordText := by
  obtain ⟨-, -, -, records, hstates, -, hof⟩ := parseQuery_ok h
  obtain ⟨hvalid, hperm⟩ := ofRecords_some hof
  rw [normalLines_states hvalid hstates]
  exact (hperm.map recordText).mem_iff

theorem mem_of_recordText {inventory inventory' : NativeInventory}
    (h : ∀ line, line ∈ inventory.packages.map recordText → line ∈ inventory'.packages.map recordText)
    {r : InstalledRpm} (hr : r ∈ inventory.packages) : r ∈ inventory'.packages := by
  obtain ⟨s, hs, htext⟩ := List.mem_map.mp (h _ (List.mem_map_of_mem hr))
  rwa [← recordText_inj (inventory'.valid s hs) (inventory.valid r hr) htext]

/-- The fingerprint is canonical: sorted packages that are exactly the output's records, one
    fingerprint for one set of records, and a rendering that reads back. -/
theorem fingerprint_canonical {crates : Crates} {output output' : Bytes}
    {inventory inventory' : NativeInventory}
    (h : NativeInventory.parseQuery output = .ok inventory)
    (h' : NativeInventory.parseQuery output' = .ok inventory')
    (hcollision : crates.sha256 inventory.render = crates.sha256 inventory'.render →
      inventory.render = inventory'.render) :
    (inventory.packages.Pairwise fun r s => r.key < s.key) ∧
    HoldsExactly output inventory.packages ∧
    (inventory.fingerprint crates = inventory'.fingerprint crates ↔ SameRecords output output') ∧
    NativeInventory.parseQuery inventory.render = .ok inventory := by
  refine ⟨inventory.increasing, ?_, ?_, parseQuery_render h⟩
  · obtain ⟨-, -, -, records, hstates, -, hof⟩ := parseQuery_ok h
    exact ⟨records, hstates, (ofRecords_some hof).2⟩
  · constructor
    · intro heq line
      obtain rfl := render_inj h h' (hcollision heq)
      rw [mem_normalLines h, mem_normalLines h']
    · intro hsame
      have htexts : ∀ line, line ∈ inventory.packages.map recordText ↔
          line ∈ inventory'.packages.map recordText := by
        intro line
        rw [← mem_normalLines h, ← mem_normalLines h', hsame line]
      have hmem : ∀ r, r ∈ inventory.packages ↔ r ∈ inventory'.packages := fun r =>
        ⟨mem_of_recordText fun l => (htexts l).mp, mem_of_recordText fun l => (htexts l).mpr⟩
      obtain rfl := packages_ext
        ((List.perm_ext_iff_of_nodup inventory.packages_nodup inventory'.packages_nodup).mpr hmem)
      rfl

namespace Minimal

def zsh : InstalledRpm := ⟨"zsh", "0:5.9-1.fc44", "x86_64", 7⟩

/-- A database of two packages. -/
def shells : NativeInventory := ⟨[bash, zsh], by decide, by decide⟩

def reordered : List String := ["zsh|0:5.9-1.fc44|x86_64|007", "bash|0:5.3-1.fc44|x86_64|1"]

def padded : List String := ["bash|0:5.3-1.fc44|x86_64|01", "zsh|0:5.9-1.fc44|x86_64|7"]

theorem states_reordered : List.Forall₂ States reordered [zsh, bash] :=
  .cons ⟨"007", by decide, by decide, by decide⟩ (.cons ⟨"1", by decide, by decide, by decide⟩ .nil)

theorem states_padded : List.Forall₂ States padded [bash, zsh] :=
  .cons ⟨"01", by decide, by decide, by decide⟩ (.cons ⟨"7", by decide, by decide, by decide⟩ .nil)

end Minimal

/-- The two listings hold the same records, so the database has one fingerprint. -/
theorem fingerprint_canonical_shells :
    HoldsExactly (utf8 (unlines Minimal.reordered)) Minimal.shells.packages ∧
    SameRecords (utf8 (unlines Minimal.reordered)) (utf8 (unlines Minimal.padded)) := by
  have hreordered := @parseQuery_states _ _ Minimal.shells (by decide) (by decide)
    Minimal.states_reordered (.swap ..) (by decide)
  have hpadded := @parseQuery_states _ _ Minimal.shells (by decide) (by decide)
    Minimal.states_padded (.refl _) (by decide)
  obtain ⟨-, hholds, hsame, -⟩ := @fingerprint_canonical Minimal.crates _ _ _ _ hreordered hpadded
    fun _ => rfl
  exact ⟨hholds, hsame.mp rfl⟩

end NpuStack.Install
