import NpuStack.Native.LevelZero
import NpuStack.Runtime.Acceptance

/-! The tree of a report, as the helpers spell it and the parser reads it.

        {"schema_version":1,"probe":…,"mode":…,"outcome":…,"observations":…,"error_code":…}

    A plain report tree printed and ended by a line feed is accepted exactly as far as its
    observations are (`parseProbeOutput_print`). -/

namespace NpuStack.Native
open Interaction Text Serde NpuStack.Runtime

/-- The code of a report as a tree. -/
def errorCodeJson : Option ProbeErrorCode → Json
  | some code => .str code.name
  | none => .null

def reportFields (probe : ProbeKind) (mode : ProbeMode) (outcome : ProbeOutcome) (observations : Json)
    (errorCode : Option ProbeErrorCode) : List (String × Json) :=
  [("schema_version", .num "1"), ("probe", .str probe.name), ("mode", .str mode.name),
    ("outcome", .str outcome.name), ("observations", observations),
    ("error_code", errorCodeJson errorCode)]

def reportJson (probe : ProbeKind) (mode : ProbeMode) (outcome : ProbeOutcome) (observations : Json)
    (errorCode : Option ProbeErrorCode) : Json :=
  .obj (reportFields probe mode outcome observations errorCode)

/-! ### Trees that survive printing and reading -/

variable {f64 : String → Option ℚ} {d : ℕ}

/-- A tree the writer spells as it is and the parser reads back, of bounded depth. -/
structure Printable (f64 : String → Option ℚ) (d : ℕ) (j : Json) : Prop where
  ascii : PlainAscii j
  plain : Json.Plain (inRange f64) j
  unique : Json.duplicateFree j = true
  depth : Json.depth j ≤ d

theorem Printable.mono {d d' : ℕ} (hd : d ≤ d') {j : Json} (h : Printable f64 d j) :
    Printable f64 d' j :=
  ⟨h.ascii, h.plain, h.unique, h.depth.trans hd⟩

theorem printable_null : Printable f64 d .null := ⟨trivial, trivial, rfl, Nat.zero_le _⟩

theorem printable_str {s : String} (h : all isPlainAscii s = true) : Printable f64 d (.str s) :=
  ⟨h, isPlainChar_of_ascii h, rfl, Nat.zero_le _⟩

theorem printable_num {literal : String} (h : Json.PlainNumber (inRange f64) literal) :
    Printable f64 d (.num literal) :=
  ⟨trivial, h, rfl, Nat.zero_le _⟩

theorem printable_arr : ∀ {items : List Json}, (∀ j ∈ items, Printable f64 d j) →
    Printable f64 (d + 1) (.arr items)
  | [], _ => ⟨trivial, trivial, rfl, Nat.succ_le_succ (Nat.zero_le _)⟩
  | j :: items, h => by
    obtain ⟨hj, hrest⟩ := List.forall_mem_cons.mp h
    obtain ⟨hascii, hplain, hunique, hdepth⟩ := printable_arr hrest
    exact ⟨⟨hj.ascii, hascii⟩, ⟨hj.plain, hplain⟩, (Bool.and_eq_true _ _).mpr ⟨hj.unique, hunique⟩,
      Nat.succ_le_succ (max_le hj.depth (Nat.le_of_succ_le_succ hdepth))⟩

theorem printable_fields : ∀ {fields : List (String × Json)},
    (∀ f ∈ fields, all isPlainAscii f.1 = true ∧ Printable f64 d f.2) →
    PlainAsciiFields fields ∧ Json.PlainFields (inRange f64) fields ∧
      Json.duplicateFreeFields fields = true ∧ Json.depthFields fields ≤ d
  | [], _ => ⟨trivial, trivial, rfl, Nat.zero_le _⟩
  | (_, _) :: _, h => by
    obtain ⟨⟨hk, hv⟩, hrest⟩ := List.forall_mem_cons.mp h
    obtain ⟨hascii, hplain, hunique, hdepth⟩ := printable_fields hrest
    exact ⟨⟨hk, hv.ascii, hascii⟩, ⟨isPlainChar_of_ascii hk, hv.plain, hplain⟩,
      (Bool.and_eq_true _ _).mpr ⟨hv.unique, hunique⟩, max_le hv.depth hdepth⟩

theorem printable_obj {fields : List (String × Json)} (hkeys : (fields.map Prod.fst).Nodup)
    (h : ∀ f ∈ fields, all isPlainAscii f.1 = true ∧ Printable f64 d f.2) :
    Printable f64 (d + 1) (.obj fields) := by
  obtain ⟨hascii, hplain, hunique, hdepth⟩ := printable_fields h
  refine ⟨hascii, hplain, ?_, Nat.succ_le_succ hdepth⟩
  rw [Json.duplicateFree, Bool.and_eq_true, decide_eq_true_eq]
  exact ⟨hkeys, hunique⟩

theorem readUnsigned_repr {bits n : ℕ} (hn : n < 2 ^ bits) : readUnsigned bits (.num n.repr) = some n := by
  have hdigits : n.repr.toList.all Char.isDigit = true := (Bool.and_eq_true _ _ ▸ isDigits_repr n).2
  have hvalue : Nat.ofDigitChars 10 n.repr.toList 0 = n := by
    rw [Nat.toList_repr, Nat.ofDigitChars_ten_toDigits]
  rw [readUnsigned, hvalue, if_pos ⟨Nat.repr_ne_empty, hdigits, hn⟩]

theorem printable_empty : Printable f64 (d + 1) (.obj []) := printable_obj .nil nofun

/-- A number of at most 32 bits. -/
theorem printable_repr {n : ℕ} (hn : n < 2 ^ 32) : Printable f64 d (.num n.repr) := by
  have hread : readUnsigned 64 (.num n.repr) = some n := readUnsigned_repr (hn.trans (by decide))
  exact printable_num (Json.plainNumber_repr (by rw [inRange, hread]; rfl))

/-- What was printed of a plain tree is its text. -/
theorem print_calls {j : Json} (hplain : PlainAscii j) {text : Bytes}
    (h : print (calls j) = .ok text) : text = utf8 j.render := by
  simp only [print, Writer.create, Writer.finish, except_bind_ok, pure, Except.pure,
    Except.ok.injEq] at h
  obtain ⟨_, ⟨_, -, rfl⟩, w, hperform, _, -, _, -, rfl⟩ := h
  rw [(Writer.writes_calls j hperform).1, mapStrings_escape hplain]
  rfl

/-! ### Reading what was printed -/

/-- A plain object without repeated keys, printed and ended by a line feed, reaches the checks of
    its content. -/
theorem parseProbeOutput_render {fields : List (String × Json)} {probe : ProbeKind} {mode : ProbeMode}
    (hplain : Json.Plain (inRange f64) (.obj fields)) (hunique : Json.duplicateFree (.obj fields) = true)
    (hdepth : Json.depth (.obj fields) ≤ RECURSION_LIMIT)
    (hlength : len (Json.obj fields).render < MAX_PROBE_STDOUT) :
    parseProbeOutput f64 (utf8 (Json.obj fields).render ++ utf8 "\n") probe mode =
      parseReport f64 probe mode (.obj fields) := by
  have hwhite : Json.White ['\n'] := by
    intro c hc
    rw [List.mem_singleton.mp hc]
    rfl
  have hdocument := document_render hplain hunique hdepth hwhite
  rw [utf8_append] at hdocument
  refine parseProbeOutput_document hdocument ?_
  rw [List.length_append, length_utf8, length_utf8]
  exact hlength

theorem readName_kind (probe : ProbeKind) :
    readName ProbeKind.variants ProbeKind.name (.str probe.name) = some probe := by
  cases probe <;> rfl

theorem readName_mode (mode : ProbeMode) :
    readName ProbeMode.variants ProbeMode.name (.str mode.name) = some mode := by
  cases mode <;> rfl

theorem readName_outcome (outcome : ProbeOutcome) :
    readName ProbeOutcome.variants ProbeOutcome.name (.str outcome.name) = some outcome := by
  cases outcome <;> rfl

theorem readErrorCode_json (errorCode : Option ProbeErrorCode) :
    readErrorCode (some (errorCodeJson errorCode)) = some errorCode := by
  cases errorCode with
  | none => rfl
  | some code => cases code <;> rfl

/-- The fields of a report tree are read as they were spelled. -/
theorem read_reportJson (probe : ProbeKind) (mode : ProbeMode) (outcome : ProbeOutcome)
    (observations : Json) (errorCode : Option ProbeErrorCode) :
    RawProbeReport.read (reportJson probe mode outcome observations errorCode) =
      some ⟨1, probe, mode, outcome, observations, errorCode⟩ := by
  let fields := reportFields probe mode outcome observations errorCode
  have hkeys : (fields.map Prod.fst).Nodup := show TOP_LEVEL_KEYS.Nodup by decide
  have hfields : Json.fields TOP_LEVEL_KEYS (reportJson probe mode outcome observations errorCode) =
      some fun name => fields.lookup name := Json.fields_obj hkeys fun _ => id
  have hversion := required_lookup hkeys (.head _) (readUnsigned 32)
  have hprobe := required_lookup hkeys (.tail _ (.head _)) (readName ProbeKind.variants ProbeKind.name)
  have hmode := required_lookup hkeys (.tail _ (.tail _ (.head _)))
    (readName ProbeMode.variants ProbeMode.name)
  have houtcome := required_lookup hkeys (.tail _ (.tail _ (.tail _ (.head _))))
    (readName ProbeOutcome.variants ProbeOutcome.name)
  have hobservations : fields.lookup "observations" = some observations :=
    Keyed.lookup_of_mem hkeys (.tail _ (.tail _ (.tail _ (.tail _ (.head _)))))
  have hcode : fields.lookup "error_code" = some (errorCodeJson errorCode) :=
    Keyed.lookup_of_mem hkeys (.tail _ (.tail _ (.tail _ (.tail _ (.tail _ (.head _))))))
  have hone : readUnsigned 32 (.num "1") = some 1 := by decide
  rw [hone] at hversion
  rw [readName_kind] at hprobe
  rw [readName_mode] at hmode
  rw [readName_outcome] at houtcome
  rw [RawProbeReport.read, hfields]
  simp only [Option.bind_eq_bind, Option.bind_some]
  rw [hversion, hprobe, hmode, houtcome, hobservations, hcode, readErrorCode_json]
  rfl

/-- A report tree of the expected probe is accepted as far as its observations are. -/
theorem parseReport_reportJson {probe : ProbeKind} {mode : ProbeMode} {outcome : ProbeOutcome}
    {observations : Json} {errorCode : Option ProbeErrorCode} {parsed : ProbeObservations}
    (hmode : ¬ (probe = .levelZero ∧ mode ≠ .enumerate))
    (hobservations : parseObservations f64 ⟨1, probe, mode, outcome, observations, errorCode⟩ =
      .ok parsed) :
    parseReport f64 probe mode (reportJson probe mode outcome observations errorCode) =
      .ok ⟨1, probe, mode, outcome, parsed, errorCode⟩ := by
  have hkeys : ¬ (6 ≠ TOP_LEVEL_KEYS.length ∨
      (TOP_LEVEL_KEYS.any fun key => key ∉ TOP_LEVEL_KEYS) = true) := by decide
  have hversion : readUnsigned 64
      ((reportJson probe mode outcome observations errorCode).get "schema_version") = some 1 := by
    have hone : readUnsigned 64 (.num "1") = some 1 := by decide
    simpa [reportJson, reportFields, Json.get, List.lookup_cons] using hone
  have hidentity : ¬ ((1 : ℕ) ≠ PROBE_SCHEMA_VERSION ∨ probe ≠ probe ∨ mode ≠ mode ∨
      probe = .levelZero ∧ mode ≠ .enumerate) := by
    rintro (h | h | h | h)
    · exact h rfl
    · exact h rfl
    · exact h rfl
    · exact hmode h
  refine except_bind_ok.mpr ⟨_, rfl, except_bind_ok.mpr ⟨⟨⟩, refuse_ok.mpr hkeys, ?_⟩⟩
  refine except_bind_ok.mpr ⟨1, need_ok.mpr hversion, ?_⟩
  refine except_bind_ok.mpr ⟨⟨⟩, refuse_ok.mpr (by decide), ?_⟩
  refine except_bind_ok.mpr ⟨_, need_ok.mpr (read_reportJson _ _ _ _ _), ?_⟩
  refine except_bind_ok.mpr ⟨⟨⟩, refuse_ok.mpr hidentity, ?_⟩
  exact except_bind_ok.mpr ⟨parsed, hobservations, rfl⟩

/-- What the parser makes of a failed report: its code, when it belongs to the mode. -/
theorem parseObservations_fail {probe : ProbeKind} {mode : ProbeMode} {code : ProbeErrorCode}
    (hcode : code ∈ errorCodes probe mode) :
    parseObservations f64 ⟨1, probe, mode, .fail, .obj [], some code⟩ = .ok .empty := by
  refine except_bind_ok.mpr ⟨⟨⟩, refuse_ok.mpr (by simp [asObject]), ?_⟩
  refine except_bind_ok.mpr ⟨code, rfl, ?_⟩
  exact except_bind_ok.mpr ⟨⟨⟩, refuse_ok.mpr (not_not.mpr hcode), rfl⟩

theorem isPlainAscii_keys : ∀ key ∈ TOP_LEVEL_KEYS, all isPlainAscii key = true := by
  decide

theorem printable_errorCode (errorCode : Option ProbeErrorCode) :
    Printable f64 d (errorCodeJson errorCode) := by
  cases errorCode with
  | none => exact printable_null
  | some code => exact printable_str (by cases code <;> decide)

theorem len_errorCode_le (errorCode : Option ProbeErrorCode) :
    len (errorCodeJson errorCode).render ≤ 60 := by
  cases errorCode with
  | none => decide
  | some code => cases code <;> decide

section
variable {probe : ProbeKind} {mode : ProbeMode} {outcome : ProbeOutcome} {observations : Json}
  {errorCode : Option ProbeErrorCode}

theorem printable_reportJson (h : Printable f64 d observations) :
    Printable f64 (d + 1) (reportJson probe mode outcome observations errorCode) := by
  have hkeys : ∀ key ∈ TOP_LEVEL_KEYS, all isPlainAscii key = true := isPlainAscii_keys
  refine printable_obj (show TOP_LEVEL_KEYS.Nodup by decide) fun f hf => ⟨?_, ?_⟩
  · exact hkeys f.1 (List.mem_map_of_mem (f := Prod.fst) hf)
  · simp only [reportFields, List.mem_cons, List.not_mem_nil, or_false] at hf
    rcases hf with rfl | rfl | rfl | rfl | rfl | rfl
    · exact printable_repr (n := 1) (by decide)
    · exact printable_str (by cases probe <;> decide)
    · exact printable_str (by cases mode <;> decide)
    · exact printable_str (by cases outcome <;> decide)
    · exact h
    · exact printable_errorCode errorCode

theorem len_reportJson_le :
    len (reportJson probe mode outcome observations errorCode).render ≤
      len observations.render + 500 := by
  refine (Json.len_render_obj_le _).trans ?_
  have hcode := len_errorCode_le errorCode
  have hprobe : len (Json.str probe.name).render ≤ 60 := by cases probe <;> decide
  have hmode : len (Json.str mode.name).render ≤ 60 := by cases mode <;> decide
  have houtcome : len (Json.str outcome.name).render ≤ 60 := by cases outcome <;> decide
  have hversion : len (Json.num "1").render = 1 := by decide
  have hkeys : (TOP_LEVEL_KEYS.map len).sum ≤ 100 := by decide
  simp only [reportFields, TOP_LEVEL_KEYS, List.map_cons, List.map_nil, List.sum_cons,
    List.sum_nil] at hkeys ⊢
  omega

/-- A printed report is accepted as far as its observations are. -/
theorem parseProbeOutput_print {parsed : ProbeObservations} {text : Bytes}
    (hmode : ¬ (probe = .levelZero ∧ mode ≠ .enumerate))
    (hprintable : Printable f64 100 observations) (hlength : len observations.render ≤ 60000)
    (hparsed : parseObservations f64 ⟨1, probe, mode, outcome, observations, errorCode⟩ = .ok parsed)
    (h : print (calls (reportJson probe mode outcome observations errorCode)) = .ok text) :
    parseProbeOutput f64 (text ++ utf8 "\n") probe mode =
      .ok ⟨1, probe, mode, outcome, parsed, errorCode⟩ := by
  have hreport : Printable f64 101 (reportJson probe mode outcome observations errorCode) :=
    printable_reportJson hprintable
  have hbound : len (reportJson probe mode outcome observations errorCode).render <
      MAX_PROBE_STDOUT := by
    refine len_reportJson_le.trans_lt ?_
    rw [MAX_PROBE_STDOUT]
    omega
  have hdepth : Json.depth (reportJson probe mode outcome observations errorCode) ≤
      RECURSION_LIMIT := hreport.depth.trans (by decide)
  rw [print_calls hreport.ascii h]
  rw [← parseReport_reportJson hmode hparsed]
  exact parseProbeOutput_render hreport.plain hreport.unique hdepth hbound

end

theorem parseObservations_pass {probe : ProbeKind} {mode : ProbeMode} {observations : Json} :
    parseObservations f64 ⟨1, probe, mode, .pass, observations, none⟩ =
      parseSuccessObservations f64 probe mode observations := rfl

end NpuStack.Native
