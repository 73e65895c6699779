import NpuStack.Install.Policy
import NpuStack.Schemes.Raises

/-! The bootstrap script: it checks its arguments, fetches the installer and hands them on.

        main args… end ──marker?──▶ args ──checkOptions──▶ user, tools, download, digest ──▶ installer args

    The script takes the last of several channels and any number of flags. The installer's own parser
    takes each of them once, so what is handed on is accepted there exactly when no option is repeated
    (`forwarded_iff`). -/

namespace NpuStack.Install.Bootstrap
open Interaction Text NpuStack.Core

/-- What the script asks of its host. -/
inductive Query where
  | userId
  | commandExists (tool : String)
  | makeDirectory
  | curl (arguments : List String)
  | isRegular (path : String)
  | isSymlink (path : String)
  | sha256sum (line : String)
  | chmod (mode path : String)
  | installer (path : String) (arguments : List String)
  deriving DecidableEq, Repr

def Answer : Query → Type
  | .userId => Option String
  | .makeDirectory => Option String
  | .installer _ _ => ℕ
  | _ => Bool

/-- The script ends early with a status, and prints a text. -/
structure Exit where
  status : ℕ
  text : String
  deriving DecidableEq, Repr

abbrev Script (α : Type) := Prog Answer Exit α

abbrev Trace := List (Event Answer)

/-- The last argument of `main`, put there by the last line of the script. -/
def MARKER : String := "--end-of-install-sh"

/-! ### Arguments -/

/-- The loop of `check_options`. -/
def readOptions : List String → String → Bool → Except Exit (String × Bool)
  | [], channel, risk => .ok (channel, risk)
  | argument :: rest, channel, risk =>
    if argument ∈ ["--dry-run", "--yes", "--with-python", "--with-devel"] then readOptions rest channel risk
    else if argument = "--accept-experimental-risk" then readOptions rest channel true
    else if argument = "--channel" then
      match rest with
      | [] => .error ⟨2, "--channel requires stable or experimental"⟩
      | value :: rest => readOptions rest value risk
    else match stripPrefix "--channel=" argument with
      | some value => readOptions rest value risk
      | none => .error ⟨2, "unknown or misplaced installer argument; use --help"⟩

def checkOptions (arguments : List String) : Except Exit Unit := do
  let (channel, risk) ← readOptions arguments "stable" false
  require (channel ++ ":" ++ (if risk then "true" else "false") ∈ ["stable:false", "experimental:true"])
    ⟨2, "experimental requires --accept-experimental-risk; stable rejects that flag"⟩

/-- One turn of the loop that sets the positional parameters anew: how many turns there were, and the
    parameters. -/
def rebuildStep (count : ℕ) (state : ℕ × List String) (argument : String) : ℕ × List String :=
  let positional := if state.1 = 0 then [] else state.2
  let index := state.1 + 1
  (index, if index ≤ count then positional ++ [argument] else positional)

/-- The positional parameters without the last; the loop goes over the old ones. -/
def rebuild (received : List String) : List String :=
  (received.foldl (rebuildStep (received.length - 1)) (0, received)).2

def usage : String := unlines
  ["Usage: install.sh [--dry-run] [--yes] [--channel stable|experimental]",
   "  [--accept-experimental-risk] [--with-python] [--with-devel]",
   "  [--version] [--help]",
   "Run as a normal user. Experimental requires explicit risk acknowledgement."]

section
variable (version url sha256 : String)

/-- What `main` does before it asks its host anything. -/
def readArguments (received : List String) : Except Exit (List String) := do
  let last := received.foldl (fun _ argument => argument) ""
  refuse (received.length = 0 ∨ last ≠ MARKER) ⟨20, "install.sh was not downloaded completely"⟩
  let arguments := rebuild received
  refuse (arguments = ["--version"]) ⟨0, "intel-npu-stack-install " ++ version⟩
  refuse (arguments = ["--help"]) ⟨0, usage⟩
  checkOptions arguments
  return arguments

/-- The installer, with its arguments. -/
def start (payload : String) (arguments : List String) : Script ℕ :=
  Prog.query (Query.installer payload arguments)

/-- The download and the start of the installer. -/
def fetch (arguments : List String) : Script ℕ := do
  let uid ← Prog.expect .userId fun a => need a ⟨2, "cannot determine effective user ID"⟩
  refuse (uid = "" ∨ uid.toList.any (fun c => !c.isDigit) = true)
    (⟨2, "cannot determine effective user ID"⟩ : Exit)
  refuse (uid = "0")
    (⟨2, "run as a normal user; privilege is requested only for the approved transaction"⟩ : Exit)
  forM ["curl", "sha256sum", "mktemp", "chmod", "rm"] fun tool =>
    Prog.expect (.commandExists tool) fun (a : Bool) =>
      require (a = true) ⟨20, "a required bootstrap tool is unavailable"⟩
  let directory ← Prog.expect .makeDirectory fun a =>
    need a ⟨20, "cannot create a private download directory"⟩
  let payload := directory ++ "/installer"
  Prog.expect (.curl ["--disable", "--fail", "--location", "--proto", "=https", "--proto-redir", "=https",
      "--connect-timeout", "15", "--max-time", "180", "--max-filesize", "67108864", "--output", payload, "--",
      url]) fun (a : Bool) => require (a = true) ⟨20, "installer download did not complete"⟩
  Prog.expect (.isRegular payload) fun (a : Bool) =>
    require (a = true) ⟨20, "download is not a regular file"⟩
  Prog.expect (.isSymlink payload) fun (a : Bool) =>
    require (a = false) ⟨20, "download is not a regular file"⟩
  Prog.expect (.sha256sum (sha256 ++ "  " ++ payload)) fun (a : Bool) =>
    require (a = true) ⟨20, "installer checksum mismatch"⟩
  Prog.expect (.chmod "700" payload) fun (a : Bool) =>
    require (a = true) ⟨20, "cannot prepare the verified installer"⟩
  start payload arguments

/-- `main`: the status of the installer, or of an early end. -/
def main (received : List String) : Script ℕ := do
  let arguments ← readArguments version received
  fetch url sha256 arguments

end

/-! ### The installer's parser -/

/-- An option of the installer as it is given once. -/
inductive Word where
  | dryRun | yes | acceptExperimentalRisk | withPython | withDevel
  | channel (value : String)
  deriving DecidableEq, Repr

def Word.name : Word → String
  | .dryRun => "--dry-run"
  | .yes => "--yes"
  | .acceptExperimentalRisk => "--accept-experimental-risk"
  | .withPython => "--with-python"
  | .withDevel => "--with-devel"
  | .channel _ => "--channel"

def flags : List Word := [.dryRun, .yes, .acceptExperimentalRisk, .withPython, .withDevel]

/-- Long options; the value of `--channel` is behind it or behind an equals sign. -/
def readWords : List String → Option (List Word)
  | [] => some []
  | argument :: rest =>
    match flags.find? fun word => word.name = argument with
    | some word => (readWords rest).map (word :: ·)
    | none =>
      if argument = "--channel" then
        match rest with
        | [] => none
        | value :: rest => (readWords rest).map (.channel value :: ·)
      else match stripPrefix "--channel=" argument with
        | some value => (readWords rest).map (.channel value :: ·)
        | none => none

/-- The channel after one more option. -/
def nextChannel (value : String) (word : Word) : String :=
  match word with
  | .channel value => value
  | _ => value

/-- The value of `--channel`, or its default. -/
def channelValue (words : List Word) : String := words.foldl nextChannel "stable"

def parseChannel (value : String) : Option Channel :=
  if value = "stable" then some .stable else if value = "experimental" then some .experimental else none

/-- `InstallOptions::parse`: each option at most once. -/
def parse (arguments : List String) : Option InstallOptions := do
  let words ← readWords arguments
  if ¬(words.map Word.name).Nodup then none
  let channel ← parseChannel (channelValue words)
  return ⟨.dryRun ∈ words, .yes ∈ words, channel, .acceptExperimentalRisk ∈ words, .withPython ∈ words,
    .withDevel ∈ words⟩

/-! ### What the script admits -/

/-- The channel and the acknowledgement of its risk belong together. -/
def Matches (words : List Word) : Prop :=
  (channelValue words = "stable" ∧ .acceptExperimentalRisk ∉ words) ∨
    (channelValue words = "experimental" ∧ .acceptExperimentalRisk ∈ words)

theorem foldl_rebuildStep {count : ℕ} : ∀ {rest : List String} {index : ℕ} {positional : List String},
    0 < index →
      (rest.foldl (rebuildStep count) (index, positional)).2 = positional ++ rest.take (count - index) := by
  intro rest
  induction rest with
  | nil => simp
  | cons argument rest ih =>
    intro index positional hindex
    rw [List.foldl_cons, rebuildStep]
    simp only [hindex.ne', if_false]
    rw [ih (Nat.succ_pos index)]
    split
    · next hle =>
      obtain ⟨k, hk⟩ := Nat.exists_eq_add_of_le hle
      have hcount : count - index = k + 1 := by omega
      have hnext : count - (index + 1) = k := by omega
      rw [hcount, hnext, List.take_succ_cons, List.append_assoc, List.singleton_append]
    · next hlt =>
      have hcount : count - index = 0 := by omega
      have hnext : count - (index + 1) = 0 := by omega
      rw [hcount, hnext, List.take_zero, List.take_zero]

theorem rebuild_concat (arguments : List String) (last : String) : rebuild (arguments ++ [last]) = arguments := by
  cases arguments with
  | nil => rfl
  | cons argument arguments =>
    have hcount : (argument :: arguments ++ [last]).length - 1 = arguments.length + 1 := by simp
    rw [rebuild, hcount, List.cons_append, List.foldl_cons, rebuildStep]
    simp only [if_true]
    rw [foldl_rebuildStep (by omega)]
    simp

theorem readArguments_ok {version : String} {received arguments : List String} :
    readArguments version received = .ok arguments ↔
      received = arguments ++ [MARKER] ∧ arguments ≠ ["--version"] ∧
      arguments ≠ ["--help"] ∧ checkOptions arguments = .ok () := by
  simp only [readArguments, except_bind_ok, refuse_ok, exists_const, not_or, not_not, pure, Except.pure,
    Except.ok.injEq]
  rcases received.eq_nil_or_concat with rfl | ⟨front, last, rfl⟩
  · simp
  · rw [List.concat_eq_append, rebuild_concat, List.foldl_append, List.foldl_cons, List.foldl_nil]
    constructor
    · rintro ⟨⟨-, rfl⟩, hversion, hhelp, ⟨⟩, hoptions, rfl⟩
      exact ⟨rfl, hversion, hhelp, hoptions⟩
    · rintro ⟨hreceived, hversion, hhelp, hoptions⟩
      obtain ⟨rfl, hlast⟩ := List.append_inj' hreceived rfl
      cases hlast
      exact ⟨⟨by simp, rfl⟩, hversion, hhelp, (), hoptions, rfl⟩

theorem readWords_flag {word : Word} (h : word ∈ flags) (rest : List String) :
    readWords (word.name :: rest) = (readWords rest).map (word :: ·) := by
  simp only [flags, List.mem_cons, List.not_mem_nil, or_false] at h
  rcases h with rfl | rfl | rfl | rfl | rfl <;> rfl

/-- The flags that the loop passes over. -/
theorem exists_flag {argument : String} (h : argument ∈ ["--dry-run", "--yes", "--with-python", "--with-devel"]) :
    ∃ word ∈ flags, word.name = argument ∧ word ≠ .acceptExperimentalRisk ∧
      ∀ value, nextChannel value word = value := by
  simp only [List.mem_cons, List.not_mem_nil, or_false] at h
  rcases h with rfl | rfl | rfl | rfl
  · exact ⟨.dryRun, by decide, rfl, by decide, fun _ => rfl⟩
  · exact ⟨.yes, by decide, rfl, by decide, fun _ => rfl⟩
  · exact ⟨.withPython, by decide, rfl, by decide, fun _ => rfl⟩
  · exact ⟨.withDevel, by decide, rfl, by decide, fun _ => rfl⟩

/-- Every other argument gives a channel or is refused. -/
theorem readWords_other {argument : String}
    (hflag : argument ∉ ["--dry-run", "--yes", "--with-python", "--with-devel"])
    (hrisk : argument ≠ "--accept-experimental-risk") :
    flags.find? (fun word => word.name = argument) = none := by
  simp only [List.mem_cons, List.not_mem_nil, or_false, not_or] at hflag
  obtain ⟨hdryRun, hyes, hpython, hdevel⟩ := hflag
  simp [flags, Word.name, eq_comm, hdryRun, hyes, hpython, hdevel, hrisk]

theorem exists_map_cons {word : Word} {read : Option (List Word)} {P : List Word → Prop} :
    (∃ words, read.map (word :: ·) = some words ∧ P words) ↔ ∃ words, read = some words ∧ P (word :: words) := by
  constructor
  · rintro ⟨_, hread, h⟩
    obtain ⟨words, rfl, rfl⟩ := Option.map_eq_some_iff.mp hread
    exact ⟨words, rfl, h⟩
  · rintro ⟨words, rfl, h⟩
    exact ⟨word :: words, rfl, h⟩

/-- The loop reads the words of the installer, and keeps the last channel. -/
theorem readOptions_ok {arguments : List String} {channel channel' : String} {risk risk' : Bool} :
    readOptions arguments channel risk = .ok (channel', risk') ↔ ∃ words, readWords arguments = some words ∧
      channel' = words.foldl nextChannel channel ∧
      risk' = (risk || decide (.acceptExperimentalRisk ∈ words)) := by
  fun_induction readOptions arguments channel risk with
  | case1 channel risk => simp [readWords, eq_comm]
  | case2 argument rest channel risk hflag ih =>
    obtain ⟨word, hword, rfl, hne, hnext⟩ := exists_flag hflag
    rw [ih, readWords_flag hword, exists_map_cons]
    simp [hnext, hne.symm]
  | case3 rest channel risk _ ih =>
    have hword : readWords ("--accept-experimental-risk" :: rest) =
        (readWords rest).map (.acceptExperimentalRisk :: ·) :=
      @readWords_flag .acceptExperimentalRisk (by decide) rest
    rw [ih, hword, exists_map_cons]
    simp [nextChannel]
  | case4 channel risk => simp [readWords, flags, Word.name]
  | case5 channel risk value rest _ _ ih =>
    have hword : readWords ("--channel" :: value :: rest) = (readWords rest).map (.channel value :: ·) := by
      rw [readWords]
      rfl
    rw [ih, hword, exists_map_cons]
    simp [nextChannel]
  | case6 argument rest channel risk hflag hrisk hchannel value hvalue ih =>
    have hword : readWords (argument :: rest) = (readWords rest).map (.channel value :: ·) := by
      rw [readWords.eq_def]
      simp only [readWords_other hflag hrisk, if_neg hchannel, hvalue]
    rw [ih, hword, exists_map_cons]
    simp [nextChannel]
  | case7 argument rest channel risk hflag hrisk hchannel hvalue =>
    have hword : readWords (argument :: rest) = none := by
      rw [readWords.eq_def]
      simp only [readWords_other hflag hrisk, if_neg hchannel, hvalue]
    simp [hword]

theorem checkOptions_ok {arguments : List String} :
    checkOptions arguments = .ok () ↔ ∃ words, readWords arguments = some words ∧ Matches words := by
  have hpair : ∀ (channel : String) (risk : Bool),
      channel ++ ":" ++ (if risk then "true" else "false") ∈ ["stable:false", "experimental:true"] ↔
        (channel = "stable" ∧ risk = false) ∨ (channel = "experimental" ∧ risk = true) := by
    intro channel risk
    have hstable : "stable:false" = "stable" ++ ":" ++ "false" := by decide
    have hexperimental : "experimental:true" = "experimental" ++ ":" ++ "true" := by decide
    rw [List.mem_cons, List.mem_singleton, hstable, hexperimental]
    cases risk with
    | false =>
      have hne : channel ++ ":" ++ "false" ≠ "experimental" ++ ":" ++ "true" := fun heq => by
        have hlast := congrArg (fun s => s.toList.reverse.take 5) heq
        simp at hlast
      rw [if_neg Bool.false_ne_true, or_iff_left hne, String.append_left_inj, String.append_left_inj]
      simp
    | true =>
      have hne : channel ++ ":" ++ "true" ≠ "stable" ++ ":" ++ "false" := fun heq => by
        have hlast := congrArg (fun s => s.toList.reverse.take 4) heq
        simp at hlast
      rw [if_pos rfl, or_iff_right hne, String.append_left_inj, String.append_left_inj]
      simp
  simp only [checkOptions, except_bind_ok, Prod.exists, readOptions_ok, require_ok, hpair]
  constructor
  · rintro ⟨channel, risk, ⟨words, hread, rfl, rfl⟩, hmatches⟩
    refine ⟨words, hread, ?_⟩
    simpa [Matches, channelValue] using hmatches
  · rintro ⟨words, hread, hmatches⟩
    refine ⟨_, _, ⟨words, hread, rfl, rfl⟩, ?_⟩
    simpa [Matches, channelValue] using hmatches

/-! ### What the installer makes of it -/

theorem parse_of_nodup {arguments : List String} {words : List Word} (hread : readWords arguments = some words)
    (hmatches : Matches words) (hnodup : (words.map Word.name).Nodup) :
    ∃ options, parse arguments = some options ∧
      (options.channel = .experimental ↔ options.acceptExperimentalRisk = true) := by
  rcases hmatches with ⟨hchannel, hrisk⟩ | ⟨hchannel, hrisk⟩
  · refine ⟨⟨.dryRun ∈ words, .yes ∈ words, .stable, .acceptExperimentalRisk ∈ words, .withPython ∈ words,
      .withDevel ∈ words⟩, ?_, by simp [hrisk]⟩
    simp [parse, hread, hnodup, hchannel, parseChannel]
  · refine ⟨⟨.dryRun ∈ words, .yes ∈ words, .experimental, .acceptExperimentalRisk ∈ words, .withPython ∈ words,
      .withDevel ∈ words⟩, ?_, by simp [hrisk]⟩
    simp [parse, hread, hnodup, hchannel, parseChannel]

theorem nodup_of_parse {arguments : List String} {options : InstallOptions} {words : List Word}
    (h : parse arguments = some options) (hread : readWords arguments = some words) :
    (words.map Word.name).Nodup := by
  by_contra hnot
  simp [parse, hread, hnot] at h

/-! ### Runs -/

section
variable {version url sha256 : String} {received : List String} {t : Trace}

theorem main_runs {r : Except Exit ℕ} : (main version url sha256 received).Runs t r ↔
    (∃ e, readArguments version received = .error e ∧ t = [] ∧ r = .error e) ∨
      ∃ arguments, readArguments version received = .ok arguments ∧ (fetch url sha256 arguments).Runs t r :=
  Prog.runs_lift_bind

/-- The installer is started with the arguments that were admitted. -/
theorem fetch_asks (arguments : List String) : (fetch url sha256 arguments).Asks fun q =>
    ∀ path others, q = .installer path others → others = arguments := by
  refine Prog.asks_expect_bind nofun fun uid => Prog.asks_lift_bind fun _ => Prog.asks_lift_bind fun _ =>
    Prog.asks_bind (Prog.asks_forM fun tool _ => (Prog.asks_expect _ _).mpr nofun) fun _ =>
    Prog.asks_expect_bind nofun fun directory => Prog.asks_expect_bind nofun fun _ =>
    Prog.asks_expect_bind nofun fun _ => Prog.asks_expect_bind nofun fun _ =>
    Prog.asks_expect_bind nofun fun _ => Prog.asks_expect_bind nofun fun _ => (Prog.asks_query _).mpr ?_
  rintro path others ⟨⟩
  rfl

/-- A script that does not end early has started the installer, and has its status. -/
theorem fetch_runs {arguments : List String} {status : ℕ} (h : (fetch url sha256 arguments).Runs t (.ok status)) :
    ∃ path, (⟨.installer path arguments, status⟩ : Event Answer) ∈ t := by
  simp only [fetch, Prog.runs_bind_ok] at h
  obtain ⟨_, _, _, rfl, -, _, _, _, rfl, -, _, _, _, rfl, -, _, _, _, rfl, -, directory, _, _, rfl, -, _, _, _, rfl, -,
    _, _, _, rfl, -, _, _, _, rfl, -, _, _, _, rfl, -, _, _, _, rfl, -, hquery⟩ := h
  obtain ⟨answer, rfl, hanswer⟩ := Prog.runs_query.mp hquery
  cases hanswer
  exact ⟨directory ++ "/installer", by simp⟩

/-- A host that does what it is asked. -/
def willing : (q : Query) → Answer q
  | .userId => some "1000"
  | .makeDirectory => some "/tmp/bootstrap"
  | .isSymlink _ => false
  | .installer _ _ => (0 : ℕ)
  | .commandExists _ => true
  | .curl _ => true
  | .isRegular _ => true
  | .sha256sum _ => true
  | .chmod _ _ => true

theorem fetch_willing (arguments : List String) : (fetch url sha256 arguments).eval willing = .ok 0 := by
  rfl

/-! ### What is handed on -/

/-- The request is not refused for its channel and risk, on any host and with any profiles. -/
def PassesRisk (options : InstallOptions) : Prop := ∀ facts profiles error,
  validateRequest options facts profiles = .error error → error.code ≠ "INSTALL_CHANNEL_RISK_MISMATCH"

theorem passesRisk_of_matches {options : InstallOptions}
    (h : options.channel = .experimental ↔ options.acceptExperimentalRisk = true) : PassesRisk options := by
  intro facts profiles
  have hprofile : ∀ profile, Raises (fun e => e.code ≠ "INSTALL_CHANNEL_RISK_MISMATCH") (checkProfile profile) :=
    fun profile => raises_bind (raises_okOr.mpr fun _ => by decide) fun _ _ =>
      raises_refuse.mpr fun _ => by decide
  refine raises_bind (raises_refuse.mpr fun _ => by decide) fun _ _ =>
    raises_bind (raises_refuse.mpr fun hne => absurd (propext h) hne) fun _ _ =>
    raises_bind (raises_refuse.mpr fun _ => by decide) fun _ _ =>
    raises_bind (raises_forM fun profile _ => hprofile profile) fun _ _ =>
    raises_bind (raises_okOr.mpr fun _ => by decide) fun _ _ => raises_pure

/-- What the script does with the arguments `main` received. -/
structure Forwarded (version url sha256 : String) (received : List String) : Prop where
  marked : ∀ t r, (main version url sha256 received).Runs t r →
    ∀ arguments answer, (⟨.curl arguments, answer⟩ : Event Answer) ∈ t → received.getLast? = some MARKER
  intact : ∀ t r, (main version url sha256 received).Runs t r →
    ∀ path arguments status, (⟨.installer path arguments, status⟩ : Event Answer) ∈ t →
      received = arguments ++ [MARKER]
  started : ∀ t status, (main version url sha256 received).Runs t (.ok status) →
    ∃ path arguments, (⟨.installer path arguments, status⟩ : Event Answer) ∈ t
  accepted : ∀ t r, (main version url sha256 received).Runs t r →
    ∀ path arguments status, (⟨.installer path arguments, status⟩ : Event Answer) ∈ t →
      ∃ options, parse arguments = some options ∧ PassesRisk options

theorem installer_admitted {r : Except Exit ℕ} (h : (main version url sha256 received).Runs t r)
    {path : String} {arguments : List String} {status : ℕ}
    (hevent : (⟨.installer path arguments, status⟩ : Event Answer) ∈ t) :
    readArguments version received = .ok arguments := by
  rcases main_runs.mp h with ⟨_, -, rfl, -⟩ | ⟨admitted, harguments, hfetch⟩
  · cases hevent
  · have hsame := Prog.runs_asks (fetch_asks admitted) hfetch _ hevent path arguments rfl
    rw [harguments, hsame]

/-- The script hands on what the installer accepts exactly when it is given no option twice. -/
theorem forwarded_iff (version url sha256 : String) (received : List String) :
    Forwarded version url sha256 received ↔ ∀ arguments words, received = arguments ++ [MARKER] →
      readWords arguments = some words → Matches words → (words.map Word.name).Nodup := by
  constructor
  · rintro h arguments words rfl hread hmatches
    have hwords : ∀ text, readWords [text] = none → arguments ≠ [text] := by
      rintro text hnone rfl
      rw [hnone] at hread
      cases hread
    have harguments : readArguments version (arguments ++ [MARKER]) = .ok arguments :=
      readArguments_ok.mpr ⟨rfl, hwords "--version" rfl, hwords "--help" rfl,
        checkOptions_ok.mpr ⟨words, hread, hmatches⟩⟩
    obtain ⟨t, hfetch⟩ := Prog.runs_eval willing (fetch url sha256 arguments)
    rw [fetch_willing] at hfetch
    obtain ⟨path, hevent⟩ := fetch_runs hfetch
    have hmain : (main version url sha256 (arguments ++ [MARKER])).Runs t (.ok 0) :=
      main_runs.mpr (.inr ⟨arguments, harguments, hfetch⟩)
    obtain ⟨options, hparse, -⟩ := h.accepted t _ hmain path arguments _ hevent
    exact nodup_of_parse hparse hread
  · intro h
    refine ⟨fun t r hrun arguments answer hevent => ?_, fun t r hrun path arguments status hevent => ?_,
      fun t status hrun => ?_, fun t r hrun path arguments status hevent => ?_⟩
    · rcases main_runs.mp hrun with ⟨_, -, rfl, -⟩ | ⟨admitted, harguments, -⟩
      · cases hevent
      · rw [(readArguments_ok.mp harguments).1, List.getLast?_concat]
    · exact (readArguments_ok.mp (installer_admitted hrun hevent)).1
    · rcases main_runs.mp hrun with ⟨_, -, -, hend⟩ | ⟨admitted, -, hfetch⟩
      · cases hend
      · obtain ⟨path, hevent⟩ := fetch_runs hfetch
        exact ⟨path, admitted, hevent⟩
    · obtain ⟨hreceived, -, -, hoptions⟩ := readArguments_ok.mp (installer_admitted hrun hevent)
      obtain ⟨words, hread, hmatches⟩ := checkOptions_ok.mp hoptions
      obtain ⟨options, hparse, hrisk⟩ :=
        parse_of_nodup hread hmatches (h arguments words hreceived hread hmatches)
      exact ⟨options, hparse, passesRisk_of_matches hrisk⟩

end

/-- A flag given twice is handed on and refused. -/
theorem repeated_flag_refused : ¬ ∀ version url sha256 received, Forwarded version url sha256 received := by
  intro h
  have hforwarded := h "0.1.0" "https://downloads.example.invalid/0.1.0/installer" "" ["--yes", "--yes", MARKER]
  have harguments : readArguments "0.1.0" ["--yes", "--yes", MARKER] = .ok ["--yes", "--yes"] := rfl
  obtain ⟨t, hfetch⟩ := Prog.runs_eval willing
    (fetch "https://downloads.example.invalid/0.1.0/installer" "" ["--yes", "--yes"])
  rw [fetch_willing] at hfetch
  obtain ⟨path, hevent⟩ := fetch_runs hfetch
  obtain ⟨options, hparse, -⟩ :=
    hforwarded.accepted t _ (main_runs.mpr (.inr ⟨_, harguments, hfetch⟩)) path _ _ hevent
  have hnone : parse ["--yes", "--yes"] = none := rfl
  rw [hnone] at hparse
  cases hparse

end NpuStack.Install.Bootstrap
