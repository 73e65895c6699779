import NpuStack.Install.PlanVerify
import NpuStack.Install.Policy

/-! Review of a plan. Every action is written and flushed before anything is asked; only `--yes` or a
    complete `yes` line on the terminal turns the plan into an approval receipt.

        preview ──write──flush──▶ dry run? ──▶ empty? ──▶ --yes or "yes\n" ──▶ receipt -/

namespace NpuStack.Install
open Interaction Text

/-- A borrowed plan: what it holds, and where it lives. -/
structure PlanRef where
  address : ℕ
  plan : NativePlan
  deriving DecidableEq, Repr

/-- User approval for one exact plan. -/
structure ApprovedPlan where
  plan : PlanRef
  deriving DecidableEq, Repr

inductive PlanReview where
  | dryRun
  | noChanges
  | approved (receipt : ApprovedPlan)
  deriving DecidableEq, Repr

def outputError : InstallError :=
  ⟨30, "INSTALL_OUTPUT_FAILED", "could not display the exact native transaction"⟩

def confirmationError : InstallError := ⟨2, "INSTALL_CONFIRMATION_REQUIRED",
  "installation requires a complete yes response on the controlling terminal or explicit --yes"⟩

/-- A complete line of at most 64 bytes that says yes. -/
def confirms (response : String) : Bool :=
  match stripSuffix "\n" response with
  | none => false
  | some line => len response ≤ 64 && !contains '\n' line && eqIgnoreAsciiCase (trim line) "yes"

def writeOut (text : String) : Sys Unit := .expect (.writeOut text) fun a => okOr a outputError

def flushOut : Sys Unit := .expect .flushOut fun a => okOr a outputError

def readResponse : Sys String := .expect .readResponse fun a => okOr a confirmationError

/-- Asks for confirmation unless `--yes` was given. -/
def confirm (options : InstallOptions) : Sys Unit := do
  if options.yes then return
  else do
    let response ← readResponse
    refuse (confirms response = false) confirmationError

/-- Displays and flushes every action before accepting explicit approval. -/
def reviewPlan (plan : PlanRef) (options : InstallOptions) : Sys PlanReview := do
  writeOut plan.plan.preview
  flushOut
  if options.dryRun then return .dryRun
  else if plan.plan.isEmpty then return .noChanges
  else do
    confirm options
    return .approved ⟨plan⟩

/-- The user approved: by flag, or by a complete answer on the terminal. -/
def Confirmed (t : Trace) (options : InstallOptions) : Prop :=
  options.yes = true ∨ ∃ response, Saw t .readResponse (.ok response) ∧ confirms response = true

theorem Confirmed.mono {t t' : Trace} {options : InstallOptions} (h : Confirmed t options)
    (hsub : t ⊆ t') : Confirmed t' options := by
  rcases h with hyes | ⟨response, hsaw, hconfirms⟩
  · exact .inl hyes
  · exact .inr ⟨response, hsub hsaw, hconfirms⟩

end NpuStack.Install
