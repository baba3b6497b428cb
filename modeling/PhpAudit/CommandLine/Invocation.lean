import PhpAudit.CommandLine.Option
import PhpAudit.Config
import PhpAudit.Path

/-!
The commands of the program and the settings that each of them takes.
-/

namespace PhpAudit

structure AnalyzeSettings where
  paths : List Path
  format : Option OutputFormat
  /-- Where the report is written; nothing for the standard output. -/
  output : Option Path
  config : Option Path
  /-- How many files are inspected at a time; zero leaves the choice to the machine. -/
  jobs : Nat
  parallel : Bool
  verbosity : Nat
  /-- The least severity at which findings make the run fail. -/
  failOn : Severity
deriving DecidableEq, Repr

structure VerifySettings where
  fixtures : List Path
  config : Option Path
  verbosity : Nat
deriving DecidableEq, Repr

inductive Invocation where
  | analyze (settings : AnalyzeSettings)
  | verify (settings : VerifySettings)
  | init (force : Bool)
deriving DecidableEq, Repr

namespace CommandLine

/-- A path may not be empty. -/
def readPath (word : String) : Except UsageProblem Path := if word = "" then .error .invalidValue else .ok ⟨word⟩

def readFormat (word : String) : Except UsageProblem OutputFormat :=
  match OutputFormat.ofId? word with
  | some format => .ok format
  | none => .error .invalidValue

def readSeverity (word : String) : Except UsageProblem Severity :=
  match Severity.parse word with
  | .ok severity => .ok severity
  | .error _ => .error .unreadableValue

/-- The number that decimal digits write. -/
def ofDigits (digits : List Char) : Nat := digits.foldl (fun number c => number * 10 + (c.toNat - '0'.toNat)) 0

/-- A number of 64 bits in decimal digits; a plus sign may come first. -/
def readCount (word : String) : Except UsageProblem Nat :=
  let digits :=
    match word.toList with
    | '+' :: digits => digits
    | digits => digits
  if !digits.isEmpty && digits.all Char.isDigit && ofDigits digits < wordBound then .ok (ofDigits digits)
  else .error .unreadableValue

/-- A setting that may be given once. -/
def once {α : Type} (known : Option α) (value : Except UsageProblem α) : Except UsageProblem (Option α) :=
  match known with
  | some _ => .error .repeatedOption
  | none => value.map some

/-- A counter of eight bits, which stays at its greatest value. -/
def countUp (count : Nat) : Nat := min (count + 1) 255

def helpOption (σ : Type) : OptionRule σ := ⟨some 'h', "help", .switch fun _ => .error .helpRequested⟩

/-- The settings of an analysis as far as they have been given. -/
structure AnalyzeDraft where
  paths : List Path
  format : Option OutputFormat
  output : Option Path
  config : Option Path
  jobs : Option Nat
  sequential : Option Unit
  verbosity : Nat
  failOn : Option Severity

def AnalyzeDraft.start : AnalyzeDraft := ⟨[], none, none, none, none, none, 0, none⟩

def AnalyzeDraft.finish (draft : AnalyzeDraft) : Except UsageProblem AnalyzeSettings :=
  if draft.paths.isEmpty then .error .missingArgument
  else
    .ok ⟨draft.paths, draft.format, draft.output, draft.config, draft.jobs.getD 0, draft.sequential.isNone,
      draft.verbosity, draft.failOn.getD .warning⟩

def analyzeRule : CommandRule AnalyzeDraft where
  options := [
    ⟨some 'f', "format", .value fun word draft => do
      return { draft with format := ← once draft.format (readFormat word) }⟩,
    ⟨some 'o', "output", .value fun word draft => do
      return { draft with output := ← once draft.output (readPath word) }⟩,
    ⟨some 'c', "config", .value fun word draft => do
      return { draft with config := ← once draft.config (readPath word) }⟩,
    ⟨some 'j', "jobs", .value fun word draft => do
      return { draft with jobs := ← once draft.jobs (readCount word) }⟩,
    ⟨none, "no-parallel", .switch fun draft => do
      return { draft with sequential := ← once draft.sequential (.ok ()) }⟩,
    ⟨some 'v', "verbosity", .switch fun draft => .ok { draft with verbosity := countUp draft.verbosity }⟩,
    ⟨none, "fail-on", .value fun word draft => do
      return { draft with failOn := ← once draft.failOn (readSeverity word) }⟩,
    helpOption AnalyzeDraft]
  word := some fun word draft => do return { draft with paths := draft.paths ++ [← readPath word] }

def verifyRule : CommandRule VerifySettings where
  options := [
    ⟨some 'c', "config", .value fun word settings => do
      return { settings with config := ← once settings.config (readPath word) }⟩,
    ⟨some 'v', "verbosity", .switch fun settings =>
      .ok { settings with verbosity := countUp settings.verbosity }⟩,
    helpOption VerifySettings]
  word := some fun word settings => do return { settings with fixtures := settings.fixtures ++ [← readPath word] }

def initRule : CommandRule (Option Unit) where
  options := [⟨some 'f', "force", .switch fun forced => once forced (.ok ())⟩, helpOption (Option Unit)]
  word := none

def readAnalyze (words : List String) : Except UsageProblem Invocation := do
  return .analyze (← (← analyzeRule.readAll AnalyzeDraft.start words).finish)

def readVerify (words : List String) : Except UsageProblem Invocation := do
  let settings ← verifyRule.readAll ⟨[], none, 0⟩ words
  if settings.fixtures.isEmpty then throw .missingArgument
  return .verify settings

def readInit (words : List String) : Except UsageProblem Invocation := do
  return .init (← initRule.readAll none words).isSome

def commandNames : List String := ["analyze", "verify", "init", "help"]

/-- Help may be asked for about one command. -/
def helpProblem : List String → UsageProblem
  | [] => .helpRequested
  | [name] => if commandNames.contains name then .helpRequested else .unknownCommand
  | _ => .unknownCommand

/-- Before a command only help and the version can be asked for. -/
def topRule : CommandRule Unit where
  options := [helpOption Unit, ⟨some 'V', "version", .switch fun _ => .error .versionRequested⟩]
  word := some fun _ _ => .error .unknownCommand

/-- What is wrong with the words after two dashes that come first. A command is no command there. -/
def afterDashes : List String → UsageProblem
  | [] => .nothingGiven
  | word :: _ => if commandNames.contains word then .unknownArgument else .unknownCommand

end CommandLine

namespace Invocation

open CommandLine

/-- Reads the words that follow the name of the program. -/
def parse : List String → Except UsageProblem Invocation
  | [] => .error .nothingGiven
  | "analyze" :: words => readAnalyze words
  | "verify" :: words => readVerify words
  | "init" :: words => readInit words
  | "help" :: words => .error (helpProblem words)
  | "--" :: words => .error (afterDashes words)
  | word :: _ => do
    topRule.readAll () [word]
    throw .unknownCommand

end Invocation

/-- The level of the log for a count of requests to say more. -/
def logLevel : Nat → String
  | 0 => "warn"
  | 1 => "info"
  | 2 => "debug"
  | _ => "trace"

/-- How many files are inspected at a time on a machine that has so many processors. -/
def workerCount (jobs processors : Nat) : Nat := if jobs = 0 then processors else jobs

end PhpAudit
