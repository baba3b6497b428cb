/-!
Words of a command line. A word is an option in its long or short form, several short options in one word, or a plain
word; after a word of two dashes all words are plain. What an option asks for is carried out when the next word is not
part of it any more, so an option that is not known is reported before a bad value right before it.
-/

namespace PhpAudit

/-- Why a command line is not carried out. -/
inductive UsageProblem where
  | helpRequested
  | versionRequested
  | nothingGiven
  | unknownCommand
  | unknownArgument
  | missingArgument
  /-- A value that is missing, empty where it may not be, or none of the possible ones. -/
  | invalidValue
  /-- A value that cannot be read as what it should be. -/
  | unreadableValue
  | repeatedOption
  /-- A value is attached to an option that takes none. -/
  | unwantedValue
deriving DecidableEq, Repr

/-- Asking for help or for the version is no failure. -/
def UsageProblem.exitCode : UsageProblem → Nat
  | helpRequested | versionRequested => 0
  | _ => 2

namespace CommandLine

/-- What an option does to the settings read so far. -/
inductive Effect (σ : Type) where
  | switch (apply : σ → Except UsageProblem σ)
  | value (apply : String → σ → Except UsageProblem σ)

structure OptionRule (σ : Type) where
  short : Option Char
  long : String
  effect : Effect σ

structure CommandRule (σ : Type) where
  options : List (OptionRule σ)
  /-- What a plain word does, if plain words are wanted. -/
  word : Option (String → σ → Except UsageProblem σ)

/-- What has been asked for and is not carried out yet. -/
inductive Pending (σ : Type) where
  | nothing
  /-- An option and its value, as soon as that has been read. -/
  | option (apply : String → σ → Except UsageProblem σ) (value : Option String)
  | words (apply : String → σ → Except UsageProblem σ) (words : List String)

structure Progress (σ : Type) where
  settings : σ
  pending : Pending σ

variable {σ : Type}

/-- Carries out what is pending. -/
def Progress.settle (progress : Progress σ) : Except UsageProblem σ :=
  match progress.pending with
  | .nothing => .ok progress.settings
  | .option _ none => .error .invalidValue
  | .option apply (some value) => apply value progress.settings
  | .words apply words => words.foldlM (fun settings word => apply word settings) progress.settings

def Progress.switch (progress : Progress σ) (apply : σ → Except UsageProblem σ) : Except UsageProblem (Progress σ) := do
  return ⟨← apply (← progress.settle), .nothing⟩

/-- An option with a value in the same word. -/
def Progress.attached (progress : Progress σ) (apply : String → σ → Except UsageProblem σ) (value : String) :
    Except UsageProblem (Progress σ) := do
  return ⟨← apply value (← progress.settle), .nothing⟩

/-- An option whose value is the next word. -/
def Progress.await (progress : Progress σ) (apply : String → σ → Except UsageProblem σ) :
    Except UsageProblem (Progress σ) := do
  return ⟨← progress.settle, .option apply none⟩

namespace CommandRule

variable (rule : CommandRule σ)

/-- A plain word that is no value of an option. -/
def readWord (progress : Progress σ) (word : String) : Except UsageProblem (Progress σ) :=
  match rule.word, progress.pending with
  | none, _ => .error .unknownArgument
  | some _, .words apply words => .ok { progress with pending := .words apply (words ++ [word]) }
  | some apply, _ => do return ⟨← progress.settle, .words apply [word]⟩

/-- A long option, given without its dashes. -/
def readLong (progress : Progress σ) (written : List Char) : Except UsageProblem (Progress σ) :=
  let name := written.takeWhile (· != '=')
  match rule.options.find? (·.long == String.ofList name), written.drop name.length with
  | none, _ => .error .unknownArgument
  | some ⟨_, _, .switch apply⟩, [] => progress.switch apply
  | some ⟨_, _, .switch _⟩, _ => .error .unwantedValue
  | some ⟨_, _, .value apply⟩, [] => progress.await apply
  | some ⟨_, _, .value apply⟩, _ :: value => progress.attached apply (String.ofList value)

/-- Short options, given without their dash. The first that takes a value takes the rest of the word. -/
def readShort (progress : Progress σ) : List Char → Except UsageProblem (Progress σ)
  | [] => .ok progress
  | c :: rest =>
    match rule.options.find? (·.short == some c), rest with
    | none, _ => .error .unknownArgument
    | some ⟨_, _, .switch apply⟩, _ => do readShort (← progress.switch apply) rest
    | some ⟨_, _, .value apply⟩, [] => progress.await apply
    | some ⟨_, _, .value apply⟩, '=' :: value => progress.attached apply (String.ofList value)
    | some ⟨_, _, .value apply⟩, value => progress.attached apply (String.ofList value)

/-- Reads the words of a command. -/
def read (progress : Progress σ) : List String → Except UsageProblem σ
  | [] => progress.settle
  | word :: rest =>
    match word.toList, progress.pending with
    | ['-', '-'], _ => do (← rest.foldlM rule.readWord progress).settle
    | '-' :: '-' :: written, _ => do read (← rule.readLong progress written) rest
    | '-' :: c :: written, _ => do read (← rule.readShort progress (c :: written)) rest
    | _, .option apply none => read { progress with pending := .option apply (some word) } rest
    | _, _ => do read (← rule.readWord progress word) rest

def readAll (start : σ) (words : List String) : Except UsageProblem σ := rule.read ⟨start, .nothing⟩ words

end CommandRule

end CommandLine

end PhpAudit
