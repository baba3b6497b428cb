import PhpAudit.Config
import PhpAudit.Files.Change

/-!
What carrying out a command comes to: what is printed, whether the run passes, and the files afterwards.
-/

namespace PhpAudit

/-- Why a command could not be carried out. -/
inductive CommandFailure where
  | refused (message : String)
  /-- An error, and what was being done when it arose if that is not clear from it. -/
  | failed (context : Option String) (error : Error)
deriving DecidableEq, Repr

namespace CommandFailure

/-- The messages from the outermost inwards. -/
def chain : CommandFailure → List String
  | refused message => [message]
  | failed context error => context.toList ++ error.chain

def ofAccess (context : Option String) (problem : AccessProblem) : CommandFailure :=
  failed context (.io problem.message)

end CommandFailure

structure CommandOutcome where
  printed : String
  verdict : Except CommandFailure Bool
  files : FileTree

namespace CommandOutcome

def exitCode (outcome : CommandOutcome) : Nat :=
  match outcome.verdict with
  | .ok true => 0
  | _ => 1

end CommandOutcome

/-- The configuration of a run. One that is asked for must be usable. -/
def resolveConfig (tree : FileTree) : Option Path → Except CommandFailure Config
  | none => .ok (Config.current tree)
  | some path =>
    (Config.load tree path).mapError (.failed (some ("Failed to load configuration from " ++ path.text)))

end PhpAudit
