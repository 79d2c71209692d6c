import LiveLoader.Path.Basic

/-!
# Failures

A build fails for one of seven causes. `BuildError.message` holds the wording of all of them.
-/

namespace LiveLoader

inductive BuildError where
  | resourceNotFound (path : Path)
  | unknownSource (path : Path)
  | emitFailure (path : Path)
  | transformFailure (path : Path) (cause : String)
  | parse (path : Path) (cause : String)
  | io (path : Path) (cause : String)
  | setup (cause : String)
  deriving DecidableEq, Repr

namespace BuildError

def message : BuildError → String
  | resourceNotFound p => "Unable to locate component resource: " ++ p.toString
  | unknownSource p => "Unable to retrieve source file: " ++ p.toString
  | emitFailure p => "Failed to emit file: " ++ p.toString
  | transformFailure p cause => "Transform failed for " ++ p.toString ++ ": " ++ cause
  | parse p cause => "Failed to parse " ++ p.toString ++ ": " ++ cause
  | io p cause => "Failed to read " ++ p.toString ++ ": " ++ cause
  | setup cause => "Compiler setup failed: " ++ cause

end BuildError

/-- A failed load names the file that was asked for beside the cause. -/
structure LoadError where
  path : Path
  cause : BuildError
  deriving DecidableEq, Repr

def LoadError.message (e : LoadError) : String :=
  "[angular-loader] " ++ e.path.toString ++ ": " ++ e.cause.message

abbrev Result := Except BuildError

instance Result.decidableEq [DecidableEq ε] [DecidableEq α] : DecidableEq (Except ε α)
  | .error a, .error b => decidable_of_iff (a = b) ⟨congrArg _, Except.error.inj⟩
  | .ok a, .ok b => decidable_of_iff (a = b) ⟨congrArg _, Except.ok.inj⟩
  | .error _, .ok _ => isFalse nofun
  | .ok _, .error _ => isFalse nofun

end LiveLoader
