import LiveLoader.FileSystem.Basic
import LiveLoader.Logged
import LiveLoader.Options
import LiveLoader.Resource.Host
import LiveLoader.Sha256
import LiveLoader.Transformers

/-!
# Compilers

A compiler makes a program for a list of root files, analyzes it, and emits one file of it at a
time. It is asked in a world, which it may change: the files, the log and a state of its own.
-/

namespace LiveLoader

structure World (σ : Type) where
  files : FileSystem
  state : σ
  log : Log := []

namespace World

def write (w : World σ) (es : Log) : World σ := { w with log := w.log ++ es }

@[simp] theorem files_write (w : World σ) (es : Log) : (w.write es).files = w.files := rfl
@[simp] theorem state_write (w : World σ) (es : Log) : (w.write es).state = w.state := rfl
@[simp] theorem log_write (w : World σ) (es : Log) : (w.write es).log = w.log ++ es := rfl
@[simp] theorem write_nil (w : World σ) : w.write [] = w := by simp [write]

theorem write_write (w : World σ) (es fs : Log) : (w.write es).write fs = w.write (es ++ fs) := by
  simp [write, List.append_assoc]

/-- Carries a computation out; what it writes goes to the log. -/
def carryOut (w : World σ) (x : Logged α) : α × World σ := (x.value, w.write x.log)

end World

structure Artifact where
  fileName : List Char
  data : List Char
  deriving DecidableEq, Repr

structure Compiler (σ Program : Type) where
  create : List Path → CompilerOptions → ResourceHost → World σ → Result Program × World σ
  analyze : Program → World σ → Result Program × World σ
  /-- Whether the program has a source for a path. -/
  contains : Program → Path → Bool
  prepareEmit : Program → Transformers
  emit : Program → Path → Transformers → Result (List Artifact)
  /-- The files that the output for a path was made from, apart from its source. -/
  dependencies : Program → Path → List Path
  /-- Whether a file that the analysis read is a different one by now. -/
  inputsChanged : Program → World σ → Bool × World σ
  /-- What texts are told apart by. -/
  digest : List Char → String := fun s => fingerprint (String.ofList s)

end LiveLoader
