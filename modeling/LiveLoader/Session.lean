import LiveLoader.Compiler
import LiveLoader.Filter

/-!
# Sessions

A session keeps one program over all root files that it was asked for so far. The roots only grow:
a file that is not among them is added, and the program is made and analyzed anew. A program that
cannot be made or analyzed leaves the one before in place and marks the session as stale.

Several jobs may use one session at a time. Each of them takes the lock of the session, keeps it
until its answer is there, and is suspended wherever it waits for the compiler.
-/

namespace LiveLoader

structure Session (Program : Type) where
  options : CompilerOptions
  host : ResourceHost
  /-- In the order in which they were first asked for. -/
  roots : List Path := []
  /-- The same paths as a set: they are compared as places, and their order says nothing. -/
  known : List Path := []
  /-- The digest of the text that each path was last given with. -/
  digests : List (Path × String) := []
  program : Program
  /-- Counts the programs that were put in place. No run is long enough for a counter of 64 bits to
  wrap around, so this one has no bound; nor has the next. -/
  version : Nat := 0
  rebuilds : Nat := 0
  /-- The program is to be made anew in any case. -/
  stale : Bool := false

structure Emitted where
  code : List Char
  dependencies : List Path
  digest : String
  deriving DecidableEq, Repr

/-- The artifacts that hold script text: `.js`, `.mjs` and `.cjs`. -/
def Artifact.scriptFilter : Filter where
  ignoreCase := false
  places := [⟨['.'], false⟩, ⟨['c', 'm'], true⟩, ⟨['j'], false⟩, ⟨['s'], false⟩]

def Artifact.isScript (a : Artifact) : Bool :=
  scriptFilter.accept a.fileName && !a.data.isEmpty

namespace Session

def knows (s : Session Program) (path : Path) : Bool := s.known.any (·.same path)

def addRoot (s : Session Program) (path : Path) : Session Program :=
  if s.knows path then s
  else { s with roots := s.roots ++ [path], known := path :: s.known }

def digest? (s : Session Program) (path : Path) : Option String :=
  (s.digests.find? fun (p, _) => p.same path).map (·.2)

/-- Keeps the digest of a path in place of the one before. -/
def recordDigest (s : Session Program) (path : Path) (d : String) : Session Program :=
  { s with digests := (path, d) :: s.digests.filter fun (p, _) => !p.same path }

def install (s : Session Program) (program : Program) : Session Program :=
  { s with program, version := s.version + 1, rebuilds := s.rebuilds + 1, stale := false }

def installed (s : Session Program) : LogEntry :=
  .info ("rebuilt program v" ++ toString s.version ++ " with " ++ toString s.roots.length
    ++ " root file(s)")

section

variable (c : Compiler σ Program)

def build (roots : List Path) (options : CompilerOptions) (host : ResourceHost) (w : World σ) :
    Result Program × World σ :=
  match c.create roots options host w with
  | (.error e, w) => (.error e, w)
  | (.ok program, w) => c.analyze program w

def start (options : CompilerOptions) (host : ResourceHost) (w : World σ) :
    Result (Session Program) × World σ :=
  match build c [] options host w with
  | (.error e, w) => (.error (.setup e.message), w)
  | (.ok program, w) => (.ok { options, host, program }, w)

/-- Makes the program anew over all roots. -/
def rebuild (s : Session Program) (w : World σ) : Result Unit × Session Program × World σ :=
  match build c s.roots s.options s.host w with
  | (.error e, w) => (.error e, { s with stale := true }, w)
  | (.ok program, w) =>
    let s := s.install program
    (.ok (), s, w.write [s.installed])

/-- Sees to it that the path is a root and makes the program anew; tells that it did. -/
def renew (s : Session Program) (path : Path) (w : World σ) :
    Result Bool × Session Program × World σ :=
  match rebuild c (s.addRoot path) w with
  | (.error e, s, w) => (.error e, s, w)
  | (.ok (), s, w) => (.ok true, s, w)

/-- Sees to it that the path is a root of the current program. The program is made anew for a new
root, in a stale session, and when files that it read have changed; the result tells whether it
was. -/
def ensure (s : Session Program) (path : Path) (w : World σ) :
    Result Bool × Session Program × World σ :=
  if s.knows path && !s.stale then
    match c.inputsChanged s.program w with
    | (true, w) => renew c s path w
    | (false, w) => (.ok false, s, w)
  else renew c s path w

/-- Takes note of the text that a path has; a root with another text makes the session stale. -/
def noteText (s : Session Program) (path : Path) (text : List Char) : Session Program :=
  let d := c.digest text
  let changed := s.knows path && s.digest? path ≠ some d
  let s := s.recordDigest path d
  if changed then { s with stale := true } else s

/-- The same as `ensure` for a path with a given text. -/
def ensureCurrent (s : Session Program) (path : Path) (text : List Char) (w : World σ) :
    Result Bool × Session Program × World σ :=
  ensure c (noteText c s path text) path w

def emitTransformers (s : Session Program) : Transformers :=
  (c.prepareEmit s.program).merge { before := [.bootstrap] }

def emit (s : Session Program) (path : Path) : Result Emitted :=
  if !c.contains s.program path then .error (.unknownSource path)
  else match c.emit s.program path (emitTransformers c s) with
    | .error e => .error e
    | .ok artifacts =>
      match (artifacts.filter Artifact.isScript).getLast? with
      | none => .error (.emitFailure path)
      | some a => .ok ⟨a.data, c.dependencies s.program path, c.digest a.data⟩

/-- Emits a file if the step before went well. -/
def emitAfter (path : Path) :
    Result Bool × Session Program × World σ → Result Emitted × Session Program × World σ
  | (.error e, s, w) => (.error e, s, w)
  | (.ok _, s, w) => (emit c s path, s, w)

def compile (s : Session Program) (path : Path) (w : World σ) :
    Result Emitted × Session Program × World σ :=
  emitAfter c path (ensure c s path w)

def compileSource (s : Session Program) (path : Path) (text : List Char) (w : World σ) :
    Result Emitted × Session Program × World σ :=
  emitAfter c path (ensureCurrent c s path text w)

end

inductive Reply where
  | ensured (r : Result Bool)
  | emitted (r : Result Emitted)

end Session

open Session (Reply)

/-- What is asked of a session that others use at the same time. -/
inductive Job where
  | compile (path : Path)
  | compileSource (path : Path) (text : List Char)
  | ensure (path : Path)
  | emit (path : Path)
  deriving DecidableEq, Repr

namespace Job

/-- Where a job is suspended: it waits for the lock, for the compiler to tell whether inputs
changed, or for the analysis of a program. -/
inductive Stage (Program : Type) where
  | waiting
  | asking
  | analyzing (program : Program)
  | done (reply : Reply)

namespace Stage

def isWaiting : Stage Program → Bool
  | waiting => true
  | _ => false

def isDone : Stage Program → Bool
  | done _ => true
  | _ => false

def emitted? : Stage Program → Option (Result Emitted)
  | done (.emitted r) => some r
  | _ => none

end Stage

def path : Job → Path
  | compile path => path
  | compileSource path _ => path
  | ensure path => path
  | emit path => path

section

variable (c : Compiler σ Program)

def note (job : Job) (s : Session Program) : Session Program :=
  match job with
  | compileSource path text => s.noteText c path text
  | _ => s

def answer (job : Job) (r : Result Bool) (s : Session Program) : Reply :=
  match job with
  | ensure _ => .ensured r
  | job => .emitted (r.bind fun _ => s.emit c job.path)

def finish (job : Job) (r : Result Bool) (s : Session Program) (w : World σ) :
    Stage Program × Session Program × World σ :=
  (.done (job.answer c r s), s, w)

def create (job : Job) (s : Session Program) (w : World σ) :
    Stage Program × Session Program × World σ :=
  let s := s.addRoot job.path
  match c.create s.roots s.options s.host w with
  | (.error e, w) => job.finish c (.error e) { s with stale := true } w
  | (.ok program, w) => (.analyzing program, s, w)

def begin (job : Job) (s : Session Program) (w : World σ) :
    Stage Program × Session Program × World σ :=
  match job with
  | emit _ => job.finish c (.ok false) s w
  | job =>
    let s := job.note c s
    if s.knows job.path && !s.stale then (.asking, s, w) else job.create c s w

/-- What a job does up to the place where it is suspended next. -/
def resume (job : Job) :
    Stage Program → Session Program → World σ → Stage Program × Session Program × World σ
  | .waiting, s, w => job.begin c s w
  | .asking, s, w =>
    match c.inputsChanged s.program w with
    | (true, w) => job.create c s w
    | (false, w) => job.finish c (.ok false) s w
  | .analyzing program, s, w =>
    match c.analyze program w with
    | (.error e, w) => job.finish c (.error e) { s with stale := true } w
    | (.ok program, w) =>
      let s := s.install program
      job.finish c (.ok true) s (w.write [s.installed])
  | .done reply, s, w => (.done reply, s, w)

end

end Job

structure Shared (ι σ Program : Type) where
  session : Session Program
  world : World σ
  stage : ι → Job.Stage Program := fun _ => .waiting
  holder : Option ι := none
  served : List ι := []

namespace Shared

variable [DecidableEq ι]

/-- A job goes on if it has the lock, or gets it. -/
def proceeds (x : Shared ι σ Program) (i : ι) : Bool :=
  match x.holder with
  | some j => i = j
  | none => (x.stage i).isWaiting

/-- Lets a job go on to where it is suspended next; it gives the lock back when it is done. A job
that cannot go on stays where it is. -/
def poll (c : Compiler σ Program) (jobs : ι → Job) (x : Shared ι σ Program) (i : ι) :
    Shared ι σ Program :=
  if x.proceeds i then
    let (stage, session, world) := (jobs i).resume c (x.stage i) x.session x.world
    { session, world
      stage := fun j => if j = i then stage else x.stage j
      holder := if stage.isDone then none else some i
      served := if x.holder.isNone then x.served ++ [i] else x.served }
  else x

/-- Polls jobs one after another, in any order and as often as it may be. -/
def pollAll (c : Compiler σ Program) (jobs : ι → Job) (x : Shared ι σ Program) (schedule : List ι) :
    Shared ι σ Program :=
  schedule.foldl (poll c jobs) x

end Shared

namespace Session

/-- Compiles files at the same time: their jobs are polled in turn. A job has at most three steps,
so with three rounds for each of them all get done. -/
def compileAll (c : Compiler σ Program) (s : Session Program) (w : World σ) (paths : List Path) :
    List (Result Emitted) × Session Program × World σ :=
  let all := List.finRange paths.length
  let jobs (i : Fin paths.length) : Job := .compile (paths.get i)
  let rounds := (List.replicate (3 * paths.length) all).flatten
  let x := Shared.pollAll c jobs { session := s, world := w } rounds
  (all.filterMap fun i => (x.stage i).emitted?, x.session, x.world)

end Session

end LiveLoader
