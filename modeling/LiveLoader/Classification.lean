/-!
# Classifications

A module starts the application, declares a building block of the framework, or does neither.
-/

namespace LiveLoader

inductive Classification where
  | entryBootstrap
  | frameworkDecorated
  | plainModule
  deriving DecidableEq, Repr

namespace Classification

def name : Classification → String
  | entryBootstrap => "EntryBootstrap"
  | frameworkDecorated => "FrameworkDecorated"
  | plainModule => "PlainModule"

def ofName? (s : String) : Option Classification :=
  [entryBootstrap, frameworkDecorated, plainModule].find? (·.name = s)

end Classification

end LiveLoader
