import CodeAudit.Analyzer.Basic
/-!
# Registries

A registry holds the analyzers that can run, under their names and in the order in which the names
were first registered.
-/
namespace CodeAudit

/-- Names and how the analyzers registered under them are built. -/
structure Registry where
  entries : List (String × Factory)

namespace Registry

def empty : Registry := ⟨[]⟩

/-- Replaces the factory of a name in its place, or adds the name at the end. -/
def enter (name : String) (factory : Factory) :
    List (String × Factory) → List (String × Factory)
  | [] => [(name, factory)]
  | (other, old) :: rest =>
    if other = name then (name, factory) :: rest else (other, old) :: enter name factory rest

/-- Registers a factory; a name that is registered already keeps its place. -/
def register (r : Registry) (name : String) (factory : Factory) : Registry :=
  ⟨enter name factory r.entries⟩

/-- The registry of the analyzers that come with the program. -/
def builtin : Registry :=
  empty.register MetricsAnalyzer.name MetricsAnalyzer.factory

/-- The registered names, in order. -/
def names (r : Registry) : List String :=
  r.entries.map Prod.fst

def contains (r : Registry) (name : String) : Bool :=
  r.entries.any (·.1 == name)

def size (r : Registry) : Nat :=
  r.entries.length

/-- The registry as a message shows it. -/
def describe (r : Registry) : String :=
  "PluginRegistry \x7b plugins: " ++ Text.quotedList r.names ++ " \x7d"

end Registry

end CodeAudit
