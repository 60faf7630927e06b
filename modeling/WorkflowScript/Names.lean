/-!
# Name resolution

Target code may call a variable something else than its script does. A
`Resolver` says what is written for each name; it is a function, so the
same name always gives the same text. A `SymbolTable` is the resolver that
settings can describe: renames of single names, and a qualifier that is
put in front of all others.
-/

namespace WorkflowScript

/-- What target code calls each variable. -/
abbrev Resolver := String → String

namespace Resolver

/-- Every name stands for itself. -/
def verbatim : Resolver := fun name => name

/-- The names in `bound` stand for themselves, all others are resolved by
`outer`. -/
def within (outer : Resolver) (bound : List String) : Resolver := fun name =>
  if bound.contains name then name else outer name

end Resolver

/-- Renames of single names, and a qualifier for all others. -/
structure SymbolTable where
  symbols : List (String × String)
  qualifier : Option String
deriving Repr, DecidableEq

namespace SymbolTable

def empty : SymbolTable := ⟨[], none⟩

/-- The table with one rename more, which takes the place of an older one
for the same name. -/
def insert (t : SymbolTable) (name target : String) : SymbolTable :=
  { t with symbols := (name, target) :: t.symbols.filter (·.1 != name) }

def withQualifier (t : SymbolTable) (qualifier : String) : SymbolTable :=
  { t with qualifier := some qualifier }

def resolve (t : SymbolTable) : Resolver := fun name =>
  match t.symbols.lookup name with
  | some target => target
  | none => t.qualifier.getD "" ++ name

end SymbolTable

end WorkflowScript
