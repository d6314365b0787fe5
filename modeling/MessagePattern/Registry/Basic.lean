import MessagePattern.Registry.Matcher
import MessagePattern.Text.Quoted

/-!
# Registries of type matchers

A registry is a table from the names of types to their matchers, in the order of
registration; a type that is registered again keeps its place. The type of plain
text may be registered like any other, but it is never *special*: text
parameters take text as it is and ask no matcher.
-/

namespace MessagePattern

/-- Matchers by the name of their type. -/
structure Registry where
  matchers : Table String Matcher

/-- An object without a matcher was to be registered for a type. -/
structure Registry.Rejected where
  type : String
  deriving DecidableEq, Repr

def Registry.Rejected.message (r : Registry.Rejected) : String :=
  "matcher for " ++ Text.quoted r.type ++ " must define match(text)"

namespace Registry

def empty : Registry := ⟨[]⟩

def builtin : Registry := ⟨Matcher.builtins⟩

/-- The matcher of a type, if a type is given and registered. -/
def matcher? (r : Registry) (type : Option String) : Option Matcher :=
  type.bind r.matchers.get?

/-- Whether a type is registered and is not plain text. -/
def isSpecial (r : Registry) (type : Option String) : Bool :=
  match type with
  | some type => type ≠ textKind && r.matchers.has type
  | none => false

/-- Registers what is offered for a type; an offer without a matcher is
rejected. -/
def register (r : Registry) (type : String) (offer : Option Matcher) : Except Rejected Registry :=
  match offer with
  | some matcher => .ok ⟨r.matchers.set type matcher⟩
  | none => .error ⟨type⟩

def unregister (r : Registry) (type : String) : Registry :=
  ⟨r.matchers.erase type⟩

def types (r : Registry) : List String :=
  r.matchers.keys

theorem matcher?_unregister (r : Registry) (type other : String) :
    (r.unregister type).matcher? (some other) =
      if type = other then none else r.matcher? (some other) :=
  Table.get?_erase r.matchers type other

theorem types_unregister (r : Registry) (type : String) :
    (r.unregister type).types = r.types.filter (· ≠ type) :=
  Table.keys_erase r.matchers type

end Registry

end MessagePattern
