import MessagePattern.Registry.Basic

/-!
# Registries by name

A host may keep several registries. One of them is shared by all who bring none of
their own: it stands in for every name that is not taken. A copy starts with the
types of its model and goes its own way from then on.
-/

namespace MessagePattern

/-- Registries by name. -/
structure RegistryPool where
  registries : Table String Registry

namespace RegistryPool

def shared : String := "default"

/-- The shared registry alone, with the types known from the start. -/
def initial : RegistryPool := ⟨[(shared, .builtin)]⟩

def registry (p : RegistryPool) (name : String) : Registry :=
  ((p.registries.get? name).or (p.registries.get? shared)).getD .builtin

def put (p : RegistryPool) (name : String) (r : Registry) : RegistryPool :=
  ⟨p.registries.set name r⟩

def copy (p : RegistryPool) (name copyName : String) : RegistryPool :=
  p.put copyName (p.registry name)

/-- Registers what is offered for a type in the registry of a name. -/
def register (p : RegistryPool) (name type : String) (offer : Option Matcher) :
    Except Registry.Rejected RegistryPool :=
  ((p.registry name).register type offer).map (p.put name)

/-- Forgets a type in the registry of a name. -/
def unregister (p : RegistryPool) (name type : String) : RegistryPool :=
  p.put name ((p.registry name).unregister type)

/-- A change to one registry leaves the other names that are taken alone. -/
theorem registry_put_of_ne {p : RegistryPool} {name other : String} {r : Registry}
    (hne : name ≠ other) (htaken : (p.registries.get? other).isSome) :
    (p.put name r).registry other = p.registry other := by
  obtain ⟨s, hs⟩ := Option.isSome_iff_exists.mp htaken
  simp [registry, put, Table.get?_set, hne, hs]

end RegistryPool

end MessagePattern
