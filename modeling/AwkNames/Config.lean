import AwkNames.Special

/-!
# Resolver settings

The limit on kind-inference passes, and which names are special variables (with their fixed
slots).
-/

namespace AwkNames

/-- The number of kind-inference passes allowed by default. -/
def defaultMaxPasses : Nat := 10000

/-- Settings of a resolver. -/
structure Config where
  /-- The number of kind-inference passes allowed before giving up. -/
  maxPasses : Nat := defaultMaxPasses
  /-- The fixed slot of each special variable, `0` for every other name. -/
  specialSlot : String → Nat := Special.slot

instance : Inhabited Config := ⟨{}⟩

end AwkNames
