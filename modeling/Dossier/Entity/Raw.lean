/-
Raw values: anything, stored as it is and without an identifier.
-/
import Dossier.Entity.Basic
import Dossier.Value.Field

namespace Dossier

/-- Any value. -/
structure Raw where
  value : Value

instance : Stored Raw where
  collection := "raws"
  toValue := Raw.value
  ofValue? v := v.read?.map Raw.mk
  id? _ := none
  withId r _ := r

end Dossier
