/-
Customers: entities that are known by their email address.
-/
import Dossier.Entity.Registry
import Dossier.Text.Blank
import Dossier.Value.Field

namespace Dossier

/-- A customer. -/
structure Customer where
  id : Option Uuid := none
  slug : Option String := none
  sequence : Option Int64 := none
  name : String
  email : Option String := none
  city : Option String := none
  balance : Double
  active : Bool := true
  createdAt : Option Int64 := none
  createdBy : Option String := none
  modifiedAt : Option Int64 := none
  modifiedBy : Option String := none
  deriving DecidableEq

namespace Customer

/-- The stored form of a customer. -/
def toValue (c : Customer) : Value :=
  .document <|
    Field.written "id" (c.id.map .uuid) ++ Field.written "slug" (c.slug.map .string) ++
    Field.written "sequence" (c.sequence.map .int64) ++
    [("name", .string c.name), ("email", Value.ofOption (c.email.map .string)),
      ("city", Value.ofOption (c.city.map .string)), ("balance", .double c.balance),
      ("active", .boolean c.active), ("created_at", Value.ofOption (c.createdAt.map .dateTime)),
      ("created_by", Value.ofOption (c.createdBy.map .string)),
      ("modified_at", Value.ofOption (c.modifiedAt.map .dateTime)),
      ("modified_by", Value.ofOption (c.modifiedBy.map .string))]

/-- Reads a stored customer. -/
def ofValue? (v : Value) : Option Customer := do
  let doc ← v.entries?
  let id ← Field.optional Value.identifier? "id" doc
  let slug ← Field.optional Value.text? "slug" doc
  let sequence ← Field.optional Value.integer? "sequence" doc
  let name ← Field.required Value.text? "name" doc
  let email ← Field.optional Value.text? "email" doc
  let city ← Field.optional Value.text? "city" doc
  let balance ← Field.required Value.number? "balance" doc
  let active ← Field.required Value.boolean? "active" doc
  let createdAt ← Field.optional Value.instant? "created_at" doc
  let createdBy ← Field.optional Value.text? "created_by" doc
  let modifiedAt ← Field.optional Value.instant? "modified_at" doc
  let modifiedBy ← Field.optional Value.text? "modified_by" doc
  return { id, slug, sequence, name, email, city, balance, active, createdAt, createdBy, modifiedAt,
           modifiedBy }

/-- Notes the user and the time of a change, and of the creation when it is one. -/
def stamp (ctx : AuditContext) (created : Bool) (c : Customer) : Customer :=
  let c :=
    if created then { c with createdAt := some ctx.timestamp, createdBy := some ctx.user } else c
  { c with modifiedAt := some ctx.timestamp, modifiedBy := some ctx.user }

/-- The properties of a customer that may be patched. -/
def registry : Registry Customer :=
  .ofProperties
    [⟨"name", fun c => .string c.name, fun c t => { t with name := c.name }⟩,
      ⟨"email", fun c => Value.ofOption (c.email.map .string),
        fun c t => { t with email := c.email }⟩,
      ⟨"city", fun c => Value.ofOption (c.city.map .string), fun c t => { t with city := c.city }⟩,
      ⟨"balance", fun c => .double c.balance, fun c t => { t with balance := c.balance }⟩,
      ⟨"active", fun c => .boolean c.active, fun c t => { t with active := c.active }⟩]

end Customer

instance : Entity Customer where
  collection := "customers"
  toValue := Customer.toValue
  ofValue? := Customer.ofValue?
  id? := Customer.id
  withId c id := { c with id := some id }
  slug? := Customer.slug
  withSlug c slug sequence := { c with slug := some slug, sequence := some sequence }
  isActive := Customer.active
  stamp := Customer.stamp
  duplicateFilter? c := c.email.map fun email => .eq "email" (.string email)
  violation? c := if isBlankText c.name then some "customer name must not be blank" else none

end Dossier
