/-
A repository manages the entities of one type: its configuration, the properties that patches may
name, and the look-ups that all operations share.
-/
import Dossier.Audit.Record
import Dossier.Entity.Registry
import Dossier.Entity.Set
import Dossier.Filter.Request
import Dossier.Query.Inspect

namespace Dossier

/-- A repository of entities of the type `E`. -/
structure Repository (E : Type) where
  config : Config := {}
  registry : Registry E

namespace Repository

variable {E : Type} [Entity E]

/-- The entities of the repository. -/
def entities (_ : Repository E) : DocumentSet E := DocumentSet.own E

/-- The change records of the repository. -/
def auditLog (r : Repository E) : DocumentSet ChangeRecord := ⟨r.config.auditCollection⟩

/-- How versions of entities are compared. -/
def differ (r : Repository E) : Differ := Differ.ofConfig r.config

/-- The predicate of having an identifier. -/
def byId (r : Repository E) (id : Uuid) : Expr := .eq r.config.idField (.uuid id)

/-- There is no such entity. -/
def missing (_ : Repository E) (key : String) : Fault := .notFound key (Stored.collection E)

/-- What was found, or the fault that it is missing under a key. -/
def orMissing (r : Repository E) (key : String) (found : Except Fault (Option E)) :
    Except Fault E :=
  match found with
  | .ok (some e) => .ok e
  | .ok none => .error (r.missing key)
  | .error fault => .error fault

/-! ## Reading -/

def getById (r : Repository E) (id : Uuid) : Action E :=
  Action.read fun s => r.orMissing id.text (r.entities.get? id s)

def getBySlug (r : Repository E) (slug : String) : Action E :=
  Action.read fun s =>
    r.orMissing ("with slug " ++ slug) (r.entities.find? (.eq r.config.slugField (.string slug)) s)

/-- The first entity that satisfies a predicate. -/
def getByFilter (r : Repository E) (filter : Expr) : Action E :=
  Action.read fun s => r.orMissing ("matching " ++ filter.inspect) (r.entities.find? filter s)

/-- One page of the entities that satisfy a request. -/
def findPage (r : Repository E) (request : FilterRequest) : Action (Page E) :=
  Action.read fun s => do
    let (compiled, page) ← r.config.compileRequest request
    r.entities.findPage compiled.filter compiled.sort page s

/-- One page of the entities that satisfy a request and are marked active. -/
def findActivePage (r : Repository E) (request : FilterRequest) : Action (Page E) :=
  Action.read fun s => do
    let (compiled, page) ← r.config.compileRequest request
    let filter := compiled.filter.andAlso (.eq r.config.activeField (.boolean true))
    r.entities.findPage filter compiled.sort page s

/-- The query for the change records of an entity, by time. -/
def historyQuery (E : Type) [Entity E] (id : Uuid) : Query where
  filter := some <| .and
    [.eq "entity_collection" (.string (Stored.collection E)), .eq "entity_id" (.uuid id)]
  sort := [⟨"changed_at", .ascending⟩]

/-- The change records of an entity, by time. -/
def history (r : Repository E) (id : Uuid) : Action (List ChangeRecord) :=
  Action.read (r.auditLog.query (historyQuery E id))

/-! ## Recording changes -/

/-- One record for each change of an entity. -/
def updateRecords (_ : Repository E) (id : Uuid) (slug : Option String)
    (changes : List PropertyChange) (ctx : AuditContext) : List ChangeRecord :=
  changes.map fun change => .ofProperty (Stored.collection E) id slug .update change ctx

/-- Gives each record an identifier. -/
def numberRecords : List ChangeRecord → Action (List ChangeRecord)
  | [] => pure []
  | record :: rest => do
    let id ← Action.freshId
    let more ← numberRecords rest
    return { record with id := some id } :: more

/-- Appends records to the log. -/
def record (r : Repository E) (records : List ChangeRecord) : Action Unit := do
  if records.isEmpty then return
  let numbered ← numberRecords records
  r.auditLog.insert numbered

/-- Appends records to the log if the entity they are about is active. -/
def recordIfActive (r : Repository E) (e : E) (records : List ChangeRecord) : Action Unit :=
  if Entity.isActive e then r.record records else pure ()

/-- The changes between two versions, of all properties or of some. -/
def changes (r : Repository E) (old new : E) (only : Option (List String)) :
    Except Fault (List PropertyChange) := do
  let before ← Stored.toDocument old
  let after ← Stored.toDocument new
  r.differ.diffDocuments before after only

/-- The records of the differences between two versions, not yet in the log. -/
def diff (r : Repository E) (old new : E) (ctx : AuditContext) :
    Except Fault (List ChangeRecord) := do
  let id ← Stored.requireId "diff" old
  let changes ← r.changes old new none
  return r.updateRecords id (Entity.slug? old) changes ctx

end Repository

end Dossier
