/-
Who changes an entity, from where and when.
-/

namespace Dossier

/-- Where a change comes from. -/
inductive ChangeSource where
  | interactive
  | imported
  deriving DecidableEq

/-- The circumstances of a change. -/
structure AuditContext where
  user : String
  source : ChangeSource := .interactive
  /-- Milliseconds since 1970-01-01T00:00:00Z. -/
  timestamp : Int64

/-- The same circumstances with another source. -/
def AuditContext.withSource (ctx : AuditContext) (source : ChangeSource) : AuditContext :=
  { ctx with source }

end Dossier
