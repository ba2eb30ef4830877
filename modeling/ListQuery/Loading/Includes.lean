import ListQuery.Loading.Audit

/-!
# Loading includes

The related rows of all include paths and of every step on the way to them. Audit trails have a way
of their own; relations that are joined into the query of the rows are there already.
-/

namespace ListQuery.Loading

variable {σ : Type} (db : Database σ) (schema : Schema)

/-- The related rows by path for the rows of the given keys. -/
def includes (e : Entity) (ids : Value) (paths : List String) : Session σ Included := do
  let wanted := (relationPaths paths).filter (!e.joinsEagerly ·)
  if ids.isVoid || wanted.isEmpty then pure []
  else
    let trails := wanted.filter Audit.handles
    let others := wanted.filter (!Audit.handles ·)
    let audited ← if trails.isEmpty then pure []
      else Audit.paths db e.table e.primaryKey ids trails
    let related ← if others.isEmpty then pure [] else Loading.paths db schema e ids others
    pure (related.foldl (fun m p => m.put p.1 p.2) audited)

end ListQuery.Loading
