import ListQuery.Loading.Relations

/-!
# Audit trails

Who created, updated or deleted a record, and where in the organization they stand. Each of these
paths is read in one statement that joins from the records outward, instead of step by step. A
record without an actor, or whose actor lacks the link that the path asks for, has no rows.
-/

namespace ListQuery.Audit

open Sql Text

/-- The relations to actors, with the columns that hold their keys. -/
def actorColumns : Entries String :=
  [("createdBy", "created_by_id"), ("updatedBy", "updated_by_id"), ("deletedBy", "deleted_by_id")]

/-- The links from an actor on, in order. -/
def chain : List String := ["organizations", "position", "level"]

/-- Whether a path is an actor followed by a part of the chain from its start. -/
def handles (path : String) : Bool :=
  match segments path with
  | []            => false
  | actor :: rest => (actorColumns.get? actor).isSome && rest == chain.take rest.length

/-- The label of the column that tells which record a row belongs to. -/
def recordId : String := "record_id"

def users : TableRef := ⟨"sys_users", some "u"⟩
def memberships : TableRef := ⟨"user_organizations", some "uo"⟩
def organizations : TableRef := ⟨"organizations", some "o"⟩
def positions : TableRef := ⟨"organization_positions", some "p"⟩
def levels : TableRef := ⟨"organization_position_levels", some "l"⟩

/-- A column of one of the tables by its alias. -/
def col (table name : String) : Column := Loading.plainColumn table name

def plain (table name : String) : Output := { column := col table name }

def labelled (table name label : String) : Output :=
  { column := col table name, label := some label }

def membershipJoin : Join :=
  { table := memberships, left := col "u" "id", right := col "uo" "user_id" }

def organizationJoin : Join :=
  { table := organizations, left := col "uo" "organization_id", right := col "o" "id" }

def positionJoin : Join :=
  { table := positions, left := col "uo" "organization_position_id", right := col "p" "id" }

def levelJoin : Join :=
  { table := levels, left := col "p" "organization_position_level_id", right := col "l" "id" }

/-- The joins from the actor on, and what is read, for a path of so many segments. -/
def link (depth : Nat) : List Join × List Output :=
  match depth with
  | 1 => ([], [plain "u" "id", plain "u" "name", plain "u" "email"])
  | 2 =>
    ([membershipJoin, organizationJoin],
      [labelled "o" "id" "org_id", labelled "o" "name" "org_name"])
  | 3 =>
    ([membershipJoin, positionJoin],
      [labelled "p" "id" "position_id", labelled "p" "name" "position_name"])
  | _ =>
    ([membershipJoin, organizationJoin, positionJoin, levelJoin],
      [labelled "u" "id" "user_id", labelled "u" "name" "user_name",
        labelled "u" "email" "user_email", labelled "o" "id" "org_id",
        labelled "o" "name" "org_name", labelled "p" "id" "position_id",
        labelled "p" "name" "position_name", labelled "l" "id" "level_id",
        labelled "l" "name" "level_name", labelled "l" "level" "level_order"])

/-- The column that a row has to have something in, by the number of segments. -/
def presentColumn (depth : Nat) : String :=
  match depth with
  | 1 => "id"
  | 2 => "org_id"
  | 3 => "position_id"
  | _ => "user_id"

/-- The statement that reads a path for the records whose keys are the members of a value. -/
def statement (table primaryKey path : String) (ids : Value) : Except Failure Statement :=
  match actorColumns.get? (rootOf path) with
  | none       => .error .missing
  | some actor =>
    let key := col table primaryKey
    let (joins, outputs) := link (depthOf path)
    let actorJoin : Join := { table := users, left := col table actor, right := col "u" "id" }
    ids.members.map fun keys =>
      { projection := .columns ({ column := key, label := some recordId } :: outputs)
        table := ⟨table, none⟩, joins := actorJoin :: joins
        conditions := [Loading.isAnyOf key keys] }

variable {σ : Type} (db : Database σ)

/-- One path for the records of the given keys. -/
def path (table primaryKey : String) (ids : Value) (p : String) : Session σ Grouped := do
  let s ← Database.pureStep (statement table primaryKey p ids)
  let rows ← db.readRows s
  Database.pureStep (Grouped.ofRows recordId (some (presentColumn (depthOf p))) rows)

/-- The paths that are audit trails; the others are passed over. -/
def paths (table primaryKey : String) (ids : Value) (ps : List String) : Session σ Included :=
  if ids.isVoid then pure []
  else
    (ps.filter handles).foldlM
      (fun loaded p => do pure (loaded.put p (← path db table primaryKey ids p))) []

end ListQuery.Audit
