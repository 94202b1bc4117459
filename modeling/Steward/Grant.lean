import Steward.Json.Record

/-!
# Grants

Named permissions of users, each within one server.
-/

namespace Steward

open Time

/-- What a user may be allowed to do. -/
inductive Permission where
  | createCompetition
deriving DecidableEq, Repr

namespace Permission

/-- The stored name. -/
def name : Permission → String
  | createCompetition => "CREATE_COMPETITION"

/-- The permission of a stored name. -/
def read? : String → Option Permission
  | "CREATE_COMPETITION" => some createCompetition
  | _ => none

/-- The text shown for a name that no permission has. -/
def unknown (name : String) : String := "Unknown permission: " ++ name

@[simp] theorem read?_name (p : Permission) : read? p.name = some p := by cases p; rfl

end Permission

/-- A permission that a user holds within a server. -/
structure Grant where
  server : Snowflake
  user : Snowflake
  permission : Permission
  grantedBy : Snowflake
  grantedAt : Instant
deriving DecidableEq

namespace Grant

/-- Reads a grant. -/
def decode : Json.Decoder Grant :=
  (mk <$> .required "server_id" Json.Decoder.snowflake <*>
    .required "discord_user_id" Json.Decoder.snowflake <*>
    .required "permission" (Json.Decoder.name Permission.read?) <*>
    .required "granted_by" Json.Decoder.snowflake <*> .required "granted_at" Json.Decoder.instant :
    Json.Fields _).read

/-- The document of a grant. -/
def toJson (g : Grant) : Json :=
  .object [("server_id", .text g.server.text), ("discord_user_id", .text g.user.text),
    ("permission", .text g.permission.name), ("granted_by", .text g.grantedBy.text),
    ("granted_at", .text g.grantedAt.stamp)]

instance : Json.Encode Grant := ⟨toJson⟩

end Grant

end Steward
