import Steward.Json.Record

/-!
# Players

The people whose games a server follows, each linked to at most one account.
-/

namespace Steward

open Time

/-- A followed person. -/
structure Player where
  id : Int
  server : Snowflake
  nickname : String
  account : Option Snowflake
  createdAt : Instant
deriving DecidableEq

namespace Player

/-- The name shown in lists. -/
def displayName (p : Player) : String := p.nickname

/-- Whether the player is linked to an account. -/
def isLinkedTo (p : Player) (user : Snowflake) : Bool := p.account = some user

/-- Reads a player. -/
def decode : Json.Decoder Player :=
  (mk <$> .required "id" Json.Decoder.int32 <*> .required "server_id" Json.Decoder.snowflake <*>
    .required "alias" Json.Decoder.string <*> .optional "discord_id" Json.Decoder.snowflake <*>
    .required "created_at" Json.Decoder.instant : Json.Fields _).read

/-- The document of a player. -/
def toJson (p : Player) : Json :=
  .object [("id", .int p.id), ("server_id", .text p.server.text), ("alias", .text p.nickname),
    ("discord_id", .ofOption (.text ·.text) p.account), ("created_at", .text p.createdAt.stamp)]

instance : Json.Encode Player := ⟨toJson⟩

end Player

end Steward
