import Steward.Json.Record

/-!
# Participants

A player's part in a competition: invited, joined, or left for good.
-/

namespace Steward

open Time

/-- How a player takes part in a competition. -/
inductive Standing where
  | joined
  | invited
  | left
deriving DecidableEq, Repr

namespace Standing

/-- The stored name. -/
def name : Standing → String
  | joined => "JOINED"
  | invited => "INVITED"
  | left => "LEFT"

/-- The standing of a stored name. -/
def read? : String → Option Standing
  | "JOINED" => some joined
  | "INVITED" => some invited
  | "LEFT" => some left
  | _ => none

/-- The text shown for a name that no standing has. -/
def unknown (name : String) : String := "Invalid participant status: " ++ name

@[simp] theorem read?_name (s : Standing) : read? s.name = some s := by cases s <;> rfl

/-- Whether a participant of this standing takes up a place. -/
def isActive : Standing → Bool
  | joined | invited => true
  | left => false

/-- Whether a participant may go over to `next`. -/
def mayBecome : Standing → (next : Standing) → Bool
  | invited, joined | invited, left | joined, left => true
  | _, _ => false

end Standing

/-- A player's part in a competition. -/
structure Participant where
  competition : Int
  player : Int
  standing : Standing
  invitedBy : Option Snowflake
  invitedAt : Option Instant
  joinedAt : Option Instant
  leftAt : Option Instant
deriving DecidableEq

namespace Participant

/-- A move that a participant's standing does not allow. -/
structure IllegalMove where
  source : Standing
  target : Standing
deriving DecidableEq, Repr

/-- A player who joined without an invitation. -/
def join (competition player : Int) (now : Instant) : Participant :=
  ⟨competition, player, .joined, none, none, some now, none⟩

/-- A player who was invited. -/
def invite (competition player : Int) (invitedBy : Option Snowflake) (now : Instant) :
    Participant :=
  ⟨competition, player, .invited, invitedBy, some now, none, none⟩

/-- Whether the participant takes up a place. -/
def isActive (p : Participant) : Bool := p.standing.isActive

/-- The participant after accepting an invitation. -/
def accept (p : Participant) (now : Instant) : Except IllegalMove Participant :=
  if p.standing.mayBecome .joined then .ok { p with standing := .joined, joinedAt := some now }
  else .error ⟨p.standing, .joined⟩

/-- The participant after leaving. -/
def leave (p : Participant) (now : Instant) : Except IllegalMove Participant :=
  if p.standing.mayBecome .left then .ok { p with standing := .left, leftAt := some now }
  else .error ⟨p.standing, .left⟩

/-- Reads a participant. -/
def decode : Json.Decoder Participant :=
  (mk <$> .required "competition_id" Json.Decoder.int32 <*>
    .required "player_id" Json.Decoder.int32 <*>
    .required "status" (Json.Decoder.name Standing.read?) <*>
    .optional "invited_by" Json.Decoder.snowflake <*>
    .optional "invited_at" Json.Decoder.instant <*>
    .optional "joined_at" Json.Decoder.instant <*> .optional "left_at" Json.Decoder.instant :
    Json.Fields _).read

/-- The document of a participant. -/
def toJson (p : Participant) : Json :=
  .object [("competition_id", .int p.competition), ("player_id", .int p.player),
    ("status", .text p.standing.name), ("invited_by", .ofOption (.text ·.text) p.invitedBy),
    ("invited_at", .ofOption (.text ·.stamp) p.invitedAt),
    ("joined_at", .ofOption (.text ·.stamp) p.joinedAt),
    ("left_at", .ofOption (.text ·.stamp) p.leftAt)]

instance : Json.Encode Participant := ⟨toJson⟩

end Participant

end Steward
