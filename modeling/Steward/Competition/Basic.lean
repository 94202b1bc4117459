import Steward.Competition.Criteria
import Steward.Competition.Dates

/-!
# Competitions

A competition of one server, and where it stands at an instant: a draft before its start, active up
to its end, ended after it, or cancelled.
-/

namespace Steward

open Time

/-- Who may join a competition. -/
inductive Visibility where
  | open'
  | inviteOnly
  | serverWide
deriving DecidableEq, Repr

namespace Visibility

/-- The stored name. -/
def name : Visibility → String
  | open' => "OPEN"
  | inviteOnly => "INVITE_ONLY"
  | serverWide => "SERVER_WIDE"

/-- The visibility of a stored name. -/
def read? : String → Option Visibility
  | "OPEN" => some open'
  | "INVITE_ONLY" => some inviteOnly
  | "SERVER_WIDE" => some serverWide
  | _ => none

/-- The text shown for a name that no visibility has. -/
def unknown (name : String) : String := "Invalid visibility: " ++ name

instance : Json.Encode Visibility := ⟨fun v => .text v.name⟩

@[simp] theorem read?_name (v : Visibility) : read? v.name = some v := by cases v <;> rfl

end Visibility

/-- Where a competition stands. -/
inductive Stage where
  | draft
  | active
  | ended
  | cancelled
deriving DecidableEq, Repr

namespace Stage

/-- The stored name. -/
def name : Stage → String
  | draft => "DRAFT"
  | active => "ACTIVE"
  | ended => "ENDED"
  | cancelled => "CANCELLED"

/-- Whether a competition at this stage still takes changes. -/
def isOpen : Stage → Bool
  | draft | active => true
  | ended | cancelled => false

end Stage

/-- What the maker of a competition chooses. -/
structure Competition.Draft where
  server : Snowflake
  owner : Snowflake
  channel : Snowflake
  title : String
  description : String
  visibility : Visibility
  criteria : Criteria
  maxParticipants : Int
  dates : Dates
deriving DecidableEq

/-- A stored competition. -/
structure Competition extends Competition.Draft where
  id : Int
  isCancelled : Bool
  createdAt : Instant
  updatedAt : Instant
deriving DecidableEq

namespace Competition

/-- The competition that is made of a draft. -/
def Draft.toCompetition (d : Draft) (id : Int) (now : Instant) : Competition :=
  { d with id, isCancelled := false, createdAt := now, updatedAt := now }

/-- Where the competition stands at an instant. One of an unknown season counts as active. -/
def stageAt (c : Competition) (calendar : Calendar) (now : Instant) : Stage :=
  if c.isCancelled then .cancelled
  else
    match c.dates.resolve? calendar with
    | some (start, finish) =>
      if now < start then .draft else if finish < now then .ended else .active
    | none => .active

/-- Whether the end has passed. -/
def hasEnded (c : Competition) (calendar : Calendar) (now : Instant) : Bool :=
  match c.dates.resolve? calendar with
  | some (_, finish) => finish < now
  | none => false

/-- Whether a user owns the competition. -/
def isOwner (c : Competition) (user : Snowflake) : Bool := c.owner = user

/-- The competition, cancelled. -/
def cancel (c : Competition) (now : Instant) : Competition :=
  { c with isCancelled := true, updatedAt := now }

/-- The competition with other dates. -/
def setDates (c : Competition) (dates : Dates) (now : Instant) : Competition :=
  { c with dates, updatedAt := now }

/-- Reads a competition. -/
def decode : Json.Decoder Competition :=
  (build <$> .required "id" Json.Decoder.int32 <*> .required "server_id" Json.Decoder.snowflake <*>
    .required "owner_id" Json.Decoder.snowflake <*>
    .required "channel_id" Json.Decoder.snowflake <*>
    .required "title" Json.Decoder.string <*> .required "description" Json.Decoder.string <*>
    .required "visibility" (Json.Decoder.name Visibility.read?) <*>
    .required "criteria" Criteria.decode <*> .required "max_participants" Json.Decoder.int32 <*>
    .required "dates" Dates.decode <*> .required "is_cancelled" Json.Decoder.flag <*>
    .required "created_at" Json.Decoder.instant <*> .required "updated_at" Json.Decoder.instant :
    Json.Fields _).read
where
  /-- The competition of its fields in document order. -/
  build (id : Int) (server owner channel : Snowflake) (title description : String)
      (visibility : Visibility) (criteria : Criteria) (maxParticipants : Int) (dates : Dates)
      (isCancelled : Bool) (createdAt updatedAt : Instant) : Competition :=
    { server, owner, channel, title, description, visibility, criteria, maxParticipants, dates, id,
      isCancelled, createdAt, updatedAt }

/-- The document of a competition. -/
def toJson (c : Competition) : Json :=
  .object [("id", .int c.id), ("server_id", .text c.server.text), ("owner_id", .text c.owner.text),
    ("channel_id", .text c.channel.text), ("title", .text c.title),
    ("description", .text c.description), ("visibility", .text c.visibility.name),
    ("criteria", c.criteria.toJson), ("max_participants", .int c.maxParticipants),
    ("dates", c.dates.toJson), ("is_cancelled", .bool c.isCancelled),
    ("created_at", .text c.createdAt.stamp), ("updated_at", .text c.updatedAt.stamp)]

instance : Json.Encode Competition := ⟨toJson⟩

end Competition

end Steward
