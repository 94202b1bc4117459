import Steward.Competition.Basic
import Steward.Player
import Steward.Participant

/-!
# Views

What users are shown of competitions and participants, and the answers to whether they may join or
create.
-/

namespace Steward

open Time

/-- A competition as shown to users. -/
structure CompetitionView where
  competition : Competition
  stage : Stage
  participantCount : Int
  startsAt : Option Instant
  endsAt : Option Instant
  season : Option String
deriving DecidableEq

namespace CompetitionView

/-- The view of a competition at an instant, with the number of places taken. -/
def of (calendar : Calendar) (now : Instant) (c : Competition) (count : Int) : CompetitionView :=
  let range := c.dates.resolve? calendar
  { competition := c
    stage := c.stageAt calendar now
    participantCount := count
    startsAt := range.map (·.1)
    endsAt := range.map (·.2)
    season := match c.dates with
      | .season id => some id
      | .fixed _ _ => none }

/-- The document of a view. -/
def toJson (v : CompetitionView) : Json :=
  let c := v.competition
  .object ([("id", .int c.id), ("server_id", .text c.server.text), ("owner_id", .text c.owner.text),
    ("channel_id", .text c.channel.text), ("title", .text c.title),
    ("description", .text c.description), ("visibility", .text c.visibility.name),
    ("criteria", c.criteria.toJson), ("status", .text v.stage.name),
    ("max_participants", .int c.maxParticipants), ("participant_count", .int v.participantCount)] ++
    Json.fieldOf "starts_at" v.startsAt ++
    Json.fieldOf "ends_at" v.endsAt ++
    Json.fieldOf "season_id" v.season ++
    [("created_at", .text c.createdAt.stamp)])

instance : Json.Encode CompetitionView := ⟨toJson⟩

end CompetitionView

/-- A participant as shown to users, with the player's nickname. -/
structure ParticipantView where
  participant : Participant
  nickname : Option String
deriving DecidableEq

namespace ParticipantView

/-- The view of a participant and its player, if there is one. -/
def of (p : Participant) (player : Option Player) : ParticipantView :=
  ⟨p, player.map (·.displayName)⟩

/-- The document of a view. -/
def toJson (v : ParticipantView) : Json :=
  let p := v.participant
  .object ([("player_id", .int p.player)] ++ Json.fieldOf "alias" v.nickname ++
    [("status", .text p.standing.name)] ++ Json.fieldOf "invited_by" p.invitedBy ++
    [("invited_at", .ofOption (.text ·.stamp) p.invitedAt),
      ("joined_at", .ofOption (.text ·.stamp) p.joinedAt),
      ("left_at", .ofOption (.text ·.stamp) p.leftAt)])

instance : Json.Encode ParticipantView := ⟨toJson⟩

end ParticipantView

/-- Whether a player may join; `none` where nothing speaks against it, else the reason. -/
structure JoinPreview where
  reason : Option String
deriving DecidableEq, Repr

namespace JoinPreview

/-- Whether the player may join. -/
def canJoin (p : JoinPreview) : Bool := p.reason.isNone

/-- The document of a preview. -/
def toJson (p : JoinPreview) : Json :=
  .object (("can_join", .bool p.canJoin) :: Json.fieldOf "reason" p.reason)

instance : Json.Encode JoinPreview := ⟨toJson⟩

end JoinPreview

/-- Whether a user may create a competition. -/
inductive CreationPreview where
  | allowed
  | denied (reason : String)
  | wait (reason : String) (retryAfter : Int)
deriving DecidableEq, Repr

namespace CreationPreview

/-- Whether the user may create a competition. -/
def canCreate : CreationPreview → Bool
  | allowed => true
  | denied _ | wait _ _ => false

/-- The document of a preview. -/
def toJson : CreationPreview → Json
  | allowed => .object [("can_create", .bool true)]
  | denied reason => .object [("can_create", .bool false), ("reason", .text reason)]
  | wait reason secs =>
    .object [("can_create", .bool false), ("reason", .text reason), ("retry_after_secs", .int secs)]

instance : Json.Encode CreationPreview := ⟨toJson⟩

end CreationPreview

end Steward
