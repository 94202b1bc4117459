import Steward.Store.Basic

/-!
# Rows

The columns in which competitions, participants, players and grants are kept outside the program:
names as texts, criteria and dates as documents, identifiers as numbers. A row that was edited by
hand may hold values that mean nothing; reading it then names the first such column. The words in
which the reader of documents says why it takes none from a column are given by `explain`.

* `Competition.Columns.of`, `Participant.Columns.of`: the columns of a value.
* `Competition.Row.read`, `Participant.Row.read`: the value of a row.
-/

namespace Steward

open Time

/-- The refusal of a column's value. -/
def Refusal.corrupt (column detail : String) : Refusal :=
  .database ("Invalid value in column " ++ column ++ ": " ++ detail)

/-- A column with the name of an alternative. -/
def readNamed {α : Type} (column : String) (read? : String → Option α) (unknown : String → String)
    (value : String) : Except Refusal α :=
  match read? value with
  | some a => .ok a
  | none => .error (.corrupt column (unknown value))

/-- A column with a document. -/
def readDocument {α : Type} (explain : String → Json → String) (column : String)
    (decode : Json.Decoder α) (value : Json) : Except Refusal α :=
  match decode value with
  | .ok a => .ok a
  | .error _ => .error (.corrupt column (explain column value))

/-! ## Competitions -/

/-- The columns of a competition that its maker chooses. -/
structure Competition.Columns where
  server : Int
  owner : Int
  channel : Int
  title : String
  description : String
  visibility : String
  criteria : Json
  maxParticipants : Int
  dates : Json

/-- The columns of a draft. -/
def Competition.Columns.of (d : Competition.Draft) : Competition.Columns :=
  { server := d.server.value, owner := d.owner.value, channel := d.channel.value, title := d.title
    description := d.description, visibility := d.visibility.name, criteria := d.criteria.toJson
    maxParticipants := d.maxParticipants, dates := d.dates.toJson }

/-- The row of a competition. -/
structure Competition.Row extends Competition.Columns where
  id : Int
  isCancelled : Bool
  createdAt : Instant
  updatedAt : Instant

/-- The competition of a row. -/
def Competition.Row.read (explain : String → Json → String) (r : Competition.Row) :
    Except Refusal Competition := do
  let visibility ←
    readNamed "competitions.visibility" Visibility.read? Visibility.unknown r.visibility
  let criteria ← readDocument explain "competitions.criteria" Criteria.decode r.criteria
  let dates ← readDocument explain "competitions.dates" Dates.decode r.dates
  return { server := ⟨r.server⟩, owner := ⟨r.owner⟩, channel := ⟨r.channel⟩, title := r.title
           description := r.description, visibility, criteria
           maxParticipants := r.maxParticipants, dates, id := r.id, isCancelled := r.isCancelled
           createdAt := r.createdAt, updatedAt := r.updatedAt }

/-! ## Participants -/

/-- The columns of a participant that are written with it. -/
structure Participant.Columns where
  competition : Int
  player : Int
  standing : String
  invitedBy : Option Int
deriving DecidableEq

/-- The columns of a participant. -/
def Participant.Columns.of (p : Participant) : Participant.Columns :=
  ⟨p.competition, p.player, p.standing.name, p.invitedBy.map (·.value)⟩

/-- The row of a participant. -/
structure Participant.Row extends Participant.Columns where
  invitedAt : Option Instant
  joinedAt : Option Instant
  leftAt : Option Instant
deriving DecidableEq

/-- Whether a row counts as a place taken: every standing does but that of having left. -/
def Participant.Row.isActive (r : Participant.Row) : Bool := r.standing ≠ Standing.left.name

/-- The participant of a row. -/
def Participant.Row.read (r : Participant.Row) : Except Refusal Participant := do
  let standing ←
    readNamed "competition_participants.status" Standing.read? Standing.unknown r.standing
  return { competition := r.competition, player := r.player, standing
           invitedBy := r.invitedBy.map Snowflake.mk, invitedAt := r.invitedAt
           joinedAt := r.joinedAt, leftAt := r.leftAt }

/-! ## Grants and players -/

/-- The row of a grant. -/
structure Grant.Row where
  server : Int
  user : Int
  permission : String
  grantedBy : Int
  grantedAt : Instant
deriving DecidableEq

/-- The grant of a row. -/
def Grant.Row.read (r : Grant.Row) : Except Refusal Grant := do
  let permission ←
    readNamed "server_permissions.permission" Permission.read? Permission.unknown r.permission
  return ⟨⟨r.server⟩, ⟨r.user⟩, permission, ⟨r.grantedBy⟩, r.grantedAt⟩

/-- The row of a player. -/
structure Player.Row where
  id : Int
  server : Int
  nickname : String
  account : Option Int
  createdAt : Instant
deriving DecidableEq

/-- The player of a row. -/
def Player.Row.read (r : Player.Row) : Player :=
  ⟨r.id, ⟨r.server⟩, r.nickname, r.account.map Snowflake.mk, r.createdAt⟩

end Steward
