import Steward.Competition.Basic
import Steward.Cooldown
import Steward.Player
import Steward.Refusal

/-!
# The store

The tables of competitions, participants, players and grants, and the recorded creations. Each
operation here is one step: it sees and changes the store at one moment.
-/

namespace Steward

open Time

/-- The tables. Competitions and players stand in the order of their identifiers, grants in that in
which a map happens to have them. -/
structure Store where
  competitions : List Competition
  /-- The identifier of the last competition, a counter of 32 bits. -/
  lastId : Int32
  participants : List Participant
  players : List Player
  grants : List Grant
  cooldowns : Cooldowns
deriving DecidableEq

namespace Store

/-- The store without rows. -/
def empty : Store := ⟨[], 0, [], [], [], .empty⟩

/-- A table in the order of its identifiers, with a row put in. It takes the place of a row that has
its identifier. -/
def putRow {α : Type} (id : α → Int) (rows : List α) (r : α) : List α :=
  rows.filter (id · < id r) ++ r :: rows.filter (id r < id ·)

/-! ## Competitions -/

/-- The competition of an identifier. -/
def competition? (s : Store) (id : Int) : Option Competition := s.competitions.find? (·.id = id)

/-- Whether `a` was created after `b`, the higher identifier deciding at one instant. -/
def newer (a b : Competition) : Bool :=
  b.createdAt < a.createdAt || a.createdAt = b.createdAt && b.id ≤ a.id

/-- The competitions of a server, newest first. -/
def competitionsOf (s : Store) (server : Snowflake) : List Competition :=
  (s.competitions.filter (·.server = server)).mergeSort newer

/-- The identifier of the next competition. The counter wraps: after the last of its numbers comes
the lowest. -/
def nextId (s : Store) : Int := (s.lastId + 1).toInt

/-- The store with a competition made of a draft, under the next identifier. -/
def addCompetition (s : Store) (d : Competition.Draft) (now : Instant) : Competition × Store :=
  let c := d.toCompetition s.nextId now
  (c, { s with competitions := putRow Competition.id s.competitions c, lastId := s.lastId + 1 })

/-- The stored row with what may change taken from another. -/
def mergeCompetition (stored c : Competition) : Competition :=
  { stored with isCancelled := c.isCancelled, dates := c.dates, updatedAt := c.updatedAt }

/-- The store with what may change of a competition written to its row. -/
def writeCompetition (s : Store) (c : Competition) : Except Refusal Store :=
  if (s.competition? c.id).isNone then .error (.competitionNotFound c.id)
  else
    .ok { s with
      competitions := s.competitions.map fun r => if r.id = c.id then mergeCompetition r c else r }

/-! ## Participants -/

/-- Whether a participant is the given player's in the given competition. -/
def isRow (competition player : Int) (p : Participant) : Bool :=
  p.competition = competition && p.player = player

/-- The participant of a competition and a player. -/
def participant? (s : Store) (competition player : Int) : Option Participant :=
  s.participants.find? (isRow competition player)

/-- The instant by which participants are listed. -/
def listedAt (p : Participant) : Option Instant := p.joinedAt.or p.invitedAt

/-- Whether `a` is listed no later than `b`: by instant, those without one first, then by player. -/
def listedBefore (a b : Participant) : Bool :=
  match listedAt a, listedAt b with
  | none, some _ => true
  | some _, none => false
  | none, none => a.player ≤ b.player
  | some x, some y => x < y || x = y && a.player ≤ b.player

/-- The participants of a competition, in listing order. -/
def participantsOf (s : Store) (competition : Int) : List Participant :=
  (s.participants.filter (·.competition = competition)).mergeSort listedBefore

/-- How many places of a competition are taken. -/
def countActive (s : Store) (competition : Int) : Nat :=
  s.participants.countP fun p => p.competition = competition && p.isActive

/-- The store with a new participant. -/
def addParticipant (s : Store) (p : Participant) : Except Refusal Store :=
  if (s.participant? p.competition p.player).isSome then .error .alreadyParticipant
  else .ok { s with participants := s.participants ++ [p] }

/-- The store with a participant put in place of its row. -/
def writeParticipant (s : Store) (p : Participant) : Except Refusal Store :=
  if (s.participant? p.competition p.player).isNone then
    .error (.participantNotFound p.competition p.player)
  else
    .ok { s with
      participants := s.participants.map fun r => if isRow p.competition p.player r then p else r }

/-! ## Players -/

/-- The player of an identifier. -/
def player? (s : Store) (id : Int) : Option Player := s.players.find? (·.id = id)

/-- The player of a server who is linked to an account. -/
def playerOfAccount? (s : Store) (server account : Snowflake) : Option Player :=
  s.players.find? fun p => p.server = server && p.isLinkedTo account

/-- The players of a server, by nickname. -/
def playersOf (s : Store) (server : Snowflake) : List Player :=
  (s.players.filter (·.server = server)).mergeSort fun a b => a.nickname ≤ b.nickname

/-- The refusal of a second player for one account. -/
def accountTaken : Refusal :=
  .validation "Discord account is already linked to a player in this server"

/-- The identifier of the next player, which is after the last. It wraps as well. -/
def nextPlayerId (s : Store) : Int :=
  match s.players.getLast? with
  | some last => (Int32.ofInt last.id + 1).toInt
  | none => 1

/-- The store with a new player, under the next identifier. -/
def addPlayer (s : Store) (server : Snowflake) (nickname : String) (account : Option Snowflake)
    (now : Instant) : Except Refusal (Player × Store) :=
  if account.any fun a => (s.playerOfAccount? server a).isSome then .error accountTaken
  else
    let p : Player := ⟨s.nextPlayerId, server, nickname, account, now⟩
    .ok (p, { s with players := putRow Player.id s.players p })

/-! ## Grants -/

/-- Whether a grant is that of the given permission to the given user in the given server. -/
def isGrant (server user : Snowflake) (permission : Permission) (g : Grant) : Bool :=
  g.server = server && g.user = user && g.permission = permission

/-- The grant of a permission to a user in a server. -/
def grant? (s : Store) (server user : Snowflake) (permission : Permission) : Option Grant :=
  s.grants.find? (isGrant server user permission)

/-- Whether `a` is listed no later than `b`. -/
def grantedBefore (a b : Grant) : Bool := a.grantedAt ≤ b.grantedAt

/-- The grants of a server, oldest first, those of one instant in the order that the table has them
in. -/
def grantsOf (s : Store) (server : Snowflake) : List Grant :=
  (s.grants.filter (·.server = server)).mergeSort grantedBefore

/-- The stored grant and the store with it; a grant that exists already stays. -/
def addGrant (s : Store) (g : Grant) : Grant × Store :=
  match s.grant? g.server g.user g.permission with
  | some stored => (stored, s)
  | none => (g, { s with grants := s.grants ++ [g] })

/-- Whether there was such a grant, and the store without it. -/
def removeGrant (s : Store) (server user : Snowflake) (permission : Permission) : Bool × Store :=
  ((s.grant? server user permission).isSome,
    { s with grants := s.grants.filter fun g => !isGrant server user permission g })

end Store

end Steward
