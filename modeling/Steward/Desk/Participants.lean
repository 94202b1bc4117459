import Steward.Desk.Competitions

/-!
# Participant calls

Joining, inviting and leaving. The same rules stand behind the preview of a join and the join
itself.
-/

namespace Steward.Desk

open Call Time

/-- Checks that a competition still takes changes. -/
def checkOpen (d : Desk) (c : Competition) (now : Instant) : Except Refusal Unit :=
  if c.isCancelled then .error (.cancelled c.id)
  else if c.hasEnded d.calendar now then .error (.ended c.id)
  else .ok ()

/-- Checks now that a competition still takes changes. The clock is read only where it matters. -/
def openNow (d : Desk) (c : Competition) : Call (Except Refusal Unit) := do
  if c.isCancelled then return .error (.cancelled c.id)
  let now ← perform .now
  return checkOpen d c now

/-- Checks now that a player exists. -/
def ensurePlayer (player : Int) : Call Unit := do
  match ← perform (.player? player) with
  | some _ => return ()
  | none => refuse (.playerNotFound player)

/-- Checks that a place is free where `active` are taken. -/
def checkPlaces (c : Competition) (active : Nat) : Except Refusal Unit :=
  if c.maxParticipants ≤ active then .error (.full c.maxParticipants) else .ok ()

/-- Checks now that a place is free. -/
def placesNow (c : Competition) : Call (Except Refusal Unit) := do
  let active ← perform (.countActive c.id)
  return checkPlaces c active

/-- The refusal of adding a player who has a row already. -/
def secondRow (existing : Standing) (wanted : Standing) : Refusal :=
  match existing, wanted with
  | .left, _ => .cannotRejoin
  | .invited, .invited => .alreadyInvited
  | _, _ => .alreadyParticipant

/-- Checks now that a player has no row yet. -/
def ensureNew (competition player : Int) (wanted : Standing) : Call Unit := do
  match ← perform (.participant? competition player) with
  | some existing => refuse (secondRow existing.standing wanted)
  | none => return ()

/-- The row of a player who joins or is invited now. -/
def newRow (competition player : Int) (standing : Standing) (invitedBy : Option Snowflake) :
    Call Participant :=
  match standing with
  | .joined => do
    let now ← perform .now
    return Participant.join competition player now
  | .invited => do
    let now ← perform .now
    return Participant.invite competition player invitedBy now
  | .left => throw (.validation "A participant cannot be added as LEFT")

/-- Adds a player with a standing, whatever the visibility. -/
def addParticipant (d : Desk) (competition player : Int) (standing : Standing)
    (invitedBy : Option Snowflake) : Call Participant := do
  let c ← competitionEntity competition
  check (← openNow d c)
  ensurePlayer player
  let p ← newRow competition player standing invitedBy
  ensureNew competition player standing
  check (← placesNow c)
  check (← perform (.addParticipant p))
  return p

/-- Invites a player. -/
def inviteParticipant (d : Desk) (competition player : Int) (inviter : Snowflake) :
    Call Participant :=
  addParticipant d competition player .invited (some inviter)

/-- Writes a participant's move, unless it is illegal. -/
def writeMove (move : Except Participant.IllegalMove Participant) : Call Participant :=
  match move with
  | .error m => refuse (.ofIllegalMove m)
  | .ok p => do
    check (← perform (.writeParticipant p))
    return p

/-- Accepts an invitation. -/
def acceptInvitation (d : Desk) (competition player : Int) : Call Participant := do
  let c ← competitionEntity competition
  check (← openNow d c)
  match ← perform (.participant? competition player) with
  | some p =>
    if p.standing = .invited then do
      let now ← perform .now
      writeMove (p.accept now)
    else refuse .notInvited
  | none => refuse .notInvited

/-- Takes a player out of a competition for good. -/
def removeParticipant (competition player : Int) : Call Participant := do
  match ← perform (.participant? competition player) with
  | some p => do
    let now ← perform .now
    writeMove (p.leave now)
  | none => refuse (.participantNotFound competition player)

/-- The first rule that keeps a player from joining, given the player's row if there is one. An
invited player has a place already. -/
def joinBlocker (d : Desk) (c : Competition) (existing : Option Participant) :
    Call (Option Refusal) := do
  match ← openNow d c with
  | .error e => return some e
  | .ok () =>
    match existing.map Participant.standing with
    | some .joined => return some .alreadyParticipant
    | some .left => return some .cannotRejoin
    | some .invited => return none
    | none =>
      if c.visibility = .inviteOnly then return some (.inviteOnly c.id)
      match ← placesNow c with
      | .error e => return some e
      | .ok () => return none

/-- Whether a player may join now, with the reason where not. -/
def canJoin (d : Desk) (competition player : Int) : Call JoinPreview := do
  match ← perform (.competition? competition) with
  | none => return ⟨some (Refusal.competitionNotFound competition).message⟩
  | some c =>
    match ← perform (.player? player) with
    | none => return ⟨some (Refusal.playerNotFound player).message⟩
    | some _ =>
      let existing ← perform (.participant? competition player)
      let blocker ← joinBlocker d c existing
      return ⟨blocker.map (·.message)⟩

/-- Joins: accepts an invitation or adds a row. -/
def join (d : Desk) (competition player : Int) : Call Participant := do
  let c ← competitionEntity competition
  ensurePlayer player
  let existing ← perform (.participant? competition player)
  match ← joinBlocker d c existing with
  | some e => refuse e
  | none => pure ()
  let now ← perform .now
  match existing with
  | some p => writeMove (p.accept now)
  | none => do
    let p := Participant.join competition player now
    check (← perform (.addParticipant p))
    return p

/-- Looks up the player of each participant and gives its view. -/
def viewParticipants : List Participant → Call (List ParticipantView)
  | [] => return []
  | p :: rest => do
    let player ← perform (.player? p.player)
    let more ← viewParticipants rest
    return ParticipantView.of p player :: more

/-- The participants of a competition, oldest first, with or without those who left. -/
def listParticipants (competition : Int) (includeLeft : Bool) :
    Call (List ParticipantView) := do
  let _ ← competitionEntity competition
  let all ← perform (.participantsOf competition)
  viewParticipants (all.filter fun p => includeLeft || p.isActive)

/-- How many places of a competition are taken. -/
def activeCount (competition : Int) : Call Nat := perform (.countActive competition)

end Steward.Desk
