import Steward.Competition.Request
import Steward.Desk.Permissions

/-!
# Competition calls

Creating, showing, listing, cancelling and rescheduling competitions.
-/

namespace Steward.Desk

open Call Time

/-- Checks that dates are well formed and end after `now`. -/
def checkDates (d : Desk) (dates : Dates) (now : Instant) : Except Refusal Unit :=
  match dates.validate d.calendar with
  | .error f => .error (.dates f.message)
  | .ok () =>
    match dates.resolve? d.calendar with
    | some (_, finish) =>
      if finish ≤ now then .error (.dates "End date must be in the future") else .ok ()
    | none => .ok ()

/-- Checks that a user may manage a competition. -/
def checkManage (c : Competition) (user : Snowflake) (admin : Bool) : Except Refusal Unit :=
  if admin || c.isOwner user then .ok () else .error .notOwner

/-- The view of a competition now. -/
def viewNow (d : Desk) (c : Competition) : Call CompetitionView := do
  let count ← perform (.countActive c.id)
  let now ← perform .now
  return CompetitionView.of d.calendar now c (count : Nat)

/-- The competition of an identifier. -/
def competitionEntity (id : Int) : Call Competition := do
  match ← perform (.competition? id) with
  | some c => return c
  | none => throw (.notFound "Competition" (Text.decimalInt id))

/-- The view of the competition of an identifier. -/
def getCompetition (d : Desk) (id : Int) : Call CompetitionView := do
  let c ← competitionEntity id
  viewNow d c

/-- Checks a request against the limits of this desk and its own rules. -/
def checkRequest (d : Desk) (r : Request) : Except Setback Unit := do
  match r.validate with
  | .ok () => pure ()
  | .error faults => throw (.validation faults)
  if d.limits.maxParticipants < r.maxParticipants then
    throw (.validation
      ("Max participants cannot exceed " ++ Text.decimalInt d.limits.maxParticipants))
  match r.criteria.validate with
  | .ok () => pure ()
  | .error f => throw (.refusal (.criteria f.message))

/-- Checks that one more open competition of this owner fits beside the open ones of the server. -/
def checkRoom (d : Desk) (owner : Snowflake) (opened : List Competition) : Except Refusal Unit :=
  if d.limits.maxActive ≤ opened.length then .error (.tooManyActive d.limits.maxActive)
  else if opened.any (·.isOwner owner) then .error .ownerHasActive
  else .ok ()

/-- Creates a competition. -/
def createCompetition (d : Desk) (server owner : Snowflake) (admin : Bool) (r : Request) :
    Call CompetitionView := do
  match ← canCreateCompetition d server owner admin with
  | .allowed => pure ()
  | .wait _ secs => refuse (.rateLimited secs)
  | .denied _ => refuse (.missingPermission .createCompetition)
  ExceptT.mk (pure (checkRequest d r))
  let now ← perform .now
  check (checkDates d r.dates now)
  let all ← perform (.competitionsOf server)
  check (checkRoom d owner (all.filter fun c => (c.stageAt d.calendar now).isOpen))
  let c ← perform (.addCompetition (r.toDraft server owner))
  perform (.recordCreation (server, owner) c.createdAt (Cooldowns.retention d.cooldown))
  return CompetitionView.of d.calendar now c 0

/-- Counts the places taken of each competition and gives its view at `now`. -/
def viewEach (d : Desk) (now : Instant) : List Competition → Call (List CompetitionView)
  | [] => return []
  | c :: rest => do
    let count ← perform (.countActive c.id)
    let more ← viewEach d now rest
    return CompetitionView.of d.calendar now c (count : Nat) :: more

/-- The competitions of a server, newest first, or only the open ones. -/
def listCompetitions (d : Desk) (server : Snowflake) (openOnly : Bool) :
    Call (List CompetitionView) := do
  let now ← perform .now
  let all ← perform (.competitionsOf server)
  viewEach d now (all.filter fun c => !openOnly || (c.stageAt d.calendar now).isOpen)

/-- Cancels a competition. -/
def cancelCompetition (d : Desk) (id : Int) (user : Snowflake) (admin : Bool) :
    Call CompetitionView := do
  let c ← competitionEntity id
  check (checkManage c user admin)
  if c.isCancelled then refuse (.alreadyCancelled id)
  let now ← perform .now
  let c := c.cancel now
  check (← perform (.writeCompetition c))
  viewNow d c

/-- Gives an open competition other dates. -/
def updateDates (d : Desk) (id : Int) (user : Snowflake) (admin : Bool) (dates : Dates) :
    Call CompetitionView := do
  let c ← competitionEntity id
  check (checkManage c user admin)
  let now ← perform .now
  if c.isCancelled then refuse (.cancelled id)
  if c.hasEnded d.calendar now then refuse (.ended id)
  check (checkDates d dates now)
  let later ← perform .now
  let c := c.setDates dates later
  check (← perform (.writeCompetition c))
  viewNow d c

end Steward.Desk
