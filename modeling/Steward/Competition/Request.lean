import Steward.Competition.Basic
import Steward.Text.Blank

/-!
# Creation requests

What a user fills in to create a competition, and the limits on each field that hold in every
server. The first fault of each field is told, fields in the order of their names.
-/

namespace Steward

/-- A request to create a competition. -/
structure Request where
  channel : Snowflake
  title : String
  description : String
  visibility : Visibility
  criteria : Criteria
  maxParticipants : Int
  dates : Dates
deriving DecidableEq

namespace Request

/-- Reads a request. -/
def decode : Json.Decoder Request :=
  (mk <$> .required "channel_id" Json.Decoder.snowflake <*>
    .required "title" Json.Decoder.string <*>
    .defaulted "description" Json.Decoder.string "" <*>
    .required "visibility" (Json.Decoder.name Visibility.read?) <*>
    .required "criteria" Criteria.decode <*> .required "max_participants" Json.Decoder.int32 <*>
    .required "dates" Dates.decode : Json.Fields _).read

/-- The fault of a description. -/
def descriptionFault (s : String) : Option String :=
  if s.length ≤ 500 then none else some "Description must be at most 500 characters"

/-- The fault of a number of places. -/
def placesFault (n : Int) : Option String :=
  if 2 ≤ n then none else some "A competition needs at least 2 participants"

/-- The first fault of a title. -/
def titleFault (s : String) : Option String :=
  if s.length < 1 ∨ 100 < s.length then some "Title must be 1-100 characters"
  else if Text.blank s then some "Title must not be blank"
  else none

/-- The faults of a request, in the order of the field names. -/
def faults (r : Request) : List String :=
  (descriptionFault r.description).toList ++ (placesFault r.maxParticipants).toList ++
    (titleFault r.title).toList

/-- Checks a request; a refusal tells all faults. -/
def validate (r : Request) : Except String Unit :=
  if r.faults.isEmpty then .ok () else .error ("; ".intercalate r.faults)

/-- The draft of a request by its owner, its title without blank characters at the ends. -/
def toDraft (r : Request) (server owner : Snowflake) : Competition.Draft :=
  { server, owner, channel := r.channel, title := Text.trimmed r.title, description := r.description
    visibility := r.visibility, criteria := r.criteria, maxParticipants := r.maxParticipants
    dates := r.dates }

end Request

/-- Reads the request to change dates: an object with the field `dates`. -/
def Dates.decodeUpdate : Json.Decoder Dates := (.required "dates" Dates.decode : Json.Fields _).read

end Steward
