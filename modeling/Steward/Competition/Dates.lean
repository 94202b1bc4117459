import Steward.Json.Record

/-!
# Seasons and competition dates

A competition runs from one instant to another, either given or taken from a ranked season.
-/

namespace Steward

open Time

/-! ## Seasons -/

/-- A ranked season, both ends included. -/
structure Season where
  id : String
  displayName : String
  start : Instant
  finish : Instant
deriving DecidableEq

namespace Season

/-- Whether an instant falls into the season. -/
def contains (s : Season) (at' : Instant) : Bool := s.start ≤ at' && at' ≤ s.finish

/-- Reads a season. -/
def decode : Json.Decoder Season :=
  (mk <$> .required "id" Json.Decoder.string <*> .required "display_name" Json.Decoder.string <*>
    .required "start" Json.Decoder.instant <*> .required "end" Json.Decoder.instant :
    Json.Fields _).read

/-- The document of a season. -/
def toJson (s : Season) : Json :=
  .object [("id", .text s.id), ("display_name", .text s.displayName),
    ("start", .text s.start.stamp), ("end", .text s.finish.stamp)]

instance : Json.Encode Season := ⟨toJson⟩

end Season

/-- The seasons that are known, in the order in which they are looked through. -/
abbrev Calendar := List Season

namespace Calendar

/-- The start of a day. -/
def dayStart (year : Int) (month day : Nat) : Instant :=
  .ofSecond ((Date.mk year month day).toDays * 86400)

/-- The three seasons of 2025. -/
def builtin : Calendar := [
  ⟨"2025_SEASON_1", "Season 1 2025", dayStart 2025 1 9, dayStart 2025 4 30⟩,
  ⟨"2025_SEASON_2", "Season 2 2025", dayStart 2025 4 30, dayStart 2025 8 27⟩,
  ⟨"2025_SEASON_3", "Season 3 2025", dayStart 2025 8 27, dayStart 2026 1 7⟩]

/-- The first season of an identifier. -/
def get? (c : Calendar) (id : String) : Option Season := c.find? (·.id = id)

/-- The first season that an instant falls into. -/
def current? (c : Calendar) (at' : Instant) : Option Season := c.find? (·.contains at')

end Calendar

/-! ## Dates -/

/-- The dates of a competition. -/
inductive Dates where
  | fixed (start finish : Instant)
  | season (id : String)
deriving DecidableEq

namespace Dates

/-- The start and the end, where the season is known. -/
def resolve? (calendar : Calendar) : Dates → Option (Instant × Instant)
  | fixed start finish => some (start, finish)
  | season id => (calendar.get? id).map fun s => (s.start, s.finish)

/-- Why dates were refused. -/
inductive Fault where
  | order
  | unknownSeason (id : String)
deriving DecidableEq, Repr

/-- The text shown for a refusal. -/
def Fault.message : Fault → String
  | order => "End date must be after start date"
  | unknownSeason id => "Unknown season: " ++ id

/-- Checks that given dates are in order and that a season is known. -/
def validate (calendar : Calendar) : Dates → Except Fault Unit
  | fixed start finish => if finish ≤ start then .error .order else .ok ()
  | season id => if (calendar.get? id).isNone then .error (.unknownSeason id) else .ok ()

/-- The fields of the alternative of a stored name. -/
def fields? : String → Option (Json.Fields Dates)
  | "FIXED" =>
    some (fixed <$> .required "start" Json.Decoder.instant <*> .required "end" Json.Decoder.instant)
  | "SEASON" => some (season <$> .required "season_id" Json.Decoder.string)
  | _ => none

/-- Reads dates. -/
def decode : Json.Decoder Dates := Json.tagged fields?

/-- The document of dates. -/
def toJson : Dates → Json
  | fixed start finish =>
    .object [(Json.tagName, .text "FIXED"), ("start", .text start.stamp),
      ("end", .text finish.stamp)]
  | season id => .object [(Json.tagName, .text "SEASON"), ("season_id", .text id)]

instance : Json.Encode Dates := ⟨toJson⟩

end Dates

end Steward
