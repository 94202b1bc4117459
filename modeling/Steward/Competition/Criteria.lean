import Steward.Json.Record

/-!
# Competition criteria

What a competition is decided by, and the game queue that it is counted on. Criteria about ranks
ask for a ranked queue.
-/

namespace Steward

/-- A game queue. -/
inductive Queue where
  | solo
  | flex
  | rankedAny
  | aram
  | arena
  | quickplay
deriving DecidableEq, Repr

namespace Queue

/-- The stored name. -/
def name : Queue → String
  | solo => "SOLO"
  | flex => "FLEX"
  | rankedAny => "RANKED_ANY"
  | aram => "ARAM"
  | arena => "ARENA"
  | quickplay => "QUICKPLAY"

/-- The queue of a stored name. -/
def read? : String → Option Queue
  | "SOLO" => some solo
  | "FLEX" => some flex
  | "RANKED_ANY" => some rankedAny
  | "ARAM" => some aram
  | "ARENA" => some arena
  | "QUICKPLAY" => some quickplay
  | _ => none

/-- The text shown for a name that no queue has. -/
def unknown (name : String) : String := "Invalid queue: " ++ name

@[simp] theorem read?_name (q : Queue) : read? q.name = some q := by cases q <;> rfl

/-- Whether games in the queue count for a rank. -/
def isRanked : Queue → Bool
  | solo | flex | rankedAny => true
  | aram | arena | quickplay => false

end Queue

/-- What a competition is decided by. -/
inductive Criteria where
  | mostGamesPlayed (queue : Queue)
  | highestRank (queue : Queue)
  | mostRankClimb (queue : Queue)
  | mostWinsPlayer (queue : Queue)
  | mostWinsChampion (champion : Int) (queue : Option Queue)
  | highestWinRate (minGames : Int) (queue : Queue)
deriving DecidableEq, Repr

namespace Criteria

/-- The stored name of the alternative. -/
def kind : Criteria → String
  | mostGamesPlayed _ => "MOST_GAMES_PLAYED"
  | highestRank _ => "HIGHEST_RANK"
  | mostRankClimb _ => "MOST_RANK_CLIMB"
  | mostWinsPlayer _ => "MOST_WINS_PLAYER"
  | mostWinsChampion _ _ => "MOST_WINS_CHAMPION"
  | highestWinRate _ _ => "HIGHEST_WIN_RATE"

/-- Why criteria were refused. -/
inductive Fault where
  | unranked (kind : String) (queue : Queue)
  | champion
  | minGames
deriving DecidableEq, Repr

/-- The text shown for a refusal. -/
def Fault.message : Fault → String
  | unranked kind queue => kind ++ " requires a ranked queue, got " ++ queue.name
  | champion => "Champion id must be positive"
  | minGames => "Minimum games must be at least 1"

/-- Checks what the alternative asks of its fields. -/
def validate (c : Criteria) : Except Fault Unit :=
  match c with
  | highestRank q | mostRankClimb q => if q.isRanked then .ok () else .error (.unranked c.kind q)
  | mostWinsChampion champion _ => if champion ≤ 0 then .error .champion else .ok ()
  | highestWinRate minGames _ => if minGames < 1 then .error .minGames else .ok ()
  | _ => .ok ()

/-- The fields of the alternative of a stored name. -/
def fields? : String → Option (Json.Fields Criteria)
  | "MOST_GAMES_PLAYED" => some (mostGamesPlayed <$> queueField)
  | "HIGHEST_RANK" => some (highestRank <$> queueField)
  | "MOST_RANK_CLIMB" => some (mostRankClimb <$> queueField)
  | "MOST_WINS_PLAYER" => some (mostWinsPlayer <$> queueField)
  | "MOST_WINS_CHAMPION" =>
    some (mostWinsChampion <$> .required "champion_id" Json.Decoder.int32 <*>
      .defaulted "queue" (Json.Decoder.option (Json.taggedName Queue.read?)) none)
  | "HIGHEST_WIN_RATE" =>
    some (highestWinRate <$> .required "min_games" Json.Decoder.int32 <*> queueField)
  | _ => none
where
  /-- The queue of an alternative that needs one. -/
  queueField : Json.Fields Queue := .required "queue" (Json.taggedName Queue.read?)

/-- Reads criteria. -/
def decode : Json.Decoder Criteria := Json.tagged fields?

/-- The document of criteria. -/
def toJson (c : Criteria) : Json :=
  .object ((Json.tagName, .text c.kind) :: match c with
    | mostGamesPlayed q | highestRank q | mostRankClimb q | mostWinsPlayer q =>
      [("queue", .text q.name)]
    | mostWinsChampion champion none => [("champion_id", .int champion)]
    | mostWinsChampion champion (some q) =>
      [("champion_id", .int champion), ("queue", .text q.name)]
    | highestWinRate minGames q => [("min_games", .int minGames), ("queue", .text q.name)])

instance : Json.Encode Criteria := ⟨toJson⟩

end Criteria

end Steward
