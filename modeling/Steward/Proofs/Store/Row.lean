import Steward.Proofs.Competition.Document
import Steward.Store.Row

/-!
# Rows read back

The row that is written for a value is read as that value, whatever its identifiers and texts; and
the row of a competition that cannot be read is refused for the first of its columns that means
nothing.

* `Competition.Draft.row`, `Participant.row`: the rows that are written.
* `Competition.Draft.read_row`, `Participant.read_row`: they are read back.
* `Competition.Row.unreadable`: the columns of a row that mean nothing, and what is said of them.
* `Competition.Row.read_of_readable`, `Competition.Row.read_of_unreadable`: reading names the first.
* `rows_read_back`: all of it.
-/

namespace Steward

open Time

variable {explain : String → Json → String}

/-! ## Competitions -/

namespace Competition

/-- The row that is written for a draft. -/
def Draft.row (d : Draft) (id : Int) (now : Instant) : Row :=
  { Columns.of d with id, isCancelled := false, createdAt := now, updatedAt := now }

theorem Draft.read_row {d : Draft} (hcriteria : d.criteria.Fits)
    (hyears : ∀ t ∈ d.dates.instants, t.HasPlainYear) (id : Int) (now : Instant) :
    (d.row id now).read explain = .ok (d.toCompetition id now) := by
  have hc : Criteria.decode d.criteria.toJson = .ok d.criteria := Criteria.decode_toJson hcriteria
  have hd : Dates.decode d.dates.toJson = .ok d.dates := Dates.decode_toJson hyears
  simp only [Row.read, Draft.row, Columns.of, readNamed, Visibility.read?_name, readDocument, hc,
    hd]
  rfl

namespace Row

/-- The columns of a row that are decoded, in order: whether each means something, and what is said
of it if it does not. -/
def decoded (explain : String → Json → String) (r : Row) : List (String × Bool × String) :=
  [("competitions.visibility", (Visibility.read? r.visibility).isSome,
      "Invalid visibility: " ++ r.visibility),
    ("competitions.criteria", (Criteria.decode r.criteria).isOk,
      explain "competitions.criteria" r.criteria),
    ("competitions.dates", (Dates.decode r.dates).isOk, explain "competitions.dates" r.dates)]

/-- The columns of a row that mean nothing, in order, with what is said of each. -/
def unreadable (explain : String → Json → String) (r : Row) : List (String × String) :=
  ((r.decoded explain).filter fun c => !c.2.1).map fun c => (c.1, c.2.2)

theorem read_of_readable {r : Row} (h : r.unreadable explain = []) :
    ∃ c, r.read explain = .ok c := by
  cases hv : Visibility.read? r.visibility with
  | none => simp [unreadable, decoded, hv] at h
  | some visibility =>
    cases hc : Criteria.decode r.criteria with
    | error e => simp [unreadable, decoded, hc, Except.isOk, Except.toBool] at h
    | ok criteria =>
      cases hd : Dates.decode r.dates with
      | error e => simp [unreadable, decoded, hd, Except.isOk, Except.toBool] at h
      | ok dates =>
        simp only [read, readNamed, hv, readDocument, hc, hd]
        exact ⟨_, rfl⟩

theorem read_of_unreadable {r : Row} {column detail : String} {rest : List (String × String)}
    (h : r.unreadable explain = (column, detail) :: rest) :
    r.read explain = .error (.corrupt column detail) := by
  cases hv : Visibility.read? r.visibility with
  | none =>
    obtain ⟨⟨rfl, rfl⟩, -⟩ :
        ("competitions.visibility" = column ∧
          "Invalid visibility: " ++ r.visibility = detail) ∧ _ := by
      simpa [unreadable, decoded, hv] using h
    simp only [read, readNamed, hv]
    rfl
  | some visibility =>
    cases hc : Criteria.decode r.criteria with
    | error e =>
      obtain ⟨⟨rfl, rfl⟩, -⟩ :
          ("competitions.criteria" = column ∧ explain "competitions.criteria" r.criteria = detail) ∧
            _ := by
        simpa [unreadable, decoded, hv, hc, Except.isOk, Except.toBool] using h
      simp only [read, readNamed, hv, readDocument, hc]
      rfl
    | ok criteria =>
      cases hd : Dates.decode r.dates with
      | error e =>
        obtain ⟨⟨rfl, rfl⟩, -⟩ :
            ("competitions.dates" = column ∧
              explain "competitions.dates" r.dates = detail) ∧ _ := by
          simpa [unreadable, decoded, hv, hc, hd, Except.isOk, Except.toBool] using h
        simp only [read, readNamed, hv, readDocument, hc, hd]
        rfl
      | ok dates => simp [unreadable, decoded, hv, hc, hd, Except.isOk, Except.toBool] at h

end Row

end Competition

/-! ## Participants -/

namespace Participant

/-- The row that is written for a participant. -/
def row (p : Participant) : Row :=
  { Columns.of p with invitedAt := p.invitedAt, joinedAt := p.joinedAt, leftAt := p.leftAt }

theorem read_row (p : Participant) : p.row.read = .ok p := by
  have hby : (p.invitedBy.map (·.value)).map Snowflake.mk = p.invitedBy := by
    rw [Option.map_map]
    exact Option.map_id'
  simp only [Row.read, row, Columns.of, readNamed, Standing.read?_name, hby]
  rfl

end Participant

/-! ## Both tables -/

theorem rows_read_back (explain : String → Json → String) :
    (∀ (d : Competition.Draft) (id : Int) (now : Instant), d.criteria.Fits →
      (∀ t ∈ d.dates.instants, t.HasPlainYear) →
      (d.row id now).read explain = .ok (d.toCompetition id now)) ∧
    (∀ p : Participant, p.row.read = .ok p) ∧
    ∀ r : Competition.Row,
      (r.unreadable explain = [] ∧ ∃ c, r.read explain = .ok c) ∨
      ∃ column detail rest, r.unreadable explain = (column, detail) :: rest ∧
        r.read explain =
          .error (.database ("Invalid value in column " ++ column ++ ": " ++ detail)) := by
  refine ⟨fun d id now hcriteria hyears => d.read_row hcriteria hyears id now, fun p => p.read_row,
    fun r => ?_⟩
  cases hr : r.unreadable explain with
  | nil => exact .inl ⟨rfl, Competition.Row.read_of_readable hr⟩
  | cons first rest =>
    obtain ⟨column, detail⟩ := first
    exact .inr ⟨column, detail, rest, rfl, Competition.Row.read_of_unreadable hr⟩

/-- A draft whose identifiers no document may hold, with a champion and the queue left out. -/
def championDraft : Competition.Draft :=
  { server := ⟨0⟩, owner := ⟨-1⟩, channel := ⟨3⟩, title := "Wins", description := ""
    visibility := .inviteOnly, criteria := .mostWinsChampion 157 none, maxParticipants := 10
    dates := .fixed (.ofSecond 0) (.ofMillis 1500) }

theorem rows_read_back_championDraft :
    (championDraft.row 7 (.ofSecond 0)).read (fun _ _ => "") =
      .ok (championDraft.toCompetition 7 (.ofSecond 0)) :=
  (rows_read_back _).1 championDraft 7 (.ofSecond 0) ⟨by decide, by decide⟩ (by decide)

end Steward
