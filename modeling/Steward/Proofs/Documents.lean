import Steward.Annotation.Basic
import Steward.Grant
import Steward.Participant
import Steward.Player
import Steward.Proofs.Competition.Document

/-!
# Documents come back

Whatever is read from a document is read again, the same, from the document that is written for it,
but for one thing: an identifier is taken from any integer of 64 bits and always written as a
decimal, and from a decimal only a positive one is taken.

* `Participant.decode_toJson_iff`, `Player.decode_toJson_iff`, `Grant.decode_toJson_iff`: records
  are read back if their identifiers are positive.
* `Recurs`: what it is for documents of a kind to come back.
* `documents_recur`: documents of all kinds do.
* `zero_not_read_back`: an identifier that is not positive does not.
-/

namespace Steward

open Time Json Json.Fields

/-! ## Participants -/

namespace Participant

/-- Whether the numbers of a participant fit the words in which they are kept. -/
structure Fits (p : Participant) : Prop where
  competition : Word.IsInt32 p.competition
  player : Word.IsInt32 p.player
  invitedBy : ∀ x ∈ p.invitedBy, Snowflake.inRange x.value = true

/-- The identifiers that are written for a participant. -/
def identifiers (p : Participant) : List Snowflake := p.invitedBy.toList

/-- The instants that are written for a participant. -/
def instants (p : Participant) : List Instant :=
  p.invitedAt.toList ++ p.joinedAt.toList ++ p.leftAt.toList

theorem fits_of_decode {v : Json} {p : Participant} (h : decode v = .ok p) : p.Fits := by
  obtain ⟨byName, found, hbuild⟩ := exists_build_of_read h
  obtain ⟨_, h₁, leftAt, -, rfl⟩ := build_seq_eq_ok_iff.1 hbuild
  obtain ⟨_, h₂, joinedAt, -, rfl⟩ := build_seq_eq_ok_iff.1 h₁
  obtain ⟨_, h₃, invitedAt, -, rfl⟩ := build_seq_eq_ok_iff.1 h₂
  obtain ⟨_, h₄, invitedBy, hinvitedBy, rfl⟩ := build_seq_eq_ok_iff.1 h₃
  obtain ⟨_, h₅, standing, -, rfl⟩ := build_seq_eq_ok_iff.1 h₄
  obtain ⟨_, h₆, player, hplayer, rfl⟩ := build_seq_eq_ok_iff.1 h₅
  obtain ⟨competition, hcompetition, rfl⟩ := build_map_eq_ok_iff.1 h₆
  obtain ⟨_, -, hcompetition⟩ := build_required_eq_ok_iff.1 hcompetition
  obtain ⟨_, -, hplayer⟩ := build_required_eq_ok_iff.1 hplayer
  refine ⟨Decoder.isInt32_of_int32 hcompetition, Decoder.isInt32_of_int32 hplayer, ?_⟩
  rintro x rfl
  obtain ⟨w, -, hw⟩ | ⟨-, -, hnone⟩ := build_optional_eq_ok_iff.1 hinvitedBy
  · exact Decoder.inRange_of_snowflake (Decoder.eq_ok_of_option hw)
  · cases hnone

theorem decode_toJson_iff {p : Participant} (hfits : p.Fits)
    (hyears : ∀ t ∈ p.instants, t.HasPlainYear) :
    decode p.toJson = .ok p ↔ ∀ id ∈ p.identifiers, 0 < id.value := by
  have hinvitedAt := Decoder.option_instant (t := p.invitedAt) fun t ht =>
    hyears t (by simp [instants, Option.mem_toList.2 ht])
  have hjoinedAt := Decoder.option_instant (t := p.joinedAt) fun t ht =>
    hyears t (by simp [instants, Option.mem_toList.2 ht])
  have hleftAt := Decoder.option_instant (t := p.leftAt) fun t ht =>
    hyears t (by simp [instants, Option.mem_toList.2 ht])
  rw [decode, toJson, read_object_eq_ok_iff (by simp)]
  simp [build_seq_eq_ok_iff, build_map_eq_ok_iff, build_required_eq_ok_iff,
    build_optional_eq_ok_iff, List.lookup_cons, identifiers, Decoder.int32_int hfits.competition,
    Decoder.int32_int hfits.player, Decoder.option_snowflake_eq_ok_iff hfits.invitedBy,
    orForm_eq_ok_iff, hinvitedAt, hjoinedAt, hleftAt]

end Participant

/-! ## Players -/

namespace Player

/-- Whether the numbers of a player fit the words in which they are kept. -/
structure Fits (p : Player) : Prop where
  id : Word.IsInt32 p.id
  server : Snowflake.inRange p.server.value = true
  account : ∀ x ∈ p.account, Snowflake.inRange x.value = true

/-- The identifiers that are written for a player. -/
def identifiers (p : Player) : List Snowflake := p.server :: p.account.toList

theorem fits_of_decode {v : Json} {p : Player} (h : decode v = .ok p) : p.Fits := by
  obtain ⟨byName, found, hbuild⟩ := exists_build_of_read h
  obtain ⟨_, h₁, createdAt, -, rfl⟩ := build_seq_eq_ok_iff.1 hbuild
  obtain ⟨_, h₂, account, haccount, rfl⟩ := build_seq_eq_ok_iff.1 h₁
  obtain ⟨_, h₃, nickname, -, rfl⟩ := build_seq_eq_ok_iff.1 h₂
  obtain ⟨_, h₄, server, hserver, rfl⟩ := build_seq_eq_ok_iff.1 h₃
  obtain ⟨id, hid, rfl⟩ := build_map_eq_ok_iff.1 h₄
  obtain ⟨_, -, hid⟩ := build_required_eq_ok_iff.1 hid
  obtain ⟨_, -, hserver⟩ := build_required_eq_ok_iff.1 hserver
  refine ⟨Decoder.isInt32_of_int32 hid, Decoder.inRange_of_snowflake hserver, ?_⟩
  rintro x rfl
  obtain ⟨w, -, hw⟩ | ⟨-, -, hnone⟩ := build_optional_eq_ok_iff.1 haccount
  · exact Decoder.inRange_of_snowflake (Decoder.eq_ok_of_option hw)
  · cases hnone

theorem decode_toJson_iff {p : Player} (hfits : p.Fits) (hyear : p.createdAt.HasPlainYear) :
    decode p.toJson = .ok p ↔ ∀ id ∈ p.identifiers, 0 < id.value := by
  rw [decode, toJson, read_object_eq_ok_iff (by simp)]
  simp [build_seq_eq_ok_iff, build_map_eq_ok_iff, build_required_eq_ok_iff,
    build_optional_eq_ok_iff, List.lookup_cons, identifiers, Decoder.int32_int hfits.id,
    Decoder.snowflake_text_eq_ok_iff hfits.server,
    Decoder.option_snowflake_eq_ok_iff hfits.account, Decoder.instant_text hyear]

end Player

/-! ## Grants -/

namespace Grant

/-- The identifiers that are written for a grant. -/
def identifiers (g : Grant) : List Snowflake := [g.server, g.user, g.grantedBy]

theorem inRange_of_decode {v : Json} {g : Grant} (h : decode v = .ok g) :
    ∀ id ∈ g.identifiers, Snowflake.inRange id.value = true := by
  obtain ⟨byName, found, hbuild⟩ := exists_build_of_read h
  obtain ⟨_, h₁, grantedAt, -, rfl⟩ := build_seq_eq_ok_iff.1 hbuild
  obtain ⟨_, h₂, grantedBy, hgrantedBy, rfl⟩ := build_seq_eq_ok_iff.1 h₁
  obtain ⟨_, h₃, permission, -, rfl⟩ := build_seq_eq_ok_iff.1 h₂
  obtain ⟨_, h₄, user, huser, rfl⟩ := build_seq_eq_ok_iff.1 h₃
  obtain ⟨server, hserver, rfl⟩ := build_map_eq_ok_iff.1 h₄
  obtain ⟨_, -, hserver⟩ := build_required_eq_ok_iff.1 hserver
  obtain ⟨_, -, huser⟩ := build_required_eq_ok_iff.1 huser
  obtain ⟨_, -, hgrantedBy⟩ := build_required_eq_ok_iff.1 hgrantedBy
  simp [identifiers, Decoder.inRange_of_snowflake hserver, Decoder.inRange_of_snowflake huser,
    Decoder.inRange_of_snowflake hgrantedBy]

theorem decode_toJson_iff {g : Grant}
    (hrange : ∀ id ∈ g.identifiers, Snowflake.inRange id.value = true)
    (hyear : g.grantedAt.HasPlainYear) :
    decode g.toJson = .ok g ↔ ∀ id ∈ g.identifiers, 0 < id.value := by
  simp only [identifiers, List.forall_mem_cons] at hrange
  rw [decode, toJson, read_object_eq_ok_iff (by simp)]
  have : Nonempty Permission := ⟨g.permission⟩
  simp only [build_seq_eq_ok_iff, build_map_eq_ok_iff, build_required_eq_ok_iff, List.lookup_cons,
    BEq.rfl, String.reduceBEq, Option.some.injEq, Except.ok.injEq, exists_eq_left', exists_and_left,
    exists_const, ↓existsAndEq, and_assoc, and_self, and_true, true_and,
    Decoder.snowflake_text_eq_ok_iff hrange.1, Decoder.snowflake_text_eq_ok_iff hrange.2.1,
    Decoder.snowflake_text_eq_ok_iff hrange.2.2.1, Decoder.name_text, Permission.read?_name,
    orForm_eq_ok_iff, Decoder.instant_text hyear]
  simp only [identifiers, List.forall_mem_cons, List.not_mem_nil, false_imp_iff, implies_true,
    and_true]

end Grant

/-! ## Annotations -/

theorem Annotation.decode_toJson (a : Annotation) : decode a.toJson = .ok a := by
  obtain ⟨level, file, line, column, endLine, endColumn, title, message⟩ := a
  cases endLine <;> cases endColumn <;> cases title <;>
  · rw [decode, toJson, read_object_eq_ok_iff (by simp [fieldOf, field])]
    simp [build_seq_eq_ok_iff, build_map_eq_ok_iff, build_required_eq_ok_iff,
      build_defaulted_eq_ok_iff, List.lookup_cons, fieldOf, field, encode, orForm_eq_ok_iff,
      Except.map]

/-! ## All kinds -/

/-- A value that is read from a document, and all of whose instants lie in years of four digits, is
read from the document that is written for it, and the same document is written again. That is so
exactly if all its identifiers are positive. -/
def Recurs {α : Type} [Encode α] (v : Json) (decode : Decoder α) (identifiers : α → List Snowflake)
    (instants : α → List Instant) : Prop :=
  ∀ a, decode v = .ok a → (∀ t ∈ instants a, t.HasPlainYear) →
    ((∀ id ∈ identifiers a, 0 < id.value) ↔
      ∃ b, decode (encode a) = .ok b ∧ b = a ∧ encode b = encode a)

section

variable {α : Type} [Encode α] {v : Json} {decode : Decoder α} {instants : α → List Instant}

theorem recurs_of_iff {identifiers : α → List Snowflake}
    (h : ∀ a, decode v = .ok a → (∀ t ∈ instants a, t.HasPlainYear) →
      (decode (encode a) = .ok a ↔ ∀ id ∈ identifiers a, 0 < id.value)) :
    Recurs v decode identifiers instants := by
  intro a hread hyears
  rw [← h a hread hyears]
  constructor
  · intro hback
    exact ⟨a, hback, rfl, rfl⟩
  · rintro ⟨b, hback, rfl, -⟩
    exact hback

theorem recurs_of_eq_ok
    (h : ∀ a, decode v = .ok a → (∀ t ∈ instants a, t.HasPlainYear) →
      decode (encode a) = .ok a) : Recurs v decode (fun _ => []) instants :=
  recurs_of_iff fun a hread hyears => by simp [h a hread hyears]

end

theorem documents_recur (v : Json) :
    Recurs v Competition.decode Competition.identifiers Competition.instants ∧
    Recurs v Participant.decode Participant.identifiers Participant.instants ∧
    Recurs v Player.decode Player.identifiers (fun p => [p.createdAt]) ∧
    Recurs v Grant.decode Grant.identifiers (fun g => [g.grantedAt]) ∧
    Recurs v Season.decode (fun _ => []) (fun s => [s.start, s.finish]) ∧
    Recurs v Criteria.decode (fun _ => []) (fun _ => []) ∧
    Recurs v Dates.decode (fun _ => []) Dates.instants ∧
    Recurs v Annotation.decode (fun _ => []) (fun _ => []) ∧
    Recurs v Decoder.snowflake (fun id => [id]) (fun _ => []) := by
  refine ⟨?_, ?_, ?_, ?_, ?_, ?_, ?_, ?_, ?_⟩
  · exact recurs_of_iff fun c hread hyears =>
      Competition.decode_toJson_iff (Competition.fits_of_decode hread) hyears
  · exact recurs_of_iff fun p hread hyears =>
      Participant.decode_toJson_iff (Participant.fits_of_decode hread) hyears
  · exact recurs_of_iff fun p hread hyears =>
      Player.decode_toJson_iff (Player.fits_of_decode hread) (hyears _ List.mem_cons_self)
  · exact recurs_of_iff fun g hread hyears =>
      Grant.decode_toJson_iff (Grant.inRange_of_decode hread) (hyears _ List.mem_cons_self)
  · exact recurs_of_eq_ok fun s hread hyears =>
      Season.decode_toJson (hyears _ (by simp)) (hyears _ (by simp))
  · exact recurs_of_eq_ok fun c hread _ => Criteria.decode_toJson (Criteria.fits_of_decode hread)
  · exact recurs_of_eq_ok fun d _ hyears => Dates.decode_toJson hyears
  · exact recurs_of_eq_ok fun a _ _ => Annotation.decode_toJson a
  · refine recurs_of_iff fun id hread _ => ?_
    show Decoder.snowflake (.text id.text) = .ok id ↔ _
    rw [Decoder.snowflake_text_eq_ok_iff (Decoder.inRange_of_snowflake hread)]
    simp

/-- An invitation as a document: the identifier an integer, the instant away from UTC, and fields
left out. -/
def invitation : Json :=
  .object [("competition_id", .int 7), ("player_id", .int 3), ("status", .text "INVITED"),
    ("invited_by", .int 200), ("invited_at", .text "2025-06-01T02:00:00.50+02:00")]

theorem documents_recur_invitation :
    ∃ p, Participant.decode invitation = .ok p ∧ p.invitedBy = some ⟨200⟩ ∧
      ∃ q, Participant.decode (encode p) = .ok q ∧ q = p ∧ encode q = encode p := by
  obtain ⟨p, hread, hby, hat⟩ : ∃ p, Participant.decode invitation = .ok p ∧
      p.invitedBy = some ⟨200⟩ ∧ ∀ t ∈ p.instants, t.HasPlainYear :=
    ⟨⟨7, 3, .invited, some ⟨200⟩, some (.ofMillis 1748736000500), none, none⟩,
      by decide +kernel, rfl, by decide⟩
  refine ⟨p, hread, hby, ((documents_recur invitation).2.1 p hread hat).1 ?_⟩
  rw [Participant.identifiers, hby]
  decide

/-- The identifier zero is taken from an integer and refused from what is written for it. -/
theorem zero_not_read_back :
    Decoder.snowflake (.int 0) = .ok ⟨0⟩ ∧
      Decoder.snowflake (encode (⟨0⟩ : Snowflake)) = .error (.identifier .notPositive) := by
  decide

end Steward
