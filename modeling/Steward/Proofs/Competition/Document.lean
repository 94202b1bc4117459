import Steward.Competition.Basic
import Steward.Proofs.Json.Values

/-!
# Documents of competitions

What is written for criteria, dates, seasons and competitions is read back, and what reading says of
the numbers in them: they fit the words in which they are kept.

* `Criteria.decode_toJson`, `Dates.decode_toJson`, `Season.decode_toJson`.
* `Competition.decode_toJson_iff`: a competition is read back if its identifiers are positive.
-/

namespace Steward

open Time Json Json.Fields

/-! ## Criteria -/

namespace Criteria

/-- Whether the numbers of criteria are words of 32 bits. -/
def Fits : Criteria → Prop
  | mostWinsChampion champion _ => Word.IsInt32 champion
  | highestWinRate minGames _ => Word.IsInt32 minGames
  | _ => True

theorem taggedName_name (q : Queue) : taggedName Queue.read? (.text q.name) = .ok q := by
  rw [taggedName, Decoder.name_text, Queue.read?_name]
  · rfl
  · exact nofun

instance : fields?.queueField.Checked := inferInstanceAs (Checked (required _ _))

/-- Criteria that hold no more than a queue. -/
theorem decode_queue {kind : String} {make : Queue → Criteria}
    (hf : fields? kind = some (make <$> fields?.queueField)) (q : Queue) :
    decode (.object [(tagName, .text kind), ("queue", .text q.name)]) = .ok (make q) := by
  rw [decode, tagged_object hf (by simp [tagName, readable]), fields?.queueField,
    read_object_eq_ok_iff (by simp), build_map_eq_ok_iff]
  exact ⟨q, build_required_eq_ok_iff.2 ⟨_, rfl, taggedName_name q⟩, rfl⟩

theorem decode_toJson {c : Criteria} (h : c.Fits) : decode c.toJson = .ok c := by
  cases c with
  | mostGamesPlayed q | highestRank q | mostRankClimb q | mostWinsPlayer q =>
    exact decode_queue rfl q
  | mostWinsChampion champion q =>
    cases q <;>
    · rw [toJson, decode, kind, tagged_object rfl (by simp [tagName, readable]),
        read_object_eq_ok_iff (by simp)]
      simp [build_seq_eq_ok_iff, build_map_eq_ok_iff, build_required_eq_ok_iff,
        build_defaulted_eq_ok_iff, List.lookup_cons, Decoder.int32_int h, taggedName_name,
        Except.map]
  | highestWinRate minGames q =>
    rw [toJson, decode, kind, tagged_object rfl (by simp [tagName, readable]),
      read_object_eq_ok_iff (by simp)]
    simp [build_seq_eq_ok_iff, build_map_eq_ok_iff, build_required_eq_ok_iff, fields?.queueField,
      List.lookup_cons, Decoder.int32_int h, taggedName_name]

theorem fits_of_decode {v : Json} {c : Criteria} (h : decode v = .ok c) : c.Fits := by
  obtain ⟨kind, f, w, hf, hread⟩ := exists_of_tagged h
  obtain ⟨byName, found, hbuild⟩ := exists_build_of_read hread
  unfold fields? at hf
  split at hf <;> cases hf
  case h_5 =>
    obtain ⟨g, hg, q, -, rfl⟩ := build_seq_eq_ok_iff.1 hbuild
    obtain ⟨champion, hchampion, rfl⟩ := build_map_eq_ok_iff.1 hg
    obtain ⟨u, -, hu⟩ := build_required_eq_ok_iff.1 hchampion
    exact Decoder.isInt32_of_int32 hu
  case h_6 =>
    obtain ⟨g, hg, q, -, rfl⟩ := build_seq_eq_ok_iff.1 hbuild
    obtain ⟨minGames, hminGames, rfl⟩ := build_map_eq_ok_iff.1 hg
    obtain ⟨u, -, hu⟩ := build_required_eq_ok_iff.1 hminGames
    exact Decoder.isInt32_of_int32 hu
  all_goals
    obtain ⟨q, -, rfl⟩ := build_map_eq_ok_iff.1 hbuild
    exact trivial

end Criteria

/-! ## Dates and seasons -/

namespace Dates

/-- The instants that are written for dates. -/
def instants : Dates → List Instant
  | fixed start finish => [start, finish]
  | season _ => []

theorem decode_toJson {d : Dates} (h : ∀ t ∈ d.instants, t.HasPlainYear) :
    decode d.toJson = .ok d := by
  cases d with
  | fixed start finish =>
    have hstart := Decoder.instant_text (h start (by simp [instants]))
    have hfinish := Decoder.instant_text (h finish (by simp [instants]))
    rw [toJson, decode, tagged_object rfl (by simp [tagName, readable]),
      read_object_eq_ok_iff (by simp)]
    simp [build_seq_eq_ok_iff, build_map_eq_ok_iff, build_required_eq_ok_iff, List.lookup_cons,
      hstart, hfinish]
  | season id =>
    rw [toJson, decode, tagged_object rfl (by simp [tagName, readable]),
      read_object_eq_ok_iff (by simp)]
    simp [build_map_eq_ok_iff, build_required_eq_ok_iff]

end Dates

theorem Season.decode_toJson {s : Season} (hstart : s.start.HasPlainYear)
    (hfinish : s.finish.HasPlainYear) : decode s.toJson = .ok s := by
  rw [decode, toJson, read_object_eq_ok_iff (by simp)]
  simp [build_seq_eq_ok_iff, build_map_eq_ok_iff, build_required_eq_ok_iff, List.lookup_cons,
    Decoder.instant_text hstart, Decoder.instant_text hfinish]

/-! ## Competitions -/

namespace Competition

/-- Whether the numbers of a competition fit the words in which they are kept. -/
structure Fits (c : Competition) : Prop where
  id : Word.IsInt32 c.id
  places : Word.IsInt32 c.maxParticipants
  server : Snowflake.inRange c.server.value = true
  owner : Snowflake.inRange c.owner.value = true
  channel : Snowflake.inRange c.channel.value = true
  criteria : c.criteria.Fits

/-- The identifiers that are written for a competition. -/
def identifiers (c : Competition) : List Snowflake := [c.server, c.owner, c.channel]

/-- The instants that are written for a competition. -/
def instants (c : Competition) : List Instant := c.dates.instants ++ [c.createdAt, c.updatedAt]

theorem fits_of_decode {v : Json} {c : Competition} (h : decode v = .ok c) : c.Fits := by
  obtain ⟨byName, found, hbuild⟩ := exists_build_of_read h
  obtain ⟨_, h₁, updatedAt, -, rfl⟩ := build_seq_eq_ok_iff.1 hbuild
  obtain ⟨_, h₂, createdAt, -, rfl⟩ := build_seq_eq_ok_iff.1 h₁
  obtain ⟨_, h₃, isCancelled, -, rfl⟩ := build_seq_eq_ok_iff.1 h₂
  obtain ⟨_, h₄, dates, -, rfl⟩ := build_seq_eq_ok_iff.1 h₃
  obtain ⟨_, h₅, places, hplaces, rfl⟩ := build_seq_eq_ok_iff.1 h₄
  obtain ⟨_, h₆, criteria, hcriteria, rfl⟩ := build_seq_eq_ok_iff.1 h₅
  obtain ⟨_, h₇, visibility, -, rfl⟩ := build_seq_eq_ok_iff.1 h₆
  obtain ⟨_, h₈, description, -, rfl⟩ := build_seq_eq_ok_iff.1 h₇
  obtain ⟨_, h₉, title, -, rfl⟩ := build_seq_eq_ok_iff.1 h₈
  obtain ⟨_, h₁₀, channel, hchannel, rfl⟩ := build_seq_eq_ok_iff.1 h₉
  obtain ⟨_, h₁₁, owner, howner, rfl⟩ := build_seq_eq_ok_iff.1 h₁₀
  obtain ⟨_, h₁₂, server, hserver, rfl⟩ := build_seq_eq_ok_iff.1 h₁₁
  obtain ⟨id, hid, rfl⟩ := build_map_eq_ok_iff.1 h₁₂
  obtain ⟨_, -, hid⟩ := build_required_eq_ok_iff.1 hid
  obtain ⟨_, -, hserver⟩ := build_required_eq_ok_iff.1 hserver
  obtain ⟨_, -, howner⟩ := build_required_eq_ok_iff.1 howner
  obtain ⟨_, -, hchannel⟩ := build_required_eq_ok_iff.1 hchannel
  obtain ⟨_, -, hcriteria⟩ := build_required_eq_ok_iff.1 hcriteria
  obtain ⟨_, -, hplaces⟩ := build_required_eq_ok_iff.1 hplaces
  exact
    { id := Decoder.isInt32_of_int32 hid
      places := Decoder.isInt32_of_int32 hplaces
      server := Decoder.inRange_of_snowflake hserver
      owner := Decoder.inRange_of_snowflake howner
      channel := Decoder.inRange_of_snowflake hchannel
      criteria := Criteria.fits_of_decode hcriteria }

theorem decode_toJson_iff {c : Competition} (hfits : c.Fits)
    (hyears : ∀ t ∈ c.instants, t.HasPlainYear) :
    decode c.toJson = .ok c ↔ ∀ id ∈ c.identifiers, 0 < id.value := by
  have hdates : Dates.decode c.dates.toJson = .ok c.dates :=
    Dates.decode_toJson fun t ht => hyears t (by simp [instants, ht])
  have hcreated := Decoder.instant_text (hyears c.createdAt (by simp [instants]))
  have hupdated := Decoder.instant_text (hyears c.updatedAt (by simp [instants]))
  rw [decode, toJson, read_object_eq_ok_iff (by simp)]
  simp only [build_seq_eq_ok_iff, build_map_eq_ok_iff, build_required_eq_ok_iff, List.lookup_cons,
    BEq.rfl, String.reduceBEq, Option.some.injEq, Except.ok.injEq, exists_eq_left', exists_and_left,
    ↓existsAndEq, and_assoc, and_self, and_true, true_and, Decoder.int32_int hfits.id,
    Decoder.int32_int hfits.places, Decoder.snowflake_text_eq_ok_iff hfits.server,
    Decoder.snowflake_text_eq_ok_iff hfits.owner, Decoder.snowflake_text_eq_ok_iff hfits.channel,
    Decoder.string_text, Decoder.name_text, Visibility.read?_name, Decoder.flag_bool,
    orForm_eq_ok_iff, Criteria.decode_toJson hfits.criteria, hdates, hcreated, hupdated,
    decode.build]
  simp only [identifiers, List.forall_mem_cons, List.not_mem_nil, false_imp_iff, implies_true,
    and_true]

end Competition

end Steward
