import Steward.Proofs.Desk.CompetitionList

/-!
# Lists of participants

A list looks up the rows of a competition and then, one by one, the players they belong to. No
player is ever missing, since rows are made for stored players only and players stay, and no row is
without an instant to be listed by.

* `Peopled`: rows belong to stored players and are dated, and identifiers tell players apart.
* `Change.peopled`: every change keeps that.
* `Attends`: what the views in a list are.
* `attended_in_order`: what is listed, with those who left and without, is so after every run.
-/

namespace Steward.Desk

open Call Time

/-! ## Players and their rows -/

/-- Players stand in the order of their identifiers, every row is a stored player's, and every row
has an instant by which it is listed. -/
structure Peopled (s : Store) : Prop where
  ids : s.players.Pairwise (·.id < ·.id)
  known : ∀ p ∈ s.participants, ∃ x ∈ s.players, x.id = p.player
  dated : ∀ p ∈ s.participants, (Store.listedAt p).isSome

variable {d : Desk} {pace : Pace} {s s' : Store} {w w' : World} {e : Event} {es : List Event}
  {p q : Participant} {x : Player} {c : Competition}

theorem peopled_empty : Peopled .empty where
  ids := .nil
  known := List.forall_mem_nil _
  dated := List.forall_mem_nil _

theorem Peopled.congr (h : Peopled s) (hplayers : s'.players = s.players)
    (hrows : s'.participants = s.participants) : Peopled s' where
  ids := by rw [hplayers]; exact h.ids
  known := by rw [hplayers, hrows]; exact h.known
  dated := by rw [hrows]; exact h.dated

theorem Peopled.nodup_ids (h : Peopled s) : (s.players.map (·.id)).Nodup :=
  List.pairwise_map.2 (h.ids.imp fun hlt => Int.ne_of_lt hlt)

theorem Peopled.player?_eq_some_iff {id : Int} (h : Peopled s) :
    s.player? id = some x ↔ x ∈ s.players ∧ x.id = id :=
  Store.find?_eq_some_iff_of_keyed h.nodup_ids fun _ => decide_eq_true_iff

theorem Peopled.addParticipant (h : Peopled s) (hw : s.addParticipant p = .ok s')
    (hknown : (s.player? p.player).isSome) (hdated : (Store.listedAt p).isSome) :
    Peopled s' := by
  obtain ⟨-, rfl⟩ := Store.addParticipant_eq_ok hw
  refine { ids := h.ids, known := fun q hq => ?_, dated := fun q hq => ?_ }
  · rcases List.mem_append.1 hq with hq | hq
    · exact h.known q hq
    · obtain ⟨x, hx⟩ := Option.isSome_iff_exists.1 hknown
      rw [List.mem_singleton.1 hq]
      exact ⟨x, h.player?_eq_some_iff.1 hx⟩
  · rcases List.mem_append.1 hq with hq | hq
    · exact h.dated q hq
    · rw [List.mem_singleton.1 hq]
      exact hdated

theorem Peopled.writeParticipant (h : Peopled s) (hw : s.writeParticipant p = .ok s')
    (hdated : (Store.listedAt p).isSome) : Peopled s' := by
  obtain rfl := Store.writeParticipant_eq_ok hw
  refine { ids := h.ids, known := fun r' hr' => ?_, dated := fun r' hr' => ?_ }
  · obtain ⟨r, hr, rfl⟩ := List.mem_map.1 hr'
    have hplayer : (Store.replaced p r).player = r.player :=
      congrArg Prod.snd (Store.replaced_key p r)
    rw [hplayer]
    exact h.known r hr
  · obtain ⟨r, hr, rfl⟩ := List.mem_map.1 hr'
    unfold Store.replaced
    split
    · exact hdated
    · exact h.dated r hr

/-- A new player keeps the table in order, and every identifier in it. -/
theorem Peopled.addPlayer {server : Snowflake} {nickname : String} {account : Option Snowflake}
    {now : Instant} (h : Peopled s) (hw : s.addPlayer server nickname account now = .ok (x, s')) :
    Peopled s' := by
  unfold Store.addPlayer at hw
  split at hw
  · cases hw
  · obtain ⟨-, rfl⟩ := Prod.mk.inj (Except.ok.inj hw)
    refine { ids := Store.pairwise_putRow _ h.ids, known := fun p hp => ?_, dated := h.dated }
    obtain ⟨y, hy, hid⟩ := h.known p hp
    obtain ⟨z, hz, hsame⟩ := Store.exists_mem_putRow _ hy
    exact ⟨z, hz, hsame.trans hid⟩

theorem Change.peopled (h : Change d pace e w w') (hw : Peopled w.store) : Peopled w'.store := by
  cases h with
  | idle h => rw [h.store]; exact hw
  | create h => rw [h.stored]; exact hw.congr rfl rfl
  | cancel h | reschedule h =>
    rw [Store.writeCompetition_eq_ok h.stored]
    exact hw.congr rfl rfl
  | @add _ _ _ now p _ _ _ h =>
    have hdated : (Store.listedAt p).isSome := by
      obtain hp | ⟨by', hp⟩ := h.made <;> rw [hp] <;> rfl
    exact hw.addParticipant h.stored h.known hdated
  | accept _ h => exact hw.writeParticipant h.stored rfl
  | leave h =>
    obtain ⟨hq, -⟩ := Store.participant?_eq_some h.row
    have hdated := hw.dated _ hq
    exact hw.writeParticipant h.stored hdated
  | grant h =>
    obtain ⟨_, hs⟩ := Store.addGrant_eq h.stored
    rw [hs]
    exact hw.congr rfl rfl
  | revoke h =>
    obtain ⟨_, hs⟩ := Store.removeGrant_eq h.stored
    rw [hs]
    exact hw.congr rfl rfl
  | enrol h => exact hw.addPlayer h
  | insert => exact hw.congr rfl rfl

theorem Run.peopled {t : Instant} (h : Run d pace (World.fresh t) es w) : Peopled w.store :=
  (h.invariant (P := fun w => Peopled w.store) Store.sound_empty peopled_empty
    fun _ _ _ _ _ hw st => st.change.peopled hw).2

/-! ## The calls -/

theorem alone_viewParticipants (ps : List Participant) (w : World) :
    (viewParticipants ps).alone w =
      (.ok (ps.map fun p => .of p (w.store.player? p.player)), w) := by
  induction ps with
  | nil => rfl
  | cons p ps ih =>
    rw [viewParticipants, alone_bind_ok (alone_perform (.player? p.player) w)]
    rw [alone_bind_ok (by simpa only [World.perform] using ih)]
    rfl

/-- The views of all rows of a competition, in listing order. -/
def attendance (s : Store) (competition : Int) : List ParticipantView :=
  (s.participantsOf competition).map fun p => .of p (s.player? p.player)

/-- To list without those who left is to leave them out of the whole list. -/
theorem alone_listParticipants (found : w.store.competition? c.id = some c) (includeLeft : Bool) :
    (listParticipants c.id includeLeft).alone w =
      (.ok ((attendance w.store c.id).filter fun v =>
        includeLeft || v.participant.isActive), w) := by
  have hentity : (competitionEntity c.id).alone w = (.ok c, w) := by
    rw [alone_competitionEntity, found]
  rw [listParticipants, alone_bind_ok hentity,
    alone_bind_ok (alone_perform (.participantsOf c.id) w)]
  refine (alone_viewParticipants _ w).trans ?_
  rw [attendance, List.filter_map]
  rfl

/-! ## What is listed -/

/-- Whether a row is listed before another: by the instant of joining, else of the invitation, then
by player. -/
def Precedes (p q : Participant) : Prop :=
  ∃ x y, p.joinedAt.or p.invitedAt = some x ∧ q.joinedAt.or q.invitedAt = some y ∧
    (x < y ∨ x = y ∧ p.player < q.player)

/-- Views list a competition: each of its rows once and no other, in strict order, and each with the
nickname of the one player whose identifier the row has. -/
structure Attends (s : Store) (competition : Int) (views : List ParticipantView) : Prop where
  once : (views.map (·.participant)).Nodup
  complete : ∀ p, p ∈ views.map (·.participant) ↔
    p ∈ s.participants ∧ p.competition = competition
  ordered : views.Pairwise fun a b => Precedes a.participant b.participant
  named : ∀ v ∈ views, ∃ x ∈ s.players, v.nickname = some x.nickname ∧
    ∀ y ∈ s.players, y.id = v.participant.player ↔ y = x

theorem Peopled.precedes (h : Peopled s) (hp : p ∈ s.participants) (hq : q ∈ s.participants)
    (hle : Store.listedBefore p q = true) (hne : p.player ≠ q.player) : Precedes p q := by
  obtain ⟨x, hx⟩ := Option.isSome_iff_exists.1 (h.dated p hp)
  obtain ⟨y, hy⟩ := Option.isSome_iff_exists.1 (h.dated q hq)
  rw [Store.listedBefore_of_some hx hy] at hle
  exact ⟨x, y, hx, hy, Store.upTo_strict hle hne⟩

theorem map_participant_attendance (s : Store) (competition : Int) :
    (attendance s competition).map (·.participant) = s.participantsOf competition := by
  rw [attendance, List.map_map]
  exact List.map_id _

theorem Peopled.attends (h : Peopled s) (hs : s.Sound) (competition : Int) :
    Attends s competition (attendance s competition) := by
  have hstored {p : Participant} (hp : p ∈ s.participantsOf competition) : p ∈ s.participants :=
    (Store.mem_participantsOf.1 hp).1
  refine { once := ?_, complete := ?_, ordered := ?_, named := ?_ }
  · rw [map_participant_attendance]
    exact List.Nodup.of_map _ (hs.nodup_participantsOf competition)
  · intro p
    rw [map_participant_attendance]
    exact Store.mem_participantsOf
  · refine List.pairwise_map.2 ?_
    refine (hs.pairwise_participantsOf competition).imp_of_mem fun {p q} hp hq hpq => ?_
    exact h.precedes (hstored hp) (hstored hq) hpq.1 hpq.2
  · intro v hv
    obtain ⟨p, hp, rfl⟩ := List.mem_map.1 hv
    obtain ⟨x, hx, hid⟩ := h.known p (hstored hp)
    refine ⟨x, hx, ?_, fun y hy => ⟨fun hy' => ?_, fun heq => ?_⟩⟩
    · rw [h.player?_eq_some_iff.2 ⟨hx, hid⟩]
      rfl
    · exact List.inj_on_of_nodup_map h.nodup_ids hy hx (hy'.trans hid.symm)
    · rw [heq]
      exact hid

/-- As many are listed without those who left as places are taken. -/
theorem length_filter_attendance (s : Store) (competition : Int) :
    ((attendance s competition).filter fun v => v.participant.isActive).length =
      s.countActive competition := by
  rw [← Store.length_filter_participantsOf, ← map_participant_attendance, List.filter_map,
    List.length_map]
  rfl

/-- After every run and at every instant, a list of a stored competition shows each of its rows once
and no other, in strict order, with the nickname of the row's own player. The list without those who
left is what remains of it, and it is as long as the number of places that is answered and the
number that the competition is shown with. -/
theorem attended_in_order {t : Instant} (h : Run d pace (World.fresh t) es w) (now : Instant)
    (hc : c ∈ w.store.competitions) :
    ∃ views, (listParticipants c.id true).alone ⟨w.store, now⟩ = (.ok views, ⟨w.store, now⟩) ∧
      Attends w.store c.id views ∧
      let staying := views.filter fun v => v.participant.standing ≠ .left
      (listParticipants c.id false).alone ⟨w.store, now⟩ = (.ok staying, ⟨w.store, now⟩) ∧
      (activeCount c.id).alone ⟨w.store, now⟩ = (.ok staying.length, ⟨w.store, now⟩) ∧
      ∃ v, (getCompetition d c.id).alone ⟨w.store, now⟩ = (.ok v, ⟨w.store, now⟩) ∧
        v.participantCount = staying.length := by
  have found : (World.mk w.store now).store.competition? c.id = some c :=
    h.sound.competition?_eq_some_iff.2 ⟨hc, rfl⟩
  have hstaying : ((attendance w.store c.id).filter fun v => v.participant.standing ≠ .left) =
      (attendance w.store c.id).filter fun v => v.participant.isActive := by
    refine List.filter_congr fun v _ => ?_
    rw [Bool.eq_iff_iff, isActive_iff, decide_eq_true_eq]
  have hall : ((attendance w.store c.id).filter fun v => true || v.participant.isActive) =
      attendance w.store c.id := List.filter_eq_self.2 fun _ _ => rfl
  refine ⟨attendance w.store c.id, ?_, h.peopled.attends h.sound c.id, ?_, ?_, ?_⟩
  · rw [alone_listParticipants found, hall]
  · rw [alone_listParticipants found, hstaying]
    rfl
  · rw [hstaying, length_filter_attendance]
    rfl
  · refine ⟨_, alone_getCompetition found, ?_⟩
    rw [hstaying, length_filter_attendance]
    rfl

theorem attended_in_order_crowd :
    ∃ views, (listParticipants 1 true).alone ⟨crowded.store, .ofSecond 15⟩ =
        (.ok views, ⟨crowded.store, .ofSecond 15⟩) ∧
      Attends crowded.store 1 views ∧
      (activeCount 1).alone ⟨crowded.store, .ofSecond 15⟩ =
        (.ok (views.filter fun v => v.participant.standing ≠ .left).length,
          ⟨crowded.store, .ofSecond 15⟩) := by
  have hc : onePlace.toCompetition 1 (.ofSecond 0) ∈ crowded.store.competitions := by decide
  obtain ⟨views, hall, hviews, -, hcount, -⟩ :=
    attended_in_order (run_crowd .any trivial) (.ofSecond 15) hc
  exact ⟨views, hall, hviews, hcount⟩

end Steward.Desk
