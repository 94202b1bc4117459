import Steward.Proofs.Desk.AloneCalls
import Steward.Proofs.Desk.Places

/-!
# Lists of competitions

A list looks up the competitions of a server and counts the places of each. What it shows of a
competition is what is shown of it by itself at the same instant.

* `Lists`: what the views in a list are.
* `alone_list`, `alone_listOpen`: what the two lists of a server are made of.
* `lists_viewsOf`: they are so in every store whose tables are keyed.
* `listed_as_found`: and so they are after every run, the open ones in the same order.
-/

namespace Steward.Desk

open Call Time

/-- Views list a server: each of its stored competitions once and no other, the newest first and at
one instant the highest identifier first, each as it is shown by itself and with the number of its
participants who have not left. -/
structure Lists (d : Desk) (w : World) (server : Snowflake) (views : List CompetitionView) :
    Prop where
  once : (views.map (·.competition)).Nodup
  complete : ∀ c, c ∈ views.map (·.competition) ↔ c ∈ w.store.competitions ∧ c.server = server
  ordered : views.Pairwise fun a b => b.competition.createdAt < a.competition.createdAt ∨
    b.competition.createdAt = a.competition.createdAt ∧ b.competition.id < a.competition.id
  shown : ∀ v ∈ views, (getCompetition d v.competition.id).alone w = (.ok v, w)
  counted : ∀ v ∈ views, v.participantCount = (seated w.store v.competition.id).length

variable {d : Desk} {pace : Pace} {w : World} {es : List Event} {c : Competition}
  {server : Snowflake}

/-- What is shown of a competition now. -/
def shownNow (d : Desk) (w : World) (c : Competition) : CompetitionView :=
  .of d.calendar w.clock c (w.store.countActive c.id : Nat)

/-- The views of a server, newest first. -/
def viewsOf (d : Desk) (w : World) (server : Snowflake) : List CompetitionView :=
  (w.store.competitionsOf server).map (shownNow d w)

theorem alone_getCompetition (found : w.store.competition? c.id = some c) :
    (getCompetition d c.id).alone w = (.ok (shownNow d w c), w) := by
  have hentity : (competitionEntity c.id).alone w = (.ok c, w) := by
    rw [alone_competitionEntity, found]
  rw [getCompetition, alone_bind_ok hentity]
  exact alone_viewNow d c w

theorem alone_list (d : Desk) (server : Snowflake) (w : World) :
    (listCompetitions d server false).alone w = (.ok (viewsOf d w server), w) := by
  have hall : (w.store.competitionsOf server).filter (fun c =>
      !false || (c.stageAt d.calendar w.clock).isOpen) = w.store.competitionsOf server :=
    List.filter_eq_self.2 fun _ _ => rfl
  rw [alone_listCompetitions, hall]
  rfl

/-- To list the open ones is to leave out the others. -/
theorem alone_listOpen (d : Desk) (server : Snowflake) (w : World) :
    (listCompetitions d server true).alone w =
      (.ok ((viewsOf d w server).filter fun v => v.stage = .draft ∨ v.stage = .active), w) := by
  rw [alone_listCompetitions, viewsOf, List.filter_map]
  have hopen : ((fun v : CompetitionView => decide (v.stage = .draft ∨ v.stage = .active)) ∘
      shownNow d w) = fun c => !true || (c.stageAt d.calendar w.clock).isOpen := by
    funext c
    rw [Function.comp_apply, Bool.eq_iff_iff]
    simp only [Bool.not_true, Bool.false_or, Stage.isOpen_iff, decide_eq_true_eq]
    rfl
  rw [hopen]
  rfl

theorem lists_viewsOf (hs : w.store.Sound) (server : Snowflake) :
    Lists d w server (viewsOf d w server) := by
  have hcompetitions : (viewsOf d w server).map (·.competition) =
      w.store.competitionsOf server := by
    rw [viewsOf, List.map_map]
    exact List.map_id _
  have hmem {v : CompetitionView} (hv : v ∈ viewsOf d w server) :
      ∃ c ∈ w.store.competitions, v = shownNow d w c := by
    obtain ⟨c, hc, rfl⟩ := List.mem_map.1 hv
    exact ⟨c, (Store.mem_competitionsOf.1 hc).1, rfl⟩
  refine { once := ?_, complete := ?_, ordered := ?_, shown := ?_, counted := ?_ }
  · rw [hcompetitions]
    exact List.Nodup.of_map _ (hs.nodup_competitionsOf server)
  · intro c
    rw [hcompetitions]
    exact Store.mem_competitionsOf
  · exact List.pairwise_map.2 (hs.pairwise_competitionsOf server)
  · intro v hv
    obtain ⟨c, hc, rfl⟩ := hmem hv
    exact alone_getCompetition (hs.competition?_eq_some_iff.2 ⟨hc, rfl⟩)
  · intro v hv
    obtain ⟨c, -, rfl⟩ := hmem hv
    rw [length_seated]
    rfl

/-- After every run and at every instant, a list of a server shows each of its stored competitions
once and no other, in strict order, and each as it is shown by itself. The list of open competitions
is what is left of it without those that are neither drafts nor active. -/
theorem listed_as_found {t : Instant} (h : Run d pace (World.fresh t) es w) (now : Instant)
    (server : Snowflake) :
    ∃ views, (listCompetitions d server false).alone ⟨w.store, now⟩ =
        (.ok views, ⟨w.store, now⟩) ∧
      Lists d ⟨w.store, now⟩ server views ∧
      (listCompetitions d server true).alone ⟨w.store, now⟩ =
        (.ok (views.filter fun v => v.stage = .draft ∨ v.stage = .active), ⟨w.store, now⟩) := by
  have hs : (World.mk w.store now).store.Sound := h.sound
  exact ⟨_, alone_list d server _, lists_viewsOf hs server, alone_listOpen d server _⟩

/-- Two competitions of one server and one instant, one of another server, and a later one. A player
joins the second. -/
def posting : List Event :=
  [.insert onePlace, .insert onePlace, .insert { onePlace with server := ⟨5⟩ },
    .clock (.ofSecond 5), .insert onePlace, .enrol ⟨1⟩ "ann" none, .call (.join 2 1)]

/-- The world that they leave. -/
def posted : World := posting.foldl (tick (.ofLimits {})) (World.fresh (.ofSecond 0))

theorem run_posting : Run (.ofLimits {}) .any (World.fresh (.ofSecond 0)) posting posted :=
  Run.play ⟨trivial, trivial⟩ (by decide)

theorem listed_as_found_posted :
    (posted.store.competitions.filter (·.server = ⟨1⟩)).map (·.id) = [1, 2, 4] ∧
      (seated posted.store 2).length = 1 ∧
      ∃ views, (listCompetitions (.ofLimits {}) ⟨1⟩ false).alone ⟨posted.store, .ofSecond 15⟩ =
          (.ok views, ⟨posted.store, .ofSecond 15⟩) ∧
        Lists (.ofLimits {}) ⟨posted.store, .ofSecond 15⟩ ⟨1⟩ views ∧
        (listCompetitions (.ofLimits {}) ⟨1⟩ true).alone ⟨posted.store, .ofSecond 15⟩ =
          (.ok (views.filter fun v => v.stage = .draft ∨ v.stage = .active),
            ⟨posted.store, .ofSecond 15⟩) := by
  refine ⟨by decide, by decide, ?_⟩
  exact listed_as_found run_posting (.ofSecond 15) ⟨1⟩

end Steward.Desk
