import Steward.Proofs.Competition.Stage
import Steward.Proofs.Desk.Run

/-!
# Limits on open competitions

The room for one more open competition is looked at on creation only. That is enough: nothing opens
a competition that is closed, be it time or other dates, so at every instant from the present on no
more competitions are open than were when the last one was created.

* `Within`: the limits hold at an instant.
* `Within.map`, `Within.append`: what may happen to the table without breaking them.
* `Change.within`: no change of a service call breaks them, from the clock on.
* `open_within_limits`: they hold after every run of service calls whose clock never goes back.
-/

namespace Steward.Desk

open Call Time

variable {d : Desk} {s s' : Store} {w w' : World} {e : Event} {es : List Event}
  {server owner : Snowflake} {u v : Instant} {c : Competition}

/-- Whether a competition of the server is open at an instant. -/
def isOpenIn (calendar : Calendar) (server : Snowflake) (u : Instant) (c : Competition) : Bool :=
  c.server = server && (c.stageAt calendar u).isOpen

/-- The competitions of a server that are open at an instant. -/
def openAt (calendar : Calendar) (s : Store) (server : Snowflake) (u : Instant) :
    List Competition :=
  s.competitions.filter (isOpenIn calendar server u)

/-- At an instant no server has more open competitions than it may, and no owner has two in one
server. -/
structure Within (d : Desk) (s : Store) (u : Instant) : Prop where
  server : ∀ server, (openAt d.calendar s server u).length ≤ d.limits.maxActive
  owner : ∀ server owner,
    ((openAt d.calendar s server u).filter (·.owner = owner)).length ≤ 1

/-! ## What keeps the limits -/

theorem isOpenIn_iff {calendar : Calendar} : isOpenIn calendar server u c = true ↔
    c.server = server ∧ (c.stageAt calendar u).isOpen = true := by
  rw [isOpenIn, Bool.and_eq_true, decide_eq_true_eq]

/-- Competitions may change as long as they keep server and owner, and none is open later on that
was not before. -/
theorem Within.map {f : Competition → Competition} (h : Within d s v)
    (hs : s'.competitions = s.competitions.map f)
    (hserver : ∀ r, (f r).server = r.server) (howner : ∀ r, (f r).owner = r.owner)
    (hopen : ∀ r ∈ s.competitions, ((f r).stageAt d.calendar u).isOpen = true →
      (r.stageAt d.calendar v).isOpen = true) : Within d s' u := by
  have hin : ∀ server, ∀ r ∈ s.competitions, isOpenIn d.calendar server u (f r) = true →
      isOpenIn d.calendar server v r = true := by
    intro server r hr ho
    rw [isOpenIn_iff, hserver] at ho
    exact isOpenIn_iff.2 ⟨ho.1, hopen r hr ho.2⟩
  constructor
  · intro server
    refine Nat.le_trans ?_ (h.server server)
    rw [openAt, openAt, hs, ← List.countP_eq_length_filter, ← List.countP_eq_length_filter,
      List.countP_map]
    exact List.countP_mono_left fun r hr ho => hin server r hr ho
  · intro server owner
    refine Nat.le_trans ?_ (h.owner server owner)
    rw [openAt, openAt, hs, List.filter_filter, List.filter_filter,
      ← List.countP_eq_length_filter, ← List.countP_eq_length_filter, List.countP_map]
    refine List.countP_mono_left fun r hr ho => ?_
    rw [Function.comp_apply, howner, Bool.and_eq_true] at ho
    rw [Bool.and_eq_true]
    exact ⟨ho.1, hin server r hr ho.2⟩

/-- The limits hold later on if they hold now and nothing is written. -/
theorem Within.mono (h : Within d s v) (hle : v ≤ u) (hs : s'.competitions = s.competitions) :
    Within d s' u := by
  refine h.map (f := id) (by rw [hs, List.map_id]) (fun _ => rfl) (fun _ => rfl) fun r _ ho => ?_
  exact Competition.isOpen_of_le hle ho

/-- A competition may be added where its server has room and its owner has none open. -/
theorem Within.append (h : Within d s u) (hs : s'.competitions = s.competitions ++ [c])
    (hroom : (openAt d.calendar s c.server u).length < d.limits.maxActive)
    (hfirst : ∀ r ∈ openAt d.calendar s c.server u, r.owner ≠ c.owner) : Within d s' u := by
  have hopen : ∀ server, openAt d.calendar s' server u =
      openAt d.calendar s server u ++ [c].filter (isOpenIn d.calendar server u) := by
    intro server
    rw [openAt, hs, List.filter_append]
    rfl
  have hone : ∀ server, ([c].filter (isOpenIn d.calendar server u)).length ≤ 1 :=
    fun server => List.length_filter_le _ [c]
  constructor
  · intro server
    rw [hopen, List.length_append]
    by_cases hc : c.server = server
    · subst hc
      have hle := hone c.server
      omega
    · have hnot : isOpenIn d.calendar server u c = false := by
        rw [← Bool.not_eq_true, isOpenIn_iff]
        exact fun ho => hc ho.1
      rw [List.filter_singleton, hnot]
      exact h.server server
  · intro server owner
    rw [hopen, List.filter_append, List.length_append]
    by_cases hc : c.server = server ∧ c.owner = owner
    · obtain ⟨rfl, rfl⟩ := hc
      have hnone : (openAt d.calendar s c.server u).filter (·.owner = c.owner) = [] := by
        refine List.filter_eq_nil_iff.2 fun r hr => ?_
        rw [decide_eq_true_eq]
        exact hfirst r hr
      rw [hnone, List.length_nil, Nat.zero_add]
      exact Nat.le_trans (List.length_filter_le _ _) (hone c.server)
    · have hnot : ([c].filter (isOpenIn d.calendar server u)).filter (·.owner = owner) = [] := by
        refine List.filter_eq_nil_iff.2 fun r hr ho => ?_
        obtain ⟨hr, hin⟩ := List.mem_filter.1 hr
        obtain rfl := List.mem_singleton.1 hr
        exact hc ⟨(isOpenIn_iff.1 hin).1, of_decide_eq_true ho⟩
      rw [hnot]
      exact h.owner server owner

/-! ## Steps -/

/-- What a passed check of the room says of the table it was made for. -/
theorem checkRoom_eq_ok (h : checkRoom d owner
      ((s.competitionsOf server).filter fun c => (c.stageAt d.calendar u).isOpen) = .ok ()) :
    (openAt d.calendar s server u).length < d.limits.maxActive ∧
      ∀ r ∈ openAt d.calendar s server u, r.owner ≠ owner := by
  have hperm : ((s.competitionsOf server).filter fun c => (c.stageAt d.calendar u).isOpen).Perm
      (openAt d.calendar s server u) := by
    have hmerge := (List.mergeSort_perm (s.competitions.filter (·.server = server)) Store.newer)
    refine (hmerge.filter _).trans (.of_eq ?_)
    rw [List.filter_filter]
    exact List.filter_congr fun r _ => Bool.and_comm _ _
  unfold checkRoom at h
  split at h
  · cases h
  · next hroom =>
    split at h
    · cases h
    · next hany =>
      refine ⟨by rw [← hperm.length_eq]; exact Nat.not_le.1 hroom, fun r hr howner => ?_⟩
      refine hany (List.any_eq_true.2 ⟨r, hperm.mem_iff.2 hr, ?_⟩)
      exact decide_eq_true howner

/-- The limits hold from the clock on. -/
def WithinFromNow (d : Desk) (w : World) : Prop := ∀ u, w.clock ≤ u → Within d w.store u

theorem Creation.within {admin : Bool} {r : Request} {asked checked made : Instant}
    (h : Creation d .forward w server owner admin r asked checked made c w') (hs : w.store.Sound)
    (hup : w.store.CountsUp w'.store) (hw : WithinFromNow d w) : WithinFromNow d w' := by
  intro u hu
  have hchecked : w.clock ≤ checked := Instant.le_trans h.before h.then_checked
  have hlater : checked ≤ u := Instant.le_trans h.then_made (Instant.le_trans h.after hu)
  obtain ⟨hroom, hfirst⟩ := checkRoom_eq_ok h.room
  -- What is open at `u` was open when the room was looked at.
  have hold : ∀ r ∈ openAt d.calendar w.store server u,
      r ∈ openAt d.calendar w.store server checked := by
    intro r hr
    obtain ⟨hr, ho⟩ := List.mem_filter.1 hr
    obtain ⟨hs, ho⟩ := isOpenIn_iff.1 ho
    exact List.mem_filter.2 ⟨hr, isOpenIn_iff.2 ⟨hs, Competition.isOpen_of_le hlater ho⟩⟩
  have hfewer : (openAt d.calendar w.store server u).length ≤
      (openAt d.calendar w.store server checked).length := by
    rw [openAt, openAt, ← List.countP_eq_length_filter, ← List.countP_eq_length_filter]
    refine List.countP_mono_left fun r hr ho => ?_
    exact (List.mem_filter.1 (hold r (List.mem_filter.2 ⟨hr, ho⟩))).2
  have hwithin := hw u (Instant.le_trans hchecked hlater)
  refine hwithin.append (h.competitions hs hup) ?_ ?_
  · rw [h.row]
    exact Nat.lt_of_le_of_lt hfewer hroom
  · rw [h.row]
    exact fun r hr => hfirst r (hold r hr)

theorem Cancellation.within {id : Int} {user : Snowflake} {admin : Bool} {now : Instant}
    (h : Cancellation .forward w id user admin c now w') (hw : WithinFromNow d w) :
    WithinFromNow d w' := by
  intro u hu
  have hle : w.clock ≤ u := Instant.le_trans h.during.before (Instant.le_trans h.during.after hu)
  refine (hw u hle).map (f := Store.written (c.cancel now))
    (by rw [Store.writeCompetition_eq_ok h.stored]) (Store.written_server _)
    (Store.written_owner _) fun r _ ho => ?_
  unfold Store.written at ho
  split at ho
  · rw [Competition.not_isOpen_of_cancelled rfl] at ho
    cases ho
  · exact ho

/-- Other dates may keep a competition open longer, but it was open when they were given. -/
theorem Rescheduling.within {id : Int} {user : Snowflake} {admin : Bool} {dates : Dates}
    {checked made : Instant}
    (h : Rescheduling d .forward w id user admin dates c checked made w') (hs : w.store.Sound)
    (hw : WithinFromNow d w) : WithinFromNow d w' := by
  intro u hu
  have hlater : checked ≤ u := Instant.le_trans h.then_made (Instant.le_trans h.after hu)
  refine (hw checked h.before).map (f := Store.written (c.setDates dates made))
    (by rw [Store.writeCompetition_eq_ok h.stored]) (Store.written_server _)
    (Store.written_owner _) fun r hr ho => ?_
  unfold Store.written at ho
  split at ho
  · next hid =>
    -- The row that was written to is the one that was found, and that had not ended.
    obtain ⟨hc, -⟩ := Store.competition?_eq_some h.found
    rw [hs.competition_eq hr hc hid]
    exact Competition.isOpen_of_running h.live h.running
  · exact Competition.isOpen_of_le hlater ho

theorem Step.within (st : Step d .forward w e w') (he : ∀ draft, e ≠ .insert draft)
    (hs : w.store.Sound) (hw : WithinFromNow d w) : WithinFromNow d w' := by
  have hle : w.clock ≤ w'.clock := st.clock_moves
  have same (hc : w'.store.competitions = w.store.competitions) : WithinFromNow d w' := by
    intro u hu
    exact (hw w.clock (Instant.le_refl _)).mono (Instant.le_trans hle hu) hc
  cases st.change with
  | idle h => exact same (by rw [h.store])
  | create h => exact h.within hs st.countsUp hw
  | cancel h => exact h.within hw
  | reschedule h => exact h.within hs hw
  | add _ h => exact same (by rw [(Store.addParticipant_eq_ok h.stored).2])
  | accept _ h => exact same (by rw [Store.writeParticipant_eq_ok h.stored])
  | leave h => exact same (by rw [Store.writeParticipant_eq_ok h.stored])
  | grant h => exact same (Store.SameRows.addGrant h.stored).competitions
  | revoke h => exact same (Store.SameRows.removeGrant h.stored).competitions
  | enrol h => exact same (Store.SameRows.addPlayer h).competitions
  | insert => exact absurd rfl (he _)

/-! ## Runs -/

/-- After every run of service calls whose clock never goes back, and at every instant from the
clock on, no server has more open competitions than it may, and no owner two in one server. -/
theorem open_within_limits {t : Instant} (h : Run d .forward (World.fresh t) es w)
    (hcalls : ∀ draft, Event.insert draft ∉ es) (hu : w.clock ≤ u) (server : Snowflake) :
    (openAt d.calendar w.store server u).length ≤ d.limits.maxActive ∧
      ∀ owner, ((openAt d.calendar w.store server u).filter (·.owner = owner)).length ≤ 1 := by
  have hempty : WithinFromNow d (World.fresh t) :=
    fun u _ => ⟨fun _ => Nat.zero_le _, fun _ _ => Nat.zero_le _⟩
  have hnow : WithinFromNow d w := by
    refine (h.invariant (P := WithinFromNow d) Store.sound_empty hempty ?_).2
    intro e he u u' hs hu st
    have hcall : ∀ draft, e ≠ .insert draft := fun draft hi => hcalls draft (hi ▸ he)
    exact st.within hcall hs hu
  exact ⟨(hnow u hu).server server, (hnow u hu).owner server⟩

/-- A request for a competition of twenty seconds. -/
def sprint : Request :=
  { channel := ⟨3⟩, title := "Climb", description := "", visibility := .open'
    criteria := .mostWinsChampion 1 none, maxParticipants := 2
    dates := .fixed (.ofSecond 10) (.ofSecond 30) }

/-- In a server of one open competition a second owner is refused, also after the first one has put
off the end. -/
def rivals : List Event :=
  [.call (.createCompetition ⟨1⟩ ⟨2⟩ true sprint), .clock (.ofSecond 20),
    .call (.createCompetition ⟨1⟩ ⟨4⟩ true sprint),
    .call (.updateDates 1 ⟨2⟩ false (.fixed (.ofSecond 10) (.ofSecond 50))), .clock (.ofSecond 40),
    .call (.createCompetition ⟨1⟩ ⟨4⟩ true sprint)]

/-- The desk of that server. -/
def strict : Desk := ofLimits { maxActive := 1, cooldown := 0 }

/-- The world that they leave. -/
def contested : World := rivals.foldl (tick strict) (World.fresh (.ofSecond 0))

theorem run_rivals : Run strict .forward (World.fresh (.ofSecond 0)) rivals contested := by
  have h₁ : Instant.ofSecond 0 ≤ .ofSecond 20 := by decide
  have h₂ : Instant.ofSecond 20 ≤ .ofSecond 40 := by decide
  exact Run.play ⟨h₁, h₂, trivial⟩ (by decide)

theorem contested_clock : contested.clock = .ofSecond 40 := by
  simp only [contested, rivals, List.foldl, tick_clock, Event.clockAfter]

theorem open_within_limits_rivals :
    (openAt .builtin contested.store ⟨1⟩ (.ofSecond 45)).length ≤ 1 ∧ ∀ owner,
      ((openAt .builtin contested.store ⟨1⟩ (.ofSecond 45)).filter
        (·.owner = owner)).length ≤ 1 := by
  have hcalls : ∀ draft, Event.insert draft ∉ rivals := by
    intro draft h
    simp [rivals] at h
  have hu : contested.clock ≤ .ofSecond 45 := by
    rw [contested_clock]
    decide
  exact open_within_limits run_rivals hcalls hu ⟨1⟩

end Steward.Desk
