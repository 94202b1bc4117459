import Steward.Proofs.Desk.Permanence

/-!
# What counts as open

Lists and the room for creations go by the stage of a competition; participants and other dates go
by its end. They agree on every competition whose dates are valid, unless its season ends before it
starts: between the two it is over, and counts as open.

* `checkOpen_eq_ok_iff`: when a competition takes changes.
* `mem_opened_iff`, `listed_iff`: when a stored competition counts, and when it is listed.
* `open_iff_running`: both are the same but for such seasons.
* `backward_open_and_over`: a competition that is listed and counts, and takes no changes.
-/

namespace Steward.Desk

open Call Time

variable {d : Desk} {pace : Pace} {w : World} {es : List Event} {c : Competition} {now : Instant}
  {user : Snowflake} {admin : Bool} {dates : Dates}

theorem checkOpen_eq_ok_iff : checkOpen d c now = .ok () ↔
    c.isCancelled = false ∧ c.hasEnded d.calendar now = false := by
  unfold checkOpen
  cases c.isCancelled with
  | true => exact ⟨nofun, nofun⟩
  | false =>
    cases c.hasEnded d.calendar now with
    | true => exact ⟨nofun, nofun⟩
    | false => exact ⟨fun _ => ⟨rfl, rfl⟩, fun _ => rfl⟩

/-- A list of the open competitions of its server shows the competition. -/
def Listed (d : Desk) (w : World) (c : Competition) : Prop :=
  ∃ views, (listCompetitions d c.server true).alone w = (.ok views, w) ∧
    ∃ v ∈ views, v.competition = c

/-- A user may give the competition other dates. -/
def Redatable (d : Desk) (w : World) (c : Competition) (user : Snowflake) (admin : Bool)
    (dates : Dates) : Prop :=
  ∃ v w', (updateDates d c.id user admin dates).alone w = (.ok v, w')

theorem mem_opened_iff (hc : c ∈ w.store.competitions) :
    c ∈ opened d w c.server ↔ (c.stageAt d.calendar w.clock).isOpen = true := by
  have hof : c ∈ w.store.competitionsOf c.server := Store.mem_competitionsOf.2 ⟨hc, rfl⟩
  rw [opened, List.mem_filter, and_iff_right hof]

theorem listed_iff (hc : c ∈ w.store.competitions) :
    Listed d w c ↔ (c.stageAt d.calendar w.clock).isOpen = true := by
  rw [← mem_opened_iff hc, opened]
  unfold Listed
  rw [alone_listCompetitions]
  simp only [Bool.not_true, Bool.false_or]
  constructor
  · rintro ⟨views, hviews, v, hv, rfl⟩
    obtain rfl := Except.ok.inj (Prod.mk.inj hviews).1
    obtain ⟨c', hc', rfl⟩ := List.mem_map.1 hv
    exact hc'
  · intro hmem
    exact ⟨_, rfl, _, List.mem_map_of_mem hmem, rfl⟩

theorem redatable_iff (found : w.store.competition? c.id = some c) (managed : Manages user admin c)
    (hd : checkDates d dates w.clock = .ok ()) :
    Redatable d w c user admin dates ↔ checkOpen d c w.clock = .ok () := by
  unfold Redatable
  rw [alone_updateDates found (checkManage_eq_ok_iff.2 managed) hd]
  cases checkOpen d c w.clock with
  | error e =>
    simp only [Prod.mk.injEq, reduceCtorEq, false_and, exists_false]
  | ok _ =>
    simp only [Prod.mk.injEq, Except.ok.injEq, exists_and_left, exists_eq', and_true]

/-- A competition with valid dates is open if and only if it is neither cancelled nor over, but for
one whose season ends before it starts. So after every run of service calls what is listed, and what
counts when another one is created, is exactly what takes participants and other dates, with the
same exception. -/
theorem open_iff_running {t : Instant} (h : Run d pace (World.fresh t) es w)
    (hinsert : ∀ draft, .insert draft ∈ es → draft.WellFormed d) :
    (∀ (calendar : Calendar) (c : Competition) (now : Instant),
      c.dates.validate calendar = .ok () →
      ((c.stageAt calendar now).isOpen = true ↔ c.isCancelled = false ∧
        (c.hasEnded calendar now = false ∨ c.InBackwardSeason calendar now))) ∧
    ∀ c ∈ w.store.competitions,
      (Listed d w c ↔ checkOpen d c w.clock = .ok () ∨
        c.isCancelled = false ∧ c.InBackwardSeason d.calendar w.clock) ∧
      (c ∈ opened d w c.server ↔ checkOpen d c w.clock = .ok () ∨
        c.isCancelled = false ∧ c.InBackwardSeason d.calendar w.clock) ∧
      ∀ user admin dates, Manages user admin c → checkDates d dates w.clock = .ok () →
        (Redatable d w c user admin dates ↔ checkOpen d c w.clock = .ok ()) := by
  refine ⟨fun calendar c now hvalid => Competition.isOpen_iff_running hvalid, fun c hc => ?_⟩
  obtain ⟨hs, hw⟩ := h.wellFormed hinsert
  have hopen : (c.stageAt d.calendar w.clock).isOpen = true ↔ checkOpen d c w.clock = .ok () ∨
      c.isCancelled = false ∧ c.InBackwardSeason d.calendar w.clock := by
    rw [Competition.isOpen_iff_running (hw c hc).dates, checkOpen_eq_ok_iff, and_or_left]
  have found := hs.competition?_eq_some_iff.2 ⟨hc, rfl⟩
  exact ⟨(listed_iff hc).trans hopen, (mem_opened_iff hc).trans hopen,
    fun user admin dates managed hd => redatable_iff found managed hd⟩

/-- The competition of `outed`. -/
def outedRow : Competition := ((outing brief).toDraft ⟨1⟩ ⟨2⟩).toCompetition 1 (.ofSecond 0)

theorem open_iff_running_outed :
    (outedRow.stageAt .builtin (.ofSecond 20)).isOpen = true ∧
      Listed (.ofLimits {}) outed outedRow ∧ outedRow ∈ opened (.ofLimits {}) outed ⟨1⟩ ∧
      Redatable (.ofLimits {}) outed outedRow ⟨2⟩ false ahead := by
  obtain ⟨hstage, hrows⟩ := open_iff_running (run_firstOuting .forward)
    fun draft hmem => absurd hmem (insert_not_mem_firstOuting draft)
  have hnow : checkOpen (.ofLimits {}) outedRow outed.clock = .ok () := by decide
  obtain ⟨hlisted, hopened, hdates⟩ := hrows outedRow (.head _)
  refine ⟨?_, hlisted.2 (.inl hnow), hopened.2 (.inl hnow), ?_⟩
  · exact (hstage .builtin outedRow (.ofSecond 20) (by decide)).2 ⟨rfl, .inl (by decide)⟩
  · exact (hdates ⟨2⟩ false ahead (.inr rfl) (by decide)).2 hnow

/-! ## A season that ends before it starts -/

/-- A desk whose only season starts at 30 and ends at 10. -/
def turned : Desk := { ofLimits {} with calendar := [⟨"S", "Season", .ofSecond 30, .ofSecond 10⟩] }

/-- The world between the two, with a competition of that season. -/
def between : World :=
  { created turned (World.fresh (.ofSecond 0)) ⟨1⟩ ⟨2⟩ (outing (.season "S")) with
    clock := .ofSecond 20 }

/-- The competition. -/
def turnedOuting : Competition :=
  ((outing (.season "S")).toDraft ⟨1⟩ ⟨2⟩).toCompetition 1 (.ofSecond 0)

theorem run_between : Run turned .forward (World.fresh (.ofSecond 0))
    [.call (.createCompetition ⟨1⟩ ⟨2⟩ true (outing (.season "S"))), .clock (.ofSecond 20)]
    between := by
  obtain ⟨v, hfirst⟩ := runs_outing turned .forward (World.fresh (.ofSecond 0)) ⟨1⟩ ⟨2⟩
    (.season "S") (by decide) (by decide) (by decide) (by decide) (by decide)
  have hlater : Instant.ofSecond 0 ≤ .ofSecond 20 := by decide
  exact .cons (.call hfirst (by decide)) (.cons (.clock hlater) .nil)

/-- It is a draft, listed and counted, and it is over: participants and other dates are refused. -/
theorem backward_open_and_over :
    turnedOuting.dates.validate turned.calendar = .ok () ∧
      (turnedOuting.stageAt turned.calendar (.ofSecond 20)).isOpen = true ∧
      turnedOuting.isCancelled = false ∧
      turnedOuting.hasEnded turned.calendar (.ofSecond 20) = true ∧
      (∃ es, Run turned .forward (World.fresh (.ofSecond 0)) es between) ∧
      Listed turned between turnedOuting ∧ turnedOuting ∈ opened turned between ⟨1⟩ ∧
      checkOpen turned turnedOuting between.clock = .error (.ended 1) ∧
      ¬Redatable turned between turnedOuting ⟨2⟩ false (.fixed (.ofSecond 30) (.ofSecond 40)) := by
  have hc : turnedOuting ∈ between.store.competitions := .head _
  have hopen : (turnedOuting.stageAt turned.calendar between.clock).isOpen = true := by decide
  have hended : checkOpen turned turnedOuting between.clock = .error (.ended 1) := by decide
  refine ⟨by decide, by decide, rfl, by decide, ⟨_, run_between⟩, (listed_iff hc).2 hopen,
    (mem_opened_iff hc).2 hopen, hended, ?_⟩
  have found : between.store.competition? turnedOuting.id = some turnedOuting := by decide
  have managed : Manages ⟨2⟩ false turnedOuting := .inr rfl
  rw [redatable_iff found managed (by decide), hended]
  exact nofun

end Steward.Desk
