import Steward.Proofs.Competition.Request
import Steward.Proofs.Desk.Spacing

/-!
# What stays of a competition

The table of competitions only grows. Its rows are well formed from the start and stay as they were
made, but for two things: they may be cancelled, and as long as they run they may be given other
dates, in both cases by the owner or an administrator.

* `Alters`: what an event may do to a row.
* `Change.competitions`: every change keeps the rows there were, so altered, and puts well formed
  ones behind them.
* `Persists`: what is left of a row after any number of events.
* `competitions_endure`: both hold after and during every run of service calls.
-/

namespace Steward.Desk

open Call Time

variable {d : Desk} {pace : Pace} {s s' : Store} {w w' w'' : World} {e : Event} {es : List Event}
  {user : Snowflake} {admin : Bool} {c c' c'' : Competition} {now : Instant} {dates : Dates}

/-! ## Rows -/

/-- A user may manage a competition: an administrator, or its owner. -/
def Manages (user : Snowflake) (admin : Bool) (c : Competition) : Prop :=
  admin = true ∨ c.owner = user

theorem checkManage_eq_ok_iff : checkManage c user admin = .ok () ↔ Manages user admin c := by
  have howner : c.isOwner user = true ↔ c.owner = user := decide_eq_true_iff
  rw [checkManage, Manages, ← howner, ← Bool.or_eq_true]
  split
  · next h => exact ⟨fun _ => h, fun _ => rfl⟩
  · next h => exact ⟨nofun, fun k => absurd k h⟩

/-- A row that differs in nothing but dates, cancellation and last update. -/
def SameMaking (c c' : Competition) : Prop :=
  c' = { c with dates := c'.dates, isCancelled := c'.isCancelled, updatedAt := c'.updatedAt }

/-- A call that cancels a row. -/
structure CancelledBy (e : Event) (user : Snowflake) (admin : Bool) (c : Competition) : Prop where
  event : e = .call (.cancelCompetition c.id user admin)
  managed : Manages user admin c
  live : c.isCancelled = false

/-- A call that gives a row other dates, given what holds at `now`. -/
structure RedatedBy (d : Desk) (e : Event) (user : Snowflake) (admin : Bool) (now : Instant)
    (c : Competition) (dates : Dates) : Prop where
  event : e = .call (.updateDates c.id user admin dates)
  managed : Manages user admin c
  live : c.isCancelled = false
  running : c.hasEnded d.calendar now = false
  valid : dates.validate d.calendar = .ok ()
  later : ∃ start finish, dates.resolve? d.calendar = some (start, finish) ∧ now < finish

/-- What an event may do to a row. -/
structure Alters (d : Desk) (pace : Pace) (e : Event) (w w' : World) (c c' : Competition) :
    Prop where
  rest : SameMaking c c'
  cancelled : c'.isCancelled = c.isCancelled ∨
    c'.isCancelled = true ∧ ∃ user admin, CancelledBy e user admin c
  dates : c'.dates = c.dates ∨
    ∃ user admin now, w.During pace now w' ∧ RedatedBy d e user admin now c c'.dates

/-- What is left of a row whatever happens. -/
structure Persists (c c' : Competition) : Prop where
  rest : SameMaking c c'
  cancelled : c.isCancelled = true → c'.isCancelled = true

theorem Alters.refl (d : Desk) (pace : Pace) (e : Event) (w w' : World) (c : Competition) :
    Alters d pace e w w' c c := ⟨rfl, .inl rfl, .inl rfl⟩

theorem Alters.persists (h : Alters d pace e w w' c c') : Persists c c' where
  rest := h.rest
  cancelled hc := by
    obtain hsame | ⟨hyes, -⟩ := h.cancelled
    · rw [hsame, hc]
    · exact hyes

theorem Alters.wellFormed (h : Alters d pace e w w' c c') (hc : c.WellFormed d) :
    c'.WellFormed d := by
  have hdraft : c'.toDraft = { c.toDraft with dates := c'.dates } :=
    congrArg Competition.toDraft h.rest
  rw [hdraft]
  obtain hsame | ⟨_, _, _, -, hgiven⟩ := h.dates
  · rw [hsame]
    exact hc
  · exact { hc with dates := hgiven.valid }

theorem SameMaking.trans (h : SameMaking c c') (k : SameMaking c' c'') : SameMaking c c'' := by
  have hmade := congrArg (fun x : Competition =>
    { x with dates := c''.dates, isCancelled := c''.isCancelled, updatedAt := c''.updatedAt }) h
  exact Eq.trans k hmade

theorem Persists.refl (c : Competition) : Persists c c := ⟨rfl, id⟩

theorem Persists.trans (h : Persists c c') (k : Persists c' c'') : Persists c c'' :=
  ⟨h.rest.trans k.rest, fun hc => k.cancelled (h.cancelled hc)⟩

/-! ## Tables -/

/-- Every row has kept its place, whatever has become of it. -/
def Grows (R : Competition → Competition → Prop) (s s' : Store) : Prop :=
  ∀ (i : Nat) c, s.competitions[i]? = some c → ∃ c', s'.competitions[i]? = some c' ∧ R c c'

section
variable {R S : Competition → Competition → Prop}

theorem Grows.refl (hr : ∀ c, R c c) (s : Store) : Grows R s s := fun _ c hc => ⟨c, hc, hr c⟩

theorem Grows.trans {s'' : Store} (hr : ∀ {a b c}, R a b → R b c → R a c) (h : Grows R s s')
    (k : Grows R s' s'') : Grows R s s'' := by
  intro i c hc
  obtain ⟨c', hc', hfirst⟩ := h i c hc
  obtain ⟨c'', hc'', hsecond⟩ := k i c' hc'
  exact ⟨c'', hc'', hr hfirst hsecond⟩

theorem Grows.mono (h : Grows R s s') (hrs : ∀ {a b}, R a b → S a b) : Grows S s s' := by
  intro i c hc
  obtain ⟨c', hc', hr⟩ := h i c hc
  exact ⟨c', hc', hrs hr⟩

theorem grows_of_append {f : Competition → Competition} {new : List Competition}
    (hs : s'.competitions = s.competitions.map f ++ new)
    (hf : ∀ c ∈ s.competitions, R c (f c)) : Grows R s s' := by
  intro i c hc
  refine ⟨f c, ?_, hf c (List.mem_of_getElem? hc)⟩
  have hi : i < (s.competitions.map f).length := by
    rw [List.length_map]
    exact (List.getElem?_eq_some_iff.1 hc).1
  rw [hs, List.getElem?_append_left hi, List.getElem?_map, hc]
  rfl

end

/-! ## Steps -/

theorem Cancellation.alters {id : Int} (h : Cancellation pace w id user admin c now w')
    (hs : w.store.Sound) (hr : c' ∈ w.store.competitions) :
    Alters d pace (.call (.cancelCompetition id user admin)) w w' c'
      (Store.written (c.cancel now) c') := by
  have found := h.found
  obtain ⟨-, rfl⟩ := Store.competition?_eq_some found
  obtain hsame | ⟨rfl, hwritten⟩ := hs.written_cases (c.cancel now) found rfl hr
  · rw [hsame]
    exact .refl d pace _ w w' c'
  · rw [hwritten]
    have hby := CancelledBy.mk (e := .call (.cancelCompetition c'.id user admin)) rfl
      (checkManage_eq_ok_iff.1 h.managed) h.live
    exact { rest := rfl, cancelled := .inr ⟨rfl, user, admin, hby⟩, dates := .inl rfl }

theorem Rescheduling.alters {id : Int} {checked made : Instant}
    (h : Rescheduling d pace w id user admin dates c checked made w') (hs : w.store.Sound)
    (hr : c' ∈ w.store.competitions) :
    Alters d pace (.call (.updateDates id user admin dates)) w w' c'
      (Store.written (c.setDates dates made) c') := by
  have found := h.found
  obtain ⟨-, rfl⟩ := Store.competition?_eq_some found
  obtain hsame | ⟨rfl, hwritten⟩ := hs.written_cases (c.setDates dates made) found rfl hr
  · rw [hsame]
    exact .refl d pace _ w w' c'
  · rw [hwritten]
    obtain ⟨hvalid, hlater⟩ := checkDates_eq_ok h.dates_ok
    have hduring : w.During pace checked w' := ⟨h.before, pace.trans h.then_made h.after⟩
    have hby : RedatedBy d (.call (.updateDates c'.id user admin dates)) user admin checked c'
        dates :=
      { event := rfl, managed := checkManage_eq_ok_iff.1 h.managed, live := h.live
        running := h.running, valid := hvalid, later := hlater }
    exact
      { rest := rfl, cancelled := .inl rfl
        dates := .inr ⟨user, admin, checked, hduring, hby⟩ }

/-- What a change leaves of the table: the rows there were, perhaps altered, and new ones. -/
theorem Change.competitions (h : Change d pace e w w') (hs : w.store.Sound)
    (hup : w.store.CountsUp w'.store) : ∃ f new,
    w'.store.competitions = w.store.competitions.map f ++ new ∧
      (∀ c ∈ w.store.competitions, Alters d pace e w w' c (f c)) ∧
      ∀ c ∈ new, e = .insert c.toDraft ∨ c.WellFormed d := by
  have unaltered : ∀ c ∈ w.store.competitions, Alters d pace e w w' c (id c) :=
    fun c _ => .refl d pace e w w' c
  have same (hc : w'.store.competitions = w.store.competitions) : ∃ f new,
      w'.store.competitions = w.store.competitions.map f ++ new ∧
        (∀ c ∈ w.store.competitions, Alters d pace e w w' c (f c)) ∧
        ∀ c ∈ new, e = .insert c.toDraft ∨ c.WellFormed d := by
    refine ⟨id, [], ?_, unaltered, List.forall_mem_nil _⟩
    rw [hc, List.map_id, List.append_nil]
  cases h with
  | idle h => exact same (by rw [h.store])
  | @create server owner _ _ _ _ _ c _ _ h =>
    refine ⟨id, [c], ?_, unaltered, List.forall_mem_singleton.2 (.inr ?_)⟩
    · rw [h.competitions hs hup, List.map_id]
    · rw [h.row]
      exact wellFormed_toDraft h.sound h.dates server owner
  | cancel h =>
    refine ⟨_, [], ?_, fun r hr => h.alters hs hr, List.forall_mem_nil _⟩
    rw [Store.writeCompetition_eq_ok h.stored, List.append_nil]
  | reschedule h =>
    refine ⟨_, [], ?_, fun r hr => h.alters hs hr, List.forall_mem_nil _⟩
    rw [Store.writeCompetition_eq_ok h.stored, List.append_nil]
  | add _ h => exact same (by rw [(Store.addParticipant_eq_ok h.stored).2])
  | accept _ h => exact same (by rw [Store.writeParticipant_eq_ok h.stored])
  | leave h => exact same (by rw [Store.writeParticipant_eq_ok h.stored])
  | grant h => exact same (Store.SameRows.addGrant h.stored).competitions
  | revoke h => exact same (Store.SameRows.removeGrant h.stored).competitions
  | enrol h => exact same (Store.SameRows.addPlayer h).competitions
  | @insert draft =>
    refine ⟨id, [draft.toCompetition w.store.nextId w.clock], ?_, unaltered,
      List.forall_mem_singleton.2 (.inl rfl)⟩
    rw [List.map_id]
    exact congrArg Store.competitions (hs.last.addCompetition_eq hup).2

theorem Step.grows (h : Step d pace w e w') (hs : w.store.Sound) :
    Grows (Alters d pace e w w') w.store w'.store := by
  obtain ⟨f, new, happend, hf, -⟩ := h.change.competitions hs h.countsUp
  exact grows_of_append happend hf

/-- All competitions that are stored are well formed. -/
def AllWellFormed (d : Desk) (w : World) : Prop := ∀ c ∈ w.store.competitions, c.WellFormed d

theorem Step.wellFormed (h : Step d pace w e w') (hs : w.store.Sound)
    (he : ∀ draft, e = .insert draft → draft.WellFormed d) (hw : AllWellFormed d w) :
    AllWellFormed d w' := by
  obtain ⟨f, new, happend, hf, hnew⟩ := h.change.competitions hs h.countsUp
  intro c' hc'
  rw [happend] at hc'
  obtain hold | hc' := List.mem_append.1 hc'
  · obtain ⟨c, hc, rfl⟩ := List.mem_map.1 hold
    exact (hf c hc).wellFormed (hw c hc)
  · obtain hinsert | hchecked := hnew c' hc'
    · exact he _ hinsert
    · exact hchecked

/-! ## Runs -/

theorem Run.wellFormed {t : Instant} (h : Run d pace (World.fresh t) es w)
    (hinsert : ∀ draft, .insert draft ∈ es → draft.WellFormed d) :
    w.store.Sound ∧ AllWellFormed d w := by
  refine h.invariant Store.sound_empty (List.forall_mem_nil _) ?_
  intro e he u u' hs hu st
  exact st.wellFormed hs (fun draft hi => hinsert draft (hi ▸ he)) hu

theorem Run.persists (h : Run d pace w es w') (hs : w.store.Sound) :
    Grows Persists w.store w'.store := by
  induction h with
  | nil => exact .refl Persists.refl _
  | cons st _ ih =>
    have hfirst := (st.grows hs).mono Alters.persists
    exact hfirst.trans Persists.trans (ih (st.sound hs))

/-- After every run of service calls all stored competitions are well formed, and their identifiers
ascend in the order of their creation. Each further event leaves every row in its place and alters
nothing but what a manager cancels or gives other dates while it runs; and what is cancelled stays
so for good. -/
theorem competitions_endure {t : Instant} (h : Run d pace (World.fresh t) es w)
    (hinsert : ∀ draft, .insert draft ∈ es → draft.WellFormed d) :
    (∀ c ∈ w.store.competitions, c.WellFormed d) ∧
      w.store.competitions.Pairwise (·.id < ·.id) ∧
      (∀ e w', Step d pace w e w' → Grows (Alters d pace e w w') w.store w'.store) ∧
      ∀ es' w', Run d pace w es' w' → Grows Persists w.store w'.store := by
  obtain ⟨hs, hw⟩ := h.wellFormed hinsert
  refine ⟨hw, hs.ids, ?_, ?_⟩
  · intro e w' st
    exact st.grows hs
  · intro es' w' hrun
    exact hrun.persists hs

/-- One creation. -/
def firstOuting : List Event := [.call (.createCompetition ⟨1⟩ ⟨2⟩ true (outing brief))]

theorem run_firstOuting (pace : Pace) :
    Run (.ofLimits {}) pace (World.fresh (.ofSecond 0)) firstOuting outed := by
  obtain ⟨v, hfirst⟩ := runs_outed pace
  exact .cons (.call hfirst (by decide)) .nil

theorem insert_not_mem_firstOuting (draft : Competition.Draft) : .insert draft ∉ firstOuting := by
  intro hmem
  cases List.mem_singleton.1 hmem

/-- Its owner puts the competition off. -/
def putOff : Event := .call (.updateDates 1 ⟨2⟩ false ahead)

theorem competitions_endure_putOff :
    (outed.store.competitions ≠ [] ∧ ∀ c ∈ outed.store.competitions, c.WellFormed (.ofLimits {})) ∧
      (tick (.ofLimits {}) outed putOff).store.competitions.map (·.dates) = [ahead] ∧
      Grows (Alters (.ofLimits {}) .forward putOff outed (tick (.ofLimits {}) outed putOff))
        outed.store (tick (.ofLimits {}) outed putOff).store := by
  obtain ⟨hformed, -, hstep, -⟩ := competitions_endure (run_firstOuting .forward)
    fun draft hmem => absurd hmem (insert_not_mem_firstOuting draft)
  refine ⟨⟨List.cons_ne_nil _ _, hformed⟩, by decide, ?_⟩
  exact hstep putOff _ (.call (Script.runs_run _ outed) (by decide))

end Steward.Desk
