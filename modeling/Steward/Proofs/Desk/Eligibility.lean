import Steward.Proofs.Cooldown
import Steward.Proofs.Desk.AloneCalls

/-!
# The preview of a creation, and the creation

Who may create is decided once, before anything else of a creation is looked at, and the preview
shows that decision. So the two agree when they run alone at the same instant. All that a creation
may fail with later on is of another kind than what the preview announces.

* `alone_createCompetition_of_wait`, `alone_createCompetition_of_denied`: what the preview announces
  is what the creation fails with.
* `not_isIneligible_of_allowed`: nothing that is checked later fails for the same reasons.
* `preview_created`: after a creation the whole cooldown lies ahead.
* `creation_as_previewed`: so preview and creation agree.
-/

namespace Steward

namespace CreationPreview

/-- How long the user has to wait, in seconds. -/
def retryAfter? : CreationPreview → Option Int
  | wait _ secs => some secs
  | allowed | denied _ => none

variable {p : CreationPreview} {secs : Int}

theorem canCreate_iff : p.canCreate = true ↔ p = .allowed := by
  cases p <;> simp [canCreate]

theorem retryAfter?_eq_some_iff : p.retryAfter? = some secs ↔ ∃ reason, p = .wait reason secs := by
  cases p <;> simp [retryAfter?]

theorem denied_iff :
    p.canCreate = false ∧ p.retryAfter? = none ↔ ∃ reason, p = .denied reason := by
  cases p <;> simp [canCreate, retryAfter?]

end CreationPreview

/-- Whether a setback says that the user may not create, now or at all. -/
def Setback.isIneligible : Setback → Bool
  | .refusal (.rateLimited _) | .refusal (.missingPermission _) => true
  | _ => false

namespace Desk

open Call Time

variable {d : Desk} {w w' : World} {server user : Snowflake} {admin : Bool} {r : Request}
  {reason : String} {secs : Int} {e : Setback} {v : CompetitionView}

/-! ## What keeps a creation from starting -/

theorem alone_createCompetition_of_wait
    (h : preview d w server user admin = .wait reason secs) :
    (createCompetition d server user admin r).alone w =
      (.error (.refusal (.rateLimited secs)), w) := by
  have hasked : (canCreateCompetition d server user admin).alone w =
      (.ok (.wait reason secs), w) := by
    rw [alone_preview, h]
  rw [createCompetition, alone_bind_ok hasked]
  rfl

theorem alone_createCompetition_of_denied (h : preview d w server user admin = .denied reason) :
    (createCompetition d server user admin r).alone w =
      (.error (.refusal (.missingPermission .createCompetition)), w) := by
  have hasked : (canCreateCompetition d server user admin).alone w = (.ok (.denied reason), w) := by
    rw [alone_preview, h]
  rw [createCompetition, alone_bind_ok hasked]
  rfl

/-- Only the missing grant is denied, and it is denied whatever the cooldown says. -/
theorem preview_denied_iff : (∃ reason, preview d w server user admin = .denied reason) ↔
    admin = false ∧ w.store.grant? server user .createCompetition = none := by
  unfold preview
  split
  · next permitted =>
    have hnever : ∀ reason, previewOf (Cooldowns.decide d.cooldown
        (w.store.cooldowns.last? (server, user)) w.clock) ≠ .denied reason := by
      intro reason
      cases Cooldowns.decide d.cooldown (w.store.cooldowns.last? (server, user)) w.clock <;> nofun
    simp only [Bool.or_eq_true] at permitted
    constructor
    · rintro ⟨reason, h⟩
      exact absurd h (hnever reason)
    · rintro ⟨rfl, hnone⟩
      simp [hnone] at permitted
  · next permitted => simpa using permitted

/-! ## What else a creation may fail with -/

theorem not_isIneligible_of_checkRequest (h : checkRequest d r = .error e) :
    e.isIneligible = false := by
  unfold checkRequest at h
  cases hv : r.validate with
  | error faults =>
    rw [hv] at h
    cases h
    rfl
  | ok _ =>
    by_cases hlimit : d.limits.maxParticipants < r.maxParticipants
    · rw [hv, if_pos hlimit] at h
      cases h
      rfl
    · cases hc : r.criteria.validate with
      | error f =>
        rw [hv, if_neg hlimit, hc] at h
        cases h
        rfl
      | ok _ =>
        rw [hv, if_neg hlimit, hc] at h
        cases h

theorem not_isIneligible_of_checkDates {dates : Dates} {now : Instant} {f : Refusal}
    (h : checkDates d dates now = .error f) : (Setback.refusal f).isIneligible = false := by
  unfold checkDates at h
  split at h
  · cases h
    rfl
  · split at h
    · split at h
      · cases h
        rfl
      · cases h
    · cases h

theorem not_isIneligible_of_checkRoom {opened : List Competition} {f : Refusal}
    (h : checkRoom d user opened = .error f) : (Setback.refusal f).isIneligible = false := by
  unfold checkRoom at h
  split at h
  · cases h
    rfl
  · split at h
    · cases h
      rfl
    · cases h

theorem not_isIneligible_of_allowed (allowed : preview d w server user admin = .allowed)
    (h : (createCompetition d server user admin r).alone w = (.error e, w')) :
    e.isIneligible = false := by
  rw [alone_createCompetition_of_allowed allowed] at h
  cases hr : checkRequest d r with
  | error f =>
    simp only [hr, Prod.mk.injEq, Except.error.injEq] at h
    rw [← h.1]
    exact not_isIneligible_of_checkRequest hr
  | ok _ =>
    cases hd : checkDates d r.dates w.clock with
    | error f =>
      simp only [hr, hd, Prod.mk.injEq, Except.error.injEq] at h
      rw [← h.1]
      exact not_isIneligible_of_checkDates hd
    | ok _ =>
      cases hroom : checkRoom d user (opened d w server) with
      | error f =>
        simp only [hr, hd, hroom, Prod.mk.injEq, Except.error.injEq] at h
        rw [← h.1]
        exact not_isIneligible_of_checkRoom hroom
      | ok _ => simp [hr, hd, hroom] at h

/-! ## After a creation -/

theorem created_of_alone (h : (createCompetition d server user admin r).alone w =
    (.ok v, w')) : w' = created d w server user r := by
  cases hp : preview d w server user admin with
  | wait reason secs =>
    rw [alone_createCompetition_of_wait hp] at h
    cases h
  | denied reason =>
    rw [alone_createCompetition_of_denied hp] at h
    cases h
  | allowed =>
    rw [alone_createCompetition_of_allowed hp] at h
    split at h
    · cases h
    · split at h
      · cases h
      · split at h
        · cases h
        · exact (Prod.mk.inj h).2.symm

/-- Whoever has just created has the whole cooldown ahead, if there is one. -/
theorem preview_created (hfits : d.cooldown ≤ 9000000000000000) :
    preview d (created d w server user r) server user true =
      previewOf (if d.cooldown = 0 then .allowed else .wait d.cooldown) :=
  preview_of_decide (.inl rfl) (Cooldowns.decide_record_self _ _ _ hfits)

/-! ## Agreement -/

/-- Whatever the store and the clock are, the preview of a creation says what the creation meets.
Where it says how long to wait, the creation fails with the rate limit of just as many seconds.
Where it says no but not how long, the creation fails with the missing permission; so it does,
whatever the cooldown, exactly where a user who is no administrator has no grant. Where it says yes,
the creation may fail for other reasons only. And once a creation has succeeded, an administrator in
the user's place is told at the same instant to wait for the whole cooldown, or is allowed to create
again where there is none. -/
theorem creation_as_previewed (d : Desk) (w : World) (server user : Snowflake) (admin : Bool)
    (r : Request) :
    ∃ told, (canCreateCompetition d server user admin).alone w = (.ok told, w) ∧
      (∀ secs, told.canCreate = false → told.retryAfter? = some secs →
        (createCompetition d server user admin r).alone w =
          (.error (.refusal (.rateLimited secs)), w)) ∧
      (told.canCreate = false → told.retryAfter? = none →
        (createCompetition d server user admin r).alone w =
          (.error (.refusal (.missingPermission .createCompetition)), w)) ∧
      (told.canCreate = true → ∀ e w',
        (createCompetition d server user admin r).alone w = (.error e, w') →
          e.isIneligible = false) ∧
      (told.canCreate = false ∧ told.retryAfter? = none ↔
        admin = false ∧ w.store.grant? server user .createCompetition = none) ∧
      ∀ v w', (createCompetition d server user admin r).alone w = (.ok v, w') →
        d.cooldown ≤ 9000000000000000 →
          ∃ next, (canCreateCompetition d server user true).alone w' = (.ok next, w') ∧
            (next.canCreate = true ↔ d.cooldown = 0) ∧
            next.retryAfter? = if d.cooldown = 0 then none else some (d.cooldown : Int) := by
  refine ⟨preview d w server user admin, alone_preview d w server user admin, ?_, ?_, ?_, ?_, ?_⟩
  · intro secs _ hwait
    obtain ⟨reason, hp⟩ := CreationPreview.retryAfter?_eq_some_iff.1 hwait
    exact alone_createCompetition_of_wait hp
  · intro hno hnever
    obtain ⟨reason, hp⟩ := CreationPreview.denied_iff.1 ⟨hno, hnever⟩
    exact alone_createCompetition_of_denied hp
  · intro hyes e w' hfails
    exact not_isIneligible_of_allowed (CreationPreview.canCreate_iff.1 hyes) hfails
  · rw [CreationPreview.denied_iff]
    exact preview_denied_iff
  · intro v w' hcreated hfits
    obtain rfl := created_of_alone hcreated
    refine ⟨_, alone_preview d _ server user true, ?_⟩
    rw [preview_created hfits]
    by_cases hzero : d.cooldown = 0
    · simp [hzero, previewOf, CreationPreview.canCreate, CreationPreview.retryAfter?]
    · simp [hzero, previewOf, CreationPreview.canCreate, CreationPreview.retryAfter?]

end Desk

end Steward
