import Steward.Proofs.Desk.Frame
import Steward.Proofs.History

/-!
# Grants and their history

What users are told about a permission depends on no more than the calls that granted and revoked
it: a permission is held where the last of them granted it, and the grant that is kept is the first
one since it was last taken away, however often it was granted again.

* `Deed`, `deeds`: what calls ask to be done to the grants, whatever the grants are.
* `Held`, `InForce`: what is left of a history.
* `Tracks.tick`: the table of grants follows the history, event by event.
* `grants_follow_history`: so every answer about grants is the one that the history gives.
-/

namespace Steward.Desk

open Call Time

/-- What a grant is stored under: server, user and permission. -/
abbrev GrantKey := Snowflake × Snowflake × Permission

/-! ## Histories -/

/-- What a call asks to be done to the grants. -/
inductive Deed where
  | grant (g : Grant)
  | revoke (key : GrantKey)

namespace Deed

/-- The key that a deed is about. -/
def key : Deed → GrantKey
  | grant g => g.key
  | revoke key => key

end Deed

/-- The last deed on a key is a grant. -/
def Held (past : List Deed) (key : GrantKey) : Prop :=
  Since (fun _ x => ∃ g, x = .grant g ∧ g.key = key) (·.key ≠ key) past

/-- A grant was made where its key was not held, and the key was not revoked since. -/
def InForce (past : List Deed) (g : Grant) : Prop :=
  Since (fun before x => x = .grant g ∧ ¬Held before g.key) (· ≠ .revoke g.key) past

variable {past : List Deed} {x : Deed} {key : GrantKey} {g g' : Grant}

theorem held_append_iff :
    Held (past ++ [x]) key ↔ (∃ g, x = .grant g ∧ g.key = key) ∨ x.key ≠ key ∧ Held past key :=
  since_append_iff

theorem inForce_append_iff : InForce (past ++ [x]) g ↔
    (x = .grant g ∧ ¬Held past g.key) ∨ x ≠ .revoke g.key ∧ InForce past g :=
  since_append_iff

/-- A key is held where a grant of it is in force. -/
theorem held_iff_inForce : Held past key ↔ ∃ g, InForce past g ∧ g.key = key := by
  induction past using List.reverseRecOn with
  | nil =>
    constructor
    · intro h
      exact absurd h not_since_nil
    · rintro ⟨g, h, -⟩
      exact absurd h not_since_nil
  | append_singleton past x ih =>
    simp only [held_append_iff, inForce_append_iff]
    constructor
    · rintro (⟨g, rfl, rfl⟩ | ⟨hx, hheld⟩)
      · -- A second grant leaves the first one in force.
        by_cases hheld : Held past g.key
        · obtain ⟨kept, hkept, hkey⟩ := ih.1 hheld
          exact ⟨kept, .inr ⟨nofun, hkept⟩, hkey⟩
        · exact ⟨g, .inl ⟨rfl, hheld⟩, rfl⟩
      · obtain ⟨g, hg, rfl⟩ := ih.1 hheld
        refine ⟨g, .inr ⟨?_, hg⟩, rfl⟩
        rintro rfl
        exact hx rfl
    · rintro ⟨g, ⟨rfl, -⟩ | ⟨hx, hg⟩, rfl⟩
      · exact .inl ⟨g, rfl, rfl⟩
      · cases x with
        | grant g' =>
          by_cases hkey : g'.key = g.key
          · exact .inl ⟨g', rfl, hkey⟩
          · exact .inr ⟨hkey, ih.2 ⟨g, hg, rfl⟩⟩
        | revoke key =>
          refine .inr ⟨?_, ih.2 ⟨g, hg, rfl⟩⟩
          rintro rfl
          exact hx rfl

/-! ## The deeds of events -/

/-- What an event asks to be done to the grants when the clock shows `now`. -/
def Event.deed? (now : Instant) : Event → Option Deed
  | .call (.grantPermission server user permission by') =>
    some (.grant ⟨server, user, permission, by', now⟩)
  | .call (.revokePermission server user permission) => some (.revoke (server, user, permission))
  | _ => none

/-- What events ask for from an instant on, one after the other. -/
def deeds (now : Instant) : List Event → List Deed
  | [] => []
  | e :: es => (e.deed? now).toList ++ deeds (e.clockAfter now) es

/-! ## The table follows the history -/

/-- The table has the grants that are in force, and no two of one key. -/
structure Tracks (s : Store) (past : List Deed) : Prop where
  keys : (s.grants.map Grant.key).Nodup
  mem : ∀ g, g ∈ s.grants ↔ InForce past g

variable {d : Desk} {s : Store} {w : World} {e : Event} {server user : Snowflake}
  {permission : Permission}

theorem tracks_empty : Tracks .empty [] where
  keys := .nil
  mem _ := ⟨nofun, fun h => absurd h not_since_nil⟩

theorem Tracks.congr {s' : Store} (h : Tracks s past) (hg : s'.grants = s.grants) :
    Tracks s' past where
  keys := by rw [hg]; exact h.keys
  mem := by rw [hg]; exact h.mem

theorem Tracks.grant?_eq_some_iff (h : Tracks s past) :
    s.grant? server user permission = some g ↔
      InForce past g ∧ g.key = (server, user, permission) := by
  rw [← h.mem]
  exact Store.find?_eq_some_iff_of_keyed h.keys fun _ => Store.isGrant_iff

theorem Tracks.isSome_grant?_iff (h : Tracks s past) :
    (s.grant? server user permission).isSome = true ↔ Held past (server, user, permission) := by
  rw [held_iff_inForce, Option.isSome_iff_exists]
  simp only [h.grant?_eq_some_iff]

theorem Tracks.addGrant (h : Tracks s past) (g : Grant) :
    Tracks (s.addGrant g).2 (past ++ [.grant g]) := by
  unfold Store.addGrant
  split
  · next stored hf =>
    -- The key is held, so the new grant is not in force, and all others stay.
    have hheld : Held past g.key := h.isSome_grant?_iff.1 (by rw [hf]; rfl)
    refine ⟨h.keys, fun g' => ?_⟩
    rw [inForce_append_iff, h.mem]
    constructor
    · intro hg'
      exact .inr ⟨nofun, hg'⟩
    · rintro (⟨heq, hnew⟩ | ⟨-, hg'⟩)
      · obtain rfl := Deed.grant.inj heq
        exact absurd hheld hnew
      · exact hg'
  · next hf =>
    have hnew : ¬Held past g.key := by
      intro hheld
      have hsome : (s.grant? g.server g.user g.permission).isSome = true :=
        h.isSome_grant?_iff.2 hheld
      rw [hf] at hsome
      cases hsome
    refine ⟨Store.nodup_keys_append h.keys fun g' hg' heq => ?_, fun g' => ?_⟩
    · exact hnew (held_iff_inForce.2 ⟨g', (h.mem g').1 hg', heq⟩)
    · rw [List.mem_append, List.mem_singleton, inForce_append_iff, h.mem]
      constructor
      · rintro (hg' | rfl)
        · exact .inr ⟨nofun, hg'⟩
        · exact .inl ⟨rfl, hnew⟩
      · rintro (⟨heq, -⟩ | ⟨-, hg'⟩)
        · exact .inr (Deed.grant.inj heq).symm
        · exact .inl hg'

theorem Tracks.removeGrant (h : Tracks s past) (server user : Snowflake)
    (permission : Permission) :
    Tracks (s.removeGrant server user permission).2
      (past ++ [.revoke (server, user, permission)]) := by
  refine ⟨h.keys.sublist (List.filter_sublist.map _), fun g => ?_⟩
  have hother : (!Store.isGrant server user permission g) = true ↔
      Deed.revoke (server, user, permission) ≠ .revoke g.key := by
    rw [Bool.not_eq_true', ← Bool.not_eq_true, Store.isGrant_iff, ne_eq, Deed.revoke.injEq,
      eq_comm]
  rw [inForce_append_iff, Store.removeGrant, List.mem_filter, hother, h.mem, and_comm]
  constructor
  · exact .inr
  · rintro (⟨heq, -⟩ | hkept)
    · cases heq
    · exact hkept

/-- An event that asks for nothing leaves the grants alone. -/
theorem grants_tick_of_none (h : e.deed? w.clock = none) :
    (tick d w e).store.grants = w.store.grants := by
  cases e with
  | call c =>
    have hnone : c.grant? = none := by
      cases c <;> first | rfl | cases h
    have hsame := (change_tick d .any w c).grants
    rw [hnone] at hsame
    simpa [SameBut] using hsame
  | enrol server nickname account =>
    show (Desk.enrol w server nickname account).store.grants = _
    unfold Desk.enrol
    split
    · next hp =>
      obtain ⟨_, rfl⟩ := Store.addPlayer_eq hp
      rfl
    · rfl
  | insert draft => rfl
  | clock t => rfl

theorem Tracks.tick (h : Tracks w.store past) (d : Desk) (e : Event) :
    Tracks (tick d w e).store (past ++ (e.deed? w.clock).toList) := by
  cases hdeed : e.deed? w.clock with
  | none =>
    rw [Option.toList_none, List.append_nil]
    exact h.congr (grants_tick_of_none hdeed)
  | some x =>
    unfold Event.deed? at hdeed
    split at hdeed
    · cases hdeed
      exact h.addGrant _
    · cases hdeed
      exact h.removeGrant _ _ _
    · cases hdeed

theorem Tracks.run (h : Tracks w.store past) (d : Desk) (es : List Event) :
    Tracks (es.foldl (Desk.tick d) w).store (past ++ deeds w.clock es) := by
  induction es generalizing w past with
  | nil => simpa [deeds] using h
  | cons e es ih =>
    have hnext := ih (h.tick d e)
    rw [tick_clock, List.append_assoc] at hnext
    exact hnext

/-! ## Answers -/

theorem alone_hasPermission (server user : Snowflake) (permission : Permission) (w : World) :
    (hasPermission server user permission).alone w =
      (.ok (w.store.grant? server user permission).isSome, w) := rfl

theorem alone_grantPermission_of_some {by' : Snowflake}
    (h : w.store.grant? server user permission = some g) :
    (grantPermission server user permission by').alone w = (.ok g, w) := by
  have hstays : w.store.addGrant ⟨server, user, permission, by', w.clock⟩ = (g, w.store) := by
    simp only [Store.addGrant, h]
  rw [grantPermission, alone_now, alone_perform]
  simp only [World.perform, hstays]

theorem alone_revokePermission (server user : Snowflake) (permission : Permission) (w : World) :
    ∃ w', (revokePermission server user permission).alone w =
      (.ok (w.store.grant? server user permission).isSome, w') := ⟨_, rfl⟩

section
variable {listed : List Grant}

theorem Tracks.mem_iff_of_isListing (h : Tracks s past) (hl : s.IsListing server listed) :
    g ∈ listed ↔ InForce past g ∧ g.server = server := by
  rw [hl.mem_iff, h.mem]

/-- Every listing has the keys that are held, in whatever order those stand that were granted at one
instant. -/
theorem Tracks.mem_map_key_iff_of_isListing (h : Tracks s past)
    (hl : s.IsListing server listed) :
    key ∈ listed.map Grant.key ↔ Held past key ∧ key.1 = server := by
  rw [held_iff_inForce, List.mem_map]
  constructor
  · rintro ⟨g, hg, rfl⟩
    obtain ⟨hforce, hserver⟩ := (h.mem_iff_of_isListing hl).1 hg
    exact ⟨⟨g, hforce, rfl⟩, hserver⟩
  · rintro ⟨⟨g, hforce, rfl⟩, hserver⟩
    exact ⟨g, (h.mem_iff_of_isListing hl).2 ⟨hforce, hserver⟩, rfl⟩

end

/-- Whatever happens from an empty store on, all answers about grants are those that the history of
grants and revocations gives. A permission is held if and only if the last deed on it was a grant,
and so a revocation answers. As long as it is held, the grant that was the first since the last
revocation stays: it is what any further grant answers, by whomever and whenever, and it is listed.
A list has each key of its server that is held, once, and no other; it is in the order in which the
grants were made. -/
theorem grants_follow_history (d : Desk) (t : Instant) (es : List Event) :
    let w := es.foldl (tick d) (World.fresh t)
    let past := deeds t es
    (∀ server user permission, ∃ held,
      (hasPermission server user permission).alone w = (.ok held, w) ∧
      (held = true ↔ Held past (server, user, permission)) ∧
      (∃ w', (revokePermission server user permission).alone w = (.ok held, w')) ∧
      (held = true → ∃ kept, InForce past kept ∧ kept.key = (server, user, permission) ∧
        (∃ listed, (listPermissions server).alone w = (.ok listed, w) ∧ kept ∈ listed) ∧
        ∀ (by' : Snowflake) (now : Instant),
          (grantPermission server user permission by').alone ⟨w.store, now⟩ =
            (.ok kept, ⟨w.store, now⟩))) ∧
    ∀ server, ∃ listed, (listPermissions server).alone w = (.ok listed, w) ∧
      (listed.map Grant.key).Nodup ∧
      (∀ key, key ∈ listed.map Grant.key ↔ Held past key ∧ key.1 = server) ∧
      listed.Pairwise fun a b => a.grantedAt ≤ b.grantedAt := by
  intro w past
  have htracks : Tracks w.store past :=
    tracks_empty.run (w := World.fresh t) d es
  refine ⟨fun server user permission => ?_, fun server => ?_⟩
  · refine ⟨_, alone_hasPermission server user permission w, htracks.isSome_grant?_iff,
      alone_revokePermission server user permission w, fun hheld => ?_⟩
    obtain ⟨kept, hkept⟩ := Option.isSome_iff_exists.1 hheld
    obtain ⟨hforce, hkey⟩ := htracks.grant?_eq_some_iff.1 hkept
    have hserver : kept.server = server := congrArg Prod.fst hkey
    refine ⟨kept, hforce, hkey, ?_, fun by' now => ?_⟩
    · exact ⟨_, rfl, (htracks.mem_iff_of_isListing (Store.isListing_grantsOf _ server)).2
        ⟨hforce, hserver⟩⟩
    · exact alone_grantPermission_of_some (w := ⟨w.store, now⟩) hkept
  · have hlisting := Store.isListing_grantsOf w.store server
    exact ⟨_, rfl, hlisting.nodup htracks.keys,
      fun key => htracks.mem_map_key_iff_of_isListing hlisting, hlisting.sorted⟩

/-- A second grant changes nothing, but one after a revocation does. -/
example : (List.foldl (tick (.ofLimits {})) (World.fresh (.ofSecond 0))
    [.call (.grantPermission ⟨1⟩ ⟨2⟩ .createCompetition ⟨3⟩), .clock (.ofSecond 5),
      .call (.grantPermission ⟨1⟩ ⟨2⟩ .createCompetition ⟨4⟩),
      .call (.grantPermission ⟨1⟩ ⟨6⟩ .createCompetition ⟨4⟩),
      .call (.revokePermission ⟨1⟩ ⟨6⟩ .createCompetition), .clock (.ofSecond 9),
      .call (.grantPermission ⟨1⟩ ⟨6⟩ .createCompetition ⟨7⟩)]).store.grants =
    [⟨⟨1⟩, ⟨2⟩, .createCompetition, ⟨3⟩, .ofSecond 0⟩,
      ⟨⟨1⟩, ⟨6⟩, .createCompetition, ⟨7⟩, .ofSecond 9⟩] := by decide

end Steward.Desk
