import Mathlib.Data.List.Pairwise
import Steward.Proofs.Sorting
import Steward.Proofs.Store.Tables

/-!
# Players and their accounts

Players are created one after the other, each under the identifier after the last, and stay. Nobody
is given an account that a player of the same server is linked to.

* `Enrolment`, `enrol`: the creation of a player, which leaves the store as it is where it fails.
* `Linked`: players are numbered, and no two of a server are linked to one account.
* `Linked.enrol`, `Linked.enrolAll`: creations keep that, and add the players they answer with, as
  long as there are fewer than the identifiers that a signed word has.
* `links_unique`: what holds of the store after any creations.
-/

namespace Steward

open Time

/-- A player to be created, and the instant of the creation. -/
structure Enrolment where
  server : Snowflake
  nickname : String
  account : Option Snowflake
  now : Instant

/-- The player under an identifier. -/
def Enrolment.player (e : Enrolment) (id : Int) : Player :=
  ⟨id, e.server, e.nickname, e.account, e.now⟩

/-- No account is linked to both players in one server. -/
def Player.LinkedApart (p q : Player) : Prop :=
  p.server = q.server → ∀ a, p.account = some a → q.account ≠ some a

instance : Std.Symm Player.LinkedApart :=
  ⟨fun _ _ h hserver a hq hp => h hserver.symm a hp hq⟩

namespace Store

/-- What the creation of a player answers with, and the store after it. -/
def enrol (s : Store) (e : Enrolment) : Except Refusal Player × Store :=
  match s.addPlayer e.server e.nickname e.account e.now with
  | .ok (p, s') => (.ok p, s')
  | .error r => (.error r, s)

/-- The store after creations. -/
def enrolAll (s : Store) (es : List Enrolment) : Store := es.foldl (fun s e => (s.enrol e).2) s

/-- The players that creations answer with, in order. -/
def enrolled (s : Store) : List Enrolment → List Player
  | [] => []
  | e :: es => (s.enrol e).1.toOption.toList ++ enrolled (s.enrol e).2 es

/-- The account of the new player is linked to a player of the same server. -/
def Taken (s : Store) (e : Enrolment) : Prop :=
  ∃ a, e.account = some a ∧ ∃ p ∈ s.players, p.server = e.server ∧ p.account = some a

/-- Players are numbered from 1 on as they stand, and no two of a server are linked to one
account. -/
structure Linked (s : Store) : Prop where
  ids : s.players.map (·.id) = (List.range s.players.length).map fun (i : Nat) => (i : Int) + 1
  links : s.players.Pairwise Player.LinkedApart

variable {s : Store} {e : Enrolment} {es : List Enrolment} {server account : Snowflake}
  {p q : Player}

theorem linked_empty : Linked .empty where
  ids := rfl
  links := .nil

/-! ## One creation -/

theorem any_isSome_iff_taken :
    (e.account.any fun a => (s.playerOfAccount? e.server a).isSome) = true ↔ s.Taken e := by
  simp only [Option.any_eq_true, playerOfAccount?, List.find?_isSome, Player.isLinkedTo,
    Bool.and_eq_true, decide_eq_true_eq, Taken]

theorem enrol_of_taken (h : s.Taken e) : s.enrol e = (.error accountTaken, s) := by
  rw [enrol, addPlayer, if_pos (any_isSome_iff_taken.2 h)]

/-- The last player has the number of players for an identifier. -/
theorem Linked.id_last (h : Linked s) (hlast : s.players.getLast? = some p) :
    p.id = s.players.length := by
  have hids := congrArg List.getLast? h.ids
  rw [List.getLast?_map, List.getLast?_map, hlast, List.getLast?_range] at hids
  split at hids
  · cases hids
  · have hid : p.id = ((s.players.length - 1 : Nat) : Int) + 1 := Option.some.inj hids
    omega

theorem Linked.id_bounds (h : Linked s) (hp : p ∈ s.players) :
    1 ≤ p.id ∧ p.id ≤ s.players.length := by
  have hid : p.id ∈ s.players.map (·.id) := List.mem_map_of_mem hp
  rw [h.ids] at hid
  obtain ⟨i, hi, heq⟩ := List.mem_map.1 hid
  have hlt := List.mem_range.1 hi
  omega

theorem Linked.pairwise_ids (h : Linked s) : s.players.Pairwise (·.id < ·.id) := by
  rw [← List.pairwise_map, h.ids, List.pairwise_map]
  exact List.pairwise_lt_range.imp fun hlt => by omega

/-- Creations keep players in the order of their identifiers, and take none away. -/
theorem pairwise_enrol (h : s.players.Pairwise (·.id < ·.id)) (e : Enrolment) :
    (s.enrol e).2.players.Pairwise (·.id < ·.id) ∧
      s.players.length ≤ (s.enrol e).2.players.length := by
  have hids : (s.players.map (·.id)).Nodup := List.pairwise_map.2 (h.imp Int.ne_of_lt)
  unfold enrol addPlayer
  split
  · next hadd =>
    split at hadd
    · cases hadd
    · obtain ⟨rfl, rfl⟩ := Prod.mk.inj (Except.ok.inj hadd)
      exact ⟨pairwise_putRow _ h, length_le_putRow hids _⟩
  · exact ⟨h, Nat.le_refl _⟩

theorem pairwise_enrolAll (h : s.players.Pairwise (·.id < ·.id)) (es : List Enrolment) :
    (s.enrolAll es).players.Pairwise (·.id < ·.id) := by
  induction es generalizing s with
  | nil => exact h
  | cons e es ih => exact ih (pairwise_enrol h e).1

theorem length_le_enrolAll (h : s.players.Pairwise (·.id < ·.id)) (es : List Enrolment) :
    s.players.length ≤ (s.enrolAll es).players.length := by
  induction es generalizing s with
  | nil => exact Nat.le_refl _
  | cons e es ih =>
    obtain ⟨hstep, hle⟩ := pairwise_enrol h e
    exact Nat.le_trans hle (ih hstep)

/-- The next identifier is the number of players and one, unless that is no number of a word. -/
theorem Linked.nextPlayerId_eq (h : Linked s) (hfew : (s.players.length : Int) < Word.bound32) :
    s.nextPlayerId = if (s.players.length : Int) + 1 < Word.bound32 then
      (s.players.length : Int) + 1 else -Word.bound32 := by
  have hbound : Word.bound32 = 2147483648 := rfl
  unfold nextPlayerId
  cases hlast : s.players.getLast? with
  | none =>
    rw [List.getLast?_eq_none_iff.1 hlast]
    rfl
  | some last =>
    have hnext : (Int32.ofInt last.id + 1).toInt = (last.id + 1).bmod 4294967296 := by
      rw [Int32.toInt_add, Int32.toInt_ofInt]
      exact Int.bmod_add_bmod
    show (Int32.ofInt last.id + 1).toInt = _
    rw [hnext, h.id_last hlast, Int.bmod_def]
    split <;> split <;> omega

theorem enrol_of_not_taken (h : ¬ s.Taken e) :
    s.enrol e = (.ok (e.player s.nextPlayerId),
      { s with players := putRow Player.id s.players (e.player s.nextPlayerId) }) := by
  rw [enrol, addPlayer, if_neg (mt any_isSome_iff_taken.1 h)]
  rfl

/-- A creation that is not refused adds a player behind all others. -/
theorem Linked.enrol_eq (hs : Linked s) (h : ¬ s.Taken e)
    (hfew : ((s.enrol e).2.players.length : Int) < Word.bound32) :
    s.enrol e = (.ok (e.player (s.players.length + 1)),
      { s with players := s.players ++ [e.player (s.players.length + 1)] }) := by
  obtain ⟨-, hle⟩ := pairwise_enrol hs.pairwise_ids e
  have hnext := hs.nextPlayerId_eq (by omega)
  -- Also the identifier after the last one is new, so the table grows.
  have hnew : ∀ p ∈ s.players, p.id ≠ (e.player s.nextPlayerId).id := by
    intro p hp
    obtain ⟨hlow, hhigh⟩ := hs.id_bounds hp
    show p.id ≠ s.nextPlayerId
    rw [hnext]
    split <;> omega
  rw [enrol_of_not_taken h] at hfew ⊢
  have hlength : (putRow Player.id s.players (e.player s.nextPlayerId)).length =
      s.players.length + 1 := length_putRow_of_ne hnew
  have hfits : (s.players.length : Int) + 1 < Word.bound32 := by
    simp only [hlength] at hfew
    exact hfew
  rw [if_pos hfits] at hnext
  have hlast : ∀ p ∈ s.players, p.id < (e.player (s.players.length + 1)).id := fun p hp =>
    Int.lt_add_one_of_le (hs.id_bounds hp).2
  rw [hnext, putRow_of_lt hlast]

/-- A creation keeps what holds of the players, and adds the one it answers with. -/
theorem Linked.enrol (h : Linked s) (e : Enrolment)
    (hfew : ((s.enrol e).2.players.length : Int) < Word.bound32) :
    Linked (s.enrol e).2 ∧
      (s.enrol e).2.players = s.players ++ (s.enrol e).1.toOption.toList := by
  by_cases ht : s.Taken e
  · rw [enrol_of_taken ht]
    exact ⟨h, (List.append_nil _).symm⟩
  · rw [h.enrol_eq ht hfew]
    refine ⟨⟨?_, ?_⟩, rfl⟩
    · rw [List.map_append, h.ids, List.length_append, List.length_singleton, List.range_succ,
        List.map_append]
      rfl
    · refine List.pairwise_append.2 ⟨h.links, List.pairwise_singleton _ _, fun p hp q hq => ?_⟩
      obtain rfl := List.mem_singleton.1 hq
      intro hserver a hpa hqa
      exact ht ⟨a, hqa, p, hp, hserver, hpa⟩

/-! ## Creations one after the other -/

theorem Linked.enrolAll (h : Linked s) (es : List Enrolment)
    (hfew : ((s.enrolAll es).players.length : Int) < Word.bound32) :
    Linked (s.enrolAll es) ∧ (s.enrolAll es).players = s.players ++ s.enrolled es := by
  induction es generalizing s with
  | nil => exact ⟨h, (List.append_nil _).symm⟩
  | cons e es ih =>
    obtain ⟨hids, -⟩ := pairwise_enrol h.pairwise_ids e
    have hle : (s.enrol e).2.players.length ≤ (s.enrolAll (e :: es)).players.length :=
      length_le_enrolAll hids es
    obtain ⟨hstep, hplayers⟩ := h.enrol e (by omega)
    obtain ⟨hall, hmore⟩ := ih hstep hfew
    refine ⟨hall, hmore.trans ?_⟩
    rw [hplayers, enrolled, List.append_assoc]

/-! ## Looking players up -/

/-- No account is linked to two players of a server. -/
theorem Linked.eq_of_linked (h : Linked s) (hp : p ∈ s.players) (hq : q ∈ s.players)
    (hserver : p.server = q.server) (hpa : p.account = some account)
    (hqa : q.account = some account) : p = q := by
  by_contra hne
  exact h.links.forall hp hq hne hserver account hpa hqa

theorem Linked.playerOfAccount?_eq_some_iff (h : Linked s) :
    s.playerOfAccount? server account = some p ↔
      p ∈ s.players ∧ p.server = server ∧ p.account = some account := by
  have hfound : ∀ q, s.playerOfAccount? server account = some q →
      q ∈ s.players ∧ q.server = server ∧ q.account = some account := by
    intro q hfind
    have hsearch := List.find?_some hfind
    rw [Bool.and_eq_true, decide_eq_true_eq, Player.isLinkedTo, decide_eq_true_eq] at hsearch
    exact ⟨List.mem_of_find?_eq_some hfind, hsearch⟩
  constructor
  · exact hfound p
  · rintro ⟨hp, hserver, hpa⟩
    have hsome : (s.playerOfAccount? server account).isSome := by
      rw [playerOfAccount?, List.find?_isSome]
      exact ⟨p, hp, by simp [Player.isLinkedTo, hserver, hpa]⟩
    obtain ⟨q, hq⟩ := Option.isSome_iff_exists.1 hsome
    obtain ⟨hmem, hserver', hqa⟩ := hfound q hq
    rw [hq, h.eq_of_linked hmem hp (hserver'.trans hserver.symm) hqa hpa]

theorem mem_playersOf : p ∈ s.playersOf server ↔ p ∈ s.players ∧ p.server = server := by
  rw [playersOf, List.mem_mergeSort, List.mem_filter, decide_eq_true_eq]

theorem Linked.pairwise_playersOf (h : Linked s) (server : Snowflake) :
    (s.playersOf server).Pairwise fun p q =>
      p.nickname < q.nickname ∨ p.nickname = q.nickname ∧ p.id < q.id := by
  have hsorted : (s.playersOf server).Pairwise fun p q =>
      decide (p.nickname ≤ q.nickname) = true ∧
        (decide (q.nickname ≤ p.nickname) = true → p.id < q.id) := by
    refine pairwise_mergeSort_of_pairwise (fun p q r hpq hqr => ?_) (fun p q => ?_)
      (h.pairwise_ids.filter (·.server = server))
    · rw [decide_eq_true_eq] at *
      exact String.le_trans hpq hqr
    · rw [Bool.or_eq_true, decide_eq_true_eq, decide_eq_true_eq]
      exact String.le_total _ _
  refine hsorted.imp fun {p q} hpq => ?_
  obtain ⟨hle, hlt⟩ := hpq
  by_cases hge : q.nickname ≤ p.nickname
  · exact .inr ⟨String.le_antisymm (of_decide_eq_true hle) hge, hlt (decide_eq_true hge)⟩
  · exact .inl (String.not_le.1 hge)

/-- After any creations of fewer players than signed words of 32 bits can number, the players are
the ones answered with, numbered from 1 on in that order. No account is linked twice in a server: a
creation that would do so is refused and changes nothing, and all others succeed. An account finds
the player of a server it is linked to, and the players of a server are listed by nickname, those of
one nickname in the order of their creation. -/
theorem links_unique {es : List Enrolment} (hs : Store.empty.enrolAll es = s)
    (hfew : (s.players.length : Int) < Word.bound32) :
    s.players = Store.empty.enrolled es ∧
    s.players.map (·.id) = (List.range s.players.length).map (fun (i : Nat) => (i : Int) + 1) ∧
    (∀ p ∈ s.players, 1 ≤ p.id ∧ p.id < Word.bound32) ∧
    (∀ p ∈ s.players, ∀ q ∈ s.players, p.server = q.server →
      ∀ a, p.account = some a → q.account = some a → p = q) ∧
    (∀ before e after, es = before ++ e :: after → ∀ t, Store.empty.enrolAll before = t →
      (t.Taken e → t.enrol e = (.error accountTaken, t)) ∧
      (¬ t.Taken e →
        (t.enrol e).1 = .ok (e.player ((Store.empty.enrolled before).length + 1)))) ∧
    (∀ server account p, s.playerOfAccount? server account = some p ↔
      p ∈ s.players ∧ p.server = server ∧ p.account = some account) ∧
    ∀ server, (∀ p, p ∈ s.playersOf server ↔ p ∈ s.players ∧ p.server = server) ∧
      (s.playersOf server).Pairwise fun p q =>
        p.nickname < q.nickname ∨ p.nickname = q.nickname ∧ p.id < q.id := by
  subst hs
  obtain ⟨hlinked, hplayers⟩ := linked_empty.enrolAll es hfew
  refine ⟨hplayers, hlinked.ids, fun p hp => ?_, fun p hp q hq hserver a hpa hqa =>
    hlinked.eq_of_linked hp hq hserver hpa hqa, ?_, fun server account p =>
    hlinked.playerOfAccount?_eq_some_iff, fun server => ⟨fun p => mem_playersOf,
    hlinked.pairwise_playersOf server⟩⟩
  · obtain ⟨hlow, hhigh⟩ := hlinked.id_bounds hp
    exact ⟨hlow, by omega⟩
  · rintro before e after rfl t rfl
    have hsplit : Store.empty.enrolAll (before ++ e :: after) =
        ((Store.empty.enrolAll before).enrol e).2.enrolAll after := List.foldl_append
    rw [hsplit] at hfew
    have hbegun := pairwise_enrolAll (s := .empty) .nil before
    obtain ⟨hstep, hle⟩ := pairwise_enrol hbegun e
    have hle' := length_le_enrolAll hstep after
    obtain ⟨ht, hbefore⟩ := linked_empty.enrolAll before (by omega)
    refine ⟨enrol_of_taken, fun hnot => ?_⟩
    rw [ht.enrol_eq hnot (by omega), hbefore]
    rfl

/-- The creation of a player of one of two servers. -/
def rival (server : Int) (nickname : String) (account : Option Snowflake) : Enrolment :=
  ⟨⟨server⟩, nickname, account, .ofSecond 0⟩

/-- Players of two servers, one of which is to be given an account that is taken there. -/
def rivals : List Enrolment :=
  [rival 1 "bob" (some ⟨7⟩), rival 1 "amy" (some ⟨7⟩), rival 2 "bob" (some ⟨7⟩),
    rival 1 "bob" none, rival 1 "amy" none]

theorem links_unique_rivals :
    ((Store.empty.enrolAll rivals).players.length : Int) < Word.bound32 ∧
    (Store.empty.enrolAll rivals).players.map (·.id) = [1, 2, 3, 4] ∧
    (Store.empty.enrolAll [rival 1 "bob" (some ⟨7⟩)]).enrol (rival 1 "amy" (some ⟨7⟩)) =
      (.error accountTaken, Store.empty.enrolAll [rival 1 "bob" (some ⟨7⟩)]) ∧
    (Store.empty.enrolAll rivals).playerOfAccount? ⟨2⟩ ⟨7⟩ =
      some ((rival 2 "bob" (some ⟨7⟩)).player 2) ∧
    ((Store.empty.enrolAll rivals).playersOf ⟨1⟩).Pairwise fun p q =>
      p.nickname < q.nickname ∨ p.nickname = q.nickname ∧ p.id < q.id := by
  have hfew : ((Store.empty.enrolAll rivals).players.length : Int) < Word.bound32 := by decide
  obtain ⟨-, hids, -, -, hsteps, hfound, hlisted⟩ := links_unique rfl hfew
  have htaken : (Store.empty.enrolAll [rival 1 "bob" (some ⟨7⟩)]).Taken
      (rival 1 "amy" (some ⟨7⟩)) := ⟨⟨7⟩, rfl, _, List.mem_cons_self, rfl, rfl⟩
  refine ⟨hfew, hids.trans (by decide), ?_, (hfound _ _ _).2 (by decide), (hlisted _).2⟩
  exact (hsteps [_] _ _ rfl _ rfl).1 htaken

end Store

end Steward
