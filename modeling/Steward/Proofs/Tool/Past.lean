import Steward.Proofs.History
import Steward.Tool.Cache

/-!
# What a cache shows of its past

A cache keeps one entry for each key, and entries that are too old for one lookup stay for another.
All the same, what it answers depends on no more than what was done to the key: which result was
stored last, and whether the key was dropped since.

* `Deed`, `Latest`: what an operation does to the results, and the result of a key by past deeds.
* `perform_eq`: an operation changes a cache as its deeds do.
* `Holds.run`: a cache that began empty holds the latest result of each key.
* `answers_by_past`: so every operation answers by the deeds before it.
-/

namespace Steward.Tool.Cache

open Time

variable {α ε : Type} {c : Cache α} {key other : String} {value : α} {stored now : Nat}

/-! ## Operations -/

/-- An operation on a cache. -/
inductive Op (ε α : Type) where
  | get (key : String) (lifetime : Option Span)
  | insert (key : String) (value : α)
  | fetch (key : String) (lifetime : Option Span) (outcome : Except ε α)
  /-- A fetch whose computation may pause. -/
  | await (key : String) (lifetime : Option Span) (outcome : Except ε α)
  | forget (key : String)
  | clear

/-- What an operation answers. -/
inductive Answer (ε α : Type) where
  | found (result : Option α)
  | fetched (result : Except ε α) (ran : Bool)
  | forgotten (existed : Bool)
  | done

/-- An operation, with the instants at which it starts and ends. -/
structure Step (ε α : Type) where
  op : Op ε α
  start : Nat
  finish : Nat

/-- What an operation answers, and the cache after it. -/
def Step.perform (c : Cache α) (s : Step ε α) : Answer ε α × Cache α :=
  match s.op with
  | .get key lifetime => (.found (c.get? s.start key lifetime), c)
  | .insert key value => (.done, c.insert s.start key value)
  | .fetch key lifetime outcome =>
    let (result, ran, c) := c.fetch key lifetime s.start s.finish outcome
    (.fetched result ran, c)
  | .await key lifetime outcome =>
    let (result, ran, c) := (c.beginFetch s.start key lifetime).finish c s.finish outcome
    (.fetched result ran, c)
  | .forget key =>
    let (existed, c) := c.forget key
    (.forgotten existed, c)
  | .clear => (.done, c.clear)

/-- The key that an operation is about; clearing is about all. -/
def Op.key? : Op ε α → Option String
  | .get key _ | .insert key _ | .fetch key _ _ | .await key _ _ | .forget key => some key
  | .clear => none

/-! ## Deeds -/

/-- What an operation does to the results. -/
inductive Deed (α : Type) where
  | store (key : String) (value : α) (stored : Nat)
  | drop (key : String)
  | clear

namespace Deed

/-- Whether the result of a key is another one after the deed. -/
def Touches (key : String) : Deed α → Prop
  | .store k _ _ | .drop k => k = key
  | .clear => True

/-- The cache after the deed. -/
def apply (c : Cache α) : Deed α → Cache α
  | .store key value stored => c.insert stored key value
  | .drop key => c.invalidate key
  | .clear => c.clear

end Deed

/-- What an operation has done, by its answer. A computation that ran and succeeded has stored its
result when it ended. -/
def Step.deeds (s : Step ε α) (a : Answer ε α) : List (Deed α) :=
  match s.op, a with
  | .insert key value, _ => [.store key value s.start]
  | .fetch key _ _, .fetched (.ok value) true => [.store key value s.finish]
  | .await key _ _, .fetched (.ok value) true => [.store key value s.finish]
  | .forget key, _ => [.drop key]
  | .clear, _ => [.clear]
  | _, _ => []

/-- The deeds `h`, in order, end with `value` being stored as the result of `key` and later ones
that do not touch it. -/
def Latest (h : List (Deed α)) (key : String) (value : α) (stored : Nat) : Prop :=
  ∃ before after, h = before ++ .store key value stored :: after ∧ ∀ d ∈ after, ¬d.Touches key

/-- The latest result of a key is younger than a span. -/
def Fresh (h : List (Deed α)) (now : Nat) (key : String) (span : Span) (value : α) : Prop :=
  ∃ stored, Latest h key value stored ∧ stored ≤ now ∧ now < stored + span.nanos

theorem not_latest_nil : ¬Latest [] key value stored := by
  rintro ⟨before, after, h, -⟩
  simp at h

/-- The last deed decides, or leaves it to those before. -/
theorem latest_append_iff {h : List (Deed α)} {d : Deed α} :
    Latest (h ++ [d]) key value stored ↔
      d = .store key value stored ∨ ¬d.Touches key ∧ Latest h key value stored := by
  have hsince (h : List (Deed α)) : Latest h key value stored ↔
      Since (fun _ d => d = .store key value stored) (fun d => ¬d.Touches key) h := by
    constructor
    · rintro ⟨before, after, heq, huntouched⟩
      exact ⟨before, _, after, heq, rfl, huntouched⟩
    · rintro ⟨before, _, after, heq, rfl, huntouched⟩
      exact ⟨before, after, heq, huntouched⟩
  rw [hsince, hsince, since_append_iff]

/-! ## Caches and deeds -/

theorem beginFetch_finish (c : Cache α) (key : String) (lifetime : Option Span) (start finish : Nat)
    (outcome : Except ε α) :
    (c.beginFetch start key lifetime).finish c finish outcome =
      c.fetch key lifetime start finish outcome := by
  unfold beginFetch fetch
  cases c.get? start key lifetime <;> rfl

/-- Whether a computation may pause makes no difference to what its fetch answers and leaves. -/
theorem perform_await (c : Cache α) (key : String) (lifetime : Option Span)
    (outcome : Except ε α) (start finish : Nat) :
    Step.perform c ⟨.await key lifetime outcome, start, finish⟩ =
      Step.perform c ⟨.fetch key lifetime outcome, start, finish⟩ := by
  simp only [Step.perform, beginFetch_finish]

theorem deeds_await (key : String) (lifetime : Option Span) (outcome : Except ε α)
    (start finish : Nat) (a : Answer ε α) :
    Step.deeds ⟨.await key lifetime outcome, start, finish⟩ a =
      Step.deeds ⟨.fetch key lifetime outcome, start, finish⟩ a := by
  cases a with
  | fetched result ran => cases result <;> cases ran <;> rfl
  | found | forgotten | done => rfl

theorem perform_fetch_eq (c : Cache α) (key : String) (lifetime : Option Span)
    (outcome : Except ε α) (start finish : Nat) :
    Step.perform c ⟨.fetch key lifetime outcome, start, finish⟩ =
      match c.get? start key lifetime with
      | some value => (.fetched (.ok value) false, c)
      | none => (.fetched outcome true, c.settle finish key outcome) := by
  simp only [Step.perform, fetch]
  cases c.get? start key lifetime <;> rfl

/-- An operation changes a cache as its deeds do. -/
theorem perform_eq (c : Cache α) (s : Step ε α) :
    (s.perform c).2 = (s.deeds (s.perform c).1).foldl Deed.apply c := by
  obtain ⟨op, start, finish⟩ := s
  have hfetch : ∀ key lifetime (outcome : Except ε α),
      let s : Step ε α := ⟨.fetch key lifetime outcome, start, finish⟩
      (s.perform c).2 = (s.deeds (s.perform c).1).foldl Deed.apply c := by
    intro key lifetime outcome
    simp only [perform_fetch_eq]
    cases c.get? start key lifetime with
    | some value => rfl
    | none => cases outcome <;> rfl
  cases op with
  | get | insert | forget | clear => rfl
  | fetch key lifetime outcome => exact hfetch key lifetime outcome
  | await key lifetime outcome =>
    rw [perform_await, deeds_await]
    exact hfetch key lifetime outcome

theorem find?_apply_of_not_touches {d : Deed α} (h : ¬d.Touches key) :
    (d.apply c).find? key = c.find? key := by
  cases d with
  | store k v t => exact find?_insert_of_ne c t v (Ne.symm h)
  | drop k => exact find?_invalidate_of_ne c (Ne.symm h)
  | clear => exact absurd trivial h

theorem find?_foldl_of_not_touches {ds : List (Deed α)} (h : ∀ d ∈ ds, ¬d.Touches key) :
    (ds.foldl Deed.apply c).find? key = c.find? key := by
  induction ds generalizing c with
  | nil => rfl
  | cons d ds ih =>
    rw [List.foldl_cons, ih fun e he => h e (List.mem_cons_of_mem d he),
      find?_apply_of_not_touches (h d List.mem_cons_self)]

/-- The deeds of an operation on a key touch no other. -/
theorem eq_of_touches {s : Step ε α} {a : Answer ε α} {d : Deed α} (hkey : s.op.key? = some key)
    (hd : d ∈ s.deeds a) (ht : d.Touches other) : other = key := by
  unfold Step.deeds at hd
  split at hd
  case h_5 hop =>
    rw [hop] at hkey
    cases hkey
  case h_6 => cases hd
  all_goals
    rename_i hop
    rw [hop] at hkey
    cases hkey
    obtain rfl := List.mem_singleton.1 hd
    exact ht.symm

/-! ## What a cache holds -/

/-- The cache holds the latest result of each key. -/
def Holds (c : Cache α) (h : List (Deed α)) : Prop :=
  ∀ key value stored, c.find? key = some ⟨key, stored, value⟩ ↔ Latest h key value stored

theorem holds_empty (lifetime : Span) : (empty lifetime : Cache α).Holds [] := by
  intro key value stored
  exact ⟨nofun, fun h => absurd h not_latest_nil⟩

theorem Holds.apply {h : List (Deed α)} (hc : c.Holds h) (d : Deed α) :
    (d.apply c).Holds (h ++ [d]) := by
  intro key value stored
  rw [latest_append_iff]
  by_cases ht : d.Touches key
  · cases d with
    | store k v t =>
      obtain rfl : k = key := ht
      simp [Deed.apply, Deed.Touches, eq_comm, and_comm]
    | drop k =>
      obtain rfl : k = key := ht
      simp [Deed.apply, Deed.Touches]
    | clear => simp [Deed.apply, Deed.Touches, find?_clear]
  · have hd : d ≠ .store key value stored := by
      rintro rfl
      exact ht rfl
    rw [find?_apply_of_not_touches ht, hc key value stored]
    simp [hd, ht]

theorem Holds.foldl {h : List (Deed α)} (hc : c.Holds h) (ds : List (Deed α)) :
    (ds.foldl Deed.apply c).Holds (h ++ ds) := by
  induction ds generalizing c h with
  | nil => simpa using hc
  | cons d ds ih => simpa using ih (hc.apply d)

/-! ## Runs -/

/-- The cache after operations, one after the other. -/
def after (c : Cache α) (steps : List (Step ε α)) : Cache α :=
  steps.foldl (fun c s => (s.perform c).2) c

/-- What operations have done, one after the other. -/
def deeds : Cache α → List (Step ε α) → List (Deed α)
  | _, [] => []
  | c, s :: rest => s.deeds (s.perform c).1 ++ deeds (s.perform c).2 rest

/-- The clock never goes back from `now` on, neither during operations nor between them. -/
def Paced : (now : Nat) → List (Step ε α) → Prop
  | _, [] => True
  | now, s :: rest => now ≤ s.start ∧ s.start ≤ s.finish ∧ Paced s.finish rest

/-- The instant at which operations have ended that begin after `now`. -/
def clockAfter : (now : Nat) → List (Step ε α) → Nat
  | now, [] => now
  | _, s :: rest => clockAfter s.finish rest

theorem Holds.run {h : List (Deed α)} (hc : c.Holds h) (steps : List (Step ε α)) :
    (c.after steps).Holds (h ++ c.deeds steps) := by
  induction steps generalizing c h with
  | nil => simpa [after, deeds] using hc
  | cons s rest ih =>
    have hnext : (s.perform c).2.Holds (h ++ s.deeds (s.perform c).1) := by
      rw [perform_eq c s]
      exact hc.foldl _
    simpa [after, deeds] using ih hnext

theorem lifetime_foldl (c : Cache α) (ds : List (Deed α)) :
    (ds.foldl Deed.apply c).lifetime = c.lifetime := by
  induction ds generalizing c with
  | nil => rfl
  | cons d ds ih =>
    rw [List.foldl_cons, ih]
    cases d <;> rfl

theorem lifetime_after (c : Cache α) (steps : List (Step ε α)) :
    (c.after steps).lifetime = c.lifetime := by
  induction steps generalizing c with
  | nil => rfl
  | cons s rest ih =>
    show ((s.perform c).2.after rest).lifetime = c.lifetime
    rw [ih, perform_eq c s, lifetime_foldl]

theorem le_clockAfter {steps : List (Step ε α)} (h : Paced now steps) :
    now ≤ clockAfter now steps := by
  induction steps generalizing now with
  | nil => exact Nat.le_refl now
  | cons s rest ih =>
    obtain ⟨hstart, hfinish, hrest⟩ := h
    exact Nat.le_trans (Nat.le_trans hstart hfinish) (ih hrest)

theorem stored_le_finish {s : Step ε α} {a : Answer ε α} (h : s.start ≤ s.finish)
    (hd : .store key value stored ∈ s.deeds a) : stored ≤ s.finish := by
  unfold Step.deeds at hd
  split at hd <;> simp at hd
  · exact Nat.le_trans (Nat.le_of_eq hd.2.2) h
  · exact Nat.le_of_eq hd.2.2
  · exact Nat.le_of_eq hd.2.2

/-- Nothing is stored after the clock. -/
theorem stored_le_clockAfter {steps : List (Step ε α)} (h : Paced now steps)
    (hd : .store key value stored ∈ c.deeds steps) : stored ≤ clockAfter now steps := by
  induction steps generalizing c now with
  | nil => cases hd
  | cons s rest ih =>
    obtain ⟨-, hfinish, hrest⟩ := h
    rcases List.mem_append.1 hd with hd | hd
    · exact Nat.le_trans (stored_le_finish hfinish hd) (le_clockAfter hrest)
    · exact ih hrest hd

/-! ## Answers -/

theorem find?_key {e : Entry α} (h : c.find? key = some e) : e.key = key := by
  simpa using List.find?_some h

theorem get?_eq_some_iff {lifetime : Option Span} :
    c.get? now key lifetime = some value ↔
      ∃ stored, c.find? key = some ⟨key, stored, value⟩ ∧
        now - stored < (lifetime.getD c.lifetime).nanos := by
  unfold get?
  rw [Option.map_eq_some_iff]
  constructor
  · rintro ⟨e, he, rfl⟩
    obtain ⟨he, hage⟩ := Option.filter_eq_some_iff.1 he
    refine ⟨e.storedAt, ?_, of_decide_eq_true hage⟩
    rw [he, ← find?_key he]
  · rintro ⟨stored, he, hage⟩
    exact ⟨_, Option.filter_eq_some_iff.2 ⟨he, decide_eq_true hage⟩, rfl⟩

/-- An operation on one key leaves the entries of the others alone. -/
theorem find?_perform_of_ne {s : Step ε α} (hkey : s.op.key? = some key) (h : other ≠ key) :
    (s.perform c).2.find? other = c.find? other := by
  rw [perform_eq]
  exact find?_foldl_of_not_touches fun d hd ht => h (eq_of_touches hkey hd ht)

/-- A lookup takes what is fresh by the deeds that the cache holds. -/
theorem Holds.get?_eq_some_iff {h : List (Deed α)} {lifetime : Option Span} (hc : c.Holds h)
    (hstored : ∀ key value stored, .store key value stored ∈ h → stored ≤ now) :
    c.get? now key lifetime = some value ↔ Fresh h now key (lifetime.getD c.lifetime) value := by
  rw [Cache.get?_eq_some_iff]
  refine exists_congr fun stored => ?_
  rw [hc key value stored]
  refine and_congr_right fun hlatest => ?_
  have hle : stored ≤ now := by
    obtain ⟨before, later, rfl, -⟩ := hlatest
    exact hstored key value stored (by simp)
  omega

/-- Whatever was done to a cache that began empty, while the clock did not go back: a lookup finds a
result exactly where the latest one that was stored for its key, and not dropped since, is younger
than the lifetime that it asks for. A fetch computes where a lookup misses. What it computes is then
stored, and a failure changes nothing; whether the computation may pause makes no difference. To
forget a key tells whether there was a result, however old, and no operation on a key touches
another. -/
theorem answers_by_past (lifetime : Span) {steps : List (Step ε α)} {first now : Nat}
    (hpaced : Paced first steps) (hnow : clockAfter first steps ≤ now) :
    let c := (empty lifetime : Cache α).after steps
    let h := (empty lifetime : Cache α).deeds steps
    (∀ key span value, c.get? now key span = some value ↔
      Fresh h now key (span.getD lifetime) value) ∧
    (∀ key span finish (outcome : Except ε α),
      (∀ value, Fresh h now key (span.getD lifetime) value →
        c.fetch key span now finish outcome = (.ok value, false, c)) ∧
      ((∀ value, ¬Fresh h now key (span.getD lifetime) value) →
        (∀ value, outcome = .ok value →
          c.fetch key span now finish outcome = (.ok value, true, c.insert finish key value)) ∧
        ∀ e, outcome = .error e → c.fetch key span now finish outcome = (.error e, true, c)) ∧
      (c.beginFetch now key span).finish c finish outcome =
        c.fetch key span now finish outcome) ∧
    (∀ key, (c.forget key).1 = true ↔ ∃ value stored, Latest h key value stored) ∧
    ∀ (s : Step ε α) key other, s.op.key? = some key → other ≠ key →
      (s.perform c).2.find? other = c.find? other := by
  intro c h
  have hholds : c.Holds h := by simpa using (holds_empty lifetime).run steps
  have hstored : ∀ key value stored, .store key value stored ∈ h → stored ≤ now :=
    fun key value stored hd => Nat.le_trans (stored_le_clockAfter hpaced hd) hnow
  have hget : ∀ key span value, c.get? now key span = some value ↔
      Fresh h now key (span.getD lifetime) value := by
    intro key span value
    have hlifetime : c.lifetime = lifetime := lifetime_after _ steps
    rw [hholds.get?_eq_some_iff hstored, hlifetime]
  refine ⟨hget, fun key span finish outcome => ⟨fun value hfresh => ?_, fun hmiss => ?_, ?_⟩,
    fun key => ?_, fun s key other hkey hne => find?_perform_of_ne hkey hne⟩
  · rw [fetch, (hget key span value).2 hfresh]
  · have hnone : c.get? now key span = none :=
      Option.eq_none_iff_forall_not_mem.2 fun value hv => hmiss value ((hget key span value).1 hv)
    constructor
    · rintro value rfl
      rw [fetch, hnone, settle]
    · rintro e rfl
      rw [fetch, hnone, settle]
  · exact beginFetch_finish c key span now finish outcome
  · rw [forget, Option.isSome_iff_exists]
    constructor
    · rintro ⟨⟨k, stored, value⟩, he⟩
      obtain rfl : k = key := find?_key he
      exact ⟨value, stored, (hholds k value stored).1 he⟩
    · rintro ⟨value, stored, hlatest⟩
      exact ⟨_, (hholds key value stored).2 hlatest⟩

/-- A result outlives a lookup that finds it too old and a computation that fails; another one is
forgotten. -/
def outlived : List (Step String Nat) :=
  [⟨.insert "a" 1, 0, 0⟩, ⟨.insert "b" 2, 5, 5⟩,
    ⟨.await "a" (some ⟨10⟩) (.error "crashed"), 20, 30⟩, ⟨.forget "b", 40, 40⟩]

theorem answers_by_past_outlived :
    Paced 0 outlived ∧ clockAfter 0 outlived ≤ 50 ∧
      ((empty ⟨30⟩).after outlived).get? 50 "a" (some ⟨60⟩) = some 1 ∧
      ((empty ⟨30⟩).after outlived).fetch "a" none 50 70 (.ok 3 : Except String Nat) =
        (.ok 3, true, ((empty ⟨30⟩).after outlived).insert 70 "a" 3) ∧
      (((empty ⟨30⟩).after outlived).forget "b").1 = false := by
  have hpaced : Paced 0 outlived := by simp [Paced, outlived]
  have hnow : clockAfter 0 outlived ≤ 50 := by decide
  have hdeeds : (empty ⟨30⟩ : Cache Nat).deeds outlived =
      [.store "a" 1 0, .store "b" 2 5, .drop "b"] := rfl
  obtain ⟨hget, hfetch, hforget, -⟩ := answers_by_past ⟨30⟩ hpaced hnow
  rw [hdeeds] at hget hfetch hforget
  have hlatest : Latest [.store "a" 1 0, .store "b" 2 5, .drop "b"] "a" 1 0 :=
    ⟨[], _, rfl, by simp [Deed.Touches]⟩
  refine ⟨hpaced, hnow, ?_, ?_, ?_⟩
  · exact (hget "a" (some ⟨60⟩) 1).2 ⟨0, hlatest, by decide, by decide⟩
  · refine ((hfetch "a" none 70 (.ok 3)).2.1 fun value hfresh => ?_).1 3 rfl
    cases (hget "a" none value).2 hfresh
  · rw [Bool.eq_false_iff, Ne, hforget "b"]
    rintro ⟨value, stored, hlatest⟩
    rw [show [Deed.store "a" 1 0, .store "b" 2 5, .drop "b"] =
      [.store "a" 1 0, .store "b" 2 5] ++ [.drop "b"] from rfl, latest_append_iff] at hlatest
    simp [Deed.Touches] at hlatest

end Steward.Tool.Cache
