import Steward.Proofs.Text.Trim
import Steward.Settings.Basic

/-!
# What variables give

`ofVariables` as a list of checks, done in their order: each refuses the variables with a fault of
its own, or has its part of the settings say what the variables say.

* `Range.Denotes`: the numbers that the text of a variable can stand for. `Range.readBy_read32?`,
  `readBy_read64?`, `readBy_readSigned32?`: they are the numbers that are read.
* `Refuses`, `Refused`: what a check refuses, and the fault that a list of checks ends with.
  `Refused.unique`: there is at most one.
* `Heeds`: a reading that does checks and gives what has a property. `Heeds.bind`: one after another
  they do the checks of both. `heeds_environmentOf` to `heeds_toolsOf`: one lemma for each section.
* `ofVariables_congr`: without a store, its number of connections is not looked at.
* `settings_heed_variables`: all of it together.
-/

namespace Steward

/-- An environment is known by its name in whatever case its letters are. -/
theorem Environment.read?_eq_some_iff {raw : String} {env : Environment} :
    read? raw = some env ↔ raw.toLower = env.name.toLower := by
  refine ⟨fun h => ?_, fun h => ?_⟩
  · unfold read? at h
    split at h
    case h_4 => cases h
    all_goals
      next hraw =>
      obtain rfl := Option.some.inj h
      rw [hraw]
      decide +kernel
  · unfold read?
    rw [h]
    cases env <;> decide +kernel

namespace Settings

open Text (Spells)

variable {vars : Variables} {name raw : String} {e : Fault}

/-! ## Numbers of a type -/

/-- The numbers of a type, from `low` on and below `high`, and whether a minus sign is known. -/
structure Range where
  signed : Bool
  low : Int
  high : Int

namespace Range

/-- The numbers of 32 bits. -/
def word32 : Range := ⟨false, 0, 4294967296⟩

/-- The numbers of 64 bits. -/
def word64 : Range := ⟨false, 0, 18446744073709551616⟩

/-- The signed numbers of 32 bits. -/
def signed32 : Range := ⟨true, -2147483648, 2147483648⟩

/-- The text spells the number between blank characters, and the number is one of the type. -/
def Denotes (r : Range) (raw : String) (n : Int) : Prop :=
  ∃ before numeral after, raw.toList = before ++ numeral ++ after ∧
    (∀ c ∈ before, Text.isBlank c = true) ∧ (∀ c ∈ after, Text.isBlank c = true) ∧
    Spells numeral n ∧ (r.signed = false → '-' ∉ numeral) ∧ r.low ≤ n ∧ n < r.high

/-- The numeral between blank characters is the trimmed text. -/
theorem denotes_iff {r : Range} {n : Int} :
    r.Denotes raw n ↔ Spells (Text.trim raw.toList) n ∧
      (r.signed = false → '-' ∉ Text.trim raw.toList) ∧ r.low ≤ n ∧ n < r.high := by
  refine ⟨fun h => ?_, fun h => ?_⟩
  · obtain ⟨before, numeral, after, hraw, hbefore, hafter, hspells, hrest⟩ := h
    have htrim : Text.trim raw.toList = numeral :=
      hspells.framed.trim_eq_iff.2 ⟨before, after, hraw, hbefore, hafter⟩
    rw [htrim]
    exact ⟨hspells, hrest⟩
  · obtain ⟨hspells, hrest⟩ := h
    obtain ⟨before, after, hraw, hbefore, hafter⟩ := hspells.framed.trim_eq_iff.1 rfl
    exact ⟨before, _, after, hraw, hbefore, hafter, hspells, hrest⟩

/-- The reader of trimmed texts reads the numbers that texts denote, as values of its own type. -/
def ReadBy {α : Type} (r : Range) (value : α → Int) (read? : List Char → Option α) : Prop :=
  ∀ (raw : String) (n : Int),
    (read? (Text.trim raw.toList)).map value = some n ↔ r.Denotes raw n

/-- A text denotes no two numbers. -/
theorem ReadBy.unique {α : Type} {r : Range} {value : α → Int} {read? : List Char → Option α}
    {m n : Int} (h : r.ReadBy value read?) (hm : r.Denotes raw m) (hn : r.Denotes raw n) :
    m = n :=
  Option.some.inj (((h raw m).2 hm).symm.trans ((h raw n).2 hn))

theorem readBy_ofUnsigned? (bound : Nat) :
    ReadBy ⟨false, 0, bound⟩ Int.ofNat (Text.ofUnsigned? bound) := by
  intro raw n
  rw [Option.map_eq_some_iff, denotes_iff]
  refine ⟨fun h => ?_, fun h => ?_⟩
  · obtain ⟨m, hm, rfl⟩ := h
    obtain ⟨hspells, hminus, hbound⟩ := Text.ofUnsigned?_eq_some_iff_spells.1 hm
    exact ⟨hspells, fun _ => hminus, Int.natCast_nonneg m, Int.ofNat_lt.2 hbound⟩
  · obtain ⟨hspells, hminus, hlow, hhigh⟩ := h
    obtain ⟨m, rfl⟩ := Int.eq_ofNat_of_zero_le hlow
    exact ⟨m, Text.ofUnsigned?_eq_some_iff_spells.2
      ⟨hspells, hminus rfl, Int.ofNat_lt.1 hhigh⟩, rfl⟩

theorem readBy_read32? : word32.ReadBy Int.ofNat read32? := readBy_ofUnsigned? Word.count32

theorem readBy_read64? : word64.ReadBy Int.ofNat read64? := readBy_ofUnsigned? Word.count64

theorem readBy_readSigned32? : signed32.ReadBy id readSigned32? := by
  intro raw n
  rw [Option.map_id, id, denotes_iff, readSigned32?, Option.filter_eq_some_iff,
    Text.ofSigned?_eq_some_iff, Bool.and_eq_true, decide_eq_true_iff, decide_eq_true_iff]
  refine ⟨fun h => ?_, fun h => ?_⟩
  · obtain ⟨hspells, hrange⟩ := h
    exact ⟨hspells, nofun, hrange⟩
  · obtain ⟨hspells, -, hrange⟩ := h
    exact ⟨hspells, hrange⟩

end Range

/-- The number of a variable: what its text denotes, and the default where it is not set. -/
inductive Holds (vars : Variables) (name : String) (range : Range) (default : Int) : Int → Prop
  | unset (h : vars name = none) : Holds vars name range default default
  | set {raw : String} {n : Int} (hset : vars name = some raw) (h : range.Denotes raw n) :
      Holds vars name range default n

theorem Holds.unique {α : Type} {range : Range} {value : α → Int} {read? : List Char → Option α}
    {default m n : Int} (hr : range.ReadBy value read?) (hm : Holds vars name range default m)
    (hn : Holds vars name range default n) : m = n := by
  cases hm with
  | unset hnone =>
    cases hn with
    | unset _ => rfl
    | set hset _ => cases hnone.symm.trans hset
  | set hset h =>
    cases hn with
    | unset hnone => cases hnone.symm.trans hset
    | set hset' h' =>
      obtain rfl := Option.some.inj (hset.symm.trans hset')
      exact hr.unique h h'

/-! ## Checks -/

/-- The checks that are made of variables. -/
inductive Check where
  | environment
  | store
  | number (name : String) (range : Range)
  | places
  | address

/-- The check refuses the variables, with a fault. -/
inductive Refuses (vars : Variables) : Check → Fault → Prop
  /-- The text names no environment, in whatever case its letters are. -/
  | environment {raw : String} (hset : vars "APP_ENV" = some raw)
      (h : ∀ env : Environment, raw.toLower ≠ env.name.toLower) :
      Refuses vars .environment (.invalid "APP_ENV" raw)
  /-- The text denotes no number of the type. -/
  | number {name raw : String} {range : Range} (hset : vars name = some raw)
      (h : ∀ n, ¬ range.Denotes raw n) : Refuses vars (.number name range) (.invalid name raw)
  /-- The number of connections to the store is looked at where there is a store. -/
  | store {url : String} {e : Fault} (hset : vars "REDIS_URL" = some url)
      (hblank : Text.blank url = false)
      (h : Refuses vars (.number "REDIS_MAX_CONNECTIONS" .word32) e) : Refuses vars .store e
  /-- The limit is a number, but a competition needs two places. -/
  | places {n : Int} (h : Holds vars "COMPETITION_MAX_PARTICIPANTS" .signed32 100 n) (hn : n < 2) :
      Refuses vars .places (.invalid "COMPETITION_MAX_PARTICIPANTS" (Text.decimalInt n))
  | address (h : vars "DATABASE_URL" = none) : Refuses vars .address (.missing "DATABASE_URL")

theorem Refuses.unique {c : Check} {e e' : Fault} (h : Refuses vars c e) (h' : Refuses vars c e') :
    e = e' := by
  induction h with
  | environment hset _ =>
    cases h' with
    | environment hset' _ => rw [Option.some.inj (hset.symm.trans hset')]
  | number hset _ =>
    cases h' with
    | number hset' _ => rw [Option.some.inj (hset.symm.trans hset')]
  | store _ _ _ ih =>
    cases h' with
    | store _ _ h' => exact ih h'
  | places h _ =>
    cases h' with
    | places h' _ => rw [h.unique Range.readBy_readSigned32? h']
  | address _ =>
    cases h' with
    | address _ => rfl

/-- The fault is that of the first of the checks that refuses the variables. -/
inductive Refused (vars : Variables) : List Check → Fault → Prop
  | here {c : Check} {cs : List Check} {e : Fault} (h : Refuses vars c e) :
      Refused vars (c :: cs) e
  | later {c : Check} {cs : List Check} {e : Fault} (hc : ∀ e', ¬ Refuses vars c e')
      (h : Refused vars cs e) : Refused vars (c :: cs) e

namespace Refused

variable {cs ds : List Check}

theorem unique {e' : Fault} (h : Refused vars cs e) (h' : Refused vars cs e') : e = e' := by
  induction h with
  | here h =>
    cases h' with
    | here h' => exact h.unique h'
    | later hc _ => exact absurd h (hc _)
  | later hc _ ih =>
    cases h' with
    | here h' => exact absurd h' (hc _)
    | later _ h' => exact ih h'

/-- More checks after the one that refuses change nothing. -/
theorem append (h : Refused vars cs e) (ds : List Check) : Refused vars (cs ++ ds) e := by
  induction h with
  | here h => exact .here h
  | later hc _ ih => exact .later hc ih

/-- Nor do checks before it that refuse nothing. -/
theorem of_append (hcs : ∀ c ∈ cs, ∀ e', ¬ Refuses vars c e') (h : Refused vars ds e) :
    Refused vars (cs ++ ds) e := by
  induction cs with
  | nil => exact h
  | cons c cs ih =>
    exact .later (hcs c (.head _)) (ih fun d hd => hcs d (.tail _ hd))

/-- There is a fault exactly where one of the checks refuses the variables. -/
theorem exists_iff : (∃ e, Refused vars cs e) ↔ ∃ c ∈ cs, ∃ e, Refuses vars c e := by
  refine ⟨fun h => ?_, fun h => ?_⟩
  · obtain ⟨e, h⟩ := h
    induction h with
    | here h => exact ⟨_, .head _, _, h⟩
    | later _ _ ih =>
      obtain ⟨c, hc, h⟩ := ih
      exact ⟨c, .tail _ hc, h⟩
  · induction cs with
    | nil =>
      obtain ⟨c, hc, -⟩ := h
      cases hc
    | cons c cs ih =>
      by_cases hfirst : ∃ e, Refuses vars c e
      · obtain ⟨e, hfirst⟩ := hfirst
        exact ⟨e, .here hfirst⟩
      · obtain ⟨d, hd, hrefuses⟩ := h
        rcases List.mem_cons.1 hd with rfl | hd
        · exact absurd hrefuses hfirst
        · obtain ⟨e, h⟩ := ih ⟨d, hd, hrefuses⟩
          exact ⟨e, .later (fun e' h' => hfirst ⟨e', h'⟩) h⟩

end Refused

/-! ## Readings that make checks -/

/-- The reading makes the checks in their order: it gives something with the property where none
refuses the variables, and else the fault of the first that does. -/
inductive Heeds {α : Type} (vars : Variables) (cs : List Check) (P : α → Prop) :
    Except Fault α → Prop
  | ok {a : α} (hcs : ∀ c ∈ cs, ∀ e, ¬ Refuses vars c e) (h : P a) : Heeds vars cs P (.ok a)
  | error {e : Fault} (h : Refused vars cs e) : Heeds vars cs P (.error e)

namespace Heeds

variable {α β : Type} {cs ds : List Check} {P : α → Prop} {Q : β → Prop}

theorem pure {a : α} (h : P a) : Heeds vars [] P (Pure.pure a) := .ok (by simp) h

theorem bind {x : Except Fault α} {f : α → Except Fault β} (hx : Heeds vars cs P x)
    (hf : ∀ a, P a → Heeds vars ds Q (f a)) : Heeds vars (cs ++ ds) Q (x >>= f) := by
  cases hx with
  | error h => exact .error (h.append ds)
  | @ok a hcs h =>
    show Heeds vars (cs ++ ds) Q (f a)
    have hfa := hf a h
    generalize f a = y at hfa
    cases hfa with
    | error h' => exact .error (.of_append hcs h')
    | ok hds h' =>
      refine .ok (fun c hc => ?_) h'
      rcases List.mem_append.1 hc with hc | hc
      · exact hcs c hc
      · exact hds c hc

/-- One check is made of a reading that gives something exactly where the check refuses nothing. -/
theorem of_ok {c : Check} {a : α} (hc : ∀ e, ¬ Refuses vars c e) (h : P a) :
    Heeds vars [c] P (.ok a) :=
  .ok (fun d hd => by rw [List.mem_singleton.1 hd]; exact hc) h

/-- A check that refuses what another refuses may be made in its place. -/
theorem of_single {c d : Check} {x : Except Fault α}
    (hcd : ∀ e, Refuses vars c e ↔ Refuses vars d e) (h : Heeds vars [d] P x) :
    Heeds vars [c] P x := by
  cases h with
  | ok hd h => exact .of_ok (fun e he => hd d (.head _) e ((hcd e).1 he)) h
  | error h =>
    cases h with
    | here h => exact .error (.here ((hcd _).2 h))
    | later _ h => cases h

theorem eq_error_iff {x : Except Fault α} (h : Heeds vars cs P x) :
    x = .error e ↔ Refused vars cs e := by
  cases h with
  | ok hcs _ =>
    refine ⟨nofun, fun h => ?_⟩
    obtain ⟨c, hc, e', h'⟩ := Refused.exists_iff.1 ⟨e, h⟩
    exact absurd h' (hcs c hc e')
  | error h =>
    refine ⟨fun he => ?_, fun h' => ?_⟩
    · obtain rfl := Except.error.inj he
      exact h
    · rw [h.unique h']

theorem of_eq_ok {x : Except Fault α} {a : α} (h : Heeds vars cs P x) (hx : x = .ok a) : P a := by
  subst hx
  cases h with
  | ok _ h => exact h

end Heeds

/-! ## Numbers -/

theorem heeds_number {α : Type} {range : Range} {value : α → Int} {read? : List Char → Option α}
    (h : range.ReadBy value read?) (name : String) (default : α) :
    Heeds vars [.number name range] (fun n => Holds vars name range (value default) (value n))
      (number vars name read? default) := by
  unfold number
  split
  · next hnone =>
    refine .of_ok (fun e he => ?_) (.unset hnone)
    cases he with
    | number hset _ => cases hnone.symm.trans hset
  · next raw hset =>
    split
    · next n hn =>
      have hdenotes : range.Denotes raw (value n) := (h raw _).1 (by rw [hn]; rfl)
      refine .of_ok (fun e he => ?_) (.set hset hdenotes)
      cases he with
      | number hset' hnot =>
        obtain rfl := Option.some.inj (hset.symm.trans hset')
        exact hnot _ hdenotes
    · next hnone =>
      refine .error (.here (.number hset fun n hn => ?_))
      rw [← h raw n, hnone] at hn
      cases hn

/-! ## Sections -/

/-- The environment is the one that is named, in whatever case its letters are, and development
where none is named. -/
inductive Named (vars : Variables) : Environment → Prop
  | unset (h : vars "APP_ENV" = none) : Named vars .development
  | set {raw : String} {env : Environment} (hset : vars "APP_ENV" = some raw)
      (h : raw.toLower = env.name.toLower) : Named vars env

theorem heeds_environmentOf : Heeds vars [.environment] (Named vars) (environmentOf vars) := by
  unfold environmentOf
  split
  · next hnone =>
    refine .of_ok (fun e he => ?_) (.unset hnone)
    cases he with
    | environment hset _ => cases hnone.symm.trans hset
  · next raw hset =>
    split
    · next env henv =>
      have hname := Environment.read?_eq_some_iff.1 henv
      refine .of_ok (fun e he => ?_) (.set hset hname)
      cases he with
      | environment hset' hnot =>
        obtain rfl := Option.some.inj (hset.symm.trans hset')
        exact hnot env hname
    · next hnone =>
      refine .error (.here (.environment hset fun env henv => ?_))
      rw [Environment.read?_eq_some_iff.2 henv] at hnone
      cases hnone

/-- There is a store where its address is set and not blank. -/
inductive StoreRead (vars : Variables) : Option RedisSettings → Prop
  | absent (h : ∀ url, vars "REDIS_URL" = some url → Text.blank url = true) : StoreRead vars none
  | present {r : RedisSettings} (hset : vars "REDIS_URL" = some r.url)
      (hblank : Text.blank r.url = false)
      (h : Holds vars "REDIS_MAX_CONNECTIONS" .word32 10 r.maxConnections) :
      StoreRead vars (some r)

theorem heeds_redisOf : Heeds vars [.store] (StoreRead vars) (redisOf vars) := by
  unfold redisOf
  split
  · next hnone =>
    refine .of_ok (fun e he => ?_) (.absent fun url hset => ?_)
    · cases he with
      | store hset _ _ => cases hnone.symm.trans hset
    · cases hnone.symm.trans hset
  · next url hset =>
    split
    · next hblank =>
      refine .of_ok (fun e he => ?_) (.absent fun url' hset' => ?_)
      · cases he with
        | store hset' hblank' _ =>
          obtain rfl := Option.some.inj (hset.symm.trans hset')
          rw [hblank] at hblank'
          cases hblank'
      · obtain rfl := Option.some.inj (hset.symm.trans hset')
        exact hblank
    · next hblank =>
      have hblank : Text.blank url = false := Bool.not_eq_true _ ▸ hblank
      have hcheck : ∀ e, Refuses vars .store e ↔
          Refuses vars (.number "REDIS_MAX_CONNECTIONS" .word32) e := by
        intro e
        refine ⟨fun he => ?_, fun he => .store hset hblank he⟩
        cases he with
        | store _ _ he => exact he
      refine .of_single hcheck ?_
      refine (heeds_number Range.readBy_read32? _ _).bind fun maxConnections hmax => ?_
      exact .pure (.present hset hblank hmax)

/-- The limits are what the variables say, and a competition has two places. -/
structure LimitsRead (vars : Variables) (l : Limits) : Prop where
  maxActive : Holds vars "COMPETITION_MAX_ACTIVE_PER_SERVER" .word64 5 l.maxActive
  maxParticipants : Holds vars "COMPETITION_MAX_PARTICIPANTS" .signed32 100 l.maxParticipants
  cooldown : Holds vars "COMPETITION_CREATION_COOLDOWN_SECS" .word64 60 l.cooldown
  places : 2 ≤ l.maxParticipants

theorem heeds_limitsOf :
    Heeds vars [.number "COMPETITION_MAX_ACTIVE_PER_SERVER" .word64,
      .number "COMPETITION_MAX_PARTICIPANTS" .signed32,
      .number "COMPETITION_CREATION_COOLDOWN_SECS" .word64, .places]
      (LimitsRead vars) (limitsOf vars) := by
  unfold limitsOf
  refine (heeds_number Range.readBy_read64? _ _).bind fun maxActive hactive => ?_
  refine (heeds_number Range.readBy_readSigned32? _ _).bind fun maxParticipants hplaces => ?_
  refine (heeds_number Range.readBy_read64? _ _).bind fun cooldown hcooldown => ?_
  split
  · next hfew => exact .error (.here (.places hplaces hfew))
  · next hmany =>
    refine .of_ok (fun e he => ?_) ⟨hactive, hplaces, hcooldown, Int.not_lt.1 hmany⟩
    cases he with
    | places h hn =>
      rw [h.unique Range.readBy_readSigned32? hplaces] at hn
      exact hmany hn

/-- The database is what the variables say. -/
structure DatabaseRead (vars : Variables) (d : DatabaseSettings) : Prop where
  url : vars "DATABASE_URL" = some d.url
  maxConnections : Holds vars "DATABASE_MAX_CONNECTIONS" .word32 20 d.maxConnections
  minConnections : Holds vars "DATABASE_MIN_CONNECTIONS" .word32 2 d.minConnections

theorem heeds_databaseOf :
    Heeds vars [.address, .number "DATABASE_MAX_CONNECTIONS" .word32,
      .number "DATABASE_MIN_CONNECTIONS" .word32] (DatabaseRead vars) (databaseOf vars) := by
  unfold databaseOf
  split
  · next url hset =>
    have haddress :
        Heeds vars [.address] (fun url => vars "DATABASE_URL" = some url) (.ok url) := by
      refine .of_ok (fun e he => ?_) hset
      cases he with
      | address hnone => cases hnone.symm.trans hset
    refine haddress.bind fun url hurl => ?_
    refine (heeds_number Range.readBy_read32? _ _).bind fun maxConnections hmax => ?_
    refine (heeds_number Range.readBy_read32? _ _).bind fun minConnections hmin => ?_
    exact .pure ⟨hurl, hmax, hmin⟩
  · next hnone => exact .error (.here (.address hnone))

/-- The tools are what the variables say. -/
structure ToolsRead (vars : Variables) (t : ToolSettings) : Prop where
  keepSecs : Holds vars "TOOL_CACHE_TTL_SECS" .word64 60 t.keepSecs
  timeoutSecs : Holds vars "TOOL_TIMEOUT_SECS" .word64 120 t.timeoutSecs
  knipCommand : t.knipCommand = (vars "KNIP_COMMAND").getD "npx knip"
  jscpdCommand : t.jscpdCommand = (vars "JSCPD_COMMAND").getD "npx jscpd"

theorem heeds_toolsOf :
    Heeds vars [.number "TOOL_CACHE_TTL_SECS" .word64, .number "TOOL_TIMEOUT_SECS" .word64]
      (ToolsRead vars) (toolsOf vars) := by
  unfold toolsOf
  refine (heeds_number Range.readBy_read64? _ _).bind fun keepSecs hkeep => ?_
  refine (heeds_number Range.readBy_read64? _ _).bind fun timeoutSecs htimeout => ?_
  exact .pure ⟨hkeep, htimeout, rfl, rfl⟩

/-! ## All settings -/

/-- The checks in the order in which they are made. -/
def checks : List Check := [
  .environment,
  .store,
  .number "COMPETITION_MAX_ACTIVE_PER_SERVER" .word64,
  .number "COMPETITION_MAX_PARTICIPANTS" .signed32,
  .number "COMPETITION_CREATION_COOLDOWN_SECS" .word64,
  .places,
  .address,
  .number "DATABASE_MAX_CONNECTIONS" .word32,
  .number "DATABASE_MIN_CONNECTIONS" .word32,
  .number "TOOL_CACHE_TTL_SECS" .word64,
  .number "TOOL_TIMEOUT_SECS" .word64]

/-- The settings are what the variables say. -/
structure Read (vars : Variables) (s : Settings) : Prop where
  name : s.name = (vars "APP_NAME").getD "scout"
  environment : Named vars s.environment
  redis : StoreRead vars s.redis
  limits : LimitsRead vars s.limits
  database : DatabaseRead vars s.database
  tools : ToolsRead vars s.tools

theorem heeds_ofVariables : Heeds vars checks (Read vars) (ofVariables vars) := by
  unfold ofVariables
  refine heeds_environmentOf.bind fun environment henvironment => ?_
  refine heeds_redisOf.bind fun redis hredis => ?_
  refine heeds_limitsOf.bind fun limits hlimits => ?_
  refine heeds_databaseOf.bind fun database hdatabase => ?_
  refine heeds_toolsOf.bind fun tools htools => ?_
  exact .pure ⟨rfl, henvironment, hredis, hlimits, hdatabase, htools⟩

/-! ## Variables that are not looked at -/

theorem redisOf_of_absent (h : ∀ url, vars "REDIS_URL" = some url → Text.blank url = true) :
    redisOf vars = .ok none := by
  unfold redisOf
  split
  · rfl
  · next url hset => rw [if_pos (h url hset)]

section

variable {vars' : Variables}

theorem number_congr {α : Type} {read? : List Char → Option α} {default : α}
    (h : vars' name = vars name) :
    number vars' name read? default = number vars name read? default := by
  unfold number
  rw [h]

/-- Without a store, nothing depends on how many connections it would have. -/
theorem ofVariables_congr (hstore : ∀ url, vars "REDIS_URL" = some url → Text.blank url = true)
    (h : ∀ name, name ≠ "REDIS_MAX_CONNECTIONS" → vars' name = vars name) :
    ofVariables vars' = ofVariables vars := by
  have henvironment : environmentOf vars' = environmentOf vars := by
    unfold environmentOf
    rw [h "APP_ENV" (by decide)]
  have hredis : redisOf vars' = redisOf vars := by
    rw [redisOf_of_absent hstore]
    refine redisOf_of_absent fun url hset => hstore url ?_
    rw [← h "REDIS_URL" (by decide), hset]
  have hlimits : limitsOf vars' = limitsOf vars := by
    unfold limitsOf
    rw [number_congr (h "COMPETITION_MAX_ACTIVE_PER_SERVER" (by decide)),
      number_congr (h "COMPETITION_MAX_PARTICIPANTS" (by decide)),
      number_congr (h "COMPETITION_CREATION_COOLDOWN_SECS" (by decide))]
  have hdatabase : databaseOf vars' = databaseOf vars := by
    unfold databaseOf
    rw [h "DATABASE_URL" (by decide), number_congr (h "DATABASE_MAX_CONNECTIONS" (by decide)),
      number_congr (h "DATABASE_MIN_CONNECTIONS" (by decide))]
  have htools : toolsOf vars' = toolsOf vars := by
    unfold toolsOf
    rw [number_congr (h "TOOL_CACHE_TTL_SECS" (by decide)),
      number_congr (h "TOOL_TIMEOUT_SECS" (by decide)), h "KNIP_COMMAND" (by decide),
      h "JSCPD_COMMAND" (by decide)]
  unfold ofVariables
  rw [henvironment, hredis, hlimits, hdatabase, htools, h "APP_NAME" (by decide)]

end

/-- No variable that is set is passed over for a default: what is given are the numbers that the
texts denote, or the fault of the first check, in their order, that refuses the variables. How many
connections a store has is looked at only where there is a store, and a pool keeps no more idle
connections than it may open. -/
theorem settings_heed_variables (vars : Variables) :
    (∀ s, ofVariables vars = .ok s → Read vars s ∧
      (PoolSettings.of s.database).minConnections ≤ (PoolSettings.of s.database).maxConnections) ∧
    (∀ e, ofVariables vars = .error e ↔ Refused vars checks e) ∧
    ((∃ e, ofVariables vars = .error e) ↔ ∃ c ∈ checks, ∃ e, Refuses vars c e) ∧
    ((∀ url, vars "REDIS_URL" = some url → Text.blank url = true) →
      ∀ vars' : Variables, (∀ name, name ≠ "REDIS_MAX_CONNECTIONS" → vars' name = vars name) →
        ofVariables vars' = ofVariables vars) := by
  have herror : ∀ e, ofVariables vars = .error e ↔ Refused vars checks e :=
    fun e => heeds_ofVariables.eq_error_iff
  refine ⟨fun s hs => ?_, herror, ?_, fun hstore vars' h => ofVariables_congr hstore h⟩
  · exact ⟨heeds_ofVariables.of_eq_ok hs, Nat.min_le_right ..⟩
  · rw [← Refused.exists_iff]
    exact exists_congr herror

/-- The variables of a deployment: a store that is left blank, and few connections. -/
def deployed : Variables := fun name =>
  [("APP_ENV", "PRODUCTION"), ("REDIS_URL", " "), ("REDIS_MAX_CONNECTIONS", "many"),
    ("DATABASE_URL", "postgres://db"), ("DATABASE_MAX_CONNECTIONS", " +7 "),
    ("DATABASE_MIN_CONNECTIONS", "9")].lookup name

/-- The same but for the number of connections to the store. -/
def storeless : Variables := fun name =>
  if name = "REDIS_MAX_CONNECTIONS" then none else deployed name

/-- Variables that name no database, and a limit of one place. -/
def cramped : Variables := fun name =>
  [("APP_ENV", "staging"), ("COMPETITION_MAX_PARTICIPANTS", " +1")].lookup name

theorem settings_heed_variables_deployed :
    (ofVariables deployed = .ok ⟨"scout", .production, ⟨"postgres://db", 7, 9⟩, none, {}, {}⟩ ∧
      Read deployed ⟨"scout", .production, ⟨"postgres://db", 7, 9⟩, none, {}, {}⟩) ∧
    ofVariables storeless = ofVariables deployed ∧
    (ofVariables cramped = .error (.invalid "COMPETITION_MAX_PARTICIPANTS" "1") ∧
      Refused cramped checks (.invalid "COMPETITION_MAX_PARTICIPANTS" "1")) := by
  have hok : ofVariables deployed =
      .ok ⟨"scout", .production, ⟨"postgres://db", 7, 9⟩, none, {}, {}⟩ := by decide +kernel
  have hblank : ∀ url, deployed "REDIS_URL" = some url → Text.blank url = true := by
    intro url hset
    obtain rfl : " " = url := Option.some.inj hset
    decide
  have herror : ofVariables cramped = .error (.invalid "COMPETITION_MAX_PARTICIPANTS" "1") := by
    decide +kernel
  exact ⟨⟨hok, ((settings_heed_variables deployed).1 _ hok).1⟩,
    (settings_heed_variables deployed).2.2.2 hblank storeless (fun name h => if_neg h),
    herror, ((settings_heed_variables cramped).2.1 _).1 herror⟩

end Settings

end Steward
