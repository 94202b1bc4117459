import Steward.Snowflake
import Steward.Word

/-!
# Cooldowns

How long a user has to wait between two creations in one server. The last creation of each pair of
server and user is recorded; records that no longer matter are pruned with every new one. Times are
compared in whole milliseconds, and the waiting time is given in seconds, rounded up.
-/

namespace Steward

open Time

/-- A user in a server. -/
abbrev Member := Snowflake × Snowflake

/-- The last creation of each member. -/
structure Cooldowns where
  entries : List (Member × Instant)
deriving DecidableEq

namespace Cooldowns

/-- No creation recorded. -/
def empty : Cooldowns := ⟨[]⟩

/-- How many members have a record. -/
def size (c : Cooldowns) : Nat := c.entries.length

/-- The last creation of a member. -/
def last? (c : Cooldowns) (m : Member) : Option Instant := c.entries.lookup m

/-- The records without that of a member. -/
def reset (c : Cooldowns) (m : Member) : Cooldowns := ⟨c.entries.filter (·.1 ≠ m)⟩

/-- The longest span of time, in nanoseconds, that can be compared with: 2^63 - 1 milliseconds. -/
def longest : Int := (Word.bound64 - 1) * 1000000

/-- The records that are younger than `retention` nanoseconds at `now`; all where the retention is
too long to compare with. -/
def prune (c : Cooldowns) (now : Instant) (retention : Int) : Cooldowns :=
  if longest < retention then c
  else ⟨c.entries.filter fun (_, at') => now.since at' < retention⟩

/-- The records after a creation, pruned. -/
def record (c : Cooldowns) (m : Member) (now : Instant) (retention : Int) : Cooldowns :=
  prune ⟨(m, now) :: (c.reset m).entries⟩ now retention

/-- What a member is told who wants to create. A decision that overflows is none with checks for
overflow: they panic. Without them the seconds are those that the wrapped sum comes to. -/
inductive Decision where
  | allowed
  | wait (seconds : Int)
  | overflow (seconds : Int)
deriving DecidableEq, Repr

/-- Whether a sum on the way to a decision has left the signed words. -/
def Decision.overflows : Decision → Bool
  | .allowed | .wait _ => false
  | .overflow _ => true

/-- The value of a sum or difference of 64-bit integers that may wrap. -/
def word (n : Int) : Int := Int.bmod n Word.count64

/-- A cooldown in milliseconds of 64 bits. -/
def cooldownMillis (seconds : Nat) : Int := min (seconds * 1000) (Word.bound64 - 1)

/-- What a member is told of the milliseconds that are left to wait: seconds, rounded up. -/
def roundUp (left : Int) : Decision :=
  match (Word.signed? left).bind fun left => Word.signed? (left + 999) with
  | some sum => .wait (sum.tdiv 1000)
  | none => .overflow ((word (word left + 999)).tdiv 1000)

/-- The decision at `now` for a cooldown in seconds and the last creation, if any. -/
def decide (cooldown : Nat) (last? : Option Instant) (now : Instant) : Decision :=
  match last? with
  | none => .allowed
  | some last =>
    let whole := cooldownMillis cooldown
    let elapsed := now.millisSince last
    if whole ≤ elapsed then .allowed
    else roundUp (whole - elapsed)

/-- The decision at `now` on a creation by a member. -/
def check (cooldown : Nat) (c : Cooldowns) (m : Member) (now : Instant) : Decision :=
  decide cooldown (c.last? m) now

/-- A cooldown as a retention. -/
def retention (cooldown : Nat) : Int := cooldown * 1000000000

end Cooldowns

end Steward
