import Mathlib.Algebra.GroupWithZero.Nat
import Mathlib.Logic.Function.Basic
import Mathlib.Tactic.Common

/-!
# The Redis scripts

Counters with an optional deadline. A script runs as one step; an instant is a number of nanoseconds
on the clock of the server.

- `RedisDb.get`, `RedisDb.incr`, `RedisDb.pexpire`, … — the commands the scripts call; a key is gone
  once its deadline has come
- `rateLimitScript`, `permitAcquireScript`, `permitReleaseScript`
-/

namespace Moira

structure RedisEntry where
  value : Int
  expiresAt : Option Nat := none

abbrev RedisDb := String → Option RedisEntry

namespace RedisDb

variable (db : RedisDb) (now : Nat) (key : String)

/-- The entry of a key that has not expired. -/
def live : Option RedisEntry :=
  (db key).filter fun entry => entry.expiresAt.all fun deadline => now < deadline

def get : Option Int :=
  (db.live now key).map RedisEntry.value

def set (entry : RedisEntry) : RedisDb :=
  Function.update db key (some entry)

/-- `INCRBY`: a missing key counts as zero, and the deadline of a present one stays. -/
def incrBy (amount : Int) : Int × RedisDb :=
  let value := (db.get now key).getD 0 + amount
  (value, db.set key { value, expiresAt := (db.live now key).bind RedisEntry.expiresAt })

def incr : Int × RedisDb := db.incrBy now key 1

def decr : Int × RedisDb := db.incrBy now key (-1)

def pexpire (ms : Nat) : RedisDb :=
  match db.live now key with
  | some entry => db.set key { entry with expiresAt := some (now + ms * 1000000) }
  | none => db

def del : RedisDb :=
  Function.update db key none

variable {db now key}

theorem live_set {entry : RedisEntry} (h : entry.expiresAt.all fun deadline => now < deadline) :
    (db.set key entry).live now key = some entry := by
  unfold live set
  rw [Function.update_self, Option.filter_some, if_pos h]

theorem live_eq_some {entry : RedisEntry} :
    db.live now key = some entry ↔
      db key = some entry ∧ entry.expiresAt.all (fun deadline => now < deadline) = true := by
  unfold live
  rw [Option.filter_eq_some_iff]

theorem set_set {a b : RedisEntry} : RedisDb.set (db.set key a) key b = db.set key b :=
  Function.update_idem ..

end RedisDb

/-! ## The scripts -/

section

variable (db : RedisDb) (now : Nat) (key : String)

/-- `RATE_LIMIT_SCRIPT`: 1 when admitted, 0 when rejected. -/
def rateLimitScript (limit : Int) (windowMs : Nat) : Int × RedisDb :=
  let current := (db.get now key).getD 0
  if limit ≤ current then (0, db)
  else
    let (updated, db) := db.incr now key
    if updated = 1 then (1, db.pexpire now key windowMs) else (1, db)

/-- `PERMIT_ACQUIRE_SCRIPT` -/
def permitAcquireScript (limit : Int) (ttlMs : Nat) : Int × RedisDb :=
  let current := (db.get now key).getD 0
  if limit ≤ current then (0, db)
  else
    let (_, db) := db.incr now key
    (1, db.pexpire now key ttlMs)

/-- `PERMIT_RELEASE_SCRIPT` -/
def permitReleaseScript : Int × RedisDb :=
  let current := (db.get now key).getD 0
  if current ≤ 0 then (0, db)
  else
    let (updated, db) := db.decr now key
    if updated < 0 then (0, db.set key { value := 0 })
    else if updated = 0 then (updated, db.del key)
    else (updated, db)

/-- `i64::MAX` -/
def redisIntegerMax : Nat := 2 ^ 63 - 1

/-- `i64::try_from(duration.as_millis()).unwrap_or(i64::MAX).max(1)`, of nanoseconds. -/
def redisMillis (duration : Nat) : Nat :=
  max (min (duration / 1000000) redisIntegerMax) 1

/-- `check_rate_window`: whether the check is admitted. -/
def checkRateWindow (limit : UInt32) (window : Nat) : Bool × RedisDb :=
  let (admitted, db) := rateLimitScript db now key (max limit.toNat 1 : Nat) (redisMillis window)
  (admitted = 1, db)

/-- `try_acquire_permit`: whether a slot was taken. -/
def tryAcquirePermit (limit ttl : Nat) : Bool × RedisDb :=
  let (acquired, db) :=
    permitAcquireScript db now key (min (max limit 1) redisIntegerMax : Nat) (redisMillis ttl)
  (acquired = 1, db)

end

end Moira
