import Mathlib
import Suwappu.Lib.Machine

/-!
# The spend bucket

A bucket is a hash under a key with a time to live. It refills continuously and is created full. A
reservation consumes what the bucket holds, an overrun is charged whether it holds it or not, and an
unspent reservation is returned.
-/

namespace Suwappu.LlmBudget

/-- The capacity in micro-dollars and the window in seconds. -/
structure Limit where
  capacity : ℤ
  window : ℕ

/-- Times are in milliseconds. -/
structure Bucket where
  tokens : ℚ
  ts : ℤ
  expiresAt : ℤ

/-- What the key holds, if anything. Redis drops a key once the time is past its expiry. -/
def live (stored : Option Bucket) (now : ℤ) : Option Bucket :=
  stored.filter fun b => now ≤ b.expiresAt

/-- What a bucket gains in some milliseconds. -/
def Limit.refill (limit : Limit) (elapsed : ℤ) : ℚ :=
  (max 0 elapsed : ℤ) / 1000 * (limit.capacity / limit.window)

/-! ### The scripts -/

section Scripts

variable (limit : Limit) (amount now : ℤ) (stored : Option Bucket)

/-- The tokens and the time of the last refill, of a new bucket if there is none. -/
def opened : ℚ × ℤ :=
  match live stored now with
  | none   => (limit.capacity, now)
  | some b => (b.tokens, b.ts)

/-- The tokens a consuming call finds. -/
def level : ℚ :=
  let (tokens, ts) := opened limit now stored
  min (tokens + limit.refill (now - ts)) limit.capacity

/-- `_CONSUME_LUA` -/
def consumeScript : (Bool × ℤ) × Option Bucket :=
  let tokens := level limit now stored
  let allowed := decide (amount ≤ tokens)
  let tokens := if allowed = true then tokens - amount else tokens
  ((allowed, ⌊tokens⌋), some ⟨tokens, now, now + 1000 * (2 * limit.window)⟩)

/-- `_FORCE_CONSUME_LUA`, which expires the key after two days. -/
def forceConsumeScript : Option Bucket :=
  let (tokens, ts) := opened limit now stored
  some ⟨tokens - amount, ts, now + 1000 * 172800⟩

/-- `_REFUND_LUA`, which leaves the time to live as it is. -/
def refundScript : Option Bucket :=
  match live stored now with
  | none   => stored
  | some b => some { b with tokens := min (b.tokens + amount) limit.capacity }

/-! ### The calls -/

def tryConsume : (Bool × ℤ) × Option Bucket :=
  if limit.capacity ≤ 0 then ((true, 0), stored)
  else consumeScript limit (max 0 amount) now stored

def forceConsume : Option Bucket :=
  if amount ≤ 0 ∨ limit.capacity ≤ 0 then stored else forceConsumeScript limit amount now stored

def refund : Option Bucket :=
  if amount = 0 ∨ limit.capacity ≤ 0 then stored else refundScript limit amount now stored

end Scripts

/-! ### Runs -/

inductive Operation where
  | tryConsume (cost : ℤ)
  | forceConsume (amount : ℤ)
  | refund (amount : ℤ)

/-- A call some milliseconds after the one before it. -/
structure Call where
  wait : ℕ
  operation : Operation

/-- What a call was granted, was charged and gave back. -/
structure Entry where
  time : ℤ
  granted : ℤ
  forced : ℤ
  refunded : ℤ

structure State where
  stored : Option Bucket
  clock : ℤ
  log : List Entry

/-- A negative refund is a charge. -/
def step (limit : Limit) (s : State) (call : Call) : State :=
  let now := s.clock + call.wait
  match call.operation with
  | .tryConsume cost     =>
    let (result, stored) := tryConsume limit cost now s.stored
    ⟨stored, now, s.log ++ [⟨now, if result.1 = true then max 0 cost else 0, 0, 0⟩]⟩
  | .forceConsume amount =>
    ⟨forceConsume limit amount now s.stored, now, s.log ++ [⟨now, 0, max 0 amount, 0⟩]⟩
  | .refund amount       =>
    ⟨refund limit amount now s.stored, now, s.log ++ [⟨now, 0, max 0 (-amount), max 0 amount⟩]⟩

def machine (limit : Limit) : Machine State Call Empty := ⟨fun s call => .ok (step limit s call)⟩

/-- Before the first call there is no key. -/
def State.initial (clock : ℤ) : State := ⟨none, clock, []⟩

end Suwappu.LlmBudget
