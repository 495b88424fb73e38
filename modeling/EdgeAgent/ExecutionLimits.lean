import EdgeAgent.FiniteMaps
import EdgeAgent.HostPrimitives

/-!
# Execution limits

Limits on time, actions, call depth and delays of one run, and the rate limiter that
counts the runs of each script in windows of a minute.
-/
namespace EdgeAgent.Scripting
open FiniteMaps Host

structure ScriptLimits where
  maxExecutionTime : ℕ
  maxActionsPerRun : ℕ
  maxCallDepth : ℕ
  maxDelayMs : UInt64
  rateLimitPerMinute : ℕ

def ScriptLimits.default : ScriptLimits where
  maxExecutionTime := 30 * 10 ^ 9
  maxActionsPerRun := 50
  maxCallDepth := 5
  maxDelayMs := 60000
  rateLimitPerMinute := 60

structure RateLimitWindow where
  count : UInt32
  windowStart : Instant

structure ScriptRateLimiter where
  windows : HashMap String RateLimitWindow
  defaultLimit : ℕ

/-- The clock readings one check may take: for a new window, for the age of the window
and for its restart. -/
structure WindowReadings where
  inserted : Instant
  read : Instant
  restarted : Instant

namespace ScriptRateLimiter

def new (defaultLimit : ℕ) : ScriptRateLimiter := ⟨∅, defaultLimit⟩

/-- Whether a script may run now. Every check is counted, also a refused one; the counter
wraps and the limit is cut to 32 bits. -/
def check (limiter : ScriptRateLimiter) (scriptId : String) (clock : WindowReadings) :
    Bool × ScriptRateLimiter :=
  let window := (limiter.windows.lookup scriptId).getD ⟨0, clock.inserted⟩
  let window : RateLimitWindow :=
    if (clock.read - window.windowStart).toNat ≥ 60 * 10 ^ 9 then ⟨0, clock.restarted⟩ else window
  (window.count < UInt32.ofNat limiter.defaultLimit,
    { limiter with
      windows := limiter.windows.insert scriptId { window with count := window.count + 1 } })

end ScriptRateLimiter

inductive LimitError where
  | timeExceeded | actionLimitExceeded | callDepthExceeded | rateLimitExceeded | delayTooLong
  deriving DecidableEq

structure ExecutionContext where
  startTime : Instant
  callDepth : ℕ
  actionsExecuted : ℕ
  limits : ScriptLimits

namespace ExecutionContext

def new (limits : ScriptLimits) (now : Instant) : ExecutionContext := ⟨now, 0, 0, limits⟩

def isTimeExceeded (ctx : ExecutionContext) (now : Instant) : Bool :=
  decide ((now - ctx.startTime).toNat > ctx.limits.maxExecutionTime)

def isActionLimitExceeded (ctx : ExecutionContext) : Bool :=
  decide (ctx.actionsExecuted ≥ ctx.limits.maxActionsPerRun)

/-- Count an action, or refuse it. The time is checked before the number of actions. -/
def recordAction (ctx : ExecutionContext) (now : Instant) :
    Except LimitError Unit × ExecutionContext :=
  if ctx.isTimeExceeded now then (.error .timeExceeded, ctx)
  else if ctx.isActionLimitExceeded then (.error .actionLimitExceeded, ctx)
  else (.ok (), { ctx with actionsExecuted := ctx.actionsExecuted + 1 })

theorem recordAction_late {ctx : ExecutionContext} {now : Instant}
    (h : ctx.isTimeExceeded now = true) :
    ctx.recordAction now = (.error .timeExceeded, ctx) := by rw [recordAction, if_pos h]

theorem recordAction_inTime {ctx : ExecutionContext} {now : Instant}
    (h : ctx.isTimeExceeded now = false) :
    (ctx.actionsExecuted < ctx.limits.maxActionsPerRun ∧
        ctx.recordAction now =
          (.ok (), { ctx with actionsExecuted := ctx.actionsExecuted + 1 })) ∨
      ctx.recordAction now = (.error .actionLimitExceeded, ctx) := by
  rw [recordAction, if_neg (ne_true_of_eq_false h)]
  split_ifs with hlimit
  · exact Or.inr rfl
  · have hbelow : ctx.actionsExecuted < ctx.limits.maxActionsPerRun := by
      simpa [isActionLimitExceeded] using hlimit
    exact Or.inl ⟨hbelow, rfl⟩

/-- An action is counted below the limit, or refused for its number or for the time. -/
theorem recordAction_cases (ctx : ExecutionContext) (now : Instant) :
    (ctx.actionsExecuted < ctx.limits.maxActionsPerRun ∧
        ctx.recordAction now =
          (.ok (), { ctx with actionsExecuted := ctx.actionsExecuted + 1 })) ∨
      ctx.recordAction now = (.error .actionLimitExceeded, ctx) ∨
      ctx.recordAction now = (.error .timeExceeded, ctx) := by
  cases htime : ctx.isTimeExceeded now with
  | true => exact Or.inr (Or.inr (recordAction_late htime))
  | false => exact (recordAction_inTime htime).imp_right Or.inl

end ExecutionContext

end EdgeAgent.Scripting
