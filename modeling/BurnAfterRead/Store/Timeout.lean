import BurnAfterRead.Failure
import BurnAfterRead.Time.Duration

/-!
# Waiting for a store

A caller waits for the answer to a store's command, but no longer than a limit.
-/

namespace BurnAfterRead

/-- How long a storage call is waited for where no limit is set. -/
def standardTimeout : Duration := .ofSeconds 10

/-- What a caller gets who waits no longer than `limit` for an answer that takes `delay?`, or that
never comes. -/
def answerWithin {α : Type} (limit : Duration) (delay? : Option Duration)
    (answer : Except Failure α) : Except Failure α :=
  match delay? with
  | none => .error .timeout
  | some delay => if limit.nanos < delay.nanos then .error .timeout else answer

end BurnAfterRead
