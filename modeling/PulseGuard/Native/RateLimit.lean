import Mathlib.Algebra.Order.Ring.Unbundled.Rat
import Mathlib.Logic.Function.Basic

/-!
# Rate limiting

`RateLimitMiddleware` (`app/interfaces/api/middleware/rate_limit.py`): a count of requests for
each client address, which starts over a minute after it began. `now` is what
`time.monotonic()` gives, in seconds; nothing in `dispatch` lets another request in between.
-/

namespace PulseGuard

/-- The fields of `Settings` that the middleware reads. -/
structure RateLimitSettings where
  rateLimitEnabled : Bool := false
  rateLimitRequestsPerMinute : Int := 120

/-- `_counts[key]`: the count and the start of its window. -/
structure RateCount where
  count : Nat
  windowStart : Rat

/-- `RateLimitMiddleware`. An address that was never seen has the default count. -/
structure RateLimitMiddleware where
  windowSeconds : Int
  counts : String → RateCount

/-- The `JSONResponse` of a refused request. -/
structure RateRefusal where
  statusCode : Nat
  detail : String
  retryAfter : Int

/-- A request: the host of its client, if the client is known, and when it comes. -/
structure RateRequest where
  host : Option String
  now : Rat

namespace RateLimitMiddleware

/-- `__init__` -/
def init : RateLimitMiddleware where
  windowSeconds := 60
  counts := fun _ => ⟨0, 0⟩

/-- `_client_key` -/
def clientKey (request : RateRequest) : String := "ip:" ++ request.host.getD "unknown"

/-- `int(x)` -/
def truncate (x : Rat) : Int := if 0 ≤ x then x.floor else x.ceil

/-- The count of a client with one more request. -/
def counted (s : RateLimitMiddleware) (request : RateRequest) : RateCount :=
  let entry := s.counts (clientKey request)
  let entry := if request.now - entry.windowStart ≥ s.windowSeconds then ⟨0, request.now⟩ else entry
  { entry with count := entry.count + 1 }

/-- The response to a request that is over the limit. -/
def refusal (s : RateLimitMiddleware) (request : RateRequest) (entry : RateCount) : RateRefusal where
  statusCode := 429
  detail := "Rate limit exceeded. Please slow down."
  retryAfter := max 1 (truncate (s.windowSeconds - (request.now - entry.windowStart)))

/-- `dispatch`: the response, unless the request goes on to `call_next`. -/
def dispatch (settings : RateLimitSettings) (s : RateLimitMiddleware) (request : RateRequest) :
    Option RateRefusal × RateLimitMiddleware :=
  if settings.rateLimitEnabled then
    let entry := s.counted request
    (if (entry.count : Int) > settings.rateLimitRequestsPerMinute then some (s.refusal request entry)
      else none,
      { s with counts := Function.update s.counts (clientKey request) entry })
  else (none, s)

/-- The responses to some requests, one after another. -/
def dispatchAll (settings : RateLimitSettings) (s : RateLimitMiddleware) :
    List RateRequest → List (RateRequest × Option RateRefusal)
  | [] => []
  | request :: rest =>
    (request, (dispatch settings s request).1) ::
      dispatchAll settings (dispatch settings s request).2 rest

end RateLimitMiddleware

end PulseGuard
