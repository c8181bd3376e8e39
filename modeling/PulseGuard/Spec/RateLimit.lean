import Mathlib.Algebra.Order.Field.Rat
import Mathlib.Tactic.Linarith
import Mathlib.Tactic.Ring
import PulseGuard.ForStd.FixedWindow
import PulseGuard.Native.RateLimit

/-!
# What the rate limit guarantees

Each client is counted apart (`dispatchAll_client`). As its windows start when it likes, the
limit for a minute is one for a window only: in any period of `k` minutes at most `k + 1`
times as many requests of a client pass (`passed_le`), and so many can
(`passed_twice`). `Retry-After` names a time too early by less than a second
(`retryAfter_bounds`).
-/

namespace PulseGuard

namespace RateLimitMiddleware

variable {settings : RateLimitSettings} {s s' : RateLimitMiddleware} {request : RateRequest}
  {key : String}

/-! ## One request -/

theorem dispatch_disabled (h : settings.rateLimitEnabled = false) :
    dispatch settings s request = (none, s) := by
  simp [dispatch, h]

theorem windowSeconds_dispatch : (dispatch settings s request).2.windowSeconds = s.windowSeconds := by
  unfold dispatch
  split <;> rfl

/-- A request counts for its client. -/
theorem counts_dispatch (h : settings.rateLimitEnabled = true) :
    (dispatch settings s request).2.counts =
      Function.update s.counts (clientKey request) (s.counted request) := by
  simp only [dispatch, h, if_true]

/-- And for no other. -/
theorem counts_dispatch_of_ne (h : clientKey request ≠ key) :
    (dispatch settings s request).2.counts key = s.counts key := by
  cases henabled : settings.rateLimitEnabled with
  | true => rw [counts_dispatch henabled, Function.update_of_ne h.symm]
  | false => rw [dispatch_disabled henabled]

/-- A request is refused when its client's count is over the limit. -/
theorem dispatch_eq_none_iff (h : settings.rateLimitEnabled = true) :
    (dispatch settings s request).1 = none ↔
      ((s.counted request).count : Int) ≤ settings.rateLimitRequestsPerMinute := by
  simp only [dispatch, h, if_true]
  split
  · next hover => simpa using hover
  · next hover => simpa using hover

/-- A request in the current window. -/
theorem counted_of_lt
    (h : request.now - (s.counts (clientKey request)).windowStart < s.windowSeconds) :
    s.counted request =
      ⟨(s.counts (clientKey request)).count + 1, (s.counts (clientKey request)).windowStart⟩ := by
  simp [counted, not_le.mpr h]

/-- A request that starts a window. -/
theorem counted_of_le
    (h : (s.windowSeconds : Rat) ≤ request.now - (s.counts (clientKey request)).windowStart) :
    s.counted request = ⟨1, request.now⟩ := by
  simp [counted, h]

/-- What two states with the same entry for a client make of its request. -/
theorem dispatch_congr (settings : RateLimitSettings) (hwindow : s.windowSeconds = s'.windowSeconds)
    (hentry : s.counts (clientKey request) = s'.counts (clientKey request)) :
    (dispatch settings s request).1 = (dispatch settings s' request).1 ∧
      (dispatch settings s request).2.counts (clientKey request) =
        (dispatch settings s' request).2.counts (clientKey request) := by
  have hcounted : s.counted request = s'.counted request := by
    simp only [counted, hwindow, hentry]
  cases henabled : settings.rateLimitEnabled with
  | false => simp [dispatch_disabled henabled, hentry]
  | true =>
    refine ⟨?_, ?_⟩
    · simp only [dispatch, henabled, if_true, hcounted, refusal, hwindow]
    · rw [counts_dispatch henabled, counts_dispatch henabled, hcounted]
      simp

/-! ## Clients are counted apart -/

theorem dispatchAll_congr {requests : List RateRequest} (hwindow : s.windowSeconds = s'.windowSeconds)
    (hentry : s.counts key = s'.counts key) :
    (dispatchAll settings s requests).filter (fun r => clientKey r.1 == key) =
      dispatchAll settings s' (requests.filter (clientKey · == key)) := by
  induction requests generalizing s s' with
  | nil => rfl
  | cons request rest ih =>
    by_cases hkey : clientKey request = key
    · subst hkey
      obtain ⟨hresponse, hcounts⟩ := dispatch_congr settings hwindow hentry
      have hwindows : (dispatch settings s request).2.windowSeconds =
          (dispatch settings s' request).2.windowSeconds := by
        rw [windowSeconds_dispatch, windowSeconds_dispatch, hwindow]
      have hrest := ih hwindows hcounts
      simp [dispatchAll, hresponse, hrest]
    · have hwindows : (dispatch settings s request).2.windowSeconds = s'.windowSeconds := by
        rw [windowSeconds_dispatch, hwindow]
      have hrest := ih hwindows (by rw [counts_dispatch_of_ne hkey, hentry])
      simp [dispatchAll, hkey, hrest]

/-- **Clients do not interfere.** The responses to a client are those it would get if no other
    client sent anything. -/
theorem dispatchAll_client (settings : RateLimitSettings) (s : RateLimitMiddleware)
    (requests : List RateRequest) (key : String) :
    (dispatchAll settings s requests).filter (fun r => clientKey r.1 == key) =
      dispatchAll settings s (requests.filter (clientKey · == key)) :=
  dispatchAll_congr rfl rfl

/-! ## How many requests pass -/

/-- When the requests of a client pass. -/
def passed (settings : RateLimitSettings) (s : RateLimitMiddleware) (requests : List RateRequest)
    (key : String) : List Rat :=
  ((dispatchAll settings s requests).filter fun r => clientKey r.1 == key && r.2.isNone).map
    (·.1.now)

/-- An entry as the window of a counter. -/
def window (entry : RateCount) : FixedWindow.Window Rat := ⟨entry.count, entry.windowStart⟩

theorem window_counted : window (s.counted request) =
    FixedWindow.hit (s.windowSeconds : Rat) (window (s.counts (clientKey request))) request.now := by
  by_cases h : (s.windowSeconds : Rat) ≤ request.now - (s.counts (clientKey request)).windowStart
  · rw [FixedWindow.hit_of_le h, counted_of_le h]
    rfl
  · rw [FixedWindow.hit_of_lt (not_le.mp h), counted_of_lt (not_le.mp h)]
    rfl

/-- A count is positive, so that a negative limit is as good as none. -/
theorem counted_le_iff {limit : Int} : ((s.counted request).count : Int) ≤ limit ↔
    (s.counted request).count ≤ limit.toNat := by
  have hpos : 1 ≤ (s.counted request).count := by
    simp [counted]
  omega

/-- What passes of a client is what a fixed-window counter lets through. -/
theorem passed_eq_admitted (henabled : settings.rateLimitEnabled = true)
    (requests : List RateRequest) :
    passed settings s requests key =
      FixedWindow.admitted (s.windowSeconds : Rat) settings.rateLimitRequestsPerMinute.toNat
        (window (s.counts key)) ((requests.filter (clientKey · == key)).map (·.now)) := by
  -- By induction on the requests. One of another client leaves the window of this one.
  induction requests generalizing s with
  | nil => rfl
  | cons request rest ih =>
    have hrest := ih (s := (dispatch settings s request).2)
    rw [windowSeconds_dispatch] at hrest
    unfold passed at hrest ⊢
    by_cases hkey : clientKey request = key
    · subst hkey
      rw [counts_dispatch henabled, Function.update_self, window_counted] at hrest
      have hcount : (FixedWindow.hit (s.windowSeconds : Rat) (window (s.counts (clientKey request)))
          request.now).count = (s.counted request).count := by
        rw [← window_counted]
        rfl
      -- A request goes on when its count is within the limit.
      have hpasses : (dispatch settings s request).1.isNone = true ↔
          (s.counted request).count ≤ settings.rateLimitRequestsPerMinute.toNat := by
        rw [Option.isNone_iff_eq_none, dispatch_eq_none_iff henabled, counted_le_iff]
      simp only [dispatchAll, List.filter_cons, beq_self_eq_true, Bool.true_and, if_true,
        List.map_cons, FixedWindow.admitted, hcount]
      by_cases hfits : (s.counted request).count ≤ settings.rateLimitRequestsPerMinute.toNat
      · rw [if_pos (hpasses.mpr hfits), if_pos hfits, List.map_cons, hrest]
      · rw [if_neg (fun h => hfits (hpasses.mp h)), if_neg hfits, hrest]
    · rw [counts_dispatch_of_ne hkey] at hrest
      simpa [dispatchAll, hkey] using hrest

/-- **How many requests pass.** In any period of `k` minutes, at most `k + 1` times the limit of
    one minute pass for a client, whatever the other clients do. -/
theorem passed_le (henabled : settings.rateLimitEnabled = true) {requests : List RateRequest}
    (hclock : requests.Pairwise (·.now ≤ ·.now)) (key : String) {a c : Rat} {k : Nat}
    (hc : c ≤ a + k * 60) :
    (passed settings .init requests key).countP (fun t => a ≤ t ∧ t ≤ c) ≤
      (k + 1) * settings.rateLimitRequestsPerMinute.toNat := by
  have hwidth : (0 : Rat) < ((60 : Int) : Rat) := by norm_num
  have hperiod : c ≤ a + k • ((60 : Int) : Rat) := by
    rw [nsmul_eq_mul]
    exact_mod_cast hc
  rw [passed_eq_admitted henabled]
  refine FixedWindow.countP_admitted_le hwidth ?_ hperiod
  rw [List.pairwise_map]
  exact hclock.filter _

theorem passed_le_example :
    (passed ⟨true, 1⟩ .init [⟨some "10.0.0.1", 59⟩, ⟨some "10.0.0.2", 60⟩, ⟨some "10.0.0.1", 61⟩]
      "ip:10.0.0.1").countP (fun t => 59 ≤ t ∧ t ≤ 119) ≤ (1 + 1) * (1 : Int).toNat :=
  passed_le rfl (by norm_num) "ip:10.0.0.1" (by norm_num)

/-- **The bound is attained.** A client can have twice the limit pass within any fraction of a
    second: at the end of one window and at the start of the next. -/
theorem passed_twice (limit : Nat) {ε : Rat} (hε : 0 < ε) : ∃ requests : List RateRequest,
    requests.Pairwise (·.now ≤ ·.now) ∧ (∀ r ∈ requests, 60 - ε ≤ r.now ∧ r.now ≤ 60) ∧
      (passed ⟨true, limit⟩ .init requests "ip:unknown").length = 2 * limit := by
  let requests : List RateRequest :=
    List.replicate limit ⟨none, 60 - ε⟩ ++ List.replicate limit ⟨none, 60⟩
  have hnow : (60 - ε : Rat) ≤ 60 := by linarith
  refine ⟨requests, ?_, ?_, ?_⟩
  · rw [List.pairwise_append]
    refine ⟨List.pairwise_replicate.mpr (.inr le_rfl), List.pairwise_replicate.mpr (.inr le_rfl), ?_⟩
    intro r hr r' hr'
    rw [List.eq_of_mem_replicate hr, List.eq_of_mem_replicate hr']
    exact hnow
  · intro r hr
    cases List.mem_append.mp hr with
    | inl hearly =>
      rw [List.eq_of_mem_replicate hearly]
      exact ⟨le_rfl, hnow⟩
    | inr hlate =>
      rw [List.eq_of_mem_replicate hlate]
      exact ⟨hnow, le_rfl⟩
  · have htimes : (requests.filter (clientKey · == "ip:unknown")).map (·.now) =
        List.replicate limit (60 - ε) ++ List.replicate limit 60 := by
      have hall : ∀ r ∈ requests, (clientKey r == "ip:unknown") = true := by
        intro r hr
        cases List.mem_append.mp hr with
        | inl hearly =>
          rw [List.eq_of_mem_replicate hearly]
          rfl
        | inr hlate =>
          rw [List.eq_of_mem_replicate hlate]
          rfl
      rw [List.filter_eq_self.mpr hall, List.map_append, List.map_replicate, List.map_replicate]
    -- the default entry is a window that starts at 0, and no request has counted in it
    have hopen : (60 - ε : Rat) - (window (init.counts "ip:unknown")).start < ((60 : Int) : Rat) := by
      show (60 - ε : Rat) - 0 < _
      push_cast
      linarith
    rw [passed_eq_admitted rfl, htimes]
    show (FixedWindow.admitted ((60 : Int) : Rat) limit _ _).length = _
    rw [FixedWindow.admitted_replicate hopen (by simp [window, init]),
      FixedWindow.admitted_replicate_of_le (by simp [window, init]) (by norm_num) (Nat.le_refl limit)]
    simp [Nat.two_mul]

theorem passed_twice_example : ∃ requests : List RateRequest,
    requests.Pairwise (·.now ≤ ·.now) ∧
      (∀ r ∈ requests, 60 - (1 / 1000 : Rat) ≤ r.now ∧ r.now ≤ 60) ∧
      (passed ⟨true, (120 : Nat)⟩ .init requests "ip:unknown").length = 2 * 120 :=
  passed_twice 120 (by norm_num)

/-! ## When to come back -/

/-- The state after some requests. -/
def after (settings : RateLimitSettings) (s : RateLimitMiddleware) :
    List RateRequest → RateLimitMiddleware
  | [] => s
  | request :: rest => after settings (dispatch settings s request).2 rest

theorem windowSeconds_after (requests : List RateRequest) :
    (after settings s requests).windowSeconds = s.windowSeconds := by
  induction requests generalizing s with
  | nil => rfl
  | cons request rest ih =>
    rw [after, ih, windowSeconds_dispatch]

theorem counts_after {requests : List RateRequest} (h : ∀ r ∈ requests, clientKey r ≠ key) :
    (after settings s requests).counts key = s.counts key := by
  induction requests generalizing s with
  | nil => rfl
  | cons request rest ih =>
    obtain ⟨hfirst, hrest⟩ := List.forall_mem_cons.mp h
    rw [after, ih hrest, counts_dispatch_of_ne hfirst]

/-- A refusal names a whole number of seconds of what is left of its window, or one second. -/
theorem retryAfter_eq {refusal : RateRefusal} (hrefused : (dispatch settings s request).1 = some refusal) :
    refusal.retryAfter = max 1 (truncate (s.windowSeconds -
      (request.now - (s.counted request).windowStart))) ∧
      ((s.counted request).count : Int) > settings.rateLimitRequestsPerMinute ∧
      settings.rateLimitEnabled = true := by
  cases henabled : settings.rateLimitEnabled with
  | false =>
    rw [dispatch_disabled henabled] at hrefused
    cases hrefused
  | true =>
    simp only [dispatch, henabled, if_true] at hrefused
    split at hrefused
    · next hover =>
      cases hrefused
      exact ⟨rfl, hover, rfl⟩
    · cases hrefused

theorem truncate_lt (x : Rat) : x < ((max 1 (truncate x) : Int) : Rat) + 1 := by
  have hmax : (truncate x : Int) ≤ max 1 (truncate x) := le_max_right ..
  have hone : (1 : Int) ≤ max 1 (truncate x) := le_max_left ..
  rw [← Rat.intCast_le_intCast] at hmax hone
  by_cases hx : 0 ≤ x
  · have hfloor : x < (x.floor : Rat) + 1 := by
      have hnext := Rat.lt_floor_add_one x
      push_cast at hnext
      exact hnext
    rw [truncate, if_pos hx] at hmax ⊢
    linarith
  · push_cast at hone ⊢
    linarith

theorem truncate_le {x : Rat} (h : 1 < truncate x) : (truncate x : Rat) ≤ x := by
  unfold truncate at h ⊢
  split
  · exact Rat.floor_le x
  · next hx =>
    -- below zero the value is not positive
    rw [if_neg hx] at h
    have hceil : x.ceil ≤ 0 := Rat.ceil_le_iff.mpr (by simpa using le_of_lt (not_le.mp hx))
    omega

/-- **When to come back.** A client that sends nothing more before `Retry-After` has passed is
    refused again, unless that is one second; a second later it gets through. -/
theorem retryAfter_bounds {refusal : RateRefusal} {others : List RateRequest} {next : RateRequest}
    (hlimit : 0 < settings.rateLimitRequestsPerMinute)
    (hrefused : (dispatch settings s request).1 = some refusal)
    (hothers : ∀ r ∈ others, clientKey r ≠ clientKey request)
    (hnext : clientKey next = clientKey request) :
    let later := after settings (dispatch settings s request).2 others
    (next.now < request.now + refusal.retryAfter →
      refusal.retryAfter = 1 ∨ (dispatch settings later next).1.isSome = true) ∧
    (request.now + refusal.retryAfter + 1 ≤ next.now → (dispatch settings later next).1 = none) := by
  intro later
  obtain ⟨hretry, hover, henabled⟩ := retryAfter_eq hrefused
  have hwindow : later.windowSeconds = s.windowSeconds := by
    rw [windowSeconds_after, windowSeconds_dispatch]
  have hentry : later.counts (clientKey next) = s.counted request := by
    rw [hnext, counts_after hothers, counts_dispatch henabled, Function.update_self]
  constructor
  · intro hearly
    by_cases hone : refusal.retryAfter = 1
    · exact .inl hone
    · right
      -- what is left of the window is as long as it says
      have htruncate : refusal.retryAfter = truncate (s.windowSeconds -
          (request.now - (s.counted request).windowStart)) ∧ 1 < truncate (s.windowSeconds -
          (request.now - (s.counted request).windowStart)) := by
        omega
      have hleft := truncate_le htruncate.2
      rw [← htruncate.1] at hleft
      have hopen : next.now - (later.counts (clientKey next)).windowStart < later.windowSeconds := by
        rw [hentry, hwindow]
        linarith
      rw [Option.isSome_iff_ne_none, ne_eq, dispatch_eq_none_iff henabled, counted_of_lt hopen, hentry]
      push_cast
      omega
  · intro hlate
    have hpast := truncate_lt (s.windowSeconds - (request.now - (s.counted request).windowStart))
    rw [← hretry] at hpast
    have hreset : (later.windowSeconds : Rat) ≤
        next.now - (later.counts (clientKey next)).windowStart := by
      rw [hentry, hwindow]
      linarith
    rw [dispatch_eq_none_iff henabled, counted_of_le hreset]
    push_cast
    omega

/-- A client that has used up its limit half a minute ago. -/
def usedUp : RateLimitMiddleware where
  windowSeconds := 60
  counts := fun _ => ⟨1, 0⟩

theorem retryAfter_bounds_usedUp :
    let later := after ⟨true, 1⟩ (dispatch ⟨true, 1⟩ usedUp ⟨none, 59 / 2⟩).2 []
    ((40 : Rat) < 59 / 2 + (30 : Int) →
      (30 : Int) = 1 ∨ (dispatch ⟨true, 1⟩ later ⟨none, 40⟩).1.isSome = true) ∧
    ((59 / 2 : Rat) + (30 : Int) + 1 ≤ 40 → (dispatch ⟨true, 1⟩ later ⟨none, 40⟩).1 = none) := by
  have hopen : (59 / 2 : Rat) - 0 < ((60 : Int) : Rat) := by norm_num
  have htruncate : truncate (((60 : Int) : Rat) - (59 / 2 - 0)) = 30 := by decide +kernel
  have hrefused : (dispatch ⟨true, 1⟩ usedUp ⟨none, 59 / 2⟩).1 =
      some ⟨429, "Rate limit exceeded. Please slow down.", 30⟩ := by
    have hcounted : usedUp.counted ⟨none, 59 / 2⟩ = ⟨2, 0⟩ := counted_of_lt hopen
    have hrefusal : usedUp.refusal ⟨none, 59 / 2⟩ ⟨2, 0⟩ =
        ⟨429, "Rate limit exceeded. Please slow down.", max 1 30⟩ := by
      rw [← htruncate]
      rfl
    simp only [dispatch, if_true, hcounted, hrefusal]
    rfl
  have hothers : ∀ r ∈ ([] : List RateRequest), clientKey r ≠ clientKey ⟨none, 59 / 2⟩ := by simp
  have hsame : clientKey ⟨none, 40⟩ = clientKey ⟨none, 59 / 2⟩ := rfl
  exact retryAfter_bounds (by decide) hrefused hothers hsame

end RateLimitMiddleware

end PulseGuard
