import AzothBalancer.Machine

/-!
# Rate limiters

The limiter type of the `ratelimit_meter` crate is a parameter (`Meter`): a state, the constructor
and the decision `check_n`, which answers whether `n` cells were granted and the state afterwards.
The one law assumed of it is that a refused decision changes nothing.

A `RateLimiter` is the object behind one `Arc<Mutex<DirectRateLimiter>>`. Besides the crate's state
it carries two records of its past that no decision reads: the arguments of the
`create_rate_limiter` call that made it, and the number of cells it has granted. The field `history`
ties the records to the state: the state is one that decisions granting that many cells reach from
the crate's constructor applied to those arguments.
-/

namespace AzothBalancer

/-- The interface of `ratelimit_meter::DirectRateLimiter`. -/
structure Meter where
  /-- The state of a limiter. -/
  Limiter : Type
  /-- `DirectRateLimiter::new(capacity, period)`, the period in nanoseconds. -/
  new : (capacity periodNanos : ℕ) → Limiter
  /-- `check_n`: granted or not, and the state afterwards. -/
  checkN : Limiter → Instant → ℕ → Bool × Limiter
  /-- A refusal leaves the limiter unchanged. -/
  checkN_refused : ∀ l now n, (checkN l now n).1 = false → (checkN l now n).2 = l

/-- `M.Reaches l₀ granted l`: decisions that grant `granted` cells in total take `l₀` to `l`. -/
inductive Meter.Reaches (M : Meter) (l₀ : M.Limiter) : ℕ → M.Limiter → Prop where
  | created : M.Reaches l₀ 0 l₀
  | decided {granted : ℕ} {l : M.Limiter} (now : Instant) (n : ℕ) : M.Reaches l₀ granted l →
      M.Reaches l₀ (if (M.checkN l now n).1 then granted + n else granted) (M.checkN l now n).2

/-- The period of a limiter, in nanoseconds.
Source: `config_reloader.rs` `create_rate_limiter`, `period_nanos` -/
def periodNanos (burstSize rateLimitPerSec : ℕ) : ℕ :=
  wrappingMul64 nanosPerSec burstSize / rateLimitPerSec

/-- A limiter object.
Source: `config_reloader.rs` `create_rate_limiter` -/
structure RateLimiter (M : Meter) where
  /-- The `burst_size` it was created with. -/
  burstSize : ℕ
  /-- The `rate_limit_per_sec` it was created with. -/
  rateLimitPerSec : ℕ
  /-- The state of the crate's limiter. -/
  state : M.Limiter
  /-- The cells granted since its creation. -/
  granted : ℕ
  /-- The records above are those of the state. -/
  history : M.Reaches (M.new burstSize (periodNanos burstSize rateLimitPerSec)) granted state

/-- A reference to a limiter object. -/
abbrev LimiterRef := ℕ

variable {M : Meter}

/-- The arguments of the limiter's creation, as `(burst, rate)`. -/
def RateLimiter.params (l : RateLimiter M) : ℕ × ℕ := (l.burstSize, l.rateLimitPerSec)

/-- Creates a limiter; `none` is the panic on a zero burst (`expect`) or a zero rate (division).
Source: `config_reloader.rs` `create_rate_limiter` -/
def createRateLimiter (M : Meter) (burstSize rateLimitPerSec : ℕ) : Option (RateLimiter M) :=
  if burstSize = 0 then none
  else if rateLimitPerSec = 0 then none
  else
    some ⟨burstSize, rateLimitPerSec, M.new burstSize (periodNanos burstSize rateLimitPerSec), 0,
      .created⟩

/-- A created limiter records the arguments of its creation. -/
theorem params_of_createRateLimiter {burst rate : ℕ} {l : RateLimiter M}
    (h : createRateLimiter M burst rate = some l) : l.params = (burst, rate) := by
  unfold createRateLimiter at h
  split at h
  · cases h
  · split at h
    · cases h
    · cases h
      rfl

/-- With a burst and a rate, the creation succeeds. -/
theorem createRateLimiter_isSome {burst rate : ℕ} (hb : 0 < burst) (hr : 0 < rate) :
    ∃ l, createRateLimiter M burst rate = some l := by
  unfold createRateLimiter
  rw [if_neg hb.ne', if_neg hr.ne']
  exact ⟨_, rfl⟩

namespace RateLimiter

/-- `limiter.lock().check_n(n)`: the decision and the object afterwards. -/
def checkN (l : RateLimiter M) (now : Instant) (n : ℕ) : Bool × RateLimiter M :=
  ((M.checkN l.state now n).1,
    { l with
      state := (M.checkN l.state now n).2
      granted := if (M.checkN l.state now n).1 then l.granted + n else l.granted
      history := .decided now n l.history })

/-- A decision keeps the creation record. -/
@[simp] theorem params_checkN (l : RateLimiter M) (now : Instant) (n : ℕ) :
    (l.checkN now n).2.params = l.params := rfl

/-- A refusal changes nothing. -/
theorem checkN_of_refused {l : RateLimiter M} {now : Instant} {n : ℕ}
    (h : (l.checkN now n).1 = false) : (l.checkN now n).2 = l := by
  have hr : (M.checkN l.state now n).1 = false := h
  have hs := M.checkN_refused l.state now n hr
  cases l
  simp_all [checkN]

/-- A grant charges exactly `n` cells. -/
theorem granted_of_checkN {l : RateLimiter M} {now : Instant} {n : ℕ}
    (h : (l.checkN now n).1 = true) : (l.checkN now n).2.granted = l.granted + n := by
  have hr : (M.checkN l.state now n).1 = true := h
  simp [checkN, hr]

end RateLimiter

end AzothBalancer
