import BasicNext.Web.ServerState
import Mathlib.Data.List.AList
import Mathlib.Algebra.Order.Floor.Div
import Mathlib.GroupTheory.GroupAction.Ring
import Mathlib.Tactic.Linarith

/-!
# What the rate limiter lets through

Runs of `RateLimiter::allow`. A refill turns elapsed milliseconds into tokens and the tokens back into milliseconds,
rounding down both times; the second rounding gives time back unless the rate divides 1000 or is a multiple of it. Then
the requests of a key in a window are within the burst and what the window refills.
-/

namespace BasicNext.Web

/-- The options of the limiter among those of a server. -/
structure RateLimitOptions where
  burst : Nat
  refillPerSecond : Nat
  keyCapacity : Nat
deriving DecidableEq, Repr

def rateLimitMax : Nat := 10000

/-- The part of `ServerOptions::validate` for the limiter. -/
def RateLimitOptions.validate (options : RateLimitOptions) : Except String Unit :=
  if options.burst = 0 ∨ rateLimitMax < options.burst ∨ options.refillPerSecond = 0 ∨
      rateLimitMax < options.refillPerSecond ∨ options.keyCapacity = 0 ∨ rateLimitMax < options.keyCapacity then
    .error "server options are outside the configured bounds"
  else .ok ()

def RateLimiter.new (options : RateLimitOptions) : RateLimiter :=
  { burst := options.burst, refillPerSecond := options.refillPerSecond, maxKeys := options.keyCapacity, buckets := [] }

namespace RateLimits

structure Request where
  key : String
  now : Nat
deriving DecidableEq, Repr

def next (limiter : RateLimiter) (request : Request) : RateLimiter := (limiter.allow request.key request.now).1

def run (limiter : RateLimiter) (requests : List Request) : RateLimiter := requests.foldl next limiter

/-- How many requests of a key are let through. -/
def admitted (key : String) (limiter : RateLimiter) : List Request → Nat
  | [] => 0
  | request :: rest =>
    (if request.key = key ∧ (limiter.allow request.key request.now).2 = 0 then 1 else 0) +
      admitted key (next limiter request) rest

/-- No request makes the table forget the bucket of a key. -/
def NotEvicted (key : String) (limiter : RateLimiter) : List Request → Prop
  | [] => True
  | request :: rest =>
    ((limiter.buckets.lookup key).isSome → ((next limiter request).buckets.lookup key).isSome) ∧
      NotEvicted key (next limiter request) rest

/-- The clock does not go back. -/
def Ordered (requests : List Request) : Prop := requests.Pairwise fun one other => one.now ≤ other.now

/-- Within 36 million years of the start of the clock no count of milliseconds saturates. -/
def InRange (requests : List Request) : Prop := ∀ request ∈ requests, request.now < 2 ^ 60 * 1000000

/-- What the limiter promises of a run. -/
structure Bounded (options : RateLimitOptions) (requests : List Request) : Prop where
  /-- The requests of a key in a window of so many milliseconds. -/
  window : ∀ before inside after key start milliseconds, requests = before ++ inside ++ after →
    (∀ request ∈ inside, start ≤ request.now ∧ request.now ≤ start + milliseconds * 1000000) →
      NotEvicted key (run (.new options) before) inside → admitted key (run (.new options) before) inside ≤
          options.burst + milliseconds * options.refillPerSecond ⌈/⌉ 1000
  refused : ∀ before request after, requests = before ++ request :: after →
    ((run (.new options) before).allow request.key request.now).2 ≠ 0 →
      ∃ bucket, (run (.new options) before).buckets.lookup request.key = some bucket ∧
        ((run (.new options) before).refill bucket request.now).tokens = 0
  keys : ∀ before, before <+: requests → (run (.new options) before).buckets.length ≤ options.keyCapacity

variable {limiter : RateLimiter} {options : RateLimitOptions} {key : String} {bucket : Bucket} {now : Nat}
  {request : Request} {requests : List Request}

/-! ### One request -/

/-- What a new key leaves of the table. -/
def kept (limiter : RateLimiter) : List (String × Bucket) :=
  if limiter.buckets.length ≥ limiter.maxKeys then
    match limiter.victim with
    | some victim => limiter.buckets.filter (·.1 ≠ victim.1)
    | none => limiter.buckets
  else limiter.buckets

theorem allow_none (missing : limiter.buckets.lookup key = none) : limiter.allow key now =
    ({ limiter with buckets := (key, ⟨limiter.burst - 1, now⟩) :: kept limiter }, 0) := by
  simp only [RateLimiter.allow, missing]
  rfl

theorem allow_some (found : limiter.buckets.lookup key = some bucket) : limiter.allow key now =
    ({ limiter with buckets := (key, { limiter.refill bucket now with
        tokens := (limiter.refill bucket now).tokens - 1 }) :: limiter.buckets.filter (·.1 ≠ key) },
      if (limiter.refill bucket now).tokens = 0 then 1 else 0) := by
  simp only [RateLimiter.allow, found]
  generalize limiter.refill bucket now = refilled
  obtain ⟨tokens, updated⟩ := refilled
  by_cases empty : tokens = 0
  · subst empty
    rfl
  · rw [if_pos (Nat.pos_of_ne_zero empty), if_neg empty]

theorem next_fields (limiter : RateLimiter) (request : Request) : (next limiter request).burst = limiter.burst ∧
    (next limiter request).refillPerSecond = limiter.refillPerSecond ∧ (next limiter request).maxKeys = limiter.maxKeys := by
  unfold next
  cases found : limiter.buckets.lookup request.key with
  | none =>
    rw [allow_none found]
    exact ⟨rfl, rfl, rfl⟩
  | some bucket =>
    rw [allow_some found]
    exact ⟨rfl, rfl, rfl⟩

theorem run_fields (requests : List Request) (limiter : RateLimiter) : (run limiter requests).burst = limiter.burst ∧
    (run limiter requests).refillPerSecond = limiter.refillPerSecond ∧ (run limiter requests).maxKeys = limiter.maxKeys := by
  induction requests generalizing limiter with
  | nil => exact ⟨rfl, rfl, rfl⟩
  | cons request rest ih =>
    obtain ⟨burst, rate, keys⟩ := ih (next limiter request)
    obtain ⟨burst', rate', keys'⟩ := next_fields limiter request
    exact ⟨burst.trans burst', rate.trans rate', keys.trans keys'⟩

theorem lookup_filter_ne {other : String} (different : key ≠ other) (buckets : List (String × Bucket)) :
    (buckets.filter (·.1 ≠ other)).lookup key = buckets.lookup key := by
  induction buckets with
  | nil => rfl
  | cons entry rest ih =>
    by_cases same : entry.1 = other
    · rw [List.filter_cons_of_neg (by simpa using same), ih, List.lookup_cons]
      rw [show (key == entry.1) = false by simpa [same] using different]
    · rw [List.filter_cons_of_pos (by simpa using same), List.lookup_cons, List.lookup_cons, ih]

theorem lookup_filter_self (buckets : List (String × Bucket)) : (buckets.filter (·.1 ≠ key)).lookup key = none := by
  rw [List.lookup_eq_none_iff]
  intro entry member
  have different := (List.mem_filter.1 member).2
  simp only [ne_eq, decide_not, Bool.not_eq_true', decide_eq_false_iff_not] at different
  simpa using fun same => different (Eq.symm same)

theorem lookup_kept (limiter : RateLimiter) (key : String) :
    (kept limiter).lookup key = limiter.buckets.lookup key ∨ (kept limiter).lookup key = none := by
  unfold kept
  split
  · split
    · next victim _ =>
      by_cases same : key = victim.1
      · rw [same]
        exact .inr (lookup_filter_self _)
      · exact .inl (lookup_filter_ne same _)
    · exact .inl rfl
  · exact .inl rfl

theorem lookup_next_other (different : request.key ≠ key) :
    (next limiter request).buckets.lookup key = limiter.buckets.lookup key ∨
      (next limiter request).buckets.lookup key = none := by
  have apart : (key == request.key) = false := by simpa using fun same => different (Eq.symm same)
  unfold next
  cases found : limiter.buckets.lookup request.key with
  | none =>
    rw [allow_none found, List.lookup_cons, apart]
    exact lookup_kept limiter key
  | some bucket =>
    rw [allow_some found, List.lookup_cons, apart]
    exact .inl (lookup_filter_ne (fun same => different same.symm) _)

theorem lookup_next_none (missing : limiter.buckets.lookup request.key = none) :
    (next limiter request).buckets.lookup request.key = some ⟨limiter.burst - 1, request.now⟩ := by
  rw [next, allow_none missing, List.lookup_cons_self]

theorem lookup_next_some (found : limiter.buckets.lookup request.key = some bucket) :
    (next limiter request).buckets.lookup request.key =
      some { limiter.refill bucket request.now with tokens := (limiter.refill bucket request.now).tokens - 1 } := by
  rw [next, allow_some found, List.lookup_cons_self]

/-! ### Refills -/

/-- The milliseconds that a token takes, at least one. -/
def grain (rate : Nat) : Nat := max 1 (1000 / rate)

/-- No rounding gives time back. -/
def Exact (rate : Nat) : Prop := rate ∣ 1000 ∨ 1000 ∣ rate

theorem grain_eq {rate time : Nat} (same : 1000 = rate * time) (some : 0 < rate) : grain rate = time := by
  have positive : 0 < time := by
    rcases Nat.eq_zero_or_pos time with rfl | positive
    · simp at same
    · exact positive
  rw [grain, same, Nat.mul_div_cancel_left _ some, Nat.max_eq_right positive]

theorem exact_credit {rate : Nat} (exactly : Exact rate) (some : 0 < rate) (elapsed : Nat) :
    elapsed * rate / 1000 * 1000 = elapsed * rate / 1000 * 1000 / rate * rate ∧
      elapsed < elapsed * rate / 1000 * 1000 / rate + grain rate := by
  rcases exactly with ⟨grain', same⟩ | ⟨perMs, rfl⟩
  · have positive : 0 < grain' := by
      rcases Nat.eq_zero_or_pos grain' with rfl | positive
      · simp at same
      · exact positive
    have refill : elapsed * rate / 1000 = elapsed / grain' := by
      rw [same, Nat.mul_comm elapsed, Nat.mul_div_mul_left _ _ some]
    have converted : elapsed * rate / 1000 * 1000 / rate = elapsed / grain' * grain' := by
      rw [refill, same, Nat.mul_left_comm, Nat.mul_div_cancel_left _ some]
    rw [converted, grain_eq same some, refill]
    refine ⟨?_, Nat.lt_div_mul_add positive⟩
    rw [Nat.mul_assoc, Nat.mul_comm grain', ← same]
  · have positive : 0 < perMs := by omega
    have refill : elapsed * (1000 * perMs) / 1000 = elapsed * perMs := by
      rw [Nat.mul_left_comm, Nat.mul_div_cancel_left _ (by omega)]
    have converted : elapsed * perMs * 1000 / (1000 * perMs) = elapsed := by
      rw [Nat.mul_assoc, Nat.mul_comm perMs, Nat.mul_div_cancel _ some]
    rw [refill, converted]
    refine ⟨by rw [Nat.mul_assoc, Nat.mul_comm perMs], ?_⟩
    have atLeast : 1 ≤ grain (1000 * perMs) := Nat.le_max_left 1 _
    omega

theorem converted_le (elapsed rate : Nat) : elapsed * rate / 1000 * 1000 / rate ≤ elapsed := by
  rcases Nat.eq_zero_or_pos rate with rfl | some
  · simp
  · have le : elapsed * rate / 1000 * 1000 ≤ elapsed * rate := Nat.div_mul_le_self _ _
    exact (Nat.div_le_div_right le).trans_eq (Nat.mul_div_cancel _ some)

theorem refill_updated_le (before : bucket.updated ≤ now) : (limiter.refill bucket now).updated ≤ now := by
  simp only [RateLimiter.refill]
  split
  · generalize elapsed : (now - bucket.updated) / 1000000 = elapsedMs
    have converted : min (elapsedMs * limiter.refillPerSecond / 1000) usizeMax * 1000 / limiter.refillPerSecond ≤ elapsedMs :=
      (Nat.div_le_div_right (Nat.mul_le_mul_right _ (Nat.min_le_left _ _))).trans (converted_le _ _)
    omega
  · exact before

theorem refill_tokens_le (limiter : RateLimiter) (bucket : Bucket) (now : Nat) :
    (limiter.refill bucket now).tokens ≤ limiter.burst := Nat.min_le_right _ _

theorem refill_exact (exactly : Exact limiter.refillPerSecond)
    (rate : 0 < limiter.refillPerSecond ∧ limiter.refillPerSecond ≤ rateLimitMax) (range : now < 2 ^ 60 * 1000000)
    (before : bucket.updated ≤ now) :
    ∃ converted, (limiter.refill bucket now).updated = bucket.updated + converted * 1000000 ∧
      (limiter.refill bucket now).tokens * 1000 ≤ bucket.tokens * 1000 + converted * limiter.refillPerSecond ∧
      now < (limiter.refill bucket now).updated + grain limiter.refillPerSecond * 1000000 := by
  generalize elapsed : (now - bucket.updated) / 1000000 = elapsedMs
  obtain ⟨credit, leftover⟩ := exact_credit exactly rate.1 elapsedMs
  have inside := converted_le elapsedMs limiter.refillPerSecond
  have product : elapsedMs * limiter.refillPerSecond ≤ elapsedMs * rateLimitMax := Nat.mul_le_mul_left _ rate.2
  have small : min (elapsedMs * limiter.refillPerSecond / 1000) usizeMax = elapsedMs * limiter.refillPerSecond / 1000 := by
    apply Nat.min_eq_left
    unfold rateLimitMax at product
    unfold usizeMax
    omega
  refine ⟨elapsedMs * limiter.refillPerSecond / 1000 * 1000 / limiter.refillPerSecond, ?_, ?_⟩
  all_goals simp only [RateLimiter.refill, elapsed, small]
  all_goals generalize elapsedMs * limiter.refillPerSecond / 1000 = refill at *
  · rw [Nat.min_eq_left (by unfold u64Max; omega)]
    split
    · rfl
    · next none =>
      obtain rfl : refill = 0 := by omega
      simp
  · refine ⟨?_, ?_⟩
    · rw [← credit, ← Nat.add_mul]
      exact Nat.mul_le_mul_right _ ((Nat.min_le_left _ _).trans (Nat.min_le_left _ _))
    · rw [Nat.min_eq_left (by unfold u64Max; omega)]
      split
      · omega
      · next none =>
        obtain rfl : refill = 0 := by omega
        rw [Nat.zero_mul, Nat.zero_div] at leftover
        omega

/-! ### The table -/

theorem length_filter_lt {buckets : List (String × Bucket)} {entry : String × Bucket} (member : entry ∈ buckets)
    (name : entry.1 = key) : (buckets.filter (·.1 ≠ key)).length < buckets.length := by
  rw [List.length_filter_lt_length_iff_exists]
  exact ⟨entry, member, by simpa using name⟩

theorem length_kept_lt (some : 0 < limiter.maxKeys) (within : limiter.buckets.length ≤ limiter.maxKeys) :
    (kept limiter).length < limiter.maxKeys := by
  unfold kept
  split
  · next full =>
    cases found : limiter.victim with
    | none =>
      have empty := Lib.maxBy_eq_none.1 found
      rw [empty] at full
      simp only [List.length_nil] at full
      omega
    | some victim => exact (length_filter_lt (Lib.mem_of_maxBy found) rfl).trans_le within
  · omega

theorem length_next (some : 0 < limiter.maxKeys) (within : limiter.buckets.length ≤ limiter.maxKeys) (request : Request) :
    (next limiter request).buckets.length ≤ limiter.maxKeys := by
  unfold next
  cases found : limiter.buckets.lookup request.key with
  | none =>
    rw [allow_none found]
    exact length_kept_lt some within
  | some bucket =>
    rw [allow_some found]
    obtain ⟨entry, member, name⟩ : ∃ entry ∈ limiter.buckets, entry.1 = request.key := by
      by_contra none
      rw [List.lookup_eq_none_iff.2 fun entry member => by simpa using fun same => none ⟨entry, member, Eq.symm same⟩] at found
      cases found
    exact (length_filter_lt member name).trans_le within

theorem length_run (some : 0 < limiter.maxKeys) (within : limiter.buckets.length ≤ limiter.maxKeys)
    (requests : List Request) : (run limiter requests).buckets.length ≤ limiter.maxKeys := by
  induction requests generalizing limiter with
  | nil => exact within
  | cons request rest ih =>
    have keys := (next_fields limiter request).2.2
    have later := @ih (next limiter request) (by rwa [keys]) (by rw [keys]; exact length_next some within request)
    rwa [keys] at later

/-- No bucket is ahead of the clock. -/
def Sane (limiter : RateLimiter) (now : Nat) : Prop :=
  ∀ key bucket, limiter.buckets.lookup key = some bucket → bucket.updated ≤ now

theorem Sane.next (sane : Sane limiter now) (later : now ≤ request.now) : Sane (next limiter request) request.now := by
  intro key bucket found
  by_cases same : request.key = key
  · subst same
    cases old : limiter.buckets.lookup request.key with
    | none =>
      rw [lookup_next_none old, Option.some.injEq] at found
      rw [← found]
    | some before =>
      rw [lookup_next_some old, Option.some.injEq] at found
      rw [← found]
      exact refill_updated_le ((sane _ _ old).trans later)
  · rcases @lookup_next_other limiter _ _ same with kept | gone
    · rw [kept] at found
      exact (sane _ _ found).trans later
    · rw [gone] at found
      cases found

theorem Sane.run (sane : Sane limiter now) (requests : List Request) (ordered : Ordered requests)
    (later : ∀ request ∈ requests, now ≤ request.now) {last : Nat} (lasts : ∀ request ∈ requests, request.now ≤ last)
    (atLeast : now ≤ last) : Sane (run limiter requests) last := by
  induction requests generalizing limiter now with
  | nil => exact fun key bucket found => (sane key bucket found).trans atLeast
  | cons request rest ih =>
    obtain ⟨earlier, ordered⟩ := List.pairwise_cons.1 ordered
    exact ih (sane.next (later request List.mem_cons_self)) ordered earlier
      (fun other member => lasts other (List.mem_cons_of_mem _ member)) (lasts request List.mem_cons_self)

/-! ### A window -/

theorem admitted_cons_other (different : request.key ≠ key) (rest : List Request) :
    admitted key limiter (request :: rest) = admitted key (next limiter request) rest := by
  rw [admitted, if_neg fun both => different both.1, Nat.zero_add]

theorem admitted_cons_self (rest : List Request) : admitted request.key limiter (request :: rest) =
    (if (limiter.allow request.key request.now).2 = 0 then 1 else 0) + admitted request.key (next limiter request) rest := by
  simp only [admitted, true_and]

theorem credit_step {spent before after base gained further : Nat} (credit : (spent + before) * 1000 ≤ base * 1000 + gained)
    (tokens : after * 1000 ≤ before * 1000 + further) : (spent + after) * 1000 ≤ base * 1000 + (gained + further) := by
  linarith

theorem admitted_from (exactly : Exact limiter.refillPerSecond)
    (rate : 0 < limiter.refillPerSecond ∧ limiter.refillPerSecond ≤ rateLimitMax) {origin converted spent base last : Nat}
    (found : limiter.buckets.lookup key = some bucket) (updated : bucket.updated = origin + converted * 1000000)
    (credit : (spent + bucket.tokens) * 1000 ≤ base * 1000 + converted * limiter.refillPerSecond)
    (ordered : Ordered requests) (range : InRange requests) (later : ∀ request ∈ requests, bucket.updated ≤ request.now)
    (lasts : ∀ request ∈ requests, request.now ≤ last) (atLeast : bucket.updated ≤ last)
    (kept : NotEvicted key limiter requests) :
    ∃ converted, origin + converted * 1000000 ≤ last ∧
      (spent + admitted key limiter requests) * 1000 ≤ base * 1000 + converted * limiter.refillPerSecond := by
  induction requests generalizing limiter bucket converted spent with
  | nil =>
    exact ⟨converted, updated ▸ atLeast, (Nat.mul_le_mul_right 1000 (Nat.add_le_add_left (Nat.zero_le _) spent)).trans credit⟩
  | cons request rest ih =>
    obtain ⟨earlier, ordered⟩ := List.pairwise_cons.1 ordered
    obtain ⟨present, kept⟩ := kept
    have same := (next_fields limiter request).2.1
    have here := later request List.mem_cons_self
    have rest' : ∀ {bucket' converted' spent'}, (next limiter request).buckets.lookup key = some bucket' →
        bucket'.updated = origin + converted' * 1000000 →
        (spent' + bucket'.tokens) * 1000 ≤ base * 1000 + converted' * limiter.refillPerSecond →
        bucket'.updated ≤ request.now → ∃ converted, origin + converted * 1000000 ≤ last ∧
          (spent' + admitted key (next limiter request) rest) * 1000 ≤ base * 1000 + converted * limiter.refillPerSecond := by
      intro bucket' converted' spent' found updated credit before
      have result := @ih (next limiter request) bucket' (by rwa [same]) (by rwa [same]) converted' spent' found updated
        (by rwa [same]) ordered (fun other member => range other (List.mem_cons_of_mem _ member))
        (fun other member => before.trans (earlier other member))
        (fun other member => lasts other (List.mem_cons_of_mem _ member))
        (before.trans (lasts request List.mem_cons_self)) kept
      rwa [same] at result
    by_cases own : request.key = key
    · subst own
      obtain ⟨more, refilled, tokens, -⟩ := refill_exact exactly rate (range request List.mem_cons_self) here
      have before := @refill_updated_le limiter _ _ here
      rw [admitted_cons_self, allow_some found, ← Nat.add_assoc]
      dsimp only
      have held := lookup_next_some found
      generalize limiter.refill bucket request.now = refill at refilled tokens before held ⊢
      have updated' : refill.updated = origin + (converted + more) * 1000000 := by omega
      have credited := credit_step credit tokens
      rw [← Nat.add_mul] at credited
      by_cases empty : refill.tokens = 0
      · rw [if_pos empty, if_neg (by omega), Nat.add_zero]
        refine rest' held updated' (le_trans ?_ credited) before
        rw [empty]
      · rw [if_neg empty, if_pos rfl]
        refine rest' held updated' (le_trans ?_ credited) before
        rw [Nat.add_assoc, Nat.add_sub_cancel' (Nat.pos_of_ne_zero empty)]
    · rw [admitted_cons_other own]
      have held : (next limiter request).buckets.lookup key = some bucket := by
        rcases @lookup_next_other limiter _ _ own with same | gone
        · rw [same, found]
        · rw [gone, found] at present
          exact absurd (present rfl) (by simp)
      exact rest' held updated credit here

/-- The requests of a key from `start` to `last`: within the burst and the refill of the time since its bucket had less than
the time of one token. -/
theorem admitted_window (exactly : Exact limiter.refillPerSecond)
    (rate : 0 < limiter.refillPerSecond ∧ limiter.refillPerSecond ≤ rateLimitMax) (burst : 0 < limiter.burst)
    {start last : Nat} (sane : Sane limiter now) (ordered : Ordered requests) (range : InRange requests)
    (later : ∀ request ∈ requests, now ≤ request.now)
    (within : ∀ request ∈ requests, start ≤ request.now ∧ request.now ≤ last)
    (kept : NotEvicted key limiter requests) : admitted key limiter requests = 0 ∨
      ∃ origin converted, origin + converted * 1000000 ≤ last ∧ start < origin + grain limiter.refillPerSecond * 1000000 ∧
        admitted key limiter requests * 1000 ≤ limiter.burst * 1000 + converted * limiter.refillPerSecond := by
  induction requests generalizing limiter now with
  | nil => exact .inl rfl
  | cons request rest ih =>
    obtain ⟨earlier, ordered⟩ := List.pairwise_cons.1 ordered
    obtain ⟨present, kept⟩ := kept
    obtain ⟨sameBurst, same, -⟩ := next_fields limiter request
    have range' : InRange rest := fun other member => range other (List.mem_cons_of_mem _ member)
    have within' := fun other member => within other (List.mem_cons_of_mem request member)
    obtain ⟨fromStart, upTo⟩ := within request List.mem_cons_self
    by_cases own : request.key = key
    · subst own
      right
      -- the bucket after this request is the origin of the window
      have rest' : ∀ {bucket' spent'}, (next limiter request).buckets.lookup request.key = some bucket' →
          spent' + bucket'.tokens ≤ limiter.burst → bucket'.updated ≤ request.now →
          request.now < bucket'.updated + grain limiter.refillPerSecond * 1000000 →
          ∃ origin converted, origin + converted * 1000000 ≤ last ∧
            start < origin + grain limiter.refillPerSecond * 1000000 ∧
            (spent' + admitted request.key (next limiter request) rest) * 1000 ≤
              limiter.burst * 1000 + converted * limiter.refillPerSecond := by
        intro bucket' spent' found credit before near
        obtain ⟨converted, ends, most⟩ := @admitted_from (next limiter request) request.key bucket' rest (by rwa [same])
          (by rwa [same]) bucket'.updated 0 spent' limiter.burst last found (by rw [Nat.zero_mul, Nat.add_zero])
          (by rw [Nat.zero_mul, Nat.add_zero]; exact Nat.mul_le_mul_right _ credit) ordered range'
          (fun other member => before.trans (earlier other member)) (fun other member => (within' other member).2)
          (before.trans upTo) kept
        rw [same] at most
        exact ⟨bucket'.updated, converted, ends, fromStart.trans_lt near, most⟩
      rw [admitted_cons_self]
      cases found : limiter.buckets.lookup request.key with
      | none =>
        have positive : 0 < grain limiter.refillPerSecond := Nat.lt_of_lt_of_le Nat.one_pos (Nat.le_max_left _ _)
        rw [allow_none found, if_pos rfl]
        refine rest' (lookup_next_none found) ?_ le_rfl ?_
        · dsimp only
          omega
        · dsimp only
          omega
      | some bucket =>
        have here := (sane _ _ found).trans (later request List.mem_cons_self)
        obtain ⟨-, -, -, near⟩ := refill_exact exactly rate (range request List.mem_cons_self) here
        have before := @refill_updated_le limiter _ _ here
        have tokens := refill_tokens_le limiter bucket request.now
        have held := lookup_next_some found
        rw [allow_some found]
        generalize limiter.refill bucket request.now = refill at near before tokens held ⊢
        by_cases empty : refill.tokens = 0
        · rw [if_pos empty, if_neg (by omega)]
          refine rest' held ?_ before near
          dsimp only
          omega
        · rw [if_neg empty, if_pos rfl]
          refine rest' held ?_ before near
          dsimp only
          omega
    · rw [admitted_cons_other own]
      have result := @ih (next limiter request) request.now (by rwa [same]) (by rwa [same]) (by rwa [sameBurst])
        (sane.next (later request List.mem_cons_self)) ordered range' earlier within' kept
      rwa [same, sameBurst] at result

theorem window_bound {rate admitted burst converted milliseconds : Nat} (exactly : Exact rate) (some : 0 < rate)
    (short : converted < milliseconds + grain rate) (most : admitted * 1000 ≤ burst * 1000 + converted * rate) :
    admitted ≤ burst + milliseconds * rate ⌈/⌉ 1000 := by
  have ceil : milliseconds * rate ≤ 1000 * (milliseconds * rate ⌈/⌉ 1000) := le_smul_ceilDiv (show 0 < 1000 by decide)
  by_contra more
  rcases exactly with ⟨time, same⟩ | ⟨perMs, rfl⟩
  · rw [grain_eq same some] at short
    have whole : (converted + 1) * rate ≤ (milliseconds + time) * rate := Nat.mul_le_mul_right _ short
    rw [Nat.add_mul, Nat.add_mul, Nat.mul_comm time, ← same] at whole
    linarith
  · have one : grain (1000 * perMs) = 1 := by
      rcases Nat.lt_or_ge 1 perMs with many | few
      · rw [grain, Nat.div_eq_of_lt (by omega)]
        rfl
      · obtain rfl : perMs = 1 := by omega
        rfl
    have whole : converted * (1000 * perMs) ≤ milliseconds * (1000 * perMs) := Nat.mul_le_mul_right _ (by omega)
    linarith

/-! ### Other rates -/

/-- Requests of a key, each as soon as a token is there. -/
def polls (key : String) (rate : Nat) : Nat → Nat → List Request
  | 0, _ => []
  | count + 1, start =>
    ⟨key, start + (1000 / rate + 1) * 1000000⟩ :: polls key rate count (start + 1000 / rate * 1000000)

theorem mem_polls {rate count start : Nat} (member : request ∈ polls key rate count start) : request.key = key ∧
    start + 1000000 ≤ request.now ∧ request.now ≤ start + 1000000 + count * (1000 / rate) * 1000000 := by
  induction count generalizing start with
  | zero => cases member
  | succ count ih =>
    rw [Nat.add_mul count, Nat.one_mul]
    generalize count * (1000 / rate) = times at ih ⊢
    rcases List.mem_cons.1 member with rfl | later
    · generalize 1000 / rate = wait
      exact ⟨rfl, by dsimp only; omega, by dsimp only; omega⟩
    · obtain ⟨same, lower, upper⟩ := ih later
      exact ⟨same, by omega, by omega⟩

theorem ordered_polls (key : String) (rate : Nat) : ∀ count start, Ordered (polls key rate count start)
  | 0, _ => List.Pairwise.nil
  | count + 1, start => by
    refine List.pairwise_cons.2 ⟨fun other member => ?_, ordered_polls key rate count _⟩
    have later := (mem_polls member).2.1
    dsimp only
    omega

theorem poll_converts {rate : Nat} (inexact : ¬Exact rate) (some : 0 < rate) :
    0 < (1000 / rate + 1) * rate / 1000 ∧ (1000 / rate + 1) * rate / 1000 * 1000 / rate = 1000 / rate ∧
      1000 / rate * rate < 1000 := by
  have below : 1000 / rate * rate < 1000 := by
    refine lt_of_le_of_ne (Nat.div_mul_le_self _ _) fun same => inexact (.inl ⟨1000 / rate, ?_⟩)
    rw [Nat.mul_comm, same]
  have above : 1000 < (1000 / rate + 1) * rate := by
    rw [Nat.mul_comm]
    exact Nat.lt_mul_div_succ 1000 some
  refine ⟨Nat.div_pos above.le (by decide), ?_, below⟩
  rcases Nat.lt_or_ge rate 1000 with slow | fast
  · have one : (1000 / rate + 1) * rate / 1000 = 1 := by
      rw [Nat.add_mul, Nat.one_mul] at above ⊢
      generalize 1000 / rate * rate = part at *
      omega
    rw [one, Nat.one_mul]
  · have more : 1000 < rate := lt_of_le_of_ne fast fun same => inexact (.inr ⟨1, by omega⟩)
    have none : 1000 / rate = 0 := Nat.div_eq_of_lt more
    rw [none, Nat.zero_add, Nat.one_mul]
    refine Nat.div_eq_of_lt (lt_of_le_of_ne (Nat.div_mul_le_self _ _) fun same => inexact (.inr ⟨rate / 1000, ?_⟩))
    rw [Nat.mul_comm, same]

theorem admitted_polls {rate : Nat} (inexact : ¬Exact rate) (bounded : 0 < rate ∧ rate ≤ rateLimitMax) (count : Nat) :
    ∀ {limiter : RateLimiter} {bucket : Bucket}, limiter.refillPerSecond = rate → 0 < limiter.burst →
      limiter.buckets.lookup key = some bucket → admitted key limiter (polls key rate count bucket.updated) = count := by
  induction count with
  | zero => intros; rfl
  | succ count ih =>
    intro limiter bucket same burst found
    obtain ⟨some, back, below⟩ := poll_converts inexact bounded.1
    have few : (1000 / rate + 1) * rate / 1000 ≤ usizeMax := by
      have upper := bounded.2
      rw [Nat.add_mul, Nat.one_mul]
      unfold rateLimitMax at upper
      unfold usizeMax
      omega
    have elapsed : (bucket.updated + (1000 / rate + 1) * 1000000 - bucket.updated) / 1000000 = 1000 / rate + 1 := by
      rw [Nat.add_sub_cancel_left, Nat.mul_div_cancel _ (by decide)]
    have refilled : 0 < (limiter.refill bucket (bucket.updated + (1000 / rate + 1) * 1000000)).tokens ∧
        (limiter.refill bucket (bucket.updated + (1000 / rate + 1) * 1000000)).updated =
          bucket.updated + 1000 / rate * 1000000 := by
      simp only [RateLimiter.refill, same, elapsed, Nat.min_eq_left few]
      have wait : 1000 / rate ≤ u64Max := (Nat.div_le_self _ _).trans (by decide)
      rw [if_pos some, back, Nat.min_eq_left wait]
      have top : 0 < usizeMax := by decide
      exact ⟨by omega, rfl⟩
    have held := @lookup_next_some limiter bucket ⟨key, bucket.updated + (1000 / rate + 1) * 1000000⟩ found
    obtain ⟨burst', rate', -⟩ := next_fields limiter ⟨key, bucket.updated + (1000 / rate + 1) * 1000000⟩
    have rest := ih (by rw [rate', same]) (by rwa [burst']) held
    dsimp only at rest
    rw [refilled.2] at rest
    rw [polls, admitted, rest, allow_some found]
    simp only [true_and]
    rw [if_neg (Nat.pos_iff_ne_zero.1 refilled.1), if_pos rfl, Nat.add_comm]

theorem notEvicted_own : ∀ (requests : List Request) (limiter : RateLimiter),
    (∀ request ∈ requests, request.key = key) → NotEvicted key limiter requests
  | [], _, _ => trivial
  | request :: rest, limiter, own => by
    refine ⟨fun _ => ?_, notEvicted_own rest _ fun other member => own other (List.mem_cons_of_mem _ member)⟩
    have same := own request List.mem_cons_self
    subst same
    cases found : limiter.buckets.lookup request.key with
    | none => rw [lookup_next_none found]; rfl
    | some bucket => rw [lookup_next_some found]; rfl

/-! ### Exact rates -/

theorem validate_ok : options.validate = .ok () ↔ (0 < options.burst ∧ options.burst ≤ rateLimitMax) ∧
    (0 < options.refillPerSecond ∧ options.refillPerSecond ≤ rateLimitMax) ∧
    0 < options.keyCapacity ∧ options.keyCapacity ≤ rateLimitMax := by
  unfold RateLimitOptions.validate
  split
  · next refused =>
    constructor
    · intro failed
      cases failed
    · intro bounds
      omega
  · next accepted =>
    refine iff_of_true rfl ?_
    omega

theorem bounded_of_exact (valid : options.validate = .ok ()) (exactly : Exact options.refillPerSecond)
    (ordered : Ordered requests) (range : InRange requests) : Bounded options requests := by
  obtain ⟨burst, rate, keys⟩ := validate_ok.1 valid
  refine ⟨?_, ?_, fun before _ => ?_⟩
  · intro before inside after key start milliseconds same within kept
    subst same
    obtain ⟨outer, -, -⟩ := List.pairwise_append.1 ordered
    obtain ⟨earlier, window, crossed⟩ := List.pairwise_append.1 outer
    obtain ⟨sameBurst, sameRate, -⟩ := run_fields before (.new options)
    cases inside with
    | nil => exact Nat.zero_le _
    | cons request rest =>
      have sane : Sane (run (.new options) before) request.now := by
        have start : Sane (.new options) 0 := fun key bucket found => nomatch found
        exact start.run before earlier (fun _ _ => Nat.zero_le _)
          (fun other member => crossed other member request List.mem_cons_self) (Nat.zero_le _)
      have onward : ∀ other ∈ request :: rest, request.now ≤ other.now := by
        intro other member
        rcases List.mem_cons.1 member with rfl | later
        · exact le_rfl
        · exact (List.pairwise_cons.1 window).1 other later
      have rate' : (run (.new options) before).refillPerSecond = options.refillPerSecond := sameRate
      have burst' : (run (.new options) before).burst = options.burst := sameBurst
      have most := admitted_window (by rwa [rate']) (by rwa [rate']) (by rw [burst']; exact burst.1) sane window
        (fun other member => range other (by simp only [List.mem_append]; exact .inl (.inr member))) onward within kept
      rw [rate', burst'] at most
      rcases most with none | ⟨origin, converted, ends, near, most⟩
      · rw [none]
        exact Nat.zero_le _
      · refine window_bound exactly rate.1 ?_ most
        generalize grain options.refillPerSecond = time at near ⊢
        omega
  · intro before request after _ refused
    cases found : (run (.new options) before).buckets.lookup request.key with
    | none =>
      rw [allow_none found] at refused
      exact absurd rfl refused
    | some bucket =>
      rw [allow_some found] at refused
      refine ⟨bucket, rfl, ?_⟩
      by_contra some
      exact refused (if_neg some)
  · have within := @length_run (.new options) keys.1 (Nat.zero_le _) before
    exact within

theorem not_bounded (valid : options.validate = .ok ()) (inexact : ¬Exact options.refillPerSecond) :
    ∃ requests, Ordered requests ∧ InRange requests ∧ ¬Bounded options requests := by
  obtain ⟨burst, rate, keys⟩ := validate_ok.1 valid
  obtain ⟨-, -, below⟩ := poll_converts inexact rate.1
  generalize count : 1000 * (options.burst + 2) = polled
  refine ⟨⟨"", 0⟩ :: polls "" options.refillPerSecond polled 0, ?_, ?_, fun bounded => ?_⟩
  · exact List.pairwise_cons.2 ⟨fun _ _ => Nat.zero_le _, ordered_polls _ _ _ _⟩
  · intro request member
    rcases List.mem_cons.1 member with rfl | later
    · decide
    · have upper := (mem_polls later).2.2
      have wait : polled * (1000 / options.refillPerSecond) ≤ polled * 1000 := Nat.mul_le_mul_left _ (Nat.div_le_self _ _)
      have most := burst.2
      unfold rateLimitMax at most
      generalize polled * (1000 / options.refillPerSecond) = times at upper wait
      omega
  · have first : (run (.new options) [⟨"", 0⟩]).buckets.lookup "" = some ⟨options.burst - 1, 0⟩ :=
      @lookup_next_none (.new options) ⟨"", 0⟩ rfl
    obtain ⟨sameBurst, sameRate, -⟩ := run_fields [⟨"", 0⟩] (.new options)
    have all := @admitted_polls "" options.refillPerSecond inexact rate polled _ _ sameRate
      (by rw [sameBurst]; exact burst.1) first
    have within := bounded.window [⟨"", 0⟩] (polls "" options.refillPerSecond polled 0) [] "" 1000000
      (polled * (1000 / options.refillPerSecond)) (by simp)
      (fun request member => by
        obtain ⟨-, lower, upper⟩ := mem_polls member
        exact ⟨by omega, by omega⟩)
      (notEvicted_own _ _ fun request member => (mem_polls member).1)
    dsimp only at all
    rw [all] at within
    have refill : polled * (1000 / options.refillPerSecond) * options.refillPerSecond ⌈/⌉ 1000 ≤ (options.burst + 2) * 999 := by
      rw [ceilDiv_le_iff_le_smul (by decide), smul_eq_mul, ← count, Nat.mul_assoc, Nat.mul_assoc]
      exact Nat.mul_le_mul_left _ (Nat.mul_le_mul_left _ (by omega))
    omega

/-- Exactly the rates that divide 1000 or are multiples of it. -/
theorem bounded_iff (options : RateLimitOptions) (valid : options.validate = .ok ()) :
    (∀ requests, Ordered requests → InRange requests → Bounded options requests) ↔
      options.refillPerSecond ∣ 1000 ∨ 1000 ∣ options.refillPerSecond := by
  constructor
  · intro all
    by_contra inexact
    obtain ⟨requests, ordered, range, fails⟩ := not_bounded valid inexact
    exact fails (all requests ordered range)
  · intro exactly requests ordered range
    exact bounded_of_exact valid exactly ordered range

theorem bounded_iff_default : (∀ requests, Ordered requests → InRange requests → Bounded ⟨10, 10, 10000⟩ requests) ↔
    10 ∣ 1000 ∨ 1000 ∣ 10 :=
  bounded_iff ⟨10, 10, 10000⟩ rfl

/-- Fifteen requests of one millisecond are let through with a burst of ten and 1500 tokens a second. -/
theorem not_bounded_fast : ¬∀ options requests, RateLimitOptions.validate options = .ok () → Ordered requests →
    InRange requests → Bounded options requests := by
  intro all
  have bounded := all ⟨10, 1500, 10000⟩ (⟨"", 0⟩ :: .replicate 15 ⟨"", 1000000⟩) rfl
    (by unfold Ordered; decide) (by unfold InRange; decide)
  have within := bounded.window [⟨"", 0⟩] (.replicate 15 ⟨"", 1000000⟩) [] "" 1000000 0 rfl (by decide)
    (notEvicted_own _ _ (by decide))
  exact absurd within (by decide +kernel)

end RateLimits

end BasicNext.Web
