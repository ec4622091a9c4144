import Portask.Lib.Expiring
import Portask.Lib.GoString
import Mathlib.Tactic.Linarith

/-! # The advanced rate limiter

A bucket per key that gains tokens with the time. The tokens that are added are the whole part of the elapsed
nanoseconds times the rate over a billion, and the rest of the time is forgotten at every call of `Allow`, denied or
not. A call reads the clock once. Integers do not overflow: the tokens that are added in the time between two calls
and `burst` are below `2 ^ 63` together.
-/

namespace Portask.Auth

open Function Lib Lib.Keeper

structure AdvancedTokenBucket where
  tokens : Int
  lastCheck : Int

structure AdvancedRateLimiter where
  rate : Int
  burst : Int

inductive Question where
  | allow
  | remaining

inductive Answer where
  | allowed (ok : Bool)
  | remaining (tokens : Int)
  deriving DecidableEq

open Answer

def Answer.granted : Answer → Bool
  | .allowed ok => ok
  | .remaining _ => false

namespace AdvancedRateLimiter

variable (rl : AdvancedRateLimiter)

/-- The tokens with those that are added, not more than `burst`. -/
def refilled (now : Int) (b : AdvancedTokenBucket) : Int :=
  let tokens := b.tokens + (now - b.lastCheck) * rl.rate / 1000000000
  if rl.burst < tokens then rl.burst else tokens

/-- `getAdvancedBucket` -/
def bucket (now : Int) (b : Option AdvancedTokenBucket) : AdvancedTokenBucket :=
  b.getD ⟨rl.burst, now⟩

def available (now : Int) (b : Option AdvancedTokenBucket) : Int :=
  rl.refilled now (rl.bucket now b)

/-- `Allow`, `Remaining`, and `cleanupStaleBuckets`, which drops what was last used more than ten minutes ago. -/
def keeper : Keeper AdvancedTokenBucket Question Answer where
  serve now b
    | .allow =>
      let tokens := rl.available now b
      if 0 < tokens then (⟨tokens - 1, now⟩, .allowed true) else (⟨tokens, now⟩, .allowed false)
    | .remaining => (rl.bucket now b, .remaining (rl.available now b))
  stale now b := b.lastCheck < now - 600000000000

def buckets (calls : List (Timed GoString Question)) : GoString → Option AdvancedTokenBucket :=
  (rl.keeper.object.run (fun _ => none) calls).1

def Ok (now : Int) (o : Option AdvancedTokenBucket) : Prop :=
  ∀ b ∈ o, 0 ≤ b.tokens ∧ b.tokens ≤ rl.burst ∧ b.lastCheck ≤ now

def Full (now : Int) (o : Option AdvancedTokenBucket) : Prop := rl.available now o = rl.burst

variable {rl} {now later : Int} {o o' : Option AdvancedTokenBucket}

/-- Refills at two times give no more than one at the second. -/
theorem add_refills (rate a b : Int) :
    a * rate / 1000000000 + b * rate / 1000000000 ≤ (a + b) * rate / 1000000000 := by
  rw [Int.add_mul]
  omega

theorem added_nonneg {rate elapsed : Int} (positive : 1 ≤ rate) (forward : 0 ≤ elapsed) :
    0 ≤ elapsed * rate / 1000000000 :=
  Int.ediv_nonneg (Int.mul_nonneg forward (by omega)) (by decide)

@[simp] theorem available_none : rl.available now none = rl.burst := by
  simp [available, bucket, refilled]

theorem available_some :
    rl.available now (some b) =
      min rl.burst (b.tokens + (now - b.lastCheck) * rl.rate / 1000000000) := by
  simp only [available, bucket, refilled, Option.getD_some]
  grind

theorem available_le (rl : AdvancedRateLimiter) (now : Int) (o : Option AdvancedTokenBucket) :
    rl.available now o ≤ rl.burst := by
  cases o with
  | none => simp
  | some b => grind [available_some]

section

variable (positive : 1 ≤ rl.rate)
include positive

theorem available_nonneg (room : 1 ≤ rl.burst) (ok : rl.Ok now o) : 0 ≤ rl.available now o := by
  cases o with
  | none => simp; omega
  | some b =>
    obtain ⟨tokens, -, before⟩ := ok b rfl
    have added := added_nonneg positive (show 0 ≤ now - b.lastCheck by omega)
    grind [available_some]

/-- Time that passes adds at least what is added for it alone. -/
theorem available_passes (passes : now ≤ later) :
    min rl.burst (rl.available now o + (later - now) * rl.rate / 1000000000) ≤
      rl.available later o := by
  have added := added_nonneg positive (show 0 ≤ later - now by omega)
  cases o with
  | none => simp
  | some b =>
    have sum := add_refills rl.rate (now - b.lastCheck) (later - now)
    rw [show now - b.lastCheck + (later - now) = later - b.lastCheck by omega] at sum
    grind [available_some]

theorem full_later (passes : now ≤ later) (full : rl.Full now o) : rl.Full later o := by
  have more := available_passes (o := o) positive passes
  have added := added_nonneg positive (show 0 ≤ later - now by omega)
  have most := rl.available_le later o
  unfold Full at *
  omega

theorem ok_serve (room : 1 ≤ rl.burst) (q : Question) (ok : rl.Ok now o) :
    rl.Ok now (some (rl.keeper.serve now o q).1) := by
  have some_ := available_nonneg positive room ok
  have most := rl.available_le now o
  cases q with
  | allow => grind [Ok, keeper]
  | remaining =>
    cases o with
    | none => grind [Ok, keeper, bucket]
    | some b => exact ok

theorem lawful (room : 1 ≤ rl.burst) (quick : rl.burst ≤ 600 * rl.rate) :
    rl.keeper.Lawful rl.Ok rl.Full where
  okNew := by simp [Ok]
  okLater later ok b there := by grind [Ok]
  okServe q ok := ok_serve positive room q ok
  fullNew := by simp [Full]
  fullLater := full_later positive
  fullStale := by
    intro now b ok stale
    obtain ⟨tokens, -, -⟩ := ok b rfl
    simp only [keeper, decide_eq_true_eq] at stale
    have long : rl.burst ≤ (now - b.lastCheck) * rl.rate / 1000000000 := by
      rw [Int.le_ediv_iff_mul_le (by decide)]
      nlinarith
    simp only [Full, available_some]
    omega
  serveFull := by
    intro now o o' q ok ok' full full'
    cases q with
    | allow =>
      simp only [keeper, show rl.available now o = rl.available now o' from full.trans full'.symm]
      exact ⟨trivial, .inl trivial⟩
    | remaining =>
      refine ⟨congrArg remaining (full.trans full'.symm), .inr ⟨?_, ?_⟩⟩
      · cases o with
        | none => simp [keeper, bucket, Full, available_some]
        | some b => exact full
      · cases o' with
        | none => simp [keeper, bucket, Full, available_some]
        | some b => exact full'

end

theorem serve_allow (now : Int) (o : Option AdvancedTokenBucket) :
    rl.keeper.serve now o .allow =
      (⟨rl.available now o - (decide (0 < rl.available now o)).toNat, now⟩,
        .allowed (decide (0 < rl.available now o))) := by
  by_cases some_ : 0 < rl.available now o <;> simp [keeper, some_]

/-- As many requests of one moment are allowed as there are tokens. -/
theorem count_at_once (key : GoString) (n : Nat) (left : 0 ≤ rl.available now (s key)) :
    rl.keeper.count granted key s (List.replicate n ⟨now, .ask key .allow⟩) =
      min n (rl.available now (s key)).toNat := by
  induction n generalizing s with
  | zero => simp [count]
  | succ n ih =>
    have most := rl.available_le now (s key)
    have rest := @ih (update s key (some (rl.keeper.serve now (s key) .allow).1))
    simp only [count, List.replicate_succ, Object.run_cons, apply_ask, List.zip_cons_cons,
      List.countP_cons] at rest ⊢
    simp only [serve_allow, update_self, available_some, Int.sub_self, Int.zero_mul,
      Int.zero_ediv, Int.add_zero, granted, decide_true, Bool.true_and] at rest ⊢
    by_cases some_ : 0 < rl.available now (s key)
    · simp only [some_, decide_true, Bool.toNat_true, if_true] at rest ⊢
      rw [rest (by omega)]
      omega
    · simp only [some_, decide_false, Bool.toNat_false, Bool.false_eq_true, if_false] at rest ⊢
      rw [rest (by omega)]
      omega

/-- What can be granted until some time: with the tokens that are there, or with a full bucket. -/
def budget (rl : AdvancedRateLimiter) (until_ now : Int) : Option AdvancedTokenBucket → Int
  | none => rl.burst + (until_ - now) * rl.rate / 1000000000
  | some b =>
    min (rl.burst + (until_ - now) * rl.rate / 1000000000)
      (b.tokens + (until_ - b.lastCheck) * rl.rate / 1000000000)

theorem budget_le (rl : AdvancedRateLimiter) (until_ now : Int) (o : Option AdvancedTokenBucket) :
    rl.budget until_ now o ≤ rl.burst + (until_ - now) * rl.rate / 1000000000 := by
  cases o <;> grind [budget]

theorem added_mono {rate less more : Int} (positive : 1 ≤ rate) (le : less ≤ more) :
    less * rate / 1000000000 ≤ more * rate / 1000000000 :=
  Int.ediv_le_ediv (by decide) (by nlinarith)

/-- Filling the bucket now gives nothing. -/
theorem available_budget (rl : AdvancedRateLimiter) (until_ now : Int)
    (o : Option AdvancedTokenBucket) :
    rl.available now o + (until_ - now) * rl.rate / 1000000000 ≤ rl.budget until_ now o := by
  cases o with
  | none => simp [budget]
  | some b =>
    have sum := add_refills rl.rate (now - b.lastCheck) (until_ - now)
    rw [show now - b.lastCheck + (until_ - now) = until_ - b.lastCheck by omega] at sum
    grind [budget, available_some]

theorem budget_kept (most : tokens ≤ rl.burst) :
    rl.budget until_ now (some ⟨tokens, now⟩) = tokens + (until_ - now) * rl.rate / 1000000000 := by
  grind [budget]

theorem budget_serves (q : Question) (o : Option AdvancedTokenBucket) :
    (rl.keeper.serve now o q).2.granted.toNat +
      rl.budget until_ now (some (rl.keeper.serve now o q).1) ≤ rl.budget until_ now o := by
  have most := rl.available_le now o
  have kept := rl.available_budget until_ now o
  cases q with
  | allow =>
    rw [serve_allow, budget_kept (by omega), granted]
    omega
  | remaining =>
    cases o with
    | none => simp [keeper, bucket, granted, budget]
    | some b => simp [keeper, bucket, granted]

theorem spends (positive : 1 ≤ rl.rate) (room : 1 ≤ rl.burst) (quick : rl.burst ≤ 600 * rl.rate)
    (until_ : Int) : Lawful.Spends rl.keeper rl.Ok granted until_ (rl.budget until_) where
  passes := by
    intro now later o _ passes _
    have fewer := added_mono positive (show until_ - later ≤ until_ - now by omega)
    cases o <;> grind [budget]
  serves q _ _ := budget_serves q _
  sweeps := by
    intro now b ok stale
    have full : rl.available now (some b) = rl.burst :=
      (lawful positive room quick).fullStale ok stale
    have kept := rl.available_budget until_ now (some b)
    rwa [full] at kept
  left := by
    intro now o ok before
    have some_ := available_nonneg positive room ok
    have added := added_nonneg positive (show 0 ≤ until_ - now by omega)
    exact Int.le_trans (by omega) (rl.available_budget _ now o)

/-- For every rate, every burst that is made up for within ten minutes, and every clock: in a window of time at most the
    burst and what is added in it are granted; `Remaining` is the number of requests that are allowed at once; and
    cleaning up is not seen. -/
theorem advancedRateLimiter_sound {rl : AdvancedRateLimiter} (positive : 1 ≤ rl.rate)
    (room : 1 ≤ rl.burst) (quick : rl.burst ≤ 600 * rl.rate) (start : Int) :
    (∀ before during key, ∀ (since : Int) (length : Nat), Since start (before ++ during) →
      (∀ call ∈ during, since ≤ call.now ∧ call.now ≤ since + length) →
        rl.keeper.count granted key (rl.buckets before) during ≤ rl.burst + rl.rate * length / 1000000000) ∧
    (∀ calls key now, Since start (calls ++ [⟨now, .ask key .remaining⟩]) →
      ∃ left : Nat, (rl.keeper.serve now (rl.buckets calls key) .remaining).2 = .remaining left ∧
        ∀ n, rl.keeper.count granted key (rl.buckets calls)
          (List.replicate n ⟨now, .ask key .allow⟩) = min n left) ∧
    ∀ calls calls' : List (Timed GoString Question), Since start calls → Since start calls' →
      calls.filter isAsk = calls'.filter isAsk →
      (rl.keeper.object.run (fun _ => none) calls).2.filterMap id =
        (rl.keeper.object.run (fun _ => none) calls').2.filterMap id := by
  have lawful := lawful positive room quick
  refine ⟨fun before during key since length ordered inside => ?_, fun calls key now ordered =>
    ?_, fun calls calls' => lawful.answers_eq⟩
  · refine lawful.count_window_le (spends positive room quick _) ?_ ?_ key ordered inside
    · intro now o _ enters _
      have fewer := added_mono positive (show since + length - now ≤ length by omega)
      rw [Int.mul_comm rl.rate]
      exact Int.le_trans (rl.budget_le _ _ _) (by omega)
    · have added := added_nonneg positive (Int.natCast_nonneg length)
      rw [Int.mul_comm rl.rate]
      omega
  · obtain ⟨first, last⟩ := since_append.mp ordered
    have ok : rl.Ok now (rl.buckets calls key) :=
      lawful.okLater last.1 (lawful.ok_run first (fun _ => lawful.okNew start) key)
    have some_ := available_nonneg positive room ok
    refine ⟨(rl.available now (rl.buckets calls key)).toNat, ?_, fun n => count_at_once key n some_⟩
    rw [Int.toNat_of_nonneg some_]
    rfl

theorem advancedRateLimiter_sound_ten :
    ((1 : Int) ≤ 1 ∧ (1 : Int) ≤ 10 ∧ (10 : Int) ≤ 600 * 1) ∧
      ∃ left : Nat, ((⟨1, 10⟩ : AdvancedRateLimiter).keeper.serve 0 (buckets ⟨1, 10⟩ [] []) .remaining).2 = .remaining left ∧
        ∀ n, (⟨1, 10⟩ : AdvancedRateLimiter).keeper.count granted [] (buckets ⟨1, 10⟩ [])
          (List.replicate n ⟨0, .ask [] .allow⟩) = min n left :=
  ⟨by decide, (advancedRateLimiter_sound (by decide) (by decide) (by decide) 0).2.1 [] [] 0
    (by simp [Since])⟩

/-- The requests for one key at some times. -/
def requests (key : GoString) (times : List Int) : List (Timed GoString Question) :=
  times.map fun now => ⟨now, .ask key .allow⟩

def answers (rl : AdvancedRateLimiter) (key : GoString) (s : GoString → Option AdvancedTokenBucket)
    (times : List Int) : List Bool :=
  (rl.keeper.object.run s (requests key times)).2.map fun answer => answer.elim false granted

def asked (rl : AdvancedRateLimiter) (key : GoString)
    (s : GoString → Option AdvancedTokenBucket) (now : Int) :
    GoString → Option AdvancedTokenBucket :=
  update s key (some (rl.keeper.serve now (s key) .allow).1)

section

variable {key : GoString} {s t : GoString → Option AdvancedTokenBucket}

theorem asked_self (rl : AdvancedRateLimiter) (key : GoString)
    (s : GoString → Option AdvancedTokenBucket) (now : Int) : rl.asked key s now key =
      some ⟨rl.available now (s key) - if 0 < rl.available now (s key) then 1 else 0, now⟩ := by
  rw [asked, update_self, serve_allow]
  by_cases some_ : 0 < rl.available now (s key) <;> simp [some_]

theorem answers_cons :
    rl.answers key s (now :: times) =
      decide (0 < rl.available now (s key)) :: rl.answers key (rl.asked key s now) times := by
  simp [answers, requests, Object.run_cons, serve_allow, granted, asked]

/-- Whoever is denied loses, but gains nothing. -/
theorem answers_granted (positive : 1 ≤ rl.rate) {times : List Int}
    (since : Since now (requests key times))
    (less : ∀ later, now ≤ later → rl.available later (s key) ≤ rl.available later (t key)) :
    rl.answers key t (((times.zip (rl.answers key s times)).filter (·.2)).map (·.1)) =
      ((times.zip (rl.answers key s times)).filter (·.2)).map (·.2) := by
  induction times generalizing now s t with
  | nil => rfl
  | cons time rest ih =>
    obtain ⟨before, since⟩ := since
    have here := less time before
    rw [answers_cons, List.zip_cons_cons]
    by_cases some_ : 0 < rl.available time (s key)
    · simp only [some_, decide_true, List.filter_cons_of_pos, List.map_cons, answers_cons,
        show 0 < rl.available time (t key) by omega]
      congr 1
      refine ih since fun later _ => ?_
      simp only [asked_self, available_some]
      grind
    · simp only [some_, decide_false, Bool.false_eq_true, not_false_eq_true, List.filter_cons_of_neg]
      refine ih since fun later passes => ?_
      have more := available_passes (o := s key) positive passes
      have there := less later (Int.le_trans before passes)
      simp only [asked_self, available_some, if_neg some_]
      grind

end

section

variable (rl) (key : GoString) (s t : GoString →
  Option AdvancedTokenBucket) (calls : List (Int × Bool))

/-- Of the requests at some times those that are left out are denied. -/
def OnlyDenied : Prop :=
  ∀ call ∈ calls.zip (rl.answers key s (calls.map (·.1))), call.1.2 = true → call.2 = false

/-- The others are answered as they are in the whole run. -/
def Unchanged : Prop :=
  rl.answers key t ((calls.filter (!·.2)).map (·.1)) =
    ((calls.zip (rl.answers key s (calls.map (·.1)))).filter (!·.1.2)).map (·.2)

end

section

variable {key : GoString} {s t : GoString → Option AdvancedTokenBucket} {calls : List (Int × Bool)}

theorem onlyDenied_cons :
    rl.OnlyDenied key s ((now, out) :: calls) ↔
      (out = true → ¬ 0 < rl.available now (s key)) ∧
      rl.OnlyDenied key (rl.asked key s now) calls := by
  simp [OnlyDenied, answers_cons]

theorem unchanged_left_out :
    rl.Unchanged key s t ((now, true) :: calls) ↔
      rl.Unchanged key (rl.asked key s now) t calls := by
  simp [Unchanged, answers_cons]

theorem unchanged_kept :
    rl.Unchanged key s t ((now, false) :: calls) ↔
      (0 < rl.available now (t key) ↔ 0 < rl.available now (s key)) ∧
        rl.Unchanged key (rl.asked key s now) (rl.asked key t now) calls := by
  simp [Unchanged, answers_cons]

/-- If a nanosecond adds a token, only a request at the time of the one before is denied. -/
theorem asked_of_denied (fast : 1000000000 ≤ rl.rate) (room : 1 ≤ rl.burst) (ok : rl.Ok now (s key))
    (denied : ¬ 0 < rl.available now (s key)) : rl.asked key s now = s := by
  cases found : s key with
  | none =>
    rw [found, available_none] at denied
    omega
  | some b =>
    rw [found] at ok
    obtain ⟨tokens, -, before⟩ := ok b rfl
    rw [found, available_some] at denied
    have still : now = b.lastCheck := by
      by_contra moved
      have added : 1 ≤ (now - b.lastCheck) * rl.rate / 1000000000 := by
        rw [Int.le_ediv_iff_mul_le (by decide)]
        nlinarith [show 1 ≤ now - b.lastCheck by omega]
      omega
    subst still
    have same : (rl.keeper.serve b.lastCheck (some b) .allow).1 = b := by
      obtain ⟨left, lastCheck⟩ := b
      simp only [Int.sub_self, Int.zero_mul, Int.zero_ediv, Int.add_zero] at denied tokens
      obtain rfl : left = 0 := by omega
      simp [serve_allow, available_some, show min rl.burst 0 = 0 by omega]
    rw [asked, found, same, ← found, update_eq_self]

theorem unchanged_of_fast (fast : 1000000000 ≤ rl.rate) (room : 1 ≤ rl.burst)
    (since : Since now (requests key (calls.map (·.1)))) (ok : rl.Ok now (s key))
    (denied : rl.OnlyDenied key s calls) : rl.Unchanged key s s calls := by
  induction calls generalizing now s with
  | nil => rfl
  | cons call rest ih =>
    obtain ⟨time, out⟩ := call
    obtain ⟨before, since⟩ := since
    obtain ⟨first, others⟩ := onlyDenied_cons.mp denied
    have ok : rl.Ok time (s key) := fun b there => by grind [Ok]
    cases out with
    | true =>
      have same := asked_of_denied fast room ok (first rfl)
      rw [same] at others
      rw [unchanged_left_out, same]
      exact ih since ok others
    | false =>
      have later : rl.Ok time (rl.asked key s time key) := by
        rw [asked, update_self]
        exact ok_serve (by omega) room .allow ok
      exact unchanged_kept.mpr ⟨.rfl, ih since later others⟩

/-- The bucket is emptied at time 0, and then a request is made too early. -/
def hasty (n : Nat) (wait : Int) : List (Int × Bool) :=
  List.replicate n (0, false) ++ [(1, true), (wait, false)]

/-- The early request costs the next one its token: less than a nanosecond's worth is missing for it. -/
theorem hasty_loses (room : 1 ≤ rl.burst) (slow : rl.rate < 1000000000)
    (positive : 1 ≤ rl.rate) (wait : Int)
    (short : (wait - 1) * rl.rate < 1000000000) (long : 1000000000 ≤ wait * rl.rate) {n : Nat}
    (within : n ≤ rl.burst) (here : s key = some ⟨n, 0⟩) (there : t key = some ⟨n, 0⟩) :
    Since 0 (requests key ((hasty n wait).map (·.1))) ∧ rl.OnlyDenied key s (hasty n wait) ∧
      ¬ rl.Unchanged key s t (hasty n wait) := by
  induction n generalizing s t with
  | zero =>
    have early : ¬ 0 < rl.available 1 (s key) := by
      simp only [here, available_some]
      omega
    refine ⟨⟨Int.zero_le_ofNat 1, ?_, trivial⟩,
      onlyDenied_cons.mpr ⟨fun _ => early, onlyDenied_cons.mpr ⟨nofun, nofun⟩⟩, ?_⟩
    · show 1 ≤ wait
      by_contra less
      nlinarith
    · intro unchanged
      have answer := (unchanged_kept.mp (unchanged_left_out.mp unchanged)).1
      rw [there, asked_self, if_neg early, here] at answer
      simp only [available_some, Int.sub_zero] at answer
      omega
  | succ n ih =>
    have next (u : GoString → Option AdvancedTokenBucket) (full : u key = some ⟨(n + 1 : Nat), 0⟩) :
        rl.asked key u 0 key = some ⟨n, 0⟩ := by
      rw [asked_self, full, available_some]
      grind
    obtain ⟨since, denied, changed⟩ := ih (by omega) (next s here) (next t there)
    refine ⟨⟨Int.le_refl 0, since⟩, onlyDenied_cons.mpr ⟨nofun, denied⟩,
      fun unchanged => changed ?_⟩
    exact (unchanged_kept.mp unchanged).2

end

/-- The requests that are allowed are allowed as well if no other is made. But if some denied ones are made and others
    are not, then in every run the answers stay the same only with a rate of at least one token in a nanosecond: a
    denied request costs the time since the one before. -/
theorem denied_calls_invisible (rl : AdvancedRateLimiter) (positive : 1 ≤ rl.rate)
    (room : 1 ≤ rl.burst) : (∀ key start times, Since start (requests key times) →
      rl.answers key (fun _ => none)
      (((times.zip (rl.answers key (fun _ => none) times)).filter (·.2)).map (·.1)) =
        ((times.zip (rl.answers key (fun _ => none) times)).filter (·.2)).map (·.2)) ∧
    ((∀ key start calls, Since start (requests key (calls.map (·.1))) →
      rl.OnlyDenied key (fun _ => none) calls →
        rl.Unchanged key (fun _ => none) (fun _ => none) calls) ↔ 1000000000 ≤ rl.rate) := by
  refine ⟨fun key start times since => answers_granted positive since fun _ _ => Int.le_refl _,
    fun unchanged => ?_, fun fast key start calls since denied => ?_⟩
  · by_contra slow
    have least := Int.lt_ediv_add_one_mul_self (999999999 + rl.rate) (show 0 < rl.rate by omega)
    have most := Int.ediv_mul_le (999999999 + rl.rate) (show rl.rate ≠ 0 by omega)
    rw [Int.add_mul] at least
    let s := rl.asked [] (fun _ => none) 0
    have first : s [] = some ⟨((rl.burst - 1).toNat : Int), 0⟩ := by
      simp only [s, asked_self, available_none]
      grind
    obtain ⟨since, denied, changed⟩ :=
      hasty_loses room (by omega) positive ((999999999 + rl.rate) / rl.rate)
      (by rw [Int.sub_mul]; omega) (by omega) (by omega) first first
    refine changed (unchanged_kept.mp (unchanged [] 0 ((0, false) :: hasty (rl.burst - 1).toNat _) ⟨Int.le_refl 0, since⟩
      (onlyDenied_cons.mpr ⟨nofun, denied⟩))).2
  · exact unchanged_of_fast fast room since nofun denied

/-- With one token a second, and with a billion. -/
theorem denied_calls_invisible_once :
    ((⟨1, 1⟩ : AdvancedRateLimiter).answers [] (fun _ => none) [0, 500000000, 1500000000] =
      [true, false, true] ∧
      (⟨1, 1⟩ : AdvancedRateLimiter).answers [] (fun _ => none) [0, 1500000000] = [true, true]) ∧
    (⟨1000000000, 2⟩ : AdvancedRateLimiter).Unchanged [] (fun _ => none) (fun _ => none)
      [(0, false), (0, false), (0, true), (1, false)] := by
  refine ⟨⟨by decide, ?_⟩, ?_⟩
  · exact (denied_calls_invisible ⟨1, 1⟩ (by decide) (by decide)).1 [] 0 [0, 500000000, 1500000000]
      (by simp [Since, requests])
  · exact (denied_calls_invisible ⟨1000000000, 2⟩ (by decide) (by decide)).2.mpr (by decide) [] 0 _
      (by simp [Since, requests]) (by unfold OnlyDenied; decide)

/-- With one token a second: a client that asks every half second is allowed once, one that waits every time. -/
theorem asking_often_costs_tokens :
    (⟨1, 1⟩ : AdvancedRateLimiter).answers [] (fun _ => none)
    [0, 500000000, 1000000000, 1500000000, 2000000000] = [true, false, false, false, false] ∧
      (⟨1, 1⟩ : AdvancedRateLimiter).answers [] (fun _ => none) [0, 1000000000, 2000000000] =
        [true, true, true] := by
  decide

end AdvancedRateLimiter

end Portask.Auth
