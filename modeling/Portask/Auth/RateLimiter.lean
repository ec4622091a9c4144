import Portask.Lib.Expiring
import Portask.Lib.GoString
import Mathlib.Tactic.Linarith

/-! # The simple rate limiter

A bucket per client that is filled up when a whole second has passed since it was last filled. Times are in
nanoseconds; a call of `Allow` reads the clock once.
-/

namespace Portask.Auth

open Lib Lib.Keeper

structure Bucket where
  tokens : Int
  lastRefill : Int

def Bucket.consumeToken (b : Bucket) (refillRate now : Int) : Bucket × Bool :=
  let tokensToAdd := (now - b.lastRefill) / 1000000000 * refillRate
  let b : Bucket :=
    if 0 < tokensToAdd then
      ⟨if refillRate < b.tokens + tokensToAdd then refillRate else b.tokens + tokensToAdd, now⟩
    else b
  if 0 < b.tokens then (⟨b.tokens - 1, b.lastRefill⟩, true) else (b, false)

/-- `Allow` is what is asked, and `cleanup` drops what was last filled more than five minutes ago. -/
def rateLimiter (requestsPerSecond : Int) : Keeper Bucket Unit Bool where
  serve now b _ := (b.getD ⟨requestsPerSecond, now⟩).consumeToken requestsPerSecond now
  stale now b := b.lastRefill < now - 300000000000

def buckets (r : Int) (calls : List (Timed GoString Unit)) : GoString → Option Bucket :=
  ((rateLimiter r).object.run (fun _ => none) calls).1

namespace Bucket

variable {r now : Int} {b : Bucket} {o : Option Bucket}

def Ok (r now : Int) (o : Option Bucket) : Prop :=
  ∀ b ∈ o, 0 ≤ b.tokens ∧ b.tokens ≤ r ∧ b.lastRefill ≤ now

/-- The next request fills the bucket. -/
def Due (now : Int) (o : Option Bucket) : Prop := ∀ b ∈ o, b.lastRefill + 1000000000 ≤ now

theorem consumeToken_due (positive : 1 ≤ r) (tokens : 0 ≤ b.tokens)
    (due : b.lastRefill + 1000000000 ≤ now) : b.consumeToken r now = (⟨r - 1, now⟩, true) := by
  have whole : 1 ≤ (now - b.lastRefill) / 1000000000 := by omega
  have added : r ≤ (now - b.lastRefill) / 1000000000 * r := by nlinarith
  unfold consumeToken
  simp only
  grind

theorem consumeToken_early (before : b.lastRefill ≤ now) (early : now < b.lastRefill + 1000000000) :
    b.consumeToken r now = if 0 < b.tokens then (⟨b.tokens - 1, b.lastRefill⟩, true)
      else (b, false) := by
  have nothing : (now - b.lastRefill) / 1000000000 = 0 := by omega
  simp [consumeToken, nothing]

theorem serve_due (positive : 1 ≤ r) (ok : Ok r now o) (due : Due now o) :
    (rateLimiter r).serve now o () = (⟨r - 1, now⟩, true) := by
  cases o with
  | none =>
    show Bucket.consumeToken ⟨r, now⟩ r now = _
    rw [consumeToken_early (Int.le_refl _) (by simp)]
    simp
    omega
  | some b => exact consumeToken_due positive (ok b rfl).1 (due b rfl)

theorem serve_early (ok : Ok r now (some b)) (early : now < b.lastRefill + 1000000000) :
    (rateLimiter r).serve now (some b) () =
      if 0 < b.tokens then (⟨b.tokens - 1, b.lastRefill⟩, true) else (b, false) :=
  consumeToken_early (ok b rfl).2.2 early

theorem lawful (positive : 1 ≤ r) : (rateLimiter r).Lawful (Ok r) Due where
  okNew := by simp [Ok]
  okLater later ok b there := by grind [Ok]
  okServe := by
    intro now o _ ok
    by_cases due : Due now o
    · rw [serve_due positive ok due]
      grind [Ok]
    · cases o with
      | none => grind [Due]
      | some b =>
        rw [serve_early ok (by grind [Due])]
        grind [Ok]
  fullNew := by simp [Due]
  fullLater later due b there := by grind [Due]
  fullStale := by
    intro now b _ stale c there
    obtain rfl : b = c := by simpa using there
    simp only [rateLimiter, decide_eq_true_eq] at stale
    omega
  serveFull _ ok ok' due due' := by
    rw [serve_due positive ok due, serve_due positive ok' due']; exact ⟨rfl, .inl rfl⟩

/-- What can be granted until some time. -/
def budget (r until_ now : Int) : Option Bucket → Int
  | none => r + r * ((until_ - now) / 1000000000)
  | some b =>
    if b.lastRefill + 1000000000 ≤ now then r + r * ((until_ - now) / 1000000000)
    else b.tokens + r * ((until_ - b.lastRefill) / 1000000000)

theorem budget_due (due : Due now o) :
    budget r until_ now o = r + r * ((until_ - now) / 1000000000) := by
  cases o with
  | none => rfl
  | some b => exact if_pos (due b rfl)

theorem budget_passes (positive : 1 ≤ r) (ok : Ok r now o) (passes : now ≤ later) :
    budget r until_ later o ≤ budget r until_ now o := by
  have fewer : (until_ - later) / 1000000000 ≤ (until_ - now) / 1000000000 := by omega
  have product : r * ((until_ - later) / 1000000000) ≤ r * ((until_ - now) / 1000000000) := by
    nlinarith
  cases o with
  | none => simpa [budget] using product
  | some b =>
    obtain ⟨tokens, -, -⟩ := ok b rfl
    by_cases due : b.lastRefill + 1000000000 ≤ now
    · simpa [budget, due, show b.lastRefill + 1000000000 ≤ later by omega] using product
    · by_cases later_ : b.lastRefill + 1000000000 ≤ later
      · have one : (until_ - later) / 1000000000 + 1 ≤ (until_ - b.lastRefill) / 1000000000 := by omega
        simp only [budget, due, later_, if_true, if_false]
        nlinarith
      · simp [budget, due, later_]

theorem spends (positive : 1 ≤ r) (until_ : Int) :
    Lawful.Spends (rateLimiter r) (Ok r) id until_ (budget r until_) where
  passes ok passes _ := budget_passes positive ok passes
  serves := by
    intro now o _ ok _
    by_cases due : Due now o
    · rw [serve_due positive ok due, budget_due due]
      simp [budget]
      omega
    · cases o with
      | none => grind [Due]
      | some b =>
        have early : ¬ b.lastRefill + 1000000000 ≤ now := by grind [Due]
        rw [serve_early ok (by omega)]
        by_cases some_ : 0 < b.tokens <;> simp [budget, early, some_]
        omega
  sweeps ok stale := Int.le_of_eq (budget_due ((lawful positive).fullStale ok stale)).symm
  left := by
    intro now o ok before
    have whole : 0 ≤ (until_ - now) / 1000000000 := by omega
    cases o with
    | none => simp only [budget]; nlinarith
    | some b =>
      obtain ⟨tokens, -, last⟩ := ok b rfl
      have whole' : 0 ≤ (until_ - b.lastRefill) / 1000000000 := by omega
      simp only [budget]
      split <;> nlinarith

end Bucket

open Bucket

/-- For every rate and every clock: the tokens stay within the rate; in a window of time at most the rate times the
    seconds and two more are granted; who asks a second after the last filling is allowed; and cleaning up is not seen. -/
theorem rateLimiter_sound {r : Int} (positive : 1 ≤ r) (start : Int) :
    (∀ calls, Since start calls →
      ∀ client b, buckets r calls client = some b → 0 ≤ b.tokens ∧ b.tokens ≤ r) ∧
    (∀ before during client, ∀ (since : Int) (length : Nat), Since start (before ++ during) →
      (∀ call ∈ during, since ≤ call.now ∧ call.now ≤ since + length) →
        (rateLimiter r).count id client (buckets r before) during ≤ r * (length / 1000000000 + 2)) ∧
    (∀ calls client now b, Since start (calls ++ [⟨now, .ask client ()⟩]) →
      buckets r calls client = some b →
      b.lastRefill + 1000000000 ≤ now → ((rateLimiter r).serve now (some b) ()).2 = true) ∧
    ∀ calls calls' : List (Timed GoString Unit), Since start calls → Since start calls' →
      calls.filter isAsk = calls'.filter isAsk →
      ((rateLimiter r).object.run (fun _ => none) calls).2.filterMap id =
        ((rateLimiter r).object.run (fun _ => none) calls').2.filterMap id := by
  have ok {calls : List (Timed GoString Unit)} (since : Since start calls) (client : GoString) :
      Ok r (clock start calls) (buckets r calls client) :=
        (lawful positive).ok_run since (fun _ => (lawful positive).okNew start) client
  refine ⟨fun calls since client b there =>
    ?_, fun before during client since length ordered inside => ?_,
    fun calls client now b ordered there due => ?_, fun calls calls' =>
      (lawful positive).answers_eq⟩
  · exact ((ok since client) b there).imp_right And.left
  · refine (lawful positive).count_window_le (spends positive _) ?_ ?_ client ordered inside
    · intro now o ok enters ends
      have fewer : (since + length - now) / 1000000000 ≤ length / 1000000000 := by omega
      cases o with
      | none => simp only [budget]; nlinarith
      | some b =>
        obtain ⟨-, tokens, -⟩ := ok b rfl
        simp only [budget]
        split
        · nlinarith
        · have fewer' : (since + length - b.lastRefill) / 1000000000 ≤ length / 1000000000 + 1 := by omega
          nlinarith
    · have whole : (0 : Int) ≤ length / 1000000000 := by omega
      nlinarith
  · obtain ⟨first, last⟩ := since_append.mp ordered
    have now_ := (lawful positive).okLater last.1 (ok first client)
    rw [there] at now_
    rw [serve_due positive now_ (by simpa [Due] using due)]

theorem rateLimiter_sound_two :
    (1 : Int) ≤ 2 ∧ (rateLimiter 2).count id [] (buckets 2 []) (List.replicate 3 ⟨0, .ask [] ()⟩) ≤
      2 * (((0 : Nat) : Int) / 1000000000 + 2) :=
  ⟨by decide, (rateLimiter_sound (by decide) 0).2.1 [] _ [] 0 0 (by simp [Since]) (by simp)⟩

end Portask.Auth
