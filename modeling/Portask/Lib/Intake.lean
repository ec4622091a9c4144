import Mathlib.Data.List.Nodup
import Portask.Lib.Machine

/-! # Calls that enter lanes

Callers hand in messages, one message a call. Every call gets a number when it begins.
Some calls enter one of several lanes with their message and then return without an
error, the others return an error and enter nothing. The intake is the record of all
that: which calls entered which lane, in order, and what the calls have returned.
-/

namespace Portask.Lib

open Function

structure Entry (ι M : Type) where
  call : Nat
  message : M
  lane : ι

structure Return (ε M : Type) where
  call : Nat
  message : M
  err : Option ε

structure Intake (ι ε M : Type) where
  calls : Nat := 0
  entries : List (Entry ι M) := []
  returns : List (Return ε M) := []

/-- How far a caller is with its call. -/
inductive Hold (M : Type) where
  | none
  | unsent (call : Nat) (message : M)
  | sent (call : Nat) (message : M)

namespace Intake

variable {T ι ε M : Type}

section

variable (log : Intake ι ε M)

def begin : Intake ι ε M := { log with calls := log.calls + 1 }

variable (call : Nat)

def enter (message : M) (lane : ι) : Intake ι ε M :=
  { log with entries := log.entries ++ [⟨call, message, lane⟩] }

def finish (message : M) (err : Option ε) : Intake ι ε M :=
  { log with returns := log.returns ++ [⟨call, message, err⟩] }

def entered : Prop := ∃ e ∈ log.entries, e.call = call

def returned : Prop := ∃ r ∈ log.returns, r.call = call

end

/-- The messages that entered a lane, in order. -/
def lane [DecidableEq ι] (log : Intake ι ε M) (i : ι) : List M :=
  (log.entries.filter (fun e => e.lane = i)).map Entry.message

section

variable [DecidableEq ι]

@[simp] theorem lane_enter (log : Intake ι ε M) (call : Nat) (m : M) (i j : ι) :
    (log.enter call m i).lane j = log.lane j ++ if i = j then [m] else [] := by
  by_cases here : i = j <;> simp [lane, enter, List.filter_append, here]

end

/-- The record agrees with what the callers hold: no call enters twice, a call that has
    returned no error has entered with its message, and one that has returned an error
    has not entered. -/
structure Sound (log : Intake ι ε M) (hold : T → Hold M) : Prop where
  unsent : ∀ t c m, hold t = .unsent c m → c < log.calls ∧ ¬ log.entered c ∧ ¬ log.returned c
  own : ∀ t t' c m m', hold t = .unsent c m → hold t' = .unsent c m' → t = t'
  sent : ∀ t c m, hold t = .sent c m → c < log.calls ∧ ∃ e ∈ log.entries, e.call = c ∧ e.message = m
  bound : ∀ c, log.entered c ∨ log.returned c → c < log.calls
  once : (log.entries.map Entry.call).Nodup
  accepted : ∀ r ∈ log.returns, r.err.isNone = true →
    ∃ e ∈ log.entries, e.call = r.call ∧ e.message = r.message
  refused : ∀ r ∈ log.returns, r.err.isSome = true → ¬ log.entered r.call

namespace Sound

variable {log : Intake ι ε M} {hold hold' : T → Hold M}

theorem fresh : Sound ({} : Intake ι ε M) (fun _ : T => .none) where
  unsent _ _ _ held := nomatch held
  own _ _ _ _ _ held := nomatch held
  sent _ _ _ held := nomatch held
  bound c either := by simp [entered, returned] at either
  once := List.nodup_nil
  accepted r inside := absurd inside List.not_mem_nil
  refused r inside := absurd inside List.not_mem_nil

theorem keep (sound : log.Sound hold) (same : ∀ t, hold' t = hold t) : log.Sound hold' := by
  rwa [show hold' = hold from funext same]

variable [DecidableEq T]

theorem begin (sound : log.Sound hold) (t : T) (m : M) :
    log.begin.Sound (update hold t (.unsent log.calls m)) := by
  have below {t' : T} {c : Nat} {m' : M} (held : hold t' = .unsent c m') : c ≠ log.calls :=
    Nat.ne_of_lt (sound.unsent t' c m' held).1
  constructor
  case unsent =>
    intro t' c m' held
    obtain ⟨rfl, ⟨⟩⟩ | ⟨-, held⟩ := of_update held
    · exact ⟨Nat.lt_succ_self _, fun entered => Nat.lt_irrefl _ (sound.bound _ (.inl entered)),
        fun returned => Nat.lt_irrefl _ (sound.bound _ (.inr returned))⟩
    · exact ⟨Nat.lt_succ_of_lt (sound.unsent t' c m' held).1, (sound.unsent t' c m' held).2⟩
  case own =>
    intro t₁ t₂ c m₁ m₂ held₁ held₂
    obtain ⟨here₁, ⟨⟩⟩ | ⟨-, held₁⟩ := of_update held₁ <;> obtain ⟨here₂, ⟨⟩⟩ | ⟨-, held₂⟩ :=
      of_update held₂
    · rw [here₁, here₂]
    · exact absurd rfl (below held₂)
    · exact absurd rfl (below held₁)
    · exact sound.own t₁ t₂ c m₁ m₂ held₁ held₂
  case sent =>
    intro t' c m' held
    obtain ⟨-, ⟨⟩⟩ | ⟨-, held⟩ := of_update held
    exact ⟨Nat.lt_succ_of_lt (sound.sent t' c m' held).1, (sound.sent t' c m' held).2⟩
  case bound => exact fun c either => Nat.lt_succ_of_lt (sound.bound c either)
  case once => exact sound.once
  case accepted => exact sound.accepted
  case refused => exact sound.refused

variable {c : Nat} {t : T} {m : M}

/-- The caller `t` no longer holds an unsent call. -/
theorem elsewhere (held : update hold t now t' = .unsent c m')
    (sent : ∀ c m, now ≠ .unsent c m) : t' ≠ t ∧ hold t' = .unsent c m' := by
  exact (of_update held).resolve_left fun mine => sent c m' mine.2

variable (sound : log.Sound hold)
include sound

theorem enter (held : hold t = .unsent c m) (i : ι) :
    (log.enter c m i).Sound (update hold t (.sent c m)) := by
  obtain ⟨issued, not_entered, not_returned⟩ := sound.unsent t c m held
  have entered_cases {c' : Nat} (now : (log.enter c m i).entered c') : log.entered c' ∨ c' = c := by
    obtain ⟨e, inside, rfl⟩ := now
    obtain before | here := List.mem_append.mp inside
    · exact .inl ⟨e, before, rfl⟩
    · rw [List.mem_singleton.mp here]
      exact .inr rfl
  constructor
  case unsent =>
    intro t' c' m' held'
    obtain ⟨other, before⟩ := elsewhere held' (by simp)
    obtain ⟨issued', not_entered', not_returned'⟩ := sound.unsent t' c' m' before
    refine ⟨issued', fun now => ?_, not_returned'⟩
    obtain entered | rfl := entered_cases now
    · exact not_entered' entered
    · exact other (sound.own t' t c' m' m before held)
  case own =>
    intro t₁ t₂ c' m₁ m₂ held₁ held₂
    exact sound.own t₁ t₂ c' m₁ m₂ (elsewhere held₁ (by simp)).2 (elsewhere held₂ (by simp)).2
  case sent =>
    intro t' c' m' held'
    obtain ⟨rfl, ⟨⟩⟩ | ⟨-, held'⟩ := of_update held'
    · exact ⟨issued, ⟨c, m, i⟩, List.mem_append_right _ (List.mem_singleton_self _), rfl, rfl⟩
    · obtain ⟨issued', e, inside, same⟩ := sound.sent t' c' m' held'
      exact ⟨issued', e, List.mem_append_left _ inside, same⟩
  case bound =>
    intro c' either
    obtain now | returned := either
    · obtain entered | rfl := entered_cases now
      · exact sound.bound c' (.inl entered)
      · exact issued
    · exact sound.bound c' (.inr returned)
  case once =>
    have single := List.nodup_singleton c
    simp only [Intake.enter, List.map_append, List.map_cons, List.map_nil]
    refine List.nodup_append.mpr ⟨sound.once, single, ?_⟩
    rintro _ first _ second rfl
    obtain ⟨e, inside, same⟩ := List.mem_map.mp first
    rw [List.mem_singleton.mp second] at same
    exact not_entered ⟨e, inside, same⟩
  case accepted =>
    intro r inside noError
    obtain ⟨e, entered, same⟩ := sound.accepted r inside noError
    exact ⟨e, List.mem_append_left _ entered, same⟩
  case refused =>
    intro r inside failed now
    obtain entered | same := entered_cases now
    · exact sound.refused r inside failed entered
    · exact not_returned ⟨r, inside, same⟩

/-- A caller that is through with its call, whether it has entered or not. -/
theorem finish (issued : c < log.calls) (alone : ∀ t' m', hold t' = .unsent c m' → t' = t)
    (accepted : err.isNone = true → ∃ e ∈ log.entries, e.call = c ∧ e.message = m)
    (refused : err.isSome = true → ¬ log.entered c) :
    (log.finish c m err).Sound (update hold t .none) := by
  have return_cases {r : Return ε M} (inside : r ∈ (log.finish c m err).returns) :
      r ∈ log.returns ∨ r = ⟨c, m, err⟩ := by
    obtain before | here := List.mem_append.mp inside
    · exact .inl before
    · exact .inr (List.mem_singleton.mp here)
  constructor
  case unsent =>
    intro t' c' m' held'
    obtain ⟨other, before⟩ := elsewhere held' (by simp)
    obtain ⟨issued', not_entered, not_returned⟩ := sound.unsent t' c' m' before
    refine ⟨issued', not_entered, fun ⟨r, inside, same⟩ => ?_⟩
    obtain before' | rfl := return_cases inside
    · exact not_returned ⟨r, before', same⟩
    · obtain rfl : c = c' := same
      exact other (alone t' m' before)
  case own =>
    intro t₁ t₂ c' m₁ m₂ held₁ held₂
    exact sound.own t₁ t₂ c' m₁ m₂ (elsewhere held₁ (by simp)).2 (elsewhere held₂ (by simp)).2
  case sent =>
    intro t' c' m' held'
    obtain ⟨-, ⟨⟩⟩ | ⟨-, held'⟩ := of_update held'
    exact sound.sent t' c' m' held'
  case bound =>
    intro c' either
    obtain entered | ⟨r, inside, same⟩ := either
    · exact sound.bound c' (.inl entered)
    · obtain before | rfl := return_cases inside
      · exact sound.bound c' (.inr ⟨r, before, same⟩)
      · obtain rfl : c = c' := same
        exact issued
  case once => exact sound.once
  case accepted => exact forall_mem_concat sound.accepted accepted
  case refused => exact forall_mem_concat sound.refused refused

theorem refuse (held : hold t = .unsent c m) (err : ε) :
    (log.finish c m (some err)).Sound (update hold t .none) := by
  obtain ⟨issued, not_entered, -⟩ := sound.unsent t c m held
  exact sound.finish issued (fun t' m' held' => sound.own t' t c m' m held' held) (by simp)
    (fun _ => not_entered)

theorem accept (held : hold t = .sent c m) : (log.finish c m none).Sound (update hold t .none) := by
  obtain ⟨issued, e, inside, same, message⟩ := sound.sent t c m held
  refine sound.finish issued (fun t' m' held' => ?_) (fun _ => ⟨e, inside, same, message⟩) (by simp)
  exact absurd ⟨e, inside, same⟩ (sound.unsent t' c m' held').2.1

end Sound

/-- The callers run a program: `hold` says how far a point of it is with its call, and
    `Aimed` what is known there of the lane to enter. All entries are in a right lane for
    their message. -/
structure Tracked {P : Type} (hold : P → Hold M) (Aimed : P → Prop) (Right : M → ι → Prop)
    (log : Intake ι ε M) (pc : T → P) : Prop where
  sound : log.Sound (fun t => hold (pc t))
  aimed : ∀ t, Aimed (pc t)
  lanes : ∀ e ∈ log.entries, Right e.message e.lane

namespace Tracked

variable {P : Type} {hold : P → Hold M} {Aimed : P → Prop} {Right : M → ι → Prop}
  {log log' : Intake ι ε M} {pc : T → P}

theorem fresh (idle : hold start = .none) (aim : Aimed start) :
    Tracked hold Aimed Right ({} : Intake ι ε M) (fun _ : T => start) where
  sound := Sound.fresh.keep (fun _ => idle)
  aimed _ := aim
  lanes _ inside := absurd inside List.not_mem_nil

/-- What is known at the point where a caller is. -/
theorem aimed_of (tracked : Tracked hold Aimed Right log pc) (here : pc t = p) : Aimed p :=
  here ▸ tracked.aimed t

variable [DecidableEq T] {t : T} {c : Nat} {m : M}

variable (tracked : Tracked hold Aimed Right log pc)
include tracked

variable (p : P)

/-- One caller goes on, and the record with it. -/
theorem move (aim : Aimed p) (sound : log'.Sound (update (fun t => hold (pc t)) t (hold p)))
    (lanes : ∀ e ∈ log'.entries, Right e.message e.lane) :
    Tracked hold Aimed Right log' (update pc t p) where
  sound := by
    have held : (fun x => hold (update pc t p x)) = update (fun x => hold (pc x)) t (hold p) :=
      Function.comp_update hold pc t p
    rw [held]
    exact sound
  aimed :=
    (Function.forall_update_iff pc (p := fun _ p => Aimed p)).mpr ⟨aim, fun t _ => tracked.aimed t⟩
  lanes := lanes

theorem turn (same : hold p = hold (pc t)) (aim : Aimed p) :
    Tracked hold Aimed Right log (update pc t p) := by
  refine tracked.move p aim ?_ tracked.lanes
  rw [same, update_eq_self]
  exact tracked.sound

theorem begin (fresh : hold p = .unsent log.calls m)
    (aim : Aimed p) : Tracked hold Aimed Right log.begin (update pc t p) :=
  tracked.move p aim (fresh ▸ tracked.sound.begin t m) tracked.lanes

theorem enter (held : hold (pc t) = .unsent c m)
    (now : hold p = .sent c m) (aim : Aimed p) (right : Right m i) :
    Tracked hold Aimed Right (log.enter c m i) (update pc t p) :=
  tracked.move p aim (now ▸ tracked.sound.enter held i) (forall_mem_concat tracked.lanes right)

theorem refuse (held : hold (pc t) = .unsent c m)
    (done : hold p = .none) (aim : Aimed p) (err : ε) :
    Tracked hold Aimed Right (log.finish c m (some err)) (update pc t p) :=
  tracked.move p aim (done ▸ tracked.sound.refuse held err) tracked.lanes

theorem accept (held : hold (pc t) = .sent c m) (done : hold p = .none) (aim : Aimed p) :
    Tracked hold Aimed Right (log.finish c m none) (update pc t p) :=
  tracked.move p aim (done ▸ tracked.sound.accept held) tracked.lanes

end Tracked

/-- Nobody is sending, and whoever would begin has to find the door open or a sender there. -/
theorem silent_update {P : Type} [DecidableEq T] {sending : P → Bool} {pc : T → P}
    {running : Bool} {p : P} (stopped : running = false) (silent : ∀ t, sending (pc t) = false)
    (quiet : sending p = true → running = true ∨ ∃ t, sending (pc t) = true) (x : T) :
    ∀ t, sending (update pc x p t) = false := by
  have silent_now : sending p = false := by
    by_contra sends
    obtain open_ | ⟨t, sends'⟩ := quiet (by simpa using sends)
    · simp [stopped] at open_
    · simp [silent t] at sends'
  exact (Function.forall_update_iff pc (p := fun _ p => sending p = false)).mpr
    ⟨silent_now, fun t _ => silent t⟩

end Intake

end Portask.Lib
