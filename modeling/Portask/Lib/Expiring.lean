import Portask.Lib.Machine

/-! # Entries that are dropped once they make no difference

A map of entries by key. An entry is made when its key is first asked for, changes with what it is asked
and with the time, and is dropped by a sweep when it has become stale. If an entry is stale only once it
behaves like a new one, the sweeps cannot be seen in the answers.
-/

namespace Portask.Lib

open Function

universe u v w x

structure Keeper (B : Type v) (Q : Type w) (A : Type x) where
  /-- What becomes of the entry, which may be missing, and the answer. -/
  serve : Int → Option B → Q → B × A
  stale : Int → B → Bool

inductive Visit (κ : Type u) (Q : Type w) where
  | ask (key : κ) (q : Q)
  | sweep

structure Timed (κ : Type u) (Q : Type w) where
  now : Int
  visit : Visit κ Q

namespace Keeper

variable {κ : Type u} {B : Type v} {Q : Type w} {A : Type x} [DecidableEq κ]

def object (k : Keeper B Q A) : Object (κ → Option B) (Timed κ Q) (Option A) where
  apply s call :=
    match call.visit with
    | .ask key q =>
      (update s key (some (k.serve call.now (s key) q).1), some (k.serve call.now (s key) q).2)
    | .sweep => (fun key => (s key).filter fun b => !k.stale call.now b, none)

@[simp] theorem apply_ask (k : Keeper B Q A) (s : κ → Option B) (now : Int) (key : κ) (q : Q) :
    k.object.apply s ⟨now, .ask key q⟩ =
      (update s key (some (k.serve now (s key) q).1), some (k.serve now (s key) q).2) := rfl

@[simp] theorem apply_sweep (k : Keeper B Q A) (s : κ → Option B) (now : Int) :
    k.object.apply s ⟨now, .sweep⟩ =
      (fun key => (s key).filter fun b => !k.stale now b, none) := rfl

/-- The clock does not go back. -/
def Since : Int → List (Timed κ Q) → Prop
  | _, [] => True
  | now, call :: rest => now ≤ call.now ∧ Since call.now rest

def clock : Int → List (Timed κ Q) → Int
  | now, [] => now
  | _, call :: rest => clock call.now rest

def isAsk (call : Timed κ Q) : Bool := call.visit matches .ask ..

/-- How many questions about a key are answered well. -/
def count (k : Keeper B Q A) (good : A → Bool) (key : κ) (s : κ → Option B)
    (calls : List (Timed κ Q)) : Nat :=
  (calls.zip (k.object.run s calls).2).countP fun served =>
    match served.1.visit, served.2 with
    | .ask asked _, some answer => asked = key && good answer
    | _, _ => false

/-- `Ok now` holds of every entry at that time, and an entry that is `Full now` is as good as a new one. -/
structure Lawful (k : Keeper B Q A) (Ok Full : Int → Option B → Prop) : Prop where
  okNew : ∀ now, Ok now none
  okLater : ∀ {now later o}, now ≤ later → Ok now o → Ok later o
  okServe : ∀ {now o} q, Ok now o → Ok now (some (k.serve now o q).1)
  fullNew : ∀ now, Full now none
  fullLater : ∀ {now later o}, now ≤ later → Full now o → Full later o
  fullStale : ∀ {now b}, Ok now (some b) → k.stale now b = true → Full now (some b)
  serveFull : ∀ {now o o'} q, Ok now o → Ok now o' → Full now o → Full now o' →
    (k.serve now o q).2 = (k.serve now o' q).2 ∧
      ((k.serve now o q).1 = (k.serve now o' q).1 ∨
        Full now (some (k.serve now o q).1) ∧ Full now (some (k.serve now o' q).1))

variable {k : Keeper B Q A} {s t : κ → Option B} {now : Int} {calls : List (Timed κ Q)}

omit [DecidableEq κ] in
theorem since_append {first later : List (Timed κ Q)} :
    Since now (first ++ later) ↔ Since now first ∧ Since (clock now first) later := by
  induction first generalizing now with
  | nil => simp [Since, clock]
  | cons call rest ih => simp [Since, clock, ih, and_assoc]

namespace Lawful

variable {Ok Full : Int → Option B → Prop}

theorem ok_apply (lawful : k.Lawful Ok Full) (call : Timed κ Q) (later : now ≤ call.now)
    (ok : ∀ key, Ok now (s key)) : ∀ key, Ok call.now ((k.object.apply s call).1 key) := by
  obtain ⟨time, visit⟩ := call
  intro key
  have mine := lawful.okLater later (ok key)
  cases visit with
  | ask asked q =>
    by_cases here : key = asked
    · subst here
      simpa using lawful.okServe q mine
    · simpa [update_of_ne here] using mine
  | sweep =>
    cases there : s key with
    | none => simpa [there] using lawful.okNew time
    | some b =>
      rw [there] at mine
      cases stale : k.stale time b with
      | true => simpa [there, Option.filter, stale] using lawful.okNew time
      | false => simpa [there, Option.filter, stale] using mine

theorem ok_run (lawful : k.Lawful Ok Full) (since : Since now calls) (ok : ∀ key, Ok now (s key)) :
    ∀ key, Ok (clock now calls) ((k.object.run s calls).1 key) := by
  induction calls generalizing now s with
  | nil => exact ok
  | cons call rest ih => exact ih since.2 (lawful.ok_apply call since.1 ok)

/-- The same entry, or two that are as good as new. -/
def Alike (Full : Int → Option B → Prop) (now : Int) (o o' : Option B) : Prop :=
  o = o' ∨ Full now o ∧ Full now o'

/-- The answers are those that are given without the sweeps. -/
theorem answers_without_sweeps (lawful : k.Lawful Ok Full) (since : Since now calls)
    (ok : ∀ key, Ok now (s key))
    (ok' : ∀ key, Ok now (t key)) (alike : ∀ key, Alike Full now (s key) (t key)) :
    (k.object.run s calls).2.filterMap id =
      (k.object.run t (calls.filter isAsk)).2.filterMap id := by
  induction calls generalizing now s t with
  | nil => rfl
  | cons call rest ih =>
    obtain ⟨time, visit⟩ := call
    obtain ⟨before, since⟩ := since
    have here : ∀ key, Alike Full time (s key) (t key) := fun key =>
      (alike key).imp_right fun full => ⟨lawful.fullLater before full.1, lawful.fullLater before full.2⟩
    have after := lawful.ok_apply ⟨time, visit⟩ before ok
    cases visit with
    | sweep =>
      refine (ih since after (fun key => lawful.okLater before (ok' key)) fun key => ?_)
      have own := here key
      show Alike Full time ((s key).filter fun b => !k.stale time b) (t key)
      cases there : s key with
      | none => simpa [there] using own
      | some b =>
        cases stale : k.stale time b with
        | false => simpa [Option.filter, stale, there] using own
        | true =>
          have full := lawful.fullStale (there ▸ lawful.okLater before (ok key)) stale
          rw [Option.filter_some, stale]
          exact .inr ⟨lawful.fullNew time, own.elim (fun same => same ▸ there ▸ full) And.right⟩
    | ask key q =>
      have after' := lawful.ok_apply ⟨time, .ask key q⟩ before ok'
      have mine := lawful.okLater before (ok key)
      have mine' := lawful.okLater before (ok' key)
      obtain ⟨answer, next⟩ : (k.serve time (s key) q).2 = (k.serve time (t key) q).2 ∧
          Alike Full time (some (k.serve time (s key) q).1) (some (k.serve time (t key) q).1) := by
        rcases here key with same | ⟨full, full'⟩
        · rw [same]
          exact ⟨rfl, .inl rfl⟩
        · exact (lawful.serveFull q mine mine' full full').imp_right (.imp_left (congrArg some))
      have step := ih since after after' fun other => by
        by_cases same : other = key
        · subst same
          simpa using next
        · simpa [update_of_ne same] using here other
      exact congrArg₂ List.cons answer step

/-- Two runs that differ in their sweeps only give the same answers. -/
theorem answers_eq (lawful : k.Lawful Ok Full) (since : Since now calls) (since' : Since now calls')
    (same : calls.filter isAsk = calls'.filter isAsk) :
    (k.object.run (fun _ => none) calls).2.filterMap id =
      (k.object.run (fun _ => none) calls').2.filterMap id := by
  have none : ∀ _ : κ, Ok now none := fun _ => lawful.okNew now
  rw [lawful.answers_without_sweeps since none none fun _ => .inl rfl, same,
    ← lawful.answers_without_sweeps since' none none fun _ => .inl rfl]

/-- A good answer costs one, and time and sweeps give nothing. -/
structure Spends (k : Keeper B Q A) (Ok : Int → Option B → Prop) (good : A → Bool) (until_ : Int)
    (budget : Int → Option B → Int) : Prop where
  passes : ∀ {now later o}, Ok now o → now ≤ later → later ≤ until_ → budget later o ≤ budget now o
  serves : ∀ {now o} q, Ok now o → now ≤ until_ →
    (good (k.serve now o q).2).toNat + budget now (some (k.serve now o q).1) ≤ budget now o
  sweeps : ∀ {now b}, Ok now (some b) → k.stale now b = true → budget now none ≤ budget now (some b)
  left : ∀ {now o}, Ok now o → now ≤ until_ → 0 ≤ budget now o

variable {good : A → Bool} {from_ until_ bound : Int} {budget : Int → Option B → Int}

/-- There are no more good answers than there is to spend. -/
theorem count_le (lawful : k.Lawful Ok Full) (spends : Spends k Ok good until_ budget) (key : κ)
    (since : Since now calls)
    (start : now ≤ until_) (inside : ∀ call ∈ calls, call.now ≤ until_)
    (ok : ∀ key, Ok now (s key)) : k.count good key s calls ≤ budget now (s key) := by
  induction calls generalizing now s with
  | nil => simpa [count] using spends.left (ok key) start
  | cons call rest ih =>
    obtain ⟨moment, visit⟩ := call
    obtain ⟨before, since⟩ := since
    have time : moment ≤ until_ := inside _ List.mem_cons_self
    have passed : budget moment (s key) ≤ budget now (s key) := spends.passes (ok key) before time
    have mine : Ok moment (s key) := lawful.okLater before (ok key)
    have step := ih since time (fun call later => inside call (List.mem_cons_of_mem _ later))
      (lawful.ok_apply ⟨moment, visit⟩ before ok)
    simp only [count, Object.run_cons, List.zip_cons_cons, List.countP_cons] at step ⊢
    cases visit with
    | sweep =>
      have swept : budget moment ((s key).filter fun b => !k.stale moment b) ≤ budget moment (s key) := by
        cases there : s key with
        | none => simp
        | some b =>
          cases stale : k.stale moment b with
          | false => simp [Option.filter, stale]
          | true => simpa [Option.filter, stale] using spends.sweeps (there ▸ mine) stale
      simp only [apply_sweep, Bool.false_eq_true, if_false] at step ⊢
      omega
    | ask asked q =>
      by_cases same : asked = key
      · subst same
        have served := spends.serves q mine time
        simp only [apply_ask, update_self] at step ⊢
        cases answer : good (k.serve moment (s asked) q).2 <;> simp [answer] at served ⊢ <;> omega
      · simp only [apply_ask, update_of_ne (Ne.symm same)] at step ⊢
        simp only [same, decide_false, Bool.false_and, Bool.false_eq_true, if_false]
        omega

/-- The same for a part of a run that lies within a window of time. -/
theorem count_window_le (lawful : k.Lawful Ok Full) (spends : Spends k Ok good until_ budget)
    (fits : ∀ {now o}, Ok now o → from_ ≤ now → now ≤ until_ → budget now o ≤ bound)
    (positive : 0 ≤ bound) (key : κ)
    {before during : List (Timed κ Q)} (since : Since now (before ++ during))
    (inside : ∀ call ∈ during, from_ ≤ call.now ∧ call.now ≤ until_) :
    k.count good key (k.object.run (fun _ => none) before).1 during ≤ bound := by
  obtain ⟨first, later⟩ := since_append.mp since
  have ok := lawful.ok_run first fun _ : κ => lawful.okNew now
  cases during with
  | nil => simpa [count] using positive
  | cons call rest =>
    obtain ⟨enters, ends⟩ := inside call List.mem_cons_self
    have ok' := fun key => lawful.okLater later.1 (ok key)
    exact Int.le_trans (lawful.count_le spends key ⟨Int.le_refl _, later.2⟩ ends
      (fun call there => (inside call there).2) ok') (fits (ok' key) enters ends)

end Lawful

end Keeper

end Portask.Lib
