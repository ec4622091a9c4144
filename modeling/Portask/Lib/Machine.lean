import Mathlib.Algebra.Ring.Nat
import Mathlib.Data.List.Basic
import Mathlib.Tactic.TypeStar

/-! # Labelled machines and sequential objects

A machine offers a partial step for every label. A label fixes everything the
environment chooses (which party moves, what it is given, whether a call to the
outside fails), so a run is a list of labels and an interleaving is nothing but
the order of that list. Restricting a machine keeps the steps that meet a
condition on the state before the step.

An object answers every operation. Two objects related step by step give the
same answers on every operation list within the budget the relation allows. A
value may be kept beside an object's state, a record of events for instance.
-/

namespace Portask.Lib

universe u v w

structure Machine (σ : Type u) (α : Type v) where
  next : σ → α → Option σ

/-- A record gets one more entry. -/
theorem forall_mem_concat {α : Type u} {P : α → Prop} {l : List α} {a}
    (old : ∀ x ∈ l, P x) (new : P a) : ∀ x ∈ l ++ [a], P x :=
  List.forall_mem_append.mpr ⟨old, List.forall_mem_singleton.mpr new⟩

theorem getElem?_concat_cases {α : Type u} {l : List α} {x a : α} {i : Nat}
    (found : (l ++ [x])[i]? = some a) :
    (i < l.length ∧ l[i]? = some a) ∨ (i = l.length ∧ a = x) := by
  rw [List.getElem?_append] at found
  split at found
  · next inside => exact .inl ⟨inside, found⟩
  · next past =>
      have within := (List.getElem?_eq_some_iff.mp found).1
      rw [List.length_singleton] at within
      exact .inr ⟨by omega, List.mem_singleton.mp (List.mem_of_getElem? found)⟩

/-- One party has moved, and the others are where they were. -/
theorem of_update {ι : Type u} {β : Type v} [DecidableEq ι] {f : ι → β} {i j new b}
    (found : Function.update f i new j = b) : (j = i ∧ new = b) ∨ (j ≠ i ∧ f j = b) := by
  by_cases here : j = i
  · subst here
    exact .inl ⟨rfl, by simpa using found⟩
  · exact .inr ⟨here, by simpa [here] using found⟩

/-- There is an outcome, and what is computed from it is known. -/
theorem exists_of_view {σ : Type u} {β : Type v} {outcome : Option σ} {P : σ → Prop}
    (view : σ → β) (seen : β)
    (computed : outcome.map view = some seen)
    (holds : ∀ s, outcome = some s → view s = seen → P s) : ∃ s, outcome = some s ∧ P s := by
  obtain ⟨s, ran, same⟩ := Option.map_eq_some_iff.mp computed
  exact ⟨s, ran, holds s ran same⟩

namespace Machine

variable {σ : Type u} {α : Type v} (m : Machine σ α)

def run : σ → List α → Option σ
  | s, [] => some s
  | s, a :: rest => (m.next s a).bind (run · rest)

@[simp] theorem run_nil (s : σ) : m.run s [] = some s := rfl

variable {s t : σ}

theorem run_cons :
    m.run s (a :: rest) = some t ↔ ∃ mid, m.next s a = some mid ∧ m.run mid rest = some t := by
  simp only [run, Option.bind_eq_some_iff]

theorem run_append (s : σ) (first later : List α) :
    m.run s (first ++ later) = (m.run s first).bind (m.run · later) := by
  induction first generalizing s with
  | nil => rfl
  | cons a rest ih =>
    rw [List.cons_append, run, run, Option.bind_assoc]
    exact Option.bind_congr fun mid _ => ih mid

variable {labels : List α}

/-- What every step with an admitted label keeps, every run of such steps keeps. -/
theorem run_invariant_of {P : σ → Prop} {ok : α → Prop}
    (keeps : ∀ s a t, ok a → P s → m.next s a = some t → P t)
    (every : ∀ a ∈ labels, ok a) (start : P s) (ran : m.run s labels = some t) : P t := by
  induction labels generalizing s with
  | nil =>
    obtain rfl : s = t := by simpa using ran
    exact start
  | cons a rest ih =>
    obtain ⟨mid, first, later⟩ := m.run_cons.mp ran
    exact ih (fun a inside => every a (List.mem_cons_of_mem _ inside))
      (keeps s a mid (every a List.mem_cons_self) start first) later

/-- What every step keeps, every run keeps. -/
theorem run_invariant {P : σ → Prop} (keeps : ∀ s a t, P s → m.next s a = some t → P t)
    (start : P s) (ran : m.run s labels = some t) : P t :=
  m.run_invariant_of (fun s a t _ => keeps s a t) (fun _ _ => trivial) start ran

/-- A machine whose steps are those of another one, seen through `view`, has its runs as well. -/
theorem run_view {τ : Type w} {m : Machine σ α} {n : Machine τ α} (view : τ → σ) {P : τ → Prop}
    {ok : α → Prop} (same : ∀ t a, ok a → P t → m.next (view t) a = (n.next t a).map view)
    (keeps : ∀ t a later, ok a → P t → n.next t a = some later → P later) {t : τ} (start : P t)
    (every : ∀ a ∈ labels, ok a) : m.run (view t) labels = (n.run t labels).map view := by
  induction labels generalizing t with
  | nil => rfl
  | cons a rest ih =>
    have first := every a List.mem_cons_self
    rw [run, run, same t a first start]
    cases moved : n.next t a with
    | none => rfl
    | some later =>
      exact ih (keeps t a later first start moved) fun a inside => every a (List.mem_cons_of_mem _ inside)

/-- Labels of one's own among labels of others: `Inv` counts one's own, and the others keep it. -/
theorem run_interleaved {mine ok : α → Prop} [DecidablePred mine] {Inv : Nat → σ → Prop}
    {own : List α}
    (stepOwn : ∀ i a s, own[i]? = some a → Inv i s → ∃ t, m.next s a = some t ∧ Inv (i + 1) t)
    (stepOther : ∀ i a s, ¬ mine a → ok a → Inv i s → ∃ t, m.next s a = some t ∧ Inv i t)
    (others : ∀ a ∈ labels, ¬ mine a → ok a)
    (filtered : labels.filter (fun a => mine a) = own.drop i)
    (start : Inv i s) :
    ∃ t, m.run s labels = some t ∧ Inv (i + (labels.filter fun a => mine a).length) t := by
  induction labels generalizing i s with
  | nil => exact ⟨s, rfl, start⟩
  | cons a rest ih =>
    have later : ∀ a ∈ rest, ¬ mine a → ok a :=
      fun a inside => others a (List.mem_cons_of_mem _ inside)
    by_cases here : mine a
    · rw [List.filter_cons_of_pos (by simpa using here)] at filtered ⊢
      have first : own[i]? = some a := by
        rw [← List.head?_drop, ← filtered, List.head?_cons]
      obtain ⟨mid, moved, next⟩ := stepOwn i a s first start
      have behind : rest.filter (fun a => mine a) = own.drop (i + 1) := by
        rw [← List.tail_drop, ← filtered, List.tail_cons]
      obtain ⟨t, ran, final⟩ := ih later behind next
      have count : i + (a :: rest.filter fun a => mine a).length = i + 1 + (rest.filter fun a => mine a).length := by
        rw [List.length_cons]
        omega
      exact ⟨t, m.run_cons.mpr ⟨mid, moved, ran⟩, count ▸ final⟩
    · rw [List.filter_cons_of_neg (by simpa using here)] at filtered ⊢
      obtain ⟨mid, moved, next⟩ := stepOther i a s here (others a List.mem_cons_self here) start
      obtain ⟨t, ran, final⟩ := ih later filtered next
      exact ⟨t, m.run_cons.mpr ⟨mid, moved, ran⟩, final⟩

/-- A run of steps that each lose weight is no longer than the weight it starts with. -/
theorem run_length_le {weight : σ → Nat} (ok : α → Prop)
    (falls : ∀ s a t, ok a → m.next s a = some t → weight t < weight s) (every : ∀ a ∈ labels, ok a)
    (ran : m.run s labels = some t) : labels.length ≤ weight s := by
  induction labels generalizing s with
  | nil => exact Nat.zero_le _
  | cons a rest ih =>
    obtain ⟨mid, first, later⟩ := m.run_cons.mp ran
    have shorter := ih (fun a inside => every a (List.mem_cons_of_mem _ inside)) later
    have lighter := falls s a mid (every a (List.mem_cons_self ..)) first
    rw [List.length_cons]
    omega

/-- The same machine, refusing every step that does not meet `ok`. -/
def restrict (ok : σ → α → Prop) [∀ s a, Decidable (ok s a)] : Machine σ α where
  next s a := if ok s a then m.next s a else none

theorem restrict_next [∀ s a, Decidable (ok s a)] :
    (m.restrict ok).next s a = some t ↔ ok s a ∧ m.next s a = some t := by
  simp only [restrict]
  split <;> simp [*]

end Machine

structure Object (σ : Type u) (ι : Type v) (ο : Type w) where
  apply : σ → ι → σ × ο

namespace Object

variable {σ : Type u} {ι : Type v} {ο : Type w}

/-- The state after a list of operations together with the answers, in order. -/
def run (object : Object σ ι ο) : σ → List ι → σ × List ο
  | s, [] => (s, [])
  | s, i :: rest =>
    let (mid, answer) := object.apply s i
    let (final, answers) := run object mid rest
    (final, answer :: answers)

@[simp] theorem run_nil (object : Object σ ι ο) (s : σ) : object.run s [] = (s, []) := rfl

theorem run_cons (object : Object σ ι ο) (s : σ) (i : ι) (rest : List ι) :
    object.run s (i :: rest) =
      ((object.run (object.apply s i).1 rest).1,
        (object.apply s i).2 :: (object.run (object.apply s i).1 rest).2) := rfl

/-- An object that answers from its state and keeps it. -/
def query (answer : σ → ι → ο) : Object σ ι ο := ⟨fun s i => (s, answer s i)⟩

theorem run_query (answer : σ → ι → ο) (s : σ) (ops : List ι) :
    (query answer).run s ops = (s, ops.map (answer s)) := by
  induction ops with
  | nil => rfl
  | cons i rest ih =>
    have kept : ((query answer).apply s i).1 = s := rfl
    rw [run_cons, kept, ih, List.map_cons, query]

theorem length_run (object : Object σ ι ο) (s : σ) (ops : List ι) :
    (object.run s ops).2.length = ops.length := by
  induction ops generalizing s with
  | nil => rfl
  | cons i rest ih => rw [run_cons, List.length_cons, List.length_cons, ih]

variable {object : Object σ ι ο} {s : σ} {P : σ → ι → Prop}

/-- What holds of every answer holds of the answers of a run. -/
theorem answers_of_forall (Q : ο → Prop) (every : ∀ s i, Q (object.apply s i).2) (s : σ)
    (ops : List ι) : ∀ answer ∈ (object.run s ops).2, Q answer := by
  induction ops generalizing s with
  | nil => simp
  | cons i rest ih =>
    rw [run_cons]
    exact List.forall_mem_cons.mpr ⟨every s i, ih _⟩

/-- Every operation of the list meets `P` in the state it is applied to. -/
def Along (object : Object σ ι ο) (P : σ → ι → Prop) : σ → List ι → Prop
  | _, [] => True
  | s, i :: rest => P s i ∧ Along object P (object.apply s i).1 rest

instance Along.decidable (object : Object σ ι ο) (P : σ → ι → Prop) [∀ s i, Decidable (P s i)] :
    ∀ s ops, Decidable (object.Along P s ops)
  | _, [] => .isTrue trivial
  | s, i :: rest =>
    have := Along.decidable object P (object.apply s i).1 rest
    inferInstanceAs (Decidable (P s i ∧ _))

theorem run_append (object : Object σ ι ο) (s : σ) (first later : List ι) :
    (object.run s (first ++ later)).1 = (object.run (object.run s first).1 later).1 := by
  induction first generalizing s with
  | nil => rfl
  | cons i rest ih => exact ih (object.apply s i).1

theorem answers_append (object : Object σ ι ο) (s : σ) (first later : List ι) :
    (object.run s (first ++ later)).2 = (object.run s first).2 ++
      (object.run (object.run s first).1 later).2 := by
  induction first generalizing s with
  | nil => rfl
  | cons i rest ih => rw [List.cons_append, run_cons, run_cons, ih, List.cons_append]

/-- A part of each answer that the operation alone decides. -/
theorem map_answers {key : ι → κ} (agree : ∀ s i, label (object.apply s i).2 = key i) (s : σ)
    (ops : List ι) : (object.run s ops).2.map label = ops.map key := by
  induction ops generalizing s with
  | nil => rfl
  | cons i rest ih => rw [run_cons, List.map_cons, List.map_cons, agree, ih]

theorem along_append :
    object.Along P s (first ++ later) ↔ object.Along P s first ∧
      object.Along P (object.run s first).1 later := by
  induction first generalizing s with
  | nil => simp [Along]
  | cons i rest ih => simp only [List.cons_append, Along, ih, and_assoc, run_cons]

variable {ops : List ι}

/-- What every operation that meets `ok` keeps, every list of such operations keeps. -/
theorem run_invariant {P : σ → Prop} (keeps : ∀ s i, P s → ok s i → P (object.apply s i).1)
    (start : P s) (along : object.Along ok s ops) : P (object.run s ops).1 := by
  induction ops generalizing s with
  | nil => exact start
  | cons i rest ih => exact ih (keeps s i start along.1) along.2

theorem along_of_invariant {P : σ → Prop}
    (keeps : ∀ s i, P s → ok s i → Q s i ∧ P (object.apply s i).1)
    (start : P s) (along : object.Along ok s ops) : object.Along Q s ops := by
  induction ops generalizing s with
  | nil => trivial
  | cons i rest ih =>
    obtain ⟨now, later⟩ := keeps s i start along.1
    exact ⟨now, ih later along.2⟩

theorem along_true (s : σ) (ops : List ι) : object.Along (fun _ _ => True) s ops := by
  induction ops generalizing s with
  | nil => trivial
  | cons i rest ih => exact ⟨trivial, ih _⟩

theorem along_of_forall {P : ι → Prop} (every : ∀ i ∈ ops, P i) (s : σ) :
    object.Along (fun _ i => P i) s ops := by
  induction ops generalizing s with
  | nil => trivial
  | cons i rest ih =>
    exact ⟨every i List.mem_cons_self,
      ih (fun later inside => every later (List.mem_cons_of_mem _ inside)) _⟩

/-- The object, with a value beside the state that follows its operations. -/
def tracking {τ : Type*} (object : Object σ ι ο) (track : σ → ι → τ → τ) : Object (σ × τ) ι ο where
  apply s i := (((object.apply s.1 i).1, track s.1 i s.2), (object.apply s.1 i).2)

theorem along_tracking {s : σ × τ} :
    (object.tracking track).Along (fun s i => P s.1 i) s ops ↔ object.Along P s.1 ops := by
  induction ops generalizing s with
  | nil => rfl
  | cons i rest ih => exact and_congr_right fun _ => ih

/-- The object, with a record of the events its operations are, newest first. -/
def recording {ε : Type*} (object : Object σ ι ο) (event : σ → ι → Option ε) :
    Object (σ × List ε) ι ο :=
  object.tracking fun s i record => (event s i).toList ++ record

/-- `Related n s t` relates two states from which operations of total cost at
most `n` may still follow. -/
theorem run_simulates {impl : Object σ ι ο} {spec : Object τ ι ο} {Related : Nat → σ → τ → Prop}
    (cost : ι → Nat) (step : ∀ n s t i, Related (cost i + n) s t →
      (impl.apply s i).2 = (spec.apply t i).2 ∧
        Related n (impl.apply s i).1 (spec.apply t i).1) (ops : List ι)
    (start : Related ((ops.map cost).sum + n) s t) :
    (impl.run s ops).2 = (spec.run t ops).2 ∧
      Related n (impl.run s ops).1 (spec.run t ops).1 := by
  induction ops generalizing s t with
  | nil => exact ⟨rfl, by simpa using start⟩
  | cons i rest ih =>
    have grouped : Related (cost i + ((rest.map cost).sum + n)) s t := by
      simpa only [List.map_cons, List.sum_cons, Nat.add_assoc] using start
    obtain ⟨answer, related⟩ := step _ s t i grouped
    obtain ⟨answers, final⟩ := ih related
    simp only [run_cons]
    exact ⟨by rw [answer, answers], final⟩

end Object

end Portask.Lib
