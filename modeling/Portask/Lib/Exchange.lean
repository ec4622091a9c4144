import Portask.Lib.Machine
import Portask.Lib.Wire

/-! # Programs that read a request and write a response

A handler reads the bytes of a request from the front, appends to a response and works on a
state. It may panic, and keeps what it has done until then. Its rules come in three kinds: a
handler on the encoding of a value, for round trips; a handler on any bytes that is safe unless
it reads something bad; and a handler whose effect is that of the entries it reads.
-/

namespace Portask.Lib

structure Exchange (σ : Type) where
  request : List UInt8
  response : List UInt8
  state : σ

/-- No result is a panic. -/
def Handler (σ α : Type) := Exchange σ → Option α × Exchange σ

namespace Handler

variable {σ α β : Type} {body : Handler σ Unit}

instance : Monad (Handler σ) where
  pure a := fun x => (some a, x)
  bind m f := fun x =>
    match m x with
    | (some a, y) => f a y
    | (none, y) => (none, y)

def reading (r : Reader α) : Handler σ α :=
  fun x => (some (r x.request).1, { x with request := (r x.request).2 })

def write (bytes : List UInt8) : Handler σ Unit :=
  fun x => (some (), { x with response := x.response ++ bytes })

def act (f : σ → σ × α) : Handler σ α :=
  fun x => (some (f x.state).2, { x with state := (f x.state).1 })

def crash : Handler σ α := fun x => (none, x)

def times : Nat → Handler σ Unit → Handler σ Unit
  | 0, _ => pure ()
  | n + 1, body => do
      body
      times n body

def collect : Nat → Handler σ α → Handler σ (List α)
  | 0, _ => pure []
  | n + 1, m => do
      let a ← m
      let others ← collect n m
      return a :: others

def respond (m : Handler σ Unit) (s : σ) (request : List UInt8) : σ × Option (List UInt8) :=
  let result := m ⟨request, [], s⟩
  (result.2.state, result.1.map fun _ => result.2.response)

theorem respond_eq_none {m : Handler σ Unit} :
    (m.respond s request).2 = none ↔ (m ⟨request, [], s⟩).1 = none := Option.map_eq_none_iff

@[simp] theorem run_pure (a : α) (x : Exchange σ) : (pure a : Handler σ α) x = (some a, x) := rfl

@[simp] theorem run_bind (m : Handler σ α) (f : α → Handler σ β) (x : Exchange σ) :
    (m >>= f) x = (m x).1.elim (none, (m x).2) fun a => f a (m x).2 := by
  show (match m x with
    | (some a, y) => f a y
    | (none, y) => (none, y)) = _
  rcases m x with ⟨_ | a, y⟩
  · rfl
  · rfl

/-- One step of a handler whose outcome is known. -/
theorem bind_of_run (ran : m x = (some a, y)) (f : α → Handler σ β) : (m >>= f) x = f a y := by
  rw [run_bind, ran, Option.elim_some]

@[simp] theorem run_reading (r : Reader α) (bs out : List UInt8) (s : σ) :
    reading r ⟨bs, out, s⟩ = (some (r bs).1, ⟨(r bs).2, out, s⟩) := rfl

@[simp] theorem run_write (bytes bs out : List UInt8) (s : σ) :
    write bytes ⟨bs, out, s⟩ = (some (), ⟨bs, out ++ bytes, s⟩) := rfl

@[simp] theorem run_act (f : σ → σ × α) (bs out : List UInt8) (s : σ) :
    act f ⟨bs, out, s⟩ = (some (f s).2, ⟨bs, out, (f s).1⟩) := rfl

@[simp] theorem run_crash (x : Exchange σ) : (crash : Handler σ α) x = (none, x) := rfl

/-- A loop over values that are encoded one after the other, each of which is answered. -/
theorem run_times {ι ο : Type} {c : Codec ι} {reply : ο → List UInt8} {server : Object σ ι ο}
    {body : Handler σ Unit}
    (round : ∀ i, c.Valid i → ∀ rest out s, body ⟨c.encode i ++ rest, out, s⟩ =
      (some (), ⟨rest, out ++ reply (server.apply s i).2, (server.apply s i).1⟩))
    {items : List ι} (valid : ∀ i ∈ items, c.Valid i) (rest out : List UInt8) (s : σ) :
    times items.length body ⟨items.flatMap c.encode ++ rest, out, s⟩ =
      (some (), ⟨rest, out ++ (server.run s items).2.flatMap reply, (server.run s items).1⟩) := by
  induction items generalizing out s with
  | nil => simp [times]
  | cons i items ih =>
    have first := round i (valid i List.mem_cons_self) (items.flatMap c.encode ++ rest) out s
    have later := ih fun j inside => valid j (List.mem_cons_of_mem _ inside)
    rw [List.length_cons, times, List.flatMap_cons, List.append_assoc, bind_of_run first, later,
      Object.run_cons, List.flatMap_cons, List.append_assoc]

/-- A loop over encoded values that only changes the state. -/
theorem run_times_foldl {ι : Type} {c : Codec ι} {step : σ → ι → σ} {body : Handler σ Unit}
    (round : ∀ i, c.Valid i →
      ∀ rest out s, body ⟨c.encode i ++ rest, out, s⟩ = (some (), ⟨rest, out, step s i⟩))
    {items : List ι} (valid : ∀ i ∈ items, c.Valid i) (rest out : List UInt8) (s : σ) :
    times items.length body ⟨items.flatMap c.encode ++ rest, out, s⟩ =
      (some (), ⟨rest, out, items.foldl step s⟩) := by
  induction items generalizing s with
  | nil => rfl
  | cons i items ih =>
    have first := round i (valid i List.mem_cons_self) (items.flatMap c.encode ++ rest) out s
    have later := ih fun j inside => valid j (List.mem_cons_of_mem _ inside)
    rw [List.length_cons, times, List.flatMap_cons, List.append_assoc, bind_of_run first, later,
      List.foldl_cons]

/-- The handler reads as `r` does and panics if and only if what it reads is bad. -/
def Guards (m : Handler σ Unit) (r : Reader α) (bad : α → Prop) (keeps : σ → Prop) : Prop :=
  ∀ bs out s, keeps s →
    bad (r bs).1 ∧ (m ⟨bs, out, s⟩).1 = none ∨
      ¬ bad (r bs).1 ∧ ∃ out' s', m ⟨bs, out, s⟩ = (some (), ⟨(r bs).2, out', s'⟩) ∧ keeps s'

end Handler

def readMany {α : Type} (r : Reader α) : Nat → Reader (List α)
  | 0, bs => ([], bs)
  | n + 1, bs => ((r bs).1 :: (readMany r n (r bs).2).1, (readMany r n (r bs).2).2)

namespace Handler

variable {σ α β : Type}

variable {m : Handler σ Unit} {keeps : σ → Prop} {r : Reader α}

theorem Guards.times (guards : Guards m r bad keeps) (n : Nat) :
    Guards (times n m) (readMany r n) (fun l => ∃ a ∈ l, bad a) keeps := by
  induction n with
  | zero =>
    intro bs out s kept
    exact .inr ⟨by simp [readMany], out, s, rfl, kept⟩
  | succ n ih =>
    intro bs out s kept
    rw [Handler.times, run_bind, readMany]
    obtain ⟨now, panics⟩ | ⟨fine, out', s', first, kept'⟩ := guards bs out s kept
    · exact .inl ⟨⟨_, List.mem_cons_self, now⟩, by rw [panics, Option.elim_none]⟩
    · rw [first]
      obtain ⟨⟨a, inside, later⟩, panics⟩ | ⟨rest, found⟩ := ih (r bs).2 out' s' kept'
      · exact .inl ⟨⟨a, List.mem_cons_of_mem _ inside, later⟩, panics⟩
      · refine .inr ⟨?_, found⟩
        rintro ⟨a, inside, wrong⟩
        obtain rfl | inside := List.mem_cons.mp inside
        · exact fine wrong
        · exact rest ⟨a, inside, wrong⟩

theorem Guards.reading {r' : α → Reader β} (guards : ∀ a, Guards (f a) (r' a) bad keeps) :
    Guards (Handler.reading r >>= f) (fun bs => r' (r bs).1 (r bs).2) bad keeps := by
  intro bs out s kept
  rw [run_bind, run_reading]
  exact guards (r bs).1 (r bs).2 out s kept

theorem Guards.write {f r} {bad : β → Prop} (bytes : List UInt8) (guards : Guards f r bad keeps) :
    Guards (Handler.write bytes >>= fun _ => f) r bad keeps := by
  intro bs out s kept
  rw [run_bind, run_write]
  exact guards bs (out ++ bytes) s kept

theorem Guards.panics_iff (guards : Guards m r bad keeps) (kept : keeps s) :
    (m ⟨bs, out, s⟩).1 = none ↔ bad (r bs).1 := by
  obtain ⟨wrong, panics⟩ | ⟨fine, out', s', ran, -⟩ := guards bs out s kept
  · exact iff_of_true panics wrong
  · rw [ran]
    exact iff_of_false (Option.some_ne_none _) fine

def Safe (m : Handler σ α) : Prop := ∀ x, (m x).1 ≠ none

theorem Safe.pure (a : α) : Safe (Pure.pure a : Handler σ α) := fun _ => by simp

theorem Safe.bind {m} {f : α → Handler σ β} (safe : Safe m) (later : ∀ a, Safe (f a)) :
    Safe (m >>= f) := by
  intro x
  rw [run_bind]
  cases result : (m x).1 with
  | none => exact absurd result (safe x)
  | some a => exact later a _

theorem Safe.reading (r : Reader α) : Safe (Handler.reading r : Handler σ α) :=
  fun _ => Option.some_ne_none _

theorem Safe.write (bytes : List UInt8) : Safe (Handler.write bytes : Handler σ Unit) :=
  fun _ => Option.some_ne_none _

theorem Safe.act (f : σ → σ × α) : Safe (Handler.act f) := fun _ => Option.some_ne_none _

theorem Safe.times (safe : Safe m) (n : Nat) : Safe (times n m) := by
  induction n with
  | zero => exact .pure ()
  | succ n ih => exact safe.bind fun _ => ih

theorem Safe.collect {m : Handler σ α} (safe : Safe m) (n : Nat) : Safe (collect n m) := by
  induction n with
  | zero => exact .pure []
  | succ n ih => exact safe.bind fun _ => ih.bind fun _ => .pure _

end Handler

/-- The entries of a request, each with whether it is complete, and what follows them. Nothing
    follows where the handler panics. -/
abbrev Emitter (α : Type) := List UInt8 → List (α × Bool) × Option (List UInt8)

namespace Emitter

variable {α β : Type}

/-- An entry made of what the decoder gives or, where it is cut short, of what the reader takes
    for it. -/
def entry (d : Decoder β) (r : Reader β) (f : β → α) : Emitter α := fun bs =>
  match d bs with
  | some read => ([(f read.1, true)], some read.2)
  | none => ([(f (r bs).1, false)], some (r bs).2)

def several : Nat → Emitter α → Emitter α
  | 0, _, bs => ([], some bs)
  | n + 1, e, bs =>
    match (e bs).2 with
    | some rest => ((e bs).1 ++ (several n e rest).1, (several n e rest).2)
    | none => ((e bs).1, none)

theorem entry_eq {r : Reader β} (follows : Follows r d) (f : β → α) (bs : List UInt8) :
    entry d r f bs = ([(f (r bs).1, (d bs).isSome)], some (r bs).2) := by
  rw [entry]
  cases decoded : d bs with
  | none => rfl
  | some read =>
    rw [follows bs read.1 read.2 decoded]
    rfl

theorem forall_several {P : α × Bool → Prop} {e : Emitter α}
    (every : ∀ bs, ∀ a ∈ (e bs).1, P a) (n : Nat)
    (bs : List UInt8) : ∀ a ∈ (several n e bs).1, P a := by
  induction n generalizing bs with
  | zero => nofun
  | succ n ih =>
    rw [several]
    cases (e bs).2 with
    | none => exact every bs
    | some rest => exact List.forall_mem_append.mpr ⟨every bs, ih rest⟩

def complete (entries : List (α × Bool)) : List α := (entries.filter (·.2)).map (·.1)

def incomplete (entries : List (α × Bool)) : List α := (entries.filter (!·.2)).map (·.1)

variable {σ : Type}

/-- The incomplete entries may be left out if they do nothing. -/
theorem foldl_complete {step : σ → α → σ} (idle : ∀ a ∈ incomplete entries, ∀ s, step s a = s)
    (s : σ) : (entries.map (·.1)).foldl step s = (complete entries).foldl step s := by
  induction entries generalizing s with
  | nil => rfl
  | cons first entries ih =>
    obtain ⟨a, whole⟩ := first
    cases whole with
    | true => exact ih idle (step s a)
    | false =>
      have nothing : step s a = s := idle a List.mem_cons_self s
      rw [List.map_cons, List.foldl_cons, nothing]
      exact ih (fun b inside => idle b (List.mem_cons_of_mem a inside)) s

theorem countP_entries (p : α → Bool) (entries : List (α × Bool)) :
    (entries.map (·.1)).countP p = (complete entries).countP p + (incomplete entries).countP p := by
  simp only [complete, incomplete, List.countP_map]
  rw [entries.countP_eq_countP_filter_add _ (·.2)]

end Emitter

namespace Handler

variable {σ α β : Type}

/-- The handler changes the state by all entries, complete or not. -/
def Emits (m : Handler σ Unit) (e : Emitter α) (step : σ → α → σ) : Prop :=
  ∀ bs out s, ∃ out' left, m ⟨bs, out, s⟩ =
    ((e bs).2.map fun _ => (), ⟨(e bs).2.getD left, out', ((e bs).1.map (·.1)).foldl step s⟩)

variable {m : Handler σ Unit} {step : σ → α → σ} {e : Emitter α}

theorem Emits.entry {r : Reader β} {f : β → α} (follows : Follows r d)
    (ran : ∀ bs out s, ∃ out', m ⟨bs, out, s⟩ = (some (), ⟨(r bs).2, out', step s (f (r bs).1)⟩)) :
    Emits m (.entry d r f) step := by
  intro bs out s
  obtain ⟨out', ran⟩ := ran bs out s
  exact ⟨out', [], by rw [ran, Emitter.entry_eq follows]; rfl⟩

theorem Emits.several (emits : Emits m e step) (n : Nat) :
    Emits (times n m) (.several n e) step := by
  induction n with
  | zero => exact fun bs out s => ⟨out, [], rfl⟩
  | succ n ih =>
    intro bs out s
    obtain ⟨out', left, ran⟩ := emits bs out s
    rw [times, run_bind, ran, Emitter.several]
    cases (e bs).2 with
    | none => exact ⟨out', left, rfl⟩
    | some mid =>
      obtain ⟨out'', left', later⟩ := ih mid out' (((e bs).1.map (·.1)).foldl step s)
      refine ⟨out'', left', ?_⟩
      rw [Option.map_some, Option.elim_some, Option.getD_some, later, List.map_append, List.foldl_append]

theorem Emits.reading {r : Reader β} {e : β → Emitter α} (emits : ∀ b, Emits (f b) (e b) step) :
    Emits (Handler.reading r >>= f) (fun bs => e (r bs).1 (r bs).2) step := by
  intro bs out s
  rw [run_bind, run_reading]
  exact emits (r bs).1 (r bs).2 out s

theorem Emits.write (bytes : List UInt8) (emits : Emits m e step) :
    Emits (Handler.write bytes >>= fun _ => m) e step := by
  intro bs out s
  rw [run_bind, run_write]
  exact emits bs (out ++ bytes) s

/-- What is only written afterwards changes nothing. -/
theorem Emits.answered {f : Handler σ Unit} (emits : Emits m e step)
    (writes : ∀ bs out s, ∃ out', f ⟨bs, out, s⟩ = (some (), ⟨bs, out', s⟩)) :
    Emits (m >>= fun _ => f) e step := by
  intro bs out s
  obtain ⟨out', left, ran⟩ := emits bs out s
  rw [run_bind, ran]
  cases (e bs).2 with
  | none => exact ⟨out', left, rfl⟩
  | some rest =>
    obtain ⟨out'', wrote⟩ := writes rest out' (((e bs).1.map (·.1)).foldl step s)
    exact ⟨out'', left, wrote⟩

theorem Emits.respond_state (emits : Emits m e step) (s : σ) (body : List UInt8) :
    (m.respond s body).1 = ((e body).1.map (·.1)).foldl step s := by
  obtain ⟨out, left, ran⟩ := emits body [] s
  rw [respond, ran]

end Handler

end Portask.Lib
