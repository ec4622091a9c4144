import Portask.Amqp.Frames
import Portask.Lib.Machine

/-! # One goroutine for each connection

A goroutine handles the frames of its connection in turn. Between two of its steps any other
goroutine may take the mutex. If nobody does, the steps of a frame amount to its handler as
one step. A panic ends the program.
-/

namespace Portask.Amqp

open Function Lib

variable {C : Type}

/-- `todo` is what each goroutine has left to do for the frame it is handling. -/
structure System (C : Type) where
  server : Server C
  todo : C → List (Act C)

/-- A frame comes with the time at which it is handled. -/
inductive Label (C : Type) where
  | accept (conn : C) (connID : GoString)
  | frame (conn : C) (connID : GoString) (now : Nat) (frame : Frame)
  | step (conn : C)
  | close (conn : C) (connID : GoString)

namespace System

def start (C : Type) : System C := ⟨newEnhancedAMQPServer C, fun _ => []⟩

/-- An error ends the handler. -/
def goOn : Option FrameError → List (Act C) → List (Act C)
  | some _, _ => []
  | none, acts => acts

variable [DecidableEq C]

/-- Goes on with `rest` behind what the step leaves to do, unless it returns an error. -/
@[simps] def perform (sys : System C) (conn : C) (rest : List (Act C)) (step : Step C) :
    System C where
  server := step.server
  todo := update sys.todo conn (goOn step.error (step.todo ++ rest))

/-- What a goroutine does that has handled all frames before. -/
def idle (sys : System C) (conn : C) (step : Option (Step C)) : Option (System C) :=
  match sys.todo conn with
  | [] => step.map (sys.perform conn [])
  | _ :: _ => none

def next (sys : System C) : Label C → Option (System C)
  | .accept conn connID =>
    sys.idle conn
      (some { server := sys.server.setState connID .start, todo := [.send conn 0 .connectionStart] })
  | .frame conn connID now frame =>
    sys.idle conn (sys.server.handleFrameWithState conn connID now frame)
  | .step conn =>
    match sys.todo conn with
    | [] => none
    | act :: rest => (act.exec sys.server).map (sys.perform conn rest)
  | .close conn connID => sys.idle conn (some { server := sys.server.deleteState connID })

def machine : Machine (System C) (Label C) := ⟨next⟩

theorem mem_perform {sys : System C} (inside : act ∈ (sys.perform conn rest step).todo other) :
    other = conn ∧ act ∈ step.todo ++ rest ∨ act ∈ sys.todo other := by
  rw [perform_todo] at inside
  by_cases here : other = conn
  · subst here
    rw [update_self] at inside
    cases returned : step.error with
    | some err => simp [returned, goOn] at inside
    | none => exact .inl ⟨rfl, by rwa [returned] at inside⟩
  · exact .inr (by rwa [update_of_ne here] at inside)

/-- What a step does to the server, and what its goroutine has left to do: either the
    goroutine was idle, or it has gone on with the first thing that was left. -/
theorem next_cases {sys later : System C} (stepped : sys.next label = some later) :
    ∃ conn rest step, later = sys.perform conn rest step ∧
      ((sys.todo conn = [] ∧ rest = [] ∧
          ((∃ connID, step = { server := sys.server.setState connID .start, todo := [.send conn 0 .connectionStart] }) ∨
            (∃ connID now frame, label = .frame conn connID now frame ∧
              sys.server.handleFrameWithState conn connID now frame = some step) ∨
            (∃ connID, step = { server := sys.server.deleteState connID }))) ∨
        (∃ act, sys.todo conn = act :: rest ∧ act.exec sys.server = some step)) := by
  have idle {conn : C} {offered : Option (Step C)} (moved : sys.idle conn offered = some later) :
      sys.todo conn = [] ∧ ∃ step, offered = some step ∧ later = sys.perform conn [] step := by
    rw [System.idle] at moved
    split at moved
    · next none =>
        obtain ⟨step, offered, rfl⟩ := Option.map_eq_some_iff.mp moved
        exact ⟨none, step, offered, rfl⟩
    · cases moved
  cases label with
  | accept conn connID =>
    obtain ⟨none, step, offered, rfl⟩ := idle stepped
    exact ⟨conn, [], step, rfl, .inl ⟨none, rfl, .inl ⟨connID, (Option.some.inj offered).symm⟩⟩⟩
  | frame conn connID now frame =>
    obtain ⟨none, step, offered, rfl⟩ := idle stepped
    exact ⟨conn, [], step, rfl, .inl ⟨none, rfl, .inr (.inl ⟨connID, now, frame, rfl, offered⟩)⟩⟩
  | step conn =>
    rw [next] at stepped
    split at stepped
    · cases stepped
    · next act rest left =>
        obtain ⟨step, performed, rfl⟩ := Option.map_eq_some_iff.mp stepped
        exact ⟨conn, rest, step, rfl, .inr ⟨act, left, performed⟩⟩
  | close conn connID =>
    obtain ⟨none, step, offered, rfl⟩ := idle stepped
    exact ⟨conn, [], step, rfl,
      .inl ⟨none, rfl, .inr (.inr ⟨connID, (Option.some.inj offered).symm⟩)⟩⟩

/-- The goroutine of `conn` gets from one server and list of things to do to another by its own
    steps. -/
def Reaches (conn : C) (todo : C → List (Act C)) (s : Server C) (acts : List (Act C))
    (s' : Server C) (acts' : List (Act C)) : Prop :=
  ∃ n, machine.run (⟨s, update todo conn acts⟩ : System C) (List.replicate n (.step conn)) =
    some ⟨s', update todo conn acts'⟩

variable {conn : C} {todo : C → List (Act C)} {rest : List (Act C)} {s s' : Server C}

theorem Reaches.refl (acts : List (Act C)) : Reaches conn todo s acts s acts := ⟨0, rfl⟩

variable {acts : List (Act C)} {queueName consumerTag : GoString} {P : Server C → Prop}

theorem Reaches.head (performed : act.exec s = some step)
    (later : Reaches conn todo step.server (goOn step.error (step.todo ++ rest)) s' acts) :
    Reaches conn todo s (act :: rest) s' acts := by
  obtain ⟨n, ran⟩ := later
  have first : (⟨s, update todo conn (act :: rest)⟩ : System C).next (.step conn) =
      some ⟨step.server, update todo conn (goOn step.error (step.todo ++ rest))⟩ := by
    simp [next, performed, perform]
  exact ⟨n + 1, Machine.run_cons _ |>.mpr ⟨_, first, ran⟩⟩

theorem reaches_deliverAll
    (delivered : s.deliverAll target channelID queueName consumerTag messages = some s') :
    Reaches conn todo s
      (.deliver target channelID queueName consumerTag messages :: rest) s' rest := by
  induction messages generalizing s with
  | nil =>
    obtain rfl : s = s' := Option.some.inj delivered
    exact .head rfl (.refl _)
  | cons body messages ih =>
    obtain ⟨⟨mid, deliveryTag⟩, assigned, later⟩ := Option.bind_eq_some_iff.mp delivered
    have performed :
      (Act.deliver target channelID queueName consumerTag (body :: messages)).exec s = some
        { server := mid
          todo := [.send target channelID (.basicDeliver consumerTag deliveryTag false queueName body.bytes),
            .deliver target channelID queueName consumerTag messages] } := by
      rw [Act.exec, assigned, Option.map_some]
    exact .head performed (.head rfl (ih later))

theorem reaches_take
    (finished : (Act.take target channelID queueName consumerTag).finish s = some (s', error)) :
    error = none ∧
      Reaches conn todo s (.take target channelID queueName consumerTag :: rest) s' rest := by
  obtain ⟨⟨mid, messages⟩, taken, later⟩ := Option.bind_eq_some_iff.mp finished
  obtain ⟨_, delivered, same⟩ := Option.map_eq_some_iff.mp later
  obtain ⟨rfl, rfl⟩ := Prod.mk.inj same
  have performed : (Act.take target channelID queueName consumerTag).exec s = some
      { server := mid, todo := [.deliver target channelID queueName consumerTag messages] } := by
    rw [Act.exec, taken, Option.map_some]
  exact ⟨rfl, .head performed (reaches_deliverAll delivered)⟩

theorem reaches_finish (finished : act.finish s = some (s', error)) :
    Reaches conn todo s (act :: rest) s' (goOn error rest) := by
  cases act with
  | send | setState =>
    obtain ⟨rfl, rfl⟩ := Prod.mk.inj (Option.some.inj finished)
    exact .head rfl (.refl _)
  | publish call =>
    obtain ⟨rfl, rfl⟩ := Prod.ext_iff.mp (Option.some.inj finished)
    exact .head rfl (.refl _)
  | register target channelID queueName consumerTag =>
    obtain ⟨rfl, reached⟩ := reaches_take (s := s.register target channelID consumerTag) finished
    exact .head rfl reached
  | take target channelID queueName consumerTag =>
    obtain ⟨rfl, reached⟩ := reaches_take finished
    exact reached
  | deliver target channelID queueName consumerTag messages =>
    obtain ⟨_, delivered, same⟩ := Option.map_eq_some_iff.mp finished
    obtain ⟨rfl, rfl⟩ := Prod.mk.inj same
    exact reaches_deliverAll delivered

theorem Reaches.trans (first : Reaches conn todo s₁ acts₁ s₂ acts₂)
    (later : Reaches conn todo s₂ acts₂ s₃ acts₃) : Reaches conn todo s₁ acts₁ s₃ acts₃ := by
  obtain ⟨m, ran⟩ := first
  obtain ⟨n, goes⟩ := later
  refine ⟨m + n, ?_⟩
  rw [List.replicate_add, Machine.run_append, ran, Option.bind_some, goes]

theorem reaches_finishAll (finished : finishAll s acts = some (s', error)) :
    Reaches conn todo s acts s' [] := by
  induction acts generalizing s with
  | nil =>
    obtain ⟨rfl, rfl⟩ := Prod.mk.inj (Option.some.inj finished)
    exact .refl _
  | cons act rest ih =>
    obtain ⟨⟨mid, err⟩, first, later⟩ := Option.bind_eq_some_iff.mp finished
    have reached : Reaches conn todo s (act :: rest) mid _ := reaches_finish first
    cases err with
    | some err =>
      obtain ⟨rfl, rfl⟩ := Prod.mk.inj (Option.some.inj later)
      exact reached
    | none => exact reached.trans (ih later)

/-- What every step of a kind `Q` keeps, all that is left to do of this kind keeps. -/
theorem finishAll_invariant (conn : C) {Q : Act C → Prop}
    (keeps : ∀ s act step, P s → Q act → act.exec s = some step →
      P step.server ∧ ∀ later ∈ step.todo, Q later)
    (every : ∀ act ∈ acts, Q act) (start : P s) (finished : finishAll s acts = some (s', error)) :
    P s' := by
  obtain ⟨n, ran⟩ : Reaches conn (fun _ => []) s acts s' [] := reaches_finishAll finished
  have goes (sys : System C) (label : Label C) (later : System C) (alone : label = .step conn)
      (kept : P sys.server ∧ ∀ act ∈ sys.todo conn, Q act)
      (stepped : machine.next sys label = some later) :
      P later.server ∧ ∀ act ∈ later.todo conn, Q act := by
    subst alone
    have moved : sys.next (.step conn) = some later := stepped
    rw [next] at moved
    cases left : sys.todo conn with
    | nil =>
      rw [left] at moved
      cases moved
    | cons act rest =>
      rw [left] at moved
      obtain ⟨step, performed, rfl⟩ := Option.map_eq_some_iff.mp moved
      have ⟨first, behind⟩ := List.forall_mem_cons.mp (left ▸ kept.2)
      obtain ⟨after, follow⟩ := keeps sys.server act step kept.1 first performed
      refine ⟨after, fun later inside => ?_⟩
      obtain ⟨-, inside⟩ | old := mem_perform inside
      · exact (List.mem_append.mp inside).elim (follow later) (behind later)
      · exact kept.2 later old
  have begins : P s ∧ ∀ act ∈ update (fun _ => []) conn acts conn, Q act := by
    rw [update_self]
    exact ⟨start, every⟩
  exact (machine.run_invariant_of goes (fun label inside =>
    List.eq_of_mem_replicate inside) begins ran).1

/-- What the first lock of a handler establishes and every later step keeps, the handler as one step
    establishes. -/
theorem complete_invariant (conn : C) {Q : Act C → Prop}
    (keeps : ∀ s act step, P s → Q act → act.exec s = some step →
      P step.server ∧ ∀ later ∈ step.todo, Q later)
    {step : Step C} (start : P step.server) (every : ∀ act ∈ step.todo, Q act)
    (completed : step.complete = some (s', error)) : P s' := by
  rw [Step.complete] at completed
  cases returned : step.error with
  | some err =>
    rw [returned] at completed
    obtain ⟨rfl, -⟩ := Prod.mk.inj (Option.some.inj completed)
    exact start
  | none =>
    rw [returned] at completed
    exact finishAll_invariant conn keeps every start completed

end System

end Portask.Amqp
