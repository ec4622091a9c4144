import Portask.Amqp.ContentAssembly

/-! # Opening a connection

A client answers `Start` with `StartOk`, then `Tune` with `TuneOk`, and then sends `Open`.
The server does not check the order: `Open` alone connects. It also handles content frames
before the connection is open. What is left is that a client that keeps to the order is
connected only then, and that frames before that change nothing as long as its content frames
meet no publish of somebody else.
-/

namespace Portask.Amqp

open Function Lib Kafka

inductive Opening where
  | startOk
  | tuneOk
  | opened
  deriving DecidableEq

def Frame.opening (frame : Frame) : Option Opening :=
  if frame.frameType ≠ frameMethod ∨ frame.payload.length < 4 ∨ classID frame.payload ≠ 10 then none
  else if methodID frame.payload = 11 then some .startOk
  else if methodID frame.payload = 31 then some .tuneOk
  else if methodID frame.payload = 40 then some .opened
  else none

structure Reception (C : Type) where
  conn : C
  connID : GoString
  now : Nat
  frame : Frame

variable {C : Type}

/-- The server with all frames that were received. -/
def receptions : Machine (Server C × List (Reception C)) (Reception C) where
  next s r :=
    ((s.1.handleFrameWithState r.conn r.connID r.now r.frame).bind Step.complete).map fun result =>
      (result.1, s.2 ++ [r])

/-- What a connection has received for being opened. -/
def openings (connID : GoString) (received : List (Reception C)) : List Opening :=
  (received.filter fun r => r.connID = connID).filterMap fun r => r.frame.opening

/-- `StartOk`, `TuneOk` and `Open` were received in that order. -/
def Opened (connID : GoString) (received : List (Reception C)) : Prop :=
  [.startOk, .tuneOk, .opened].Sublist (openings connID received)

instance (connID : GoString) (received : List (Reception C)) : Decidable (Opened connID received) :=
  inferInstanceAs (Decidable (List.Sublist _ _))

/-- `Open` comes after the other two, and before that the content frames of a connection meet no
    publish that waits for them. -/
def Reception.Orderly (s : Server C × List (Reception C)) (r : Reception C) : Prop :=
  (r.frame.opening = some .opened → [.startOk, .tuneOk].Sublist (openings r.connID s.2)) ∧
    (¬ Opened r.connID s.2 → r.frame.frameType = frameHeader ∨ r.frame.frameType = frameBody →
      (s.1.channelStates r.frame.channelID).bind (·.pendingPublish) = none)

instance (s : Server C × List (Reception C)) (r : Reception C) : Decidable (r.Orderly s) :=
  inferInstanceAs (Decidable ((_ → _) ∧ (_ → _ → _)))

namespace Server

variable {s t : Server C} {conn : C} {connID : GoString} {now : Nat} {frame : Frame}
  {error : Option FrameError}

/-- Frames that do not open a connection leave the states of connections alone. -/
theorem handleAMQPFrame_states
    (handled : (s.handleAMQPFrameWithChannel conn now frame).bind Step.complete = some (t, error)) :
    t.connectionStates = s.connectionStates := by
  classical
  obtain ⟨step, first, completed⟩ := Option.bind_eq_some_iff.mp handled
  have keeps (mid : Server C) (act : Act C) (step : Step C)
    (same : mid.connectionStates = s.connectionStates)
      (onChannels : act.OnChannels fun _ => True) (performed : act.exec mid = some step) :
      step.server.connectionStates = s.connectionStates ∧
        ∀ later ∈ step.todo, later.OnChannels fun _ => True :=
    ⟨((Act.exec_records performed).2 onChannels.2).trans same,
      Act.exec_onChannels onChannels.1 performed⟩
  exact System.complete_invariant conn keeps (handleAMQPFrame_leaves first).2
    (handleAMQPFrame_onChannels (fun _ => trivial) first) completed

/-- A connection becomes connected by `Open` only. -/
theorem handleFrame_states
    (handled : (s.handleFrameWithState conn connID now frame).bind Step.complete =
      some (t, error)) : t.connectionStates = s.connectionStates ∨
      ∃ state, t.connectionStates = update s.connectionStates connID (some state) ∧
        (state = .connected → frame.opening = some .opened) := by
  obtain ⟨step, first, completed⟩ := Option.bind_eq_some_iff.mp handled
  obtain ⟨content, -⟩ | ⟨method, connecting⟩ := handleFrameWithState_cases first
  · exact .inl (handleAMQPFrame_states (Option.bind_eq_some_iff.mpr ⟨step, content, completed⟩))
  · cases connecting with
    | refused | answered =>
      obtain ⟨rfl, -⟩ := Prod.mk.inj (Option.some.inj completed)
      exact .inl rfl
    | startOk =>
      obtain ⟨rfl, -⟩ := Prod.mk.inj (Option.some.inj completed)
      exact .inr ⟨.tuneSent, Function.update_idem .., fun other => by cases other⟩
    | tuneOk =>
      obtain ⟨rfl, -⟩ := Prod.mk.inj (Option.some.inj completed)
      exact .inr ⟨.tuneOkReceived, rfl, fun other => by cases other⟩
    | opened long opened =>
      obtain ⟨rfl, -⟩ := Prod.mk.inj (Option.some.inj completed)
      refine .inr ⟨.connected, Function.update_idem .., fun _ => ?_⟩
      rw [Frame.opening, if_neg, opened.2]
      · rfl
      · rintro (other | short | elsewhere)
        · exact other method
        · omega
        · exact elsewhere opened.1

theorem contentHeader_missing (missing : (s.channelStates channelID).bind (·.pendingPublish) = none)
    (bodySize : UInt64) : s.contentHeader channelID bodySize = some s := by
  rw [contentHeader]
  cases found : s.channelStates channelID with
  | none => rfl
  | some c =>
    rw [found, Option.bind_some] at missing
    dsimp only
    rw [missing]

theorem contentBody_missing (missing : (s.channelStates channelID).bind (·.pendingPublish) = none)
    (payload : List UInt8) : s.contentBody channelID payload = { server := s } := by
  rw [contentBody]
  cases found : s.channelStates channelID with
  | none => rfl
  | some c =>
    rw [found, Option.bind_some] at missing
    dsimp only
    rw [missing]

/-- Before the connection is open, a frame that meets no publish changes nothing that is shared. -/
theorem handleFrame_unconnected (closed : s.stateOf connID ≠ .connected)
    (missing : frame.frameType = frameHeader ∨ frame.frameType = frameBody →
      (s.channelStates frame.channelID).bind (·.pendingPublish) = none)
    (handled : (s.handleFrameWithState conn connID now frame).bind Step.complete =
      some (t, error)) :
    t.queues = s.queues ∧ t.exchanges = s.exchanges ∧ t.channelStates = s.channelStates := by
  obtain ⟨step, first, completed⟩ := Option.bind_eq_some_iff.mp handled
  have unchanged {err : Option FrameError} (alone : some { server := s, error := err } =
      some step) : t = s := by
    rw [← Option.some.inj alone, complete_alone] at completed
    exact (Prod.mk.inj (Option.some.inj completed)).1.symm
  obtain ⟨content, connected⟩ | ⟨-, connecting⟩ := handleFrameWithState_cases first
  · suffices same : t = s from same ▸ ⟨rfl, rfl, rfl⟩
    revert content
    fun_cases handleAMQPFrameWithChannel s conn now frame with
    | case1 method => exact absurd (connected method) closed
    | case3 _ header =>
      rw [contentHeader_missing (missing (.inl header))]
      exact unchanged
    | case4 _ _ body =>
      rw [contentBody_missing (missing (.inr body))]
      exact unchanged
    | _ => exact unchanged
  · cases connecting <;>
    · obtain ⟨rfl, -⟩ := Prod.mk.inj (Option.some.inj completed)
      exact ⟨rfl, rfl, rfl⟩

end Server

theorem openings_append (connID : GoString) (received : List (Reception C)) (r : Reception C) :
    openings connID (received ++ [r]) = openings connID received ++
      if r.connID = connID then r.frame.opening.toList else [] := by
  rw [openings, List.filter_append, List.filterMap_append, openings]
  congr 1
  split
  · next here => cases opening : r.frame.opening <;> simp [here, opening]
  · next other => simp [other]

theorem Opened.append (opened : Opened connID received) (r : Reception C) :
    Opened connID (received ++ [r]) := by
  rw [Opened, openings_append]
  exact opened.trans (List.sublist_append_left ..)

/-- Whoever is connected has received all three. -/
def InOrder (s : Server C × List (Reception C)) : Prop :=
  ∀ connID, s.1.stateOf connID = .connected → Opened connID s.2

theorem InOrder.next {r : Reception C} (inOrder : InOrder s) (orderly : r.Orderly s)
    (stepped : receptions.next s r = some t) : InOrder t := by
  obtain ⟨⟨later, error⟩, handled, rfl⟩ := Option.map_eq_some_iff.mp stepped
  intro connID connected
  obtain same | ⟨state, changed, opens⟩ := Server.handleFrame_states handled
  · have before : s.1.stateOf connID = .connected := by
      rw [← connected, Server.stateOf, Server.stateOf, same]
    exact (inOrder connID before).append r
  · by_cases here : connID = r.connID
    · subst here
      have now : later.stateOf r.connID = state := by
        rw [Server.stateOf, changed, update_self, Option.getD_some]
      have opening := opens (now.symm.trans connected)
      rw [Opened, openings_append, if_pos rfl, opening]
      exact (orderly.1 opening).append (List.Sublist.refl [Opening.opened])
    · have before : s.1.stateOf connID = .connected := by
        rw [← connected, Server.stateOf, Server.stateOf, changed, update_of_ne here]
      exact (inOrder connID before).append r

theorem received_run {s t : Server C}
    (ran : (receptions.restrict fun s r => r.Orderly s).run (s, before) labels =
      some (t, received)) : received = before ++ labels := by
  induction labels generalizing s before with
  | nil =>
    obtain ⟨rfl, rfl⟩ := Prod.mk.inj (Option.some.inj ran)
    rw [List.append_nil]
  | cons r rest ih =>
    obtain ⟨mid, stepped, later⟩ := Machine.run_cons _ |>.mp ran
    obtain ⟨-, stepped⟩ := receptions.restrict_next.mp stepped
    obtain ⟨_, -, rfl⟩ := Option.map_eq_some_iff.mp stepped
    rw [ih later, List.append_assoc, List.singleton_append]

theorem start_inOrder (C : Type) : InOrder (newEnhancedAMQPServer C, []) := by
  intro connID connected
  cases connected

/-- In every orderly run a connection is connected only after `StartOk`, `TuneOk` and `Open`, and
    no frame that it receives before that changes queues, exchanges or channel states. -/
theorem connected_only_in_order {labels received : List (Reception C)} {t : Server C}
    (ran : (receptions.restrict fun s r => r.Orderly s).run (newEnhancedAMQPServer C, []) labels =
      some (t, received)) : received = labels ∧
    (∀ connID, t.stateOf connID = .connected → Opened connID received) ∧
    ∀ r later, (receptions.restrict fun s r => r.Orderly s).next (t, received) r = some later →
      ¬ Opened r.connID received →
      later.1.queues = t.queues ∧ later.1.exchanges = t.exchanges ∧
        later.1.channelStates = t.channelStates := by
  have inOrder : InOrder (t, received) := by
    refine (receptions.restrict fun s r => r.Orderly s).run_invariant
      (P := InOrder) ?_ (start_inOrder C) ran
    intro s r later inOrder stepped
    obtain ⟨orderly, stepped⟩ := receptions.restrict_next.mp stepped
    exact inOrder.next orderly stepped
  refine ⟨received_run ran, inOrder, fun r later stepped early => ?_⟩
  obtain ⟨orderly, stepped⟩ := receptions.restrict_next.mp stepped
  obtain ⟨⟨later, error⟩, handled, rfl⟩ := Option.map_eq_some_iff.mp stepped
  exact Server.handleFrame_unconnected (mt (inOrder r.connID) early) (orderly.2 early) handled

def openingFrames (connID : GoString) : List (Reception Unit) :=
  [⟨(), connID, 0, methodFrame 0 10 11 []⟩, ⟨(), connID, 0, methodFrame 0 10 31 []⟩,
    ⟨(), connID, 0, methodFrame 0 10 40 []⟩]

theorem connected_only_in_order_once :
    ∃ t received, (receptions.restrict fun s r => r.Orderly s).run (newEnhancedAMQPServer Unit, [])
        (openingFrames (ascii "0")) = some (t, received) ∧ t.stateOf (ascii "0") = .connected ∧ Opened (ascii "0") received := by
  have reached : (((receptions.restrict fun s r => r.Orderly s).run (newEnhancedAMQPServer Unit, [])
      (openingFrames (ascii "0"))).map fun s => s.1.stateOf (ascii "0")) = some .connected := by
        decide +kernel
  obtain ⟨⟨t, received⟩, ran, connected⟩ := Option.map_eq_some_iff.mp reached
  exact ⟨t, received, ran, connected, (connected_only_in_order ran).2.1 (ascii "0") connected⟩

/-- Somebody opens a connection, declares the queue `q` and begins to publish on channel 1. -/
def publishing : List (Reception Unit) :=
  openingFrames (ascii "0") ++
    [⟨(), ascii "0", 0, methodFrame 1 50 10 (shortString (ascii "q") ++ [0, 0, 0, 0])⟩,
      ⟨(), ascii "0", 0, methodFrame 1 60 40 (shortString [] ++ shortString (ascii "q") ++ [0])⟩]

/-- `Open` alone connects, and a body frame of a connection that has received nothing else fills
    the queue. -/
theorem open_alone_connects :
    ((receptions.run (newEnhancedAMQPServer Unit,
      []) [⟨(), ascii "1", 0, methodFrame 0 10 40 []⟩]).map fun s =>
      s.1.stateOf (ascii "1")) = some .connected ∧
    ((receptions.run (newEnhancedAMQPServer Unit, []) publishing).map fun s =>
      s.1.waiting (ascii "q")) = some [] ∧
    ((receptions.run (newEnhancedAMQPServer Unit, [])
      (publishing ++ [⟨(), ascii "1", 0, ⟨frameBody, 1, [7]⟩⟩])).map fun s =>
      s.1.waiting (ascii "q")) = some [⟨0, [7]⟩] :=
  ⟨by decide +kernel, by decide +kernel, by decide +kernel⟩

end Portask.Amqp
