import Portask.Amqp.Broker

/-! # Queues deliver in order

As long as nothing is put back, a queue is a first-in first-out queue across all channels:
what has been delivered from it, followed by what waits in it, is what was accepted for it.
A consume takes the messages out by copying them, so that the queue's memory can be used
again; the bodies are never written to.
-/

namespace Portask.Amqp

open Function Lib Kafka

variable {C : Type}

def ofQueue (queueName : GoString) (items : List (GoString × List UInt8)) : List (List UInt8) :=
  (items.filter fun item => item.1 = queueName).map Prod.snd

theorem ofQueue_append (queueName : GoString) (first later : List (GoString × List UInt8)) :
    ofQueue queueName (first ++ later) = ofQueue queueName first ++ ofQueue queueName later := by
  rw [ofQueue, List.filter_append, List.map_append, ofQueue, ofQueue]

theorem ofQueue_map {α : Type} (queueName other : GoString) (bytes : α → List UInt8)
    (items : List α) :
    ofQueue queueName (items.map fun item => (other, bytes item)) = if other = queueName then
      items.map bytes else [] := by
  rw [ofQueue, List.filter_map, List.map_map]
  split
  · next same => simp [same, comp_def]
  · next differ => simp [differ, comp_def]

def Broker.InOrder (b : Broker) : Prop :=
  ∀ queueName, ofQueue queueName b.delivered ++ (b.waiting queueName).map (·.bytes) =
    ofQueue queueName b.accepted

theorem Broker.InOrder.apply {b : Broker} (inOrder : b.InOrder)
    (keeps : ∀ channelID tag new redelivers, op ≠ .requeue channelID tag new redelivers) :
    (b.apply op).InOrder := by
  intro queueName
  have before := inOrder queueName
  cases op with
  | nothing => exact before
  | accept target bytes =>
    have one := ofQueue_map queueName target (fun b => b) [bytes]
    rw [List.map_singleton, List.map_singleton] at one
    rw [Broker.apply, addAccepted_accepted, ofQueue_append, one]
    by_cases here : target = queueName
    · subst here
      simp [← before]
    · simpa [here, Ne.symm here] using before
  | consume channelID target first =>
    rw [Broker.apply, addDelivered_delivered, ofQueue_append, ofQueue_map]
    by_cases here : target = queueName
    · subst here
      simpa using before
    · simpa [here, Ne.symm here] using before
  | settle channelID deliveryTag =>
    rw [Broker.apply]
    split <;> exact before
  | requeue channelID deliveryTag new redelivers =>
    exact absurd rfl (keeps channelID deliveryTag new redelivers)

/-- A nack that asks for its message to be put back. -/
def Input.requeues : Input C → Bool
  | .method _ _ _ (.basicNack _ true) => true
  | _ => false

namespace Server

variable {s t : Server C}

theorem requeues_of_op
    (puts : s.op input = .requeue channelID deliveryTag new redelivers) :
    input.requeues = true := by
  have published (call : Publish) : s.publishOp call ≠
      .requeue channelID deliveryTag new redelivers := by
    obtain same | ⟨target, same⟩ := s.publishOp_cases call <;> simp [same]
  unfold op at puts
  split at puts
  · split at puts <;> cases puts
  · cases puts
  · cases puts
  · rfl
  · cases puts
  · cases puts
  · split at puts
    · exact absurd puts (published _)
    · cases puts
  · exact absurd puts (published _)

theorem deliverAll_isSome (messages : List Body)
    (found : s.channelStates channelID = some c) (made : c.unackedMessages ≠ none) :
    ∃ t, s.deliverAll conn channelID queueName consumerTag messages = some t := by
  induction messages generalizing s c with
  | nil => exact ⟨s, rfl⟩
  | cons body messages ih =>
    obtain ⟨m, made⟩ := Option.ne_none_iff_exists'.mp made
    rw [deliverAll, assign, found, Option.bind_some, ChannelState.track, made, Option.map_some,
      Option.map_some, Option.bind_some]
    exact ih (update_self ..) (by simp)

/-- A consume of a queue that exists never panics. -/
theorem handleBasicConsume_isSome (conn : C) (channelID : UInt16) (consumerTag : GoString)
    (exists_ : s.queues queueName = some queue) :
    ∃ t, (s.handleBasicConsume conn channelID queueName consumerTag).complete = some (t, none) := by
  let registered :=
    (s.send conn channelID (.basicConsumeOk consumerTag)).register conn channelID consumerTag
  let c :=
    ((s.channelStates channelID).getD { unackedMessages := some ∅ }).setConsumer consumerTag conn
  have found : registered.channelStates channelID = some c := update_self ..
  have taken : registered.take channelID queueName = some
      ((registered.setQueue queueName { queue with messages := queue.messages.clear }).setChannel
        channelID c.prepare, queue.messages.contents) := by
    have there : registered.queues queueName = some queue := exists_
    rw [take, found, Option.bind_some, there, Option.map_some]
  obtain ⟨t, delivered⟩ : ∃ t, Server.deliverAll
      ((registered.setQueue queueName { queue with messages := queue.messages.clear }).setChannel
        channelID c.prepare)
        conn channelID queueName consumerTag queue.messages.contents = some t :=
    deliverAll_isSome _ (update_self ..) (by simp [ChannelState.prepare])
  refine ⟨t, ?_⟩
  rw [handleBasicConsume, exists_]
  refine (finishAll_single _ _).trans ?_
  show (registered.take channelID queueName).bind _ = _
  rw [taken, Option.bind_some]
  dsimp only
  rw [delivered, Option.map_some]

theorem start_homed (C : Type) : (newEnhancedAMQPServer C).Homed := by
  intro channelID tag item there
  cases there

/-- In every run without requeueing nacks, what was delivered from a queue followed by what waits
    in it is what was accepted for it, and the next consume of it empties it. -/
theorem queues_in_order {inputs : List (Input C)} (kept : ∀ input ∈ inputs, input.requeues = false)
    (ran : oneStep.run (newEnhancedAMQPServer C) inputs = some t) :
    (∀ queueName, ofQueue queueName (t.written.filterMap delivery) ++
      (t.waiting queueName).map (·.bytes) = ofQueue queueName t.accepted) ∧
    ∀ conn channelID now queueName consumerTag, (t.queues queueName).isSome →
      ∃ later, oneStep.next t (.method conn channelID now (.basicConsume queueName consumerTag)) =
        some later ∧ later.waiting queueName = [] := by
  have invariant : t.broker.InOrder ∧ t.Homed := by
    refine oneStep.run_invariant_of (P := fun s => s.broker.InOrder ∧ s.Homed) ?_ kept
      ⟨fun _ => rfl, start_homed C⟩ ran
    rintro s input t kept ⟨inOrder, homed⟩ stepped
    obtain ⟨changed, homed⟩ := oneStep_broker homed stepped
    refine ⟨changed ▸ inOrder.apply fun channelID tag new redelivers puts => ?_, homed⟩
    rw [requeues_of_op puts] at kept
    cases kept
  refine ⟨invariant.1, fun conn channelID now queueName consumerTag exists_ => ?_⟩
  obtain ⟨queue, exists_⟩ := Option.isSome_iff_exists.mp exists_
  obtain ⟨later, completed⟩ := t.handleBasicConsume_isSome conn channelID consumerTag exists_
  have stepped : oneStep.next t (.method conn channelID now (.basicConsume queueName consumerTag)) =
      some later := by
    show ((some (t.handleBasicConsume conn channelID queueName consumerTag)).bind Step.complete).map
      Prod.fst = _
    rw [Option.bind_some, completed, Option.map_some]
  refine ⟨later, stepped, ?_⟩
  obtain ⟨changed, -⟩ := handleBasicConsume_broker exists_ completed
  have emptied : later.broker.waiting queueName = [] := by
    rw [changed, Broker.apply]
    exact update_self ..
  exact emptied

/-- Two channels share the queue `q`: one consumes two messages, then a third is published into
    the queue's old memory. -/
def twoChannels : List (Input Nat) :=
  [.method 0 1 0 (.queueDeclare (ascii "q")), .publish ⟨1, [], ascii "q", [1]⟩,
    .publish ⟨2, [], ascii "q", [2, 3]⟩,
    .method 1 2 0 (.basicConsume (ascii "q") (ascii "t")), .publish ⟨1, [], ascii "q", [4]⟩,
    .method 1 2 0 (.basicAck 1)]

theorem queues_in_order_two_channels :
    ∃ t, oneStep.run (newEnhancedAMQPServer Nat) twoChannels = some t ∧
      ofQueue (ascii "q") (t.written.filterMap delivery) = [[1], [2, 3]] ∧
      [[1], [2, 3]] ++ (t.waiting (ascii "q")).map (·.bytes) = ofQueue (ascii "q") t.accepted := by
  refine exists_of_view (fun t => ofQueue (ascii "q") (t.written.filterMap delivery)) [[1], [2, 3]]
    (by decide +kernel)
    fun t ran delivered => ?_
  have inOrder := (queues_in_order (by decide +kernel) ran).1 (ascii "q")
  rw [delivered] at inOrder
  exact ⟨delivered, inOrder⟩

end Server

end Portask.Amqp
