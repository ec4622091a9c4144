import Portask.Amqp.QueueOrder
import Portask.Lib.Placement

/-! # Where each message is

An accepted message waits in its queue, is held under a delivery tag, or is settled. A nack
that puts a message back also gives it a new tag, so that from then on the message is in two
places. Without such nacks, and as long as a consume does not assign a tag that is still in
use, each message is in exactly one place.
-/

namespace Portask.Amqp

open Function Lib Kafka

inductive Place where
  | waiting (queueName : GoString) (i : Nat)
  | held (channelID : UInt16) (deliveryTag : UInt64)
  | settled (i : Nat)
  deriving DecidableEq

namespace Broker

/-- A message with its number, its queue and its bytes. -/
def label (item : GoString × Body) : Nat × GoString × List UInt8 :=
  (item.2.number, item.1, item.2.bytes)

def holds (b : Broker) : Place → Option (Nat × GoString × List UInt8)
  | .waiting queueName i => (b.waiting queueName)[i]?.map fun body => label (queueName, body)
  | .held channelID deliveryTag => (b.held channelID deliveryTag).map label
  | .settled i => b.settled[i]?.map label

def Conserves (b : Broker) : Prop := Placed b.holds b.accepted

theorem setHeld_apply (held : UInt16 → UInt64 → Option (GoString × Body)) (channelID other : UInt16)
    (deliveryTag tag : UInt64) (item : Option (GoString × Body)) :
    setHeld held channelID deliveryTag item other tag =
      if other = channelID ∧ tag = deliveryTag then item else held other tag := by
  rw [setHeld]
  by_cases here : other = channelID
  · subst here
    rw [update_self]
    by_cases same : tag = deliveryTag
    · rw [same, update_self, if_pos ⟨rfl, rfl⟩]
    · rw [update_of_ne same, if_neg fun both => same both.2]
  · rw [update_of_ne here, if_neg fun both => here both.1]

/-- How far a tag is from the first one, in steps of the counter. -/
def distance (first tag : UInt64) : Nat := (tag - first).toNat

theorem distance_self (first : UInt64) : distance first first = 0 := by
  rw [distance, UInt64.sub_self]
  rfl

theorem distance_succ {first tag} (differ : tag ≠ first) :
    distance first tag = distance (first + 1) tag + 1 := by
  simp only [distance]
  have apart : tag.toNat ≠ first.toNat := fun same => differ (UInt64.toNat_inj.mp same)
  have small := tag.toNat_lt
  have small' := first.toNat_lt
  simp only [UInt64.toNat_sub, UInt64.toNat_add, UInt64.toNat_one]
  omega

theorem distance_add (first : UInt64) {i : Nat} (small : i < 2 ^ 64) :
    distance first (first + UInt64.ofNat i) = i := by
  have cancel : first + UInt64.ofNat i - first = UInt64.ofNat i := by
    rw [UInt64.add_comm, UInt64.add_sub_cancel]
  rw [distance, cancel, UInt64.toNat_ofNat_of_lt' small]

theorem add_distance (first tag : UInt64) : first + UInt64.ofNat (distance first tag) = tag := by
  rw [distance, UInt64.ofNat_toNat, UInt64.add_comm, UInt64.sub_add_cancel]

/-- Consecutive tags hold the messages in order, and every other tag what it held. -/
theorem hold_apply {held} (channelID other : UInt16) (queueName : GoString) {first}
    (tag : UInt64) {messages} (few : messages.length ≤ 2 ^ 64) :
    hold held channelID queueName first messages other tag =
      if other = channelID ∧ distance first tag < messages.length then
        messages[distance first tag]?.map fun body => (queueName, body)
      else held other tag := by
  induction messages generalizing held first with
  | nil => rw [hold, List.length_nil, if_neg fun both => Nat.not_lt_zero _ both.2]
  | cons body messages ih =>
    rw [List.length_cons] at few ⊢
    rw [hold, ih (by omega), setHeld_apply]
    by_cases here : other = channelID
    · by_cases same : tag = first
      · -- the tag comes back only after all others
        have far : ¬ distance (first + 1) tag < messages.length := by
          have around : distance (first + 1) tag = 2 ^ 64 - 1 := by
            rw [same, distance]
            have small := first.toNat_lt
            simp only [UInt64.toNat_sub, UInt64.toNat_add, UInt64.toNat_one]
            omega
          omega
        rw [if_neg fun both => far both.2, if_pos ⟨here, same⟩, same, distance_self,
          if_pos ⟨here, Nat.succ_pos _⟩]
        rfl
      · rw [distance_succ same, List.getElem?_cons_succ]
        by_cases near : distance (first + 1) tag < messages.length
        · rw [if_pos ⟨here, near⟩, if_pos ⟨here, Nat.succ_lt_succ near⟩]
        · rw [if_neg fun both => near both.2, if_neg fun both => same both.2,
            if_neg fun both => near (Nat.lt_of_succ_lt_succ both.2)]
    · rw [if_neg fun both => here both.1, if_neg fun both => here both.1, if_neg fun both => here both.1]

variable {b : Broker}

theorem Conserves.accept (conserves : b.Conserves) (queueName : GoString) (bytes : List UInt8) :
    (b.apply (.accept queueName bytes)).Conserves := by
  refine Placed.add conserves
    (p := .waiting queueName (b.waiting queueName).length) ?_ ?_ fun place other => ?_
  · simp [holds]
  · simp [holds, apply, label]
  · cases place with
    | held channelID deliveryTag => rfl
    | settled i => rfl
    | waiting name i =>
      by_cases here : name = queueName
      · subst here
        have apart : i ≠ (b.waiting name).length := fun same => other (by rw [same])
        have unchanged : (b.waiting name ++ [⟨b.accepted.length, bytes⟩])[i]? = (b.waiting name)[i]? := by
          obtain below | above := Nat.lt_or_gt_of_ne apart
          · exact List.getElem?_append_left below
          · rw [List.getElem?_eq_none (by simpa using Nat.succ_le_of_lt above), List.getElem?_eq_none (by omega)]
        simp [holds, apply, unchanged]
      · simp [holds, apply, here]

theorem waits_of_occupied (occupied : b.holds (.waiting queueName i) ≠ none) :
    i < (b.waiting queueName).length := by
  by_contra beyond
  exact occupied (by rw [holds, List.getElem?_eq_none (by omega), Option.map_none])

/-- Where a consume puts the message of a place. -/
def consumeTarget (channelID : UInt16) (queueName : GoString) (first : UInt64) : Place → Place
  | .waiting name i =>
    if name = queueName then .held channelID (first + UInt64.ofNat i) else .waiting name i
  | place => place

/-- A consume of few enough messages, under tags that are not in use. -/
theorem Conserves.consume (conserves : b.Conserves) {channelID queueName first}
    (few : (b.waiting queueName).length ≤ 2 ^ 64)
    (free : ∀ i < (b.waiting queueName).length, b.held channelID (first + UInt64.ofNat i) = none) :
    (b.apply (.consume channelID queueName first)).Conserves := by
  have held_now (other : UInt16) (tag : UInt64) :
    (b.apply (.consume channelID queueName first)).held other tag =
      if other = channelID ∧ distance first tag < (b.waiting queueName).length then
        (b.waiting queueName)[distance first tag]?.map fun body => (queueName, body)
      else b.held other tag := hold_apply channelID other queueName tag few
  refine Placed.relocate conserves (consumeTarget channelID queueName first) (fun x occupied =>
    ?_) fun place occupied => ?_
  · cases x with
    | settled i => rfl
    | waiting name i =>
      by_cases here : name = queueName
      · subst here
        have below := waits_of_occupied occupied
        simp only [consumeTarget, if_true, holds]
        rw [held_now, distance_add first (by omega), if_pos ⟨rfl, below⟩, Option.map_map]
        rfl
      · simp [holds, apply, consumeTarget, here]
    | held other tag =>
      have unused : ¬ (other = channelID ∧ distance first tag < (b.waiting queueName).length) := by
        rintro ⟨rfl, near⟩
        have none := free _ near
        rw [add_distance] at none
        exact occupied (by rw [holds, none, Option.map_none])
      simp only [consumeTarget, holds]
      rw [held_now, if_neg unused]
  · cases place with
    | settled i => exact ⟨.settled i, rfl, rfl⟩
    | waiting name i =>
      have other : name ≠ queueName := by
        rintro rfl
        exact occupied (by simp [holds, apply])
      exact ⟨.waiting name i, by rw [consumeTarget, if_neg other], by simp [holds, apply, other]⟩
    | held other tag =>
      by_cases new : other = channelID ∧ distance first tag < (b.waiting queueName).length
      · refine ⟨.waiting queueName (distance first tag), ?_, ?_⟩
        · rw [consumeTarget, if_pos rfl, add_distance, new.1]
        · simp only [holds]
          rw [held_now, if_pos new, Option.map_map]
          rfl
      · refine ⟨.held other tag, rfl, ?_⟩
        simp only [holds]
        rw [held_now, if_neg new]

/-- Where a settled tag's message goes. -/
def settleTarget (b : Broker) (channelID : UInt16) (deliveryTag : UInt64) : Place → Place
  | .held other tag =>
    if other = channelID ∧ tag = deliveryTag then .settled b.settled.length else .held other tag
  | place => place

theorem Conserves.settle (conserves : b.Conserves) (channelID : UInt16) (deliveryTag : UInt64) :
    (b.apply (.settle channelID deliveryTag)).Conserves := by
  rw [apply]
  cases there : b.held channelID deliveryTag with
  | none => exact conserves
  | some item =>
    refine Placed.relocate conserves (b.settleTarget channelID deliveryTag) (fun x occupied =>
      ?_) fun place occupied => ?_
    · cases x with
      | waiting name i => rfl
      | held other tag =>
        by_cases here : other = channelID ∧ tag = deliveryTag
        · obtain ⟨rfl, rfl⟩ := here
          simp [settleTarget, holds, there]
        · simp [settleTarget, holds, setHeld_apply, here]
      | settled i =>
        have below : i < b.settled.length := by
          by_contra beyond
          exact occupied (by rw [holds, List.getElem?_eq_none (by omega), Option.map_none])
        simp [settleTarget, holds, List.getElem?_append_left below]
    · cases place with
      | waiting name i => exact ⟨.waiting name i, rfl, rfl⟩
      | held other tag =>
        have elsewhere : ¬ (other = channelID ∧ tag = deliveryTag) := by
          rintro ⟨rfl, rfl⟩
          exact occupied (by simp [holds, setHeld_apply])
        exact ⟨.held other tag, by rw [settleTarget, if_neg elsewhere], by simp [holds, setHeld_apply, elsewhere]⟩
      | settled i =>
        obtain below | last | above := Nat.lt_trichotomy i b.settled.length
        · exact ⟨.settled i, rfl, by simp [holds, List.getElem?_append_left below]⟩
        · subst last
          exact ⟨.held channelID deliveryTag, by rw [settleTarget, if_pos ⟨rfl, rfl⟩], by simp [holds, there]⟩
        · refine absurd ?_ occupied
          rw [holds, addSettled_settled, withHeld_settled, List.getElem?_eq_none, Option.map_none]
          simpa using Nat.succ_le_of_lt above

/-- An operation that leaves each message in one place. -/
def Careful (b : Broker) : BrokerOp → Prop
  | .consume channelID queueName first =>
    (b.waiting queueName).length ≤ 2 ^ 64 ∧
      ∀ i < (b.waiting queueName).length, b.held channelID (first + UInt64.ofNat i) = none
  | .requeue channelID deliveryTag _ _ => b.held channelID deliveryTag = none
  | _ => True

theorem Conserves.apply (conserves : b.Conserves) (careful : b.Careful op) :
    (b.apply op).Conserves := by
  cases op with
  | nothing => exact conserves
  | accept queueName bytes => exact conserves.accept queueName bytes
  | consume channelID queueName first => exact conserves.consume careful.1 careful.2
  | settle channelID deliveryTag => exact conserves.settle channelID deliveryTag
  | requeue channelID deliveryTag new redelivers =>
    have unheld : b.held channelID deliveryTag = none := careful
    rw [Broker.apply, unheld]
    exact conserves

end Broker

variable {C : Type}

namespace Server

variable {s t : Server C}

/-- A nack puts back only what is not held, and a consume assigns only tags that are not in use. -/
def Careful (s : Server C) : Input C → Prop
  | .method _ channelID _ (.basicConsume queueName _) =>
    (s.waiting queueName).length ≤ 2 ^ 64 ∧
      ∀ i < (s.waiting queueName).length, s.held channelID (s.firstTag channelID + UInt64.ofNat i) = none
  | .method _ channelID _ (.basicNack deliveryTag true) => s.held channelID deliveryTag = none
  | _ => True

instance (s : Server C) : (input : Input C) → Decidable (s.Careful input)
  | .method _ channelID _ (.basicConsume queueName _) =>
    inferInstanceAs (Decidable ((s.waiting queueName).length ≤ 2 ^ 64 ∧
      ∀ i < (s.waiting queueName).length,
        s.held channelID (s.firstTag channelID + UInt64.ofNat i) = none))
  | .method _ channelID _ (.basicNack deliveryTag true) =>
    inferInstanceAs (Decidable (s.held channelID deliveryTag = none))
  | .method _ _ _ (.basicNack _ false) | .method _ _ _ (.exchangeDeclare ..) | .method _ _ _
    (.queueDeclare ..)
  | .method _ _ _ (.basicPublish ..) | .method _ _ _ (.basicQos ..) | .method _ _ _ (.basicAck ..)
  | .method _ _ _ .other | .header .. | .body .. | .publish .. => .isTrue trivial

theorem publishOp_careful (s : Server C) (call : Publish) :
    s.broker.Careful (s.publishOp call) := by
  obtain same | ⟨target, same⟩ := s.publishOp_cases call <;>
  · rw [same]
    trivial

theorem Careful.op (careful : s.Careful input) : s.broker.Careful (s.op input) := by
  cases input with
  | header channelID bodySize => trivial
  | publish call => exact s.publishOp_careful call
  | body channelID payload =>
    rw [Server.op]
    split
    · exact s.publishOp_careful _
    · trivial
  | method conn channelID now request =>
    cases request with
    | basicConsume queueName consumerTag =>
      rw [Server.op]
      split
      · exact careful
      · trivial
    | basicNack deliveryTag requeue =>
      cases requeue with
      | false => trivial
      | true =>
        rw [Server.op, nackOp]
        split
        · trivial
        · exact careful
    | _ => trivial

theorem start_conserves (C : Type) : (newEnhancedAMQPServer C).broker.Conserves := by
  have nowhere (place : Place) : (newEnhancedAMQPServer C).broker.holds place = none := by
    cases place <;> rfl
  refine ⟨fun place n item there => ?_, fun n item there => ?_, fun place _ n item _ there _ => ?_⟩
  · rw [nowhere] at there
    cases there
  · cases there
  · rw [nowhere] at there
    cases there

/-- In every run of careful steps each accepted message is in exactly one place. -/
theorem messages_conserved {inputs : List (Input C)}
    (ran : (oneStep.restrict Careful).run (newEnhancedAMQPServer C) inputs = some t) {n : Nat}
    {queueName : GoString}
    {bytes : List UInt8} (accepted : t.accepted[n]? = some (queueName, bytes)) :
    ∃ place, t.broker.holds place = some (n, queueName, bytes) ∧
      ∀ other item, t.broker.holds other = some (n, item) → other = place := by
  have invariant : t.broker.Conserves ∧ t.Homed := by
    refine (oneStep.restrict Careful).run_invariant (P := fun s => s.broker.Conserves ∧ s.Homed) ?_
      ⟨start_conserves C, start_homed C⟩ ran
    rintro s input t ⟨conserves, homed⟩ stepped
    obtain ⟨careful, stepped⟩ := oneStep.restrict_next.mp stepped
    obtain ⟨changed, homed⟩ := oneStep_broker homed stepped
    exact ⟨changed ▸ conserves.apply careful.op, homed⟩
  exact invariant.1.exactly_one accepted

/-- The first message is settled, the second held and the third waits. -/
theorem messages_conserved_three :
    ∃ t, (oneStep.restrict Careful).run (newEnhancedAMQPServer Nat) twoChannels = some t ∧
      t.accepted[1]? = some (ascii "q", [2, 3]) ∧
      ∃ place, t.broker.holds place = some (1, ascii "q", [2, 3]) ∧
        ∀ other item, t.broker.holds other = some (1, item) → other = place := by
  refine exists_of_view (·.accepted[1]?) (some (ascii "q", [2, 3]))
    (by decide +kernel) fun t ran accepted => ?_
  exact ⟨accepted, messages_conserved ran accepted⟩

/-- A message is consumed on channel 1 and put back by a nack. -/
def putBack : List (Input Nat) :=
  [.method 0 1 0 (.queueDeclare (ascii "q")), .publish ⟨1, [], ascii "q", [7]⟩,
    .method 0 1 0 (.basicConsume (ascii "q") (ascii "t")), .method 0 1 0 (.basicNack 1 true)]

/-- It waits in its queue and is held under the next tag. -/
theorem put_back_is_in_two_places :
    ((oneStep.run (newEnhancedAMQPServer Nat) putBack).map fun t =>
      t.broker.holds (.waiting (ascii "q") 0)) = some (some (0, ascii "q", [7])) ∧
    ((oneStep.run (newEnhancedAMQPServer Nat) putBack).map fun t => t.broker.holds (.held 1 2)) =
      some (some (0, ascii "q", [7])) :=
  ⟨by decide +kernel, by decide +kernel⟩

end Server

end Portask.Amqp
