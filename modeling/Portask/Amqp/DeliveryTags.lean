import Portask.Amqp.Threads
import Mathlib.Logic.Relation
import Mathlib.Data.List.Range

/-! # Delivery tags

What the goroutines do to one channel number is a sequence of a few kinds of changes: its
state is made, fields that have nothing to do with delivery tags are set, a consume gets the
state ready, a tag is assigned, a tag is forgotten. Whatever their order, the tags are
assigned as 1, 2, 3 and so on, and the unacked messages are counted, until the counter of
64 bits starts again from zero.
-/

namespace Portask.Amqp

open Function Lib Kafka

variable {C : Type}

/-- The tags that were assigned on a channel number, in order. -/
def Server.tags (s : Server C) (channelID : UInt16) : List UInt64 :=
  (s.assigned.filter fun entry => entry.1 = channelID).map Prod.snd

open Server

/-- Of a channel number, its state and the tags assigned on it. -/
abbrev Numbered (C : Type) := Option (ChannelState C) × List UInt64

def Server.numbered (s : Server C) (channelID : UInt16) : Numbered C :=
  (s.channelStates channelID, s.tags channelID)

/-- One change of a channel number. The first tag of all is only assigned after a consume has
    got the state ready. -/
inductive Change : Numbered C → Numbered C → Prop where
  | create {c tags} (blank : Blank c) : Change (none, tags) (some c, tags)
  | touch {c c' tags} (same : SameTags c c') : Change (some c, tags) (some c', tags)
  | prepare {c tags} : Change (some c, tags) (some c.prepare, tags)
  | track {c c' tags queueName body redelivered} (ready : tags = [] →
    c.nextDeliveryTag ≠ 0) (tracked : c.track queueName body redelivered = some c') :
      Change (some c, tags) (some c', tags ++ [c.nextDeliveryTag])
  | forget {c tags deliveryTag entry} (held : c.unacked deliveryTag = some entry) :
    Change (some c, tags) (some (c.forget deliveryTag), tags)

abbrev Changed : Numbered C → Numbered C → Prop := Relation.ReflTransGen Change

/-- The first `n` tags. -/
def oneTo (n : Nat) : List UInt64 := (List.range n).map fun i => UInt64.ofNat (i + 1)

theorem oneTo_succ (n : Nat) : oneTo (n + 1) = oneTo n ++ [UInt64.ofNat (n + 1)] := by
  rw [oneTo, List.range_succ, List.map_append]
  rfl

theorem toNat_tag {n : Nat} (few : n < 2 ^ 64) : (UInt64.ofNat n).toNat = n :=
  UInt64.toNat_ofNat_of_lt' few

theorem toNat_of_mem_oneTo (few : n < 2 ^ 64) (inside : tag ∈ oneTo n) :
    1 ≤ tag.toNat ∧ tag.toNat ≤ n := by
  obtain ⟨i, below, rfl⟩ := List.mem_map.mp inside
  rw [List.mem_range] at below
  rw [toNat_tag (by omega)]
  omega

theorem oneTo_nodup (few : n < 2 ^ 64) : (oneTo n).Nodup := by
  refine List.Nodup.map_on (fun i hi j hj same => ?_) List.nodup_range
  rw [List.mem_range] at hi hj
  have := congrArg UInt64.toNat same
  rw [toNat_tag (by omega), toNat_tag (by omega)] at this
  omega

/-- The counter is one ahead of the tags, except that it is zero before it is first needed, and
    that it may be anything once all tags have been used. -/
structure Tagged (c : ChannelState C) (tags : List UInt64) : Prop where
  inOrder : tags = oneTo tags.length
  counted : c.currentlyUnacked = (c.unackedMessages.getD ∅).keys.length
  named : ∀ tag entry, c.unacked tag = some entry → entry.deliveryTag = tag ∧ tag ∈ tags
  next : tags.length + 1 < 2 ^ 64 →
    c.nextDeliveryTag = UInt64.ofNat (tags.length + 1) ∨ tags = [] ∧ c.nextDeliveryTag = 0

def Sound : Numbered C → Prop
  | (none, tags) => tags = []
  | (some c, tags) => tags.length < 2 ^ 64 → Tagged c tags

theorem ChannelState.unacked_eq (c : ChannelState C) (tag : UInt64) :
    c.unacked tag = (c.unackedMessages.getD ∅).lookup tag := by
  rw [unacked]
  cases c.unackedMessages with
  | none => rfl
  | some m => rfl

variable {c : ChannelState C}

theorem Blank.tagged (blank : Blank c) : Tagged c [] where
  inOrder := rfl
  counted := by rw [blank.count, blank.unacked]; rfl
  named tag entry held := by
    rw [c.unacked_eq, blank.unacked] at held
    cases held
  next _ := .inr ⟨rfl, blank.next⟩

variable {tags : List UInt64} {c c' : ChannelState C}

section

variable (tagged : Tagged c tags)
include tagged

theorem Tagged.touch (same : SameTags c c') : Tagged c' tags where
  inOrder := tagged.inOrder
  counted := by rw [same.count, same.unacked, tagged.counted]
  named tag entry held :=
    tagged.named tag entry (by rwa [c'.unacked_eq, same.unacked, ← c.unacked_eq] at held)
  next few := by rw [same.next]; exact tagged.next few

theorem Tagged.prepare : Tagged c.prepare tags where
  __ := tagged
  named tag entry held := tagged.named tag entry (by rwa [ChannelState.unacked_eq] at held ⊢)
  next few := by
    rw [ChannelState.prepare]
    obtain next | ⟨none, next⟩ := tagged.next few
    · left
      have : UInt64.ofNat (tags.length + 1) ≠ 0 := by
        intro zero
        have := congrArg UInt64.toNat zero
        rw [toNat_tag few] at this
        exact absurd this (by simp)
      simp only [next, if_neg this]
    · left
      simp [none, next]

theorem Tagged.track
    (few : (tags ++ [c.nextDeliveryTag]).length < 2 ^ 64)
    (ready : tags = [] → c.nextDeliveryTag ≠ 0)
    (tracked : c.track queueName body redelivered = some c') :
    Tagged c' (tags ++ [c.nextDeliveryTag]) := by
  rw [List.length_append, List.length_singleton] at few
  obtain ⟨m, made, rfl⟩ := Option.map_eq_some_iff.mp tracked
  have next : c.nextDeliveryTag = UInt64.ofNat (tags.length + 1) :=
    (tagged.next few).resolve_right fun unused => ready unused.1 unused.2
  have entries (tag : UInt64) : c.unacked tag = m.lookup tag := by
    rw [ChannelState.unacked, made, Option.bind_some]
  have new : c.nextDeliveryTag ∉ m := by
    intro inside
    obtain ⟨entry, held⟩ := Option.isSome_iff_exists.mp (AList.lookup_isSome.mpr inside)
    have earlier := (tagged.named _ entry ((entries _).trans held)).2
    rw [tagged.inOrder, next] at earlier
    have := toNat_of_mem_oneTo (by omega) earlier
    rw [toNat_tag few] at this
    omega
  refine ⟨?_, ?_, fun tag entry held => ?_, fun later => ?_⟩
  · rw [List.length_append, List.length_singleton, oneTo_succ, ← tagged.inOrder, next]
  · have counted := tagged.counted
    rw [made] at counted
    have kept : (m.keys.erase c.nextDeliveryTag).length = m.keys.length := by
      rw [List.erase_of_not_mem (fun inside => new (AList.mem_keys.mpr inside))]
    simp only [Option.getD_some, AList.keys_insert, List.length_cons, kept] at counted ⊢
    push_cast
    omega
  · simp only [ChannelState.unacked, Option.bind_some] at held
    by_cases here : tag = c.nextDeliveryTag
    · subst here
      rw [AList.lookup_insert, Option.some_inj] at held
      subst held
      exact ⟨rfl, by simp⟩
    · rw [AList.lookup_insert_ne here] at held
      obtain ⟨name, inside⟩ := tagged.named tag entry ((entries tag).trans held)
      exact ⟨name, List.mem_append_left _ inside⟩
  · rw [List.length_append, List.length_singleton]
    left
    exact next ▸ (UInt64.ofNat_add (tags.length + 1) 1).symm

theorem Tagged.forget
    (held : c.unacked deliveryTag = some entry) : Tagged (c.forget deliveryTag) tags := by
  obtain ⟨m, made, found⟩ := Option.bind_eq_some_iff.mp held
  have inside : deliveryTag ∈ m.keys :=
    AList.mem_keys.mp (AList.lookup_isSome.mp (by rw [found]; rfl))
  refine ⟨tagged.inOrder, ?_, fun tag entry held => ?_, tagged.next⟩
  · have counted := tagged.counted
    have some : 0 < m.keys.length := List.length_pos_of_mem inside
    simp only [ChannelState.forget, made, Option.map_some, Option.getD_some, AList.keys_erase,
      List.length_erase_of_mem inside] at counted ⊢
    omega
  · simp only [ChannelState.forget, ChannelState.unacked, made, Option.map_some,
      Option.bind_some] at held
    by_cases here : tag = deliveryTag
    · subst here
      simp at held
    · rw [AList.lookup_erase_ne here] at held
      exact tagged.named tag entry (by rw [ChannelState.unacked, made, Option.bind_some, held])

end

variable {before after : Numbered C}

theorem Change.sound (change : Change before after) (sound : Sound before) : Sound after := by
  cases change with
  | create blank =>
    subst sound
    exact fun _ => blank.tagged
  | touch same => exact fun few => (sound few).touch same
  | prepare => exact fun few => (sound few).prepare
  | track ready tracked =>
    intro few
    have before := few
    rw [List.length_append, List.length_singleton] at before
    exact (sound (by omega)).track few ready tracked
  | forget held => exact fun few => (sound few).forget held

theorem Changed.sound (changed : Changed before after) (sound : Sound before) : Sound after := by
  induction changed with
  | refl => exact sound
  | tail _ change ih => exact change.sound ih

/-- A consume has got the state ready. -/
def Ready : Numbered C → Prop
  | (none, _) => False
  | (some c, tags) => c.unackedMessages ≠ none ∧ (tags = [] → c.nextDeliveryTag ≠ 0)

theorem ready_prepare (c : ChannelState C) (tags : List UInt64) : Ready (some c.prepare, tags) := by
  refine ⟨by simp [ChannelState.prepare], fun _ => ?_⟩
  rw [ChannelState.prepare]
  split
  · simp
  · assumption

theorem Change.ready (change : Change before after) (ready : Ready before) : Ready after := by
  cases change with
  | create => exact ready.elim
  | touch same => exact ⟨same.unacked ▸ ready.1, fun none => same.next ▸ ready.2 none⟩
  | prepare => exact ready_prepare _ _
  | track _ tracked =>
    obtain ⟨m, made, rfl⟩ := Option.map_eq_some_iff.mp tracked
    exact ⟨by simp, by simp⟩
  | forget held =>
    obtain ⟨m, made, found⟩ := Option.bind_eq_some_iff.mp held
    exact ⟨by simp [ChannelState.forget, made], ready.2⟩

theorem Changed.ready (changed : Changed before after) (ready : Ready before) : Ready after := by
  induction changed with
  | refl => exact ready
  | tail _ change ih => exact change.ready ih

theorem Changed.exists (changed : Changed before after) (made : before.1 ≠ none) :
    after.1 ≠ none := by
  induction changed with
  | refl => exact made
  | tail _ change ih => cases change <;> simp

def Changes (s s' : Server C) : Prop :=
  ∀ channelID, Changed (s.numbered channelID) (s'.numbered channelID)

variable {s s' : Server C}

theorem Changes.of_eq (states : s'.channelStates = s.channelStates)
    (assigned : s'.assigned = s.assigned) : Changes s s' := by
  intro channelID
  rw [numbered, numbered, tags, tags, states, assigned]

theorem Changes.trans {s₁ s₂ s₃ : Server C} (first : Changes s₁ s₂) (later : Changes s₂ s₃) :
    Changes s₁ s₃ :=
  fun channelID => (first channelID).trans (later channelID)

/-- Only one channel state is set, and no tag is assigned. -/
theorem Changes.set (states : s'.channelStates = update s.channelStates channelID (some c))
    (assigned : s'.assigned = s.assigned)
    (changed : Changed (s.numbered channelID) (some c, s.tags channelID)) : Changes s s' := by
  intro other
  have numbered : s'.numbered other =
      (update s.channelStates channelID (some c) other, s.tags other) := by
    rw [numbered, states, tags, assigned, tags]
  rw [numbered]
  by_cases here : other = channelID
  · subst here
    rwa [update_self]
  · rw [update_of_ne here]
    exact .refl

theorem changed_getD (o : Option (ChannelState C)) (tags : List UInt64) (blank : Blank fresh)
    (same : SameTags (o.getD fresh) c) : Changed (o, tags) (some c, tags) := by
  cases o with
  | none =>
    exact .single (.create ⟨by rw [same.unacked]; exact blank.unacked, same.count.trans blank.count,
      same.next.trans blank.next⟩)
  | some c' => exact .single (.touch same)

/-- What has to be so before a goroutine goes on. -/
def Act.Fits (s : Server C) : Act C → Prop
  | .take _ channelID _ _ => s.channelStates channelID ≠ none
  | .deliver _ channelID _ _ _ => Ready (s.numbered channelID)
  | _ => True

theorem Act.Fits.changes {act : Act C} (fits : act.Fits s) (changes : Changes s s') :
    act.Fits s' := by
  cases act with
  | take conn channelID queueName consumerTag => exact (changes channelID).exists fits
  | deliver conn channelID queueName consumerTag messages => exact (changes channelID).ready fits
  | send | setState | publish | register => trivial

/-- A step changes channel numbers in the ways above, and leaves to do what can be done. -/
structure Step.Fine (s : Server C) (step : Step C) : Prop where
  changes : Changes s step.server
  fits : ∀ act ∈ step.todo, act.Fits step.server

namespace Server

theorem tags_noteAssigned (s : Server C) (channelID other : UInt16) (tag : UInt64) :
    (s.noteAssigned channelID tag).tags other = s.tags other ++ if channelID = other then [tag]
      else [] := by
  rw [tags, noteAssigned_assigned, List.filter_append, List.map_append, ← tags]
  split <;> simp [*]

theorem assign_changes {s s' : Server C}
    (assigned : s.assign channelID queueName body redelivered = some (s', deliveryTag))
    (ready : ∀ c, s.channelStates channelID = some c → s.tags channelID = [] →
      c.nextDeliveryTag ≠ 0) : Changes s s' ∧ Ready (s'.numbered channelID) := by
  obtain ⟨c, found, later⟩ := Option.bind_eq_some_iff.mp assigned
  obtain ⟨c', tracked, same⟩ := Option.map_eq_some_iff.mp later
  obtain ⟨rfl, -⟩ := Prod.mk.inj same
  have here :
    ((s.setChannel channelID c').noteAssigned channelID c.nextDeliveryTag).numbered channelID =
      (some c', s.tags channelID ++ [c.nextDeliveryTag]) := by
    rw [numbered, tags_noteAssigned, if_pos rfl, noteAssigned_channelStates,
      setChannel_channelStates, update_self]
    rfl
  constructor
  · intro other
    by_cases same : other = channelID
    · subst same
      rw [here, numbered, found]
      exact .single (.track (ready c found) tracked)
    · rw [numbered, numbered, tags_noteAssigned, if_neg (Ne.symm same), noteAssigned_channelStates,
        setChannel_channelStates, update_of_ne same, List.append_nil]
      exact .refl
  · rw [here]
    obtain ⟨m, made, rfl⟩ := Option.map_eq_some_iff.mp tracked
    exact ⟨by simp, by simp⟩

variable (s : Server C) (conn : C) (channelID : UInt16)

theorem handleBasicPublish_changes (call : Publish) : Changes s (s.handleBasicPublish call).1 := by
  rw [handleBasicPublish]
  dsimp only
  split
  · exact .of_eq rfl rfl
  · split <;> exact .of_eq rfl rfl

theorem register_fine (queueName consumerTag : GoString) :
    Step.Fine s
      { server := s.register conn channelID consumerTag, todo := [.take conn channelID queueName consumerTag] } where
  changes := .set rfl rfl (changed_getD _ _ blank_made ⟨rfl, rfl, rfl⟩)
  fits := by simp [Act.Fits, register, setChannel]

theorem take_fine {s' queueName messages}
    (taken : s.take channelID queueName = some (s', messages)) (consumerTag : GoString) :
    Step.Fine s
    { server := s', todo := [.deliver conn channelID queueName consumerTag messages] } := by
  obtain ⟨c, found, later⟩ := Option.bind_eq_some_iff.mp taken
  obtain ⟨queue, -, same⟩ := Option.map_eq_some_iff.mp later
  obtain ⟨rfl, rfl⟩ := Prod.mk.inj same
  refine ⟨.set rfl rfl ?_, ?_⟩
  · rw [numbered, found]
    exact .single .prepare
  · rintro act inside
    obtain rfl := List.mem_singleton.mp inside
    show Ready (numbered _ channelID)
    rw [numbered, setChannel_channelStates, update_self]
    exact ready_prepare c _

end Server

theorem Step.Fine.alone (changes : Changes s s') (error : Option FrameError) :
    Step.Fine s { server := s', error := error } := ⟨changes, by simp⟩

namespace Server

variable {s : Server C}

variable {now : Nat} {step : Step C} {conn : C}

/-- A nack assigns a tag although no consume has got the state ready just before; but a tag that
    is held was assigned before. -/
theorem Effect.fine {frame} (sound : Sound (s.numbered frame.channelID))
    (effect : Effect s conn frame step) : step.Fine s := by
  cases effect with
  | plain => exact ⟨.of_eq rfl rfl, by simp⟩
  | consume => exact ⟨.of_eq rfl rfl, by simp [Act.Fits]⟩
  | touch blank same | publish _ blank same =>
    exact ⟨.set rfl rfl (changed_getD _ _ blank same), by simp [Act.Fits]⟩
  | forget found held =>
    refine ⟨.set rfl rfl ?_, by simp⟩
    rw [numbered, found]
    exact .single (.forget held)
  | requeue found held assigned =>
    rw [numbered, found] at sound
    have used : s.tags frame.channelID ≠ [] := by
      intro none
      have tagged := sound (by simp [none])
      exact List.ne_nil_of_mem (tagged.named _ _ held).2 none
    obtain ⟨changes, -⟩ := assign_changes assigned fun _ _ none => absurd none used
    refine ⟨.trans ?_ changes, fun act inside => ?_⟩
    · refine .set rfl rfl ?_
      rw [numbered, found]
      exact .single (.forget held)
    · obtain ⟨_, _, rfl⟩ := mem_redelivery inside
      trivial

theorem handleFrameWithState_fine {connID frame}
    (sound : Sound (s.numbered frame.channelID))
    (handled : s.handleFrameWithState conn connID now frame = some step) : step.Fine s := by
  obtain ⟨handled, -⟩ | ⟨-, connecting⟩ := handleFrameWithState_cases handled
  · exact (handleAMQPFrame_effect handled).fine sound
  · cases connecting with
    | refused => exact ⟨.of_eq rfl rfl, by simp⟩
    | startOk | tuneOk | opened | answered => exact ⟨.of_eq rfl rfl, by simp [Act.Fits]⟩

end Server

theorem Act.exec_fine {s} {act : Act C} (fits : act.Fits s) {step}
    (performed : act.exec s = some step) : step.Fine s := by
  revert performed
  fun_cases exec s act with
  | case1 | case2 | case6 =>
    rintro ⟨⟩
    exact ⟨.of_eq rfl rfl, by simp⟩
  | case3 call =>
    rintro ⟨⟩
    exact .alone (s.handleBasicPublish_changes call) _
  | case4 conn channelID queueName consumerTag =>
    rintro ⟨⟩
    exact s.register_fine conn channelID queueName consumerTag
  | case5 conn channelID queueName consumerTag =>
    intro performed
    obtain ⟨⟨s', messages⟩, taken, rfl⟩ := Option.map_eq_some_iff.mp performed
    exact s.take_fine conn channelID taken consumerTag
  | case7 conn channelID queueName consumerTag body messages =>
    intro performed
    obtain ⟨⟨s', deliveryTag⟩, assigned, rfl⟩ := Option.map_eq_some_iff.mp performed
    have ready (c : ChannelState C) (found : s.channelStates channelID = some c) :
        s.tags channelID = [] → c.nextDeliveryTag ≠ 0 := by
      rw [Act.Fits, numbered, found] at fits
      exact fits.2
    obtain ⟨changes, later⟩ := assign_changes assigned ready
    exact ⟨changes, List.forall_mem_cons.mpr ⟨trivial, List.forall_mem_singleton.mpr later⟩⟩

namespace System

structure Orderly (sys : System C) : Prop where
  sound : ∀ channelID, Sound (sys.server.numbered channelID)
  fits : ∀ conn, ∀ act ∈ sys.todo conn, act.Fits sys.server

theorem start_orderly (C : Type) : (start C).Orderly where
  sound _ := rfl
  fits _ _ inside := by cases inside

variable [DecidableEq C]

theorem Orderly.perform {sys : System C} (orderly : sys.Orderly)
    (fine : step.Fine sys.server) (left : ∀ act ∈ rest, act ∈ sys.todo conn) :
    (sys.perform conn rest step).Orderly where
  sound channelID := (fine.changes channelID).sound (orderly.sound channelID)
  fits other act inside := by
    have kept {conn : C} (inside : act ∈ sys.todo conn) : act.Fits step.server :=
      (orderly.fits conn act inside).changes fine.changes
    obtain ⟨-, inside⟩ | old := mem_perform inside
    · obtain new | old := List.mem_append.mp inside
      · exact fine.fits act new
      · exact kept (left act old)
    · exact kept old

theorem Orderly.next {sys later : System C} (orderly : sys.Orderly)
    (stepped : sys.next label = some later) : later.Orderly := by
  obtain ⟨conn, rest, step, rfl, ⟨none, rfl, kind⟩ | ⟨act, left, performed⟩⟩ := next_cases stepped
  · refine orderly.perform ?_ (by simp)
    obtain ⟨connID, rfl⟩ | ⟨connID, now, frame, -, handled⟩ | ⟨connID, rfl⟩ := kind
    · exact ⟨.of_eq rfl rfl, by simp [Act.Fits]⟩
    · exact handleFrameWithState_fine (orderly.sound _) handled
    · exact ⟨.of_eq rfl rfl, by simp⟩
  · refine orderly.perform (Act.exec_fine (orderly.fits conn act (by simp [left])) performed) ?_
    intro act inside
    rw [left]
    exact List.mem_cons_of_mem _ inside

/-- As long as fewer than 2^64 tags have been assigned on a channel number, the unacked messages
    are counted, each is held under its own tag, which is positive, and no tag is assigned
    twice. The tags are below the counter as long as one more tag is left. -/
theorem delivery_tags_sound {labels : List (Label C)} {sys : System C}
    (ran : machine.run (start C) labels = some sys) (channelID : UInt16)
    (few : (sys.server.tags channelID).length < 2 ^ 64) :
    (sys.server.tags channelID).Nodup ∧
    ∀ c, sys.server.channelStates channelID = some c →
      c.currentlyUnacked = (c.unackedMessages.getD ∅).keys.length ∧
      ∀ tag entry, c.unacked tag = some entry →
        entry.deliveryTag = tag ∧ 1 ≤ tag ∧
        ((sys.server.tags channelID).length < 2 ^ 64 - 1 → tag < c.nextDeliveryTag) := by
  have orderly : sys.Orderly :=
    machine.run_invariant (P := Orderly) (fun _ _ _ orderly stepped => orderly.next stepped)
      (start_orderly C) ran
  have sound := orderly.sound channelID
  rw [numbered] at sound
  cases found : sys.server.channelStates channelID with
  | none =>
    rw [found] at sound
    exact ⟨by rw [show sys.server.tags channelID = [] from sound]; exact List.nodup_nil, by simp⟩
  | some c =>
    rw [found] at sound
    have tagged := sound few
    refine ⟨by rw [tagged.inOrder]; exact oneTo_nodup few, ?_⟩
    rintro _ ⟨⟩
    refine ⟨tagged.counted, fun tag entry held => ?_⟩
    obtain ⟨name, inside⟩ := tagged.named tag entry held
    have bounds := inside
    rw [tagged.inOrder] at bounds
    obtain ⟨positive, below⟩ := toNat_of_mem_oneTo few bounds
    refine ⟨name, UInt64.le_iff_toNat_le.mpr positive, fun left => ?_⟩
    have next : c.nextDeliveryTag = UInt64.ofNat ((sys.server.tags channelID).length + 1) :=
      (tagged.next (by omega)).resolve_right fun unused => List.ne_nil_of_mem inside unused.1
    rw [next, UInt64.lt_iff_toNat_lt, toNat_tag (by omega)]
    omega

/-- A client opens its connection, declares the queue `q`, publishes a byte to it on channel 1
    and consumes it there under the empty consumer tag. -/
def delivery : List (Label Unit) :=
  [.frame () [] 0 (methodFrame 0 10 40 []), .step (), .step (),
    .frame () [] 0 (methodFrame 1 50 10 (shortString (ascii "q") ++ [0, 0, 0, 0])),
    .frame () [] 0 (methodFrame 1 60 40 (shortString [] ++ shortString (ascii "q") ++ [0])),
    .frame () [] 0 ⟨frameBody, 1, [7]⟩, .step (),
    .frame () [] 0
      (methodFrame 1 60 20 ([0, 0] ++ shortString (ascii "q") ++ shortString [] ++ [0]))] ++
    List.replicate 6 (.step ())

/-- The client publishes and consumes once more, with its first message still unacked. -/
theorem delivery_tags_sound_twice :
    ∃ sys, machine.run (start Unit) (delivery ++ delivery.drop 4) = some sys ∧
      sys.server.tags 1 = [1, 2] ∧
      ∃ c, sys.server.channelStates 1 = some c ∧
        c.currentlyUnacked = (c.unackedMessages.getD ∅).keys.length ∧
        ∃ entry, c.unacked 2 = some entry ∧ entry.deliveryTag = 2 ∧ 2 < c.nextDeliveryTag := by
  refine exists_of_view (fun sys =>
    (sys.server.tags 1, (sys.server.channelStates 1).map (·.unacked 2 |>.isSome)))
    ([1, 2], some true) (by decide +kernel) fun sys ran seen => ?_
  obtain ⟨tags, held⟩ := Prod.mk.inj seen
  obtain ⟨c, found, held⟩ := Option.map_eq_some_iff.mp held
  obtain ⟨entry, held⟩ := Option.isSome_iff_exists.mp held
  obtain ⟨counted, each⟩ := (delivery_tags_sound ran 1 (by rw [tags]; decide)).2 c found
  obtain ⟨own, -, below⟩ := each 2 entry held
  exact ⟨tags, c, found, counted, entry, held, own, below (by rw [tags]; decide)⟩

/-- The message is held under tag `i + 1`. -/
structure Holding (i : Nat) (sys : System Unit) : Prop where
  idle : (sys.todo ()).length = 0
  connected : sys.server.stateOf [] = .connected
  queue : (sys.server.queues (ascii "q")).isSome = true
  channel : ((sys.server.channelStates 1).map fun c =>
    (c.nextDeliveryTag, c.consumerTag, (c.unacked (UInt64.ofNat (i + 1))).map (·.queueName))) =
      some (UInt64.ofNat (i + 2), [], some (ascii "q"))
  tags : (sys.server.tags 1).length = i + 1

section

variable (deliveryTag : UInt64)

def nackPayload : List UInt8 := methodBytes 60 120 (bigEndian 8 deliveryTag.toNat ++ [2])

theorem classID_nackPayload : classID (nackPayload deliveryTag) = 60 :=
  classID_methodBytes 60 120 _

theorem length_nackPayload : (nackPayload deliveryTag).length = 13 :=
  (length_methodBytes 60 120 _).trans (by simp)

theorem readMethod_nackPayload :
    readMethod (nackPayload deliveryTag) = .ok (.basicNack deliveryTag true) := by
  have arguments : (nackPayload deliveryTag).drop 4 = bigEndian 8 deliveryTag.toNat ++ [2] :=
    drop_methodBytes 60 120 _
  have tag : UInt64.ofNat (numberAt (nackPayload deliveryTag) 4 8) = deliveryTag := by
    have small : deliveryTag.toNat < 256 ^ 8 := deliveryTag.toNat_lt
    rw [numberAt, arguments, List.take_left' (length_bigEndian 8 _), ofBigEndian_bigEndian,
      Nat.mod_eq_of_lt small, UInt64.ofNat_toNat]
  have method : methodID (nackPayload deliveryTag) = 120 := methodID_methodBytes 60 120 _
  have flags : (nackPayload deliveryTag).getD 12 0 = 2 := rfl
  rw [readMethod, basicNack, length_nackPayload, classID_nackPayload, method, tag, flags]
  rfl

end

omit [DecidableEq C] in
/-- A nack of a tag that is held moves the message to the next one and into its queue as well. -/
theorem handleBasicNack_held {s : Server C}
    (found : s.channelStates channelID = some c) (made : c.unackedMessages = some m)
    (held : c.unacked deliveryTag = some entry) (waits : s.queues entry.queueName = some queue)
    (silent : c.consumerTag = []) :
    s.handleBasicNack channelID deliveryTag = some
      { server := (((s.setChannel channelID (c.forget deliveryTag)).setQueue entry.queueName
          { queue with messages := queue.messages.append entry.body }).setChannel channelID
            { c.forget deliveryTag with
              nextDeliveryTag := c.nextDeliveryTag + 1
              unackedMessages := some ((m.erase deliveryTag).insert c.nextDeliveryTag
                ⟨c.nextDeliveryTag, entry.queueName, entry.body, true⟩)
              currentlyUnacked := c.currentlyUnacked - 1 + 1 }).noteAssigned channelID c.nextDeliveryTag } := by
  simp only [handleBasicNack, found, held, setChannel_queues, waits, assign,
    setQueue_channelStates, setChannel_channelStates, update_self, Option.bind_some,
      ChannelState.track, ChannelState.forget, made,
    Option.map_some, redelivery, silent, ne_eq, not_true_eq_false, if_false]
  cases c.conn <;> rfl

def sendNack (deliveryTag : UInt64) : Label Unit :=
  .frame () [] 0 ⟨frameMethod, 1, nackPayload deliveryTag⟩

/-- The message goes to the next tag with each nack. -/
theorem Holding.nack (holding : Holding i sys) :
    ∃ later, sys.next (sendNack (UInt64.ofNat (i + 1))) = some later ∧ Holding (i + 1) later := by
  obtain ⟨c, found, facts⟩ := Option.map_eq_some_iff.mp holding.channel
  obtain ⟨next, facts⟩ := Prod.mk.inj facts
  obtain ⟨silent, held⟩ := Prod.mk.inj facts
  obtain ⟨entry, held, queueName⟩ := Option.map_eq_some_iff.mp held
  obtain ⟨m, made, -⟩ := Option.bind_eq_some_iff.mp held
  obtain ⟨queue, waits⟩ := Option.isSome_iff_exists.mp holding.queue
  have idle : sys.todo () = [] := List.length_eq_zero_iff.mp holding.idle
  let s := sys.server
  let tag := UInt64.ofNat (i + 1)
  let c' : ChannelState Unit :=
    { c.forget tag with
      nextDeliveryTag := c.nextDeliveryTag + 1
      unackedMessages := some ((m.erase tag).insert c.nextDeliveryTag
        ⟨c.nextDeliveryTag, entry.queueName, entry.body, true⟩)
      currentlyUnacked := c.currentlyUnacked - 1 + 1 }
  let s' : Server Unit := (((s.setChannel 1 (c.forget tag)).setQueue entry.queueName
    { queue with messages := queue.messages.append entry.body }).setChannel 1 c').noteAssigned 1
      c.nextDeliveryTag
  have handled : s.handleFrameWithState () [] 0 ⟨frameMethod, 1, nackPayload tag⟩ =
      some { server := s' } := by
    rw [handleFrameWithState_method holding.connected rfl (by simp [length_nackPayload])
      (by simp [classID_nackPayload]) (by simp [classID_nackPayload]), handleMethodFrameWithChannel,
      readMethod_nackPayload]
    exact handleBasicNack_held found made held (queueName ▸ waits) silent
  have stepped : sys.next (sendNack tag) = some (sys.perform () [] { server := s' }) := by
    rw [sendNack, System.next, System.idle, idle, handled]
    rfl
  refine ⟨_, stepped, rfl, holding.connected, ?_, ?_, ?_⟩
  · show (update s.queues entry.queueName _ (ascii "q")).isSome = true
    rw [queueName, update_self]
    rfl
  · have later : c.nextDeliveryTag + 1 = UInt64.ofNat (i + 1 + 2) := by
      rw [next]
      exact (UInt64.ofNat_add (i + 2) 1).symm
    have held : c'.unacked (UInt64.ofNat (i + 1 + 1)) =
        some ⟨c.nextDeliveryTag, entry.queueName, entry.body, true⟩ := by
      rw [← next]
      exact AList.lookup_insert _
    have set : s'.channelStates 1 = some c' := by simp [s']
    rw [perform_server, set, Option.map_some, held, Option.map_some, queueName]
    exact congrArg some (Prod.ext later (Prod.ext silent rfl))
  · show ((noteAssigned _ 1 c.nextDeliveryTag).tags 1).length = i + 1 + 1
    rw [tags_noteAssigned, if_pos rfl, List.length_append, List.length_singleton]
    exact congrArg (· + 1) holding.tags

theorem Holding.nacks (holding : Holding 0 sys) (n : Nat) :
    ∃ later, machine.run sys ((List.range n).map fun i => sendNack (UInt64.ofNat (i + 1))) =
      some later ∧ Holding n later := by
  induction n with
  | zero => exact ⟨sys, rfl, holding⟩
  | succ n ih =>
    obtain ⟨mid, ran, holding⟩ := ih
    obtain ⟨later, stepped, holding⟩ := holding.nack
    refine ⟨later, ?_, holding⟩
    rw [List.range_succ, List.map_append, machine.run_append, ran, Option.bind_some]
    exact (machine.run_cons).mpr ⟨later, stepped, rfl⟩

theorem delivered : ∃ sys, machine.run (start Unit) delivery = some sys ∧ Holding 0 sys := by
  have idle : ((machine.run (start Unit) delivery).map fun sys =>
    ((sys.todo ()).length, sys.server.stateOf [])) =
      some (0, .connected) := by decide +kernel
  have queue : ((machine.run (start Unit) delivery).map fun sys =>
      ((sys.server.queues (ascii "q")).isSome, (sys.server.tags 1).length)) =
        some (true, 0 + 1) := by decide +kernel
  have channel :
    ((machine.run (start Unit) delivery).map fun sys => (sys.server.channelStates 1).map fun c =>
      (c.nextDeliveryTag, c.consumerTag, (c.unacked (UInt64.ofNat (0 + 1))).map (·.queueName))) =
      some (some (UInt64.ofNat (0 + 2), [], some (ascii "q"))) := by decide +kernel
  obtain ⟨sys, ran, facts⟩ := Option.map_eq_some_iff.mp idle
  rw [ran, Option.map_some] at queue channel
  obtain ⟨left, connected⟩ := Prod.mk.inj facts
  obtain ⟨exists_, tags⟩ := Prod.mk.inj (Option.some.inj queue)
  exact ⟨sys, ran, left, connected, exists_, Option.some.inj channel, tags⟩

/-- The message that was delivered is nacked under each of its tags but the last of all. Then the
    counter has come back to zero, and that tag is not below it. -/
theorem last_tag_not_below_counter :
    ∃ sys, machine.run (start Unit)
        (delivery ++ (List.range (2 ^ 64 - 2)).map fun i => sendNack (UInt64.ofNat (i + 1))) = some sys ∧
      (sys.server.tags 1).length < 2 ^ 64 ∧
      ∃ c tag entry, sys.server.channelStates 1 = some c ∧ c.unacked tag = some entry ∧
        ¬ tag < c.nextDeliveryTag := by
  obtain ⟨mid, ran, holding⟩ := delivered
  obtain ⟨sys, nacked, holding⟩ := holding.nacks (2 ^ 64 - 2)
  obtain ⟨c, found, facts⟩ := Option.map_eq_some_iff.mp holding.channel
  obtain ⟨next, facts⟩ := Prod.mk.inj facts
  obtain ⟨entry, held, -⟩ := Option.map_eq_some_iff.mp (Prod.mk.inj facts).2
  refine ⟨sys, ?_, ?_, c, _, entry, found, held, ?_⟩
  · rw [machine.run_append, ran, Option.bind_some, nacked]
  · rw [holding.tags]
    decide
  · rw [next, UInt64.lt_iff_toNat_lt]
    decide

end System

end Portask.Amqp
