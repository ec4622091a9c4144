import Portask.Network.ConnectionLoop

/-! # Requests with compressed payloads

Publishing decompresses a payload whose frame says that it is compressed, subscribing never does, and fetching
always does.
-/

namespace Portask.Network

open Lib

def frameOf (type : UInt8) (flags : UInt16) (payload : List UInt8) : ProtocolMessage :=
  ⟨⟨ProtocolMagic, ProtocolVersion, type, flags, UInt32.ofNat payload.length,
    calculateCRC32 payload⟩, payload⟩

def GoError.outer : GoError → Option String
  | .wrap text _ => some text
  | _ => none

theorem outer_sendResponse {conn : Conn}
    (failed : (conn.sendResponse messageType payload).2 = some err) :
    err.outer = some "failed to write header" ∨ err.outer = some "failed to write payload" := by
  unfold Conn.sendResponse Conn.writeMessage at failed
  split at failed
  · exact .inl (Option.some.inj failed ▸ rfl)
  · split at failed
    · split at failed
      · exact .inr (Option.some.inj failed ▸ rfl)
      · cases failed
    · cases failed

namespace PortaskProtocolHandler

variable {σ : Type} (h : PortaskProtocolHandler σ) (s : Session σ)

/-- The storage, the connection with its subscriptions and what was written to it, and the error to respond with. -/
def effect (message : ProtocolMessage) : σ × Conn × Option GoError :=
  let (after, err) := h.dispatch s message
  (after.storage, after.conn, err)

/-- The effect of a fetch request once it is decompressed. -/
def fetchEffect (payload : List UInt8) : σ × Conn × Option GoError :=
  match h.services.fetchRequest payload with
  | .error err => (s.storage, s.conn, some (.wrap "failed to parse fetch request" err))
  | .ok request =>
    let request := if request.limit ≤ 0 then { request with limit := 100 } else request
    match h.services.fetch s.storage request with
    | (storage, .error err) =>
      (storage, s.conn.sendResponse MessageTypeResponse (h.services.fetchFailed request err))
    | (storage, .ok messages) =>
      match h.services.fetched request messages with
      | .error err => (storage, s.conn, some (.wrap "failed to marshal fetch response" err))
      | .ok response => (storage, s.conn.sendResponse MessageTypeResponse response)

variable {h s} {p : List UInt8} {flags : UInt16}

theorem effect_publish (lossless : h.services.decompressPayload c = .ok p) :
    h.effect s (frameOf MessageTypePublish 0 p) =
      h.effect s (frameOf MessageTypePublish FlagCompressed c) := by
  have clear : (0 : UInt16) &&& FlagCompressed = 0 := by decide
  have set : FlagCompressed &&& FlagCompressed ≠ 0 := by decide
  simp only [effect, dispatch, frameOf, if_true, handlePublish, clear, ne_eq, not_true_eq_false,
    if_false, set, not_false_eq_true, lossless]
  cases h.services.decode p with
  | error err => rfl
  | ok decoded =>
    simp only
    split <;> rfl

theorem effect_fetch : h.effect s (frameOf MessageTypeFetch flags p) =
    match h.services.decompressPayload p with
    | .error err => (s.storage, s.conn, some (.wrap "failed to decompress fetch payload" err))
    | .ok payload => h.fetchEffect s payload := by
  have publish : MessageTypeFetch ≠ MessageTypePublish := by decide
  have subscribe : MessageTypeFetch ≠ MessageTypeSubscribe := by decide
  simp only [effect, dispatch, frameOf, publish, subscribe, if_false, if_true,
    handleFetch, fetchEffect]
  cases h.services.decompressPayload p with
  | error err => rfl
  | ok payload =>
    simp only
    cases h.services.fetchRequest payload with
    | error err => rfl
    | ok request =>
      simp only
      generalize (if request.limit ≤ 0 then { request with limit := 100 } else request) = limited
      rcases h.services.fetch s.storage limited with ⟨storage, err | messages⟩
      · rfl
      · simp only
        cases h.services.fetched limited messages <;> rfl

/-- Only a request that is refused is answered with the error of its parser. -/
theorem refused_of_fetchEffect
    (early : text ∈ ["failed to decompress fetch payload", "failed to parse fetch request"])
    (failed : (h.fetchEffect s p).2.2 = some (.wrap text err)) :
    text = "failed to parse fetch request" ∧ h.services.fetchRequest p = .error err := by
  have wrote (messageType : UInt8) (payload : List UInt8) :
      (s.conn.sendResponse messageType payload).2 ≠ some (.wrap text err) := by
    intro failed
    obtain same | same := outer_sendResponse failed <;> cases same <;> simp at early
  unfold fetchEffect at failed
  split at failed
  · next refused =>
      cases failed
      exact ⟨rfl, refused⟩
  · simp only at failed
    split at failed
    · exact absurd failed (wrote _ _)
    · split at failed
      · cases failed
        simp at early
      · exact absurd failed (wrote _ _)

/-- The flag makes no difference to a subscription. -/
theorem effect_subscribe_error (failed : h.services.topics p = .error err) :
    h.effect s (frameOf MessageTypeSubscribe flags p) =
      (s.storage, s.conn, some (.wrap "failed to parse subscription request" err)) := by
  have publish : MessageTypeSubscribe ≠ MessageTypePublish := by decide
  simp only [effect, dispatch, frameOf, publish, if_false, if_true, handleSubscribe, failed]

theorem effect_subscribe_ok (parsed : h.services.topics p = .ok topics) (cause : GoError) :
    (h.effect s (frameOf MessageTypeSubscribe flags p)).2.2 ≠
      some (.wrap "failed to parse subscription request" cause) := by
  have publish : MessageTypeSubscribe ≠ MessageTypePublish := by decide
  simp only [effect, dispatch, frameOf, publish, if_false, if_true, handleSubscribe, parsed]
  split
  · simp
  · intro failed
    simpa [GoError.outer] using outer_sendResponse failed

theorem same_subscribe_iff (foreign : h.services.topics c = .error err) :
    h.effect s (frameOf MessageTypeSubscribe 0 p) =
      h.effect s (frameOf MessageTypeSubscribe FlagCompressed c) ↔
    h.services.topics p = .error err := by
  rw [effect_subscribe_error foreign]
  cases parsed : h.services.topics p with
  | error err' =>
    rw [effect_subscribe_error parsed]
    simp
  | ok topics =>
    refine ⟨fun same => ?_, nofun⟩
    exact absurd (congrArg (·.2.2) same) (effect_subscribe_ok parsed err)

theorem same_fetch_iff (lossless : h.services.decompressPayload c = .ok p)
    (foreign : ∀ q, h.services.decompressPayload p = .ok q →
      ∃ err, h.services.fetchRequest p = .error err) :
    h.effect s (frameOf MessageTypeFetch 0 p) =
      h.effect s (frameOf MessageTypeFetch FlagCompressed c) ↔
      ∃ q, h.services.decompressPayload p = .ok q ∧
        h.services.fetchRequest q = h.services.fetchRequest p := by
  rw [effect_fetch, effect_fetch, lossless]
  cases plain : h.services.decompressPayload p with
  | ok q =>
    obtain ⟨err, refused⟩ := foreign q plain
    have answer : h.fetchEffect s p =
        (s.storage, s.conn, some (.wrap "failed to parse fetch request" err)) := by
      rw [fetchEffect, refused]
    simp only [Except.ok.injEq, exists_eq_left', answer, refused]
    refine ⟨fun same => (refused_of_fetchEffect (by simp) (congrArg (·.2.2) same)).2,
      fun refused' => ?_⟩
    rw [fetchEffect, refused']
  | error err =>
    simp only [reduceCtorEq, false_and, exists_false, iff_false]
    intro same
    have never := (refused_of_fetchEffect (by simp) (congrArg (·.2.2) same).symm).1
    simp at never

/-- JSON refuses compressed data. Both frames of a request have the same effect if it publishes; if it
subscribes, only when the plain payload is refused as the compressed one is; and if it fetches, only when the plain
payload is compressed itself and what it holds is refused as it is. -/
theorem same_effect_iff (h : PortaskProtocolHandler σ) (s : Session σ)
    (compressPayload : List UInt8 → List UInt8)
    (lossless : ∀ p, h.services.decompressPayload (compressPayload p) = .ok p)
    (foreign : ∀ c q, h.services.decompressPayload c = .ok q →
      (∃ err, h.services.topics c = .error err) ∧
      ∃ err, h.services.fetchRequest c = .error err) (type : UInt8)
    (known : type ∈ [MessageTypePublish, MessageTypeSubscribe, MessageTypeFetch]) (p : List UInt8) :
    h.effect s (frameOf type 0 p) = h.effect s (frameOf type FlagCompressed (compressPayload p)) ↔
      type = MessageTypePublish ∨
      type = MessageTypeSubscribe ∧ h.services.topics p = h.services.topics (compressPayload p) ∨
      type = MessageTypeFetch ∧
        ∃ q, h.services.decompressPayload p = .ok q ∧ h.services.fetchRequest q = h.services.fetchRequest p := by
  have distinct : MessageTypeSubscribe ≠ MessageTypePublish ∧
    MessageTypeSubscribe ≠ MessageTypeFetch ∧
    MessageTypeFetch ≠ MessageTypePublish ∧ MessageTypeFetch ≠ MessageTypeSubscribe := by decide
  simp only [List.mem_cons, List.not_mem_nil, or_false] at known
  obtain rfl | rfl | rfl := known
  · simpa using effect_publish (lossless p)
  · obtain ⟨err, refused⟩ := (foreign (compressPayload p) p (lossless p)).1
    simpa [distinct, refused] using same_subscribe_iff refused
  · simpa [distinct] using same_fetch_iff (lossless p) fun q plain => (foreign p q plain).2

/-- Compressed data has a mark in front, and JSON is whatever has none. -/
def markedHandler : PortaskProtocolHandler Unit :=
  newPortaskProtocolHandler
    { plainServices with
      decompressPayload := fun data => if data.head? = some 0x1f then .ok data.tail else .error .eof
      topics := fun data => if data.head? = some 0x1f then .error .eof else .ok []
      fetchRequest := fun data => if data.head? = some 0x1f then .error .eof else .ok ⟨[], 0, 0, 0⟩ }

/-- A message, and a fetch request that was compressed twice before. -/
theorem same_effect_publish_fetch :
    markedHandler.effect freshSession (frameOf MessageTypePublish 0 [7]) =
        markedHandler.effect freshSession (frameOf MessageTypePublish FlagCompressed [0x1f, 7]) ∧
      markedHandler.effect freshSession (frameOf MessageTypeFetch 0 [0x1f, 0x1f, 7]) =
        markedHandler.effect freshSession
        (frameOf MessageTypeFetch FlagCompressed [0x1f, 0x1f, 0x1f, 7]) := by
  have foreign (c q : List UInt8) (marked : markedHandler.services.decompressPayload c = .ok q) :
      (∃ err, markedHandler.services.topics c = .error err) ∧
        ∃ err, markedHandler.services.fetchRequest c = .error err := by
    have mark : c.head? = some 0x1f := by
      by_contra none
      simp [markedHandler, newPortaskProtocolHandler, none] at marked
    simp [markedHandler, newPortaskProtocolHandler, mark]
  have same := same_effect_iff markedHandler freshSession (0x1f :: ·) (fun _ => rfl) foreign
  exact ⟨(same _ (by decide) [7]).mpr (.inl rfl),
    (same _ (by decide) [0x1f, 0x1f, 7]).mpr (.inr (.inr ⟨rfl, _, rfl, rfl⟩))⟩

theorem compressed_subscribe_fetch_differ :
    markedHandler.effect freshSession (frameOf MessageTypeSubscribe 0 [7]) ≠
        markedHandler.effect freshSession (frameOf MessageTypeSubscribe FlagCompressed [0x1f, 7]) ∧
      markedHandler.effect freshSession (frameOf MessageTypeFetch 0 [7]) ≠
        markedHandler.effect freshSession (frameOf MessageTypeFetch FlagCompressed [0x1f, 7]) := by
  constructor
  · have refused : markedHandler.services.topics [0x1f, 7] = .error .eof := rfl
    rw [ne_eq, same_subscribe_iff refused]
    nofun
  · rw [ne_eq, same_fetch_iff rfl fun q plain => by cases plain]
    rintro ⟨q, plain, -⟩
    cases plain

end PortaskProtocolHandler

end Portask.Network
