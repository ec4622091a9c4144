import Portask.Lib.GoString
import Portask.Lib.Machine
import Mathlib.Algebra.Ring.Int.Defs
import Mathlib.Data.List.Nodup

/-! # Message IDs of the translators

Two generators, one for each protocol, that join the number of the protocol, the second in which the process
was started, and the last 24 bits of a counter. `Next` adds to the counter in one atomic step and computes
with what it gets, so that a run of any goroutines is the sequence of these steps.
-/

namespace Portask.Common

open Function Lib

structure IDGenerator where
  counter : UInt64
  idPrefix : UInt64

def prefixNum : String → UInt64
  | "kafka" => 1
  | "amqp" => 2
  | _ => 0

def newIDGenerator (name : String) (unix : Int64) : IDGenerator :=
  ⟨0, prefixNum name <<< 56 ||| (unix <<< 24).toUInt64⟩

def IDGenerator.next (g : IDGenerator) : IDGenerator × UInt64 :=
  let counter := g.counter + 1
  ({ g with counter }, g.idPrefix ||| (counter &&& 0xFFFFFF))

inductive Protocol where
  | kafka
  | amqp
  deriving DecidableEq

def Protocol.name : Protocol → String
  | .kafka => "kafka"
  | .amqp => "amqp"

/-- `kafkaIDGen` and `amqpIDGen` of a process, made at these seconds. -/
def boot (unix : Protocol → Int64) (p : Protocol) : IDGenerator := newIDGenerator p.name (unix p)

/-- `NextKafkaID`, `NextAMQPID`, or a new process. -/
inductive Step where
  | next (p : Protocol)
  | restart (unix : Protocol → Int64)

def process : Object (Protocol → IDGenerator) Step (Option UInt64) where
  apply g
    | .next p => (update g p (g p).next.1, some (g p).next.2)
    | .restart unix => (boot unix, none)

def ids (unix : Protocol → Int64) (steps : List Step) : List UInt64 :=
  (process.run (boot unix) steps).2.filterMap id

/-- `strconv.FormatUint` -/
def messageID (id : UInt64) : GoString := GoString.decimal id.toNat

/-- The clock shows a time from 1970 to 2106. -/
def InRange (unix : Protocol → Int64) : Prop := ∀ p, 0 ≤ (unix p).toInt ∧ (unix p).toInt < 2 ^ 32

/-- Every process is started in a later second than the one before it. -/
def Forward : (Protocol → Int64) → List Step → Prop
  | _, [] => True
  | unix, .next _ :: rest => Forward unix rest
  | unix, .restart later :: rest =>
    (InRange later ∧ ∀ p, (unix p).toInt < (later p).toInt) ∧ Forward later rest

/-- The process has made fewer than `2 ^ 24` IDs for the protocol. -/
def Meets (g : Protocol → IDGenerator) : Step → Prop
  | .next p => (g p).counter.toNat < 2 ^ 24
  | .restart _ => True

instance (g : Protocol → IDGenerator) : DecidablePred (Meets g)
  | .next _ => inferInstanceAs (Decidable (_ < _))
  | .restart _ => .isTrue trivial

def Protocol.number : Protocol → Nat
  | .kafka => 1
  | .amqp => 2

def code (p : Protocol) (second count : Nat) : Nat :=
  p.number * 2 ^ 56 + second * 2 ^ 24 + count % 2 ^ 24

theorem code_inj (small : a < 2 ^ 32) (small' : b < 2 ^ 32) (same : code p a m = code q b n) :
    p = q ∧ a = b ∧ m % 2 ^ 24 = n % 2 ^ 24 := by
  unfold code at same
  cases p <;> cases q <;> simp only [Protocol.number] at same <;> grind

theorem toNat_idPrefix (p : Protocol) (start : 0 ≤ unix.toInt) (small : unix.toInt < 2 ^ 32) :
    (newIDGenerator p.name unix).idPrefix.toNat = p.number * 2 ^ 56 +
      unix.toInt.toNat * 2 ^ 24 := by
  have value : unix.toBitVec.toNat = unix.toInt.toNat := by
    have cond := BitVec.toInt_eq_toNat_cond unix.toBitVec
    rw [Int64.toInt] at start small ⊢
    split at cond <;> omega
  have shifted : (unix <<< 24).toUInt64.toNat = unix.toInt.toNat * 2 ^ 24 := by
    have shift : (unix <<< 24).toUInt64.toNat = (unix.toBitVec <<< 24).toNat := rfl
    rw [shift, BitVec.toNat_shiftLeft, value, Nat.shiftLeft_eq, Nat.mod_eq_of_lt (by omega)]
  have high : (prefixNum p.name <<< 56).toNat = 2 ^ 56 * p.number := by cases p <;> rfl
  have low : unix.toInt.toNat * 2 ^ 24 < 2 ^ 56 := by omega
  rw [newIDGenerator, UInt64.toNat_or, shifted, high,
    ← Nat.two_pow_add_eq_or_of_lt low, Nat.mul_comm]

theorem toNat_next {g : IDGenerator}
    (base : g.idPrefix.toNat = p.number * 2 ^ 56 + second * 2 ^ 24)
    (few : g.counter.toNat ≤ 2 ^ 24) : g.next.2.toNat = code p second (g.counter.toNat + 1) := by
  have masked : ((g.counter + 1) &&& 0xFFFFFF).toNat = (g.counter.toNat + 1) % 2 ^ 24 := by
    rw [UInt64.toNat_and, UInt64.toNat_add, Nat.mod_eq_of_lt (by simp; omega)]
    exact Nat.and_two_pow_sub_one_eq_mod _ 24
  have low : (g.counter.toNat + 1) % 2 ^ 24 < 2 ^ 24 := Nat.mod_lt _ (by decide)
  have whole : g.idPrefix.toNat = 2 ^ 24 * (p.number * 2 ^ 32 + second) := by omega
  rw [IDGenerator.next, UInt64.toNat_or, masked, whole, ← Nat.two_pow_add_eq_or_of_lt low, code]
  omega

/-- The IDs that have been returned are different, each was made in an earlier process or under an earlier count, and
    those of the running process are among them. -/
structure Distinct (unix : Protocol → Int64) (g : Protocol → IDGenerator) (returned : List UInt64) :
    Prop where
  range : InRange unix
  base : ∀ p, (g p).idPrefix.toNat = p.number * 2 ^ 56 + (unix p).toInt.toNat * 2 ^ 24
  few : ∀ p, (g p).counter.toNat ≤ 2 ^ 24
  nodup : returned.Nodup
  known : ∀ id ∈ returned, ∃ p second count, id.toNat = code p second count ∧
    count ≤ 2 ^ 24 ∧ 0 < count ∧
    (second < (unix p).toInt.toNat ∨ second = (unix p).toInt.toNat ∧ count ≤ (g p).counter.toNat)
  made : ∀ p count, 0 < count → count ≤ (g p).counter.toNat →
    ∃ id ∈ returned, id.toNat = code p (unix p).toInt.toNat count

namespace Distinct

variable {unix : Protocol → Int64} {g : Protocol → IDGenerator} {returned : List UInt64}

theorem boot (distinct : Distinct before g returned) (range : InRange unix)
    (later : ∀ p, (before p).toInt < (unix p).toInt) : Distinct unix (boot unix) returned where
  range := range
  base p := toNat_idPrefix p (range p).1 (range p).2
  few p := Nat.zero_le _
  nodup := distinct.nodup
  known id inside := by
    obtain ⟨p, second, count, same, most, positive, earlier⟩ := distinct.known id inside
    have start := distinct.range p
    have next := later p
    exact ⟨p, second, count, same, most, positive, .inl (by omega)⟩
  made p count positive most := absurd most (Nat.not_le.mpr positive)

section

variable (distinct : Distinct unix g returned)
include distinct

theorem toNat_id (p : Protocol) :
    (g p).next.2.toNat = code p (unix p).toInt.toNat ((g p).counter.toNat + 1) :=
      toNat_next (distinct.base p) (distinct.few p)

theorem toNat_counter (p : Protocol) : (g p).next.1.counter.toNat = (g p).counter.toNat + 1 := by
  have few := distinct.few p
  rw [IDGenerator.next, UInt64.toNat_add, Nat.mod_eq_of_lt (by simp; omega)]
  rfl

/-- With more than `2 ^ 24` calls the first ID comes again. -/
theorem again (many : ¬ (g p).counter.toNat < 2 ^ 24) : (g p).next.2 ∈ returned := by
  have full : (g p).counter.toNat = 2 ^ 24 := Nat.le_antisymm (distinct.few p) (Nat.not_lt.mp many)
  obtain ⟨id, inside, same⟩ := distinct.made p 1 (by decide) (by omega)
  have first : id = (g p).next.2 :=
    UInt64.toNat_inj.mp (by rw [same, distinct.toNat_id p, full]; rfl)
  exact first ▸ inside

theorem next (few : (g p).counter.toNat < 2 ^ 24) :
    Distinct unix (update g p (g p).next.1) (returned ++ [(g p).next.2]) := by
  have counted := distinct.toNat_counter p
  have fresh : (g p).next.2 ∉ returned := by
    intro inside
    obtain ⟨q, second, count, same, most, positive, earlier⟩ := distinct.known _ inside
    rw [distinct.toNat_id p] at same
    have range := distinct.range
    obtain ⟨rfl, rfl, counts⟩ :=
      code_inj (by have := range p; omega) (by have := range q; omega) same
    omega
  constructor
  case range => exact distinct.range
  case base =>
    intro q
    by_cases here : q = p
    · subst here
      simpa [IDGenerator.next] using distinct.base q
    · simpa [update_of_ne here] using distinct.base q
  case few =>
    intro q
    by_cases here : q = p
    · subst here
      rw [update_self, counted]
      omega
    · simpa [update_of_ne here] using distinct.few q
  case nodup => exact distinct.nodup.append (List.nodup_singleton _) (by simpa using fresh)
  case known =>
    intro id inside
    rcases List.mem_append.mp inside with old | new
    · obtain ⟨q, second, count, same, most, positive, earlier⟩ := distinct.known id old
      refine ⟨q, second, count, same, most, positive, earlier.imp_right fun now => ⟨now.1, ?_⟩⟩
      by_cases here : q = p
      · subst here
        rw [update_self, counted]
        omega
      · simpa [update_of_ne here] using now.2
    · obtain rfl := List.mem_singleton.mp new
      exact ⟨p, _, _, distinct.toNat_id p, by omega, by omega, .inr ⟨rfl, by rw [update_self, counted]⟩⟩
  case made =>
    intro q count positive most
    by_cases here : q = p
    · subst here
      rw [update_self, counted] at most
      by_cases last : count = (g q).counter.toNat + 1
      · exact ⟨_, by simp, last ▸ distinct.toNat_id q⟩
      · obtain ⟨id, inside, same⟩ := distinct.made q count positive (by omega)
        exact ⟨id, List.mem_append_left _ inside, same⟩
    · obtain ⟨id, inside, same⟩ := distinct.made q count positive (by simpa [update_of_ne here] using most)
      exact ⟨id, List.mem_append_left _ inside, same⟩

theorem run (forward : Forward unix steps) :
    (returned ++ (process.run g steps).2.filterMap id).Nodup ↔ process.Along Meets g steps := by
  induction steps generalizing unix g returned with
  | nil => simpa [Object.Along] using distinct.nodup
  | cons step rest ih =>
    cases step with
    | restart later => exact (ih (distinct.boot forward.1.1 forward.1.2) forward.2).trans (and_iff_right trivial).symm
    | next p =>
      have answers : returned ++ (process.run g (.next p :: rest)).2.filterMap id =
          returned ++ [(g p).next.2] ++ (process.run (update g p (g p).next.1) rest).2.filterMap id := by
        simp [Object.run_cons, process]
      rw [answers]
      by_cases few : (g p).counter.toNat < 2 ^ 24
      · rw [ih (distinct.next few) forward]
        exact ⟨fun later => ⟨few, later⟩, And.right⟩
      · refine iff_of_false (fun nodup => ?_) fun along => few along.1
        have twice := (List.nodup_append.mp (List.nodup_append.mp nodup).1).2.2
        exact twice _ (distinct.again few) _ List.mem_cons_self rfl

end

theorem start (range : InRange unix) : Distinct unix (Common.boot unix) [] where
  range := range
  base p := toNat_idPrefix p (range p).1 (range p).2
  few _ := Nat.zero_le _
  nodup := List.nodup_nil
  known _ inside := absurd inside List.not_mem_nil
  made _ _ positive most := absurd most (Nat.not_le.mpr positive)

end Distinct

/-- In every run of any number of processes, the IDs and the message IDs are different exactly as long as no process
    makes more than `2 ^ 24` of them for a protocol. -/
theorem ids_distinct_iff {unix : Protocol → Int64} (range : InRange unix) {steps : List Step}
    (forward : Forward unix steps) :
    ((ids unix steps).Nodup ↔ process.Along Meets (boot unix) steps) ∧
      (((ids unix steps).map messageID).Nodup ↔ process.Along Meets (boot unix) steps) := by
  have injective : Function.Injective messageID :=
    fun a b same => UInt64.toNat_inj.mp (GoString.decimal_injective same)
  have iff := (Distinct.start range).run forward
  exact ⟨iff, (List.nodup_map_iff injective).trans iff⟩

theorem inRange_zero : InRange fun _ => 0 := by
  intro p
  simp

theorem ids_distinct_two :
    (InRange (fun _ => 0) ∧ Forward (fun _ => 0) [.next .kafka, .next .amqp]) ∧
    (ids (fun _ => 0) [.next .kafka, .next .amqp]).Nodup := by
  have forward : Forward (fun _ => 0) [.next .kafka, .next .amqp] := trivial
  exact ⟨⟨inRange_zero, forward⟩,
    (ids_distinct_iff inRange_zero forward).1.mpr ⟨by decide, by decide, trivial⟩⟩

theorem count_of_along (along : process.Along Meets g (List.replicate n (.next p))) :
    n ≤ 2 ^ 24 - (g p).counter.toNat := by
  induction n generalizing g with
  | zero => exact Nat.zero_le _
  | succ n ih =>
    obtain ⟨few, later⟩ := along
    have rest := ih later
    have few : (g p).counter.toNat < 2 ^ 24 := few
    have counted : ((process.apply g (.next p)).1 p).counter.toNat = (g p).counter.toNat + 1 := by
      simp only [process, update_self, IDGenerator.next]
      rw [UInt64.toNat_add, Nat.mod_eq_of_lt (by simp; omega)]
      rfl
    omega

theorem forward_replicate (unix : Protocol → Int64) (p : Protocol) (n : Nat) :
    Forward unix (List.replicate n (.next p)) := by
  induction n with
  | zero => trivial
  | succ n ih => exact ih

theorem not_nodup_of_many (range : InRange unix) (p : Protocol) (many : 2 ^ 24 < n) :
    ¬ (ids unix (List.replicate n (.next p))).Nodup := by
  intro nodup
  have most := count_of_along (((Distinct.start range).run (forward_replicate unix p n)).mp nodup)
  omega

/-- One call more than the counter has values. -/
theorem ids_come_again : ¬ (ids (fun _ => 0) (List.replicate (2 ^ 24 + 1) (.next .kafka))).Nodup :=
  not_nodup_of_many inRange_zero .kafka (Nat.lt_succ_self _)

end Portask.Common
