import Portask.Lib.Machine
import Portask.Lib.Tally
import Mathlib.Logic.Function.Basic
import Mathlib.Data.List.DropRight
import Mathlib.Data.List.Rotate

/-! # Message metrics

Every call of `processMessageMetric` takes its atomic steps one by one, and other calls may take theirs in between. The
smallest and the largest latency are each kept by a loop around a compare-and-swap, which fails if another call has
written since the load.
-/

namespace Portask.Monitoring

open Function Lib

structure MessageMetric where
  size : Int64
  totalTime : Int64
  errorCount : Int64

inductive Counter where
  | messagesProcessed
  | bytesProcessed
  | totalLatency
  deriving DecidableEq

def Counter.amount (metric : MessageMetric) : Counter → Int64
  | messagesProcessed => 1
  | bytesProcessed => metric.size
  | totalLatency => metric.totalTime

inductive Extreme where
  | minLatency
  | maxLatency
  deriving DecidableEq

namespace Extreme

def start : Extreme → Int64
  | minLatency => Int64.maxValue
  | maxLatency => 0

/-- A latency that is covered need not be written. -/
def Covers : Extreme → Int64 → Int64 → Prop
  | minLatency, current, latency => current ≤ latency
  | maxLatency, current, latency => latency ≤ current

instance : (which : Extreme) → (current latency : Int64) → Decidable (which.Covers current latency)
  | minLatency, current, latency => inferInstanceAs (Decidable (current ≤ latency))
  | maxLatency, current, latency => inferInstanceAs (Decidable (latency ≤ current))

end Extreme

structure MetricsCollector where
  counter : Counter → Int64
  extreme : Extreme → Int64
  totalErrors : Int64

def newMetricsCollector : MetricsCollector := ⟨fun _ => 0, Extreme.start, 0⟩

inductive Pc where
  | add (which : Counter)
  | load (which : Extreme)
  | compareAndSwap (which : Extreme) (current : Int64)
  | addErrors
  | returned
  deriving DecidableEq

def afterAdd : Counter → Pc
  | .messagesProcessed => .add .bytesProcessed
  | .bytesProcessed => .add .totalLatency
  | .totalLatency => .load .minLatency

def afterLoop : Extreme → Pc
  | .minLatency => .load .maxLatency
  | .maxLatency => .addErrors

def processMessageMetric (mc : MetricsCollector) (metric : MessageMetric) : Pc →
    Option (MetricsCollector × Pc)
  | .add which =>
    some ({ mc with counter := update mc.counter which (mc.counter which + which.amount metric) },
      afterAdd which)
  | .load which =>
    if which.Covers (mc.extreme which) metric.totalTime then some (mc, afterLoop which)
    else some (mc, .compareAndSwap which (mc.extreme which))
  | .compareAndSwap which current =>
    if mc.extreme which = current then
      some ({ mc with extreme := update mc.extreme which metric.totalTime }, afterLoop which)
    else some (mc, .load which)
  | .addErrors =>
    some (if 0 < metric.errorCount then
      { mc with totalErrors := mc.totalErrors + metric.errorCount } else mc, .returned)
  | .returned => none

structure Call where
  metric : MessageMetric
  pc : Pc

/-- The calls that were made, in the order in which they began. -/
structure System where
  collector : MetricsCollector
  calls : List Call

inductive Label where
  | call (metric : MessageMetric)
  | step (i : Nat)

def System.next (s : System) : Label → Option System
  | .call metric => some { s with calls := s.calls ++ [⟨metric, .add .messagesProcessed⟩] }
  | .step i =>
    (s.calls[i]?).bind fun c =>
      (processMessageMetric s.collector c.metric c.pc).map fun (mc, pc) =>
        ⟨mc, s.calls.set i ⟨c.metric, pc⟩⟩

def machine : Machine System Label := ⟨System.next⟩

def System.start : System := ⟨newMetricsCollector, []⟩

def System.metrics (s : System) : List MessageMetric := s.calls.map Call.metric

def Counter.stage : Counter → Nat
  | messagesProcessed => 0
  | bytesProcessed => 1
  | totalLatency => 2

def Extreme.stage : Extreme → Nat
  | minLatency => 3
  | maxLatency => 4

def Pc.stage : Pc → Nat
  | add which => which.stage
  | load which | compareAndSwap which _ => which.stage
  | addErrors => 5
  | returned => 6

def Call.added (which : Counter) (c : Call) : Int64 :=
  if which.stage < c.pc.stage then which.amount c.metric else 0

variable {mc mc' : MetricsCollector} {metric : MessageMetric} {pc pc' : Pc}
  {calls : List Call} {i : Nat}

theorem sum_added_set {which : Counter} (new : Pc) (found : calls[i]? = some ⟨metric, pc⟩) :
    ((calls.set i ⟨metric, new⟩).map (Call.added which)).sum =
      (calls.map (Call.added which)).sum +
        (Call.added which ⟨metric, new⟩ - Call.added which ⟨metric, pc⟩) := by
  induction calls generalizing i with
  | nil => simp at found
  | cons c rest ih =>
    cases i with
    | zero =>
      obtain rfl : c = ⟨metric, pc⟩ := by simpa using found
      simp only [List.set_cons_zero, List.map_cons, List.sum_cons]
      grind
    | succ i =>
      have later := ih (i := i) (by simpa using found)
      simp only [List.set_cons_succ, List.map_cons, List.sum_cons, later]
      grind

theorem sum_ones (metrics : List MessageMetric) :
    (metrics.map (Counter.amount · .messagesProcessed)).sum = Int64.ofNat metrics.length := by
  induction metrics with
  | nil => rfl
  | cons metric rest ih =>
    rw [List.map_cons, List.sum_cons, ih, List.length_cons, Int64.ofNat_add, Int64.add_comm]
    rfl

theorem counter_of_step (stepped : processMessageMetric mc metric pc = some (mc', pc'))
    (which : Counter) :
    mc'.counter which = mc.counter which +
      (Call.added which ⟨metric, pc'⟩ - Call.added which ⟨metric, pc⟩) := by
  revert stepped
  fun_cases processMessageMetric mc metric pc with
  | case1 own =>
    rintro ⟨⟩
    cases own <;> cases which <;>
      simp [Call.added, Pc.stage, Counter.stage, Extreme.stage, afterAdd]
  | case2 own | case3 own | case4 own | case5 own =>
    rintro ⟨⟩
    cases own <;> cases which <;>
      simp [Call.added, Pc.stage, Counter.stage, Extreme.stage, afterLoop]
  | case6 =>
    rintro ⟨⟩
    split <;> cases which <;> simp [Call.added, Pc.stage, Counter.stage]
  | case7 => simp

namespace Extreme

variable {which : Extreme} {current latency other : Int64}

theorem covers_self (which : Extreme) (latency : Int64) : which.Covers latency latency := by
  cases which <;> exact Int64.le_refl _

theorem Covers.replaced (covers : which.Covers current other)
    (beyond : ¬ which.Covers current latency) : which.Covers latency other := by
  cases which with
  | minLatency => exact Int64.le_trans (Int64.le_of_lt (Int64.not_le.mp beyond)) covers
  | maxLatency => exact Int64.le_trans covers (Int64.le_of_lt (Int64.not_le.mp beyond))

theorem eq_start (covers : which.Covers which.start latency) (natural : 0 ≤ latency) :
    latency = which.start := by
  cases which with
  | minLatency => exact Int64.le_antisymm (Int64.le_maxValue latency) covers
  | maxLatency => exact Int64.le_antisymm covers natural

end Extreme

/-- The extremes that the call is past cover its latency, and one that it is about to replace does not. -/
structure Call.Fits (extreme : Extreme → Int64) (c : Call) : Prop where
  covered : ∀ which : Extreme, which.stage < c.pc.stage →
    which.Covers (extreme which) c.metric.totalTime
  beyond : ∀ which current, c.pc = .compareAndSwap which current →
    ¬ which.Covers current c.metric.totalTime

theorem fits_of_step (stepped : processMessageMetric mc metric pc = some (mc', pc'))
    (fits : Call.Fits mc.extreme ⟨metric, pc⟩) :
    (∀ c, Call.Fits mc.extreme c → Call.Fits mc'.extreme c) ∧ Call.Fits mc'.extreme ⟨metric, pc'⟩ ∧
      ∀ which, mc'.extreme which = mc.extreme which ∨ mc'.extreme which = metric.totalTime := by
  obtain ⟨covered, beyond⟩ := fits
  revert stepped
  fun_cases processMessageMetric mc metric pc with
  | case4 own =>
    have new := beyond own _ rfl
    rintro ⟨⟩
    have rises (which : Extreme) {latency} (covers : which.Covers (mc.extreme which) latency) :
        which.Covers (update mc.extreme own metric.totalTime which) latency := by
      by_cases same : which = own
      · subst same
        simpa using covers.replaced new
      · simpa [same] using covers
    refine ⟨fun c fits => ⟨fun which past => rises which (fits.covered which past), fits.beyond⟩,
      ⟨?_, ?_⟩, ?_⟩
    · intro which past
      by_cases same : which = own
      · subst same
        simpa using which.covers_self metric.totalTime
      · refine rises which (covered which ?_)
        cases own <;> cases which <;> simp_all [Pc.stage, Extreme.stage, afterLoop]
    · cases own <;> simp [afterLoop]
    · grind
  | case6 =>
    rintro ⟨⟩
    refine ⟨?_, ⟨fun which _ => ?_, by simp⟩, ?_⟩ <;> split <;> simp
    all_goals exact covered which (by cases which <;> simp [Pc.stage, Extreme.stage])
  | case7 => simp
  | case1 own | case2 own | case3 own | case5 own =>
    rintro ⟨⟩
    refine ⟨fun _ fits => fits, ⟨fun which past => ?_, ?_⟩, fun _ => .inl rfl⟩
    · cases own <;> cases which <;> simp_all [Pc.stage, Extreme.stage, Counter.stage, afterLoop, afterAdd]
    · cases own <;> simp_all [afterLoop, afterAdd]

/-- An extreme is one of the latencies or still the first value. -/
structure Kept (s : System) : Prop where
  counted : ∀ which, s.collector.counter which = (s.calls.map (Call.added which)).sum
  fits : ∀ c ∈ s.calls, c.Fits s.collector.extreme
  among : ∀ which, s.collector.extreme which = which.start ∨
    s.collector.extreme which ∈ s.metrics.map MessageMetric.totalTime

variable {s t : System} {label : Label}

theorem Kept.next (kept : Kept s) (moved : s.next label = some t) : Kept t := by
  cases label with
  | call metric =>
    obtain rfl := Option.some.inj moved
    refine ⟨fun which => ?_, List.forall_mem_append.mpr ⟨kept.fits, ?_⟩, fun which => ?_⟩
    · rw [List.map_append, List.sum_append, ← kept.counted]
      simp [Call.added, Pc.stage, Counter.stage]
    · exact List.forall_mem_singleton.mpr ⟨by simp [Pc.stage, Counter.stage], by simp⟩
    · refine (kept.among which).imp_right fun inside => ?_
      rw [System.metrics, List.map_append, List.map_append]
      exact List.mem_append_left _ inside
  | step i =>
    obtain ⟨⟨metric, pc⟩, found, later⟩ := Option.bind_eq_some_iff.mp moved
    obtain ⟨⟨mc, pc'⟩, stepped, rfl⟩ := Option.map_eq_some_iff.mp later
    have inside := List.mem_of_getElem? found
    obtain ⟨others, own, written⟩ := fits_of_step stepped (kept.fits _ inside)
    have same : System.metrics ⟨mc, s.calls.set i ⟨metric, pc'⟩⟩ = s.metrics := by
      simp only [System.metrics]
      ext1 j
      grind
    refine ⟨fun which => ?_, fun c inside' => ?_, fun which => ?_⟩
    · rw [counter_of_step stepped, kept.counted, sum_added_set pc' found]
    · obtain old | rfl := List.mem_or_eq_of_mem_set inside'
      · exact others c (kept.fits c old)
      · exact own
    · rw [same]
      obtain unchanged | new := written which
      · exact unchanged ▸ kept.among which
      · exact .inr (List.mem_map.mpr ⟨metric, List.mem_map.mpr ⟨_, inside, rfl⟩, new.symm⟩)

/-- A compare-and-swap that will fail is further from the end of its loop than the load. -/
def Pc.retry (extreme : Extreme → Int64) : Pc → Nat
  | load _ => 1
  | compareAndSwap which current => if extreme which = current then 0 else 2
  | _ => 0

/-- Each write makes at most all calls retry, so every stage has room for that. -/
def Call.weight (room : Nat) (extreme : Extreme → Int64) (c : Call) : Nat :=
  (6 - c.pc.stage) * (room + 2) + c.pc.retry extreme

def System.weight (s : System) : Nat :=
  tally (Call.weight (2 * s.calls.length) s.collector.extreme) s.calls

theorem weight_of_step (room : Nat)
    (stepped : processMessageMetric mc metric pc = some (mc', pc')) :
    mc'.extreme = mc.extreme ∧
      Call.weight room mc.extreme ⟨metric, pc'⟩ < Call.weight room mc.extreme ⟨metric, pc⟩ ∨
      Call.weight room mc'.extreme ⟨metric, pc'⟩ + room < Call.weight room mc'.extreme ⟨metric, pc⟩ := by
  revert stepped
  unfold Call.weight
  fun_cases processMessageMetric mc metric pc with
  | case1 own | case2 own | case3 own | case4 own | case5 own =>
    rintro ⟨⟩
    cases own <;>
      simp [Pc.stage, Extreme.stage, Counter.stage, Pc.retry, afterAdd, afterLoop, *] <;> omega
  | case6 =>
    rintro ⟨⟩
    split <;> simp [Pc.stage, Pc.retry]
  | case7 => simp

theorem tally_weight_le (room : Nat) (extreme extreme' : Extreme → Int64) (calls : List Call) :
    tally (Call.weight room extreme') calls ≤ tally (Call.weight room extreme) calls +
      2 * calls.length := by
  have rises (pc : Pc) : pc.retry extreme' ≤ pc.retry extreme + 2 := by
    fun_cases Pc.retry extreme' pc <;> grind [Pc.retry]
  induction calls with
  | nil => simp
  | cons c rest ih =>
    have := rises c.pc
    rw [tally_cons, tally_cons, List.length_cons, Call.weight, Call.weight]
    omega

theorem weight_falls (moved : s.next (.step i) = some t) : t.weight < s.weight := by
  obtain ⟨⟨metric, pc⟩, found, later⟩ := Option.bind_eq_some_iff.mp moved
  obtain ⟨⟨mc, pc'⟩, stepped, rfl⟩ := Option.map_eq_some_iff.mp later
  dsimp only at stepped
  simp only [System.weight, List.length_set]
  have moves := tally_set (Call.weight (2 * s.calls.length) mc.extreme) ⟨metric, pc'⟩ found
  obtain ⟨same, less⟩ | less := weight_of_step (2 * s.calls.length) stepped
  · rw [same] at moves ⊢
    omega
  · have rises := tally_weight_le (2 * s.calls.length) s.collector.extreme mc.extreme s.calls
    omega

/-- When no call is in progress, the counters are the sums over all calls and the extremes are those of their latencies.
A run in which no call begins is no longer than what is left to do. -/
theorem metrics_exact {labels : List Label} (ran : machine.run .start labels = some s)
    (natural : ∀ metric ∈ s.metrics, 0 ≤ metric.totalTime) :
    ((∀ c ∈ s.calls, c.pc = .returned) →
      s.collector.counter .messagesProcessed = Int64.ofNat s.metrics.length ∧
      (∀ which, s.collector.counter which = (s.metrics.map fun metric => which.amount metric).sum) ∧
      ∀ which : Extreme,
        (∀ metric ∈ s.metrics, which.Covers (s.collector.extreme which) metric.totalTime) ∧
        if s.metrics = [] then s.collector.extreme which = which.start
        else s.collector.extreme which ∈ s.metrics.map MessageMetric.totalTime) ∧
    ∀ more t, (∀ label ∈ more, ∃ i, label = .step i) → machine.run s more = some t →
      more.length ≤ s.weight := by
  have kept : Kept s := machine.run_invariant (P := Kept) (fun _ _ _ kept moved => kept.next moved)
    ⟨fun _ => rfl, by simp [System.start], fun _ => .inl rfl⟩ ran
  refine ⟨fun idle => ?_, fun more t steps ran => ?_⟩
  · have counted (which : Counter) : s.collector.counter which =
        (s.metrics.map fun metric => which.amount metric).sum := by
      rw [kept.counted, System.metrics, List.map_map]
      refine congrArg List.sum (List.map_congr_left fun c inside => if_pos ?_)
      rw [idle c inside]
      cases which <;> decide
    have covers (which : Extreme) :
        ∀ metric ∈ s.metrics, which.Covers (s.collector.extreme which) metric.totalTime :=
      List.forall_mem_map.mpr fun c inside =>
        (kept.fits c inside).covered which (by rw [idle c inside]; cases which <;> decide)
    refine ⟨(counted _).trans (sum_ones _), counted, fun which => ⟨covers which, ?_⟩⟩
    obtain first | inside := kept.among which
    · cases made : s.metrics with
      | nil => simpa using first
      | cons metric rest =>
        have own : metric ∈ s.metrics := by simp [made]
        simp [first, Extreme.eq_start (first ▸ covers which metric own) (natural metric own)]
    · rw [if_neg (by rintro none; simp [none] at inside)]
      exact inside
  · refine machine.run_length_le (fun label => ∃ i, label = .step i) ?_ steps ran
    rintro s _ t ⟨i, rfl⟩ moved
    exact weight_falls moved

/-- Two calls both read the least latency; the second replaces it first, so that the first has to read it again. -/
def contended : List Label :=
  [.call ⟨3, 5, 0⟩, .call ⟨4, 2, 1⟩] ++ List.flatten (List.replicate 4 [.step 0, .step 1]) ++
    [.step 1, .step 0] ++
    List.replicate 4 (.step 0) ++ List.replicate 2 (.step 1)

theorem metrics_exact_contended : ∃ s, machine.run .start contended = some s ∧
    s.collector.counter .bytesProcessed = 7 ∧ s.collector.extreme .minLatency ∈ [5, 2] := by
  refine exists_of_view System.calls [⟨⟨3, 5, 0⟩, .returned⟩, ⟨⟨4, 2, 1⟩, .returned⟩] rfl
    fun s ran calls => ?_
  obtain ⟨-, counted, extreme⟩ :=
    (metrics_exact ran (by simp [System.metrics, calls])).1 (by simp [calls])
  refine ⟨(counted .bytesProcessed).trans ?_,
    by simpa [System.metrics, calls] using (extreme .minLatency).2⟩
  rw [System.metrics, calls]
  rfl

/-- A call, with the metrics that it reads from the collector. -/
structure ShouldCompress where
  messageSize : Int
  thresholdBytes : Int
  cpuUsage : Float
  memoryUsage : Float
  latencyMs : Float

/-- What a call decides by itself, with the thresholds that the constructor sets. -/
def ShouldCompress.decision (call : ShouldCompress) : Bool :=
  let shouldCompress := if call.cpuUsage > 80 then false else if call.cpuUsage < 40 then
    true else true
  let shouldCompress := if call.memoryUsage > 85 then false else shouldCompress
  if call.latencyMs > 10 then false else shouldCompress

structure AdaptiveCompressionDecider where
  recentDecisions : List Bool := List.replicate 10 false
  decisionIndex : Nat := 0
  size : recentDecisions.length = 10 := by rfl
  index : decisionIndex < 10 := by decide

/-- One caller at a time, for the source has no lock here. -/
def shouldCompress : Object AdaptiveCompressionDecider ShouldCompress Bool where
  apply acd call :=
    if call.messageSize < call.thresholdBytes then (acd, false)
    else
      let recentDecisions := acd.recentDecisions.set acd.decisionIndex call.decision
      (⟨recentDecisions, (acd.decisionIndex + 1) % 10, by simp [recentDecisions, acd.size],
        Nat.mod_lt _ (by decide)⟩, 10 / 2 < recentDecisions.count true)

/-- The decisions of the calls that get as far, after the ten that the ring starts with. -/
def decisions (calls : List ShouldCompress) : List Bool :=
  List.replicate 10 false ++
    (calls.filter fun call => call.thresholdBytes ≤ call.messageSize).map (·.decision)

theorem rotate_set {α : Type} {l : List α} {i : Nat} (inside : i < l.length) (a : α) :
    (l.set i a).rotate (i + 1) = (l.rotate i).tail ++ [a] := by
  rw [List.rotate_eq_drop_append_take (by simpa using Nat.succ_le_of_lt inside),
    List.rotate_eq_drop_append_take (Nat.le_of_lt inside), List.drop_eq_getElem_cons inside]
  simp [List.take_add_one, inside, List.drop_set_of_lt, List.take_set_of_le]

/-- From its index on, the ring has the last ten decisions. -/
theorem ring_eq (calls : List ShouldCompress) : let acd := (shouldCompress.run {} calls).1
    acd.recentDecisions.rotate acd.decisionIndex = (decisions calls).rtake 10 := by
  induction calls using List.reverseRecOn with
  | nil => rfl
  | append_singleton calls call ih =>
    rw [Object.run_append, Object.run_cons, Object.run_nil]
    generalize (shouldCompress.run {} calls).1 = acd at *
    by_cases small : call.messageSize < call.thresholdBytes
    · simpa [shouldCompress, decisions, small, Int.not_le.mpr small] using ih
    · have ring := List.rotate_mod (acd.recentDecisions.set acd.decisionIndex call.decision) (acd.decisionIndex + 1)
      rw [List.length_set, acd.size, rotate_set (acd.size ▸ acd.index), ih, List.rtake,
        List.tail_drop] at ring
      have one : decisions (calls ++ [call]) = decisions calls ++ [call.decision] := by
        simp [decisions, Int.not_lt.mp small]
      have ten : 10 ≤ (decisions calls).length := by simp [decisions]
      rw [one, List.rtake_concat_succ, List.rtake, show (decisions calls).length - 9 =
        (decisions calls).length - 10 + 1 by omega, ← ring]
      simp [shouldCompress, small]

/-- After any calls, the next one compresses if its message is large enough and more than five of the
    last ten decisions, its own among them, are in favour. -/
theorem shouldCompress_majority (calls : List ShouldCompress) (call : ShouldCompress) :
    (shouldCompress.apply (shouldCompress.run {} calls).1 call).2 =
      (decide (call.thresholdBytes ≤ call.messageSize) &&
        decide (5 < ((decisions (calls ++ [call])).rtake 10).count true)) := by
  have ring := ring_eq (calls ++ [call])
  rw [← ring, (List.rotate_perm ..).count_eq, Object.run_append, Object.run_cons, Object.run_nil]
  generalize (shouldCompress.run {} calls).1 = acd
  by_cases small : call.messageSize < call.thresholdBytes
  · simp [shouldCompress, small, Int.not_le.mpr small]
  · simp [shouldCompress, small, Int.not_lt.mp small]

end Portask.Monitoring
