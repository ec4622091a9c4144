import Portask.Lib.GoString
import Portask.Lib.Machine
import Portask.Lib.Tally
import Mathlib.Logic.Function.Basic

/-! # Counting the connections of the TCP server

`acceptLoop`, `newConnection`, `handleConnection`, `closeConnection` and `Stop` of
`pkg/network/server.go`, with `Connection.Close`. The accept loop counts a connection after its
handler has been started. `closeConnection` and `Close` compete for one flag, and only the
former takes a connection off the count and out of the map. Statistics, contexts and what the
handlers do with the connection are left out.
-/

namespace Portask.Network.TcpServer

open Function Lib

/-- Where a connection object is: with the accept loop, with its handler, in `closeConnection`
    past the flag, past the map and past the count, in the pool, or with nobody, once
    `closeConnection` has found the flag taken. -/
inductive Phase where
  | held
  | serving
  | closing
  | deleted
  | uncounted
  | pooled
  | abandoned
  deriving DecidableEq

structure Connection where
  id : GoString
  connected : Bool
  phase : Phase
  deriving DecidableEq

/-- The accept loop. `created` and `stored` are inside `newConnection`, `spawned` before the
    count. -/
inductive AcceptPc where
  | top
  | accepting
  | accepted
  | admitted
  | created (o : Nat)
  | stored (o : Nat)
  | spawned (o : Nat)
  | exited
  deriving DecidableEq

/-- `conns` has all connection objects there are; a handler goroutine is known by its object. -/
structure System where
  running : Bool
  accept : AcceptPc
  conns : List Connection
  connections : GoString → Option Nat
  connCount : Int

/-- `create` has the object that the pool gives, or nothing for a new one, and the time that
    makes up the ID. `close` is any call of `Connection.Close`, one of `Stop`'s for instance. -/
inductive Label where
  | loop
  | accept (succeeds : Bool)
  | check
  | create (pooled : Option Nat) (now : Nat)
  | store
  | spawn
  | count
  | finish (o : Nat)
  | delete (o : Nat)
  | decrement (o : Nat)
  | release (o : Nat)
  | close (o : Nat)
  | stop
  deriving DecidableEq

def generateConnectionID (now : Nat) : GoString := GoString.ofAscii "conn_" ++ GoString.decimal now

namespace System

variable (s : System)

def turn (pc : AcceptPc) : System := { s with accept := pc }

def put (o : Nat) (c : Connection) : System := { s with conns := s.conns.set o c }

def add (c : Connection) : System := { s with conns := s.conns ++ [c] }

def register (id : GoString) (entry : Option Nat) : System :=
  { s with connections := update s.connections id entry }

def countBy (n : Int) : System := { s with connCount := s.connCount + n }

/-- The object that `connPool.Get` gives, initialised. -/
def newConnection (pooled : Option Nat) (now : Nat) : Option System :=
  let c : Connection := ⟨generateConnectionID now, true, .held⟩
  match pooled with
  | none => some ((s.add c).turn (.created s.conns.length))
  | some o =>
    match s.conns[o]? with
    | some ⟨_, _, .pooled⟩ => some ((s.put o c).turn (.created o))
    | _ => none

end System

def started : System := ⟨true, .top, [], fun _ => none, 0⟩

/-- A server with the configured `MaxConnections`. -/
def machine (maxConnections : Int) : Machine System Label where
  next s label :=
    match label with
    | .loop =>
      match s.accept with
      | .top => some (s.turn (if s.running then .accepting else .exited))
      | _ => none
    | .accept succeeds =>
      match s.accept with
      | .accepting => some (s.turn (if succeeds then .accepted else if s.running then .top else .exited))
      | _ => none
    | .check =>
      match s.accept with
      | .accepted => some (s.turn (if 0 < maxConnections ∧ maxConnections ≤ s.connCount then .top else .admitted))
      | _ => none
    | .create pooled now =>
      match s.accept with
      | .admitted => s.newConnection pooled now
      | _ => none
    | .store =>
      match s.accept with
      | .created o =>
        (s.conns[o]?).map fun c => (s.register c.id (some o)).turn (.stored o)
      | _ => none
    | .spawn =>
      match s.accept with
      | .stored o => (s.conns[o]?).map fun c => (s.put o { c with phase := .serving }).turn (.spawned o)
      | _ => none
    | .count =>
      match s.accept with
      | .spawned _ => some ((s.countBy 1).turn .top)
      | _ => none
    -- The compare-and-swap of `closeConnection`.
    | .finish o =>
      match s.conns[o]? with
      | some ⟨id, connected, .serving⟩ =>
        some (s.put o ⟨id, false, if connected then .closing else .abandoned⟩)
      | _ => none
    | .delete o =>
      match s.conns[o]? with
      | some ⟨id, connected, .closing⟩ =>
        some ((s.register id none).put o ⟨id, connected, .deleted⟩)
      | _ => none
    | .decrement o =>
      match s.conns[o]? with
      | some ⟨id, connected, .deleted⟩ =>
        some ((s.countBy (-1)).put o ⟨id, connected, .uncounted⟩)
      | _ => none
    | .release o =>
      match s.conns[o]? with
      | some ⟨_, _, .uncounted⟩ => some (s.put o ⟨[], false, .pooled⟩)
      | _ => none
    | .close o => (s.conns[o]?).map fun c => s.put o { c with connected := false }
    | .stop => some { s with running := false }

/-- The steps, by their effect on the objects: the accept loop turns without touching them, takes
    one from the pool, hands one to its handler, or counts one; a handler goes through
    `closeConnection`; and a flag is cleared. -/
inductive Moves (maxConnections : Int) (s : System) : Label → System → Prop
  | turns {label pc} (idle : s.accept = .top ∨ s.accept = .accepting ∨ s.accept = .accepted)
      (next : pc = .top ∨ pc = .accepting ∨ pc = .accepted ∨ pc = .exited) :
        Moves maxConnections s label (s.turn pc)
  | admits (accepted : s.accept = .accepted) (room : 0 < maxConnections →
    s.connCount < maxConnections) :
      Moves maxConnections s .check (s.turn .admitted)
  | allocates {now} (admitted : s.accept = .admitted) :
      Moves maxConnections s (.create none now)
        ((s.add ⟨generateConnectionID now, true, .held⟩).turn (.created s.conns.length))
  | reuses {o now c} (admitted : s.accept = .admitted) (found : s.conns[o]? = some c)
      (pooled : c.phase = .pooled) :
      Moves maxConnections s (.create (some o) now)
        ((s.put o ⟨generateConnectionID now, true, .held⟩).turn (.created o))
  | stores {o c} (created : s.accept = .created o) (found : s.conns[o]? = some c) :
      Moves maxConnections s .store ((s.register c.id (some o)).turn (.stored o))
  | spawns {o c} (stored : s.accept = .stored o) (found : s.conns[o]? = some c) :
      Moves maxConnections s .spawn ((s.put o ⟨c.id, c.connected, .serving⟩).turn (.spawned o))
  | counts {o} (spawned : s.accept = .spawned o) :
      Moves maxConnections s .count ((s.countBy 1).turn .top)
  | finishes {o : Nat} {c : Connection} (found : s.conns[o]? = some c)
    (serving : c.phase = .serving) :
      Moves maxConnections s (.finish o)
        (s.put o ⟨c.id, false, if c.connected then .closing else .abandoned⟩)
  | deletes {o c} (found : s.conns[o]? = some c) (closing : c.phase = .closing) :
      Moves maxConnections s (.delete o) ((s.register c.id none).put o ⟨c.id, c.connected, .deleted⟩)
  | decrements {o c} (found : s.conns[o]? = some c) (deleted : c.phase = .deleted) :
      Moves maxConnections s (.decrement o) ((s.countBy (-1)).put o ⟨c.id, c.connected, .uncounted⟩)
  | releases {o c} (found : s.conns[o]? = some c) (uncounted : c.phase = .uncounted) :
      Moves maxConnections s (.release o) (s.put o ⟨[], false, .pooled⟩)
  | closes {o c} (found : s.conns[o]? = some c) :
      Moves maxConnections s (.close o) (s.put o ⟨c.id, false, c.phase⟩)
  | stops : Moves maxConnections s .stop { s with running := false }

variable {maxConnections : Int} {label : Label} {s t : System}

theorem moves_of_next (moved : (machine maxConnections).next s label = some t) :
    Moves maxConnections s label t := by
  cases label with
  | close o =>
    obtain ⟨c, found, rfl⟩ := Option.map_eq_some_iff.mp moved
    exact .closes found
  | stop =>
    obtain rfl := Option.some.inj moved
    exact .stops
  | create pooled now =>
    simp only [machine] at moved
    split at moved
    · next admitted =>
        revert moved
        fun_cases System.newConnection s pooled now with
        | case1 =>
          rintro ⟨⟩
          exact .allocates admitted
        | case2 _ _ _ _ found =>
          rintro ⟨⟩
          exact .reuses admitted found rfl
        | case3 => simp
    · cases moved
  | store | spawn =>
    simp only [machine] at moved
    split at moved
    · next place =>
        obtain ⟨c, found, rfl⟩ := Option.map_eq_some_iff.mp moved
        first
          | exact .stores place found
          | exact .spawns place found
    · cases moved
  | loop | accept =>
    simp only [machine] at moved
    split at moved
    · next place =>
        obtain rfl := Option.some.inj moved
        exact .turns (by simp [place]) (by grind)
    · cases moved
  | _ =>
    simp only [machine] at moved
    split at moved
    · next place =>
        obtain rfl := Option.some.inj moved
        first
          | exact .counts place
          | exact .finishes place rfl
          | exact .deletes place rfl
          | exact .decrements place rfl
          | exact .releases place rfl
          | split
            · exact .turns (by simp [place]) (by simp)
            · exact .admits place (by omega)
    · cases moved

/-- Past the check of the limit and not yet counted. -/
def AcceptPc.past : AcceptPc → Bool
  | .admitted | .created _ | .stored _ | .spawned _ => true
  | _ => false

/-- There is room for the connection that the accept loop is about to count. -/
structure Limited (maxConnections : Int) (s : System) : Prop where
  within : 0 < maxConnections → s.connCount ≤ maxConnections
  room : s.accept.past = true → 0 < maxConnections → s.connCount < maxConnections

theorem limited_next (limited : Limited maxConnections s)
    (moved : (machine maxConnections).next s label = some t) : Limited maxConnections t := by
  obtain ⟨within, room⟩ := limited
  cases moves_of_next moved with
  | turns _ next =>
    refine ⟨within, fun past => ?_⟩
    obtain rfl | rfl | rfl | rfl := next <;> cases past
  | admits _ free => exact ⟨within, fun _ => free⟩
  | allocates admitted | reuses admitted => exact ⟨within, fun _ => room (by rw [admitted]; rfl)⟩
  | stores created => exact ⟨within, fun _ => room (by rw [created]; rfl)⟩
  | spawns stored => exact ⟨within, fun _ => room (by rw [stored]; rfl)⟩
  | counts spawned =>
    refine ⟨fun positive => ?_, fun past => by cases past⟩
    have free := room (by rw [spawned]; rfl) positive
    exact Int.add_one_le_of_lt free
  | decrements =>
    refine ⟨fun positive => ?_, fun past positive => ?_⟩
    · have := within positive
      show s.connCount + -1 ≤ maxConnections
      omega
    · have := room past positive
      show s.connCount + -1 < maxConnections
      omega
  | finishes | deletes | releases | closes | stops => exact ⟨within, room⟩

/-- Phases of connections that are on the count, or about to be put there. -/
def Phase.counted : Phase → Bool
  | .serving | .closing | .deleted => true
  | _ => false

/-- Phases of connections that may be in the map. -/
def Phase.listed : Phase → Bool
  | .held | .serving | .closing => true
  | _ => false

/-- Phases of connections whose flag nobody but their handler may clear. -/
def Phase.flagged : Phase → Bool
  | .held | .serving => true
  | _ => false

def Connection.weight (c : Connection) : Nat := if c.phase.counted then 1 else 0

/-- No accepted connection is being handled. -/
def System.Idle (s : System) : Prop := ∀ c ∈ s.conns, c.phase = .pooled ∨ c.phase = .abandoned

/-- A connection that the accept loop has not yet counted. -/
def AcceptPc.pending : AcceptPc → Nat
  | .spawned _ => 1
  | _ => 0

/-- Nobody but `closeConnection` clears a flag that is set, and no connection is taken off the
    count before it is on it. -/
def Undisturbed (s : System) : Label → Prop
  | .close o => ∀ c ∈ s.conns[o]?, c.connected = false
  | .decrement o => s.accept ≠ .spawned o
  | _ => True

structure InBalance (s : System) : Prop where
  connected : ∀ (o : Nat) (c : Connection), s.conns[o]? = some c → c.phase.flagged = true →
    c.connected = true
  count : s.connCount + s.accept.pending = tally Connection.weight s.conns
  entries : ∀ id o, s.connections id = some o →
    ∃ (o : Nat) (c : Connection), s.conns[o]? = some c ∧ c.phase.listed = true ∧ c.id = id
  created : ∀ o, s.accept = .created o ∨ s.accept = .stored o →
    ∃ c : Connection, s.conns[o]? = some c ∧ c.phase = .held
  spawned : ∀ o, s.accept = .spawned o →
    ∃ c : Connection, s.conns[o]? = some c ∧ c.phase.counted = true

section

variable {s : System} {o : Nat} {c new : Connection}

variable (balance : InBalance s)
include balance

theorem InBalance.connected_set (flag : new.phase.flagged = true → new.connected = true) :
    ∀ (o' : Nat) (d : Connection), (s.conns.set o new)[o']? = some d → d.phase.flagged = true →
      d.connected = true :=
  forall_set (P := fun _ d => d.phase.flagged = true → d.connected = true)
    (fun o' d _ => balance.connected o' d) flag

theorem InBalance.count_set (found : s.conns[o]? = some c) :
    (tally Connection.weight (s.conns.set o new) : Int) = s.connCount + s.accept.pending +
      (new.weight - c.weight) := by
  have total := tally_set Connection.weight new found
  have count := balance.count
  omega

/-- Replacing an object keeps the map accounted for if it stays there under its ID. -/
theorem InBalance.entries_set (found : s.conns[o]? = some c) {id o'}
    (keeps : c.id = id → c.phase.listed = true → new.phase.listed = true ∧ new.id = id)
    (entry : s.connections id = some o') :
    ∃ (o' : Nat) (d : Connection), (s.conns.set o new)[o']? = some d ∧ d.phase.listed = true ∧
      d.id = id := by
  obtain ⟨place, d, there, listed, same⟩ := balance.entries id o' entry
  exact ⟨place, at_set (P := fun d : Connection => d.phase.listed = true ∧ d.id = id) found
    (fun old => keeps old.2 old.1) ⟨d, there, listed, same⟩⟩

/-- A step of a handler or of `Close` that leaves the object where it is counted and listed. -/
theorem InBalance.put (found : s.conns[o]? = some c)
    (flag : new.phase.flagged = true → new.connected = true) (weight : new.weight = c.weight)
    (listed : c.phase.listed = true → new.phase.listed = true ∧ new.id = c.id)
    (held : c.phase = .held → new.phase = .held)
    (counted : c.phase.counted = true → new.phase.counted = true) : InBalance (s.put o new) where
  connected := balance.connected_set flag
  count := by simp [System.put, balance.count_set found, weight]
  entries id o' entry := by
    refine balance.entries_set found (fun same old => ?_) entry
    exact ⟨(listed old).1, (listed old).2.trans same⟩
  created o' holds :=
    at_set (P := fun d : Connection => d.phase = .held) found held (balance.created o' holds)
  spawned o' isSpawned := at_set (P := fun d : Connection => d.phase.counted = true) found counted (balance.spawned o' isSpawned)

theorem InBalance.allocate (admitted : s.accept = .admitted) (id : GoString) :
    InBalance ((s.add ⟨id, true, .held⟩).turn (.created s.conns.length)) where
  connected := by
    intro o' d there flagged
    obtain ⟨-, old⟩ | ⟨-, rfl⟩ := getElem?_concat_cases there
    · exact balance.connected o' d old flagged
    · rfl
  count := by
    have count := balance.count
    rw [admitted] at count
    show s.connCount + 0 = tally Connection.weight (s.conns ++ [⟨id, true, .held⟩])
    rw [tally_append]
    exact count
  entries id' o' entry := by
    obtain ⟨place, d, there, listed, same⟩ := balance.entries id' o' entry
    have inside := (List.getElem?_eq_some_iff.mp there).1
    exact ⟨place, d, (List.getElem?_append_left inside).trans there, listed, same⟩
  created o' holds := by
    obtain rfl : s.conns.length = o' := by simpa [System.turn] using holds
    exact ⟨_, List.getElem?_concat_length, rfl⟩
  spawned o' isSpawned := by simp [System.turn] at isSpawned

theorem InBalance.reuse (admitted : s.accept = .admitted) (found : s.conns[o]? = some c)
    (pooled : c.phase = .pooled) (id : GoString) :
    InBalance ((s.put o ⟨id, true, .held⟩).turn (.created o)) where
  connected := balance.connected_set fun _ => rfl
  count := by
    simp [System.put, System.turn, balance.count_set found, admitted, AcceptPc.pending,
      Connection.weight, pooled, Phase.counted]
  entries id' o' entry := by
    refine balance.entries_set found (fun _ listed => ?_) entry
    rw [pooled] at listed
    cases listed
  created o' holds := by
    obtain rfl : o = o' := by simpa [System.turn] using holds
    exact ⟨_, List.getElem?_set_self (List.getElem?_eq_some_iff.mp found).1, rfl⟩
  spawned o' isSpawned := by simp [System.turn] at isSpawned

theorem InBalance.store (created : s.accept = .created o) (found : s.conns[o]? = some c) :
    InBalance ((s.register c.id (some o)).turn (.stored o)) where
  connected := balance.connected
  count := by
    have count := balance.count
    rw [created] at count
    exact count
  entries id o' entry := by
    change update s.connections c.id (some o) id = some o' at entry
    obtain ⟨here, -⟩ | ⟨-, entry⟩ := of_update entry
    · obtain ⟨d, there, held⟩ := balance.created o (.inl created)
      obtain rfl : c = d := Option.some.inj (found.symm.trans there)
      exact ⟨o, c, found, by rw [held]; rfl, here.symm⟩
    · exact balance.entries id o' entry
  created o' holds := by
    obtain rfl : o = o' := by simpa [System.turn] using holds
    exact balance.created o (.inl created)
  spawned o' isSpawned := by simp [System.turn] at isSpawned

theorem InBalance.spawn (stored : s.accept = .stored o) (found : s.conns[o]? = some c) :
    InBalance ((s.put o ⟨c.id, c.connected, .serving⟩).turn (.spawned o)) := by
  obtain ⟨d, there, held⟩ := balance.created o (.inr stored)
  obtain rfl : c = d := Option.some.inj (found.symm.trans there)
  have flag := balance.connected o c found (by rw [held]; rfl)
  refine ⟨balance.connected_set fun _ => flag, ?_, fun id o' entry =>
    ?_, ?_, fun o' isSpawned => ?_⟩
  · simp [System.put, System.turn, balance.count_set found, stored, AcceptPc.pending,
      Connection.weight, held, Phase.counted]
  · exact balance.entries_set found (fun same _ => ⟨rfl, same⟩) entry
  · simp [System.turn]
  · obtain rfl : o = o' := by simpa [System.turn] using isSpawned
    exact ⟨_, List.getElem?_set_self (List.getElem?_eq_some_iff.mp found).1, rfl⟩

theorem InBalance.delete (found : s.conns[o]? = some c) (closing : c.phase = .closing) :
    InBalance ((s.register c.id none).put o ⟨c.id, c.connected, .deleted⟩) where
  connected := balance.connected_set fun flagged => by cases flagged
  count := by
    simp [System.put, System.register, balance.count_set found, Connection.weight, closing,
      Phase.counted]
  entries id o' entry := by
    change update s.connections c.id none id = some o' at entry
    obtain ⟨-, ⟨⟩⟩ | ⟨here, entry⟩ := of_update entry
    exact balance.entries_set found (fun same _ => absurd same.symm here) entry
  created o' holds := by
    refine at_set (P := fun d : Connection => d.phase = .held) found (fun held => ?_)
      (balance.created o' holds)
    rw [closing] at held
    cases held
  spawned o' isSpawned :=
    at_set (P := fun d : Connection => d.phase.counted = true) found (fun _ => rfl)
      (balance.spawned o' isSpawned)

/-- The object is past the count; it has been counted before. -/
theorem InBalance.decrement (found : s.conns[o]? = some c) (deleted : c.phase = .deleted)
    (before : s.accept ≠ .spawned o) :
    InBalance ((s.countBy (-1)).put o ⟨c.id, c.connected, .uncounted⟩) where
  connected := balance.connected_set fun flagged => by cases flagged
  count := by
    simp [System.put, System.countBy, balance.count_set found, Connection.weight, deleted,
      Phase.counted]
    omega
  entries id o' entry := by
    refine balance.entries_set found (fun _ listed => ?_) entry
    rw [deleted] at listed
    cases listed
  created o' holds := by
    refine at_set (P := fun d : Connection => d.phase = .held) found (fun held => ?_)
      (balance.created o' holds)
    rw [deleted] at held
    cases held
  spawned o' isSpawned := by
    obtain ⟨d, there, counted⟩ := balance.spawned o' isSpawned
    have other : o ≠ o' := fun same => before (same ▸ isSpawned)
    exact ⟨d, by rw [System.put, List.getElem?_set_ne other]; exact there, counted⟩

end

theorem inBalance_next (balance : InBalance s) (undisturbed : Undisturbed s label)
    (moved : (machine maxConnections).next s label = some t) : InBalance t := by
  have ⟨connected, count, entries, created, spawned⟩ := balance
  cases moves_of_next moved with
  | turns idle next =>
    have before : s.accept.pending = 0 := by obtain h | h | h := idle <;> rw [h] <;> rfl
    rw [before] at count
    obtain rfl | rfl | rfl | rfl := next <;>
      exact ⟨connected, count, entries, by simp [System.turn], by simp [System.turn]⟩
  | admits accepted =>
    rw [accepted] at count
    exact ⟨connected, count, entries, by simp [System.turn], by simp [System.turn]⟩
  | allocates admitted => exact balance.allocate admitted _
  | reuses admitted found pooled => exact balance.reuse admitted found pooled _
  | stores isCreated found => exact balance.store isCreated found
  | spawns stored found => exact balance.spawn stored found
  | counts isSpawned =>
    rw [isSpawned] at count
    exact ⟨connected, (Int.add_zero _).trans count,
      entries, by simp [System.turn], by simp [System.turn]⟩
  | finishes found serving =>
    have flag := connected _ _ found (by rw [serving]; rfl)
    rw [flag, if_pos rfl]
    exact balance.put found (fun flagged => by
      cases flagged) (by simp [Connection.weight, serving, Phase.counted])
      (fun _ => ⟨rfl, rfl⟩) (fun held => by rw [serving] at held; cases held) (fun _ => rfl)
  | deletes found closing => exact balance.delete found closing
  | decrements found deleted => exact balance.decrement found deleted undisturbed
  | releases found uncounted =>
    exact balance.put found (fun flagged => by
      cases flagged) (by simp [Connection.weight, uncounted, Phase.counted])
      (fun listed => by rw [uncounted] at listed; cases listed) (fun held => by
        rw [uncounted] at held; cases held)
      (fun counted => by rw [uncounted] at counted; cases counted)
  | closes found =>
    have cleared := undisturbed _ found
    refine balance.put found (fun flagged => ?_) rfl (fun listed => ⟨listed, rfl⟩) id id
    exact absurd (connected _ _ found flagged) (by simp [cleared])
  | stops => exact ⟨connected, count, entries, created, spawned⟩

theorem inBalance_started : InBalance started where
  connected _ _ found := by simp [started] at found
  count := rfl
  entries _ _ entry := by cases entry
  created _ holds := by simp [started] at holds
  spawned _ isSpawned := by cases isSpawned

theorem InBalance.of_idle (balance : InBalance s) (idle : s.Idle) :
    s.connCount = 0 ∧ ∀ id, s.connections id = none := by
  have done (o : Nat) (c : Connection) (found : s.conns[o]? = some c) :
      c.phase.counted = false ∧ c.phase.listed = false := by
    obtain pooled | abandoned := idle c (List.mem_of_getElem? found)
    · rw [pooled]
      exact ⟨rfl, rfl⟩
    · rw [abandoned]
      exact ⟨rfl, rfl⟩
  constructor
  · have none : tally Connection.weight s.conns = 0 := by
      by_contra some
      obtain ⟨o, c, found, heavy⟩ := exists_of_tally_pos (Nat.pos_of_ne_zero some)
      rw [Connection.weight, (done o c found).1] at heavy
      cases heavy
    have settled : s.accept.pending = 0 := by
      cases here : s.accept with
      | spawned o =>
        obtain ⟨c, found, counted⟩ := balance.spawned o here
        rw [(done o c found).1] at counted
        cases counted
      | _ => rfl
    have count := balance.count
    rw [none, settled] at count
    omega
  · intro id
    by_contra some
    obtain ⟨o, entry⟩ := Option.ne_none_iff_exists'.mp some
    obtain ⟨place, c, found, listed, -⟩ := balance.entries id o entry
    rw [(done place c found).2] at listed
    cases listed

instance (s : System) : (label : Label) → Decidable (Undisturbed s label)
  | .close o => inferInstanceAs (Decidable (∀ c ∈ s.conns[o]?, c.connected = false))
  | .decrement o => inferInstanceAs (Decidable (s.accept ≠ .spawned o))
  | .loop | .accept _ | .check | .create _ _ | .store | .spawn | .count | .finish _ | .delete _
    | .release _ | .stop =>
    inferInstanceAs (Decidable True)

/-- In every run the count stays within the limit. In a run in which no call of `Close` finds
    the flag set, and no connection is closed before the accept loop has counted it, the count is
    zero and the map is empty whenever no connection is being handled. -/
theorem connections_accounted (maxConnections : Int) :
    (∀ labels s, (machine maxConnections).run started labels = some s → 0 < maxConnections →
      s.connCount ≤ maxConnections) ∧
    ∀ labels s, ((machine maxConnections).restrict Undisturbed).run started labels = some s →
      s.Idle → s.connCount = 0 ∧ ∀ id, s.connections id = none := by
  constructor
  · intro labels s ran
    have limited : Limited maxConnections started := ⟨Int.le_of_lt, fun past => by cases past⟩
    exact ((machine maxConnections).run_invariant (fun _ _ _ => limited_next) limited ran).within
  · intro labels s ran
    refine (Machine.run_invariant _ (fun s label t kept moved => ?_) inBalance_started ran).of_idle
    obtain ⟨undisturbed, moved⟩ := (Machine.restrict_next _).mp moved
    exact inBalance_next kept undisturbed moved

def connects : List Label := [.loop, .accept true, .check, .create none 7, .store, .spawn, .count]

/-- A connection that `Stop` closes stays on the count and in the map for ever. -/
theorem stop_leaves_connection :
    ∃ s, (machine 10).run started (connects ++ [.stop, .close 0, .finish 0]) = some s ∧ s.Idle ∧
      s.connCount = 1 ∧ s.connections (generateConnectionID 7) = some 0 := by
  refine exists_of_view (fun s =>
    (s.conns.map Connection.phase, s.connCount, s.connections (generateConnectionID 7)))
    ([.abandoned], 1, some 0) (by decide +kernel) fun s ran seen => ?_
  simp only [Prod.mk.injEq] at seen
  refine ⟨fun c inside => .inr ?_, seen.2⟩
  have phase := List.mem_map_of_mem (f := Connection.phase) inside
  rw [seen.1] at phase
  exact List.mem_singleton.mp phase

/-- The second client connects before the first one is gone, and leaves before it. -/
def twoConnections : List Label :=
  connects ++ [.loop, .accept true, .check, .create none 8, .finish 0, .store, .spawn, .count,
    .finish 1, .delete 1, .delete 0, .decrement 1, .release 1, .decrement 0, .release 0]

/-- Connections that their handlers close are taken off the count and out of the map. -/
theorem closed_connections_accounted :
    ∃ s, ((machine 10).restrict Undisturbed).run started twoConnections = some s ∧ s.Idle ∧
      s.connCount = 0 ∧ ∀ id, s.connections id = none := by
  refine exists_of_view (fun s => s.conns.map Connection.phase) [.pooled, .pooled]
    (by decide +kernel) fun s ran seen => ?_
  have idle : s.Idle := by
    intro c inside
    have phase := List.mem_map_of_mem (f := Connection.phase) inside
    rw [seen] at phase
    exact .inl (by simpa using phase)
  exact ⟨idle, (connections_accounted 10).2 _ s ran idle⟩

end Portask.Network.TcpServer
