import Portask.Lib.GoString
import Portask.Lib.Machine
import Mathlib.Data.List.Dedup
import Mathlib.Data.List.Pairwise

/-! # Users, API keys and tokens

The random strings that a call generates, and the time at which it is made, are given with the call. A signed token is
its claims with the secret it was signed with, so that it is known by that secret alone. Times of creation and of last
use, which nothing reads, are left out.
-/

namespace Portask.Auth

open Function Lib GoString

structure User where
  id : GoString
  username : GoString
  email : GoString
  roles : List GoString
  active : Bool

structure APIKey where
  id : GoString
  key : GoString
  userID : GoString
  permissions : List GoString
  active : Bool
  expiresAt : Option Int

structure JWTClaims where
  userID : GoString
  username : GoString
  roles : List GoString
  permissions : List GoString
  expiresAt : Int

structure Token where
  claims : JWTClaims
  secret : GoString

structure Authenticator where
  users : GoString → Option User
  apiKeys : GoString → Option APIKey

/-- The entries of `updates` that have the type their key asks for. -/
structure Updates where
  username : Option GoString := none
  email : Option GoString := none
  roles : Option (List GoString) := none
  active : Option Bool := none

namespace Authenticator

def permissionsOf (role : GoString) : List GoString :=
  if role = ofAscii "admin" then
    ["message:read", "message:write", "message:delete", "topic:create", "topic:delete",
      "topic:list", "admin:read", "admin:write", "metrics:read", "system:manage"].map ofAscii
  else if role = ofAscii "producer" then ["message:write", "topic:list"].map ofAscii
  else if role = ofAscii "consumer" then ["message:read", "topic:list"].map ofAscii
  else if role = ofAscii "readonly" then ["message:read", "topic:list", "metrics:read"].map ofAscii
  else if role = ofAscii "service" then ["message:read", "message:write", "topic:list"].map ofAscii
  else []

/-- The order of the result is that of a map, and nothing depends on it. -/
def getRolePermissions (roles : List GoString) : List GoString :=
  (roles.flatMap permissionsOf).dedup

def generateJWT (secret : GoString) (user : User) (expiresAt : Int) : Token :=
  ⟨⟨user.id, user.username, user.roles, getRolePermissions user.roles, expiresAt⟩, secret⟩

/-- The library accepts the unexpired tokens signed with the secret. -/
def validateJWT (secret : GoString) (now : Int) (token : Token) : Except GoString JWTClaims :=
  if token.secret = secret ∧ now < token.claims.expiresAt then .ok token.claims
  else .error (ofAscii "invalid token")

def validateAPIKey (a : Authenticator) (now : Int) (keyString : GoString) :
    Except GoString APIKey :=
  match a.apiKeys keyString with
  | none => .error (ofAscii "invalid API key")
  | some apiKey =>
    if !apiKey.active then .error (ofAscii "API key is disabled")
    else if apiKey.expiresAt.any (· < now) then .error (ofAscii "API key has expired")
    else .ok apiKey

def getUser (a : Authenticator) (userID : GoString) : Except GoString User :=
  match a.users userID with
  | none => .error (ofAscii "user not found")
  | some user => .ok user

inductive Call where
  | createUser (username email : GoString) (roles : List GoString) (userID : GoString)
  | updateUser (userID : GoString) (updates : Updates)
  | deleteUser (userID : GoString)
  | generateJWT (user : User) (expiresAt : Int)
  | generateAPIKey (userID : GoString) (permissions : List GoString) (expiresAt : Option Int)
    (key id : GoString)
  /-- The keys are looked at in the order of `visited`. -/
  | revokeAPIKey (keyID : GoString) (visited : List GoString)

def User.update (user : User) (updates : Updates) : User :=
  { user with
    username := updates.username.getD user.username
    email := updates.email.getD user.email
    roles := updates.roles.getD user.roles
    active := updates.active.getD user.active }

/-- The answer tells whether the call succeeded. -/
def object : Object Authenticator Call Bool where
  apply a
    | .createUser username email roles userID =>
      ({ a with users := update a.users userID (some ⟨userID, username, email, roles, true⟩) }, true)
    | .updateUser userID updates =>
      match a.users userID with
      | none => (a, false)
      | some user => ({ a with users := update a.users userID (some (User.update user updates)) }, true)
    | .deleteUser userID =>
      match a.users userID with
      | none => (a, false)
      | some _ =>
        (⟨update a.users userID none, fun key => (a.apiKeys key).filter (·.userID ≠ userID)⟩, true)
    | .generateJWT _ _ => (a, true)
    | .generateAPIKey userID permissions expiresAt key id =>
      ({ a with apiKeys := update a.apiKeys key (some ⟨id, key, userID, permissions, true, expiresAt⟩) }, true)
    | .revokeAPIKey keyID visited =>
      match visited.find? fun key => (a.apiKeys key).any (·.id = keyID) with
      | none => (a, false)
      | some key => ({ a with apiKeys := update a.apiKeys key none }, true)

/-- `NewAuthenticator` goes on from here with the calls that make its administrator and their key. -/
def empty : Authenticator := ⟨fun _ => none, fun _ => none⟩

abbrev Record := List (Call × Bool)

/-- The authenticator with a record of the calls and their answers, newest first. -/
def history : Object (Authenticator × Record) Call Bool :=
  object.recording fun a call => some (call, (object.apply a call).2)

def after (calls : List Call) : Authenticator × Record := (history.run (empty, []) calls).1

def Call.generated : Call → List GoString
  | .createUser _ _ _ userID => [userID]
  | .generateAPIKey _ _ _ key id => [key, id]
  | _ => []

/-- The call generates strings that differ from each other and from those before. -/
def Fresh (s : Authenticator × Record) (call : Call) : Prop :=
  call.generated.Nodup ∧ ∀ entry ∈ s.2, call.generated.Disjoint entry.1.generated

/-- The call ends the validity of the key. -/
def Ends (x : APIKey) : Call → Prop
  | .deleteUser userID => userID = x.userID
  | .revokeAPIKey keyID _ => keyID = x.id
  | _ => False

/-- The key was generated, and since then it was not revoked and its owner was not deleted. -/
def Outstanding (record : Record) (x : APIKey) : Prop :=
  ∃ later before, record = later ++
    (.generateAPIKey x.userID x.permissions x.expiresAt x.key x.id, true) :: before ∧
    ∀ call, (call, true) ∈ later → ¬ Ends x call

section

variable {record : Record} {call : Call} {succeeded : Bool} {x y : APIKey}

theorem outstanding_cons :
    Outstanding ((call, succeeded) :: record) x ↔
      call = .generateAPIKey x.userID x.permissions x.expiresAt x.key x.id ∧ succeeded = true ∨
        Outstanding record x ∧ (succeeded = true → ¬ Ends x call) := by
  constructor
  · rintro ⟨later, before, split, kept⟩
    cases later with
    | nil =>
      obtain ⟨same, -⟩ := List.cons.inj split
      exact .inl (by simpa using same)
    | cons entry later =>
      obtain ⟨rfl, rest⟩ := List.cons.inj split
      exact .inr ⟨⟨later, before, rest, fun c inside => kept c (List.mem_cons_of_mem _ inside)⟩,
        fun ok => kept call (by simp [ok])⟩
  · rintro (⟨rfl, rfl⟩ | ⟨⟨later, before, rfl, kept⟩, own⟩)
    · exact ⟨[], record, rfl, by simp⟩
    · refine ⟨(call, succeeded) :: later, before, rfl, fun c inside => ?_⟩
      rcases List.mem_cons.mp inside with same | inside
      · obtain ⟨rfl, rfl⟩ := Prod.mk.inj same
        exact own rfl
      · exact kept c inside

theorem Outstanding.mem (outstanding : Outstanding record x) :
    (.generateAPIKey x.userID x.permissions x.expiresAt x.key x.id, true) ∈ record := by
  obtain ⟨later, before, rfl, -⟩ := outstanding
  simp

/-- What the keys are, and that no string was generated twice. -/
structure Kept (s : Authenticator × Record) : Prop where
  keys : ∀ key x, s.1.apiKeys key = some x ↔ x.key = key ∧ x.active = true ∧ Outstanding s.2 x
  apart : s.2.Pairwise fun entry other => entry.1.generated.Disjoint other.1.generated

variable {s : Authenticator × Record}

theorem Kept.key_eq (kept : Kept s) (outstanding : Outstanding s.2 x) (other : Outstanding s.2 y)
    (same : x.id = y.id) : x.key = y.key := by
  by_contra differ
  have symm : Std.Symm fun entry other : Call × Bool =>
      entry.1.generated.Disjoint other.1.generated :=
    ⟨fun _ _ disjoint => disjoint.symm⟩
  have disjoint := kept.apart.forall outstanding.mem other.mem (by simp [differ])
  exact disjoint (show x.id ∈ _ by simp [Call.generated]) (by simp [Call.generated, same])

theorem Fresh.not_outstanding {key id userID permissions expiresAt}
    (fresh : Fresh s (.generateAPIKey userID permissions expiresAt key id)) (same : x.key = key) :
    ¬ Outstanding s.2 x := by
  intro outstanding
  exact fresh.2 _ outstanding.mem (show key ∈
    _ by simp [Call.generated]) (by simp [Call.generated, same])

theorem Kept.step (kept : Kept s) (fresh : Fresh s call) : Kept (history.apply s call).1 where
  apart := List.pairwise_cons.mpr ⟨fun entry inside => fresh.2 entry inside, kept.apart⟩
  keys key x := by
    obtain ⟨a, record⟩ := s
    simp only [history, Object.recording, Object.tracking, Option.toList_some,
      List.singleton_append, outstanding_cons]
    cases call with
    | createUser | generateJWT => simp [object, Ends, kept.keys]
    | updateUser userID updates =>
      cases found : a.users userID <;> simp [object, Ends, found, kept.keys]
    | deleteUser userID =>
      cases found : a.users userID with
      | none => simp [object, found, kept.keys]
      | some user =>
        simp only [object, found, Option.filter_eq_some_iff, kept.keys, Ends]
        grind
    | generateAPIKey userID permissions expiresAt made id =>
      by_cases here : key = made
      · subst here
        have first (own : x.key = key) : ¬ Outstanding record x := fresh.not_outstanding own
        cases x
        simp only [object, update_self, Ends]
        grind
      · have other (own : x.key = key) : ¬ made = x.key := fun same => here (own.symm.trans same.symm)
        simp only [object, update_of_ne here, kept.keys, Ends]
        grind
    | revokeAPIKey keyID visited =>
      cases search : visited.find? fun key => (a.apiKeys key).any (·.id = keyID) with
      | none => simp [object, search, kept.keys]
      | some gone =>
        obtain ⟨y, there, same⟩ : ∃ y, a.apiKeys gone = some y ∧ y.id = keyID := by
          simpa [Option.any_eq_true] using List.find?_some search
        obtain ⟨place, -, outstanding⟩ := (kept.keys gone y).mp there
        by_cases here : key = gone
        · subst here
          have only (own : x.key = key) (active : x.active = true) (left : Outstanding record x) : x = y :=
            Option.some.inj (((kept.keys key x).mpr ⟨own, active, left⟩).symm.trans there)
          simp only [object, search, update_self, Ends]
          grind
        · have other (own : x.key = key) (left : Outstanding record x) : keyID ≠ x.id := fun equal =>
            here (own.symm.trans ((kept.key_eq left outstanding (equal.symm.trans same.symm)).trans place))
          simp only [object, search, update_of_ne here, kept.keys, Ends]
          grind

theorem kept_after (fresh : history.Along Fresh (empty, []) calls) : Kept (after calls) := by
  have start : Kept (empty, []) := ⟨by simp [empty, Outstanding], .nil⟩
  exact Object.run_invariant (fun _ _ kept fresh => kept.step fresh) start fresh

end

variable {a : Authenticator}

theorem validateAPIKey_ok :
    a.validateAPIKey now key = .ok x ↔
      a.apiKeys key = some x ∧ x.active = true ∧ ∀ expiry, x.expiresAt = some expiry → now ≤ expiry := by
  unfold validateAPIKey
  cases found : a.apiKeys key with
  | none => simp
  | some y =>
    by_cases same : y = x
    · subst same
      cases active : y.active <;> cases expiry : y.expiresAt <;> simp [active, expiry]
    · have other : ¬ some y = some x := by simpa using same
      simp only [other, false_and, iff_false]
      split
      · simp
      · split <;> simp [same]

/-- What is revoked or deleted concerns only the keys whose validity it ends. -/
theorem apiKeys_of_not_ends (call : Call) (quiet : call.generated = [])
    (other : ∀ x, a.apiKeys key = some x → ¬ Ends x call) :
    (object.apply a call).1.apiKeys key = a.apiKeys key := by
  cases call with
  | createUser | generateAPIKey => simp [Call.generated] at quiet
  | generateJWT => rfl
  | updateUser userID => cases found : a.users userID <;> simp [object, found]
  | deleteUser userID =>
    cases found : a.users userID with
    | none => simp [object, found]
    | some user =>
      simp only [object, found]
      cases here : a.apiKeys key with
      | none => rfl
      | some x =>
        rw [Option.filter_some, if_pos]
        simpa using Ne.symm (other x here)
  | revokeAPIKey keyID visited =>
    cases search : visited.find? fun key => (a.apiKeys key).any (·.id = keyID) with
    | none => simp [object, search]
    | some gone =>
      obtain ⟨y, there, same⟩ : ∃ y, a.apiKeys gone = some y ∧ y.id = keyID := by
        simpa [Option.any_eq_true] using List.find?_some search
      have elsewhere : key ≠ gone := by
        rintro rfl
        exact other y there same.symm
      simp [object, search, elsewhere]

/-- A key is valid as long as it is outstanding and has not expired, and revoking one key or deleting one user leaves
the other keys as they were. -/
theorem valid_keys_are_outstanding (calls : List Call)
    (fresh : history.Along Fresh (empty, []) calls) (now : Int) (key : GoString) :
    ((∃ x, (after calls).1.validateAPIKey now key = .ok x) ↔
      ∃ x, x.key = key ∧ Outstanding (after calls).2 x ∧
        ∀ expiry, x.expiresAt = some expiry → now ≤ expiry) ∧
    (∀ keyID visited, (∀ x, (after calls).1.apiKeys key = some x → x.id ≠ keyID) →
      (object.apply (after calls).1 (.revokeAPIKey keyID visited)).1.validateAPIKey now key =
        (after calls).1.validateAPIKey now key) ∧
    ∀ userID, (∀ x, (after calls).1.apiKeys key = some x → x.userID ≠ userID) →
      (object.apply (after calls).1 (.deleteUser userID)).1.validateAPIKey now key =
        (after calls).1.validateAPIKey now key := by
  refine ⟨?_, fun keyID visited other => ?_, fun userID other => ?_⟩
  · simp only [validateAPIKey_ok]
    constructor
    · rintro ⟨x, found, -, unexpired⟩
      obtain ⟨own, -, outstanding⟩ := ((kept_after fresh).keys key x).mp found
      exact ⟨x, own, outstanding, unexpired⟩
    · rintro ⟨x, own, outstanding, unexpired⟩
      refine ⟨{ x with active := true },
        ((kept_after fresh).keys key _).mpr ⟨own, rfl, outstanding⟩, rfl, unexpired⟩
  · have same := apiKeys_of_not_ends (.revokeAPIKey keyID visited) rfl fun x found =>
      (other x found).symm
    simp only [validateAPIKey, same]
  · have same := apiKeys_of_not_ends (.deleteUser userID) rfl fun x found => (other x found).symm
    simp only [validateAPIKey, same]

/-- Four keys: the second is revoked, the third expires at 5, and the owner of the fourth is deleted. -/
def fourKeys : List Call :=
  [.createUser [] [] [] [1], .createUser [] [] [] [2], .generateAPIKey [1] [] none [10] [11],
    .generateAPIKey [1] [] none [20] [21], .generateAPIKey [1] [] (some 5) [30] [31],
    .generateAPIKey [2] [] none [40] [41], .revokeAPIKey [21] [[10], [20]], .deleteUser [2]]

theorem valid_keys_are_outstanding_of_four :
    (∃ x, (after fourKeys).1.validateAPIKey 6 [10] = .ok x) ∧
      ∀ key ∈ [[20], [30], [40]], ¬ ∃ x, (after fourKeys).1.validateAPIKey 6 key = .ok x := by
  have fresh : history.Along Fresh (empty, []) fourKeys := by
    simp [fourKeys, Object.Along, Fresh, Call.generated, history, Object.recording, Object.tracking]
  have valid (key : GoString) := (valid_keys_are_outstanding fourKeys fresh 6 key).1
  have record : (after fourKeys).2 = fourKeys.reverse.map (·, true) := rfl
  have never (x : APIKey) : ¬ Outstanding [] x := by simp [Outstanding]
  simp only [valid, record]
  refine ⟨⟨⟨[11], [10], [1], [], true, none⟩, rfl, ?_, by simp⟩, fun key inside => ?_⟩
  · simp [fourKeys, outstanding_cons, Ends]
  · simp only [fourKeys, List.reverse_cons, List.reverse_nil, List.nil_append, List.cons_append,
      List.map_cons, List.map_nil, outstanding_cons, Ends, never]
    grind

structure Request where
  /-- The token, when the header `Authorization` begins with `Bearer `. -/
  bearer : Option Token
  /-- The header `X-API-Key`. -/
  apiKey : GoString

inductive AuthMethod where
  | jwt
  | apiKey

structure AuthContext where
  user : Option User
  apiKey : Option APIKey
  permissions : List GoString
  authMethod : AuthMethod

def authenticateRequest (a : Authenticator) (secret : GoString) (now : Int) (r : Request) :
    Except GoString AuthContext := do
  match r.bearer with
  | some token =>
    let claims ← validateJWT secret now token
    let user ← a.getUser claims.userID
    return ⟨some user, none, claims.permissions, .jwt⟩
  | none =>
    if r.apiKey ≠ [] then
      let apiKey ← a.validateAPIKey now r.apiKey
      return ⟨(a.getUser apiKey.userID).toOption, some apiKey, apiKey.permissions, .apiKey⟩
    else throw (ofAscii "no authentication provided")

/-- No user is deactivated or loses permissions, and credentials are made for users as they are registered. -/
def Steady (a : Authenticator) : Call → Prop
  | .updateUser userID updates => ∀ user, a.users userID = some user →
      updates.active ≠ some false ∧
        getRolePermissions user.roles ⊆ getRolePermissions (User.update user updates).roles
  | .generateJWT user _ => a.users user.id = some user
  | .generateAPIKey userID _ _ _ _ => (a.users userID).isSome
  | _ => True

def Used (record : Record) (id : GoString) : Prop := ∃ entry ∈ record, id ∈ entry.1.generated

structure Sound (s : Authenticator × Record) : Prop where
  users : ∀ id user, s.1.users id = some user → user.id = id ∧ user.active = true
  keys : ∀ key x, s.1.apiKeys key = some x → (s.1.users x.userID).isSome
  /-- The ID of a user was generated, so that nobody else gets it. -/
  known : ∀ id user, s.1.users id = some user → Used s.2 id
  issued : ∀ issued expiresAt, (.generateJWT issued expiresAt, true) ∈ s.2 → Used s.2 issued.id
  tokens : ∀ issued expiresAt user, (.generateJWT issued expiresAt, true) ∈ s.2 →
    s.1.users issued.id = some user →
    getRolePermissions issued.roles ⊆ getRolePermissions user.roles

section

variable {a : Authenticator} {call : Call} {s : Authenticator × Record}

/-- A user after a steady call is new, or was there before, with no more rights. -/
theorem users_after (steady : Steady a call) {id user}
    (found : (object.apply a call).1.users id = some user) :
    call.generated = [id] ∧ user.id = id ∧ user.active = true ∨
      ∃ old, a.users id = some old ∧ user.id = old.id ∧ (old.active = true → user.active = true) ∧
        getRolePermissions old.roles ⊆ getRolePermissions user.roles := by
  by_cases before : a.users id = some user
  · exact .inr ⟨user, before, rfl, fun active => active, fun _ has => has⟩
  -- the call has changed this user
  cases call with
  | createUser username email roles userID =>
    obtain ⟨rfl, ⟨⟩⟩ | ⟨-, old⟩ := of_update found
    · exact .inl ⟨rfl, rfl, rfl⟩
    · exact absurd old before
  | updateUser userID updates =>
    cases there : a.users userID with
    | none => exact absurd (by simpa [object, there] using found) before
    | some old =>
      simp only [object, there] at found
      obtain ⟨rfl, ⟨⟩⟩ | ⟨-, old⟩ := of_update found
      · obtain ⟨stays, gains⟩ := steady old there
        exact .inr ⟨old, there, rfl, by cases given : updates.active <;> simp_all [User.update], gains⟩
      · exact absurd old before
  | deleteUser userID =>
    cases there : a.users userID with
    | none => exact absurd (by simpa [object, there] using found) before
    | some old =>
      simp only [object, there] at found
      obtain ⟨-, ⟨⟩⟩ | ⟨-, old⟩ := of_update found
      exact absurd old before
  | generateJWT | generateAPIKey => exact absurd found before
  | revokeAPIKey keyID visited =>
    cases search : visited.find? fun key => (a.apiKeys key).any (·.id = keyID) <;>
      exact absurd (by simpa [object, search] using found) before

theorem keys_after (owned : ∀ key x, a.apiKeys key = some x → (a.users x.userID).isSome)
    (steady : Steady a call) (found : (object.apply a call).1.apiKeys key = some x) :
    ((object.apply a call).1.users x.userID).isSome := by
  have updated (id : GoString) (user : User) (owner : (a.users x.userID).isSome) :
      (update a.users id (some user) x.userID).isSome := by
    by_cases here : x.userID = id <;> simp [here, owner]
  cases call with
  | createUser => exact updated _ _ (owned key x found)
  | updateUser userID updates =>
    cases there : a.users userID with
    | none => simpa [object, there] using owned key x (by simpa [object, there] using found)
    | some old => simpa [object, there] using updated userID _ (owned key x (by simpa [object, there] using found))
  | deleteUser userID =>
    cases there : a.users userID with
    | none => simpa [object, there] using owned key x (by simpa [object, there] using found)
    | some old =>
      simp only [object, there, Option.filter_eq_some_iff, decide_eq_true_eq] at found ⊢
      rw [update_of_ne found.2]
      exact owned key x found.1
  | generateJWT => exact owned key x found
  | generateAPIKey userID permissions expiresAt made id =>
    obtain ⟨-, ⟨⟩⟩ | ⟨-, old⟩ := of_update found
    · exact steady
    · exact owned key x old
  | revokeAPIKey keyID visited =>
    cases search : visited.find? fun key => (a.apiKeys key).any (·.id = keyID) with
    | none => simpa [object, search] using owned key x (by simpa [object, search] using found)
    | some gone =>
      simp only [object, search] at found ⊢
      obtain ⟨-, ⟨⟩⟩ | ⟨-, old⟩ := of_update found
      exact owned key x old

theorem Sound.step (sound : Sound s) (fresh : Fresh s call) (steady : Steady s.1 call) :
    Sound (history.apply s call).1 := by
  have later {id} (used : Used s.2 id) : Used (history.apply s call).1.2 id := by
    obtain ⟨entry, inside, generated⟩ := used
    exact ⟨entry, List.mem_cons_of_mem _ inside, generated⟩
  have known (id user) (found : (object.apply s.1 call).1.users id = some user) :
      Used (history.apply s call).1.2 id := by
    rcases users_after steady found with ⟨new, -⟩ | ⟨old, there, -⟩
    · exact ⟨_, List.mem_cons_self, by simp [new]⟩
    · exact later (sound.known id old there)
  refine ⟨?_, fun key x found => keys_after sound.keys steady found, known, ?_, ?_⟩
  · intro id user found
    rcases users_after steady found with ⟨-, same, active⟩ | ⟨old, there, same, active, -⟩
    · exact ⟨same, active⟩
    · obtain ⟨own, was⟩ := sound.users id old there
      exact ⟨same.trans own, active was⟩
  · intro issued expiresAt inside
    rcases List.mem_cons.mp inside with now | before
    · obtain ⟨rfl, -⟩ := Prod.mk.inj now
      exact known issued.id issued steady
    · exact later (sound.issued issued expiresAt before)
  · intro issued expiresAt user inside found
    rcases List.mem_cons.mp inside with now | before
    · obtain ⟨rfl, -⟩ := Prod.mk.inj now
      obtain rfl : issued = user := Option.some.inj (steady.symm.trans found)
      exact fun _ has => has
    · rcases users_after steady found with ⟨new, -⟩ | ⟨old, there, -, -, gains⟩
      · obtain ⟨entry, there, generated⟩ := sound.issued issued expiresAt before
        exact absurd generated (fresh.2 entry there (by simp [new]))
      · exact fun _ has => gains (sound.tokens issued expiresAt old before there has)

theorem sound_after
    (steady : history.Along (fun s call => Fresh s call ∧ Steady s.1 call) (empty, []) calls) :
    Sound (after calls) := by
  have start : Sound (empty, []) := by constructor <;> simp [empty]
  exact Object.run_invariant (fun _ _ sound ok => sound.step ok.1 ok.2) start steady

end

theorem authenticateRequest_ok (succeeds : a.authenticateRequest secret now r = .ok context) :
    (∃ token user, r.bearer = some token ∧ token.secret = secret ∧
      a.users token.claims.userID = some user ∧
      context = ⟨some user, none, token.claims.permissions, .jwt⟩) ∨
    ∃ x, a.apiKeys r.apiKey = some x ∧
      context = ⟨a.users x.userID, some x, x.permissions, .apiKey⟩ := by
  unfold authenticateRequest at succeeds
  cases bearer : r.bearer with
  | some token =>
    by_cases valid : token.secret = secret ∧ now < token.claims.expiresAt
    · cases found : a.users token.claims.userID with
      | none => simp [bearer, validateJWT, valid, getUser, found, bind, Except.bind] at succeeds
      | some user =>
        simp only [bearer, validateJWT, valid, and_self, if_true, getUser, found, bind, Except.bind,
          pure, Except.pure, Except.ok.injEq] at succeeds
        exact .inl ⟨token, user, rfl, valid.1, found, succeeds.symm⟩
    · simp [bearer, validateJWT, valid, bind, Except.bind] at succeeds
  | none =>
    by_cases given : r.apiKey = []
    · simp [bearer, given, throw, throwThe, MonadExceptOf.throw] at succeeds
    · cases validated : a.validateAPIKey now r.apiKey with
      | error => simp [bearer, given, validated, bind, Except.bind] at succeeds
      | ok x =>
        have owner : (a.getUser x.userID).toOption = a.users x.userID := by
          cases found : a.users x.userID <;> simp [getUser, found, Except.toOption]
        simp only [bearer, ne_eq, given, not_false_eq_true, if_true, validated, owner, bind,
          Except.bind, pure, Except.pure, Except.ok.injEq] at succeeds
        exact .inr ⟨x, (validateAPIKey_ok.mp validated).1, succeeds.symm⟩

/-- The token of the request, if it is signed with the secret, was made by `GenerateJWT`. -/
def Request.Genuine (r : Request) (secret : GoString) (record : Record) : Prop :=
  ∀ token, r.bearer = some token → token.secret = secret →
    ∃ user expiresAt, (.generateJWT user expiresAt, true) ∈ record ∧
      token = generateJWT secret user expiresAt

/-- As long as no user is deactivated or loses permissions, and credentials are made for registered users, whoever is
authenticated is an active user, and a token grants no more than the roles of its user. -/
theorem authenticated_user_active (secret : GoString) (calls : List Call)
    (steady : history.Along (fun s call => Fresh s call ∧ Steady s.1 call) (empty, []) calls)
    (now : Int) (r : Request) (genuine : r.Genuine secret (after calls).2) (context : AuthContext)
    (succeeds : (after calls).1.authenticateRequest secret now r = .ok context) :
    ∃ user, context.user = some user ∧ (after calls).1.users user.id = some user ∧
      user.active = true ∧
      (context.authMethod = .jwt → context.permissions ⊆ getRolePermissions user.roles) := by
  have sound := sound_after steady
  rcases authenticateRequest_ok succeeds with ⟨token, user, bearer, signed, found,
    rfl⟩ | ⟨x, found, rfl⟩
  · obtain ⟨issued, expiresAt, made, rfl⟩ := genuine token bearer signed
    obtain ⟨own, active⟩ := sound.users issued.id user found
    exact ⟨user, rfl, own ▸ found, active, fun _ => sound.tokens issued expiresAt user made found⟩
  · obtain ⟨user, owner⟩ := Option.isSome_iff_exists.mp (sound.keys r.apiKey x found)
    obtain ⟨own, active⟩ := sound.users x.userID user owner
    exact ⟨user, owner, own ▸ owner, active, nofun⟩

/-- A producer who makes themselves a token. -/
def oneToken : List Call :=
  [.createUser [1] [] [ofAscii "producer"] [2],
    .generateJWT ⟨[2], [1], [], [ofAscii "producer"], true⟩ 10]

def itsRequest : Request :=
  ⟨some (generateJWT [9] ⟨[2], [1], [], [ofAscii "producer"], true⟩ 10), []⟩

theorem authenticated_user_active_once :
    ∃ user, (after oneToken).1.users user.id = some user ∧ user.active = true := by
  obtain ⟨user, -, found, active, -⟩ := authenticated_user_active [9] oneToken
    ⟨⟨by simp [Fresh, Call.generated], trivial⟩, ⟨by simp [Fresh, Call.generated], rfl⟩,
      trivial⟩ 0 itsRequest
    (fun token bearer _ => ⟨_, _, .head _, (Option.some.inj bearer).symm⟩) _ rfl
  exact ⟨user, found, active⟩

/-- A deactivated user is let in, a demoted one with the permissions they had, and a key of nobody opens the door. -/
theorem inactive_user_authenticated :
    (∃ context,
      (after (oneToken ++ [.updateUser [2] { active := some false }])).1.authenticateRequest
      [9] 0 itsRequest = .ok context ∧ context.user.map User.active = some false) ∧
    (∃ context, (after (oneToken ++ [.updateUser [2] { roles := some [] }])).1.authenticateRequest
      [9] 0 itsRequest =
        .ok context ∧ ofAscii "message:write" ∈ context.permissions ∧ context.user.map User.roles = some []) ∧
    ∃ context, (after [.generateAPIKey [1] [] none [2] [3]]).1.authenticateRequest
    [9] 0 ⟨none, [2]⟩ = .ok context ∧
      context.user.isNone :=
  ⟨⟨_, rfl, rfl⟩, ⟨_, rfl, by decide, rfl⟩, _, rfl, rfl⟩

end Authenticator

end Portask.Auth
