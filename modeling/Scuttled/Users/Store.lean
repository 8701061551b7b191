import Scuttled.Foundation.Machine
import Scuttled.Rust.HashMap
import Scuttled.Types

/-!
# The user store

Accounts are rows of a table in a database.  Every operation executes one statement, so
operations that overlap take their turns in the order of their statements.  Passwords
are stored as bcrypt hashes.  Over it stands what the store is for: a password for each
user who has an account.
-/

namespace Scuttled

open Rust Foundation

/-- `bcrypt`: a hash, made with a random salt, is verified by the passwords in which
bcrypt sees the same as in the one it was made of. -/
structure Bcrypt where
  hash : Nat → String → Except String String
  verify : String → String → Except String Bool
  /-- The bytes of a password that count. -/
  sees : String → List UInt8
  verify_hash : ∀ {salt password hashed}, hash salt password = .ok hashed →
    ∀ other, verify other hashed = .ok (decide (sees other = sees password))

/-- The nanoseconds of the years 0 to 9999, which have texts in RFC 3339. -/
abbrev Instant := Fin (3652425 * 86400 * 10 ^ 9)

/-- The texts `chrono` makes of instants, and reads. -/
structure Rfc3339 where
  format : Instant → String
  parse : String → Except String Instant
  parse_format : ∀ instant, parse (format instant) = .ok instant

structure User where
  username : String
  passwordHash : String
  createdAt : Instant
  deriving DecidableEq, Repr

/-- The columns of the table `users` beside its primary key. -/
structure UserRow where
  passwordHash : String
  createdAt : String
  deriving DecidableEq, Repr

/-- The table `users`, by its primary key. -/
abbrev UserTable := HashMap String UserRow

/-- What the environment supplies to one operation: the error of the database, the salt,
the instant, and the order in which a query meets the rows. -/
structure Attempt where
  fault : Option Error
  salt : Nat
  now : Instant
  scan : Nat

/-- The operations of `UserStore`. -/
inductive UserCall where
  | createUser (username password : String)
  | getUser (username : String)
  | updatePassword (username newPassword : String)
  | deleteUser (username : String)
  | listUsers
  | verifyPassword (username password : String)
  deriving DecidableEq, Repr

inductive UserReply where
  | done (result : Result Unit)
  | user (result : Result (Option User))
  | users (result : Result (List String))
  | verified (result : Result Bool)

namespace SqliteUserStore

variable (bcrypt : Bcrypt) (rfc3339 : Rfc3339) (order : HashOrder String UserRow)

/-- `create_user`: the primary key is unique. -/
def createUser (username password : String) (attempt : Attempt) (table : UserTable) :
    Result Unit × UserTable :=
  match bcrypt.hash attempt.salt password with
  | .error cause => (.error (.internal ("Failed to hash password: " ++ cause)), table)
  | .ok passwordHash =>
      match attempt.fault with
      | some error => (.error error, table)
      | none =>
          match table.lookup username with
          | some _ => (.error (.alreadyExists ("User already exists: " ++ username)), table)
          | none =>
              (.ok (), table.insert username
                { passwordHash, createdAt := rfc3339.format attempt.now })

def getUser (username : String) (attempt : Attempt) (table : UserTable) :
    Result (Option User) :=
  match attempt.fault with
  | some error => .error error
  | none =>
      match table.lookup username with
      | none => .ok none
      | some row =>
          match rfc3339.parse row.createdAt with
          | .error cause => .error (.internal ("Failed to parse date: " ++ cause))
          | .ok createdAt => .ok (some { username, passwordHash := row.passwordHash, createdAt })

/-- `update_password`: the number of rows it affected tells whether there is one. -/
def updatePassword (username newPassword : String) (attempt : Attempt) (table : UserTable) :
    Result Unit × UserTable :=
  match bcrypt.hash attempt.salt newPassword with
  | .error cause => (.error (.internal ("Failed to hash password: " ++ cause)), table)
  | .ok passwordHash =>
      match attempt.fault with
      | some error => (.error error, table)
      | none =>
          match table.lookup username with
          | none => (.error (.notFound ("User not found: " ++ username)), table)
          | some row => (.ok (), table.insert username { row with passwordHash })

def deleteUser (username : String) (attempt : Attempt) (table : UserTable) :
    Result Unit × UserTable :=
  match attempt.fault with
  | some error => (.error error, table)
  | none =>
      match table.lookup username with
      | none => (.error (.notFound ("User not found: " ++ username)), table)
      | some _ => (.ok (), table.erase username)

def listUsers (attempt : Attempt) (table : UserTable) : Result (List String) :=
  match attempt.fault with
  | some error => .error error
  | none => .ok ((order.arrange attempt.scan table.entries).map Sigma.fst)

/-- `verify_password`: nobody has no password. -/
def verifyPassword (username password : String) (attempt : Attempt) (table : UserTable) :
    Result Bool :=
  match getUser rfc3339 username attempt table with
  | .error error => .error error
  | .ok none => .ok false
  | .ok (some user) =>
      match bcrypt.verify password user.passwordHash with
      | .error cause => .error (.internal ("Failed to verify password: " ++ cause))
      | .ok verified => .ok verified

def serve (call : UserCall) (attempt : Attempt) (table : UserTable) : UserReply × UserTable :=
  match call with
  | .createUser username password =>
      let (result, table) := createUser bcrypt rfc3339 username password attempt table
      (.done result, table)
  | .getUser username => (.user (getUser rfc3339 username attempt table), table)
  | .updatePassword username newPassword =>
      let (result, table) := updatePassword bcrypt username newPassword attempt table
      (.done result, table)
  | .deleteUser username =>
      let (result, table) := deleteUser username attempt table
      (.done result, table)
  | .listUsers => (.users (listUsers order attempt table), table)
  | .verifyPassword username password =>
      (.verified (verifyPassword bcrypt rfc3339 username password attempt table), table)

/-- The store as a machine over the statements of its operations. -/
def machine : Machine UserTable (UserCall × Attempt) UserReply where
  step table input :=
    ((serve bcrypt rfc3339 order input.1 input.2 table).2,
      (serve bcrypt rfc3339 order input.1 input.2 table).1)

end SqliteUserStore

/-- `BasicAuthenticator::authenticate`, for the store a statement meets. -/
def basicAuthenticator (bcrypt : Bcrypt) (rfc3339 : Rfc3339) (attempt : Attempt)
    (table : UserTable) (credentials : Credentials) : Result Bool :=
  SqliteUserStore.verifyPassword bcrypt rfc3339 credentials.username credentials.password attempt
    table

/-! ## Accounts -/

/-- What the store is for: the password of each user with an account. -/
abbrev Accounts := String → Option String

namespace Accounts

/-- What an answered operation does to the accounts: only those that succeeded count. -/
def after (accounts : Accounts) : UserCall → UserReply → Accounts
  | .createUser username password, .done (.ok ()) =>
      Function.update accounts username (some password)
  | .updatePassword username newPassword, .done (.ok ()) =>
      Function.update accounts username (some newPassword)
  | .deleteUser username, .done (.ok ()) => Function.update accounts username none
  | _, _ => accounts

/-- The accounts after a history of answered operations. -/
def ofHistory (history : List ((UserCall × Attempt) × UserReply)) : Accounts :=
  history.foldl (fun accounts entry => accounts.after entry.1.1 entry.2) fun _ => none

theorem ofHistory_concat (history : List ((UserCall × Attempt) × UserReply))
    (entry : (UserCall × Attempt) × UserReply) :
    ofHistory (history ++ [entry]) = (ofHistory history).after entry.1.1 entry.2 := by
  simp [ofHistory]

end Accounts

/-- The table has a row for each account, whose hash is verified by the password of the
account and by those bcrypt takes for it. -/
structure UserTable.Holds (bcrypt : Bcrypt) (rfc3339 : Rfc3339) (table : UserTable)
    (accounts : Accounts) : Prop where
  isSome : ∀ username, (table.lookup username).isSome = (accounts username).isSome
  row : ∀ username row password, table.lookup username = some row →
    accounts username = some password →
      (∀ other, bcrypt.verify other row.passwordHash =
        .ok (decide (bcrypt.sees other = bcrypt.sees password))) ∧
      ∃ instant, row.createdAt = rfc3339.format instant

/-- The password an operation has hashed. -/
def UserCall.hashes : UserCall → Option String
  | .createUser _ password => some password
  | .updatePassword _ newPassword => some newPassword
  | .getUser _ | .deleteUser _ | .listUsers | .verifyPassword _ _ => none

/-- Neither the database nor the hashing fails. -/
structure Attempt.GoesThrough (bcrypt : Bcrypt) (call : UserCall) (attempt : Attempt) : Prop where
  fault : attempt.fault = none
  hash : ∀ password, call.hashes = some password →
    ∃ hashed, bcrypt.hash attempt.salt password = .ok hashed

def UserReply.Failed : UserReply → Prop
  | .done result => ∃ error, result = .error error
  | .user result => ∃ error, result = .error error
  | .users result => ∃ error, result = .error error
  | .verified result => ∃ error, result = .error error

/-- What an operation that goes through answers, by the accounts alone. -/
def Accounts.Answers (bcrypt : Bcrypt) (accounts : Accounts) : UserCall → UserReply → Prop
  | .createUser username _, reply =>
      reply = .done (if accounts username = none then .ok ()
        else .error (.alreadyExists ("User already exists: " ++ username)))
  | .getUser username, reply =>
      ∃ user, reply = .user (.ok user) ∧
        user.map User.username = (accounts username).map fun _ => username
  | .updatePassword username _, reply =>
      reply = .done (if accounts username = none
        then .error (.notFound ("User not found: " ++ username)) else .ok ())
  | .deleteUser username, reply =>
      reply = .done (if accounts username = none
        then .error (.notFound ("User not found: " ++ username)) else .ok ())
  | .listUsers, reply =>
      ∃ users, reply = .users (.ok users) ∧ users.Nodup ∧
        ∀ username, username ∈ users ↔ accounts username ≠ none
  | .verifyPassword username password, reply =>
      reply = .verified (.ok (match accounts username with
        | none => false
        | some current => decide (bcrypt.sees password = bcrypt.sees current)))

section Refinement

variable {bcrypt : Bcrypt} {rfc3339 : Rfc3339} {order : HashOrder String UserRow}
  {table : UserTable} {accounts : Accounts}

theorem holds_empty : UserTable.Holds bcrypt rfc3339 ∅ fun _ => none where
  isSome _ := rfl
  row _ _ _ hlookup := by simp at hlookup

namespace UserTable.Holds

theorem lookup_none (hholds : table.Holds bcrypt rfc3339 accounts) {username : String} :
    table.lookup username = none ↔ accounts username = none := by
  have hsome := hholds.isSome username
  cases hlookup : table.lookup username <;> cases haccount : accounts username <;>
    simp_all

theorem insert (hholds : table.Holds bcrypt rfc3339 accounts) (username : String) {salt : Nat}
    {password passwordHash createdAt : String}
    (hhash : bcrypt.hash salt password = .ok passwordHash)
    (hcreated : ∃ instant, createdAt = rfc3339.format instant) :
    UserTable.Holds bcrypt rfc3339 (table.insert username { passwordHash, createdAt })
      (Function.update accounts username (some password)) where
  isSome other := by
    rw [HashMap.lookup_insert_eq, Function.update_apply]
    split
    · rfl
    · exact hholds.isSome other
  row other row current hlookup hcurrent := by
    rw [HashMap.lookup_insert_eq] at hlookup
    rw [Function.update_apply] at hcurrent
    split at hlookup
    · rename_i hsame
      rw [if_pos hsame] at hcurrent
      cases hlookup
      cases hcurrent
      exact ⟨bcrypt.verify_hash hhash, hcreated⟩
    · rename_i hother
      rw [if_neg hother] at hcurrent
      exact hholds.row other row current hlookup hcurrent

theorem erase (hholds : table.Holds bcrypt rfc3339 accounts) (username : String) :
    UserTable.Holds bcrypt rfc3339 (AList.erase username table)
      (Function.update accounts username none) where
  isSome other := by
    rw [HashMap.lookup_erase_eq, Function.update_apply]
    split
    · rfl
    · exact hholds.isSome other
  row other row current hlookup hcurrent := by
    rw [HashMap.lookup_erase_eq] at hlookup
    rw [Function.update_apply] at hcurrent
    split at hlookup
    · cases hlookup
    · rename_i hother
      rw [if_neg hother] at hcurrent
      exact hholds.row other row current hlookup hcurrent

theorem getUser_eq (hholds : table.Holds bcrypt rfc3339 accounts) (username : String)
    {attempt : Attempt} (hfault : attempt.fault = none) :
    accounts username = none ∧
        SqliteUserStore.getUser rfc3339 username attempt table = .ok none ∨
      ∃ current user, accounts username = some current ∧
        SqliteUserStore.getUser rfc3339 username attempt table = .ok (some user) ∧
        user.username = username ∧ ∀ other, bcrypt.verify other user.passwordHash =
          .ok (decide (bcrypt.sees other = bcrypt.sees current)) := by
  unfold SqliteUserStore.getUser
  rw [hfault]
  cases hlookup : table.lookup username with
  | none => exact .inl ⟨hholds.lookup_none.mp hlookup, rfl⟩
  | some row =>
      cases haccount : accounts username with
      | none =>
          rw [hholds.lookup_none.mpr haccount] at hlookup
          cases hlookup
      | some current =>
          obtain ⟨hverify, instant, hinstant⟩ := hholds.row username row current hlookup haccount
          refine .inr ⟨current, { username, passwordHash := row.passwordHash, createdAt := instant },
            rfl, ?_, rfl, hverify⟩
          simp only [hinstant, rfc3339.parse_format]

/-- An operation that fails on its way answers with its error and changes nothing. -/
theorem failed (hholds : table.Holds bcrypt rfc3339 accounts) {call : UserCall}
    {attempt : Attempt} (hfails : ¬ attempt.GoesThrough bcrypt call) :
    (SqliteUserStore.serve bcrypt rfc3339 order call attempt table).2.Holds bcrypt rfc3339
        (accounts.after call (SqliteUserStore.serve bcrypt rfc3339 order call attempt table).1) ∧
      (SqliteUserStore.serve bcrypt rfc3339 order call attempt table).1.Failed := by
  have hfault (hnone : call.hashes = none) : ∃ error, attempt.fault = some error := by
    refine Option.ne_none_iff_exists'.mp fun hfault => hfails ⟨hfault, fun password hhashes => ?_⟩
    rw [hnone] at hhashes
    cases hhashes
  have hhashing {password hashed : String} (hhashes : call.hashes = some password)
      (hhash : bcrypt.hash attempt.salt password = .ok hashed) :
      ∃ error, attempt.fault = some error := by
    refine Option.ne_none_iff_exists'.mp fun hfault => hfails ⟨hfault, fun other hother => ?_⟩
    obtain rfl := Option.some.inj (hhashes.symm.trans hother)
    exact ⟨hashed, hhash⟩
  cases call with
  | createUser username password =>
      simp only [SqliteUserStore.serve, SqliteUserStore.createUser]
      cases hhash : bcrypt.hash attempt.salt password with
      | error cause => exact ⟨hholds, _, rfl⟩
      | ok hashed =>
          obtain ⟨error, herror⟩ := hhashing rfl hhash
          simp only [herror]
          exact ⟨hholds, error, rfl⟩
  | getUser username =>
      obtain ⟨error, herror⟩ := hfault rfl
      simp only [SqliteUserStore.serve, SqliteUserStore.getUser, herror]
      exact ⟨hholds, error, rfl⟩
  | updatePassword username newPassword =>
      simp only [SqliteUserStore.serve, SqliteUserStore.updatePassword]
      cases hhash : bcrypt.hash attempt.salt newPassword with
      | error cause => exact ⟨hholds, _, rfl⟩
      | ok hashed =>
          obtain ⟨error, herror⟩ := hhashing rfl hhash
          simp only [herror]
          exact ⟨hholds, error, rfl⟩
  | deleteUser username =>
      obtain ⟨error, herror⟩ := hfault rfl
      simp only [SqliteUserStore.serve, SqliteUserStore.deleteUser, herror]
      exact ⟨hholds, error, rfl⟩
  | listUsers =>
      obtain ⟨error, herror⟩ := hfault rfl
      simp only [SqliteUserStore.serve, SqliteUserStore.listUsers, herror]
      exact ⟨hholds, error, rfl⟩
  | verifyPassword username password =>
      obtain ⟨error, herror⟩ := hfault rfl
      simp only [SqliteUserStore.serve, SqliteUserStore.verifyPassword, SqliteUserStore.getUser,
        herror]
      exact ⟨hholds, error, rfl⟩

/-- An operation that goes through answers from the accounts, and keeps the table in step
with them. -/
theorem served (hholds : table.Holds bcrypt rfc3339 accounts) {call : UserCall}
    {attempt : Attempt} (hgoes : attempt.GoesThrough bcrypt call) :
    (SqliteUserStore.serve bcrypt rfc3339 order call attempt table).2.Holds bcrypt rfc3339
        (accounts.after call (SqliteUserStore.serve bcrypt rfc3339 order call attempt table).1) ∧
      accounts.Answers bcrypt call
        (SqliteUserStore.serve bcrypt rfc3339 order call attempt table).1 := by
  obtain ⟨hfault, hhash⟩ := hgoes
  cases call with
  | createUser username password =>
      obtain ⟨hashed, hhashed⟩ := hhash password rfl
      simp only [SqliteUserStore.serve, SqliteUserStore.createUser, hhashed, hfault]
      cases hlookup : table.lookup username with
      | none =>
          have haccount := hholds.lookup_none.mp hlookup
          exact ⟨hholds.insert username hhashed ⟨attempt.now, rfl⟩,
            by rw [Accounts.Answers, if_pos haccount]⟩
      | some row =>
          have haccount : accounts username ≠ none := by
            rw [Ne, ← hholds.lookup_none, hlookup]
            exact Option.some_ne_none row
          exact ⟨hholds, by rw [Accounts.Answers, if_neg haccount]⟩
  | getUser username =>
      simp only [SqliteUserStore.serve]
      rcases hholds.getUser_eq username hfault with
        ⟨haccount, hnone⟩ | ⟨current, user, haccount, huser, husername, -⟩
      · rw [hnone]
        exact ⟨hholds, none, rfl, by rw [haccount]; rfl⟩
      · rw [huser]
        exact ⟨hholds, some user, rfl, by rw [haccount]; exact congrArg some husername⟩
  | updatePassword username newPassword =>
      obtain ⟨hashed, hhashed⟩ := hhash newPassword rfl
      simp only [SqliteUserStore.serve, SqliteUserStore.updatePassword, hhashed, hfault]
      cases hlookup : table.lookup username with
      | none =>
          have haccount := hholds.lookup_none.mp hlookup
          exact ⟨hholds, by rw [Accounts.Answers, if_pos haccount]⟩
      | some row =>
          cases haccount : accounts username with
          | none =>
              rw [hholds.lookup_none.mpr haccount] at hlookup
              cases hlookup
          | some current =>
              have hcreated := (hholds.row username row current hlookup haccount).2
              exact ⟨hholds.insert username hhashed hcreated,
                by rw [Accounts.Answers, haccount, if_neg (Option.some_ne_none current)]⟩
  | deleteUser username =>
      simp only [SqliteUserStore.serve, SqliteUserStore.deleteUser, hfault]
      cases hlookup : table.lookup username with
      | none =>
          have haccount := hholds.lookup_none.mp hlookup
          exact ⟨hholds, by rw [Accounts.Answers, if_pos haccount]⟩
      | some row =>
          have haccount : accounts username ≠ none := by
            rw [Ne, ← hholds.lookup_none, hlookup]
            exact Option.some_ne_none row
          exact ⟨hholds.erase username, by rw [Accounts.Answers, if_neg haccount]⟩
  | listUsers =>
      simp only [SqliteUserStore.serve, SqliteUserStore.listUsers, hfault]
      refine ⟨hholds, _, rfl, HashMap.nodup_keys_arrange, fun username => ?_⟩
      rw [Ne, ← hholds.lookup_none, List.mem_map]
      constructor
      · rintro ⟨⟨other, row⟩, hrow, rfl⟩
        rw [HashMap.mem_arrange_iff.mp hrow]
        exact Option.some_ne_none row
      · intro hsome
        obtain ⟨row, hrow⟩ := Option.ne_none_iff_exists'.mp hsome
        exact ⟨⟨username, row⟩, HashMap.mem_arrange_iff.mpr hrow, rfl⟩
  | verifyPassword username password =>
      simp only [SqliteUserStore.serve, SqliteUserStore.verifyPassword]
      rcases hholds.getUser_eq username hfault with
        ⟨haccount, hnone⟩ | ⟨current, user, haccount, huser, -, hverify⟩
      · rw [hnone]
        exact ⟨hholds, by rw [Accounts.Answers, haccount]⟩
      · rw [huser]
        simp only [hverify]
        exact ⟨hholds, by rw [Accounts.Answers, haccount]⟩

end UserTable.Holds

theorem holds_final (calls : List (UserCall × Attempt)) :
    ((SqliteUserStore.machine bcrypt rfc3339 order).final ∅ calls).Holds bcrypt rfc3339
      (Accounts.ofHistory ((SqliteUserStore.machine bcrypt rfc3339 order).transcript ∅ calls)) := by
  let Inv (history : List ((UserCall × Attempt) × UserReply)) (table : UserTable) : Prop :=
    table.Holds bcrypt rfc3339 (Accounts.ofHistory history)
  have hstep (history : List ((UserCall × Attempt) × UserReply)) (table : UserTable)
      (input : UserCall × Attempt) (hinv : Inv history table) :
      Inv (history ++ [(input, ((SqliteUserStore.machine bcrypt rfc3339 order).step table input).2)])
        ((SqliteUserStore.machine bcrypt rfc3339 order).step table input).1 := by
    simp only [Inv, Accounts.ofHistory_concat]
    by_cases hgoes : input.2.GoesThrough bcrypt input.1
    · exact (UserTable.Holds.served hinv hgoes).1
    · exact (UserTable.Holds.failed hinv hgoes).1
  exact @Machine.history_invariant _ _ _ (SqliteUserStore.machine bcrypt rfc3339 order) Inv hstep _
    holds_empty calls

/--
The user store keeps a password for each user.  In every run of operations, in the order
of their statements: an operation that neither the database nor the hashing fails is
answered from the accounts that the operations answered with success have left, and any
other fails, so that it leaves the accounts alone.  In particular a password is verified
exactly if bcrypt cannot tell it from the one that was set last.
-/
theorem users_refine_accounts (bcrypt : Bcrypt) (rfc3339 : Rfc3339)
    (order : HashOrder String UserRow) (calls : List (UserCall × Attempt)) (call : UserCall)
    (attempt : Attempt) :
    let machine := SqliteUserStore.machine bcrypt rfc3339 order
    let accounts := Accounts.ofHistory (machine.transcript ∅ calls)
    let reply := (machine.step (machine.final ∅ calls) (call, attempt)).2
    (attempt.GoesThrough bcrypt call → accounts.Answers bcrypt call reply) ∧
      (¬ attempt.GoesThrough bcrypt call → reply.Failed ∧ accounts.after call reply = accounts) := by
  intro machine accounts reply
  have hholds : (machine.final ∅ calls).Holds bcrypt rfc3339 accounts := holds_final calls
  refine ⟨fun hgoes => (hholds.served hgoes).2, fun hfails => ?_⟩
  have hfailed : reply.Failed := (hholds.failed hfails).2
  refine ⟨hfailed, ?_⟩
  cases hreply : reply with
  | done result =>
      rw [hreply] at hfailed
      obtain ⟨error, rfl⟩ := hfailed
      cases call <;> rfl
  | user result => cases call <;> rfl
  | users result => cases call <;> rfl
  | verified result => cases call <;> rfl

end Refinement

end Scuttled
