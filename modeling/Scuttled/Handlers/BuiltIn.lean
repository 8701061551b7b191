import Scuttled.Handlers.Pattern
import Scuttled.Session.Context

/-!
# The built-in command handlers

Each handler writes its responses itself and returns an optional new state.
The username comes from the state of the session, never from the arguments.
-/

namespace Scuttled

open Rust

variable {R : Type}

/-! ## CAPABILITY, NOOP and LOGOUT -/

/-- `CapabilityHandler::new(is_tls)`. -/
def capabilityHandler (isTls : Bool) : CommandHandler R where
  commandName := "CAPABILITY"
  requiresAuth := false
  handle tag _args connection _context _currentState := do
    let capabilities := if isTls then ["IMAP4rev1"] else ["IMAP4rev1", "STARTTLS"]
    connection.writeResponse (.ok (some tag) ("CAPABILITY " ++ joinSpace capabilities))
    return none

def noopHandler : CommandHandler R where
  commandName := "NOOP"
  handle tag _args connection _context _currentState := do
    connection.writeResponse (.ok (some tag) "NOOP completed")
    return none

def logoutHandler : CommandHandler R where
  commandName := "LOGOUT"
  requiresAuth := false
  handle tag _args connection _context _currentState := do
    connection.writeResponse (.bye "Logging out")
    connection.writeResponse (.ok (some tag) "LOGOUT completed")
    return some .logout

/-! ## LOGIN -/

/-- `LoginHandler::parse_args`: exactly two words. -/
def loginParseArgs (args : String) : Option (String × String) :=
  match splitWhitespace args with
  | [username, password] => some (username, password)
  | _ => none

def loginHandler : CommandHandler R where
  commandName := "LOGIN"
  requiresAuth := false
  handle tag args connection context _currentState := do
    match loginParseArgs args with
    | none =>
        connection.writeResponse (.bad (some tag) "Invalid LOGIN syntax")
        return none
    | some (username, password) =>
        match ← context.authenticate { username, password } with
        | .ok true =>
            connection.writeResponse (.ok (some tag) "LOGIN completed")
            return some (.authenticated username)
        | .ok false =>
            connection.writeResponse (.no (some tag) "LOGIN failed: invalid credentials")
            return none
        | .error error =>
            connection.writeResponse (.no (some tag) ("LOGIN failed: " ++ error.display))
            return none

/-! ## SELECT, CREATE and DELETE -/

def selectHandler : CommandHandler R where
  commandName := "SELECT"
  handle tag args connection context currentState := do
    let mailboxName := trim args
    if mailboxName == "" then
      connection.writeResponse (.bad (some tag) "SELECT requires a mailbox name")
      return none
    match currentState.username with
    | none =>
        connection.writeResponse (.no (some tag) "Not authenticated")
        return none
    | some username =>
        match ← context.getMailbox username mailboxName with
        | .error error => throw error
        | .ok none =>
            connection.writeResponse
              (.no (some tag) ("Mailbox does not exist: " ++ mailboxName))
            return none
        | .ok (some _) =>
            connection.writeResponse (.ok (some tag) ("SELECT completed for " ++ mailboxName))
            return some (.selected username mailboxName)

def createHandler : CommandHandler R where
  commandName := "CREATE"
  handle tag args connection context currentState := do
    let mailboxName := trim args
    if mailboxName == "" then
      connection.writeResponse (.bad (some tag) "CREATE requires a mailbox name")
      return none
    match currentState.username with
    | none =>
        connection.writeResponse (.no (some tag) "Not authenticated")
        return none
    | some username =>
        match ← context.createMailbox username mailboxName with
        | .ok _ =>
            connection.writeResponse (.ok (some tag) ("CREATE completed for " ++ mailboxName))
            return none
        | .error error =>
            connection.writeResponse (.no (some tag) ("CREATE failed: " ++ error.display))
            return none

def deleteHandler : CommandHandler R where
  commandName := "DELETE"
  handle tag args connection context currentState := do
    let mailboxName := trim args
    if mailboxName == "" then
      connection.writeResponse (.bad (some tag) "DELETE requires a mailbox name")
      return none
    if eqIgnoreAsciiCase mailboxName "INBOX" then
      connection.writeResponse (.no (some tag) "Cannot delete INBOX")
      return none
    match currentState.username with
    | none =>
        connection.writeResponse (.no (some tag) "Not authenticated")
        return none
    | some username =>
        match ← context.deleteMailbox username mailboxName with
        | .ok _ =>
            connection.writeResponse (.ok (some tag) ("DELETE completed for " ++ mailboxName))
            return none
        | .error error =>
            connection.writeResponse (.no (some tag) ("DELETE failed: " ++ error.display))
            return none

/-! ## LIST -/

/-- `ListHandler::parse_args`: a pattern, or a reference and a pattern. -/
def listParseArgs (args : String) : Option (String × String) :=
  match splitWhitespace args with
  | [] => none
  | [pattern] => some ("", pattern)
  | reference :: pattern :: _ => some (reference, pattern)

/-- The untagged line for one mailbox. -/
def listLine (info : MailboxInfo) : Response :=
  .untagged ("LIST () \"/\" \"" ++ info.id.name ++ "\"")

def listHandler : CommandHandler R where
  commandName := "LIST"
  handle tag args connection context currentState := do
    match listParseArgs args with
    | none =>
        connection.writeResponse (.bad (some tag) "Invalid LIST syntax")
        return none
    | some (reference, pattern) =>
        match currentState.username with
        | none =>
            connection.writeResponse (.no (some tag) "Not authenticated")
            return none
        | some username =>
            let cleanRef := unquote reference
            let cleanPattern := unquote pattern
            let effectivePattern := if cleanRef == "" then cleanPattern else cleanRef ++ cleanPattern
            match ← context.listMailboxes username (patternToFilter effectivePattern) with
            | .ok mailboxes =>
                for mailbox in mailboxes do
                  connection.writeResponse (listLine mailbox)
                connection.writeResponse (.ok (some tag) "LIST completed")
                return none
            | .error error =>
                connection.writeResponse (.no (some tag) ("LIST failed: " ++ error.display))
                return none

/-! ## The registry of handlers -/

abbrev CommandHandlers (R : Type) := HashMap String (CommandHandler R)

namespace CommandHandlers

/-- `register`: a name that is taken is refused. -/
def register [UnicodeCase] (handlers : CommandHandlers R) (handler : CommandHandler R) :
    Result Unit × CommandHandlers R :=
  let name := toUppercase handler.commandName
  match handlers.lookup name with
  | some _ => (.error (.internal ("Command handler already registered: " ++ name)), handlers)
  | none => (.ok (), handlers.insert name handler)

def get [UnicodeCase] (handlers : CommandHandlers R) (commandName : String) :
    Option (CommandHandler R) :=
  handlers.lookup (toUppercase commandName)

/-- `CommandHandlers::handle`: the two gates, then the handler; an error of the
handler is answered with BAD. -/
def handle [UnicodeCase] (handlers : CommandHandlers R) (commandName tag args : String)
    (connection : Connection) (context : SessionContext R) (currentState : SessionState) :
    StateM (World R) (Option SessionState) := do
  match handlers.get commandName with
  | some handler =>
      if handler.requiresAuth && currentState == .notAuthenticated then
        let _ ← (connection.writeResponse (R := R)
          (.no (some tag) "Command requires authentication")).run
        return none
      let isSelected := match currentState with
        | .selected _ _ => true
        | _ => false
      if handler.requiresSelectedMailbox && !isSelected then
        let _ ← (connection.writeResponse (R := R)
          (.no (some tag) "Command requires a selected mailbox")).run
        return none
      match ← (handler.handle tag args connection context currentState).run with
      | .ok stateUpdate => return stateUpdate
      | .error error =>
          let _ ← (connection.writeResponse (R := R)
            (.bad (some tag) ("Handler error: " ++ error.display))).run
          return none
  | none =>
      let _ ← (connection.writeResponse (R := R)
        (.bad (some tag) ("Unknown command: " ++ commandName))).run
      return none

/-- Registers handlers one after the other, ignoring refusals. -/
def registerAll [UnicodeCase] (handlers : CommandHandlers R) (added : List (CommandHandler R)) :
    CommandHandlers R :=
  added.foldl (fun current handler => (current.register handler).2) handlers

theorem lookup_register [UnicodeCase] (handlers : CommandHandlers R)
    (handler : CommandHandler R) (name : String) :
    (handlers.register handler).2.lookup name =
      (handlers.lookup name).or
        (if toUppercase handler.commandName = name then some handler else none) := by
  unfold register
  cases hlookup : handlers.lookup (toUppercase handler.commandName) with
  | none =>
      simp only [hlookup, HashMap.lookup_insert_eq]
      by_cases hname : name = toUppercase handler.commandName
      · subst hname
        simp [hlookup]
      · simp [hname, Ne.symm hname]
  | some other =>
      simp only [hlookup]
      by_cases hname : toUppercase handler.commandName = name
      · subst hname
        simp [hlookup]
      · simp [hname]

theorem lookup_registerAll [UnicodeCase] (handlers : CommandHandlers R)
    (added : List (CommandHandler R)) (name : String) :
    (handlers.registerAll added).lookup name =
      (handlers.lookup name).or
        (added.find? fun handler => toUppercase handler.commandName == name) := by
  induction added generalizing handlers with
  | nil => simp [registerAll]
  | cons handler rest ih =>
      rw [registerAll, List.foldl_cons, ← registerAll, ih, lookup_register, List.find?_cons,
        Option.or_assoc]
      by_cases hname : toUppercase handler.commandName = name
      · simp [hname]
      · simp [hname, beq_eq_false_iff_ne.mpr hname]

end CommandHandlers

/-- The handlers `ImapServer::new` registers, in its order. -/
def builtIn : List (CommandHandler R) :=
  [capabilityHandler false, noopHandler, logoutHandler, loginHandler, selectHandler,
    createHandler, deleteHandler, listHandler]

/-- The registry `ImapServer::new` builds. -/
def builtInHandlers [UnicodeCase] : CommandHandlers R :=
  CommandHandlers.registerAll ∅ builtIn

end Scuttled
