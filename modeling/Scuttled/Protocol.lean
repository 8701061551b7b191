import Scuttled.Types

/-!
# The IMAP protocol: commands, responses, parsing

`parse_command` splits the line at whitespace before it looks at quotes.  The
variants of `Command` are those the parser can build.
-/

namespace Scuttled

open Rust

/-- The commands `parse_command` builds. -/
inductive Command where
  | capability
  | noop
  | logout
  | starttls
  | login (username password : String)
  | select (mailbox : String)
  | examine (mailbox : String)
  | create (mailbox : String)
  | delete (mailbox : String)
  | list (reference pattern : String)
  | close
  | expunge
  | custom (name args : String)
  deriving DecidableEq, Repr

inductive Response where
  | ok (tag : Option String) (message : String)
  | no (tag : Option String) (message : String)
  | bad (tag : Option String) (message : String)
  | bye (message : String)
  | untagged (message : String)
  | continuation (message : String)
  deriving DecidableEq, Repr

/-- `trim_matches('"')`. -/
def unquote (s : String) : String := trimMatches (· == '"') s

theorem noWhitespace_unquote {s : String} (hs : NoWhitespace s) : NoWhitespace (unquote s) :=
  fun c hc => hs c (mem_of_mem_trimMatches hc)

/-- `parse_command`: the first word decides, in any case; the quotes of an
argument are trimmed only after the line has been split. -/
def parseCommand [UnicodeCase] (_tag line : String) : Result Command :=
  match splitWhitespace line with
  | [] => .error (.protocolError "Empty command")
  | word :: args =>
      match toUppercase word with
      | "CAPABILITY" => .ok .capability
      | "NOOP" => .ok .noop
      | "LOGOUT" => .ok .logout
      | "STARTTLS" => .ok .starttls
      | "LOGIN" =>
          match args with
          | username :: password :: _ => .ok (.login (unquote username) (unquote password))
          | _ => .error (.protocolError "LOGIN requires username and password")
      | "SELECT" =>
          match args with
          | mailbox :: _ => .ok (.select (unquote mailbox))
          | [] => .error (.protocolError "SELECT requires mailbox name")
      | "EXAMINE" =>
          match args with
          | mailbox :: _ => .ok (.examine (unquote mailbox))
          | [] => .error (.protocolError "EXAMINE requires mailbox name")
      | "CREATE" =>
          match args with
          | mailbox :: _ => .ok (.create (unquote mailbox))
          | [] => .error (.protocolError "CREATE requires mailbox name")
      | "DELETE" =>
          match args with
          | mailbox :: _ => .ok (.delete (unquote mailbox))
          | [] => .error (.protocolError "DELETE requires mailbox name")
      | "LIST" =>
          match args with
          | reference :: pattern :: _ => .ok (.list (unquote reference) (unquote pattern))
          | _ => .error (.protocolError "LIST requires reference and pattern")
      | "CLOSE" => .ok .close
      | "EXPUNGE" => .ok .expunge
      | cmd => .ok (.custom cmd (joinSpace args))

end Scuttled
