import Mathlib.Data.Char
import Mathlib.Data.List.Sort
import Scuttled.Rust.Path
import Scuttled.Types

/-!
# Maildir

Where message files are kept, and what their names say: `<unique-id>:2,<flags>`
in the directories `new` and `cur` of a mailbox.
-/

namespace Scuttled

open Rust

structure ParsedMessage where
  uniqueId : String
  flags : List MessageFlag
  isNew : Bool
  username : String
  mailbox : String
  deriving DecidableEq, Repr

namespace MaildirFormat

/-- The flag a character stands for; unknown ones are ignored. -/
def flagOf : Char → Option MessageFlag
  | 'D' => some .draft
  | 'F' => some .flagged
  | 'R' => some .answered
  | 'S' => some .seen
  | 'T' => some .deleted
  | _ => none

def parseFlags (flags : List Char) : List MessageFlag := flags.filterMap flagOf

/-- The file name up to its first colon, and the flags if `:2,` stands there. -/
def splitFilename (filename : String) : String × List MessageFlag :=
  let uniqueId := String.ofList (filename.toList.takeWhile (· != ':'))
  match filename.toList.dropWhile (· != ':') with
  | ':' :: '2' :: ',' :: flags => (uniqueId, parseFlags flags)
  | _ => (uniqueId, [])

/-- Only messages in `new` and `cur` are processed. -/
def subdirIsNew (subdir : String) : Option Bool :=
  if subdir == "new" then some true
  else if subdir == "cur" then some false
  else none

/-- `parse_message_path`: below the root come the user, the mailbox, the
subdirectory and at least one more component. -/
def parseMessagePath (path root : String) : Option ParsedMessage := do
  match ← stripPrefix path root with
  | username :: mailbox :: subdir :: _ :: _ =>
      let isNew ← subdirIsNew subdir.asOsStr
      let filename ← fileName path
      return {
        uniqueId := (splitFilename filename).1
        flags := (splitFilename filename).2
        isNew
        username := username.asOsStr
        mailbox := mailbox.asOsStr }
  | _ => none

/-- The character a flag is stored as; `Recent` and custom flags are not stored. -/
def letterOf : MessageFlag → Option Char
  | .draft => some 'D'
  | .flagged => some 'F'
  | .answered => some 'R'
  | .seen => some 'S'
  | .deleted => some 'T'
  | .recent => none
  | .custom _ => none

/-- The characters of the flags that are stored, sorted. -/
def letters (flags : List MessageFlag) : List Char :=
  (flags.filterMap letterOf).insertionSort (· ≤ ·)

def flagsToFilenameComponent (flags : List MessageFlag) : String :=
  if (letters flags).isEmpty then "" else ":2," ++ String.ofList (letters flags)

def watchSubdirectories : List String := ["new", "cur"]

end MaildirFormat

/-! ## Where mail is kept -/

/-- The file `store_file` and `delete_file` act on. -/
def fullPath (root path : String) : String := join root path

/-- The directory of a mailbox, as the watcher finds it. -/
def mailboxPath (root username mailbox : String) : String := join (join root username) mailbox

/-- The directories `handle_watch` creates. -/
def watchDirectories (root username mailbox : String) : List String :=
  MaildirFormat.watchSubdirectories.map (join (mailboxPath root username mailbox))

end Scuttled
