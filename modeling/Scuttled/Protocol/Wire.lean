import Scuttled.Protocol.Argument
import Scuttled.Rust.Lines

/-!
# Responses as lines

A response goes out as the text that `Display` gives it, whatever stands in its message.
A client reads lines and looks at what stands before the first space.  It recovers the
response as far as its text can tell it: a tag that is an asterisk or a plus sign makes
a completion look like something else.
-/

namespace Scuttled

open Rust

/-! ## What is written -/

/-- The part of `Display` that the responses with an optional tag share. -/
def displayTagged (status : String) (tag : Option String) (message : String) : String :=
  match tag with
  | some tag => tag ++ " " ++ (status ++ " " ++ message) ++ "\r\n"
  | none => "* " ++ (status ++ " " ++ message) ++ "\r\n"

/-- The `Display` text of a response. -/
def Response.display : Response → String
  | .ok tag message => displayTagged "OK" tag message
  | .no tag message => displayTagged "NO" tag message
  | .bad tag message => displayTagged "BAD" tag message
  | .bye message => "* " ++ ("BYE " ++ message) ++ "\r\n"
  | .untagged message => "* " ++ message ++ "\r\n"
  | .continuation message => "+ " ++ message ++ "\r\n"

example : (Response.no (some "a1") "LOGIN failed: invalid credentials").display =
    "a1 NO LOGIN failed: invalid credentials\r\n" := by decide

/-- The texts a response is made of. -/
def Response.texts : Response → List String
  | .ok tag message | .no tag message | .bad tag message => message :: tag.toList
  | .bye message | .untagged message | .continuation message => [message]

def Response.tag : Response → Option String
  | .ok tag _ | .no tag _ | .bad tag _ => tag
  | .bye _ | .untagged _ | .continuation _ => none

/-- No line ends in the text. -/
def OneLine (text : String) : Prop := '\n' ∉ text.toList

instance (text : String) : Decidable (OneLine text) :=
  inferInstanceAs (Decidable ('\n' ∉ text.toList))

@[simp] theorem oneLine_append {first second : String} :
    OneLine (first ++ second) ↔ OneLine first ∧ OneLine second := by
  simp [OneLine]

theorem NoWhitespace.oneLine {text : String} (htext : NoWhitespace text) : OneLine text := by
  intro hmem
  have hspace := htext '\n' hmem
  revert hspace
  decide

/-- A response whose texts are on one line. -/
def Response.OneLine (response : Response) : Prop := ∀ text ∈ response.texts, Scuttled.OneLine text

/-- A text and the two characters that end it are a line, unless another line ends in
the text. -/
theorem isLine_crlf_iff {text : String} : IsLine (text ++ "\r\n") ↔ OneLine text := by
  have hwhole : text ++ "\r\n" = text ++ "\r" ++ "\n" := by
    rw [String.append_assoc]
    rfl
  rw [hwhole]
  constructor
  · rintro ⟨start, hsame, hstart⟩
    obtain rfl := String.append_left_inj "\n" |>.mp hsame
    exact (oneLine_append.mp hstart).1
  · intro htext
    exact ⟨text ++ "\r", rfl, oneLine_append.mpr ⟨htext, by decide⟩⟩

theorem isLine_displayTagged_iff {status : String} (hstatus : OneLine status)
    {tag : Option String} {message : String} :
    IsLine (displayTagged status tag message) ↔ ∀ text ∈ message :: tag.toList, OneLine text := by
  have hspace : OneLine " " := by decide
  have hstar : OneLine "* " := by decide
  cases tag with
  | none => simp [displayTagged, isLine_crlf_iff, hstatus, hspace, hstar]
  | some tag => simp [displayTagged, isLine_crlf_iff, hstatus, hspace, and_comm]

theorem isLine_display_iff {response : Response} :
    IsLine response.display ↔ response.OneLine := by
  have hstar : OneLine "* " := by decide
  have hplus : OneLine "+ " := by decide
  have hbye : OneLine "BYE " := by decide
  unfold Response.OneLine
  cases response with
  | ok tag message => exact isLine_displayTagged_iff (by decide)
  | no tag message => exact isLine_displayTagged_iff (by decide)
  | bad tag message => exact isLine_displayTagged_iff (by decide)
  | bye message => simp [Response.display, Response.texts, isLine_crlf_iff, hstar, hbye]
  | untagged message => simp [Response.display, Response.texts, isLine_crlf_iff, hstar]
  | continuation message => simp [Response.display, Response.texts, isLine_crlf_iff, hplus]

/-! ## What is read -/

/-- A line of the server, as a client understands it. -/
inductive ServerLine where
  | untagged (text : String)
  | continuation (text : String)
  | tagged (tag text : String)
  deriving DecidableEq, Repr

/-- What stands before the first space tells what kind of line it is. -/
def ServerLine.of (first text : String) : ServerLine :=
  if first = "*" then .untagged text
  else if first = "+" then .continuation text
  else .tagged first text

/-- A client drops the two characters that end the line and splits the rest at its first
space. -/
def ServerLine.read (line : String) : Option ServerLine :=
  match splitn2 ' ' (String.ofList line.toList.dropLast.dropLast) with
  | [first, text] => some (.of first text)
  | _ => none

/-- The line that a completion is meant to be: one for its tag, or for nobody. -/
def completionLine (status : String) (tag : Option String) (message : String) : ServerLine :=
  match tag with
  | some tag => .tagged tag (status ++ " " ++ message)
  | none => .untagged (status ++ " " ++ message)

/-- The line that a response is meant to be. -/
def Response.line : Response → ServerLine
  | .ok tag message => completionLine "OK" tag message
  | .no tag message => completionLine "NO" tag message
  | .bad tag message => completionLine "BAD" tag message
  | .bye message => .untagged ("BYE " ++ message)
  | .untagged message => .untagged message
  | .continuation message => .continuation message

/-- The tag of the response does not make it look like a line of another kind. -/
def Response.ShowsTag (response : Response) : Prop :=
  response.tag ≠ some "*" ∧ response.tag ≠ some "+"

instance (response : Response) : Decidable response.ShowsTag :=
  inferInstanceAs (Decidable (_ ∧ _))

theorem read_crlf {first : String} (hfirst : ' ' ∉ first.toList) (text : String) :
    ServerLine.read (first ++ " " ++ text ++ "\r\n") = some (.of first text) := by
  have hdrop : String.ofList (first ++ " " ++ text ++ "\r\n").toList.dropLast.dropLast =
      first ++ " " ++ text := by
    have hend : "\r\n".toList = ['\r', '\n'] := rfl
    rw [← String.toList_inj, String.toList_ofList, String.toList_append, hend,
      List.append_cons, List.dropLast_concat, List.dropLast_concat]
  have hsplit : splitn2 ' ' (first ++ " " ++ text) = [first, text] := splitn2_append hfirst text
  rw [ServerLine.read, hdrop, hsplit]

theorem read_displayTagged {status message : String} {tag : Option String}
    (htag : ∀ text, tag = some text → ' ' ∉ text.toList) :
    ∃ line, ServerLine.read (displayTagged status tag message) = some line ∧
      (line = completionLine status tag message ↔ tag ≠ some "*" ∧ tag ≠ some "+") := by
  cases tag with
  | none =>
      exact ⟨_, @read_crlf "*" (by decide) _, iff_of_true rfl ⟨by simp, by simp⟩⟩
  | some tag =>
      refine ⟨_, read_crlf (htag tag rfl) _, ?_⟩
      unfold ServerLine.of completionLine
      simp only [ne_eq, Option.some.injEq]
      split
      · rename_i hstar
        simp [hstar]
      · rename_i hstar
        split
        · rename_i hplus
          simp [hplus]
        · rename_i hplus
          simp [hstar, hplus]

/-- A client reads a response as one line, and as the line it is meant to be exactly if its
tag does not make it look like another. -/
theorem read_display {response : Response} (htag : ∀ tag, response.tag = some tag →
    ' ' ∉ tag.toList) :
    ∃ line, ServerLine.read response.display = some line ∧
      (line = response.line ↔ response.ShowsTag) := by
  have hplain {line : ServerLine} (hnone : response.tag = none) (hline : line = response.line) :
      line = response.line ↔ response.ShowsTag := by
    unfold Response.ShowsTag
    rw [hnone]
    exact iff_of_true hline ⟨by simp, by simp⟩
  cases response with
  | ok tag message => exact read_displayTagged htag
  | no tag message => exact read_displayTagged htag
  | bad tag message => exact read_displayTagged htag
  | bye message => exact ⟨_, @read_crlf "*" (by decide) _, hplain rfl rfl⟩
  | untagged message => exact ⟨_, @read_crlf "*" (by decide) _, hplain rfl rfl⟩
  | continuation message => exact ⟨_, @read_crlf "+" (by decide) _, hplain rfl rfl⟩

end Scuttled
