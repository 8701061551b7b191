import Scuttled.Session.Invocation
import Scuttled.Session.Logout

/-!
# Which handlers can be reached

A line passes two dispatchers that go by its first word: the parser with its fixed
list of commands, and the registry of handlers.  Between them the session turns a
command back into a name.
-/

namespace Scuttled

open Rust Foundation

variable {R : Type}

/-! ## Registries -/

/-- In a registry that was built by registering, a handler stands under its own
name. -/
theorem CommandHandlers.lookup_of_registered [UnicodeCase] {added : List (CommandHandler R)}
    {name : String} {handler : CommandHandler R}
    (hlookup : (CommandHandlers.registerAll ∅ added).lookup name = some handler) :
    (CommandHandlers.registerAll ∅ added).lookup (toUppercase handler.commandName) =
      some handler := by
  have hfind := hlookup
  rw [lookup_registerAll, AList.lookup_empty, Option.none_or] at hfind
  have hname := List.find?_some hfind
  rw [beq_iff_eq] at hname
  rw [hname]
  exact hlookup

/-- The state of a session satisfies what a handler requires. -/
structure CommandHandler.MayRunIn (handler : CommandHandler R) (currentState : SessionState) :
    Prop where
  auth : handler.requiresAuth = true → currentState ≠ .notAuthenticated
  selectedMailbox : handler.requiresSelectedMailbox = true → currentState.isSelected = true

theorem CommandHandlers.admitted_of_mayRunIn [UnicodeCase] {handlers : CommandHandlers R}
    {commandName : String} {handler : CommandHandler R} {currentState : SessionState}
    (hget : handlers.get commandName = some handler) (hstate : handler.MayRunIn currentState) :
    handlers.admitted commandName currentState = some handler := by
  have hauth : ¬ (handler.requiresAuth && currentState == .notAuthenticated) = true := by
    rw [Bool.and_eq_true, beq_iff_eq]
    exact fun hrefused => hstate.auth hrefused.1 hrefused.2
  have hselected : ¬ (handler.requiresSelectedMailbox && !currentState.isSelected) = true := by
    rw [Bool.and_eq_true, Bool.not_eq_true']
    exact fun hrefused => by simp [hstate.selectedMailbox hrefused.1] at hrefused
  rw [admitted, hget]
  dsimp only
  rw [if_neg hauth, if_neg hselected]

/-! ## From the parser to the registry -/

/-- The commands the parser knows and the session answers without asking the
registry. -/
def notYetImplemented : List String := ["EXAMINE", "CLOSE", "EXPUNGE"]

/-- What becomes of a parsed line, by the first word of its command. -/
theorem commandCourse_cases [UnicodeCase] {tag commandLine word : String} {command : Command}
    (hparse : parseCommand tag commandLine = .ok command)
    (hword : (splitWhitespace commandLine).head? = some word) (tagHistory : TagHistory) :
    (toUppercase word = "STARTTLS" ∧
        commandCourse tagHistory tag command = .starttls tagHistory tag) ∨
      (toUppercase word ∈ notYetImplemented ∧ commandCourse tagHistory tag command =
        .refuse tagHistory (.bad (some tag) "Command not yet implemented")) ∨
      (toUppercase word ≠ "STARTTLS" ∧ toUppercase word ∉ notYetImplemented ∧
        ∃ args, commandCourse tagHistory tag command =
          .delegate tagHistory tag (toUppercase word) args) := by
  unfold parseCommand at hparse
  cases hsplit : splitWhitespace commandLine with
  | nil => simp [hsplit] at hword
  | cons first words =>
      rw [hsplit] at hparse hword
      obtain rfl := Option.some.inj hword
      dsimp only at hparse
      split at hparse
      case h_4 hname =>
        cases hparse
        exact .inl ⟨hname, rfl⟩
      case h_13 hcapability hnoop hlogout hstarttls hlogin hselect hexamine hcreate hdelete
          hlist hclose hexpunge =>
        cases hparse
        refine .inr (.inr ⟨hstarttls, ?_, joinSpace words, rfl⟩)
        simp only [notYetImplemented, List.mem_cons, List.not_mem_nil, or_false, not_or]
        exact ⟨hexamine, hclose, hexpunge⟩
      case h_7 hname =>
        split at hparse
        · cases hparse
          exact .inr (.inl ⟨by rw [hname]; decide, rfl⟩)
        · cases hparse
      case h_11 hname | h_12 hname =>
        cases hparse
        exact .inr (.inl ⟨by rw [hname]; decide, rfl⟩)
      case h_1 hname | h_2 hname | h_3 hname =>
        cases hparse
        rw [hname]
        exact .inr (.inr ⟨by decide, by decide, _, rfl⟩)
      case h_5 hname | h_6 hname | h_8 hname | h_9 hname | h_10 hname =>
        split at hparse
        · cases hparse
          rw [hname]
          exact .inr (.inr ⟨by decide, by decide, _, rfl⟩)
        · cases hparse

/-! ## Reaching a handler -/

/-- The turn runs the handler that is called, once; all that follows is the answer to
its error. -/
def Session.Runs [UnicodeCase] (session : Session) (server : Server R) (turn : Turn)
    (invocation : Invocation R) : Prop :=
  ∃ tagHistory, session.turn server turn = (do
    match ← invocation.handle.run with
    | .ok stateUpdate => return { session with tagHistory }.advance stateUpdate
    | .error error =>
        Session.writeIgnored invocation.connection
          (.bad (some invocation.tag) ("Handler error: " ++ error.display))
        return { session with tagHistory })

/-- The text behind the tag begins with the name of a handler, in any case. -/
def Names (commandLine : String) (handler : CommandHandler R) : Prop :=
  ∃ spelling, (splitWhitespace commandLine).head? = some spelling ∧
    eqIgnoreAsciiCase spelling handler.commandName = true

section Turn

variable [UnicodeCase] {server : Server R} {session : Session} {turn : Turn}
  {tag commandLine word : String} {command : Command}

/-- A line under a new tag takes the course of its command if the history has room,
and is refused otherwise. -/
theorem course_of_line (hline : session.lineOf turn = some (tag ++ " " ++ commandLine))
    (htag : ' ' ∉ tag.toList) (hfresh : tag ∉ session.tagHistory.tags)
    (hparse : parseCommand tag commandLine = .ok command) :
    (session.tagHistory.tags.card < session.tagHistory.maxSize ∧
        ∃ tagHistory, session.course turn = commandCourse tagHistory tag command) ∨
      (¬ session.tagHistory.tags.card < session.tagHistory.maxSize ∧
        ∃ response, session.course turn = .refuse session.tagHistory response) := by
  have hsplit : splitn2 ' ' (tag ++ " " ++ commandLine) = [tag, commandLine] :=
    splitn2_append htag commandLine
  rw [Session.course, hline]
  dsimp only
  rw [Session.lineCourse, hsplit]
  dsimp only
  unfold TagHistory.register
  rw [if_neg hfresh]
  by_cases hroom : session.tagHistory.tags.card < session.tagHistory.maxSize
  · rw [if_neg (Nat.not_le_of_lt hroom)]
    dsimp only
    rw [hparse]
    exact .inl ⟨hroom, _, rfl⟩
  · rw [if_pos (Nat.le_of_not_lt hroom)]
    exact .inr ⟨hroom, _, rfl⟩

theorem invocation_of_delegate {tagHistory : TagHistory} {name args : String}
    {handler : CommandHandler R}
    (hcourse : session.course turn = .delegate tagHistory tag name args)
    (hadmitted : server.commandHandlers.admitted name session.sessionState = some handler) :
    session.invocation server turn = some ⟨handler, tag, args, ⟨session.isTls, turn.writeError⟩,
      turn.context server.mailboxes, session.sessionState⟩ := by
  rw [Session.invocation, hcourse]
  dsimp only
  rw [hadmitted]
  rfl

theorem invocation_eq_none (hcourse : ∀ tagHistory tag name args,
      session.course turn ≠ .delegate tagHistory tag name args) :
    session.invocation server turn = none := by
  unfold Session.invocation
  split
  · rename_i hdelegate
    exact absurd hdelegate (hcourse _ _ _ _)
  · rfl

/-- No handler is called for a command the session answers itself, whatever is
registered. -/
theorem invocation_of_not_asked
    (hline : session.lineOf turn = some (tag ++ " " ++ commandLine)) (htag : ' ' ∉ tag.toList)
    (hword : (splitWhitespace commandLine).head? = some word)
    (hname : toUppercase word ∈ "STARTTLS" :: notYetImplemented) :
    session.invocation server turn = none := by
  have hsplit : splitn2 ' ' (tag ++ " " ++ commandLine) = [tag, commandLine] :=
    splitn2_append htag commandLine
  refine invocation_eq_none fun tagHistory tag' name args hdelegate => ?_
  rw [Session.course, hline] at hdelegate
  dsimp only at hdelegate
  rw [Session.lineCourse, hsplit] at hdelegate
  dsimp only at hdelegate
  split at hdelegate
  · cases hdelegate
  · split at hdelegate
    · cases hdelegate
    · rename_i command hparse
      rcases commandCourse_cases hparse hword _ with
        ⟨-, hcourse⟩ | ⟨-, hcourse⟩ | ⟨hstarttls, hknown, -⟩
      · rw [hcourse] at hdelegate
        cases hdelegate
      · rw [hcourse] at hdelegate
        cases hdelegate
      · exact (List.mem_cons.mp hname).elim hstarttls hknown

theorem course_of_starttls
    (hline : session.lineOf turn = some (tag ++ " " ++ commandLine)) (htag : ' ' ∉ tag.toList)
    (hword : (splitWhitespace commandLine).head? = some word)
    (hname : toUppercase word = "STARTTLS") :
    (∃ tagHistory, session.course turn = .starttls tagHistory tag) ∨
      ∃ tagHistory response, session.course turn = .refuse tagHistory response := by
  have hsplit : splitn2 ' ' (tag ++ " " ++ commandLine) = [tag, commandLine] :=
    splitn2_append htag commandLine
  rw [Session.course, hline]
  dsimp only
  rw [Session.lineCourse, hsplit]
  dsimp only
  split
  · exact .inr ⟨_, _, rfl⟩
  · split
    · exact .inr ⟨_, _, rfl⟩
    · rename_i tagHistory _ _ command hparse
      rcases commandCourse_cases hparse hword tagHistory with
        ⟨-, hcourse⟩ | ⟨-, hcourse⟩ | ⟨hother, -⟩
      · exact .inl ⟨_, hcourse⟩
      · exact .inr ⟨_, _, hcourse⟩
      · exact absurd hname hother

end Turn

/-- The line of a turn asks for a registered handler, under a new tag and in any
spelling, and nothing the handler requires or the parser demands is missing. -/
structure Session.AsksFor [UnicodeCase] (session : Session) (server : Server R) (turn : Turn)
    (tag commandLine : String) (handler : CommandHandler R) : Prop where
  registered : ∃ name, server.commandHandlers.lookup name = some handler
  ascii : ∀ c ∈ handler.commandName.toList, c.toNat < 128
  line : session.lineOf turn = some (tag ++ " " ++ commandLine)
  separated : ' ' ∉ tag.toList
  fresh : tag ∉ session.tagHistory.tags
  names : Names commandLine handler
  parsed : ∃ command, parseCommand tag commandLine = .ok command
  state : handler.MayRunIn session.sessionState

theorem Session.AsksFor.invocation_of_full [UnicodeCase] {server : Server R} {session : Session}
    {turn : Turn} {tag commandLine : String} {handler : CommandHandler R}
    (hasks : session.AsksFor server turn tag commandLine handler)
    (hfull : ¬ session.tagHistory.tags.card < session.tagHistory.maxSize) :
    session.invocation server turn = none := by
  obtain ⟨command, hparse⟩ := hasks.parsed
  rcases course_of_line hasks.line hasks.separated hasks.fresh hparse with
    ⟨hroom, -⟩ | ⟨-, response, hcourse⟩
  · exact absurd hroom hfull
  · rw [Session.invocation, hcourse]

/--
Reaching a registered handler.  In every registry that was built by registering, a
line with a new tag and any spelling of the name of a handler, which is not rejected
for want of arguments, in a state that satisfies what the handler requires, leads to
one call of this handler and no other, exactly if the handler is not named STARTTLS and
the history of tags has room.  A line that names STARTTLS leads to no handler: the session
answers it itself.
-/
theorem registered_reachable_iff [UnicodeCase] (server : Server R)
    (added : List (CommandHandler R))
    (hregistry : server.commandHandlers = CommandHandlers.registerAll ∅ added)
    (session : Session) (turn : Turn) (tag commandLine : String) (handler : CommandHandler R)
    (hasks : session.AsksFor server turn tag commandLine handler)
    (hknown : toUppercase handler.commandName ∉ notYetImplemented) :
    ((∃ invocation, session.invocation server turn = some invocation ∧
        invocation.handler = handler ∧ invocation.tag = tag ∧
        session.Runs server turn invocation) ↔
      toUppercase handler.commandName ≠ "STARTTLS" ∧
        session.tagHistory.tags.card < session.tagHistory.maxSize) ∧
    ∀ (session : Session) (turn : Turn) (tag commandLine word : String),
      session.lineOf turn = some (tag ++ " " ++ commandLine) → ' ' ∉ tag.toList →
        (splitWhitespace commandLine).head? = some word → toUppercase word = "STARTTLS" →
          session.invocation server turn = none ∧
            ((∃ tagHistory, session.course turn = .starttls tagHistory tag) ∨
              ∃ tagHistory response, session.course turn = .refuse tagHistory response) := by
  refine ⟨?_, fun session turn tag commandLine word hline htag hword hname =>
    ⟨invocation_of_not_asked hline htag hword (hname ▸ List.mem_cons_self),
      course_of_starttls hline htag hword hname⟩⟩
  obtain ⟨name, hlookup⟩ := hasks.registered
  obtain ⟨spelling, hword, hspelling⟩ := hasks.names
  obtain ⟨command, hparse⟩ := hasks.parsed
  have hupper : toUppercase spelling = toUppercase handler.commandName :=
    toUppercase_eq_of_eqIgnoreAsciiCase hasks.ascii hspelling
  have hget : server.commandHandlers.get (toUppercase handler.commandName) = some handler := by
    rw [CommandHandlers.get, toUppercase_toUppercase, hregistry]
    exact CommandHandlers.lookup_of_registered (hregistry ▸ hlookup)
  constructor
  · rintro ⟨invocation, hinvocation, -⟩
    refine ⟨fun hstarttls => ?_, ?_⟩
    · have hnone : session.invocation server turn = none :=
        invocation_of_not_asked hasks.line hasks.separated hword
          (hupper ▸ hstarttls ▸ List.mem_cons_self)
      rw [hnone] at hinvocation
      cases hinvocation
    · by_contra hfull
      rw [hasks.invocation_of_full hfull] at hinvocation
      cases hinvocation
  · rintro ⟨hstarttls, hroom⟩
    rcases course_of_line hasks.line hasks.separated hasks.fresh hparse with
      ⟨-, tagHistory, hcourse⟩ | ⟨hfull, -⟩
    · rcases commandCourse_cases hparse hword tagHistory with
        ⟨hname, -⟩ | ⟨hname, -⟩ | ⟨-, -, args, hdelegate⟩
      · exact absurd (hupper ▸ hname) hstarttls
      · exact absurd (hupper ▸ hname) hknown
      · rw [hdelegate, hupper] at hcourse
        have hinvocation := invocation_of_delegate hcourse
          (CommandHandlers.admitted_of_mayRunIn hget hasks.state)
        exact ⟨_, hinvocation, rfl, rfl, turn_of_invocation hinvocation⟩
    · exact absurd hroom hfull

/-! ## A handler that is added -/

/-- A handler a user of the library may add: it sends its arguments back. -/
def echoHandler (commandName : String) : CommandHandler R where
  commandName
  requiresAuth := false
  handle tag args connection _ _ := do
    connection.writeResponse (.ok (some tag) args)
    return none

theorem mayRunIn_echoHandler (commandName : String) (currentState : SessionState) :
    (echoHandler commandName : CommandHandler R).MayRunIn currentState where
  auth hrequired := absurd hrequired Bool.false_ne_true
  selectedMailbox hrequired := absurd hrequired Bool.false_ne_true

/-- A server that has it beside the built-in handlers. -/
def echoServer [UnicodeCase] (commandName : String) : Server InMemoryMailboxes :=
  imapServerWith (inMemoryMailboxes .searching .listed) false [echoHandler commandName]

theorem lookup_echoServer [UnicodeCase] {commandName : String}
    (hnew : ((builtInHandlers : CommandHandlers InMemoryMailboxes).lookup
      (toUppercase commandName)).isNone = true) :
    (echoServer commandName).commandHandlers.lookup (toUppercase commandName) =
      some (echoHandler commandName) := by
  rw [echoServer, imapServerWith, CommandHandlers.lookup_registerAll,
    Option.isNone_iff_eq_none.mp hnew]
  simp [echoHandler]

theorem commandHandlers_echoServer [UnicodeCase] (commandName : String) :
    (echoServer commandName).commandHandlers =
      CommandHandlers.registerAll ∅ (builtIn ++ [echoHandler commandName]) := by
  rw [echoServer, imapServerWith, builtInHandlers, CommandHandlers.registerAll,
    CommandHandlers.registerAll, CommandHandlers.registerAll, List.foldl_append]

theorem lineOf_smooth {session : Session} {authenticator : Credentials → Result Bool}
    {buffer : String} (hended : session.ended = none) (hbuffer : (buffer == "") = false) :
    session.lineOf (.smooth authenticator buffer) = some (Session.stripNewline buffer) := by
  simp [Session.lineOf, Turn.smooth, hended, hbuffer]

/-- The law for a handler that was added and a line that spells its name otherwise, and for
STARTTLS. -/
theorem registered_reachable_iff_echo :
    let _ := UnicodeCase.ascii
    let session : Session := .new 0 3600 1800 false
    let line := Turn.smooth fun _ => .ok true
    (∃ invocation, session.invocation (echoServer "Echo") (line "a1 eCHO hi\r\n") =
          some invocation ∧ invocation.handler = echoHandler "Echo" ∧ invocation.tag = "a1" ∧
        session.Runs (echoServer "Echo") (line "a1 eCHO hi\r\n") invocation) ∧
      session.invocation (echoServer "Echo") (line "a1 starttls\r\n") = none := by
  intro _ session line
  have hasks : session.AsksFor (echoServer "Echo") (line "a1 eCHO hi\r\n") "a1" "eCHO hi"
      (echoHandler "Echo") := {
    registered := ⟨_, lookup_echoServer (by decide +kernel)⟩
    ascii := by decide
    line := by decide +kernel
    separated := by decide
    fresh := by decide
    names := ⟨"eCHO", by decide +kernel, by decide⟩
    parsed := ⟨.custom "ECHO" "hi", by decide +kernel⟩
    state := mayRunIn_echoHandler _ _ }
  have hlaw := registered_reachable_iff (echoServer "Echo") _ (commandHandlers_echoServer "Echo")
    session (line "a1 eCHO hi\r\n") "a1" "eCHO hi" (echoHandler "Echo") hasks (by decide)
  refine ⟨hlaw.1.mpr ⟨by decide, by decide⟩, ?_⟩
  exact (hlaw.2 session (line "a1 starttls\r\n") "a1" "starttls" "starttls" (by decide +kernel)
    (by decide) (by decide +kernel) (by decide)).1

/-- A session after these turns at the server with the added handler. -/
def echoSession [UnicodeCase] (commandName : String) (turns : List Turn) : Session :=
  ((System.machine (echoServer commandName)).final
    (.new (fun _ => 0) (fun _ => 3600) (fun _ => 1800) (fun _ => false) (fun _ => none) .new)
    (turns.map fun turn => ((), turn))).sessions ()

/-- Lines with so many different tags, and then one that asks for the added handler. -/
theorem asksFor_after_tags (count : Nat) :
    let _ := UnicodeCase.ascii
    let session := echoSession "Echo" ((List.range count).map numberedTurn)
    session.AsksFor (echoServer "Echo") (.smooth (fun _ => .ok true) "b Echo hi\r\n") "b" "Echo hi"
        (echoHandler "Echo") ∧
      (session.tagHistory.tags.card < session.tagHistory.maxSize ↔
        count < defaultMaxTagHistory) := by
  intro _ session
  have hinputs : ((List.range count).map numberedTurn).map (fun turn => ((), turn)) =
      (List.range count).map fun number => ((), numberedTurn number) :=
    List.map_map
  have hkept : session.ended = none ∧ session.sessionState = .notAuthenticated := by
    simp only [session, echoSession, hinputs]
    exact kept_numbered (inMemoryMailboxes .searching .listed) false [echoHandler "Echo"] .new count
  have hremembers : session.Remembers
      (tagsOf () ((List.range count).map fun number => ((), numberedTurn number))) := by
    simp only [session, echoSession, hinputs]
    exact remembers_final _ _ _ _ _ _ _ _ ()
  have hline : session.lineOf (.smooth (fun _ => .ok true) "b Echo hi\r\n") =
      some ("b" ++ " " ++ "Echo hi") := by
    rw [lineOf_smooth hkept.1 (by decide)]
    decide +kernel
  constructor
  · exact {
      registered := ⟨_, lookup_echoServer (by decide +kernel)⟩
      ascii := by decide
      line := hline
      separated := by decide
      fresh := fun hmem => notMem_tagsOf_numbered count (hremembers.subset hmem)
      names := ⟨"Echo", by decide +kernel, by decide⟩
      parsed := ⟨.custom "ECHO" "hi", by decide +kernel⟩
      state := mayRunIn_echoHandler _ _ }
  · have hcard := card_tagsOf_numbered count
    have hle := Finset.card_le_card hremembers.subset
    rw [hremembers.maxSize]
    rcases hremembers.complete hkept.1 with hall | hfull
    · rw [hall, hcard]
    · exact ⟨fun hroom => absurd hroom (Nat.not_lt_of_le hfull),
        fun hroom => absurd hroom (Nat.not_lt_of_le (hcard ▸ Nat.le_trans hfull hle))⟩

/-- Handlers that are registered without complaint and asked for in vain: STARTTLS and
EXAMINE after LOGIN, and any other name once the history of tags is full. -/
theorem registered_handlers_not_reached :
    let _ := UnicodeCase.ascii
    let turn (text : String) : Turn := .smooth (fun _ => .ok true) text
    let starttls := echoSession "STARTTLS" [turn "a1 LOGIN ann x\r\n"]
    let examine := echoSession "EXAMINE" [turn "a1 LOGIN ann x\r\n"]
    let full := echoSession "Echo" ((List.range 10000).map numberedTurn)
    (starttls.AsksFor (echoServer "STARTTLS") (turn "a2 STARTTLS\r\n") "a2" "STARTTLS"
        (echoHandler "STARTTLS") ∧
      starttls.invocation (echoServer "STARTTLS") (turn "a2 STARTTLS\r\n") = none) ∧
    (examine.AsksFor (echoServer "EXAMINE") (turn "a2 EXAMINE INBOX\r\n") "a2" "EXAMINE INBOX"
        (echoHandler "EXAMINE") ∧
      examine.invocation (echoServer "EXAMINE") (turn "a2 EXAMINE INBOX\r\n") = none) ∧
    (full.AsksFor (echoServer "Echo") (turn "b Echo hi\r\n") "b" "Echo hi" (echoHandler "Echo") ∧
      full.invocation (echoServer "Echo") (turn "b Echo hi\r\n") = none) := by
  intro _ turn starttls examine full
  have hstarttls : starttls.AsksFor (echoServer "STARTTLS") (turn "a2 STARTTLS\r\n") "a2"
      "STARTTLS" (echoHandler "STARTTLS") := {
    registered := ⟨_, lookup_echoServer (by decide +kernel)⟩
    ascii := by decide
    line := by decide +kernel
    separated := by decide
    fresh := by decide +kernel
    names := ⟨"STARTTLS", by decide +kernel, by decide⟩
    parsed := ⟨.starttls, by decide +kernel⟩
    state := mayRunIn_echoHandler _ _ }
  have hexamine : examine.AsksFor (echoServer "EXAMINE") (turn "a2 EXAMINE INBOX\r\n") "a2"
      "EXAMINE INBOX" (echoHandler "EXAMINE") := {
    registered := ⟨_, lookup_echoServer (by decide +kernel)⟩
    ascii := by decide
    line := by decide +kernel
    separated := by decide
    fresh := by decide +kernel
    names := ⟨"EXAMINE", by decide +kernel, by decide⟩
    parsed := ⟨.examine "INBOX", by decide +kernel⟩
    state := mayRunIn_echoHandler _ _ }
  obtain ⟨hfull, hroom⟩ := asksFor_after_tags 10000
  refine ⟨⟨hstarttls, ?_⟩, ⟨hexamine, ?_⟩, ⟨hfull, ?_⟩⟩
  · exact invocation_of_not_asked hstarttls.line hstarttls.separated (by decide +kernel)
      (show toUppercase "STARTTLS" ∈ _ by decide)
  · exact invocation_of_not_asked hexamine.line hexamine.separated (by decide +kernel)
      (show toUppercase "EXAMINE" ∈ _ by decide)
  · exact hfull.invocation_of_full fun hfree => absurd (hroom.mp hfree) (Nat.lt_irrefl _)

end Scuttled
