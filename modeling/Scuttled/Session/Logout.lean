import Scuttled.Session.System
import Scuttled.Session.Tags

/-!
# Leaving a session

LOGOUT goes through the same gates as every other line: the time limits, the
history of tags, the parser and the registry of handlers.  The only one that
may stand in its way for good is the history, which never forgets a tag and
takes no more than its bound.
-/

namespace Scuttled

open Rust Foundation

variable {R : Type}

/-! ## The line -/

/-- The buffer holds a tag and the word LOGOUT, in any case. -/
def IsLogoutLine (buffer tag : String) : Prop :=
  ' ' ∉ tag.toList ∧ ∃ word, eqIgnoreAsciiCase word "LOGOUT" = true ∧
    Session.stripNewline buffer = tag ++ " " ++ word

theorem parseCommand_logout [UnicodeCase] {word : String}
    (hword : eqIgnoreAsciiCase word "LOGOUT" = true) (tag : String) :
    parseCommand tag word = .ok .logout := by
  have hupper : ∀ c ∈ "LOGOUT".toList, c.isUpper = true := by decide
  rw [parseCommand,
    splitWhitespace_of_isToken (isToken_of_eqIgnoreAsciiCase (by decide) hupper hword)]
  dsimp only
  rw [toUppercase_of_eqIgnoreAsciiCase hupper hword]
  rfl

namespace IsLogoutLine

variable {buffer tag : String}

theorem ne_empty (hline : IsLogoutLine buffer tag) : (buffer == "") = false := by
  obtain ⟨-, word, -, hstrip⟩ := hline
  refine beq_eq_false_iff_ne.mpr fun hempty => ?_
  have hlength := congrArg (fun text => text.toList.length) hstrip
  rw [hempty] at hlength
  simp [Session.stripNewline, endsWith] at hlength

theorem splitn2_eq (hline : IsLogoutLine buffer tag) :
    ∃ word, eqIgnoreAsciiCase word "LOGOUT" = true ∧
      splitn2 ' ' (Session.stripNewline buffer) = [tag, word] := by
  obtain ⟨htag, word, hword, hstrip⟩ := hline
  exact ⟨word, hword, hstrip ▸ splitn2_append htag word⟩

end IsLogoutLine

section Turn

variable [UnicodeCase] {session : Session} {turn : Turn} {buffer tag : String}

/-- Within the time limits a line that holds a command is refused by the history of
tags, or its command takes its course. -/
theorem course_command {commandLine : String} {command : Command} (hended : session.ended = none)
    (hread : turn.read = .ok buffer) (hempty : (buffer == "") = false)
    (hsplit : splitn2 ' ' (Session.stripNewline buffer) = [tag, commandLine])
    (hparse : parseCommand tag commandLine = .ok command)
    (hduration : ¬ turn.durationCheck - session.sessionStarted > session.maxSessionDuration)
    (hidle : ¬ turn.idleCheck - turn.now > session.maxIdleDuration) :
    session.course turn =
      match session.tagHistory.register tag with
      | (.error error, _) =>
          .refuse session.tagHistory (.bad (some tag) ("Tag error: " ++ error.display))
      | (.ok (), tagHistory) => commandCourse tagHistory tag command := by
  have hlineOf : session.lineOf turn = some (Session.stripNewline buffer) := by
    rw [Session.lineOf, hended, if_neg (by simp), if_neg hduration, if_neg hidle, hread]
    simp only [hempty, Bool.false_eq_true, if_false]
  rw [Session.course, hlineOf]
  dsimp only
  rw [Session.lineCourse, hsplit]
  dsimp only
  rcases session.tagHistory.register tag with ⟨error | accepted, tagHistory⟩
  · rfl
  · simp only [hparse]

/-- Within the time limits the line is refused by the history of tags or handed
to the handler of LOGOUT. -/
theorem course_logout (hended : session.ended = none) (hread : turn.read = .ok buffer)
    (hline : IsLogoutLine buffer tag)
    (hduration : ¬ turn.durationCheck - session.sessionStarted > session.maxSessionDuration)
    (hidle : ¬ turn.idleCheck - turn.now > session.maxIdleDuration) :
    session.course turn =
      match session.tagHistory.register tag with
      | (.error error, _) =>
          .refuse session.tagHistory (.bad (some tag) ("Tag error: " ++ error.display))
      | (.ok (), tagHistory) => .delegate tagHistory tag "LOGOUT" "" := by
  obtain ⟨word, hword, hsplit⟩ := hline.splitn2_eq
  exact course_command hended hread hline.ne_empty hsplit (parseCommand_logout hword tag)
    hduration hidle

theorem get_logout : CommandHandlers.get (builtInHandlers : CommandHandlers R) "LOGOUT" =
    some logoutHandler := by
  rw [get_builtInHandlers, toUppercase_word (by decide)]
  rfl

theorem admitted_logout {handlers : CommandHandlers R}
    (hhandlers : handlers.get "LOGOUT" = some logoutHandler) (currentState : SessionState) :
    handlers.admitted "LOGOUT" currentState = some logoutHandler := by
  rw [CommandHandlers.admitted, hhandlers]
  rfl

/-- The handler of LOGOUT ends the session once both responses are written. -/
theorem handle_logout {handlers : CommandHandlers R}
    (hhandlers : handlers.get "LOGOUT" = some logoutHandler) (tag args : String)
    (connection : Connection) (context : SessionContext R) (currentState : SessionState)
    (registry : R) :
    (connection.writeError 0 = none ∧ connection.writeError 1 = none ∧
      handlers.handle "LOGOUT" tag args connection context currentState ⟨registry, []⟩ =
        (some .logout,
          ⟨registry, [.wrote (.bye "Logging out"), .wrote (.ok (some tag) "LOGOUT completed")]⟩)) ∨
    (¬ (connection.writeError 0 = none ∧ connection.writeError 1 = none) ∧
      (handlers.handle "LOGOUT" tag args connection context currentState ⟨registry, []⟩).1 =
        none) := by
  have hsend : logoutHandler.handle tag args connection context currentState ⟨registry, []⟩ =
      Reply.send
        { responses := [.bye "Logging out", .ok (some tag) "LOGOUT completed"]
          next := some .logout } connection ⟨registry, []⟩ := by
    rw [logoutHandler_handle]
    rfl
  rw [send_eq] at hsend
  rw [CommandHandlers.handle_of_admitted (admitted_logout hhandlers currentState), stateM_bind,
    ExceptT.run, hsend]
  cases hfirst : connection.writeError 0 with
  | some error =>
      refine .inr ⟨by simp, ?_⟩
      simp only [List.length_nil, Connection.deliver, hfirst]
      rfl
  | none =>
      cases hsecond : connection.writeError 1 with
      | some error =>
          refine .inr ⟨by simp, ?_⟩
          simp only [List.length_nil, Connection.deliver, hfirst, hsecond]
          rfl
      | none =>
          refine .inl ⟨rfl, rfl, ?_⟩
          simp only [List.length_nil, Connection.deliver, hfirst, hsecond]
          rfl

end Turn

/-! ## What the history remembers -/

theorem TagHistory.register_cases (tag : String) (history : TagHistory) :
    ((history.register tag).2 = history ∧
      (tag ∈ history.tags ∨ history.maxSize ≤ history.tags.card)) ∨
    ((history.register tag).2 = { history with tags := insert tag history.tags } ∧
      history.tags.card < history.maxSize) := by
  unfold register
  by_cases hmem : tag ∈ history.tags
  · rw [if_pos hmem]
    exact .inl ⟨rfl, .inl hmem⟩
  · by_cases hfull : history.tags.card ≥ history.maxSize
    · rw [if_neg hmem, if_pos hfull]
      exact .inl ⟨rfl, .inr hfull⟩
    · rw [if_neg hmem, if_neg hfull]
      exact .inr ⟨rfl, Nat.lt_of_not_le hfull⟩

/-- The history of a session holds tags of the lines it was sent; all of them, as
long as it is not full. -/
structure Session.Remembers (session : Session) (tags : Finset String) : Prop where
  subset : session.tagHistory.tags ⊆ tags
  maxSize : session.tagHistory.maxSize = defaultMaxTagHistory
  complete : session.ended = none →
    session.tagHistory.tags = tags ∨ defaultMaxTagHistory ≤ session.tagHistory.tags.card

namespace Session.Remembers

variable {session : Session} {tags : Finset String}

/-- A new tag is refused exactly if as many different tags were sent as the
history may hold. -/
theorem register_cases (hremembers : session.Remembers tags) (hended : session.ended = none)
    {tag : String} (htag : tag ∉ tags) :
    (tags.card < defaultMaxTagHistory ∧
      ∃ tagHistory, session.tagHistory.register tag = (.ok (), tagHistory)) ∨
    (¬ tags.card < defaultMaxTagHistory ∧ session.tagHistory.register tag =
      (.error (.protocolError "Maximum tag history exceeded"), session.tagHistory)) := by
  have hnew : tag ∉ session.tagHistory.tags := fun hmem => htag (hremembers.subset hmem)
  have hle := Finset.card_le_card hremembers.subset
  unfold TagHistory.register
  rw [if_neg hnew, hremembers.maxSize]
  rcases hremembers.complete hended with hall | hfull
  · rw [hall]
    by_cases hroom : tags.card < defaultMaxTagHistory
    · rw [if_neg (Nat.not_le_of_lt hroom)]
      exact .inl ⟨hroom, _, rfl⟩
    · rw [if_pos (Nat.le_of_not_lt hroom)]
      exact .inr ⟨hroom, rfl⟩
  · rw [if_pos hfull]
    exact .inr ⟨Nat.not_lt_of_le (Nat.le_trans hfull hle), rfl⟩

/-- A turn adds the tag of its line to what was sent. -/
theorem turn [UnicodeCase] {R : Type} {server : Server R} {input : Turn}
    (hremembers : session.Remembers tags) (world : World R) :
    (session.turn server input world).1.Remembers (tags ∪ input.tag.toList.toFinset) := by
  have hhistory : (session.turn server input world).1.tagHistory = (session.registered input).2 :=
    tagHistory_turn world
  have hall (hended : (session.turn server input world).1.ended = none) :
      session.ended = none ∧ session.tagOf input = input.tag := by
    obtain ⟨hbefore, line, hline⟩ := lineOf_of_not_ended hended
    exact ⟨hbefore, tagOf_of_lineOf hline⟩
  unfold Session.registered at hhistory
  cases htag : session.tagOf input with
  | none =>
      rw [htag] at hhistory
      refine ⟨hhistory ▸ hremembers.subset.trans Finset.subset_union_left,
        hhistory ▸ hremembers.maxSize, fun hended => ?_⟩
      obtain ⟨hbefore, hsame⟩ := hall hended
      rw [hhistory, ← hsame, htag]
      simpa using hremembers.complete hbefore
  | some tag =>
      simp only [htag] at hhistory
      have hinput : input.tag = some tag := tag_of_tagOf htag
      have hunion : tags ∪ input.tag.toList.toFinset = insert tag tags := by
        simp [hinput]
      rw [hunion]
      rcases session.tagHistory.register_cases tag with ⟨hsame, hknown⟩ | ⟨hnew, hroom⟩
      · rw [hsame] at hhistory
        refine ⟨hhistory ▸ hremembers.subset.trans (Finset.subset_insert tag tags),
          hhistory ▸ hremembers.maxSize, fun hended => ?_⟩
        rw [hhistory]
        rcases hknown with hmem | hfull
        · rw [Finset.insert_eq_of_mem (hremembers.subset hmem)]
          exact hremembers.complete (hall hended).1
        · exact .inr (hremembers.maxSize ▸ hfull)
      · rw [hnew] at hhistory
        refine ⟨?_, ?_, fun hended => ?_⟩
        · rw [hhistory]
          exact Finset.insert_subset_insert tag hremembers.subset
        · rw [hhistory]
          exact hremembers.maxSize
        · rw [hhistory]
          rcases hremembers.complete (hall hended).1 with htags | hfull
          · exact .inl (by rw [htags])
          · exact absurd (hremembers.maxSize ▸ hroom) (Nat.not_lt_of_le hfull)

/-- LOGOUT under a new tag ends a session exactly if no gate is closed. -/
theorem logout_iff [UnicodeCase] {R : Type} {server : Server R} {input : Turn}
    {buffer tag : String} (hremembers : session.Remembers tags) (hended : session.ended = none)
    (hread : input.read = .ok buffer) (hline : IsLogoutLine buffer tag) (htag : tag ∉ tags)
    (hhandlers : server.commandHandlers.get "LOGOUT" = some logoutHandler) (registry : R) :
    (sent (session.turn server input ⟨registry, []⟩).2.trace =
          [.bye "Logging out", .ok (some tag) "LOGOUT completed"] ∧
        (session.turn server input ⟨registry, []⟩).1.ended = some (.ok ())) ↔
      tags.card < defaultMaxTagHistory ∧
        input.durationCheck - session.sessionStarted ≤ session.maxSessionDuration ∧
        input.idleCheck - input.now ≤ session.maxIdleDuration ∧
        input.writeError 0 = none ∧ input.writeError 1 = none := by
  by_cases hexpired : input.durationCheck - session.sessionStarted > session.maxSessionDuration ∨
      input.idleCheck - input.now > session.maxIdleDuration
  · obtain ⟨message, hcourse⟩ := course_of_expired hended hexpired
    rw [turn_course, hcourse]
    refine ⟨fun hanswered => ?_, fun hlimits => ?_⟩
    · cases hanswered.2
    · rcases hexpired with hduration | hidle
      · exact absurd hlimits.2.1 (Nat.not_le_of_gt hduration)
      · exact absurd hlimits.2.2.1 (Nat.not_le_of_gt hidle)
  obtain ⟨hduration, hidle⟩ := not_or.mp hexpired
  have hlimits : input.durationCheck - session.sessionStarted ≤ session.maxSessionDuration ∧
      input.idleCheck - input.now ≤ session.maxIdleDuration :=
    ⟨Nat.le_of_not_lt hduration, Nat.le_of_not_lt hidle⟩
  rw [turn_course, course_logout hended hread hline hduration hidle]
  rcases hremembers.register_cases hended htag with
    ⟨hroom, tagHistory, hregister⟩ | ⟨hfull, hregister⟩
  · rw [hregister]
    simp only [Course.execute, stateM_bind, hroom, hlimits, true_and]
    rcases handle_logout hhandlers tag "" ⟨session.isTls, input.writeError⟩
      (input.context server.mailboxes) session.sessionState registry with
      ⟨hfirst, hsecond, hhandle⟩ | ⟨hwrites, hhandle⟩
    · rw [hhandle]
      exact ⟨fun _ => ⟨hfirst, hsecond⟩, fun _ => ⟨rfl, rfl⟩⟩
    · rw [hhandle]
      refine ⟨fun hanswered => ?_, fun h => absurd h hwrites⟩
      have hkept : session.ended = some (.ok ()) := hanswered.2
      rw [hended] at hkept
      cases hkept
  · rw [hregister]
    refine ⟨fun hanswered => ?_, fun h => absurd h.1 hfull⟩
    have hkept : session.ended = some (.ok ()) := hanswered.2
    rw [hended] at hkept
    cases hkept

end Session.Remembers

/-! ## Runs -/

section Runs

variable {Id : Type} [DecidableEq Id]

theorem tagsOf_concat (id : Id) (inputs : List (Id × Turn)) (input : Id × Turn) :
    tagsOf id (inputs ++ [input]) =
      tagsOf id inputs ∪ (if input.1 = id then input.2.tag else none).toList.toFinset := by
  rw [tagsOf, List.filterMap_append, List.toFinset_append, tagsOf]
  congr 1

theorem remembers_final [UnicodeCase] (server : Server R) (started maxSession maxIdle : Id → Nat)
    (isTls : Id → Bool) (greeting : Id → Option Error) (registry : R)
    (inputs : List (Id × Turn)) (id : Id) :
    (((System.machine server).final (.new started maxSession maxIdle isTls greeting registry)
      inputs).sessions id).Remembers (tagsOf id inputs) := by
  let Inv (done : List (Id × Turn)) (system : System Id R) : Prop :=
    (system.sessions id).Remembers (tagsOf id done)
  have hstep (done : List (Id × Turn)) (system : System Id R) (input : Id × Turn)
      (hinv : Inv done system) :
      Inv (done ++ [input]) ((System.machine server).step system input).1 := by
    obtain ⟨other, turn⟩ := input
    simp only [Inv, tagsOf_concat, System.sessions_step]
    by_cases hid : other = id
    · subst hid
      simp only [Function.update_self, if_true]
      exact hinv.turn _
    · simp only [Function.update_of_ne (Ne.symm hid), if_neg hid, Option.toList_none,
        List.toFinset_nil, Finset.union_empty]
      exact hinv
  have hnew : Inv [] (.new started maxSession maxIdle isTls greeting registry) := by
    refine ⟨?_, ?_, fun _ => .inl ?_⟩
    · rw [System.tagHistory_new]
      exact Finset.empty_subset _
    · rw [System.tagHistory_new]
      rfl
    · rw [System.tagHistory_new]
      rfl
  exact Machine.inputs_invariant hstep hnew inputs

/--
LOGOUT ends a session.  Let a session that has not ended be sent LOGOUT under a
tag it was not sent before, whatever other handlers are registered and whatever
else the sessions of the server did.  The line is answered by BYE and its OK,
and ends the session, exactly if the session was sent fewer different tags than
the history may hold, its time limits have not run out, and both responses can
be written.
-/
theorem logout_ends_iff [UnicodeCase] (mailboxes : Mailboxes R) (tlsAcceptor : Bool)
    (added : List (CommandHandler R)) (started maxSession maxIdle : Id → Nat) (isTls : Id → Bool)
    (greeting : Id → Option Error) (registry : R) (inputs : List (Id × Turn)) (id : Id)
    (turn : Turn) (buffer tag : String) (hread : turn.read = .ok buffer)
    (hline : IsLogoutLine buffer tag) (htag : tag ∉ tagsOf id inputs) (reached : System Id R)
    (hreached : reached = (System.machine (imapServerWith mailboxes tlsAcceptor added)).final
      (.new started maxSession maxIdle isTls greeting registry) inputs)
    (hended : (reached.sessions id).ended = none) :
    (sent ((System.machine (imapServerWith mailboxes tlsAcceptor added)).step reached
          (id, turn)).2 = [.bye "Logging out", .ok (some tag) "LOGOUT completed"] ∧
        (((System.machine (imapServerWith mailboxes tlsAcceptor added)).step reached
          (id, turn)).1.sessions id).ended = some (.ok ())) ↔
      (tagsOf id inputs).card < defaultMaxTagHistory ∧
        turn.durationCheck - started id ≤ maxSession id ∧
        turn.idleCheck - turn.now ≤ maxIdle id ∧
        turn.writeError 0 = none ∧ turn.writeError 1 = none := by
  have hremembers := remembers_final (imapServerWith mailboxes tlsAcceptor added) started
    maxSession maxIdle isTls greeting registry inputs id
  obtain ⟨hstarted, hsession, hidle⟩ := limits_final (imapServerWith mailboxes tlsAcceptor added)
    started maxSession maxIdle isTls greeting registry inputs id
  rw [← hreached] at hremembers hstarted hsession hidle
  rw [System.trace_step, System.sessions_step, Function.update_self, ← hstarted, ← hsession,
    ← hidle]
  generalize reached.sessions id = session at *
  generalize reached.registry = registry'
  exact hremembers.logout_iff hended hread hline htag
    (get_imapServerWith get_logout mailboxes tlsAcceptor added) _

end Runs

theorem logout_ends_iff_afterLogin :
    let _ := UnicodeCase.ascii
    let line := Turn.smooth fun _ => .ok true
    let earlier := [((), line "a1 LOGIN ann x\r\n"), ((), line "a2 NOOP\r\n")]
    let machine := System.machine (imapServerWith (inMemoryMailboxes .searching .listed) false [])
    let system : System Unit InMemoryMailboxes := .new (fun _ => 0) (fun _ => 3600)
      (fun _ => 1800) (fun _ => false) (fun _ => none) .new
    sent (machine.step (machine.final system earlier) ((), line "a3 logout\r\n")).2 =
        [.bye "Logging out", .ok (some "a3") "LOGOUT completed"] ∧
      ((machine.step (machine.final system earlier) ((), line "a3 logout\r\n")).1.sessions
        ()).ended = some (.ok ()) := by
  intro _ line earlier machine system
  have hline : IsLogoutLine "a3 logout\r\n" "a3" := ⟨by decide, "logout", by decide, by decide⟩
  have htags : tagsOf () earlier = {"a1", "a2"} := by decide +kernel
  have hnew : "a3" ∉ tagsOf () earlier := by
    rw [htags]
    decide
  have hended : ((machine.final system earlier).sessions ()).ended = none := by decide +kernel
  have hlaw := logout_ends_iff (inMemoryMailboxes .searching .listed) false [] (fun _ => 0)
    (fun _ => 3600) (fun _ => 1800) (fun _ => false) (fun _ => none) .new earlier ()
    (line "a3 logout\r\n") "a3 logout\r\n" "a3" rfl hline hnew (machine.final system earlier) rfl
    hended
  dsimp only [machine, system] at hlaw ⊢
  refine hlaw.mpr ⟨?_, Nat.zero_le _, Nat.zero_le _, rfl, rfl⟩
  rw [htags]
  decide

/-! ## A session that was sent many tags -/

/-- A different tag for each number. -/
def numberedTag (number : Nat) : String := String.ofList (List.replicate number 'a')

def numberedTurn (number : Nat) : Turn :=
  .smooth (fun _ => .ok true) (numberedTag number ++ " " ++ "NOOP" ++ "\r\n")

theorem stripNewline_append (line : String) : Session.stripNewline (line ++ "\r\n") = line := by
  have hnewline : endsWith (line ++ "\r\n") "\n" = true :=
    List.isSuffixOf_iff_suffix.mpr ⟨line.toList ++ ['\r'], by simp⟩
  have hreturn : endsWith (String.ofList (line ++ "\r\n").toList.dropLast) "\r" = true :=
    List.isSuffixOf_iff_suffix.mpr ⟨line.toList, by simp⟩
  rw [Session.stripNewline, if_pos hnewline, if_pos hreturn]
  simp

theorem splitn2_numberedTurn (number : Nat) :
    splitn2 ' ' (Session.stripNewline (numberedTag number ++ " " ++ "NOOP" ++ "\r\n")) =
      [numberedTag number, "NOOP"] := by
  rw [stripNewline_append]
  exact splitn2_append (by simp [numberedTag]) "NOOP"

theorem tag_numberedTurn (number : Nat) :
    (numberedTurn number).tag = some (numberedTag number) := by
  rw [Turn.tag]
  simp only [numberedTurn, Turn.smooth, splitn2_numberedTurn]

theorem tagsOf_numbered (count : Nat) :
    tagsOf () ((List.range count).map fun number => ((), numberedTurn number)) =
      (Finset.range count).image numberedTag := by
  ext tag
  simp [tagsOf, tag_numberedTurn]

theorem card_tagsOf_numbered (count : Nat) :
    (tagsOf () ((List.range count).map fun number => ((), numberedTurn number))).card = count := by
  rw [tagsOf_numbered, Finset.card_image_of_injective, Finset.card_range]
  intro first second hsame
  simpa [numberedTag] using congrArg (fun tag => tag.toList.length) hsame

theorem notMem_tagsOf_numbered (count : Nat) :
    "b" ∉ tagsOf () ((List.range count).map fun number => ((), numberedTurn number)) := by
  rw [tagsOf_numbered, Finset.mem_image]
  rintro ⟨number, -, hsame⟩
  have hletter : 'b' ∈ (numberedTag number).toList := hsame ▸ List.mem_singleton_self 'b'
  simp [numberedTag] at hletter

/-- NOOP keeps a session that is not authenticated as it is, but for its tags. -/
theorem turn_numbered [UnicodeCase] {session : Session} (mailboxes : Mailboxes R)
    (tlsAcceptor : Bool) (added : List (CommandHandler R)) (number : Nat) (world : World R)
    (hended : session.ended = none) (hstate : session.sessionState = .notAuthenticated) :
    let next := (session.turn (imapServerWith mailboxes tlsAcceptor added) (numberedTurn number)
      world).1
    next.ended = none ∧ next.sessionState = .notAuthenticated := by
  have hempty : ((numberedTag number ++ " " ++ "NOOP" ++ "\r\n" : String) == "") = false := by
    refine beq_eq_false_iff_ne.mpr fun hempty => ?_
    have hlength := congrArg (fun line => line.toList.length) hempty
    simp at hlength
  have hparse : parseCommand (numberedTag number) "NOOP" = .ok .noop := by
    rw [parseCommand, splitWhitespace_of_isToken ⟨by decide, by decide⟩]
    dsimp only
    rw [toUppercase_word (by decide)]
    rfl
  have hget : (imapServerWith mailboxes tlsAcceptor added).commandHandlers.get "NOOP" =
      some noopHandler := by
    refine get_imapServerWith ?_ mailboxes tlsAcceptor added
    rw [get_builtInHandlers, toUppercase_word (by decide)]
    rfl
  have hadmitted : (imapServerWith mailboxes tlsAcceptor added).commandHandlers.admitted "NOOP"
      session.sessionState = none := by
    rw [CommandHandlers.admitted, hget, hstate]
    rfl
  intro next
  simp only [next]
  rw [turn_course, course_command hended rfl hempty (splitn2_numberedTurn number) hparse
    (by simp [numberedTurn, Turn.smooth]) (by simp [numberedTurn, Turn.smooth])]
  rcases session.tagHistory.register (numberedTag number) with ⟨error | accepted, tagHistory⟩
  · exact ⟨hended, hstate⟩
  · simp only [commandCourse, Course.execute, stateM_bind]
    obtain ⟨response, hhandle⟩ := CommandHandlers.handle_of_not_admitted hadmitted
      (numberedTag number) "" ⟨session.isTls, (numberedTurn number).writeError⟩
      ((numberedTurn number).context (imapServerWith mailboxes tlsAcceptor added).mailboxes)
    rw [hhandle]
    exact ⟨hended, hstate⟩

theorem kept_numbered [UnicodeCase] (mailboxes : Mailboxes R) (tlsAcceptor : Bool)
    (added : List (CommandHandler R)) (registry : R) (count : Nat) :
    let session := ((System.machine (imapServerWith mailboxes tlsAcceptor added)).final
      (.new (fun _ => 0) (fun _ => 3600) (fun _ => 1800) (fun _ => false) (fun _ => none) registry)
      ((List.range count).map fun number => ((), numberedTurn number))).sessions ()
    session.ended = none ∧ session.sessionState = .notAuthenticated := by
  let Inv (state : System Unit R) : Prop :=
    (state.sessions ()).ended = none ∧ (state.sessions ()).sessionState = .notAuthenticated
  have hnew : Inv (.new (fun _ => 0) (fun _ => 3600) (fun _ => 1800) (fun _ => false)
    (fun _ => none) registry) := ⟨rfl, rfl⟩
  refine Machine.final_invariant (fun state input hinput hstate => ?_) hnew
  obtain ⟨number, -, rfl⟩ := List.mem_map.mp hinput
  exact turn_numbered mailboxes tlsAcceptor added number ⟨state.registry, []⟩ hstate.1 hstate.2

theorem logout_refused_of_full (count : Nat) (hfull : defaultMaxTagHistory ≤ count) :
    let _ := UnicodeCase.ascii
    let turn := Turn.smooth (fun _ => .ok true) "b logout\r\n"
    let machine := System.machine (imapServerWith (inMemoryMailboxes .searching .listed) false [])
    let system : System Unit InMemoryMailboxes := .new (fun _ => 0) (fun _ => 3600)
      (fun _ => 1800) (fun _ => false) (fun _ => none) .new
    let inputs := (List.range count).map fun number => ((), numberedTurn number)
    IsLogoutLine "b logout\r\n" "b" ∧ "b" ∉ tagsOf () inputs ∧
      ((machine.final system inputs).sessions ()).ended = none ∧
      ¬ (sent (machine.step (machine.final system inputs) ((), turn)).2 =
          [.bye "Logging out", .ok (some "b") "LOGOUT completed"] ∧
        ((machine.step (machine.final system inputs) ((), turn)).1.sessions ()).ended =
          some (.ok ())) := by
  intro _ turn machine system inputs
  have hline : IsLogoutLine "b logout\r\n" "b" := ⟨by decide, "logout", by decide, by decide⟩
  have hnew : "b" ∉ tagsOf () inputs := notMem_tagsOf_numbered count
  have hkept := kept_numbered (inMemoryMailboxes .searching .listed) false [] .new count
  refine ⟨hline, hnew, hkept.1, fun hanswered => ?_⟩
  have hremembers := remembers_final
    (imapServerWith (inMemoryMailboxes .searching .listed) false []) (fun _ => 0) (fun _ => 3600)
    (fun _ => 1800) (fun _ => false) (fun _ => none) InMemoryMailboxes.new inputs ()
  have hroom := ((hremembers.logout_iff hkept.1 rfl hline hnew (get_imapServerWith get_logout
    (inMemoryMailboxes .searching .listed) false []) (machine.final system inputs).registry).mp
      hanswered).1
  rw [card_tagsOf_numbered] at hroom
  exact absurd hroom (Nat.not_lt_of_le hfull)

/-- After as many tags as the history may hold, LOGOUT is refused. -/
theorem logout_refused_after_many_tags :
    let _ := UnicodeCase.ascii
    let turn := Turn.smooth (fun _ => .ok true) "b logout\r\n"
    let machine := System.machine (imapServerWith (inMemoryMailboxes .searching .listed) false [])
    let system : System Unit InMemoryMailboxes := .new (fun _ => 0) (fun _ => 3600)
      (fun _ => 1800) (fun _ => false) (fun _ => none) .new
    let inputs := (List.range 10000).map fun number => ((), numberedTurn number)
    IsLogoutLine "b logout\r\n" "b" ∧ "b" ∉ tagsOf () inputs ∧
      ((machine.final system inputs).sessions ()).ended = none ∧
      ¬ (sent (machine.step (machine.final system inputs) ((), turn)).2 =
          [.bye "Logging out", .ok (some "b") "LOGOUT completed"] ∧
        ((machine.step (machine.final system inputs) ((), turn)).1.sessions ()).ended =
          some (.ok ())) :=
  logout_refused_of_full 10000 (Nat.le_refl _)

end Scuttled
