import Scuttled.Rust.BufReader
import Scuttled.Session.Course

/-!
# STARTTLS and the bytes behind it

A session reads its lines from a buffered reader.  The upgrade takes the reader
apart: the handshake begins with what was not delivered yet, and a new reader is put
around what the handshake makes of it.
-/

namespace Scuttled

open Rust Foundation

variable {R : Type}

/-! ## Connected sessions -/

/-- What the TLS library makes of an encrypted stream: the error of the handshake, or
the stream that is decrypted. -/
abbrev TlsAccept := ByteStream Error → Except String (ByteStream Error)

/-- `Connection::upgrade_to_tls` for the reader of a plain connection. -/
def upgradeToTls (accept : TlsAccept) (reader : BufReader Error) : Result (BufReader Error) :=
  match accept reader.intoInner with
  | .error cause => .error (.tlsError ("TLS handshake failed: " ++ cause))
  | .ok decrypted => .ok (.new decrypted)

namespace Session

/-- The loop comes to read a line: the session has not ended and is within its time
limits. -/
def waits (session : Session) (turn : Turn) : Bool :=
  !session.ended.isSome &&
    !decide (turn.durationCheck - session.sessionStarted > session.maxSessionDuration) &&
    !decide (turn.idleCheck - turn.now > session.maxIdleDuration)

/-- The text the loop hands to `parse_command` in a turn. -/
def parsed (session : Session) (turn : Turn) : Option String :=
  match session.lineOf turn with
  | none => none
  | some line =>
      match splitn2 ' ' line with
      | [tag, commandLine] =>
          match (session.tagHistory.register tag).1 with
          | .ok () => some commandLine
          | .error _ => none
      | _ => none

end Session

/-- A session, the reader of its connection, and the registry it shares. -/
structure ConnectedSession (R : Type) where
  session : Session
  reader : BufReader Error
  registry : R

/-- What a turn does, and what it hands to `parse_command`. -/
structure TurnRecord where
  trace : List Action
  parsed : Option String

namespace ConnectedSession

/-- The error of `read_line` for a line that is not UTF-8. -/
def invalidUtf8 : Error := .io "stream did not contain valid UTF-8"

/-- What the loop reads in a turn, and the reader after it. -/
def read (connected : ConnectedSession R) (turn : Turn) : Result String × BufReader Error :=
  if connected.session.waits turn then connected.reader.readLine invalidUtf8
  else (.ok "", connected.reader)

/-- The turn, with what the connection supplies to it. -/
def turnOf (accept : TlsAccept) (connected : ConnectedSession R) (turn : Turn) : Turn :=
  { turn with
    read := (connected.read turn).1
    handshake :=
      match upgradeToTls accept (connected.read turn).2 with
      | .error error => some error
      | .ok _ => none }

/-- The reader after a turn: a connection that was upgraded in it has a new one. -/
def readerAfter (accept : TlsAccept) (before after : Session) (reader : BufReader Error) :
    BufReader Error :=
  if after.isTls && !before.isTls then
    match upgradeToTls accept reader with
    | .error _ => reader
    | .ok upgraded => upgraded
  else reader

/-- One turn of a session on its connection, after what other sessions did to the
registry. -/
def step [UnicodeCase] (server : Server R) (accept : TlsAccept) (connected : ConnectedSession R)
    (input : Turn × (R → R)) : ConnectedSession R × TurnRecord :=
  let turn := connected.turnOf accept input.1
  let next := connected.session.turn server turn ⟨input.2 connected.registry, []⟩
  ({ session := next.1
     reader := readerAfter accept connected.session next.1 (connected.read input.1).2
     registry := next.2.registry },
    { trace := next.2.trace
      parsed := connected.session.parsed turn })

/-- A connected session as a machine. -/
def machine [UnicodeCase] (server : Server R) (accept : TlsAccept) :
    Machine (ConnectedSession R) (Turn × (R → R)) TurnRecord where
  step := step server accept

end ConnectedSession

/-! ## Answering STARTTLS -/

/-- The turn answers STARTTLS with OK, so that the connection is upgraded. -/
structure Session.AnswersStarttls [UnicodeCase] (session : Session) (tlsAcceptor : Bool)
    (turn : Turn) : Prop where
  parsed : ∃ tagHistory tag, session.course turn = .starttls tagHistory tag
  plain : session.isTls = false
  available : tlsAcceptor = true
  written : turn.writeError 0 = none

section Turn

variable {session : Session} {turn : Turn}

theorem lineOf_of_not_waits (hwaits : session.waits turn = false) :
    session.lineOf turn = none := by
  unfold Session.waits at hwaits
  unfold Session.lineOf
  split
  · rfl
  · split
    · rfl
    · split
      · rfl
      · simp_all

theorem waits_of_lineOf {line : String} (hline : session.lineOf turn = some line) :
    session.waits turn = true := by
  cases hwaits : session.waits turn with
  | true => rfl
  | false =>
      rw [lineOf_of_not_waits hwaits] at hline
      cases hline

theorem lineOf_of_read_empty (hread : turn.read = .ok "") : session.lineOf turn = none := by
  simp [Session.lineOf, hread]

theorem prefix_stripNewline (line : String) :
    (Session.stripNewline line).toList <+: line.toList := by
  unfold Session.stripNewline
  split
  · dsimp only
    split
    · simp only [String.toList_ofList]
      exact (List.dropLast_prefix _).trans (List.dropLast_prefix _)
    · rw [String.toList_ofList]
      exact List.dropLast_prefix _
  · exact List.prefix_refl _

theorem infix_of_parsed {commandLine : String}
    (hparsed : session.parsed turn = some commandLine) :
    session.waits turn = true ∧ ∃ line, turn.read = .ok line ∧
      commandLine.toList <:+: line.toList := by
  unfold Session.parsed at hparsed
  split at hparsed
  · cases hparsed
  · rename_i text htext
    obtain ⟨line, hline, rfl⟩ := read_of_lineOf htext
    refine ⟨waits_of_lineOf htext, line, hline, ?_⟩
    split at hparsed
    · rename_i tag rest hsplit
      split at hparsed
      · cases hparsed
        exact (suffix_of_splitn2 hsplit).isInfix.trans (prefix_stripNewline line).isInfix
      · cases hparsed
    · cases hparsed

theorem lineOf_of_starttls [UnicodeCase] {tagHistory : TagHistory} {tag : String}
    (hcourse : session.course turn = .starttls tagHistory tag) :
    ∃ line, session.lineOf turn = some line := by
  cases hline : session.lineOf turn with
  | some line => exact ⟨line, rfl⟩
  | none =>
      rw [Session.course, hline] at hcourse
      dsimp only at hcourse
      split at hcourse
      · cases hcourse
      · split at hcourse
        · cases hcourse
        · split at hcourse <;> cases hcourse

theorem writeFirst_ok {connection : Connection} (response : Response)
    (hwritten : connection.writeError 0 = none) (registry : R) :
    (connection.writeResponse (R := R) response).run ⟨registry, []⟩ =
      (.ok (), ⟨registry, [.wrote response]⟩) := by
  change connection.writeResponse response ⟨registry, []⟩ = _
  simp [Connection.writeResponse, hwritten, World.record]

theorem writeFirst_error {connection : Connection} {error : Error} (response : Response)
    (hfailed : connection.writeError 0 = some error) (registry : R) :
    (connection.writeResponse (R := R) response).run ⟨registry, []⟩ =
      (.error error, ⟨registry, [.writeFailed response]⟩) := by
  change connection.writeResponse response ⟨registry, []⟩ = _
  simp [Connection.writeResponse, hfailed, World.record]

variable [UnicodeCase] {server : Server R}

theorem turn_of_answersStarttls (hanswers : session.AnswersStarttls server.tlsAcceptor turn)
    (registry : R) :
    ∃ tagHistory tag, session.turn server turn ⟨registry, []⟩ =
      (match turn.handshake with
        | some error => { session with tagHistory, ended := some (.error error) }
        | none => { session with tagHistory, isTls := true },
        ⟨registry, [.wrote (.ok (some tag) "Ready for TLS handshake")]⟩) := by
  obtain ⟨⟨tagHistory, tag, hcourse⟩, hplain, havailable, hwritten⟩ := hanswers
  refine ⟨tagHistory, tag, ?_⟩
  rw [turn_course, hcourse]
  simp only [Course.execute, Session.handleStarttls, Session.starttlsResponse, hplain, havailable,
    Bool.false_eq_true, if_false, Bool.not_true, stateM_bind]
  rw [← hplain, writeFirst_ok _ hwritten]
  dsimp only
  cases turn.handshake with
  | some error => rfl
  | none => rfl

/-- Whoever does not answer STARTTLS with OK does not look at a handshake and keeps the
connection as it is. -/
theorem turn_of_not_answersStarttls (hanswers : ¬ session.AnswersStarttls server.tlsAcceptor turn)
    (handshake : Option Error) (registry : R) :
    session.turn server { turn with handshake } ⟨registry, []⟩ =
        session.turn server turn ⟨registry, []⟩ ∧
      (session.turn server turn ⟨registry, []⟩).1.isTls = session.isTls := by
  have hsame : session.course { turn with handshake } = session.course turn := rfl
  rw [turn_course, turn_course, hsame]
  cases hcourse : session.course turn with
  | idle => exact ⟨rfl, rfl⟩
  | finish farewell result => exact ⟨rfl, by cases farewell <;> rfl⟩
  | refuse tagHistory response => exact ⟨rfl, rfl⟩
  | delegate tagHistory tag name args =>
      refine ⟨rfl, ?_⟩
      simp only [Course.execute, stateM_bind]
      generalize (server.commandHandlers.handle name tag args _ _ _ _).1 = next
      rcases next with _ | _ | _ | _ | _ <;> rfl
  | starttls tagHistory tag =>
      simp only [Course.execute, Session.handleStarttls, stateM_bind]
      cases hwritten : turn.writeError 0 with
      | some error =>
          rw [writeFirst_error _ hwritten]
          exact ⟨rfl, rfl⟩
      | none =>
          rw [writeFirst_ok _ hwritten]
          dsimp only
          -- an OK would have been the answer to STARTTLS
          have hresponse : ∃ message,
              Session.starttlsResponse tag session.isTls server.tlsAcceptor =
                .bad (some tag) message := by
            unfold Session.starttlsResponse
            cases hplain : session.isTls with
            | true => exact ⟨_, rfl⟩
            | false =>
                cases havailable : server.tlsAcceptor with
                | false => exact ⟨_, rfl⟩
                | true =>
                    exact absurd ⟨⟨tagHistory, tag, hcourse⟩, hplain, havailable, hwritten⟩ hanswers
          obtain ⟨message, hresponse⟩ := hresponse
          rw [hresponse]
          exact ⟨rfl, rfl⟩

end Turn

/-! ## Steps -/

namespace ConnectedSession

section Steps

variable [UnicodeCase] {server : Server R} {accept : TlsAccept}
  {connected connected' : ConnectedSession R} {input : Turn × (R → R)}

/-- The turn answers STARTTLS with OK on this connection. -/
def Upgrades (server : Server R) (accept : TlsAccept) (connected : ConnectedSession R)
    (turn : Turn) : Prop :=
  connected.session.AnswersStarttls server.tlsAcceptor (connected.turnOf accept turn)

theorem step_of_ended {result : Result Unit} (hended : connected.session.ended = some result) :
    step server accept connected input =
      ({ connected with registry := input.2 connected.registry }, ⟨[], none⟩) := by
  have hline (turn : Turn) : connected.session.lineOf turn = none := by
    simp [Session.lineOf, hended]
  have hturn (turn : Turn) (world : World R) :
      connected.session.turn server turn world = (connected.session, world) := by
    rw [turn_course, Session.course, hline]
    simp only [hended, Option.isSome_some, if_true]
    rfl
  have hread : (connected.read input.1).2 = connected.reader := by
    simp [read, Session.waits, hended]
  simp [step, hturn, hread, readerAfter, Session.parsed, hline]

omit [UnicodeCase] in
theorem readLine_of_waits {turn : Turn} (hwaits : connected.session.waits turn = true)
    {line : String} (hline : (connected.read turn).1 = .ok line) :
    connected.reader.readLine invalidUtf8 = (.ok line, (connected.read turn).2) := by
  have hread : connected.read turn = connected.reader.readLine invalidUtf8 := if_pos hwaits
  rw [hread]
  exact Prod.ext (hread ▸ hline) rfl

omit [UnicodeCase] in
theorem readLine_of_lineOf {turn : Turn} {text : String}
    (htext : connected.session.lineOf (connected.turnOf accept turn) = some text) :
    ∃ line, connected.reader.readLine invalidUtf8 = (.ok line, (connected.read turn).2) ∧
      line ≠ "" := by
  have hwaits := waits_of_lineOf htext
  obtain ⟨line, hline, -⟩ := read_of_lineOf htext
  refine ⟨line, readLine_of_waits hwaits hline, ?_⟩
  rintro rfl
  rw [lineOf_of_read_empty hline] at htext
  cases htext

theorem ended_or_read (server : Server R) (accept : TlsAccept) (connected : ConnectedSession R)
    (input : Turn × (R → R)) :
    (step server accept connected input).1.session.ended ≠ none ∨
      connected.session.ended = none ∧ ∃ line,
        connected.reader.readLine invalidUtf8 = (.ok line, (connected.read input.1).2) ∧
          line ≠ "" := by
  by_cases hended : (step server accept connected input).1.session.ended = none
  · obtain ⟨hbefore, text, htext⟩ := lineOf_of_not_ended hended
    exact .inr ⟨hbefore, readLine_of_lineOf htext⟩
  · exact .inl hended

theorem step_of_not_upgrades (hupgrades : ¬ connected.Upgrades server accept input.1) :
    (step server accept connected input).1.session.isTls = connected.session.isTls ∧
      (step server accept connected input).1.reader = (connected.read input.1).2 := by
  have hkept := (turn_of_not_answersStarttls hupgrades none (input.2 connected.registry)).2
  refine ⟨hkept, ?_⟩
  simp only [step, readerAfter]
  rw [hkept]
  simp

theorem step_of_upgrades_ok (hupgrades : connected.Upgrades server accept input.1)
    {decrypted : ByteStream Error}
    (haccept : accept (connected.read input.1).2.inner = .ok decrypted) :
    (step server accept connected input).1.session.isTls = true ∧
      (step server accept connected input).1.reader = .new decrypted := by
  obtain ⟨tagHistory, tag, hturn⟩ := turn_of_answersStarttls hupgrades (input.2 connected.registry)
  have hupgraded : upgradeToTls accept (connected.read input.1).2 = .ok (.new decrypted) := by
    rw [upgradeToTls, BufReader.intoInner, haccept]
  have hhandshake : (connected.turnOf accept input.1).handshake = none := by
    rw [turnOf, hupgraded]
  have hplain : connected.session.isTls = false := hupgrades.plain
  rw [hhandshake] at hturn
  simp [step, hturn, readerAfter, hplain, hupgraded]

theorem step_of_upgrades_error (hupgrades : connected.Upgrades server accept input.1)
    {cause : String} (haccept : accept (connected.read input.1).2.inner = .error cause) :
    (step server accept connected input).1.session.ended =
      some (.error (.tlsError ("TLS handshake failed: " ++ cause))) := by
  obtain ⟨tagHistory, tag, hturn⟩ := turn_of_answersStarttls hupgrades (input.2 connected.registry)
  have hhandshake : (connected.turnOf accept input.1).handshake =
      some (.tlsError ("TLS handshake failed: " ++ cause)) := by
    rw [turnOf, upgradeToTls, BufReader.intoInner, haccept]
  rw [hhandshake] at hturn
  simp [step, hturn]

/-! ## Two runs -/

/-- The session has ended, or is encrypted, or has read on: less is left than that. -/
def Passed (left : Nat) (connected : ConnectedSession R) : Prop :=
  connected.session.ended ≠ none ∨ connected.session.isTls = true ∨
    connected.reader.remaining < left

theorem passed_of_upgrades (hupgrades : connected.Upgrades server accept input.1) (left : Nat) :
    Passed left (step server accept connected input).1 := by
  cases haccept : accept (connected.read input.1).2.inner with
  | error cause =>
      refine .inl ?_
      rw [step_of_upgrades_error hupgrades haccept]
      exact Option.some_ne_none _
  | ok decrypted => exact .inr (.inl (step_of_upgrades_ok hupgrades haccept).1)

theorem passed_step_remaining (server : Server R) (accept : TlsAccept)
    (connected : ConnectedSession R) (input : Turn × (R → R)) :
    Passed connected.reader.remaining (step server accept connected input).1 := by
  by_cases hupgrades : connected.Upgrades server accept input.1
  · exact passed_of_upgrades hupgrades _
  · rcases ended_or_read server accept connected input with
      hended | ⟨-, line, hread, hne⟩
    · exact .inl hended
    · refine .inr (.inr ?_)
      rw [(step_of_not_upgrades hupgrades).2]
      exact BufReader.remaining_lt_of_readLine hread hne

theorem Passed.step {left : Nat} (hpassed : Passed left connected) :
    Passed left (step server accept connected input).1 := by
  rcases hpassed with hended | htls | hless
  · obtain ⟨result, hresult⟩ := Option.ne_none_iff_exists'.mp hended
    rw [step_of_ended hresult]
    exact .inl hended
  · have hupgrades : ¬ connected.Upgrades server accept input.1 := by
      intro hupgrades
      rw [hupgrades.plain] at htls
      cases htls
    exact .inr (.inl ((step_of_not_upgrades hupgrades).1.trans htls))
  · rcases passed_step_remaining server accept connected input with hended | htls | hnext
    · exact .inl hended
    · exact .inr (.inl htls)
    · exact .inr (.inr (hnext.trans hless))

/-- Two states that differ in what their readers hold behind one place. -/
structure Alike (behind behind' : List UInt8) (after : ByteStream Error)
    (connected connected' : ConnectedSession R) : Prop where
  session : connected'.session = connected.session
  registry : connected'.registry = connected.registry
  reader : BufReader.DifferBehind behind behind' after connected.reader connected'.reader

variable {behind behind' : List UInt8} {after : ByteStream Error}

omit [UnicodeCase] in
theorem Alike.read (halike : Alike behind behind' after connected connected') (turn : Turn) :
    connected.reader = ⟨behind, after⟩ ∨
      (connected'.read turn).1 = (connected.read turn).1 ∧
        BufReader.DifferBehind behind behind' after (connected.read turn).2
          (connected'.read turn).2 := by
  unfold ConnectedSession.read
  rw [halike.session]
  split
  · rcases halike.reader.readLine invalidUtf8 with hreached | ⟨hresult, hrest⟩
    · exact .inl hreached
    · exact .inr ⟨hresult.symm, hrest⟩
  · exact .inr ⟨rfl, halike.reader⟩

/-- A turn passes the place, or does the same in both states. -/
theorem Alike.step (server : Server R) (accept : TlsAccept)
    (halike : Alike behind behind' after connected connected') (input : Turn × (R → R)) :
    Passed (BufReader.remaining ⟨behind, after⟩) (step server accept connected input).1 ∨
      (ConnectedSession.step server accept connected' input).2 =
          (ConnectedSession.step server accept connected input).2 ∧
        Alike behind behind' after (ConnectedSession.step server accept connected input).1
          (ConnectedSession.step server accept connected' input).1 := by
  rcases halike.read input.1 with hreached | ⟨hresult, hrest⟩
  · exact .inl (hreached ▸ passed_step_remaining server accept connected input)
  by_cases hupgrades : connected.Upgrades server accept input.1
  · exact .inl (passed_of_upgrades hupgrades _)
  -- without an upgrade the turn does not look at the handshake, and they do the same
  have hturn : connected'.turnOf accept input.1 =
      { connected.turnOf accept input.1 with
        handshake := (connected'.turnOf accept input.1).handshake } := by
    simp only [turnOf, hresult]
  have hnext : connected'.session.turn server (connected'.turnOf accept input.1)
        ⟨input.2 connected'.registry, []⟩ =
      connected.session.turn server (connected.turnOf accept input.1)
        ⟨input.2 connected.registry, []⟩ := by
    rw [halike.session, halike.registry, hturn]
    exact (turn_of_not_answersStarttls hupgrades _ _).1
  have hupgrades' : ¬ connected'.Upgrades server accept input.1 := by
    intro hanswers
    unfold Upgrades at hanswers
    rw [hturn, halike.session] at hanswers
    exact hupgrades ⟨hanswers.parsed, hanswers.plain, hanswers.available, hanswers.written⟩
  have hparsed : connected'.session.parsed (connected'.turnOf accept input.1) =
      connected.session.parsed (connected.turnOf accept input.1) := by
    rw [halike.session, hturn]
    rfl
  refine .inr ⟨?_, ?_, ?_, ?_⟩
  · simp only [ConnectedSession.step, hnext, hparsed]
  · simp only [ConnectedSession.step, hnext]
  · simp only [ConnectedSession.step, hnext]
  · rw [(step_of_not_upgrades hupgrades).2, (step_of_not_upgrades hupgrades').2]
    exact hrest

theorem Alike.run (server : Server R) (accept : TlsAccept)
    (halike : Alike behind behind' after connected connected') (inputs : List (Turn × (R → R))) :
    Passed (BufReader.remaining ⟨behind, after⟩)
        ((machine server accept).final connected inputs) ∨
      (machine server accept).transcript connected' inputs =
          (machine server accept).transcript connected inputs ∧
        Alike behind behind' after ((machine server accept).final connected inputs)
          ((machine server accept).final connected' inputs) := by
  induction inputs generalizing connected connected' with
  | nil => exact .inr ⟨rfl, halike⟩
  | cons input rest ih =>
      rw [Machine.final_cons, Machine.final_cons, Machine.transcript_cons, Machine.transcript_cons]
      rcases halike.step server accept input with hpassed | ⟨hsame, hnext⟩
      · exact .inl (Machine.final_invariant (fun _ _ _ hpassed => hpassed.step) hpassed)
      · rcases ih hnext with hpassed | ⟨htranscript, hlast⟩
        · exact .inl hpassed
        · refine .inr ⟨?_, hlast⟩
          exact congrArg₂ List.cons (congrArg (Prod.mk input) hsame) htranscript

/-- Where STARTTLS is answered with OK a line was read, and what is behind it was not
passed before. -/
theorem read_of_upgrades (hupgrades : connected.Upgrades server accept input.1) :
    ∃ line, connected.reader.readLine invalidUtf8 = (.ok line, (connected.read input.1).2) ∧
      line ≠ "" ∧ ¬ Passed (connected.read input.1).2.remaining connected := by
  obtain ⟨tagHistory, tag, hcourse⟩ := hupgrades.parsed
  obtain ⟨text, htext⟩ := lineOf_of_starttls hcourse
  have hwaits := waits_of_lineOf htext
  obtain ⟨line, hread, hne⟩ := readLine_of_lineOf htext
  refine ⟨line, hread, hne, ?_⟩
  rintro (hended | htls | hless)
  · obtain ⟨result, hsome⟩ := Option.ne_none_iff_exists'.mp hended
    simp [Session.waits, hsome] at hwaits
  · rw [hupgrades.plain] at htls
    cases htls
  · exact absurd (BufReader.remaining_lt_of_readLine hread hne) (Nat.lt_asymm hless)

/-- Two runs that differ only in what is buffered behind the line of STARTTLS are in the
same state after the upgrade. -/
theorem Alike.upgrade (hupgrades : connected.Upgrades server accept input.1)
    {decrypted : ByteStream Error}
    (haccept : accept (connected.read input.1).2.inner = .ok decrypted)
    (halike : Alike (connected.read input.1).2.buffer behind' (connected.read input.1).2.inner
      connected connected') :
    ConnectedSession.step server accept connected' input =
      ConnectedSession.step server accept connected input := by
  obtain ⟨line, hread, hne, -⟩ := read_of_upgrades hupgrades
  rcases halike.read input.1 with hreached | ⟨hresult, hrest⟩
  · -- reading a line would have left as much as there was
    have hless := BufReader.remaining_lt_of_readLine hread hne
    rw [hreached] at hless
    exact absurd hless (Nat.lt_irrefl _)
  have hrest' : (connected'.read input.1).2 = ⟨behind', (connected.read input.1).2.inner⟩ :=
    hrest.of_reached rfl
  have hupgraded : upgradeToTls accept (connected'.read input.1).2 =
      upgradeToTls accept (connected.read input.1).2 := by
    rw [hrest']
    rfl
  have hturn : connected'.turnOf accept input.1 = connected.turnOf accept input.1 := by
    simp only [turnOf, hresult, hupgraded]
  have hreader (after : Session) (htls : after.isTls = true) :
      readerAfter accept connected.session after (connected'.read input.1).2 =
        readerAfter accept connected.session after (connected.read input.1).2 := by
    have hplain : connected.session.isTls = false := hupgrades.plain
    have hdecrypted : upgradeToTls accept (connected.read input.1).2 = .ok (.new decrypted) := by
      rw [upgradeToTls, BufReader.intoInner, haccept]
    simp [readerAfter, hplain, htls, hupgraded, hdecrypted]
  have htls := (step_of_upgrades_ok hupgrades haccept).1
  simp only [ConnectedSession.step, halike.session, halike.registry, hturn] at htls ⊢
  rw [hreader _ htls]

/-! ## After the upgrade -/

/-- The session is encrypted, and unless it has ended what it has still to read is the
rest of this. -/
structure ReadsFrom (stream : List UInt8) (connected : ConnectedSession R) : Prop where
  isTls : connected.session.isTls = true
  pending : connected.session.ended = none → connected.reader.pending <:+ stream

variable {stream : List UInt8}

theorem ReadsFrom.not_upgrades (hreads : ReadsFrom stream connected) (server : Server R)
    (accept : TlsAccept) (turn : Turn) : ¬ connected.Upgrades server accept turn := by
  intro hupgrades
  have hplain := hupgrades.plain
  rw [hreads.isTls] at hplain
  cases hplain

theorem ReadsFrom.step (hreads : ReadsFrom stream connected) :
    ReadsFrom stream (step server accept connected input).1 := by
  obtain ⟨htls, hreader⟩ := step_of_not_upgrades (hreads.not_upgrades server accept input.1)
  refine ⟨htls.trans hreads.isTls, fun hended => ?_⟩
  rcases ended_or_read server accept connected input with
    hnot | ⟨hbefore, line, hread, -⟩
  · exact absurd hended hnot
  · rw [hreader]
    have hrest : (connected.read input.1).2.pending <:+ connected.reader.pending :=
      ⟨_, (BufReader.append_of_readLine hread).1⟩
    exact hrest.trans (hreads.pending hbefore)

theorem ReadsFrom.parsed (hreads : ReadsFrom stream connected) {commandLine : String}
    (hparsed : (ConnectedSession.step server accept connected input).2.parsed = some commandLine) :
    asBytes commandLine <:+: stream := by
  obtain ⟨hwaits, line, hline, hpiece⟩ := infix_of_parsed hparsed
  have hended : connected.session.ended = none := by
    cases hended : connected.session.ended with
    | none => rfl
    | some result => simp [Session.waits, hended] at hwaits
  have hread := readLine_of_waits hwaits hline
  have hfirst : asBytes line <+: connected.reader.pending :=
    ⟨_, (BufReader.append_of_readLine hread).1⟩
  exact (infix_asBytes hpiece).trans (hfirst.isInfix.trans (hreads.pending hended).isInfix)

theorem ReadsFrom.transcript (hreads : ReadsFrom stream connected)
    (inputs : List (Turn × (R → R))) :
    ∀ entry ∈ (machine server accept).transcript connected inputs, ∀ commandLine,
      entry.2.parsed = some commandLine → asBytes commandLine <:+: stream := by
  induction inputs generalizing connected with
  | nil => exact fun entry hentry => absurd hentry List.not_mem_nil
  | cons input rest ih =>
      rw [Machine.transcript_cons]
      intro entry hentry commandLine hparsed
      rcases List.mem_cons.mp hentry with rfl | hentry
      · exact hreads.parsed hparsed
      · exact ih hreads.step entry hentry commandLine hparsed

theorem transcript_of_ended {result : Result Unit} (hended : connected.session.ended = some result)
    (inputs : List (Turn × (R → R))) :
    (∀ entry ∈ (machine server accept).transcript connected inputs, entry.2 = ⟨[], none⟩) ∧
      ((machine server accept).final connected inputs).session = connected.session := by
  induction inputs generalizing connected with
  | nil => exact ⟨fun entry hentry => absurd hentry List.not_mem_nil, rfl⟩
  | cons input rest ih =>
      have hstep : (machine server accept).step connected input = _ := step_of_ended hended
      have hnext : { connected with registry := input.2 connected.registry }.session.ended =
        some result := hended
      rw [Machine.transcript_cons, Machine.final_cons, hstep]
      obtain ⟨hquiet, hsession⟩ := ih hnext
      refine ⟨fun entry hentry => ?_, hsession⟩
      rcases List.mem_cons.mp hentry with rfl | hentry
      · rfl
      · exact hquiet entry hentry

/--
The bytes behind STARTTLS.  On every connection, however its input is cut into pieces,
and whatever other sessions do: when STARTTLS has been answered with OK and the
handshake succeeds, all that is handed to `parse_command` from then on are pieces of
the decrypted stream, and a run on a connection that differs only in what was buffered
behind the line of STARTTLS does the same throughout.  When the handshake fails, the
session has ended, and no turn does anything or hands anything to `parse_command`.
-/
theorem starttls_discards_buffered (server : Server R) (accept : TlsAccept)
    (start : ConnectedSession R) (earlier : List (Turn × (R → R))) (input : Turn × (R → R))
    (hupgrades : ((machine server accept).final start earlier).Upgrades server accept input.1) :
    let connected := (machine server accept).final start earlier
    let rest := (connected.read input.1).2
    let upgraded := ((machine server accept).step connected input).1
    (∀ decrypted, accept rest.inner = .ok decrypted →
      (∀ later, ∀ entry ∈ (machine server accept).transcript upgraded later, ∀ commandLine,
        entry.2.parsed = some commandLine → asBytes commandLine <:+: decrypted.bytes) ∧
      ∀ behind' reader',
        BufReader.DifferBehind rest.buffer behind' rest.inner start.reader reader' → ∀ later,
          (machine server accept).transcript { start with reader := reader' }
              (earlier ++ input :: later) =
            (machine server accept).transcript start (earlier ++ input :: later) ∧
          (machine server accept).final { start with reader := reader' }
              (earlier ++ input :: later) =
            (machine server accept).final start (earlier ++ input :: later)) ∧
    ∀ cause, accept rest.inner = .error cause →
      upgraded.session.ended = some (.error (.tlsError ("TLS handshake failed: " ++ cause))) ∧
      ∀ later,
        (∀ entry ∈ (machine server accept).transcript upgraded later, entry.2 = ⟨[], none⟩) ∧
          ((machine server accept).final upgraded later).session = upgraded.session := by
  intro connected rest upgraded
  refine ⟨fun decrypted haccept => ⟨?_, ?_⟩, fun cause haccept => ?_⟩
  · obtain ⟨htls, hreader⟩ := step_of_upgrades_ok hupgrades haccept
    have hreads : ReadsFrom decrypted.bytes upgraded :=
      ⟨htls, fun _ => by
        change (step server accept connected input).1.reader.pending <:+ decrypted.bytes
        rw [hreader]
        exact List.suffix_refl _⟩
    exact hreads.transcript
  · intro behind' reader' hdiffer later
    have hstart : Alike rest.buffer behind' rest.inner start { start with reader := reader' } :=
      ⟨rfl, rfl, hdiffer⟩
    obtain ⟨line, -, -, hnot⟩ := read_of_upgrades hupgrades
    rcases hstart.run server accept earlier with hpassed | ⟨htranscript, halike⟩
    · exact absurd hpassed hnot
    · have hstep := halike.upgrade hupgrades haccept
      rw [Machine.transcript_append, Machine.transcript_append, Machine.final_append,
        Machine.final_append, Machine.transcript_cons, Machine.transcript_cons, Machine.final_cons,
        Machine.final_cons, htranscript]
      change _ ++ ((input, (step server accept _ input).2) ::
        (machine server accept).transcript (step server accept _ input).1 later) = _ ∧
          (machine server accept).final (step server accept _ input).1 later = _
      rw [hstep]
      exact ⟨rfl, rfl⟩
  · have hended := step_of_upgrades_error hupgrades haccept
    exact ⟨hended, transcript_of_ended hended⟩

end Steps

/-- A client that sends STARTTLS and something behind it in one piece, and goes on with
a handshake and an encrypted NOOP. -/
def impatient (behind : String) : ConnectedSession InMemoryMailboxes where
  session := .new 0 3600 1800 false
  reader := .new [.ok (asBytes "a1 STARTTLS\r\n" ++ asBytes behind), .ok [22, 3, 1],
    .ok (asBytes "a2 NOOP\r\n")]
  registry := .new

/-- A handshake that consists of one record; the rest is taken as it is. -/
def acceptHello : TlsAccept
  | .ok (22 :: _) :: records => .ok records
  | _ => .error "unexpected record"

/-- The law for a client that sends LOGIN behind STARTTLS: it might as well have sent
nothing there. -/
theorem starttls_discards_buffered_login :
    let _ := UnicodeCase.ascii
    let server := imapServer (inMemoryMailboxes .searching .listed) true
    let input : Turn × (InMemoryMailboxes → InMemoryMailboxes) :=
      (.smooth (fun _ => .ok true) "", id)
    (∀ entry ∈ (machine server acceptHello).transcript
        ((machine server acceptHello).step (impatient "a2 LOGIN ann x\r\n") input).1 [input, input],
      ∀ commandLine, entry.2.parsed = some commandLine →
        asBytes commandLine <:+: asBytes "a2 NOOP\r\n") ∧
    (machine server acceptHello).transcript (impatient "") [input, input, input] =
      (machine server acceptHello).transcript (impatient "a2 LOGIN ann x\r\n")
        [input, input, input] := by
  intro _ server input
  have hline : (impatient "a2 LOGIN ann x\r\n").session.lineOf
      ((impatient "a2 LOGIN ann x\r\n").turnOf acceptHello input.1) = some "a1 STARTTLS" := by
    decide +kernel
  have hcourse : ∃ tagHistory tag, (impatient "a2 LOGIN ann x\r\n").session.course
      ((impatient "a2 LOGIN ann x\r\n").turnOf acceptHello input.1) =
        .starttls tagHistory tag := by
    have hsplit : splitn2 ' ' "a1 STARTTLS" = ["a1", "STARTTLS"] := by decide +kernel
    have hparse : parseCommand "a1" "STARTTLS" = .ok .starttls := by decide +kernel
    rw [Session.course, hline]
    dsimp only
    rw [Session.lineCourse, hsplit]
    dsimp only
    rw [hparse]
    exact ⟨_, _, rfl⟩
  have hupgrades : (impatient "a2 LOGIN ann x\r\n").Upgrades server acceptHello input.1 :=
    ⟨hcourse, rfl, rfl, rfl⟩
  have hbuffer : ((impatient "a2 LOGIN ann x\r\n").read input.1).2.buffer =
      asBytes "a2 LOGIN ann x\r\n" := by decide +kernel
  have hinner : ((impatient "a2 LOGIN ann x\r\n").read input.1).2.inner =
      [.ok [22, 3, 1], .ok (asBytes "a2 NOOP\r\n")] := by decide +kernel
  have hdiffer : BufReader.DifferBehind ((impatient "a2 LOGIN ann x\r\n").read input.1).2.buffer
      (asBytes "") ((impatient "a2 LOGIN ann x\r\n").read input.1).2.inner
      (impatient "a2 LOGIN ann x\r\n").reader (impatient "").reader := by
    rw [hbuffer, hinner]
    exact .coming [] (.inr ⟨asBytes "a1 STARTTLS\r", by decide +kernel⟩) (by decide +kernel)
  have hlaw := (starttls_discards_buffered server acceptHello
    (impatient "a2 LOGIN ann x\r\n") [] input hupgrades).1
  simp only [Machine.final_nil, List.nil_append] at hlaw
  obtain ⟨hpieces, hsame⟩ := hlaw [.ok (asBytes "a2 NOOP\r\n")] (by rw [hinner]; rfl)
  exact ⟨hpieces [input, input], (hsame _ _ hdiffer [input, input]).1⟩

end ConnectedSession

end Scuttled
