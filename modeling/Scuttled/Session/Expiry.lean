import Mathlib.Data.List.Chain
import Scuttled.Session.Course

/-!
# Time limits

The loop takes the instant of the last interaction at its head, tests both
limits there, and only then waits for a line.  How long it waited is not looked
at before the line is processed.
-/

namespace Scuttled

open Rust Foundation

variable {R : Type}

/-! ## Lines that come late -/

/-- A turn, and the instant at which its line is there. -/
structure TimedTurn extends Turn where
  arrival : Nat

def Turn.BringsLine (turn : Turn) : Prop :=
  ∃ buffer, turn.read = .ok buffer ∧ (buffer == "") = false

/-- The turns without the instants of their lines. -/
def untimed {Id : Type} (inputs : List (Id × TimedTurn)) : List (Id × Turn) :=
  inputs.map fun input => (input.1, input.2.toTurn)

section Late

variable {Id : Type} [DecidableEq Id]

/-- The instant of the line a session was sent last, or of its start. -/
def lastLine (started : Id → Nat) (id : Id) (done : List (Id × TimedTurn)) : Nat :=
  ((done.filter fun input => input.1 = id).getLast?.map fun input => input.2.arrival).getD
    (started id)

/-- The line comes after one of the limits of the session has run out. -/
def ArrivesLate (started maxSession maxIdle : Id → Nat) (done : List (Id × TimedTurn))
    (input : Id × TimedTurn) : Prop :=
  input.2.arrival - lastLine started input.1 done > maxIdle input.1 ∨
    input.2.arrival - started input.1 > maxSession input.1

/-- The instants of a run of one session, as they are read. -/
def instants (started : Nat) (inputs : List (Unit × TimedTurn)) : List Nat :=
  started :: inputs.flatMap fun input =>
    [input.2.now, input.2.durationCheck, input.2.idleCheck, input.2.arrival]

end Late

/-- The turn does nothing but end the session with BYE. -/
def Session.EndsWithBye [UnicodeCase] (server : Server R) (session : Session) (turn : Turn)
    (registry : R) : Prop :=
  ∃ message, session.turn server turn ⟨registry, []⟩ =
    ({ session with ended := some (.error (.protocolError message)) },
      ⟨registry, (Connection.deliver ⟨session.isTls, turn.writeError⟩ 0 [.bye message]).1⟩)

/-! ## What ends a session with BYE -/

theorem ended_advance {session : Session} (hended : session.ended = none)
    (next : Option SessionState) (error : Error) :
    (session.advance next).ended ≠ some (.error error) := by
  rcases next with _ | _ | _ | _ | _
  case some.logout => simp [Session.advance]
  all_goals simp [Session.advance, hended]

theorem starttlsResponse_ne_bye (tag : String) (isTls tlsAcceptor : Bool) (message : String) :
    Session.starttlsResponse tag isTls tlsAcceptor ≠ .bye message := by
  unfold Session.starttlsResponse
  cases isTls <;> cases tlsAcceptor <;> simp

theorem deliver_singleton_inj {connection : Connection} {response response' : Response}
    (hsame : (connection.deliver 0 [response]).1 = (connection.deliver 0 [response']).1) :
    response = response' := by
  simp only [Connection.deliver] at hsame
  split at hsame
  · simpa using hsame
  · simpa using hsame

section Turn

variable [UnicodeCase] {server : Server R} {session : Session} {turn : Turn}

theorem lineCourse_ne_finish (session : Session) (line : String) (farewell : Option Response)
    (result : Result Unit) : session.lineCourse line ≠ .finish farewell result := by
  unfold Session.lineCourse
  split
  · split
    · simp
    · split
      · simp
      · rename_i command _
        cases command <;> simp [commandCourse]
  · simp

theorem not_endsWithBye_of_line {line : String} (hended : session.ended = none)
    (hline : session.lineOf turn = some line) (registry : R) :
    ¬ session.EndsWithBye server turn registry := by
  rintro ⟨message, hbye⟩
  rw [turn_course, Session.course, hline] at hbye
  dsimp only at hbye
  have hsession := congrArg (fun outcome => outcome.1.ended) hbye
  cases hcourse : session.lineCourse line with
  | idle =>
      rw [hcourse] at hsession
      exact absurd (hended.symm.trans hsession) (by simp)
  | finish farewell result => exact lineCourse_ne_finish session line farewell result hcourse
  | refuse tagHistory response =>
      rw [hcourse] at hsession
      exact absurd (hended.symm.trans hsession) (by simp)
  | starttls tagHistory tag =>
      rw [hcourse, Course.execute] at hbye
      dsimp only at hbye
      rw [handleStarttls_eq] at hbye
      have htrace := congrArg (fun outcome => outcome.2.trace) hbye
      simp only [trace_starttlsOutcome] at htrace
      exact starttlsResponse_ne_bye tag _ _ message (deliver_singleton_inj htrace)
  | delegate tagHistory tag name args =>
      rw [hcourse] at hsession
      simp only [Course.execute, stateM_bind] at hsession
      have hnew : ({ session with tagHistory } : Session).ended = none := hended
      exact ended_advance hnew _ _ hsession

/-- A turn that brings a line ends the session with BYE exactly if a limit has run
out at the head of the loop. -/
theorem endsWithBye_iff (hended : session.ended = none) (hline : turn.BringsLine) (registry : R) :
    session.EndsWithBye server turn registry ↔
      turn.durationCheck - session.sessionStarted > session.maxSessionDuration ∨
        turn.idleCheck - turn.now > session.maxIdleDuration := by
  constructor
  · intro hbye
    by_contra hexpired
    obtain ⟨hduration, hidle⟩ := not_or.mp hexpired
    obtain ⟨buffer, hread, hempty⟩ := hline
    have hlineOf : session.lineOf turn = some (Session.stripNewline buffer) := by
      rw [Session.lineOf, hended, if_neg (by simp), if_neg hduration, if_neg hidle, hread]
      simp only [hempty, Bool.false_eq_true, if_false]
    exact not_endsWithBye_of_line hended hlineOf registry hbye
  · intro hexpired
    obtain ⟨message, hcourse⟩ := course_of_expired hended hexpired
    refine ⟨message, ?_⟩
    rw [turn_course, hcourse]
    simp only [Course.execute, stateM_bind, writeIgnored_eq]
    rfl

end Turn

/-! ## Runs -/

section Runs

variable {Id : Type} [DecidableEq Id]

/--
Time limits.  In a run of the sessions of a server, with any handlers, every
line that comes late ends its session with BYE and nothing else, exactly if at
the head of the turn of each of them a limit had already run out: the duration
of the session before the wait for the line began, or the idle limit between
the two instants that are taken there one after the other.
-/
theorem late_lines_end_iff [UnicodeCase] (server : Server R) (started maxSession maxIdle : Id → Nat)
    (isTls : Id → Bool) (greeting : Id → Option Error) (registry : R)
    (inputs : List (Id × TimedTurn)) :
    let reached (done : List (Id × TimedTurn)) : System Id R :=
      (System.machine server).final (.new started maxSession maxIdle isTls greeting registry)
        (untimed done)
    let Late (done : List (Id × TimedTurn)) (input : Id × TimedTurn) : Prop :=
      ((reached done).sessions input.1).ended = none ∧ input.2.BringsLine ∧
        ArrivesLate started maxSession maxIdle done input
    (∀ done input rest, inputs = done ++ input :: rest → Late done input →
        ((reached done).sessions input.1).EndsWithBye server input.2.toTurn
          (reached done).registry) ↔
      ∀ done input rest, inputs = done ++ input :: rest → Late done input →
        input.2.durationCheck - started input.1 > maxSession input.1 ∨
          input.2.idleCheck - input.2.now > maxIdle input.1 := by
  intro reached Late
  have hends (done : List (Id × TimedTurn)) (input : Id × TimedTurn) (hlate : Late done input) :
      ((reached done).sessions input.1).EndsWithBye server input.2.toTurn
          (reached done).registry ↔
        input.2.durationCheck - started input.1 > maxSession input.1 ∨
          input.2.idleCheck - input.2.now > maxIdle input.1 := by
    obtain ⟨hstarted, hsession, hidle⟩ := limits_final server started maxSession maxIdle isTls
      greeting registry (untimed done) input.1
    rw [endsWithBye_iff hlate.1 hlate.2.1, hstarted, hsession, hidle]
  constructor
  · intro hall done input rest hinputs hlate
    exact (hends done input hlate).mp (hall done input rest hinputs hlate)
  · intro hall done input rest hinputs hlate
    exact (hends done input hlate).mpr (hall done input rest hinputs hlate)

/-- With an idle limit of 1800 a line that comes after 2000 is processed. -/
theorem late_line_is_processed :
    let _ := UnicodeCase.ascii
    let server := imapServer (inMemoryMailboxes .searching .listed) false
    let system : System Unit InMemoryMailboxes := .new (fun _ => 0) (fun _ => 3600)
      (fun _ => 1800) (fun _ => false) (fun _ => none) .new
    let turn : TimedTurn :=
      { Turn.smooth (fun _ => .ok true) "a1 LOGIN ann x\r\n" with arrival := 2000 }
    (instants 0 [((), turn)]).IsChain (· ≤ ·) ∧ (system.sessions ()).ended = none ∧
      turn.BringsLine ∧
      ArrivesLate (fun _ => 0) (fun _ => 3600) (fun _ => 1800) [] ((), turn) ∧
      ¬ (system.sessions ()).EndsWithBye server turn.toTurn system.registry := by
  intro _ server system turn
  have hline : turn.BringsLine := ⟨"a1 LOGIN ann x\r\n", rfl, by decide⟩
  refine ⟨by decide, rfl, hline, .inl (by decide), ?_⟩
  rw [endsWithBye_iff rfl hline]
  decide

end Runs

end Scuttled
