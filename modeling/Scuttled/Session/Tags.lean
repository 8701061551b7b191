import Scuttled.Session.Course

/-!
# The tags of a session

A turn registers the tag of the line it processes, whatever handlers there are,
and does nothing else to the history of tags.
-/

namespace Scuttled

open Rust Foundation

/-! ## Sessions that differ in their tags -/

/-- The sessions agree in everything but the tags they have seen. -/
def Session.SameButTags (session session' : Session) : Prop :=
  session' = { session with tagHistory := session'.tagHistory }

theorem Session.SameButTags.symm {session session' : Session}
    (hsame : session.SameButTags session') : session'.SameButTags session := by
  unfold Session.SameButTags at hsame ⊢
  rw [hsame]

/-- The tag of the line a turn brings. -/
def Turn.tag (turn : Turn) : Option String :=
  match turn.read with
  | .error _ => none
  | .ok buffer =>
      match splitn2 ' ' (Session.stripNewline buffer) with
      | [tag, _] => some tag
      | _ => none

/-- The tag of the line a session processes in a turn. -/
def Session.tagOf (session : Session) (turn : Turn) : Option String :=
  match session.lineOf turn with
  | none => none
  | some line =>
      match splitn2 ' ' line with
      | [tag, _] => some tag
      | _ => none

/-! ## Sessions that register alike do alike -/

/-- The registration of the tag of the line a session processes in a turn. -/
def Session.registered (session : Session) (turn : Turn) : Result Unit × TagHistory :=
  match session.tagOf turn with
  | some tag => session.tagHistory.register tag
  | none => (.ok (), session.tagHistory)

/-- The same plan, its tags replaced. -/
def Plan.withHistory (tagHistory : TagHistory) : Plan → Plan
  | .refuse _ response => .refuse tagHistory response
  | .starttls _ tag => .starttls tagHistory tag
  | .dispatch _ tag decision => .dispatch tagHistory tag decision
  | .idle => .idle
  | .finish farewell result => .finish farewell result

theorem commandPlan_withHistory (tagHistory tagHistory' : TagHistory) (tag : String)
    (currentState : SessionState) (command : Command) :
    (commandPlan tagHistory tag currentState command).withHistory tagHistory' =
      commandPlan tagHistory' tag currentState command := by
  cases command <;> simp only [commandPlan] <;> first | rfl | (split <;> rfl)

theorem register_error {tag : String} {tagHistory tagHistory' : TagHistory} {error : Error}
    (hregister : tagHistory.register tag = (.error error, tagHistory')) :
    tagHistory' = tagHistory := by
  unfold TagHistory.register at hregister
  split at hregister
  · exact (Prod.mk.inj hregister).2.symm
  · split at hregister
    · exact (Prod.mk.inj hregister).2.symm
    · cases (Prod.mk.inj hregister).1

section Same

variable {R : Type} {mailboxes : Mailboxes R} {tlsAcceptor : Bool} {session session' : Session}
  {turn : Turn} {registry : R}

theorem lineOf_of_same (hsame : session.SameButTags session') (turn : Turn) :
    session'.lineOf turn = session.lineOf turn := by
  rw [hsame]
  rfl

theorem tagOf_of_same (hsame : session.SameButTags session') (turn : Turn) :
    session'.tagOf turn = session.tagOf turn := by
  rw [Session.tagOf, lineOf_of_same hsame, Session.tagOf]

/-- Sessions that register the tag of a line alike plan the turn alike. -/
theorem plan_of_same [UnicodeCase] (hsame : session.SameButTags session')
    (hregister : (session'.registered turn).1 = (session.registered turn).1) :
    session'.plan turn = (session.plan turn).withHistory (session'.registered turn).2 := by
  have hstate : session'.sessionState = session.sessionState := by rw [hsame]
  unfold Session.registered at hregister ⊢
  rw [tagOf_of_same hsame] at hregister ⊢
  unfold Session.tagOf at hregister ⊢
  unfold Session.plan
  rw [lineOf_of_same hsame]
  cases hline : session.lineOf turn with
  | none =>
      rw [hsame]
      simp only
      split
      · rfl
      · split
        · rfl
        · split <;> rfl
  | some line =>
      simp only [hline] at hregister ⊢
      unfold Session.linePlan
      rcases hsplit : splitn2 ' ' line with _ | ⟨tag, _ | ⟨commandLine, _ | ⟨extra, others⟩⟩⟩
      · rfl
      · rfl
      · simp only [hsplit] at hregister ⊢
        rcases hfirst : session.tagHistory.register tag with ⟨error | accepted, tagHistory⟩
        · rw [hfirst] at hregister
          rcases hsecond : session'.tagHistory.register tag with ⟨error' | accepted, tagHistory'⟩
          · rw [hsecond] at hregister
            obtain rfl : error' = error := by simpa using hregister
            simp only [Plan.withHistory, register_error hsecond]
          · rw [hsecond] at hregister
            cases hregister
        · rw [hfirst] at hregister
          rcases hsecond : session'.tagHistory.register tag with ⟨error' | accepted, tagHistory'⟩
          · rw [hsecond] at hregister
            cases hregister
          · simp only
            cases parseCommand tag commandLine with
            | error error => rfl
            | ok command =>
                simp only [hstate, commandPlan_withHistory]
      · rfl

theorem tagHistory_advance (session : Session) (next : Option SessionState) :
    (session.advance next).tagHistory = session.tagHistory := by
  rcases next with _ | _ | _ | _ | _ <;> rfl

theorem advance_of_same (hsame : session.SameButTags session') (next : Option SessionState) :
    (session.advance next).SameButTags (session'.advance next) := by
  unfold Session.SameButTags at hsame ⊢
  rw [hsame]
  rcases next with _ | _ | _ | _ | _ <;> rfl

def Plan.history (session : Session) : Plan → TagHistory
  | .refuse tagHistory _ => tagHistory
  | .starttls tagHistory _ => tagHistory
  | .dispatch tagHistory _ _ => tagHistory
  | .idle => session.tagHistory
  | .finish _ _ => session.tagHistory

theorem tagHistory_planOutcome (plan : Plan) :
    (plan.outcome mailboxes tlsAcceptor session turn registry).session.tagHistory =
      plan.history session := by
  cases plan with
  | idle => rfl
  | finish farewell result => rfl
  | refuse tagHistory response => rfl
  | starttls tagHistory tag =>
      simp only [Plan.outcome, starttlsOutcome, Plan.history]
      split
      · rfl
      · split
        · rfl
        · split <;> rfl
  | dispatch tagHistory tag decision =>
      simp only [Plan.outcome, Plan.history]
      rcases session_reply (decision.answer (turn.context mailboxes) registry).1
        ⟨session.isTls, turn.writeError⟩ { session with tagHistory }
        (decision.answer (turn.context mailboxes) registry).2 tag
        (decision.asked (turn.context mailboxes)) with hsame | ⟨replied, -, hnext⟩
      · rw [hsame]
      · rw [hnext, tagHistory_advance]

theorem history_commandPlan (tagHistory : TagHistory) (tag : String)
    (currentState : SessionState) (command : Command) :
    (commandPlan tagHistory tag currentState command).history session = tagHistory := by
  cases command <;> simp only [commandPlan] <;> first | rfl | (split <;> rfl)

theorem tagHistory_outcome [UnicodeCase] :
    (session.outcome mailboxes tlsAcceptor turn registry).session.tagHistory =
      (session.registered turn).2 := by
  rw [Session.outcome, tagHistory_planOutcome]
  unfold Session.plan Session.registered Session.tagOf
  cases session.lineOf turn with
  | none =>
      simp only
      split
      · rfl
      · split
        · rfl
        · split <;> rfl
  | some line =>
      unfold Session.linePlan
      simp only
      rcases splitn2 ' ' line with _ | ⟨tag, _ | ⟨commandLine, _ | ⟨extra, others⟩⟩⟩
      · rfl
      · rfl
      · simp only
        rcases hregister : session.tagHistory.register tag with ⟨error | accepted, tagHistory⟩
        · rw [register_error hregister]
          rfl
        · simp only
          cases parseCommand tag commandLine with
          | error error => rfl
          | ok command => exact history_commandPlan _ _ _ _
      · rfl

/-- Outcomes of plans that differ in their tags differ in their tags. -/
theorem outcome_withHistory (hsame : session.SameButTags session') (tagHistory : TagHistory)
    (plan : Plan) :
    ((plan.withHistory tagHistory).outcome mailboxes tlsAcceptor session' turn registry).trace =
        (plan.outcome mailboxes tlsAcceptor session turn registry).trace ∧
      ((plan.withHistory tagHistory).outcome mailboxes tlsAcceptor session' turn registry).registry =
        (plan.outcome mailboxes tlsAcceptor session turn registry).registry ∧
      (plan.outcome mailboxes tlsAcceptor session turn registry).session.SameButTags
        ((plan.withHistory tagHistory).outcome mailboxes tlsAcceptor session' turn
          registry).session := by
  rw [hsame]
  cases plan with
  | idle => exact ⟨rfl, rfl, rfl⟩
  | finish farewell result => exact ⟨rfl, rfl, rfl⟩
  | refuse _ response => exact ⟨rfl, rfl, rfl⟩
  | starttls _ tag =>
      simp only [Plan.withHistory, Plan.outcome, starttlsOutcome]
      split
      · exact ⟨rfl, rfl, rfl⟩
      · split
        · exact ⟨rfl, rfl, rfl⟩
        · split <;> exact ⟨rfl, rfl, rfl⟩
  | dispatch _ tag decision =>
      simp only [Plan.withHistory, Plan.outcome, Reply.outcome]
      cases (decision.answer (turn.context mailboxes) registry).1 with
      | error error => exact ⟨rfl, rfl, rfl⟩
      | ok reply =>
          simp only
          split
          · refine ⟨rfl, rfl, advance_of_same ?_ _⟩
            unfold Session.SameButTags
            rfl
          · exact ⟨rfl, rfl, rfl⟩

/-- Sessions that agree but for their tags, and register the tag of the line
alike, act alike and agree afterwards. -/
theorem outcome_of_same [UnicodeCase] (mailboxes : Mailboxes R) (tlsAcceptor : Bool)
    (registry : R) (hsame : session.SameButTags session')
    (hregister : (session'.registered turn).1 = (session.registered turn).1) :
    (session'.outcome mailboxes tlsAcceptor turn registry).trace =
        (session.outcome mailboxes tlsAcceptor turn registry).trace ∧
      (session'.outcome mailboxes tlsAcceptor turn registry).registry =
        (session.outcome mailboxes tlsAcceptor turn registry).registry ∧
      (session.outcome mailboxes tlsAcceptor turn registry).session.SameButTags
        (session'.outcome mailboxes tlsAcceptor turn registry).session := by
  unfold Session.outcome
  rw [plan_of_same hsame hregister]
  exact outcome_withHistory hsame _ _

end Same

/-! ## The tags of any server -/

section Server

variable {R : Type} {server : Server R} {session : Session} {turn : Turn} {registry : R}

def Course.history (session : Session) : Course → TagHistory
  | .refuse tagHistory _ => tagHistory
  | .starttls tagHistory _ => tagHistory
  | .delegate tagHistory _ _ _ => tagHistory
  | .idle => session.tagHistory
  | .finish _ _ => session.tagHistory

theorem tagHistory_execute [UnicodeCase] (course : Course) (world : World R) :
    (course.execute server session turn world).1.tagHistory = course.history session := by
  cases course with
  | idle => rfl
  | finish farewell result => cases farewell <;> rfl
  | refuse tagHistory response => rfl
  | starttls tagHistory tag =>
      obtain ⟨isTls, ended, hsession⟩ := handleStarttls_cases { session with tagHistory } turn
        server.tlsAcceptor tag ⟨session.isTls, turn.writeError⟩ world
      rw [Course.execute, hsession]
      rfl
  | delegate tagHistory tag name args =>
      simp only [Course.execute, stateM_bind, Course.history]
      exact tagHistory_advance _ _

/-- The tags after a turn are those the line's tag was registered in, whatever
the handlers do. -/
theorem tagHistory_turn [UnicodeCase] (world : World R) :
    (session.turn server turn world).1.tagHistory = (session.registered turn).2 := by
  rw [turn_course, tagHistory_execute]
  unfold Session.course Session.registered Session.tagOf
  cases session.lineOf turn with
  | none =>
      simp only
      split
      · rfl
      · split
        · rfl
        · split <;> rfl
  | some line =>
      unfold Session.lineCourse
      simp only
      rcases splitn2 ' ' line with _ | ⟨tag, _ | ⟨commandLine, _ | ⟨extra, others⟩⟩⟩
      · rfl
      · rfl
      · simp only
        rcases hregister : session.tagHistory.register tag with ⟨error | accepted, tagHistory⟩
        · rw [register_error hregister]
          rfl
        · simp only
          cases parseCommand tag commandLine with
          | error error => rfl
          | ok command => cases command <;> rfl
      · rfl

end Server

/-! ## The tags of a run -/

variable {Id : Type} [DecidableEq Id]

/-- The tags of the lines a session is sent in a run. -/
def tagsOf (id : Id) (inputs : List (Id × Turn)) : Finset String :=
  (inputs.filterMap fun input => if input.1 = id then input.2.tag else none).toFinset

theorem mem_tagsOf {id : Id} {inputs : List (Id × Turn)} {turn : Turn}
    (hinput : (id, turn) ∈ inputs) {tag : String} (htag : turn.tag = some tag) :
    tag ∈ tagsOf id inputs := by
  rw [tagsOf, List.mem_toFinset, List.mem_filterMap]
  exact ⟨(id, turn), hinput, by simpa using htag⟩

theorem tag_of_tagOf {session : Session} {turn : Turn} {tag : String}
    (htag : session.tagOf turn = some tag) : turn.tag = some tag := by
  unfold Session.tagOf at htag
  cases hline : session.lineOf turn with
  | none => simp [hline] at htag
  | some line =>
      obtain ⟨buffer, hread, rfl⟩ := read_of_lineOf hline
      rw [hline] at htag
      simpa [Turn.tag, hread] using htag

theorem tagOf_of_lineOf {session : Session} {turn : Turn} {line : String}
    (hline : session.lineOf turn = some line) : session.tagOf turn = turn.tag := by
  obtain ⟨buffer, hread, rfl⟩ := read_of_lineOf hline
  rw [Session.tagOf, hline, Turn.tag, hread]

/-- A history whose tags stay within a set of at most as many tags as it may
hold. -/
structure TagHistory.Within (tags : Finset String) (history : TagHistory) : Prop where
  subset : history.tags ⊆ tags
  card_le : tags.card ≤ history.maxSize

theorem TagHistory.Within.register_eq {tags : Finset String} {history : TagHistory}
    (hhistory : history.Within tags) {tag : String} (htag : tag ∈ tags) :
    history.register tag =
      if tag ∈ history.tags then (.error (.protocolError ("Duplicate tag: " ++ tag)), history)
      else (.ok (), { history with tags := insert tag history.tags }) := by
  unfold TagHistory.register
  split
  · rfl
  · rename_i hnew
    have hlt : history.tags.card < tags.card :=
      Finset.card_lt_card ⟨hhistory.subset, fun hback => hnew (hback htag)⟩
    rw [if_neg (by have := hhistory.card_le; omega)]

theorem TagHistory.Within.register {tags : Finset String} {history : TagHistory}
    (hhistory : history.Within tags) {tag : String} (htag : tag ∈ tags) :
    (history.register tag).2.Within tags := by
  rw [hhistory.register_eq htag]
  split
  · exact hhistory
  · exact ⟨Finset.insert_subset htag hhistory.subset, hhistory.card_le⟩

end Scuttled
