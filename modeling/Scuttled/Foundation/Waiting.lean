import Scuttled.Foundation.SharedObject

/-!
# Waiting for a shared object

The channel is first in, first out: while a call waits, the loop serves what was in the
channel before it, and nothing else.  So the loop answers every call that waits when it
has gone through the channel once, and nobody overtakes.
-/

namespace Scuttled.Foundation.Shared

variable {State Op Reply : Type} {service : Service State Op Reply} {first : State}
  {history : List (CallEvent Op Reply)} {shared shared' : Shared State Op Reply} {call : Nat}

/-! ## Places in the queue -/

/-- How many operations the loop has served. -/
def served (service : Service State Op Reply) (shared : Shared State Op Reply) : Nat :=
  shared.order.countP fun entry => !service.direct entry.2

/-- The channel holds no more than it can, and nothing that clients do themselves. -/
structure Bounded (service : Service State Op Reply) (shared : Shared State Op Reply) : Prop where
  length_le : shared.channel.length ≤ service.capacity
  byLoop : ∀ entry ∈ shared.pending, service.byClient entry.2 = false

/-- A call is in the queue, with so many operations served and requests ahead of it. -/
def Ahead (service : Service State Op Reply) (call total : Nat) (shared : Shared State Op Reply) :
    Prop :=
  ∃ ahead request behind, shared.pending = ahead ++ (call, request) :: behind ∧
    ahead.length + shared.served service = total

/-- A call that waited still waits in its place, or waits no more. -/
def Keeps (service : Service State Op Reply) (call total : Nat) (shared : Shared State Op Reply) :
    Prop :=
  ∃ stage, shared.calls[call]? = some stage ∧ (∀ request, stage ≠ .sending request) ∧
    (stage = .waiting → shared.Ahead service call total)

theorem bounded_new (service : Service State Op Reply) (first : State) :
    Bounded service (new first) := by
  constructor <;> simp [new, pending]

theorem serve_cases (service : Service State Op Reply) (call : Nat)
    (shared : Shared State Op Reply) (request : Request Op) :
    (∃ op, request = .operation op ∧
        (shared.serve service call request).channel = shared.channel ∧
        (shared.serve service call request).current = shared.current ∧
        (shared.serve service call request).order = shared.order ++ [(call, op)] ∧
        (shared.serve service call request).calls =
          (shared.reply call (service.object.step shared.state op).2).calls) ∨
      request = .shutdown ∧ shared.serve service call request = shared.stop := by
  cases request with
  | shutdown => exact .inr ⟨rfl, rfl⟩
  | operation op =>
      refine .inl ⟨op, rfl, ?_⟩
      simp only [serve, reply, apply]
      split <;> exact ⟨rfl, rfl, rfl, rfl⟩

theorem Bounded.step (hbounded : Bounded service shared) (event : SharedEvent Op) :
    Bounded service (shared.step service event).1 := by
  cases event with
  | call request => exact ⟨hbounded.length_le, hbounded.byLoop⟩
  | send call =>
      simp only [Shared.step]
      split
      · rename_i request hsending
        split
        · exact hbounded
        · rename_i hloop
          split
          · exact ⟨hbounded.length_le, hbounded.byLoop⟩
          · split
            · rename_i hroom
              constructor
              · rw [List.length_append, List.length_singleton]
                exact hroom
              · intro entry hentry
                rw [pending, ← List.append_assoc, List.mem_append, List.mem_singleton] at hentry
                rcases hentry with hentry | rfl
                · exact hbounded.byLoop entry hentry
                · exact Bool.eq_false_iff.mpr hloop
            · exact hbounded
      · exact hbounded
  | receive =>
      simp only [Shared.step]
      split
      · rename_i entry rest hcurrent hchannel
        have hpending : shared.pending = entry :: rest := by
          rw [pending, hcurrent, hchannel]
          rfl
        have hlength := hbounded.length_le
        rw [hchannel, List.length_cons] at hlength
        refine ⟨Nat.le_of_succ_le hlength, fun one hone => hbounded.byLoop one ?_⟩
        rw [hpending]
        exact hone
      · exact hbounded
  | process =>
      simp only [Shared.step]
      split
      · rename_i call request hcurrent
        obtain ⟨op, -, hchannel, hnone, -, -⟩ | ⟨-, hstop⟩ :=
          serve_cases service call { shared with current := none } request
        · constructor
          · rw [hchannel]
            exact hbounded.length_le
          · intro entry hentry
            rw [pending, hchannel, hnone] at hentry
            exact hbounded.byLoop entry (List.mem_append_right _ hentry)
        · rw [hstop]
          exact ⟨Nat.zero_le _, fun entry hentry => absurd hentry List.not_mem_nil⟩
      · exact hbounded
  | perform call =>
      simp only [Shared.step]
      split
      · split
        · exact ⟨hbounded.length_le, hbounded.byLoop⟩
        · exact hbounded
      · exact hbounded
  | take call =>
      simp only [Shared.step]
      split <;> exact ⟨hbounded.length_le, hbounded.byLoop⟩
  | abandon call =>
      simp only [Shared.step]
      split <;> exact ⟨hbounded.length_le, hbounded.byLoop⟩

theorem bounded_final (service : Service State Op Reply) (first : State)
    (events : List (SharedEvent Op)) :
    Bounded service ((machine service).final (new first) events) :=
  Machine.final_invariant (fun _ event _ hbounded => hbounded.step event)
    (bounded_new service first)

theorem Sound.keeps (hsound : Sound service first history shared)
    (hwaits : shared.calls[call]? = some .waiting) :
    ∃ total, shared.Ahead service call total ∧ total ≤
      shared.served service + (shared.pending.length - 1) := by
  obtain ⟨entry, hentry, rfl⟩ := List.mem_map.mp (hsound.queued call hwaits)
  obtain ⟨ahead, behind, hpending⟩ := List.append_of_mem hentry
  refine ⟨_, ⟨ahead, entry.2, behind, hpending, rfl⟩, ?_⟩
  rw [hpending, List.length_append, List.length_cons]
  omega

/-- A step that leaves the queue and the order as they are keeps every place, unless it
moves the call itself, and then not back into the queue. -/
theorem Keeps.of_stage {total : Nat} {stage next : CallStage Op Reply}
    (hahead : stage = .waiting → shared.Ahead service call total)
    (hcall : shared'.calls[call]? = some next)
    (hnext : next = stage ∨ (next ≠ .waiting ∧ ∀ request, next ≠ .sending request))
    (hstage : ∀ request, stage ≠ .sending request)
    (hkept : shared.Ahead service call total → shared'.Ahead service call total) :
    shared'.Keeps service call total := by
  rcases hnext with rfl | ⟨hwaits, hsending⟩
  · exact ⟨next, hcall, hstage, fun hwaiting => hkept (hahead hwaiting)⟩
  · exact ⟨next, hcall, hsending, fun hwaiting => absurd hwaiting hwaits⟩

theorem Ahead.served_head {total other : Nat} {op : Op} {channel : List (Nat × Request Op)}
    (hahead : shared.Ahead service call total)
    (hpending : shared.pending = (other, .operation op) :: channel) (hother : other ≠ call)
    (hloop : service.direct op = false) (horder : shared'.order = shared.order ++ [(other, op)])
    (hleft : shared'.pending = channel) : shared'.Ahead service call total := by
  obtain ⟨ahead, request, behind, hsplit, rfl⟩ := hahead
  rw [hpending] at hsplit
  cases ahead with
  | nil =>
      obtain ⟨hhead, -⟩ := List.cons_eq_cons.mp hsplit
      exact absurd (Prod.mk.inj hhead).1 hother
  | cons one ahead =>
      obtain ⟨-, hrest⟩ := List.cons_eq_cons.mp hsplit
      refine ⟨ahead, request, behind, hleft.trans hrest, ?_⟩
      simp only [served, horder, List.countP_append, List.countP_singleton, hloop, Bool.not_false,
        if_true, List.length_cons]
      omega

theorem getElem?_reply (answer : Reply) (other : Nat) (shared : Shared State Op Reply) :
    (shared.reply other answer).calls[call]? = shared.calls[call]? ∨
      other = call ∧ shared.calls[call]? = some .waiting ∧
        (shared.reply other answer).calls[call]? = some (.replied (some answer)) := by
  unfold reply
  split
  · rename_i hwaits
    rw [getElem?_set_stage hwaits]
    split
    · rename_i hsame
      exact .inr ⟨hsame, hsame ▸ hwaits, rfl⟩
    · exact .inl rfl
  · exact .inl rfl

theorem Keeps.step {total : Nat} (hbounded : Bounded service shared) (hkeeps : shared.Keeps service call total)
    (event : SharedEvent Op) : (shared.step service event).1.Keeps service call total := by
  obtain ⟨stage, hstage, hsending, hahead⟩ := hkeeps
  have hsame : shared.Keeps service call total := ⟨stage, hstage, hsending, hahead⟩
  have hset {other : Nat} {before : CallStage Op Reply} (hbefore : shared.calls[other]? = some before)
      (next : CallStage Op Reply) (hother : other ≠ call) :
      (shared.calls.set other next)[call]? = some stage := by
    rw [getElem?_set_stage hbefore, if_neg hother, hstage]
  cases event with
  | call request =>
      refine .of_stage hahead ?_ (.inl rfl) hsending id
      exact (List.getElem?_append_left (List.getElem?_eq_some_iff.mp hstage).1).trans hstage
  | send other =>
      simp only [Shared.step]
      split
      · rename_i request hother
        have hdifferent : other ≠ call := by
          rintro rfl
          exact hsending request (Option.some.inj (hstage.symm.trans hother))
        split
        · exact hsame
        · split
          · exact .of_stage hahead (hset hother _ hdifferent) (.inl rfl) hsending id
          · split
            · refine .of_stage hahead (hset hother _ hdifferent) (.inl rfl) hsending ?_
              rintro ⟨ahead, asked, behind, hpending, htotal⟩
              refine ⟨ahead, asked, behind ++ [(other, request)], ?_, htotal⟩
              have hgrown : shared.pending ++ [(other, request)] =
                  ahead ++ (call, asked) :: (behind ++ [(other, request)]) := by
                rw [hpending, List.append_assoc, List.cons_append]
              exact (List.append_assoc _ _ _).symm.trans hgrown
            · exact hsame
      · exact hsame
  | receive =>
      simp only [Shared.step]
      split
      · rename_i entry rest hcurrent hchannel
        refine .of_stage hahead hstage (.inl rfl) hsending ?_
        rintro ⟨ahead, asked, behind, hpending, htotal⟩
        refine ⟨ahead, asked, behind, hpending.symm ▸ ?_, htotal⟩
        rw [pending, pending, hcurrent, hchannel]
        rfl
      · exact hsame
  | process =>
      simp only [Shared.step]
      split
      · rename_i other request hcurrent
        have hpending : shared.pending = (other, request) :: shared.channel := by
          rw [pending, hcurrent]
          rfl
        obtain ⟨op, rfl, hchannel, hnone, horder, hcalls⟩ | ⟨-, hstop⟩ :=
          serve_cases service other { shared with current := none } request
        · rw [Keeps, hcalls]
          rcases getElem?_reply (service.object.step shared.state op).2 other
            { shared with current := none } with hkept | ⟨-, -, hreplied⟩
          · refine ⟨stage, hkept.trans hstage, hsending, fun hwaiting => ?_⟩
            refine (hahead hwaiting).served_head hpending ?_ ?_ horder ?_
            · rintro rfl
              have hwaits : ({ shared with current := none } : Shared State Op Reply).calls[other]? =
                  some .waiting := hwaiting ▸ hstage
              rw [reply_of_waiting hwaits, hwaits] at hkept
              have hreplied := (getElem?_set_stage hwaits _ other).symm.trans hkept
              rw [if_pos rfl] at hreplied
              cases hreplied
            · exact hbounded.byLoop (other, .operation op) (hpending ▸ List.mem_cons_self)
            · rw [pending, hchannel, hnone]
              rfl
          · exact ⟨_, hreplied, by simp, by simp⟩
        · rw [hstop, Keeps, stop, List.getElem?_map, hstage]
          cases stage with
          | sending asked => exact absurd rfl (hsending asked)
          | waiting | replied _ | returned | gone =>
              exact ⟨_, rfl, by simp [CallStage.dropped], by simp [CallStage.dropped]⟩
      · exact hsame
  | perform other =>
      simp only [Shared.step]
      split
      · rename_i op hother
        have hdifferent : other ≠ call := by
          rintro rfl
          exact hsending _ (Option.some.inj (hstage.symm.trans hother))
        split
        · rename_i hdirect
          refine .of_stage hahead (hset hother _ hdifferent) (.inl rfl) hsending ?_
          rintro ⟨ahead, asked, behind, hpending, htotal⟩
          refine ⟨ahead, asked, behind, hpending, ?_⟩
          rw [← htotal, served, served, apply, List.countP_append, List.countP_singleton]
          simp [hdirect]
        · exact hsame
      · exact hsame
  | take other =>
      simp only [Shared.step]
      split
      · rename_i answer hother
        by_cases hdifferent : other = call
        · subst hdifferent
          have hreturned := (getElem?_set_stage hother .returned other).trans (if_pos rfl)
          exact .of_stage hahead hreturned (.inr ⟨by simp, by simp⟩) hsending id
        · exact .of_stage hahead (hset hother _ hdifferent) (.inl rfl) hsending id
      · exact hsame
  | abandon other =>
      simp only [Shared.step]
      split
      · exact hsame
      · by_cases hdifferent : other = call
        · subst hdifferent
          have hgone := (getElem?_set_stage hstage .gone other).trans (if_pos rfl)
          exact .of_stage hahead hgone (.inr ⟨by simp, by simp⟩) hsending id
        · refine .of_stage hahead ?_ (.inl rfl) hsending id
          exact (List.getElem?_set_ne hdifferent).trans hstage

theorem Keeps.final {total : Nat} {events : List (SharedEvent Op)}
    (hkeeps : ((machine service).final (new first) events).Keeps service call total)
    (more : List (SharedEvent Op)) :
    ((machine service).final (new first) (events ++ more)).Keeps service call total := by
  induction more using List.reverseRecOn with
  | nil => rwa [List.append_nil]
  | append_singleton more event ih =>
      rw [← List.append_assoc, Machine.final_append]
      exact ih.step (bounded_final service first _) event

/-- While a call waits in the queue, the loop serves at most as many operations as the
channel holds. -/
theorem served_le_of_waiting (service : Service State Op Reply) (first : State)
    (events more : List (SharedEvent Op))
    (hwaits : ((machine service).final (new first) events).calls[call]? = some .waiting)
    (hstill : ((machine service).final (new first) (events ++ more)).calls[call]? =
      some .waiting) :
    ((machine service).final (new first) (events ++ more)).served service ≤
      ((machine service).final (new first) events).served service + service.capacity := by
  have hsound := sound_final service first events
  have hlength := (bounded_final service first events).length_le
  obtain ⟨total, hahead, htotal⟩ := hsound.keeps hwaits
  have hkeeps : ((machine service).final (new first) events).Keeps service call total :=
    ⟨.waiting, hwaits, by simp, fun _ => hahead⟩
  obtain ⟨stage, hstage, -, hplace⟩ := hkeeps.final more
  obtain ⟨ahead, request, behind, -, hsum⟩ :=
    hplace (Option.some.inj (hstage.symm.trans hstill))
  have hpending : ((machine service).final (new first) events).pending.length ≤
      service.capacity + 1 := by
    rw [pending, List.length_append]
    have hone : ((machine service).final (new first) events).current.toList.length ≤ 1 := by
      cases ((machine service).final (new first) events).current <;> simp
    omega
  omega

/-! ## Rounds of the loop -/

/-- The loop takes a request if it holds none, and serves it. -/
def round : List (SharedEvent Op) := [.receive, .process]

/-- A call that waits is answered in a round of the loop, or one operation more is served. -/
theorem round_of_waiting (hsound : Sound service first history shared)
    (hbounded : Bounded service shared) (hwaits : shared.calls[call]? = some .waiting) :
    (∃ answer, ((machine service).final shared round).calls[call]? = some (.replied answer)) ∨
      ((machine service).final shared round).calls[call]? = some .waiting ∧
        ((machine service).final shared round).served service = shared.served service + 1 := by
  obtain ⟨entry, rest, hpending⟩ : ∃ entry rest, shared.pending = entry :: rest :=
    List.exists_cons_of_ne_nil fun hnone => by simpa [hnone] using hsound.queued call hwaits
  obtain ⟨other, request⟩ := entry
  have hreceived : ∃ channel, (shared.step service .receive).1 =
      { shared with current := some (other, request), channel } := by
    simp only [Shared.step]
    split
    · rename_i entry rest' hcurrent hchannel
      rw [pending, hcurrent, hchannel] at hpending
      obtain ⟨rfl, -⟩ := List.cons_eq_cons.mp hpending
      exact ⟨rest', rfl⟩
    · rename_i hnot
      cases hcurrent : shared.current with
      | some entry =>
          rw [pending, hcurrent] at hpending
          obtain ⟨rfl, -⟩ := List.cons_eq_cons.mp hpending
          exact ⟨shared.channel, by rw [← hcurrent]⟩
      | none =>
          rw [pending, hcurrent] at hpending
          exact absurd hpending (hnot _ _ hcurrent)
  obtain ⟨channel, hreceived⟩ := hreceived
  have hround : (machine service).final shared round =
      Shared.serve service other { shared with current := none, channel } request := by
    change ((Shared.step service (shared.step service .receive).1 .process).1) = _
    rw [hreceived]
    rfl
  rw [hround]
  obtain ⟨op, rfl, -, -, horder, hcalls⟩ | ⟨-, hstop⟩ :=
    serve_cases service other { shared with current := none, channel } request
  · rw [hcalls]
    rcases getElem?_reply (service.object.step shared.state op).2 other
      { shared with current := none, channel } with hkept | ⟨-, -, hreplied⟩
    · refine .inr ⟨hkept.trans hwaits, ?_⟩
      have hloop : service.direct op = false :=
        hbounded.byLoop (other, .operation op) (hpending ▸ List.mem_cons_self)
      rw [served, horder, List.countP_append, List.countP_singleton, hloop]
      rfl
    · exact .inl ⟨_, hreplied⟩
  · rw [hstop, stop, List.getElem?_map, hwaits]
    exact .inl ⟨none, rfl⟩

theorem replied_round {answer : Option Reply}
    (hreplied : shared.calls[call]? = some (.replied answer)) :
    ((machine service).final shared round).calls[call]? = some (.replied answer) := by
  have hreceive : (shared.step service .receive).1.calls[call]? = some (.replied answer) := by
    simp only [Shared.step]
    split <;> exact hreplied
  change (Shared.step service (shared.step service .receive).1 .process).1.calls[call]? = _
  generalize (shared.step service .receive).1 = received at hreceive ⊢
  simp only [Shared.step]
  split
  · rename_i other request hcurrent
    obtain ⟨op, -, -, -, -, hcalls⟩ | ⟨-, hstop⟩ :=
      serve_cases service other { received with current := none } request
    · rw [hcalls]
      rcases getElem?_reply (service.object.step received.state op).2 other
        { received with current := none } with hkept | ⟨-, hwaits, -⟩
      · exact hkept.trans hreceive
      · cases hwaits.symm.trans hreceive
    · rw [hstop, stop, List.getElem?_map, hreceive]
      rfl
  · exact hreceive

theorem replied_of_rounds (service : Service State Op Reply) (first : State)
    (events : List (SharedEvent Op))
    (hwaits : ((machine service).final (new first) events).calls[call]? = some .waiting) :
    ∃ answer, ((machine service).final (new first)
      (events ++ (List.replicate (service.capacity + 1) round).flatten)).calls[call]? =
        some (.replied answer) := by
  have hrounds (count : Nat) :
      (∃ answer, ((machine service).final (new first)
          (events ++ (List.replicate count round).flatten)).calls[call]? =
            some (.replied answer)) ∨
        ((machine service).final (new first)
            (events ++ (List.replicate count round).flatten)).calls[call]? = some .waiting ∧
          ((machine service).final (new first)
              (events ++ (List.replicate count round).flatten)).served service =
            ((machine service).final (new first) events).served service + count := by
    induction count with
    | zero => exact .inr ⟨by simpa using hwaits, by simp⟩
    | succ count ih =>
        rw [List.replicate_succ', List.flatten_append, List.flatten_singleton,
          ← List.append_assoc, Machine.final_append]
        rcases ih with ⟨answer, hreplied⟩ | ⟨hstill, hserved⟩
        · exact .inl ⟨answer, replied_round hreplied⟩
        · rcases round_of_waiting (sound_final service first _) (bounded_final service first _)
            hstill with hreplied | ⟨hnext, hmore⟩
          · exact .inl hreplied
          · exact .inr ⟨hnext, by rw [hmore, hserved]; rfl⟩
  rcases hrounds (service.capacity + 1) with hreplied | ⟨hstill, hserved⟩
  · exact hreplied
  · have hle := served_le_of_waiting service first events _ hwaits hstill
    omega

end Scuttled.Foundation.Shared
