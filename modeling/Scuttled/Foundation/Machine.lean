import Mathlib.Data.List.Forall2
import Mathlib.Data.List.Induction

/-!
# Transition systems and deterministic machines

Two small vocabularies for "whatever order things happen in".  A step relation
is run along a list of labels; a guard restricts it to the runs whose every
step meets a condition.  A machine is the deterministic case with an output
for each input; two machines are compared by an unwinding relation.
-/

namespace Scuttled.Foundation

universe u v w

/-! ## Step relations -/

/-- The states reached from one state along a list of labels. -/
inductive Steps {State : Type u} {Label : Type v}
    (step : State → Label → State → Prop) : State → List Label → State → Prop where
  | refl (state : State) : Steps step state [] state
  | tail {first middle last : State} {labels : List Label} {label : Label} :
      Steps step first labels middle → step middle label last →
      Steps step first (labels ++ [label]) last

/-- The steps of a relation that meet a condition on the state they leave. -/
def guarded {State : Type u} {Label : Type v} (guard : State → Label → Prop)
    (step : State → Label → State → Prop) (source : State) (label : Label)
    (target : State) : Prop :=
  guard source label ∧ step source label target

namespace Steps

variable {State : Type u} {Label : Type v} {step : State → Label → State → Prop}

theorem invariant {Inv : State → Prop}
    (hstep : ∀ source label target, Inv source → step source label target → Inv target)
    {first last : State} {labels : List Label} (hrun : Steps step first labels last)
    (hfirst : Inv first) : Inv last := by
  induction hrun with
  | refl => exact hfirst
  | tail _ hlast ih => exact hstep _ _ _ ih hlast

theorem history_invariant {Inv : List Label → State → Prop}
    (hstep : ∀ labels source label target, Inv labels source → step source label target →
      Inv (labels ++ [label]) target)
    {first last : State} {labels : List Label} (hrun : Steps step first labels last)
    (hfirst : Inv [] first) : Inv labels last := by
  induction hrun with
  | refl => exact hfirst
  | tail _ hlast ih => exact hstep _ _ _ _ ih hlast

theorem mono {step' : State → Label → State → Prop}
    (hstep : ∀ source label target, step source label target → step' source label target)
    {first last : State} {labels : List Label} (hrun : Steps step first labels last) :
    Steps step' first labels last := by
  induction hrun with
  | refl => exact .refl _
  | tail _ hlast ih => exact .tail ih (hstep _ _ _ hlast)

theorem invariant_on {Inv : State → Prop} {first last : State} {labels : List Label}
    (hrun : Steps step first labels last)
    (hstep : ∀ source, ∀ label ∈ labels, ∀ target, Inv source → step source label target →
      Inv target)
    (hfirst : Inv first) : Inv last := by
  induction hrun with
  | refl => exact hfirst
  | tail _ hlast ih =>
      refine hstep _ _ (List.mem_append_right _ List.mem_cons_self) _ (ih ?_) hlast
      exact fun source label hlabel => hstep source label (List.mem_append_left _ hlabel)

theorem exists_of_concat {first last : State} {labels : List Label} {label : Label}
    (hrun : Steps step first (labels ++ [label]) last) :
    ∃ middle, Steps step first labels middle ∧ step middle label last := by
  generalize hall : labels ++ [label] = all at hrun
  cases hrun with
  | refl => simp at hall
  | tail hbefore hlast =>
      obtain ⟨rfl, hlabel⟩ := List.append_inj' hall rfl
      obtain rfl := List.singleton_inj.mp hlabel
      exact ⟨_, hbefore, hlast⟩

theorem exists_of_append {first last : State} {labels labels' : List Label}
    (hrun : Steps step first (labels ++ labels') last) :
    ∃ middle, Steps step first labels middle ∧ Steps step middle labels' last := by
  induction labels' using List.reverseRecOn generalizing last with
  | nil =>
      rw [List.append_nil] at hrun
      exact ⟨last, hrun, .refl _⟩
  | append_singleton labels' label ih =>
      rw [← List.append_assoc] at hrun
      obtain ⟨before, hbefore, hlast⟩ := exists_of_concat hrun
      obtain ⟨middle, hfirst, hsecond⟩ := ih hbefore
      exact ⟨middle, hfirst, .tail hsecond hlast⟩

theorem exists_of_cons {first last : State} {label : Label} {labels : List Label}
    (hrun : Steps step first (label :: labels) last) :
    ∃ middle, step first label middle ∧ Steps step middle labels last := by
  obtain ⟨middle, hone, hrest⟩ := exists_of_append (show Steps step first ([label] ++ labels) last
    from hrun)
  obtain ⟨start, hnone, hstep⟩ := exists_of_concat (show Steps step first ([] ++ [label]) middle
    from hone)
  generalize hempty : ([] : List Label) = none at hnone
  cases hnone with
  | refl => exact ⟨middle, hstep, hrest⟩
  | tail => simp at hempty

theorem invariant_of_guarded {guard : State → Label → Prop} {Inv : State → Prop}
    (hstep : ∀ source label target, Inv source → guard source label →
      step source label target → Inv target)
    {first last : State} {labels : List Label}
    (hrun : Steps (guarded guard step) first labels last) (hfirst : Inv first) :
    Inv last :=
  hrun.invariant (fun source label target hsource hmove =>
    hstep source label target hsource hmove.1 hmove.2) hfirst

theorem of_foldlM {next : State → Label → Option State} {first last : State} {labels : List Label}
    (hrun : labels.foldlM next first = some last) :
    Steps (fun source label target => next source label = some target) first labels last := by
  induction labels using List.reverseRecOn generalizing last with
  | nil =>
      obtain rfl := Option.some.inj hrun
      exact .refl first
  | append_singleton labels label ih =>
      rw [List.foldlM_append] at hrun
      obtain ⟨middle, hmiddle, hlast⟩ := Option.bind_eq_some_iff.mp hrun
      refine .tail (ih hmiddle) ?_
      simpa using hlast

/-- A run whose steps meet the guard, computed by a step function that stops at
the first that does not. -/
theorem guarded_of_foldlM {guard : State → Label → Prop}
    [∀ source label, Decidable (guard source label)] {next : State → Label → Option State}
    {first last : State} {labels : List Label}
    (hrun : labels.foldlM
      (fun source label => if guard source label then next source label else none) first =
        some last) :
    Steps (guarded guard fun source label target => next source label = some target)
      first labels last := by
  refine (of_foldlM hrun).mono fun source label target hmove => ?_
  split at hmove
  · exact ⟨‹_›, hmove⟩
  · cases hmove

end Steps

theorem append_eq_append_cons {α : Type*} {first second past rest : List α} {one : α}
    (hsplit : first ++ second = past ++ one :: rest) :
    (∃ rest', first = past ++ one :: rest' ∧ rest = rest' ++ second) ∨
      ∃ before, past = first ++ before ∧ second = before ++ one :: rest := by
  rcases List.append_eq_append_iff.mp hsplit with ⟨before, hpast, hsecond⟩ | ⟨after, hfirst, hrest⟩
  · exact .inr ⟨before, hpast, hsecond⟩
  · rcases List.cons_eq_append_iff.mp hrest with ⟨rfl, hsecond⟩ | ⟨rest', rfl, hrest'⟩
    · exact .inr ⟨[], by simpa using hfirst.symm, hsecond.symm ▸ rfl⟩
    · exact .inl ⟨rest', hfirst, hrest'⟩

/-! ## Machines -/

/-- A deterministic machine: each input moves the state and yields one output. -/
structure Machine (State : Type u) (Input : Type v) (Output : Type w) where
  step : State → Input → State × Output

namespace Machine

variable {State : Type u} {Input : Type v} {Output : Type w}

/-- The state after a list of inputs. -/
def final (machine : Machine State Input Output) (state : State)
    (inputs : List Input) : State :=
  inputs.foldl (fun current input => (machine.step current input).1) state

/-- Every input paired with the output it was answered by, in order. -/
def transcript (machine : Machine State Input Output) :
    State → List Input → List (Input × Output)
  | _, [] => []
  | state, input :: rest =>
      (input, (machine.step state input).2) ::
        machine.transcript (machine.step state input).1 rest

@[simp] theorem final_nil (machine : Machine State Input Output) (state : State) :
    machine.final state [] = state := rfl

@[simp] theorem final_cons (machine : Machine State Input Output) (state : State)
    (input : Input) (rest : List Input) :
    machine.final state (input :: rest) =
      machine.final (machine.step state input).1 rest := rfl

theorem final_append (machine : Machine State Input Output) (state : State)
    (first second : List Input) :
    machine.final state (first ++ second) =
      machine.final (machine.final state first) second := by
  simp [final, List.foldl_append]

@[simp] theorem transcript_cons (machine : Machine State Input Output) (state : State)
    (input : Input) (rest : List Input) :
    machine.transcript state (input :: rest) =
      (input, (machine.step state input).2) ::
        machine.transcript (machine.step state input).1 rest := rfl

theorem transcript_append (machine : Machine State Input Output) (state : State)
    (first second : List Input) :
    machine.transcript state (first ++ second) =
      machine.transcript state first ++
        machine.transcript (machine.final state first) second := by
  induction first generalizing state with
  | nil => rfl
  | cons input rest ih => simp [ih]

theorem mem_transcript_iff {machine : Machine State Input Output} {state : State}
    {inputs : List Input} {input : Input} {output : Output} :
    (input, output) ∈ machine.transcript state inputs ↔
      ∃ done rest, inputs = done ++ input :: rest ∧
        output = (machine.step (machine.final state done) input).2 := by
  constructor
  · intro hentry
    induction inputs generalizing state with
    | nil => cases hentry
    | cons first inputs ih =>
        rw [transcript_cons, List.mem_cons] at hentry
        rcases hentry with hfirst | hlater
        · obtain ⟨rfl, rfl⟩ := Prod.mk.inj hfirst
          exact ⟨[], inputs, rfl, rfl⟩
        · obtain ⟨done, rest, rfl, houtput⟩ := ih hlater
          exact ⟨first :: done, rest, rfl, houtput⟩
  · rintro ⟨done, rest, rfl, rfl⟩
    rw [transcript_append, transcript_cons]
    exact List.mem_append_right _ List.mem_cons_self

theorem final_invariant {machine : Machine State Input Output} {Inv : State → Prop}
    {inputs : List Input}
    (hstep : ∀ state, ∀ input ∈ inputs, Inv state → Inv (machine.step state input).1)
    {state : State} (hstate : Inv state) : Inv (machine.final state inputs) := by
  induction inputs generalizing state with
  | nil => exact hstate
  | cons input rest ih =>
      exact ih (fun current later hlater => hstep current later (List.mem_cons_of_mem _ hlater))
        (hstep state input List.mem_cons_self hstate)

/-- A relation between what happened so far and the state, kept by every input,
holds at the end. -/
theorem history_invariant {machine : Machine State Input Output}
    {Inv : List (Input × Output) → State → Prop}
    (hstep : ∀ history state input, Inv history state →
      Inv (history ++ [(input, (machine.step state input).2)]) (machine.step state input).1)
    {state : State} (hstate : Inv [] state) (inputs : List Input) :
    Inv (machine.transcript state inputs) (machine.final state inputs) := by
  induction inputs using List.reverseRecOn with
  | nil => exact hstate
  | append_singleton inputs input ih =>
      rw [transcript_append, final_append]
      exact hstep _ _ input ih

/-- A relation between the inputs so far and the state, kept by every input,
holds at the end. -/
theorem inputs_invariant {machine : Machine State Input Output}
    {Inv : List Input → State → Prop}
    (hstep : ∀ done state input, Inv done state →
      Inv (done ++ [input]) (machine.step state input).1)
    {state : State} (hstate : Inv [] state) (inputs : List Input) :
    Inv inputs (machine.final state inputs) := by
  induction inputs using List.reverseRecOn with
  | nil => exact hstate
  | append_singleton inputs input ih =>
      rw [final_append]
      exact hstep _ _ input ih

/-- What is observed along a run: each input, taken in a state, may show several
things. -/
def observed {Event : Type*} (machine : Machine State Input Output)
    (observe : State → Input → List Event) : State → List Input → List Event
  | _, [] => []
  | state, input :: rest =>
      observe state input ++ machine.observed observe (machine.step state input).1 rest

theorem observed_append {Event : Type*} (machine : Machine State Input Output)
    (observe : State → Input → List Event) (state : State) (first second : List Input) :
    machine.observed observe state (first ++ second) =
      machine.observed observe state first ++
        machine.observed observe (machine.final state first) second := by
  induction first generalizing state with
  | nil => rfl
  | cons input rest ih => simp [observed, ih]

theorem observed_concat {Event : Type*} (machine : Machine State Input Output)
    (observe : State → Input → List Event) (state : State) (inputs : List Input) (input : Input) :
    machine.observed observe state (inputs ++ [input]) =
      machine.observed observe state inputs ++ observe (machine.final state inputs) input := by
  rw [observed_append]
  simp [observed]

/-- A relation between what was observed so far and the state, kept by every
step that meets a guard on both, holds at the end of the runs whose steps do. -/
theorem observed_invariant {Event : Type*} {machine : Machine State Input Output}
    {observe : State → Input → List Event} {Inv : List Event → State → Prop}
    {guard : List Event → State → Input → Prop}
    (hstep : ∀ history state input, Inv history state → guard history state input →
      Inv (history ++ observe state input) (machine.step state input).1)
    {state : State} (hstate : Inv [] state) (inputs : List Input)
    (hguard : ∀ done input rest, inputs = done ++ input :: rest →
      guard (machine.observed observe state done) (machine.final state done) input) :
    Inv (machine.observed observe state inputs) (machine.final state inputs) := by
  induction inputs using List.reverseRecOn with
  | nil => exact hstate
  | append_singleton inputs input ih =>
      rw [observed_concat, final_append]
      refine hstep _ _ input (ih fun done other rest hinputs => ?_) (hguard inputs input [] rfl)
      exact hguard done other (rest ++ [input]) (by rw [hinputs, List.append_assoc]; rfl)

/-- Every step of a run meets a guard, checked along the run. -/
def Meets (machine : Machine State Input Output) (guard : State → Input → Prop) :
    State → List Input → Prop
  | _, [] => True
  | state, input :: rest =>
      guard state input ∧ machine.Meets guard (machine.step state input).1 rest

theorem meets_append {machine : Machine State Input Output} {guard : State → Input → Prop}
    {state : State} {first second : List Input} :
    machine.Meets guard state (first ++ second) ↔
      machine.Meets guard state first ∧ machine.Meets guard (machine.final state first) second := by
  induction first generalizing state with
  | nil => exact (iff_of_eq (true_and _)).symm
  | cons input rest ih => exact (and_congr_right fun _ => ih).trans and_assoc.symm

theorem Meets.each {machine : Machine State Input Output} {guard : State → Input → Prop}
    {state : State} {inputs : List Input} (hmeets : machine.Meets guard state inputs) :
    ∀ done input rest, inputs = done ++ input :: rest →
      guard (machine.final state done) input := by
  intro done
  induction done generalizing state inputs with
  | nil =>
      rintro input rest rfl
      exact hmeets.1
  | cons first done ih =>
      rintro input rest rfl
      exact ih hmeets.2 input rest rfl

theorem meets_iff {machine : Machine State Input Output} {guard : State → Input → Prop}
    {state : State} {inputs : List Input} :
    machine.Meets guard state inputs ↔
      ∀ done input rest, inputs = done ++ input :: rest →
        guard (machine.final state done) input := by
  refine ⟨Meets.each, fun heach => ?_⟩
  induction inputs generalizing state with
  | nil => trivial
  | cons input rest ih =>
      refine ⟨heach [] input rest rfl, ih fun done next after hsplit => ?_⟩
      exact heach (input :: done) next after (hsplit ▸ rfl)

/-- An invariant that a step from a state with it keeps exactly under a guard:
it holds all along a run exactly if every step meets the guard. -/
theorem always_iff_of_guard {machine : Machine State Input Output} {Inv : State → Prop}
    {guard : State → Input → Prop} (inputs : List Input)
    (hstep : ∀ state, ∀ input ∈ inputs, Inv state →
      (Inv (machine.step state input).1 ↔ guard state input))
    {state : State} (hstate : Inv state) :
    (∀ done rest, inputs = done ++ rest → Inv (machine.final state done)) ↔
      ∀ done input rest, inputs = done ++ input :: rest →
        guard (machine.final state done) input := by
  have hmem {done rest : List Input} {input : Input} (hinputs : inputs = done ++ input :: rest) :
      input ∈ inputs := hinputs ▸ List.mem_append_right done List.mem_cons_self
  constructor
  · intro halways done input rest hinputs
    refine (hstep _ input (hmem hinputs) (halways done (input :: rest) hinputs)).mp ?_
    have hnext := halways (done ++ [input]) rest (by rw [hinputs, List.append_assoc]; rfl)
    rwa [final_append] at hnext
  · intro hguard done
    induction done using List.reverseRecOn with
    | nil => exact fun _ _ => hstate
    | append_singleton done input ih =>
        intro rest hinputs
        rw [List.append_assoc] at hinputs
        rw [final_append]
        exact (hstep _ input (hmem hinputs) (ih (input :: rest) hinputs)).mpr
          (hguard done input rest hinputs)

/-- A law about what is observed and the state, and an invariant that gives it.
Suppose that from a state with the invariant a step can keep the law only under a
guard, and under the guard keeps the invariant.  Then the law holds all along a
run exactly if every step meets the guard. -/
theorem observed_always_iff_of_guard {Event : Type*} {machine : Machine State Input Output}
    {observe : State → Input → List Event} {Law Inv : List Event → State → Prop}
    {guard : List Event → State → Input → Prop}
    (hlaw : ∀ history state, Inv history state → Law history state)
    (hnecessary : ∀ history state input, Inv history state →
      Law (history ++ observe state input) (machine.step state input).1 →
        guard history state input)
    (hsufficient : ∀ history state input, Inv history state → guard history state input →
      Inv (history ++ observe state input) (machine.step state input).1)
    {state : State} (hstate : Inv [] state) (inputs : List Input) :
    (∀ done rest, inputs = done ++ rest →
        Law (machine.observed observe state done) (machine.final state done)) ↔
      ∀ done input rest, inputs = done ++ input :: rest →
        guard (machine.observed observe state done) (machine.final state done) input := by
  constructor
  · intro halways
    have hnext (done : List Input) (input : Input) (rest : List Input)
        (hinputs : inputs = done ++ input :: rest)
        (hinv : Inv (machine.observed observe state done) (machine.final state done)) :
        guard (machine.observed observe state done) (machine.final state done) input := by
      have hkept := halways (done ++ [input]) rest (by rw [hinputs, List.append_assoc]; rfl)
      rw [observed_concat, final_append] at hkept
      exact hnecessary _ _ input hinv hkept
    have hinv (done : List Input) : ∀ rest, inputs = done ++ rest →
        Inv (machine.observed observe state done) (machine.final state done) := by
      induction done using List.reverseRecOn with
      | nil => exact fun _ _ => hstate
      | append_singleton done input ih =>
          intro rest hinputs
          rw [List.append_assoc] at hinputs
          have hbefore := ih (input :: rest) hinputs
          rw [observed_concat, final_append]
          exact hsufficient _ _ input hbefore (hnext done input rest hinputs hbefore)
    intro done input rest hinputs
    exact hnext done input rest hinputs (hinv done (input :: rest) hinputs)
  · intro hguard done rest hinputs
    refine hlaw _ _ (observed_invariant (fun history current input hinv => hsufficient history
      current input hinv) hstate done fun before input after hdone => ?_)
    exact hguard before input (after ++ rest) (by rw [hinputs, hdone, List.append_assoc]; rfl)

theorem law_always_iff_of_guard {machine : Machine State Input Output} {Law Inv : State → Prop}
    {guard : State → Input → Prop} (hlaw : ∀ state, Inv state → Law state)
    (hnecessary : ∀ state input, Inv state → Law (machine.step state input).1 →
      guard state input)
    (hsufficient : ∀ state input, Inv state → guard state input →
      Inv (machine.step state input).1)
    {state : State} (hstate : Inv state) (inputs : List Input) :
    (∀ done rest, inputs = done ++ rest → Law (machine.final state done)) ↔
      ∀ done input rest, inputs = done ++ input :: rest →
        guard (machine.final state done) input :=
  @observed_always_iff_of_guard State Input Output Unit machine (fun _ _ => [])
    (fun _ => Law) (fun _ => Inv) (fun _ => guard) (fun _ => hlaw) (fun _ => hnecessary)
    (fun _ => hsufficient) state hstate inputs

/--
Unwinding.  Suppose two machines are related, an input that is kept gives
related outputs and keeps the relation, and an input that is dropped keeps the
relation when only the first machine takes it.  Then the second machine on the
kept inputs alone answers each as the first machine did.  What every entry of
the first transcript satisfies may be used in each step.
-/
theorem unwinding {State' : Type*} {machine : Machine State Input Output}
    {reduced : Machine State' Input Output} {Related : State → State' → Prop}
    {Alike : Input → Output → Output → Prop} {Good : Input → Output → Prop} {keep : Input → Bool}
    {inputs : List Input}
    (hkeep : ∀ state state', ∀ input ∈ inputs, keep input = true →
      Good input (machine.step state input).2 → Related state state' →
        Alike input (machine.step state input).2 (reduced.step state' input).2 ∧
          Related (machine.step state input).1 (reduced.step state' input).1)
    (hdrop : ∀ state state', ∀ input ∈ inputs, keep input = false →
      Good input (machine.step state input).2 → Related state state' →
        Related (machine.step state input).1 state')
    {state : State} {state' : State'} (hrelated : Related state state')
    (hgood : ∀ entry ∈ machine.transcript state inputs, Good entry.1 entry.2) :
    List.Forall₂ (fun entry entry' => entry.1 = entry'.1 ∧ Alike entry.1 entry.2 entry'.2)
        ((machine.transcript state inputs).filter fun entry => keep entry.1)
        (reduced.transcript state' (inputs.filter keep)) ∧
      Related (machine.final state inputs) (reduced.final state' (inputs.filter keep)) := by
  induction inputs generalizing state state' with
  | nil => exact ⟨.nil, hrelated⟩
  | cons input rest ih =>
      have ihRest := @ih
        (fun next next' later hlater => hkeep next next' later (List.mem_cons_of_mem _ hlater))
        (fun next next' later hlater => hdrop next next' later (List.mem_cons_of_mem _ hlater))
      rw [transcript_cons, List.forall_mem_cons] at hgood
      obtain ⟨hfirst, hlater⟩ := hgood
      cases hinput : keep input with
      | true =>
          obtain ⟨halike, hnext⟩ :=
            hkeep state state' input List.mem_cons_self hinput hfirst hrelated
          obtain ⟨htail, hfinal⟩ := ihRest hnext hlater
          simp only [transcript_cons, List.filter_cons, hinput, if_true, final_cons]
          exact ⟨.cons ⟨rfl, halike⟩ htail, hfinal⟩
      | false =>
          have hnext := hdrop state state' input List.mem_cons_self hinput hfirst hrelated
          obtain ⟨htail, hfinal⟩ := ihRest hnext hlater
          simp only [transcript_cons, List.filter_cons, hinput, Bool.false_eq_true, if_false,
            final_cons]
          exact ⟨htail, hfinal⟩

theorem bisimulation {machine : Machine State Input Output} {Related : State → State → Prop}
    {inputs : List Input}
    (hstep : ∀ state state', ∀ input ∈ inputs, Related state state' →
      (machine.step state input).2 = (machine.step state' input).2 ∧
        Related (machine.step state input).1 (machine.step state' input).1)
    {state state' : State} (hrelated : Related state state') :
    machine.transcript state inputs = machine.transcript state' inputs ∧
      Related (machine.final state inputs) (machine.final state' inputs) := by
  induction inputs generalizing state state' with
  | nil => exact ⟨rfl, hrelated⟩
  | cons input rest ih =>
      obtain ⟨hsame, hnext⟩ := hstep state state' input List.mem_cons_self hrelated
      obtain ⟨htail, hfinal⟩ :=
        ih (fun next next' later hlater => hstep next next' later (List.mem_cons_of_mem _ hlater))
          hnext
      exact ⟨by rw [transcript_cons, transcript_cons, hsame, htail], hfinal⟩

theorem bisimulation_of_meets {machine : Machine State Input Output}
    {guard : State → Input → Prop} {Related : State → State → Prop}
    (hstep : ∀ state state' input, guard state input → Related state state' →
      (machine.step state input).2 = (machine.step state' input).2 ∧
        Related (machine.step state input).1 (machine.step state' input).1)
    {state state' : State} {inputs : List Input} (hrelated : Related state state')
    (hmeets : machine.Meets guard state inputs) :
    machine.transcript state inputs = machine.transcript state' inputs ∧
      Related (machine.final state inputs) (machine.final state' inputs) := by
  induction inputs generalizing state state' with
  | nil => exact ⟨rfl, hrelated⟩
  | cons input rest ih =>
      obtain ⟨hsame, hnext⟩ := hstep state state' input hmeets.1 hrelated
      obtain ⟨htail, hfinal⟩ := ih hnext hmeets.2
      exact ⟨by rw [transcript_cons, transcript_cons, hsame, htail], hfinal⟩

end Machine

end Scuttled.Foundation
