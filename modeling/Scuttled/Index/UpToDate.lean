import Scuttled.Index.Filing

/-!
# An index that is up to date

The bus places every event it publishes in the queue of the listener, behind those
that came before, and the listener handles them in order.  What `publish_sync`
returned for stays reflected until an event says otherwise that was published
later, provided that the listener was done with it at the reply.
-/

namespace Scuttled

open Rust Foundation

theorem Bus.publishing_of_moves {order : HashOrder SubscriptionId Subscriber} {bus bus' : Bus}
    {move : BusMove} (hmoves : Moves order bus move bus')
    (hstart : ∀ event, move ≠ .publish event ∧ move ≠ .publishSync event) {sync : Bool}
    {event : Event} {remaining : List (Sigma fun _ : SubscriptionId => Subscriber)}
    {delivered : Nat} {ackReceivers : List Nat}
    (hphase : bus'.phase = .publishing sync event remaining delivered ackReceivers) :
    ∃ remaining delivered ackReceivers,
      bus.phase = .publishing sync event remaining delivered ackReceivers := by
  cases hmoves with
  | subscribe hreceiving | unsubscribe hreceiving =>
      rw [show bus.phase = _ from hphase] at hreceiving
      cases hreceiving
  | publish => exact absurd rfl (hstart _).1
  | publishSync => exact absurd rfl (hstart _).2
  | tryNext hbefore hoffered =>
      obtain ⟨delivered', ackReceivers', hafter⟩ := phase_of_offered hoffered
      rw [hafter] at hphase
      cases hphase
      exact ⟨_, _, _, hbefore⟩
  | endLoop | ackResolved | reply => cases hphase
  | take | acknowledge | abandon | close => exact ⟨_, _, _, hphase⟩

theorem Bus.awaiting_of_moves {order : HashOrder SubscriptionId Subscriber} {bus bus' : Bus}
    {move : BusMove} (hmoves : Moves order bus move bus') {event : Event}
    {delivered syncCount : Nat} {ackReceivers : List Nat}
    (hphase : bus'.phase = .awaiting event delivered syncCount ackReceivers) :
    (∃ delivered syncCount ackReceivers,
      bus.phase = .awaiting event delivered syncCount ackReceivers) ∨
      ∃ sync delivered ackReceivers,
        bus.phase = .publishing sync event [] delivered ackReceivers := by
  cases hmoves with
  | subscribe hreceiving | unsubscribe hreceiving =>
      rw [show bus.phase = _ from hphase] at hreceiving
      cases hreceiving
  | publish | publishSync | reply => cases hphase
  | tryNext hbefore hoffered =>
      obtain ⟨delivered', ackReceivers', hafter⟩ := phase_of_offered hoffered
      rw [hafter] at hphase
      cases hphase
  | endLoop hbefore =>
      cases hphase
      exact .inr ⟨_, _, _, hbefore⟩
  | ackResolved hbefore =>
      cases hphase
      exact .inl ⟨_, _, _, hbefore⟩
  | take | acknowledge | abandon | close => exact .inl ⟨_, _, _, hphase⟩

namespace IndexedBus

/-! ## What is on the way to the index -/

/-- The listener has a queue, and receives from it. -/
def Subscribed (system : IndexedBus) : Prop :=
  ∀ queue, system.queue? = some queue →
    queue < system.bus.opened ∧ (system.bus.queues queue).receiverAlive = true

theorem unread_of_queue? {system : IndexedBus} {queue : Nat} (hqueue : system.queue? = some queue) :
    system.unread = (system.bus.queues queue).items.map EventDelivery.event := by
  unfold unread
  rw [hqueue]

theorem unread_of_bus {system : IndexedBus} {queue : Nat} (hqueue : system.queue? = some queue)
    (bus : Bus) :
    unread { system with bus } = (bus.queues queue).items.map EventDelivery.event :=
  unread_of_queue? (show queue? { system with bus } = some queue from hqueue)

/-- An event may still change the index. -/
def Coming (system : IndexedBus) (event : Event) : Prop :=
  (∃ sync remaining delivered ackReceivers,
    system.bus.phase = .publishing sync event remaining delivered ackReceivers) ∨
    event ∈ system.unread ∨ system.stage.event? = some event

/-- The listener is at the event, and it goes through, or was the last to do so. -/
def AtHand (system : IndexedBus) (event : Event) : Prop :=
  match system.stage with
  | .receiving => system.handled = some event
  | .handling current => current = event
  | .writing current _ => current = event ∧ system.complete = true
  | .noting current _ => current = event ∧ system.complete = true

/-- The event is the last the listener has received or will receive. -/
def Arrived (system : IndexedBus) (event : Event) : Prop :=
  system.unread.getLast? = some event ∨ system.unread = [] ∧ system.AtHand event

/-- The event `publish_sync` is at has arrived, or the loop has still to come to the
listener. -/
def Due (system : IndexedBus) (event : Event) : Prop :=
  match system.bus.phase with
  | .receiving => True
  | .publishing _ published remaining _ _ => published = event ∧
      (system.Arrived event ∨ ∃ id queue, system.subscription = some (id, queue) ∧
        ⟨id, ⟨listenerKinds, .async, queue⟩⟩ ∈ remaining)
  | .awaiting _ _ _ _ => system.Arrived event

/-- The index and what is on the way to it.  What was replied to is reflected, and what is
coming was published later. -/
structure Current (history : List BusHappening) (system : IndexedBus) : Prop where
  indexed : system.Indexed
  subscribed : system.Subscribed
  due : ∀ event, system.calling = some (event, true) → event.Shows → system.Due event
  kept : ∀ past event since, history = past ++ .replied event true :: since → event.Shows →
    (∀ later, .published later ∈ since → ¬ later.Overrides event) →
      system.Reflects event ∧ ∀ coming, system.Coming coming → .published coming ∈ since

variable {history : List BusHappening} {system system' : IndexedBus}

/-! ## The listener goes on -/

/-- A step beside the bus: it may bring an event nearer to the index, or into it. -/
structure Advances (system system' : IndexedBus) : Prop where
  indexed : system'.Indexed
  subscribed : system'.Subscribed
  subscription : system'.subscription = system.subscription ∨ system.bus.phase = .receiving
  phase : system'.bus.phase = system.bus.phase
  calling : system'.calling = system.calling
  reflects : ∀ event, system.Reflects event →
    (∀ coming, system.Coming coming → ¬ coming.Overrides event) → system'.Reflects event
  coming : ∀ event, event ∈ system'.unread ∨ system'.stage.event? = some event →
    event ∈ system.unread ∨ system.stage.event? = some event
  arrived : ∀ event, system.calling = some (event, true) → system.Arrived event →
    system'.Arrived event

theorem Current.advance (hcurrent : Current history system) (hadvances : system.Advances system') :
    Current history system' where
  indexed := hadvances.indexed
  subscribed := hadvances.subscribed
  due := by
    intro event hcalling hshows
    rw [hadvances.calling] at hcalling
    have hdue := hcurrent.due event hcalling hshows
    unfold Due at hdue ⊢
    rw [hadvances.phase]
    cases hphase : system.bus.phase with
    | receiving => trivial
    | publishing sync published remaining delivered ackReceivers =>
        rw [hphase] at hdue
        obtain ⟨hpublished, harrived | ⟨id, queue, hsubscription, hremaining⟩⟩ := hdue
        · exact ⟨hpublished, .inl (hadvances.arrived event hcalling harrived)⟩
        · rcases hadvances.subscription with hsame | hreceiving
          · exact ⟨hpublished, .inr ⟨id, queue, hsame.trans hsubscription, hremaining⟩⟩
          · rw [hphase] at hreceiving
            cases hreceiving
    | awaiting awaited delivered syncCount ackReceivers =>
        rw [hphase] at hdue
        exact hadvances.arrived event hcalling hdue
  kept := by
    intro past event since hhistory hshows hlater
    obtain ⟨hreflects, hcoming⟩ := hcurrent.kept past event since hhistory hshows hlater
    refine ⟨hadvances.reflects event hreflects fun coming hbefore => ?_, fun coming hafter => ?_⟩
    · exact hlater coming (hcoming coming hbefore)
    · apply hcoming
      rcases hafter with hpublishing | hnearer
      · rw [hadvances.phase] at hpublishing
        exact .inl hpublishing
      · exact .inr (hadvances.coming coming hnearer)

theorem Beside.unread (hbeside : system.Beside system') : system'.unread = system.unread := by
  unfold IndexedBus.unread queue?
  rw [hbeside.subscription, hbeside.bus]

theorem Advances.of_beside (hindexed : system'.Indexed) (hbeside : system.Beside system')
    (hsubscribed : system.Subscribed)
    (hreflects : ∀ event, system.Reflects event →
      (∀ coming, system.Coming coming → ¬ coming.Overrides event) → system'.Reflects event)
    (hstage : ∀ event, system'.stage.event? = some event → system.stage.event? = some event)
    (hhand : ∀ event, system.calling = some (event, true) → system.AtHand event →
      system'.AtHand event) : system.Advances system' := by
  have hunread := hbeside.unread
  refine ⟨hindexed, ?_, .inl hbeside.subscription, congrArg Bus.phase hbeside.bus, hbeside.calling,
    hreflects, ?_, ?_⟩
  · unfold Subscribed queue?
    rw [hbeside.subscription, hbeside.bus]
    exact hsubscribed
  · intro event hnearer
    rw [hunread] at hnearer
    exact hnearer.imp_right (hstage event)
  · intro event hevent hbefore
    unfold Arrived
    rw [hunread]
    exact hbefore.imp_right (.imp_right (hhand event hevent))

theorem Advances.refl (hcurrent : Current history system) : system.Advances system :=
  .of_beside hcurrent.indexed ⟨rfl, rfl, rfl⟩ hcurrent.subscribed (fun _ hreflects _ => hreflects)
    (fun _ hevent => hevent) fun _ _ hhand => hhand

/-- The writer loop serves the listener. -/
theorem Current.write (hcurrent : Current history system) : system.Advances system.write := by
  cases hstage : system.stage with
  | writing event command =>
      have hwrote := hcurrent.indexed.write hstage
      have hidle : system.handled = none :=
        hcurrent.indexed.handled_eq_none (by rw [hstage]; exact ListenerStage.noConfusion)
      have hindexed : system.write.Indexed := by
        refine ⟨hwrote.filed, hwrote.unique, ?_, ?_⟩
        · have hown := hwrote.own
          rw [write_eq hstage] at hown ⊢
          exact hown
        · intro other hother
          rw [write_eq hstage] at hother
          rw [show system.handled = _ from hother] at hidle
          cases hidle
      refine .of_beside hindexed ?_ hcurrent.subscribed ?_ ?_ ?_
      · rw [write_eq hstage]
        exact ⟨rfl, rfl, rfl⟩
      · intro other hreflects hlater
        exact hwrote.others other hreflects (hlater event (.inr (.inr (by rw [hstage]; rfl))))
      · intro other hother
        rw [write_eq hstage] at hother
        rw [hstage]
        exact hother
      · intro other _ hhand
        unfold AtHand at hhand ⊢
        rw [hstage] at hhand
        rw [write_eq hstage]
        exact hhand
  | receiving | handling | noting =>
      have hsame : system.write = system := by
        unfold IndexedBus.write
        rw [hstage]
      rw [hsame]
      exact .refl hcurrent

theorem Current.note (hcurrent : Current history system) : system.Advances system.note := by
  cases hstage : system.stage with
  | noting event command =>
      obtain ⟨uniqueIdMapping, hnote⟩ := note_eq hstage
      refine .of_beside (hcurrent.indexed.note hstage) ?_ hcurrent.subscribed ?_ ?_ ?_
      · rw [hnote]
        exact ⟨rfl, rfl, rfl⟩
      · intro other hreflects _
        rw [hnote]
        exact hreflects
      · intro other hother
        rw [hnote] at hother
        cases hother
      · intro other _ hhand
        unfold AtHand at hhand
        rw [hstage] at hhand
        obtain ⟨rfl, hcomplete⟩ := hhand
        rw [hnote]
        exact if_pos hcomplete
  | receiving | handling | writing =>
      have hsame : system.note = system := by
        unfold IndexedBus.note
        rw [hstage]
      rw [hsame]
      exact .refl hcurrent

/-- The listener handles the event at hand. -/
theorem Current.handle (hcurrent : Current history system) {messageId : MessageId}
    (hprompt : system.Prompt (.handle messageId)) :
    system.Advances (system.handle messageId) := by
  cases hstage : system.stage with
  | handling event =>
      have htook := hcurrent.indexed.handle hstage hprompt
      refine .of_beside htook.indexed htook.beside hcurrent.subscribed
        (fun other hreflects _ => htook.reflects other hreflects) ?_ ?_
      · intro other hother
        rw [hstage]
        rcases htook.stage with ⟨command, hwriting⟩ | ⟨hreceiving, -⟩
        · rw [hwriting] at hother
          exact hother
        · rw [hreceiving] at hother
          cases hother
      · intro other hcalling hhand
        unfold AtHand at hhand ⊢
        rw [hstage] at hhand
        obtain rfl : event = other := hhand
        have hcomplete := htook.complete hcalling
        rcases htook.stage with ⟨command, hwriting⟩ | ⟨hreceiving, hdone⟩
        · rw [hwriting]
          exact ⟨rfl, hcomplete⟩
        · rw [hreceiving]
          exact hdone hcomplete
  | receiving | writing | noting =>
      have hsame : system.handle messageId = system := by
        unfold IndexedBus.handle
        rw [hstage]
      rw [hsame]
      exact .refl hcurrent

/-- The listener receives the event it takes next. -/
theorem Current.receive (hcurrent : Current history system) :
    system.Advances system.receive := by
  unfold IndexedBus.receive
  cases hsubscription : system.subscription with
  | none => exact .refl hcurrent
  | some subscription =>
      obtain ⟨id, queue⟩ := subscription
      cases hstage : system.stage with
      | handling | writing | noting => exact .refl hcurrent
      | receiving =>
          dsimp only
          cases hrecv : (system.bus.queues queue).recv with
          | none => exact .refl hcurrent
          | some received =>
              obtain ⟨delivery, rest⟩ := received
              have hqueue : system.queue? = some queue := by
                unfold queue?
                rw [hsubscription]
                rfl
              have hunread : system.unread =
                  delivery.event :: rest.items.map EventDelivery.event :=
                (unread_of_queue? hqueue).trans
                  (congrArg (List.map EventDelivery.event) (BoundedQueue.items_of_recv hrecv))
              let received : IndexedBus :=
                { system with
                  bus := { system.bus with
                    queues := Function.update system.bus.queues queue rest }
                  subscription := some (id, queue)
                  stage := .handling delivery.event
                  handled := none }
              have hqueue' : received.queue? = some queue := rfl
              have hunread' : received.unread = rest.items.map EventDelivery.event :=
                (unread_of_queue? hqueue').trans
                  (congrArg (fun queue => queue.items.map EventDelivery.event)
                    (Function.update_self queue rest system.bus.queues))
              show system.Advances received
              refine
                { indexed := ⟨hcurrent.indexed.filed, hcurrent.indexed.unique, trivial, ?_⟩
                  subscribed := ?_
                  subscription := .inl hsubscription.symm
                  phase := rfl
                  calling := rfl
                  reflects := fun _ hreflects _ => hreflects
                  coming := ?_
                  arrived := ?_ }
              · intro event hhandled
                cases hhandled
              · intro other hother
                obtain rfl := Option.some.inj (hqueue'.symm.trans hother)
                obtain ⟨hopened, halive⟩ := hcurrent.subscribed queue hqueue
                refine ⟨hopened, ?_⟩
                rw [show received.bus.queues queue = rest from Function.update_self ..]
                exact (BoundedQueue.receiverAlive_of_recv hrecv).trans halive
              · intro event hevent
                rw [hunread]
                rcases hevent with hlater | hnow
                · rw [hunread'] at hlater
                  exact .inl (List.mem_cons_of_mem _ hlater)
                · obtain rfl := Option.some.inj hnow
                  exact .inl List.mem_cons_self
              · intro event _ harrived
                unfold Arrived at harrived ⊢
                rw [hunread] at harrived
                rw [hunread']
                rcases harrived with hlast | ⟨hempty, -⟩
                · cases hrest : rest.items.map EventDelivery.event with
                  | nil =>
                      rw [hrest] at hlast
                      exact .inr ⟨rfl, Option.some.inj hlast⟩
                  | cons next later =>
                      rw [hrest, List.getLast?_cons_cons] at hlast
                      exact .inl hlast
                · cases hempty

/-- The bus registers the listener. -/
theorem Current.listen (hcurrent : Current history system) (id : SubscriptionId) :
    system.Advances (system.listen id) := by
  unfold IndexedBus.listen
  cases hsubscription : system.subscription with
  | some => exact .refl hcurrent
  | none =>
      cases hphase : system.bus.phase with
      | publishing | awaiting => exact .refl hcurrent
      | receiving =>
          have hunread : system.unread = [] := by
            unfold unread queue?
            rw [hsubscription]
            rfl
          let listening : IndexedBus :=
            { system with
              bus := system.bus.subscribe id listenerKinds .async
              subscription := some (id, system.bus.opened) }
          have hnew : listening.bus.queues system.bus.opened = .new := Function.update_self ..
          have hunread' : listening.unread = [] :=
            congrArg (fun queue => queue.items.map EventDelivery.event) hnew
          show system.Advances listening
          refine
            { indexed := ⟨hcurrent.indexed.filed, hcurrent.indexed.unique, hcurrent.indexed.staged,
                hcurrent.indexed.handled⟩
              subscribed := ?_
              subscription := .inr hphase
              phase := rfl
              calling := rfl
              reflects := fun _ hreflects _ => hreflects
              coming := ?_
              arrived := ?_ }
          · intro queue hqueue
            obtain rfl := Option.some.inj hqueue
            exact ⟨Nat.lt_succ_self _, congrArg BoundedQueue.receiverAlive hnew⟩
          · intro event hevent
            rw [hunread'] at hevent
            rwa [hunread]
          · intro event _ harrived
            unfold Arrived at harrived ⊢
            rw [hunread] at harrived
            rw [hunread']
            exact harrived

/-! ## The bus goes on -/

variable {order : HashOrder SubscriptionId Subscriber}

/-- A move of the bus, and what can be seen of it. -/
inductive BusTurn (order : HashOrder SubscriptionId Subscriber) (system : IndexedBus) :
    BusMove → IndexedBus × List BusHappening → Prop where
  | passed {move : BusMove} : BusTurn order system move (system, [])
  | published {event : Event} (hphase : system.bus.phase = .receiving) :
      BusTurn order system (.publish event)
        ({ system with bus := system.bus.publish order false event, calling := none },
          [.published event])
  | publishedSync {event : Event} (hphase : system.bus.phase = .receiving) :
      BusTurn order system (.publishSync event)
        ({ system with
            bus := system.bus.publish order true event
            calling := some (event, system.registered event) }, [.published event])
  | replied {event : Event} {delivered syncCount : Nat}
      (hphase : system.bus.phase = .awaiting event delivered syncCount []) :
      BusTurn order system .reply
        ({ system with bus := { system.bus with phase := .receiving }, calling := none },
          system.calling.toList.map fun call => .replied call.1 call.2)
  | moved {move : BusMove} {bus : Bus} (hmoves : Bus.Moves order system.bus move bus)
      (hreceiver : ∀ queue, system.queue? = some queue → move.receiver? ≠ some queue)
      (hstart : ∀ event, move ≠ .publish event ∧ move ≠ .publishSync event) :
      BusTurn order system move ({ system with bus }, [])

theorem moveBus_turn (order : HashOrder SubscriptionId Subscriber) (move : BusMove)
    (system : IndexedBus) : BusTurn order system move (system.moveBus order move) := by
  unfold moveBus
  split
  · exact .passed
  · rename_i hown
    have hreceiver (queue : Nat) (hqueue : system.queue? = some queue) :
        move.receiver? ≠ some queue := fun hsame =>
      hown ⟨by rw [hsame]; rfl, hsame.trans hqueue.symm⟩
    cases hstep : busStep order system.bus move with
    | none => exact .passed
    | some bus =>
        have hmoves := Bus.moves_of_busStep hstep
        cases move with
        | publish event =>
            cases hmoves with
            | publish hphase => exact .published hphase
        | publishSync event =>
            cases hmoves with
            | publishSync hphase => exact .publishedSync hphase
        | reply =>
            cases hmoves with
            | reply hphase => exact .replied hphase
        | _ => exact .moved hmoves hreceiver fun event => ⟨BusMove.noConfusion, BusMove.noConfusion⟩

theorem Current.publish (hcurrent : Current history system) {sync : Bool} {event : Event}
    {calling : Option (Event × Bool)}
    (hdue : ∀ called, calling = some (called, true) → called.Shows →
      IndexedBus.Due { system with bus := system.bus.publish order sync event, calling } called) :
    Current (history ++ [.published event])
      { system with bus := system.bus.publish order sync event, calling } where
  indexed := ⟨hcurrent.indexed.filed, hcurrent.indexed.unique, hcurrent.indexed.staged,
    hcurrent.indexed.handled⟩
  subscribed := hcurrent.subscribed
  due := hdue
  kept := by
    intro past replied since hhistory hshows hlater
    rcases append_eq_append_cons hhistory with ⟨since', rfl, rfl⟩ | ⟨before, -, hlast⟩
    · obtain ⟨hreflects, hcoming⟩ := hcurrent.kept past replied since' rfl hshows fun later hmem =>
        hlater later (List.mem_append_left _ hmem)
      refine ⟨hreflects, fun coming hafter => ?_⟩
      rcases hafter with ⟨sync', remaining, delivered, ackReceivers, hphase⟩ | hbefore
      · cases hphase
        exact List.mem_append_right _ List.mem_cons_self
      · exact List.mem_append_left _ (hcoming coming (.inr hbefore))
    · rcases List.cons_eq_append_iff.mp hlast with ⟨rfl, hnone⟩ | ⟨rest, -, hnil⟩
      · cases hnone
      · cases rest <;> cases hnil

theorem Current.reflects_of_idle (hcurrent : Current history system) {awaited event : Event}
    {delivered syncCount : Nat} {ackReceivers : List Nat}
    (hphase : system.bus.phase = .awaiting awaited delivered syncCount ackReceivers)
    (hcalling : system.calling = some (event, true)) (hshows : event.Shows)
    (hstage : system.stage = .receiving) (hempty : system.unread = []) :
    system.Reflects event := by
  have hdue := hcurrent.due event hcalling hshows
  unfold Due at hdue
  rw [hphase] at hdue
  rcases hdue with hlast | ⟨-, hhand⟩
  · rw [hempty] at hlast
    cases hlast
  · unfold AtHand at hhand
    rw [hstage] at hhand
    exact (hcurrent.indexed.handled event hhand).2

/-- The reply is sent. -/
theorem Current.reply (hcurrent : Current history system) {awaited : Event}
    {delivered syncCount : Nat}
    (hphase : system.bus.phase = .awaiting awaited delivered syncCount [])
    (hprompt : system.Prompt (.bus .reply)) :
    Current (history ++ system.calling.toList.map fun call => .replied call.1 call.2)
      { system with bus := { system.bus with phase := .receiving }, calling := none } where
  indexed := ⟨hcurrent.indexed.filed, hcurrent.indexed.unique, hcurrent.indexed.staged,
    hcurrent.indexed.handled⟩
  subscribed := hcurrent.subscribed
  due := by
    intro event hcalling
    cases hcalling
  kept := by
    intro past event since hhistory hshows hlater
    rcases append_eq_append_cons hhistory with ⟨since', rfl, rfl⟩ | ⟨before, -, hlast⟩
    · obtain ⟨hreflects, hcoming⟩ := hcurrent.kept past event since' rfl hshows fun later hmem =>
        hlater later (List.mem_append_left _ hmem)
      refine ⟨hreflects, fun coming hafter => List.mem_append_left _ ?_⟩
      rcases hafter with ⟨sync, remaining, delivered', ackReceivers, hpublishing⟩ | hbefore
      · cases hpublishing
      · exact hcoming coming (.inr hbefore)
    · cases hcalling : system.calling with
      | none =>
          rw [hcalling] at hlast
          cases before <;> cases hlast
      | some call =>
          obtain ⟨called, registered⟩ := call
          rw [hcalling] at hlast
          rcases List.cons_eq_append_iff.mp hlast with ⟨rfl, hnow⟩ | ⟨rest, -, hnil⟩
          · cases hnow
            obtain ⟨hstage, hempty⟩ := hprompt called hcalling hshows
            refine ⟨hcurrent.reflects_of_idle hphase hcalling hshows hstage hempty,
              fun coming hafter => ?_⟩
            rcases hafter with ⟨sync, remaining, delivered', ackReceivers, hpublishing⟩ |
              hunread | hat
            · cases hpublishing
            · have hnone : coming ∈ system.unread := hunread
              rw [hempty] at hnone
              cases hnone
            · have hnone : system.stage.event? = some coming := hat
              rw [hstage] at hnone
              cases hnone
          · cases rest <;> cases hnil

theorem Current.unread_of_moves (hcurrent : Current history system) {move : BusMove} {bus : Bus}
    (hmoves : Bus.Moves order system.bus move bus)
    (hreceiver : ∀ queue, system.queue? = some queue → move.receiver? ≠ some queue) :
    Subscribed { system with bus } ∧
      (unread { system with bus } = system.unread ∨
        ∃ sync event remaining delivered ackReceivers,
          system.bus.phase = .publishing sync event remaining delivered ackReceivers ∧
            unread { system with bus } = system.unread ++ [event]) := by
  have hqueue : queue? { system with bus } = system.queue? := rfl
  unfold Subscribed unread
  rw [hqueue]
  cases hlistening : system.queue? with
  | none => exact ⟨fun _ hnone => (Option.some_ne_none _ hnone.symm).elim, .inl rfl⟩
  | some queue =>
      obtain ⟨hopened, halive⟩ := hcurrent.subscribed queue hlistening
      obtain ⟨hopened', halive', hevents⟩ :=
        Bus.events_of_moves hmoves hopened (hreceiver queue hlistening)
      refine ⟨fun other hother => ?_, hevents⟩
      obtain rfl := Option.some.inj hother
      exact ⟨hopened', halive'.trans halive⟩

theorem Current.arrived_of_moves (hcurrent : Current history system) {move : BusMove} {bus : Bus}
    (hmoves : Bus.Moves order system.bus move bus)
    (hreceiver : ∀ queue, system.queue? = some queue → move.receiver? ≠ some queue) {event : Event}
    (honly : ∀ sync published remaining delivered ackReceivers,
      system.bus.phase = .publishing sync published remaining delivered ackReceivers →
        published = event)
    (harrived : system.Arrived event) : Arrived { system with bus } event := by
  unfold Arrived
  rcases (hcurrent.unread_of_moves hmoves hreceiver).2 with
    hsame | ⟨sync, published, remaining, delivered, ackReceivers, hphase, hadded⟩
  · rw [hsame]
    exact harrived
  · rw [hadded, honly _ _ _ _ _ hphase]
    exact .inl List.getLast?_concat

/-- The loop comes to the listener: there is room, and the event is placed in its queue. -/
theorem Current.arrived_of_offered (hcurrent : Current history system) {event : Event}
    (hshows : event.Shows) {sync : Bool} {id : SubscriptionId} {queue : Nat}
    (hsubscription : system.subscription = some (id, queue))
    {remaining : List (Sigma fun _ : SubscriptionId => Subscriber)} {delivered : Nat}
    {ackReceivers : List Nat} {bus : Bus}
    (hoffered : Bus.Offered sync event id ⟨listenerKinds, .async, queue⟩ remaining delivered
      ackReceivers system.bus bus)
    (hroom : event.kind ∈ listenerKinds →
      (system.bus.queues queue).items.length < subscriberCapacity) :
    Arrived { system with bus } event := by
  have hinterested : event.kind ∈ listenerKinds := by
    unfold listenerKinds
    cases event with
    | messageCreated | messageDeleted | mailboxDeleted => simp [Event.kind]
    | _ => exact hshows.elim
  have hqueue : system.queue? = some queue := by
    unfold queue?
    rw [hsubscription]
    rfl
  have halive := (hcurrent.subscribed queue hqueue).2
  have hfull : (system.bus.queues queue).items.length ≠ subscriberCapacity :=
    Nat.ne_of_lt (hroom hinterested)
  cases hoffered with
  | passed hkind => exact absurd hinterested hkind
  | dropped hkind hdropped => exact absurd (hdropped halive) hfull
  | placedSync hkind hsync htype | droppedSync hkind hsync htype => cases htype
  | @placed hkind rest hsend =>
      obtain ⟨hitems, -⟩ := BoundedQueue.items_of_trySend hsend
      left
      rw [unread_of_bus hqueue]
      dsimp only
      rw [Function.update_self, hitems, List.map_append]
      exact List.getLast?_concat

/-- The bus goes on with what it is at. -/
theorem Current.move (hcurrent : Current history system) {move : BusMove} {bus : Bus}
    (hmoves : Bus.Moves order system.bus move bus)
    (hreceiver : ∀ queue, system.queue? = some queue → move.receiver? ≠ some queue)
    (hstart : ∀ event, move ≠ .publish event ∧ move ≠ .publishSync event)
    (hprompt : system.Prompt (.bus move)) : Current history { system with bus } where
  indexed := ⟨hcurrent.indexed.filed, hcurrent.indexed.unique, hcurrent.indexed.staged,
    hcurrent.indexed.handled⟩
  subscribed := (hcurrent.unread_of_moves hmoves hreceiver).1
  due := by
    intro event hcalling hshows
    have hcalled : system.calling = some (event, true) := hcalling
    have hdue := hcurrent.due event hcalled hshows
    have harrived := @Current.arrived_of_moves history system order hcurrent move bus hmoves
      hreceiver event
    unfold Due at hdue ⊢
    cases hphase : bus.phase with
    | receiving => trivial
    | publishing sync published remaining delivered ackReceivers =>
        obtain ⟨remaining', delivered', ackReceivers', hbefore⟩ :=
          Bus.publishing_of_moves hmoves hstart hphase
        rw [hbefore] at hdue
        obtain ⟨rfl, hat⟩ := hdue
        have honly : ∀ sync' published' remaining' delivered' ackReceivers', system.bus.phase =
            .publishing sync' published' remaining' delivered' ackReceivers' →
              published' = published := by
          intro sync' published' remaining' delivered' ackReceivers' hsame
          rw [hbefore] at hsame
          cases hsame
          rfl
        refine ⟨rfl, ?_⟩
        rcases hat with hat | ⟨id, queue, hsubscription, hmem⟩
        · exact .inl (harrived honly hat)
        · cases hmoves with
          | @tryNext _ _ other subscriber rest _ _ _ hloop hoffered =>
              rw [hloop] at hbefore
              cases hbefore
              obtain ⟨_, _, hafter⟩ := Bus.phase_of_offered hoffered
              rw [hafter] at hphase
              cases hphase
              rcases List.mem_cons.mp hmem with hfirst | hlater
              · cases hfirst
                refine .inl (hcurrent.arrived_of_offered hshows hsubscription hoffered fun hkind =>
                  ?_)
                refine hprompt _ _ _ _ _ _ _ hloop ?_ hkind (by rw [hcalled]; rfl) hshows
                unfold queue?
                rw [hsubscription]
                rfl
              · exact .inr ⟨id, queue, hsubscription, hlater⟩
          | subscribe hidle | unsubscribe hidle =>
              rw [hidle] at hbefore
              cases hbefore
          | publish => exact absurd rfl (hstart _).1
          | publishSync => exact absurd rfl (hstart _).2
          | endLoop | ackResolved | reply => cases hphase
          | take | acknowledge | abandon | close =>
              have hsame : system.bus.phase = .publishing sync published remaining delivered
                ackReceivers := hphase
              rw [hsame] at hbefore
              cases hbefore
              exact .inr ⟨id, queue, hsubscription, hmem⟩
    | awaiting awaited delivered syncCount ackReceivers =>
        rcases Bus.awaiting_of_moves hmoves hphase with
          ⟨delivered', syncCount', ackReceivers', hbefore⟩ | ⟨sync, delivered', ackReceivers', hbefore⟩
        · rw [hbefore] at hdue
          refine harrived (fun _ _ _ _ _ hsame => ?_) hdue
          rw [hbefore] at hsame
          cases hsame
        · rw [hbefore] at hdue
          obtain ⟨rfl, hat | ⟨id, queue, -, hnone⟩⟩ := hdue
          · refine harrived (fun _ _ _ _ _ hsame => ?_) hat
            rw [hbefore] at hsame
            cases hsame
            rfl
          · cases hnone
  kept := by
    intro past event since hhistory hshows hlater
    obtain ⟨hreflects, hcoming⟩ := hcurrent.kept past event since hhistory hshows hlater
    refine ⟨hreflects, fun coming hafter => hcoming coming ?_⟩
    rcases hafter with ⟨sync, remaining, delivered, ackReceivers, hphase⟩ | hnext | hat
    · obtain ⟨remaining', delivered', ackReceivers', hbefore⟩ :=
        Bus.publishing_of_moves hmoves hstart hphase
      exact .inl ⟨sync, remaining', delivered', ackReceivers', hbefore⟩
    · rcases (hcurrent.unread_of_moves hmoves hreceiver).2 with
        hsame | ⟨sync, published, remaining, delivered, ackReceivers, hphase, hadded⟩
      · rw [hsame] at hnext
        exact .inr (.inl hnext)
      · rw [hadded] at hnext
        rcases List.mem_append.mp hnext with hold | hnew
        · exact .inr (.inl hold)
        · obtain rfl := List.mem_singleton.mp hnew
          exact .inl ⟨sync, remaining, delivered, ackReceivers, hphase⟩
    · exact .inr (.inr hat)

/-- Every step keeps the index current. -/
theorem Current.step (hcurrent : Current history system) {input : IndexedBusEvent}
    (hprompt : system.Prompt input) :
    Current (history ++ (step order system input).2) (step order system input).1 := by
  cases input with
  | bus move =>
      have hturn := moveBus_turn order move system
      change Current (history ++ (system.moveBus order move).2) (system.moveBus order move).1
      generalize system.moveBus order move = after at hturn
      cases hturn with
      | passed =>
          rw [List.append_nil]
          exact hcurrent
      | published hphase => exact hcurrent.publish fun _ hcalled => by cases hcalled
      | publishedSync hphase =>
          refine hcurrent.publish fun called hcalled hshows => ?_
          obtain ⟨rfl, -⟩ := Prod.mk.inj (Option.some.inj hcalled)
          obtain ⟨id, queue, hsubscription, hlookup⟩ := hprompt hshows hphase
          exact ⟨rfl, .inr ⟨id, queue, hsubscription, HashMap.mem_arrange_iff.mpr hlookup⟩⟩
      | replied hphase => exact hcurrent.reply hphase hprompt
      | moved hmoves hreceiver hstart =>
          rw [List.append_nil]
          exact hcurrent.move hmoves hreceiver hstart hprompt
  | listen id =>
      exact (List.append_nil history).symm ▸ hcurrent.advance (hcurrent.listen id)
  | receive => exact (List.append_nil history).symm ▸ hcurrent.advance hcurrent.receive
  | handle messageId =>
      exact (List.append_nil history).symm ▸ hcurrent.advance (hcurrent.handle hprompt)
  | write => exact (List.append_nil history).symm ▸ hcurrent.advance hcurrent.write
  | note => exact (List.append_nil history).symm ▸ hcurrent.advance hcurrent.note
  | serve command =>
      rw [show (IndexedBus.step order system (.serve command)).2 = [] from rfl, List.append_nil]
      refine hcurrent.advance (.of_beside ?_ ⟨rfl, rfl, rfl⟩ hcurrent.subscribed
        (fun _ hreflects _ => hreflects) (fun _ hevent => hevent) fun _ _ hhand => hhand)
      exact ⟨hcurrent.indexed.filed, hcurrent.indexed.unique, hcurrent.indexed.staged,
        hcurrent.indexed.handled⟩

theorem current_new (registry : MailboxState) : Current [] (.new registry) where
  indexed :=
    { filed := fun _ _ hentry => by cases hentry
      unique := fun _ _ _ _ _ _ hentry => by cases hentry
      staged := trivial
      handled := fun _ hhandled => by cases hhandled }
  subscribed := fun _ hqueue => by cases hqueue
  due := fun _ hcalling => by cases hcalling
  kept := fun past _ _ hhistory => by cases past <;> cases hhistory

/-! ## What the queries answer -/

variable {listing : HashOrder MessageId MessageEntry} {username mailbox : String}

theorem misses_of_entriesOf {backend : InMemoryBackend} {path : String}
    (hnone : ∀ id entry, backend.messages.lookup id = some entry → entry.In username mailbox →
      entry.path ≠ path) : Misses listing backend username mailbox path := by
  intro iteration
  have hentries (entry : MessageEntry)
      (hmem : entry ∈ backend.entriesOf listing iteration username mailbox) : entry.path ≠ path := by
    obtain ⟨⟨id, hentry⟩, hin⟩ := InMemoryBackend.mem_entriesOf_iff.mp hmem
    exact hnone id entry hentry hin
  refine ⟨fun hlisted => ?_, fun query hfound => ?_, fun uid hpath => ?_⟩
  · obtain ⟨entry, hmem, hsame⟩ := List.mem_map.mp hlisted
    exact hentries entry hmem hsame
  · obtain ⟨entry, hmem, hsame⟩ := List.mem_map.mp hfound
    exact hentries entry (List.mem_of_mem_filter hmem) hsame
  · obtain ⟨entry, hhead, hsame⟩ := Option.map_eq_some_iff.mp hpath
    have hmem := List.mem_of_mem_head? hhead
    rw [InMemoryBackend.candidates, List.mem_filter] at hmem
    obtain ⟨hmem, hwanted⟩ := hmem
    rw [Bool.and_eq_true] at hwanted
    exact hentries entry (List.mem_filter.mpr ⟨hmem, hwanted.1⟩) hsame

/-- An entry of the mailbox is found by every query it matches, as long as UIDs are
unique. -/
theorem finds_of_entry {backend : InMemoryBackend} (hunique : backend.UniqueUids)
    {id : MessageId} {entry : MessageEntry} (hentry : backend.messages.lookup id = some entry)
    (hin : entry.In username mailbox)
    (hpath : entry.path = InMemoryBackend.makeMessagePath username mailbox entry.metadata.id) :
    Finds listing backend username mailbox entry.metadata := by
  intro iteration
  rw [← hpath]
  have hmem : entry ∈ backend.entriesOf listing iteration username mailbox :=
    InMemoryBackend.mem_entriesOf_iff.mpr ⟨⟨id, hentry⟩, hin⟩
  have hcandidate :
      entry ∈ backend.candidates listing iteration username mailbox entry.metadata.uid := by
    rw [InMemoryBackend.entriesOf, List.mem_filter] at hmem
    rw [InMemoryBackend.candidates, List.mem_filter, hmem.2, Bool.true_and]
    exact ⟨hmem.1, beq_self_eq_true entry.metadata.uid⟩
  have hone := hunique.candidates_length_le_one listing iteration username mailbox
    entry.metadata.uid
  refine ⟨List.mem_map_of_mem hmem, fun query hmatches => ?_, ?_⟩
  · exact List.mem_map.mpr ⟨entry, List.mem_filter.mpr ⟨hmem, hmatches⟩, rfl⟩
  · rw [InMemoryBackend.getMessagePathByUid]
    cases hall : backend.candidates listing iteration username mailbox entry.metadata.uid with
    | nil =>
        rw [hall] at hcandidate
        cases hcandidate
    | cons first rest =>
        rw [hall] at hcandidate hone
        cases rest with
        | nil =>
            obtain rfl := List.mem_singleton.mp hcandidate
            rfl
        | cons => exact absurd (Nat.le_of_succ_le_succ hone) (Nat.not_succ_le_zero _)

theorem Indexed.answers (hindexed : system.Indexed) {event : Event}
    (hreflects : system.Reflects event) : system.Answers listing event := by
  cases event with
  | messageCreated created =>
      obtain ⟨id, entry, hentry, horigin, uid, flags, rfl⟩ := hreflects
      have hfinds := @finds_of_entry listing created.username created.mailbox
        system.indexer.backend hindexed.unique id _ hentry ⟨rfl, rfl⟩ rfl
      exact ⟨id, uid, flags, horigin, hfinds⟩
  | messageDeleted username mailbox uniqueId =>
      intro id horigin
      refine misses_of_entriesOf fun held entry hentry hin hpath => ?_
      obtain ⟨created, -, uid, flags, rfl⟩ := hindexed.filed held entry hentry
      obtain ⟨rfl, rfl⟩ := hin
      have hdisplay : held.display = id.display :=
        (String.append_right_inj _).mp ((String.append_left_inj _).mp hpath)
      obtain rfl := MessageId.display_injective hdisplay
      exact hreflects held _ hentry horigin
  | mailboxDeleted username mailbox =>
      intro path
      exact misses_of_entriesOf fun id entry hentry hin _ => hreflects id entry hentry hin
  | _ => trivial

end IndexedBus

/-- What can be seen of the bus along a run of a new index. -/
def indexedHistory (order : HashOrder SubscriptionId Subscriber) (registry : MailboxState)
    (inputs : List IndexedBusEvent) : List BusHappening :=
  (IndexedBus.machine order).observed
    (fun system input => ((IndexedBus.machine order).step system input).2) (.new registry) inputs

/--
The index is up to date when `publish_sync` returns, along every run whose steps are
prompt: whatever the bus, its subscribers, the listener, the writer loop and the
registry do in between, every query answers as the events say that `publish_sync` has
returned for, unless an event says otherwise that was published later.
-/
theorem upToDate_of_prompt (order : HashOrder SubscriptionId Subscriber)
    (listing : HashOrder MessageId MessageEntry) (registry : MailboxState)
    (inputs : List IndexedBusEvent)
    (hprompt : ∀ done input rest, inputs = done ++ input :: rest →
      ((IndexedBus.machine order).final (.new registry) done).Prompt input) :
    ∀ done rest, inputs = done ++ rest →
      IndexedBus.UpToDate listing (indexedHistory order registry done)
        ((IndexedBus.machine order).final (.new registry) done) := by
  intro done rest hinputs
  have hcurrent := @Machine.observed_invariant _ _ _ _ (IndexedBus.machine order)
    (fun system input => ((IndexedBus.machine order).step system input).2) IndexedBus.Current
    (fun _ system input => system.Prompt input) (fun _ _ _ hbefore hguard => hbefore.step hguard)
    _ (IndexedBus.current_new registry) done fun before input after hdone =>
      hprompt before input (after ++ rest) (by rw [hinputs, hdone, List.append_assoc]; rfl)
  intro past event since hhistory hshows hlater
  exact hcurrent.indexed.answers (hcurrent.kept past event since hhistory hshows hlater).1

/-- The law for a message that is published once the listener has subscribed. -/
theorem upToDate_of_prompt_created :
    let inputs := [.serve (.create "ann" "box"), .listen ⟨1⟩,
      .bus (.publishSync (createdForAnn "box" "m1")), .bus .tryNext, .receive, .handle ⟨7⟩, .write,
      .note, .bus .endLoop, .bus .reply]
    IndexedBus.UpToDate .listed (indexedHistory .listed .new inputs)
      ((IndexedBus.machine .listed).final (.new .new) inputs) := by
  intro inputs
  refine upToDate_of_prompt .listed .listed .new inputs (Machine.Meets.each ?_) inputs []
    (List.append_nil inputs).symm
  refine ⟨trivial, trivial, ?_, ?_, trivial, ?_, trivial, trivial, trivial, ?_, trivial⟩
  · exact fun _ _ => ⟨⟨1⟩, 0, rfl, rfl⟩
  · intro _ _ _ subscriber _ _ _ _ hqueue _ _ _
    have hsender : 0 = subscriber.sender := Option.some.inj hqueue
    rw [← hsender]
    decide +kernel
  · refine ⟨fun _ hreceived => (by cases hreceived), fun _ => by decide +kernel, ?_⟩
    intro _ _ _ _ _ hentry
    cases hentry
  · exact fun _ _ _ => ⟨rfl, rfl⟩

/-- The listener subscribes in a task of its own: a message that is published before its
turn came is not indexed, and `publish_sync` returns all the same. -/
theorem late_listener_misses_message :
    ∃ inputs, ¬ IndexedBus.UpToDate .listed (indexedHistory .listed .new inputs)
      ((IndexedBus.machine .listed).final (.new .new) inputs) := by
  refine ⟨[.serve (.create "ann" "box"), .bus (.publishSync (createdForAnn "box" "m1")),
    .bus .endLoop, .bus .reply], fun hlaw => ?_⟩
  have hanswers := hlaw [.published (createdForAnn "box" "m1")] (createdForAnn "box" "m1") [] rfl
    trivial (fun _ hlater => by cases hlater)
  obtain ⟨id, uid, flags, horigin, -⟩ := hanswers
  cases horigin

end Scuttled
