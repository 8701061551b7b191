import Mathlib.Logic.Function.Basic
import Scuttled.Session.Outcome

/-!
# Sessions that share a registry

A handler performs at most one operation on the registry for a line, so the
sessions of a server interleave line by line.  The system is the machine whose
inputs are turns of named sessions.
-/

namespace Scuttled

open Rust Foundation

variable {Id R : Type}

/-- The sessions of a server, and the registry they share. -/
structure System (Id R : Type) where
  sessions : Id → Session
  registry : R

namespace System

/-- A server before any line: every session is new, its greeting sent or not. -/
def new (started maxSession maxIdle : Id → Nat) (isTls : Id → Bool)
    (greeting : Id → Option Error) (registry : R) : System Id R where
  sessions id := (Session.new (started id) (maxSession id) (maxIdle id) (isTls id)).greeted
    (greeting id)
  registry

section New

variable (started maxSession maxIdle : Id → Nat) (isTls : Id → Bool)
  (greeting : Id → Option Error) (registry : R) (id : Id)

theorem tagHistory_new :
    ((new started maxSession maxIdle isTls greeting registry).sessions id).tagHistory =
      .withDefaultMax := by
  simp only [new, Session.greeted]
  cases greeting id <;> rfl

theorem sessionState_new :
    ((new started maxSession maxIdle isTls greeting registry).sessions id).sessionState =
      .notAuthenticated := by
  simp only [new, Session.greeted]
  cases greeting id <;> rfl

end New

variable [DecidableEq Id]

def machine [UnicodeCase] (server : Server R) :
    Machine (System Id R) (Id × Turn) (List Action) where
  step system input :=
    let (session, world) := (system.sessions input.1).turn server input.2 ⟨system.registry, []⟩
    ({ sessions := Function.update system.sessions input.1 session
       registry := world.registry }, world.trace)

theorem sessions_step [UnicodeCase] (server : Server R) (system : System Id R)
    (input : Id × Turn) :
    ((machine server).step system input).1.sessions =
      Function.update system.sessions input.1
        ((system.sessions input.1).turn server input.2 ⟨system.registry, []⟩).1 := rfl

theorem trace_step [UnicodeCase] (server : Server R) (system : System Id R)
    (input : Id × Turn) :
    ((machine server).step system input).2 =
      ((system.sessions input.1).turn server input.2 ⟨system.registry, []⟩).2.trace := rfl

/-- The outcome of a turn of a session of the system. -/
def outcome [UnicodeCase] (mailboxes : Mailboxes R) (tlsAcceptor : Bool) (system : System Id R)
    (input : Id × Turn) : Outcome R :=
  (system.sessions input.1).outcome mailboxes tlsAcceptor input.2 system.registry

/-- The system as the machine of outcomes. -/
def outcomes [UnicodeCase] (mailboxes : Mailboxes R) (tlsAcceptor : Bool) :
    Machine (System Id R) (Id × Turn) (List Action) where
  step system input :=
    ({ sessions := Function.update system.sessions input.1
        (system.outcome mailboxes tlsAcceptor input).session
       registry := (system.outcome mailboxes tlsAcceptor input).registry },
      (system.outcome mailboxes tlsAcceptor input).trace)

theorem machine_eq [UnicodeCase] (mailboxes : Mailboxes R) (tlsAcceptor : Bool) :
    (machine (imapServer mailboxes tlsAcceptor) : Machine (System Id R) _ _) =
      outcomes mailboxes tlsAcceptor := by
  unfold machine outcomes
  congr 1
  funext system input
  simp only [turn_eq, execute_eq]
  rfl

end System

end Scuttled
