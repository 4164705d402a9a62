import StaticHttp.Server.Basic
import StaticHttp.Proofs.Pool.Owner

/-!
# The moves of a server

`Server.Transition` lists once what a move can make of a server. At the queue a dispatcher is an
owner that offers one visitor at a time (`Dispatcher.owner`), so that its moves there are those of
an owner.
-/

namespace StaticHttp

namespace Dispatcher

/-- What the dispatcher is at the queue. -/
def owner : Dispatcher → Owner
  | polling | accepting | rechecking _ => .busy []
  | offering visitor => .busy [.offer visitor]
  | draining _ drain => .draining none drain

/-- The visitor that the dispatcher is putting into the queue. -/
def offered : Dispatcher → List Visitor
  | offering visitor => [visitor]
  | _ => []

/-- The visitor that the dispatcher has accepted and neither queued nor turned away. -/
def inHand : Dispatcher → List Visitor
  | rechecking visitor | offering visitor => [visitor]
  | _ => []

/-- The failure because of which the dispatcher drains the queue. -/
def failure? : Dispatcher → Option ServerError
  | draining failure _ => failure
  | _ => none

def isDraining : Dispatcher → Bool
  | draining .. => true
  | _ => false

end Dispatcher

namespace Server

/-- What a move can make of a server. -/
inductive Transition (server : Server) : ServerMove → Server → Prop
  | arrive (connection : Connection) :
      Transition server (.arrive connection) (server.connect connection false)
  | change (files : FileSystem) :
      Transition server (.change files)
        { server with crew := { server.crew with site := { server.crew.site with files } } }
  | call : Transition server .call { server with callers := server.callers ++ [.setting] }
  | set {caller : Nat} (setting : server.callers[caller]? = some .setting) :
      Transition server (.raise caller)
        { server with
          stopping := true
          callers := server.callers.set caller
            (if server.stopping then .finished else .connecting) }
  | wakeUp {caller : Nat} (connecting : server.callers[caller]? = some .connecting) :
      Transition server (.raise caller)
        (connect { server with callers := server.callers.set caller .finished } {} true)
  | goOn {wake : Option Nat} (polling : server.dispatcher = .polling)
      (wanted : server.stopping = false) :
      Transition server (.dispatch wake) { server with dispatcher := .accepting }
  | stop {wake : Option Nat} (polling : server.dispatcher = .polling)
      (stopping : server.stopping = true) :
      Transition server (.dispatch wake) { server with dispatcher := .draining none .closing }
  | accept {wake : Option Nat} {visitor : Visitor} {backlog : List Visitor}
      (accepting : server.dispatcher = .accepting) (waiting : server.backlog = visitor :: backlog) :
      Transition server (.dispatch wake)
        { server with backlog, dispatcher := .rechecking visitor }
  | turnAway {wake : Option Nat} {visitor : Visitor}
      (rechecking : server.dispatcher = .rechecking visitor) (stopping : server.stopping = true) :
      Transition server (.dispatch wake)
        { server with
          turnedAway := server.turnedAway ++ [visitor]
          dispatcher := .draining none .closing }
  | letIn {wake : Option Nat} {visitor : Visitor}
      (rechecking : server.dispatcher = .rechecking visitor) (wanted : server.stopping = false) :
      Transition server (.dispatch wake) { server with dispatcher := .offering visitor }
  | offer {wake : Option Nat} {visitor : Visitor} {crew : Crew}
      (offering : server.dispatcher = .offering visitor)
      (change : Owner.Change server.crew (.busy [.offer visitor]) crew (.busy [.offer visitor])) :
      Transition server (.dispatch wake) { server with crew }
  | enqueue {wake : Option Nat} {visitor : Visitor} {crew : Crew}
      (offering : server.dispatcher = .offering visitor)
      (change : Owner.Change server.crew (.busy [.offer visitor]) crew (.busy [])) :
      Transition server (.dispatch wake)
        { server with
          crew
          enqueued := server.enqueued ++ [visitor]
          dispatcher := .polling }
  | refuse {wake : Option Nat} {visitor : Visitor} {e : QueueError} {sharing : Sharing Visitor}
      (offering : server.dispatcher = .offering visitor)
      (found : server.crew.sharing.threads[0]? = some (.answered (.failed e))) :
      Transition server (.dispatch wake)
        { server with
          crew := { server.crew with sharing }
          dispatcher := .draining (some (.queue e)) .closing }
  | drain {wake : Option Nat} {failure : Option ServerError} {drain after : Drain} {crew : Crew}
      (draining : server.dispatcher = .draining failure drain)
      (change : Owner.Change server.crew (.draining none drain) crew (.draining none after)) :
      Transition server (.dispatch wake)
        { server with crew, dispatcher := .draining failure after }
  | interrupt (accepting : server.dispatcher = .accepting) :
      Transition server .interrupt { server with dispatcher := .polling }
  | fail (e : IoError) (accepting : server.dispatcher = .accepting) :
      Transition server (.fail e)
        { server with dispatcher := .draining (some (.accept e)) .closing }
  | work {i : Nat} {wake : Option Nat} {elapsed : Duration} {crew : Crew}
      (step : server.crew.Transition (some (Crew.threadOf i)) crew) :
      Transition server (.work i wake elapsed) { server with crew }
  | rouse {thread : Nat} {crew : Crew} (step : server.crew.Transition none crew) :
      Transition server (.spurious thread) { server with crew }

variable {server next : Server}

private theorem transition_of_raise {caller : Nat} (h : server.raise caller = some next) :
    server.Transition (.raise caller) next := by
  unfold raise at h
  split at h <;> cases h
  · exact .set ‹_›
  · exact .wakeUp ‹_›

private theorem transition_of_dispatch {wake : Option Nat} (h : server.dispatch wake = some next) :
    server.Transition (.dispatch wake) next := by
  unfold dispatch at h
  split at h
  · next polling =>
    cases h
    by_cases stopping : server.stopping = true
    · simp only [if_pos stopping]
      exact .stop polling stopping
    · simp only [if_neg stopping]
      exact .goOn polling (Bool.eq_false_of_not_eq_true stopping)
  · next accepting =>
    split at h <;> cases h
    exact .accept accepting ‹_›
  · next visitor rechecking =>
    split at h <;> cases h
    · exact .turnAway rechecking ‹_›
    · exact .letIn rechecking (Bool.eq_false_of_not_eq_true ‹_›)
  · next visitor offering =>
    split at h <;> cases h <;> rename_i hturn
    · exact .offer offering (Owner.Change.of_put [] hturn)
    · exact .refuse offering (Owner.Change.of_put [] hturn).1
    · exact .enqueue offering (Owner.Change.of_put [] hturn).2
  · next failure drain draining =>
    obtain ⟨⟨after, crew⟩, hdrain, rfl⟩ := Option.map_eq_some_iff.mp h
    exact .drain draining (.of_drain none hdrain)

/-- A move of a server is one of the transitions. -/
theorem transition_of_step {move : ServerMove} (h : server.step move = some next) :
    server.Transition move next := by
  cases move with
  | arrive connection =>
    cases h
    exact .arrive connection
  | change files =>
    cases h
    exact .change files
  | call =>
    cases h
    exact .call
  | raise caller => exact transition_of_raise h
  | dispatch wake => exact transition_of_dispatch h
  | interrupt =>
    simp only [step] at h
    split at h <;> cases h
    exact .interrupt ‹_›
  | fail e =>
    simp only [step] at h
    split at h <;> cases h
    exact .fail e ‹_›
  | work i wake elapsed =>
    obtain ⟨crew, hwork, rfl⟩ := Option.map_eq_some_iff.mp h
    exact .work (Crew.transition_of_work hwork)
  | spurious thread =>
    obtain ⟨crew, hwake, rfl⟩ := Option.map_eq_some_iff.mp h
    exact .rouse (Crew.transition_of_wakeUp hwake)

end Server

end StaticHttp
