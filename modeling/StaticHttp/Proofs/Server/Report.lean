import StaticHttp.Proofs.Pool.Outcome
import StaticHttp.Proofs.Server.Visits
import Mathlib.Data.List.Nodup

/-!
# What a server reports

A server that comes to its end, with no worker down and accepting never having failed, has served
every visitor that it put into the queue, and reports so (`report_of_steps`): the numbers that it
gives agree with each other and with what became of the connections.
-/

namespace StaticHttp

namespace Server

/-- What became of the visitors of a server that has stopped, and what it reports of them. -/
structure Balance (server : Server) (report : ServerReport) : Prop where
  accepted_eq : report.accepted = server.enqueued.length
  handled_eq : report.handled = server.enqueued.length
  discarded_eq : report.discarded = 0
  /-- Every visitor that was handled is counted in one counter. -/
  counted : report.handled =
    report.metrics.totalResponses + report.metrics.rejected + report.metrics.ioFailures
  /-- Whoever came was put into the queue, was turned away, or was never accepted, in the order of
  arrival. -/
  arrived : (server.enqueued ++ server.turnedAway ++ server.backlog).map (·.number) =
    List.range server.arrivals
  /-- Those put into the queue were served, and nobody else. -/
  served : (server.crew.services.map (·.visitor)).Perm server.enqueued
  /-- Each of them was served once, from the files of some moment, and was closed once. -/
  served_once : ∀ visitor ∈ server.enqueued, ∃ service,
    server.crew.services.filter (·.visitor.number == visitor.number) = [service] ∧
    service.visitor = visitor ∧ (∃ site : Site, service.Faithful site) ∧
    server.crew.logOf visitor = service.log ∧ service.log.closed = 1
  /-- Those turned away were served by nobody: their connections were closed once, and nothing else
  was done to them. -/
  unserved : ∀ visitor ∈ server.turnedAway,
    (∀ service ∈ server.crew.services, service.visitor.number ≠ visitor.number) ∧
    server.crew.logOf visitor =
      { unread := total ReadStep.size visitor.connection.reads, closed := 1 }
  turnedAway_le : server.turnedAway.length ≤ 1

variable {capacity workers : Nat} {server : Server} {result : Except ServerError ServerReport}

/-- A server that has stopped has taken its queue apart. -/
private theorem Orderly.over (h : server.Orderly capacity workers)
    (stopped : server.report? = some result) :
    ∃ endings, server.crew.Over endings ∧ server.crew.sharing.accepted = server.enqueued ∧
      server.dispatcher.inHand = [] ∧
      result = ServerReport.conclude server.enqueued.length server.crew.metrics none (.ok ())
        endings (.ok server.crew.sharing.queue.toList.length) := by
  have stands := h.stands
  have unfailed := h.unfailed
  unfold report? at stopped
  split at stopped <;> cases stopped
  next failure closed endings discarded was =>
  rw [was] at stands unfailed
  cases unfailed
  obtain ⟨-, rfl, rfl, accepted, isOver⟩ := stands.over
  rw [was]
  exact ⟨endings, isOver, accepted.trans (List.append_nil _), rfl, rfl⟩

/-- A visitor brings workers down only if its service tells so. -/
private theorem Orderly.felledBy_eq_false (h : server.Orderly capacity workers)
    (unharmed : ∀ service ∈ server.crew.services, service.result ≠ .error .crash) :
    ∀ service ∈ server.crew.services, server.crew.site.felledBy service.visitor = false :=
  h.crew.ledger.felledBy_eq_false unharmed

/-- Where members are told apart by a mark, one of them alone has its mark. -/
private theorem filter_mark {α : Type} {mark : α → Nat} {items : List α} {item : α}
    (distinct : (items.map mark).Nodup) (mem : item ∈ items) :
    items.filter (mark · == mark item) = [item] := by
  obtain ⟨before, after, rfl⟩ := List.append_of_mem mem
  have others : ∀ other ∈ before ++ after, ¬ (mark other == mark item) = true := by
    intro other h same
    simp only [List.map_append, List.map_cons, List.nodup_middle, List.nodup_cons] at distinct
    apply distinct.1
    rw [← List.map_append, ← beq_iff_eq.mp same]
    exact List.mem_map_of_mem h
  rw [List.filter_append, List.filter_cons, if_pos (beq_self_eq_true _),
    List.filter_eq_nil_iff.mpr fun other h => others other (List.mem_append_left _ h),
    List.filter_eq_nil_iff.mpr fun other h => others other (List.mem_append_right _ h)]
  rfl

namespace Received

/-- The visitors are told apart by their numbers. -/
private theorem distinct (h : server.Received) :
    ((server.enqueued ++ server.turnedAway).map (·.number)).Nodup := by
  have all : (server.visitors.map (·.number)).Nodup := h.numbers ▸ List.nodup_range
  refine all.sublist (List.Sublist.map _ ?_)
  exact (List.sublist_append_left _ _).trans (List.sublist_append_left _ _)

/-- Who was put into the queue has one service, if the services are of those put into the queue. -/
private theorem served_once (h : server.Received)
    (served : (server.crew.services.map (·.visitor)).Perm server.enqueued)
    (genuine : ∀ service ∈ server.crew.services, ∃ site : Site, service.Faithful site) :
    ∀ visitor ∈ server.enqueued, ∃ service,
      server.crew.services.filter (·.visitor.number == visitor.number) = [service] ∧
      service.visitor = visitor ∧ (∃ site : Site, service.Faithful site) ∧
      server.crew.logOf visitor = service.log ∧ service.log.closed = 1 := by
  intro visitor hv
  obtain ⟨service, hs, rfl⟩ := List.mem_map.mp (served.mem_iff.mpr hv)
  have distinct : (server.crew.services.map (·.visitor.number)).Nodup := by
    have numbers := h.distinct
    rw [List.map_append] at numbers
    have perm := (served.map (·.number)).nodup_iff.mpr (List.nodup_append.mp numbers).1
    rwa [List.map_map] at perm
  have alone := filter_mark distinct hs
  obtain ⟨site, faithful⟩ := genuine service hs
  refine ⟨service, alone, rfl, ⟨site, faithful⟩, ?_, ?_⟩
  · unfold Crew.logOf
    rw [← List.head?_filter, alone]
    rfl
  · have fresh := h.fresh service.visitor (by simp only [visitors, List.mem_append, hv, true_or])
    rw [faithful.closed_eq, fresh]

/-- Who was turned away has no service, if the services are of those put into the queue. -/
private theorem unserved (h : server.Received)
    (served : (server.crew.services.map (·.visitor)).Perm server.enqueued) :
    ∀ visitor ∈ server.turnedAway,
      (∀ service ∈ server.crew.services, service.visitor.number ≠ visitor.number) ∧
      server.crew.logOf visitor =
        { unread := total ReadStep.size visitor.connection.reads, closed := 1 } := by
  intro visitor hv
  have others : ∀ service ∈ server.crew.services, service.visitor.number ≠ visitor.number := by
    intro service hs
    have numbers := h.distinct
    rw [List.map_append] at numbers
    have queued := served.mem_iff.mp (List.mem_map_of_mem hs)
    exact (List.nodup_append.mp numbers).2.2 _ (List.mem_map_of_mem queued) _
      (List.mem_map_of_mem hv)
  refine ⟨others, ?_⟩
  have fresh := h.fresh visitor (by simp only [visitors, List.mem_append, hv, true_or, or_true])
  have none : server.crew.services.find? (·.visitor.number == visitor.number) = none :=
    List.find?_eq_none.mpr fun service hs same => others service hs (beq_iff_eq.mp same)
  unfold Crew.logOf
  rw [none]
  simp only [Connection.close, fresh]

end Received

/-- A server that has come to its end reports success, with numbers that agree with each other and
with what became of its visitors, whatever the schedule of its threads, and whoever came, changed
the files or raised the stop signal when, as long as accepting did not fail and no visitor brought a
worker down. Those turned away were looked at after the stop signal was raised. -/
theorem report_of_steps {site : Site} {moves : List ServerMove} (staffed : 0 < workers)
    (run : (start site capacity workers).steps moves = some server)
    (calm : ∀ e, .fail e ∉ moves)
    (unharmed : ∀ service ∈ server.crew.services, service.result ≠ .error .crash)
    (stopped : server.report? = some result) :
    (∃ report, result = .ok report ∧ server.Balance report) ∧
    ∀ visitor ∈ server.turnedAway, ∃ before after moment, moves = before ++ after ∧
      (start site capacity workers).steps before = some moment ∧
      moment.dispatcher = .rechecking visitor ∧ moment.stopping = true := by
  refine ⟨?_, turnedAway_of_steps run⟩
  obtain ⟨orderly, received⟩ := orderly_of_steps run calm
  obtain ⟨endings, isOver, accepted, empty, rfl⟩ := orderly.over stopped
  have unfelled := orderly.felledBy_eq_false unharmed
  have up : server.crew.workers.countP Worker.isDown = 0 := by
    rw [orderly.crew.ledger.down_count, List.countP_eq_zero]
    exact fun service hs => Bool.eq_false_iff.mp (unfelled service hs)
  have manned : 0 < server.crew.workers.length := orderly.length_eq ▸ staffed
  obtain ⟨left, delivered⟩ := isOver.delivered_eq_accepted orderly.crew manned up
  have served := isOver.services_perm orderly.crew
  rw [delivered, accepted] at served
  have joined := isOver.joinAll_ok orderly.crew manned up
  rw [accepted] at joined
  have counted : server.crew.metrics.events = server.enqueued.length := by
    rw [orderly.crew.ledger.events_eq, ← served.length_eq, List.length_map, List.countP_eq_length]
    exact fun service hs => Bool.not_eq_eq_eq_not.mpr (unfelled service hs)
  refine ⟨⟨server.enqueued.length, server.enqueued.length, 0, server.crew.metrics⟩, ?_, ?_⟩
  · simp only [ServerReport.conclude, joined, left, List.length_nil]
  · have genuine := orderly.crew.ledger.genuine
    refine ⟨rfl, rfl, rfl, counted.symm, ?_, served, received.served_once served genuine,
      received.unserved served, received.few⟩
    have numbers := received.numbers
    rwa [visitors, empty, List.append_nil] at numbers

/-- A visitor is served, somebody raises the stop signal, and the connection that wakes the
dispatcher is turned away. -/
theorem report_of_steps_wakeUp :
    ∃ server report, (start ⟨⟨.directory [], [], true⟩, []⟩ 1 1).steps
        [[.arrive {}], List.replicate 6 (.dispatch none), List.replicate 4 (.work 0 none {}),
          [.dispatch none, .call, .raise 0, .raise 0], List.replicate 7 (.dispatch none),
          List.replicate 3 (.work 0 none {}), List.replicate 2 (.dispatch none)].flatten =
            some server ∧
      server.report? = some (.ok report) ∧ server.Balance report ∧
      report.handled = 1 ∧ report.metrics.rejected = 1 ∧
      server.turnedAway.map (·.isWakeUp) = [true] := by
  have h : (start ⟨⟨.directory [], [], true⟩, []⟩ 1 1).steps
      [[.arrive {}], List.replicate 6 (.dispatch none), List.replicate 4 (.work 0 none {}),
        [.dispatch none, .call, .raise 0, .raise 0], List.replicate 7 (.dispatch none),
        List.replicate 3 (.work 0 none {}), List.replicate 2 (.dispatch none)].flatten =
          some _ := rfl
  obtain ⟨report, isOk, balance⟩ :=
    (report_of_steps (by decide) h (by simp) (by decide) rfl).1
  cases isOk
  exact ⟨_, _, h, rfl, balance, rfl, rfl, rfl⟩

end Server

end StaticHttp
