import StaticHttp.Proofs.Handling
import StaticHttp.Proofs.Pool.Crew

/-!
# What the services add up to

The books of a crew agree with each other whatever its schedule, and whatever becomes of the files
meanwhile (`Crew.Ledger`): a worker is down if and only if it served a visitor that brings workers
down, as long as none is down the workers have counted all services, and each service but those
that brought a worker down is in one counter. While the files stay as they are, a service came to
what its visitor comes to alone, and the counters are the sums over the services (`Crew.Booked`).

A visitor is taken only while some worker is up. So what is delivered is a list that ends, at the
latest, with the visitor that brings the last worker down (`Crew.Stopped`); `upToCrash` cuts any
list there.
-/

namespace StaticHttp

/-- The list up to and with the member that is the `n`-th to crash, if there are so many. -/
def upToCrash {β : Type} (crashes : β → Bool) : Nat → List β → List β
  | 0, _ => []
  | _ + 1, [] => []
  | n + 1, item :: items => item :: upToCrash crashes (if crashes item then n else n + 1) items

section UpToCrash

variable {β : Type} {crashes : β → Bool}

@[simp] theorem upToCrash_nil (n : Nat) : upToCrash crashes n [] = [] := by cases n <;> rfl

/-- A list in which too few crash is cut behind its end. -/
theorem upToCrash_append {n : Nat} {items : List β} (few : items.countP crashes < n)
    (more : List β) :
    upToCrash crashes n (items ++ more) =
      items ++ upToCrash crashes (n - items.countP crashes) more := by
  induction items generalizing n with
  | nil => rfl
  | cons item items ih =>
    obtain ⟨n, rfl⟩ : ∃ m, n = m + 1 := ⟨n - 1, by omega⟩
    simp only [List.cons_append, upToCrash]
    rw [List.countP_cons] at few ⊢
    cases hc : crashes item with
    | true =>
      simp only [hc, if_true] at few ⊢
      rw [ih (by omega), Nat.add_sub_add_right]
    | false =>
      simp only [hc, Bool.false_eq_true, if_false, Nat.add_zero] at few ⊢
      rw [ih few]

theorem upToCrash_of_few {n : Nat} {items : List β} (few : items.countP crashes < n) :
    upToCrash crashes n items = items := by
  have := upToCrash_append few []
  rwa [upToCrash_nil, List.append_nil] at this

theorem upToCrash_succ {n : Nat} {items : List β} (h : upToCrash crashes n items = items) :
    upToCrash crashes (n + 1) items = items := by
  induction items generalizing n with
  | nil => rfl
  | cons item items ih =>
    cases n with
    | zero => cases h
    | succ n =>
      simp only [upToCrash] at h ⊢
      have rest := ih (List.cons.inj h).2
      congr 1
      split at rest <;> simp_all

/-- A list that is cut at its end and in which so many crash is where a longer one is cut. -/
theorem upToCrash_of_prefix {n : Nat} {items more : List β}
    (h : upToCrash crashes n items = items) (all : items.countP crashes = n) :
    upToCrash crashes n (items ++ more) = items := by
  induction items generalizing n with
  | nil =>
    cases all
    simp only [List.countP_nil, List.nil_append, upToCrash]
  | cons item items ih =>
    cases n with
    | zero => cases h
    | succ n =>
      simp only [List.cons_append, upToCrash] at h ⊢
      congr 1
      apply ih (List.cons.inj h).2
      rw [List.countP_cons] at all
      split at all <;> simp_all

end UpToCrash

/-- A visitor that brings down the worker that serves it. -/
def Site.felledBy (site : Site) (visitor : Visitor) : Bool := site.crashes visitor.connection

/-- No visitor becomes one that brings workers down, or ceases to be one, by other files. -/
theorem Site.felledBy_eq (site site' : Site) : site.felledBy = site'.felledBy := by
  funext visitor
  rw [Bool.eq_iff_iff]
  exact Site.crashes_iff_request.trans Site.crashes_iff_request.symm

/-- The service came to what the visitor's connection comes to. -/
structure Service.Faithful (site : Site) (service : Service) : Prop where
  result_eq : service.result = (site.serve service.visitor.connection).1.map (·.1)
  log_eq : service.log = (site.serve service.visitor.connection).2.close

namespace Service.Faithful

variable {site : Site} {service : Service}

theorem result_eq_crash_iff (faithful : service.Faithful site) :
    service.result = .error .crash ↔ site.felledBy service.visitor = true := by
  rw [faithful.result_eq, ← Site.handle_result site service.visitor.connection {} {}]
  exact Site.handle_result_eq_crash

/-- A service closes the connection once. -/
theorem closed_eq (faithful : service.Faithful site) :
    service.log.closed = service.visitor.connection.log.closed + 1 := by
  rw [faithful.log_eq]
  exact Site.closed_once _ _

end Service.Faithful

namespace Worker

/-- The visitors that the worker has counted. -/
def handled : Worker → Nat
  | .taking handled | .serving _ handled => handled
  | .ended ending => ending.handled

/-- A visitor brought the worker down. -/
def isDown : Worker → Bool
  | .ended .crashed => true
  | _ => false

theorem isDown_iff {w : Worker} : w.isDown = true ↔ w = .ended .crashed := by
  cases w with
  | ended e => cases e <;> simp [isDown]
  | _ => simp [isDown]

end Worker

namespace Crew

variable {capacity : Nat} {crew next : Crew} {mover : Option Nat}

/-- The books agree as far as they do not depend on the files. -/
structure Ledger (crew : Crew) : Prop where
  unfailed : ∀ (i : Nat) e, crew.workers[i]? ≠ some (.ended (.failed e))
  genuine : ∀ service ∈ crew.services, ∃ site : Site, service.Faithful site
  down_iff : ∀ (i : Nat), crew.workers[i]? = some (.ended .crashed) ↔
    ∃ service ∈ crew.services, service.worker = i ∧ crew.site.felledBy service.visitor = true
  down_count : crew.workers.countP Worker.isDown =
    crew.services.countP fun service => crew.site.felledBy service.visitor
  handled_eq : crew.workers.countP Worker.isDown = 0 →
    total Worker.handled crew.workers = crew.services.length
  events_eq : crew.metrics.events =
    crew.services.countP fun service => !crew.site.felledBy service.visitor

/-- A visitor brings workers down only if its service tells so. -/
theorem Ledger.felledBy_eq_false (h : crew.Ledger)
    (unharmed : ∀ service ∈ crew.services, service.result ≠ .error .crash) :
    ∀ service ∈ crew.services, crew.site.felledBy service.visitor = false := by
  intro service hs
  obtain ⟨site, faithful⟩ := h.genuine service hs
  rw [Site.felledBy_eq crew.site site]
  exact Bool.eq_false_of_not_eq_true fun felled =>
    unharmed service hs (faithful.result_eq_crash_iff.mpr felled)

/-- As long as no service was a crash no worker is down. -/
theorem Ledger.not_down (h : crew.Ledger)
    (unharmed : ∀ service ∈ crew.services, service.result ≠ .error .crash) (i : Nat) :
    crew.workers[i]? ≠ some (.ended .crashed) := by
  intro down
  obtain ⟨service, hs, _, felled⟩ := (h.down_iff i).mp down
  cases (h.felledBy_eq_false unharmed service hs).symm.trans felled

theorem ledger_start (site : Site) (capacity workers : Nat) :
    (start site capacity workers).Ledger where
  unfailed := by
    intro i e hw
    cases List.eq_of_mem_replicate (List.mem_of_getElem? hw)
  genuine := fun _ h => nomatch h
  down_iff := by
    intro i
    constructor
    · intro hw
      cases List.eq_of_mem_replicate (List.mem_of_getElem? hw)
    · rintro ⟨_, h, _⟩
      cases h
  down_count := by
    simp only [start, List.countP_replicate]
    rfl
  handled_eq := by
    intro _
    simp only [start, total_replicate]
    rfl
  events_eq := rfl

/-- A worker that was up and stays up changes no books if it has counted as many visitors. -/
private theorem Ledger.stays_up (h : crew.Ledger) {i : Nat} {w : Worker} (w' : Worker)
    (found : crew.workers[i]? = some w) (up : w.isDown = false) (up' : w'.isDown = false)
    (unfailed : ∀ e, w' ≠ .ended (.failed e)) (handled : w'.handled = w.handled)
    (sharing : Sharing Visitor) :
    { crew with sharing, workers := crew.workers.set i w' }.Ledger where
  unfailed := by
    intro j e hw
    rcases get_set_cases hw with ⟨_, heq⟩ | ⟨_, before⟩
    · exact unfailed e heq.symm
    · exact h.unfailed j e before
  genuine := h.genuine
  down_iff := by
    intro j
    rw [← h.down_iff j]
    by_cases same : j = i
    · subst same
      have down : ∀ {v : Worker}, v.isDown = false → some v ≠ some (.ended .crashed) := by
        intro v hv heq
        cases heq
        cases hv
      simp only [get_set_self w' found, found]
      exact ⟨fun heq => absurd heq (down up'), fun heq => absurd heq (down up)⟩
    · simp only [List.getElem?_set_ne fun heq => same heq.symm]
  down_count := by
    have := countP_set Worker.isDown found up up'
    simp only [Nat.add_right_cancel this, h.down_count]
  handled_eq := by
    intro none
    have down := countP_set Worker.isDown found up up'
    have sum := total_set Worker.handled w' found
    rw [handled] at sum
    simp only [Nat.add_right_cancel down] at none
    simp only [Nat.add_right_cancel sum, h.handled_eq none]
  events_eq := h.events_eq

private theorem Ledger.shares (h : crew.Ledger) (sharing : Sharing Visitor) :
    { crew with sharing }.Ledger :=
  ⟨h.unfailed, h.genuine, h.down_iff, h.down_count, h.handled_eq, h.events_eq⟩

private theorem Ledger.hires (h : crew.Ledger) : crew.hire.Ledger where
  unfailed := by
    intro i e hw
    rcases get_concat_cases hw with before | ⟨_, heq⟩
    · exact h.unfailed i e before
    · cases heq
  genuine := h.genuine
  down_iff := by
    intro i
    refine Iff.trans ?_ (h.down_iff i)
    constructor
    · intro hw
      rcases get_concat_cases hw with before | ⟨_, heq⟩
      · exact before
      · cases heq
    · intro hw
      obtain ⟨hlt, _⟩ := List.getElem?_eq_some_iff.mp hw
      exact (List.getElem?_append_left hlt).trans hw
  down_count := (List.countP_append ..).trans h.down_count
  handled_eq := by
    intro none
    simp only [hire, List.countP_append, Nat.add_eq_zero_iff] at none
    simp only [hire, total_append, h.handled_eq none.1]
    rfl
  events_eq := h.events_eq

/-- The worker that serves a visitor is down afterwards if and only if the visitor brings workers
down, and has else counted it. -/
theorem afterService_cases (site : Site) (visitor : Visitor) (elapsed : Duration)
    (metrics : Metrics) (handled : Nat) :
    (site.felledBy visitor = true ∧
      afterService handled (site.handle visitor.connection elapsed metrics).result =
        .ended .crashed) ∨
    (site.felledBy visitor = false ∧
      afterService handled (site.handle visitor.connection elapsed metrics).result =
        .taking (handled + 1)) := by
  cases felled : site.felledBy visitor with
  | true =>
    left
    rw [Site.handle_result_eq_crash.mpr felled]
    exact ⟨rfl, rfl⟩
  | false =>
    right
    refine ⟨rfl, ?_⟩
    unfold afterService
    split
    · next heq => exact absurd (felled.symm.trans (Site.handle_result_eq_crash.mp heq)) nofun
    · rfl

/-- A service is written into the books. -/
private theorem Ledger.records (h : crew.Ledger) {handled : Nat} {service : Service}
    (serving : crew.workers[service.worker]? = some (.serving service.visitor handled))
    (genuine : ∃ site : Site, service.Faithful site) {w : Worker} {metrics : Metrics}
    (outcome : (crew.site.felledBy service.visitor = true ∧ w = .ended .crashed) ∨
      (crew.site.felledBy service.visitor = false ∧ w = .taking (handled + 1)))
    (events : metrics.events =
      crew.metrics.events + (!crew.site.felledBy service.visitor).toNat) :
    { crew with
      workers := crew.workers.set service.worker w
      services := crew.services ++ [service]
      metrics }.Ledger where
  unfailed := by
    intro j e hw
    rcases get_set_cases hw with ⟨_, heq⟩ | ⟨_, before⟩
    · rcases outcome with ⟨_, rfl⟩ | ⟨_, rfl⟩ <;> cases heq
    · exact h.unfailed j e before
  genuine := by
    intro other hs
    rcases List.mem_append.mp hs with before | last
    · exact h.genuine other before
    · cases List.mem_singleton.mp last
      exact genuine
  down_iff := by
    intro j
    simp only [List.mem_append, List.mem_singleton, or_and_right, exists_or, exists_eq_left]
    rw [← h.down_iff j]
    by_cases same : j = service.worker
    · subst same
      rw [get_set_self w serving, serving]
      rcases outcome with ⟨felled, rfl⟩ | ⟨unfelled, rfl⟩
      · simp only [felled, and_self, or_true]
      · simp [unfelled]
    · rw [List.getElem?_set_ne fun heq => same heq.symm]
      exact ⟨.inl, fun down => down.resolve_right fun ⟨heq, _⟩ => same heq.symm⟩
  down_count := by
    rw [List.countP_append, List.countP_singleton, ← h.down_count]
    rcases outcome with ⟨felled, rfl⟩ | ⟨unfelled, rfl⟩
    · rw [felled]
      exact countP_set (y := true) Worker.isDown serving rfl rfl
    · rw [unfelled]
      exact countP_set (y := false) Worker.isDown serving rfl rfl
  handled_eq := by
    intro none
    simp only [List.length_append, List.length_singleton]
    rcases outcome with ⟨felled, rfl⟩ | ⟨unfelled, rfl⟩
    · have moved := countP_set (b := .ended .crashed) (x := false) (y := true) Worker.isDown serving
        rfl rfl
      rw [none] at moved
      exact absurd moved.symm (Nat.succ_ne_zero _)
    · have down := countP_set (b := .taking (handled + 1)) (x := false) (y := false) Worker.isDown
        serving rfl rfl
      have sum := total_set Worker.handled (.taking (handled + 1)) serving
      have before := h.handled_eq (Nat.add_right_cancel down ▸ none)
      simp only [Worker.handled] at sum
      omega
  events_eq := by
    rw [events, h.events_eq, List.countP_append, List.countP_singleton]
    cases crew.site.felledBy service.visitor <;> rfl

/-- A worker's service is faithful to the site as it was then. -/
private theorem faithful_serve (crew : Crew) (i : Nat) (visitor : Visitor) (elapsed : Duration) :
    Service.Faithful crew.site ⟨i, visitor,
      (crew.site.handle visitor.connection elapsed crew.metrics).result,
      (crew.site.handle visitor.connection elapsed crew.metrics).log⟩ :=
  ⟨Site.handle_result _ _ elapsed crew.metrics, Site.handle_log _ _ elapsed crew.metrics⟩

/-- The books stay in agreement. -/
theorem Transition.ledger (step : crew.Transition mover next) (h : crew.Seated capacity)
    (ledger : crew.Ledger) : next.Ledger := by
  cases step with
  | own | turn | rouse => exact ledger.shares _
  | hire => exact ledger.hires
  | @back i handled reply sharing taking found step =>
    obtain ⟨p, found', seated⟩ := h.seat i _ taking
    rw [found] at found'
    cases found'
    have answers : Call.take.Answers reply := seated
    cases answers with
    | item visitor =>
      exact ledger.stays_up (.serving visitor handled) taking rfl rfl nofun rfl sharing
    | closed =>
      exact ledger.stays_up (.ended (.finished handled)) taking rfl rfl nofun rfl sharing
  | @serve i handled visitor elapsed serving =>
    exact ledger.records serving ⟨_, crew.faithful_serve i visitor elapsed⟩
      (afterService_cases crew.site visitor elapsed crew.metrics handled)
      (Site.events_handle crew.site visitor.connection elapsed crew.metrics)

/-- The books agree with the files, which have stayed as they are. -/
structure Booked (crew : Crew) : Prop where
  faithful : ∀ service ∈ crew.services,
    service.worker < crew.workers.length ∧ service.Faithful crew.site
  counted : ∀ k, crew.metrics.count k =
    total (fun service => crew.site.alone k service.visitor.connection) crew.services

theorem booked_start (site : Site) (capacity workers : Nat) :
    (start site capacity workers).Booked where
  faithful := fun _ h => nomatch h
  counted := fun k => Metrics.count_empty k

/-- Every service is by one of the workers, and faithful. -/
theorem Transition.faithful (step : crew.Transition mover next)
    (faithful : ∀ service ∈ crew.services,
      service.worker < crew.workers.length ∧ service.Faithful crew.site) :
    ∀ service ∈ next.services,
      service.worker < next.workers.length ∧ service.Faithful next.site := by
  cases step with
  | own | turn | rouse => exact faithful
  | hire =>
    refine fun service hs => ⟨?_, (faithful service hs).2⟩
    exact Nat.lt_of_lt_of_le (faithful service hs).1
      (List.length_append ▸ Nat.le_add_right _ _)
  | back =>
    refine fun service hs => ⟨?_, (faithful service hs).2⟩
    rw [List.length_set]
    exact (faithful service hs).1
  | @serve i handled visitor elapsed serving =>
    intro service hs
    simp only [Crew.serve, List.length_set]
    rcases List.mem_append.mp hs with before | last
    · exact faithful service before
    · cases List.mem_singleton.mp last
      exact ⟨(List.getElem?_eq_some_iff.mp serving).1, crew.faithful_serve i visitor elapsed⟩

theorem Transition.booked (step : crew.Transition mover next) (booked : crew.Booked) :
    next.Booked := by
  refine ⟨step.faithful booked.faithful, fun k => ?_⟩
  have counted := booked.counted
  cases step with
  | own | turn | rouse | hire | back => exact counted k
  | @serve i handled visitor elapsed serving =>
    simp only [Crew.serve, total_append, total_cons, total_nil, Nat.add_zero, ← counted k]
    exact Site.count_handle crew.site visitor.connection elapsed crew.metrics k

/-! ## Where taking stops -/

/-- Visitors are taken up to the one that brings the last worker down. -/
def Stopped (crew : Crew) : Prop :=
  upToCrash crew.site.felledBy crew.workers.length crew.sharing.delivered = crew.sharing.delivered

/-- A delivered visitor that brings workers down has brought one down or will do so. -/
private theorem countP_delivered (conserved : crew.Conserved) (ledger : crew.Ledger) :
    crew.sharing.delivered.countP crew.site.felledBy =
      total (fun w => w.isDown.toNat + w.inHand fun v => (crew.site.felledBy v).toNat)
          crew.workers +
        total (Phase.taken fun v => (crew.site.felledBy v).toNat) crew.sharing.threads := by
  have balance := conserved fun v => (crew.site.felledBy v).toNat
  rw [total_eq_countP, total_map, total_eq_countP, ← ledger.down_count] at balance
  rw [total_add, total_eq_countP]
  omega

/-- A worker that has a visitor in hand is up, and has none in a reply. -/
private theorem seat_le_one {w : Worker} {p : Phase Visitor} (f : Visitor → Bool)
    (seated : w.Seated p) :
    (w.isDown.toNat + w.inHand fun v => (f v).toNat) + p.taken (fun v => (f v).toNat) ≤ 1 := by
  cases w with
  | taking handled =>
    cases p with
    | answered reply =>
      have answers : Call.take.Answers reply := seated
      cases answers with
      | item v =>
        have := Bool.toNat_le (f v)
        show 0 + 0 + ((f v).toNat + 0) ≤ 1
        omega
      | closed => exact Nat.zero_le 1
    | _ => exact Nat.zero_le 1
  | serving v handled =>
    cases (seated : p = .idle)
    have := Bool.toNat_le (f v)
    show 0 + ((f v).toNat + 0) + 0 ≤ 1
    omega
  | ended e =>
    cases (seated : p = .idle)
    exact Bool.toNat_le (Worker.ended e).isDown

/-- As long as a worker tries to take, fewer visitors than workers that bring workers down have been
delivered. -/
private theorem countP_delivered_lt (h : crew.Seated capacity) (conserved : crew.Conserved)
    (ledger : crew.Ledger) {i handled : Nat} {p : Phase Visitor} {c : Call Visitor}
    (taking : crew.workers[i]? = some (.taking handled))
    (found : crew.sharing.threads[threadOf i]? = some p) (tries : p.trying? = some c) :
    crew.sharing.delivered.countP crew.site.felledBy < crew.workers.length := by
  rw [countP_delivered conserved ledger]
  obtain ⟨p₀, first, supplies⟩ := h.owner
  have hlen := h.length_eq
  have seats := h.seat
  cases hthreads : crew.sharing.threads with
  | nil =>
    rw [hthreads] at first
    cases first
  | cons head rest =>
    rw [hthreads] at first found hlen seats
    cases first
    have free : p₀.taken (fun v => (crew.site.felledBy v).toNat) = 0 := by
      cases p₀ with
      | answered reply =>
        cases reply with
        | item => exact supplies.elim
        | _ => rfl
      | _ => rfl
    rw [total_cons, free, Nat.zero_add]
    refine total_add_total_lt (Nat.succ.inj hlen) (fun j w q hw hq => ?_) taking found ?_
    · obtain ⟨q', hq', seated⟩ := seats j w hw
      cases hq.symm.trans hq'
      exact seat_le_one _ seated
    · rw [Phase.taken_of_trying? tries]
      rfl

theorem stopped_start (site : Site) (capacity workers : Nat) :
    (start site capacity workers).Stopped := upToCrash_nil _

theorem Transition.stopped (step : crew.Transition mover next) (h : crew.Seated capacity)
    (conserved : crew.Conserved) (ledger : crew.Ledger) (stopped : crew.Stopped) :
    next.Stopped := by
  unfold Stopped at stopped ⊢
  cases step with
  | own mine noTake step =>
    rcases (h.reached.transition step).delivered_cases with same |
      ⟨i, _, p, _, rfl, found, tries, _⟩
    · simp only [same, stopped]
    · cases mine
      obtain ⟨p', found', supplies⟩ := h.owner
      cases found.symm.trans found'
      rcases Phase.trying?_eq_some_iff.mp tries with rfl | rfl | rfl <;> exact supplies.elim
  | hire =>
    show upToCrash _ (crew.workers ++ [_]).length crew.sharing.delivered = crew.sharing.delivered
    rw [List.length_append, List.length_singleton]
    exact upToCrash_succ stopped
  | turn taking found turn step =>
    rcases (h.reached.transition step).delivered_cases with same |
      ⟨i, _, p, v, rfl, found', tries, more⟩
    · simp only [same, stopped]
    · cases turn.mover?_eq rfl
      -- The worker that takes is up, so that not all of them can be down.
      have few := countP_delivered_lt h conserved ledger taking found' tries
      simp only [more]
      rw [upToCrash_append few]
      obtain ⟨n, hn⟩ := Nat.exists_eq_add_of_lt few
      rw [hn, Nat.add_assoc, Nat.add_sub_cancel_left, upToCrash, upToCrash_nil]
  | back taking found step =>
    rcases (h.reached.transition step).delivered_cases with same | ⟨_, _, _, _, heq, _⟩
    · simp only [same, List.length_set, stopped]
    · cases heq
  | serve =>
    simp only [Crew.serve, List.length_set]
    exact stopped
  | rouse step =>
    rcases (h.reached.transition step).delivered_cases with same | ⟨_, _, _, _, heq, _⟩
    · simp only [same, stopped]
    · cases heq

/-- All that holds of a crew at a clean lock whatever its schedule, and whatever becomes of the
files. -/
structure Steady (capacity : Nat) (crew : Crew) : Prop where
  seated : crew.Seated capacity
  conserved : crew.Conserved
  finished : crew.Finished
  ledger : crew.Ledger
  stopped : crew.Stopped

theorem steady_start (site : Site) (capacity workers : Nat) :
    (start site capacity workers).Steady capacity where
  seated := seated_start site capacity workers
  conserved := conserved_start site capacity workers
  finished := finished_start site capacity workers
  ledger := ledger_start site capacity workers
  stopped := stopped_start site capacity workers

theorem Transition.steady (step : crew.Transition mover next) (h : crew.Steady capacity) :
    next.Steady capacity where
  seated := step.seated h.seated
  conserved := step.conserved h.seated h.conserved
  finished := step.finished h.seated h.finished
  ledger := step.ledger h.seated h.ledger
  stopped := step.stopped h.seated h.conserved h.ledger h.stopped

/-- A crew stays steady when its files change. -/
theorem Steady.changes (h : crew.Steady capacity) (site : Site) :
    { crew with site }.Steady capacity := by
  have same := Site.felledBy_eq crew.site site
  obtain ⟨seated, conserved, finished, ledger, stopped⟩ := h
  refine ⟨⟨seated.reached, seated.isClean, seated.length_eq, seated.owner, seated.seat⟩, conserved,
    finished, ⟨ledger.unfailed, ledger.genuine, ?_, ?_, ledger.handled_eq, ?_⟩, ?_⟩
  · exact same ▸ ledger.down_iff
  · exact same ▸ ledger.down_count
  · exact same ▸ ledger.events_eq
  · unfold Stopped at stopped ⊢
    exact same ▸ stopped

/-- All that holds of a crew at a clean lock whatever its schedule, while the files stay as they
are. -/
structure Orderly (capacity : Nat) (crew : Crew) : Prop extends Steady capacity crew where
  booked : crew.Booked

theorem orderly_start (site : Site) (capacity workers : Nat) :
    (start site capacity workers).Orderly capacity :=
  ⟨steady_start site capacity workers, booked_start site capacity workers⟩

theorem Transition.orderly (step : crew.Transition mover next) (h : crew.Orderly capacity) :
    next.Orderly capacity :=
  ⟨step.steady h.toSteady, step.booked h.booked⟩

end Crew

end StaticHttp
