import PublicationAudit.Proofs.Crawl.LevelFetch
import PublicationAudit.Proofs.Crawl.Requests

/-!
# Concurrency does not show

Answers that arrive in any order leave the same crawl. `CrawlState.Scheduled` is the account of a
crawl that every step keeps: the first level runs to its end and is merged, then the second does.
The main statement, `runs_asSequential`, reads off it that every schedule ends, and ends where
fetching one after the other does.
-/

namespace PublicationAudit

/-- What happened to the requests of a level. -/
def eventsOf (level : CrawlLevel) (events : List CrawlEvent) : List FetchEvent :=
  events.filterMap fun
    | .fetch here event => if here = level then some event else none
    | .merged _ => none

/-- The requests that a level made, in order. -/
def requestsOf (level : CrawlLevel) (events : List CrawlEvent) : List String :=
  launchedIn (eventsOf level events)

@[simp] theorem eventsOf_append (level : CrawlLevel) (events more : List CrawlEvent) :
    eventsOf level (events ++ more) = eventsOf level events ++ eventsOf level more :=
  List.filterMap_append

@[simp] theorem eventsOf_nil (level : CrawlLevel) : eventsOf level [] = [] := rfl

@[simp] theorem eventsOf_merged (level here : CrawlLevel) (events : List CrawlEvent) :
    eventsOf level (.merged here :: events) = eventsOf level events := rfl

@[simp] theorem eventsOf_map_fetch (level here : CrawlLevel) (events : List FetchEvent) :
    eventsOf level (events.map (.fetch here)) = if here = level then events else [] := by
  split
  · rename_i hhere
    simp [eventsOf, List.filterMap_map, hhere]
  · rename_i hother
    simp [eventsOf, List.filterMap_map, hother]

/-- One fetch may always be in flight. -/
theorem CrawlPolicy.fetchLimit_pos (policy : CrawlPolicy) : 0 < policy.fetchLimit :=
  Nat.lt_of_lt_of_le Nat.one_pos (Nat.le_max_right _ _)

namespace CrawlState

open LevelFetch

variable {policy : CrawlPolicy} {dereference : Dereferencer} {facts : FactSet}

/-- What a crawl has come to after some events, phase by phase. -/
inductive Scheduled (policy : CrawlPolicy) (dereference : Dereferencer) (facts : FactSet) :
    List CrawlEvent → CrawlState → Prop where
  | first {events : List FetchEvent} {fetch : LevelFetch} :
      Reached policy.fetchLimit dereference (Crawl.firstLevel facts) events fetch →
      Scheduled policy dereference facts (events.map (.fetch .first))
        (.fetching .first (.start facts) fetch)
  | second {before events : List FetchEvent} {fetch : LevelFetch} :
      Complete (Crawl.firstLevel facts) before →
      Reached policy.fetchLimit dereference (Crawl.secondLevel policy dereference facts) events
        fetch →
      Scheduled policy dereference facts
        (before.map (.fetch .first) ++ [.merged .first] ++ events.map (.fetch .second))
        (.fetching .second (Crawl.afterFirstLevel dereference facts) fetch)
  | stopped {before : List FetchEvent} :
      Complete (Crawl.firstLevel facts) before →
      Crawl.secondLevel policy dereference facts = [] →
      Scheduled policy dereference facts (before.map (.fetch .first) ++ [.merged .first])
        (.finished (Crawl.run policy dereference facts))
  | finished {before events : List FetchEvent} :
      Complete (Crawl.firstLevel facts) before →
      Complete (Crawl.secondLevel policy dereference facts) events →
      Scheduled policy dereference facts
        (before.map (.fetch .first) ++ [.merged .first] ++ events.map (.fetch .second) ++
          [.merged .second])
        (.finished (Crawl.run policy dereference facts))

/-- Where the merging of the first level leads. -/
theorem afterLevel_first (policy : CrawlPolicy) (dereference : Dereferencer) (facts : FactSet) :
    afterLevel policy (.start facts) (Crawl.answersTo dereference (Crawl.firstLevel facts))
        .first =
      if Crawl.stopsAfterFirstLevel policy (Crawl.afterFirstLevel dereference facts).facts then
        .finished (Crawl.afterFirstLevel dereference facts)
      else .fetching .second (Crawl.afterFirstLevel dereference facts)
        (.start (Crawl.entityReferences (Crawl.firstLevel facts)
          (dereference.bodyMentions (Crawl.firstLevel facts)))) := by
  simp only [afterLevel, Crawl.governingBodyIris_documentsOf]
  rw [← Crawl.afterFirstLevel, Crawl.afterFirstLevel_requests]

/-- The merging of the first level keeps the account of a crawl. -/
theorem Scheduled.merge_first {before : List FetchEvent}
    (h : Complete (Crawl.firstLevel facts) before) :
    Scheduled policy dereference facts (before.map (.fetch .first) ++ [.merged .first])
      (afterLevel policy (.start facts) (Crawl.answersTo dereference (Crawl.firstLevel facts))
        .first) := by
  rw [afterLevel_first, Crawl.afterFirstLevel_facts]
  by_cases hstops : Crawl.stopsAfterFirstLevel policy
      (facts.extend (dereference.documents (Crawl.firstLevel facts))).2 = true
  · have hsecond : Crawl.secondLevel policy dereference facts = [] := by
      rw [Crawl.secondLevel, if_pos hstops]
    have hrun : Crawl.afterFirstLevel dereference facts = Crawl.run policy dereference facts := by
      rw [Crawl.run_eq_takeLevel, hsecond]
      rfl
    rw [if_pos hstops, hrun]
    exact .stopped h hsecond
  · have hsecond : Crawl.entityReferences (Crawl.firstLevel facts)
          (dereference.bodyMentions (Crawl.firstLevel facts)) =
        Crawl.secondLevel policy dereference facts := by
      rw [Crawl.secondLevel, if_neg hstops]
    rw [if_neg hstops, hsecond]
    have hscheduled : Scheduled policy dereference facts
        (before.map (.fetch .first) ++ [.merged .first] ++ [].map (.fetch .second)) _ :=
      .second h reached_start
    rwa [List.map_nil, List.append_nil] at hscheduled

/-- A step keeps the account of a crawl. -/
theorem Scheduled.step {events : List CrawlEvent} {state next : CrawlState} {event : CrawlEvent}
    (h : Scheduled policy dereference facts events state)
    (hstep : Step policy dereference state event next) :
    Scheduled policy dereference facts (events ++ [event]) next := by
  cases h with
  | first hreached =>
      cases hstep with
      | fetch hfetch =>
          rw [← List.map_singleton, ← List.map_append]
          exact .first (hreached.step hfetch)
      | merge =>
          obtain ⟨rfl, hcomplete⟩ := hreached.complete
          exact .merge_first hcomplete
  | second hcomplete hreached =>
      cases hstep with
      | fetch hfetch => simpa using Scheduled.second hcomplete (hreached.step hfetch)
      | merge =>
          obtain ⟨rfl, hsecond⟩ := hreached.complete
          have hrun : (Crawl.afterFirstLevel dereference facts).takeLevel
                (Crawl.answersTo dereference (Crawl.secondLevel policy dereference facts)) =
              Crawl.run policy dereference facts := (Crawl.run_eq_takeLevel _ _ _).symm
          rw [afterLevel, hrun]
          exact .finished hcomplete hsecond
  | stopped => cases hstep
  | finished => cases hstep

/-- Every schedule keeps the account of a crawl. -/
theorem scheduled {events : List CrawlEvent} {state : CrawlState}
    (hruns : Runs (Step policy dereference) (start facts) events state) :
    Scheduled policy dereference facts events state := by
  induction hruns with
  | refl => exact Scheduled.first reached_start
  | tail _ hstep ih => exact ih.step hstep

/-! ## What every schedule shows -/

section Scheduled

variable {events : List CrawlEvent} {state : CrawlState}

/-- No more fetches are in flight than allowed. -/
theorem Scheduled.limited (h : Scheduled policy dereference facts events state) :
    state.inFlight ≤ policy.fetchLimit := by
  cases h with
  | first hreached => exact hreached.limited
  | second _ hreached => exact hreached.limited
  | stopped => exact Nat.zero_le _
  | finished => exact Nat.zero_le _

/-- A request leaves at most three events, and a level one more. -/
theorem Scheduled.length_le (h : Scheduled policy dereference facts events state) :
    events.length ≤ 3 * (Crawl.allRequests policy dereference facts).length + 2 := by
  rw [Crawl.allRequests, List.length_append]
  cases h with
  | first hreached =>
      have hfirst := hreached.length_le
      simp only [List.length_map]
      omega
  | second hfirst hreached =>
      have hfirst := hfirst.length_le
      have hsecond := hreached.length_le
      simp only [List.length_append, List.length_map, List.length_singleton]
      omega
  | stopped hfirst =>
      have hfirst := hfirst.length_le
      simp only [List.length_append, List.length_map, List.length_singleton]
      omega
  | finished hfirst hsecond =>
      have hfirst := hfirst.length_le
      have hsecond := hsecond.length_le
      simp only [List.length_append, List.length_map, List.length_singleton]
      omega

/-- A crawl goes on until it is finished, with the outcome of a crawl that fetches one after the
other. -/
theorem Scheduled.continues (h : Scheduled policy dereference facts events state) :
    state = .finished (Crawl.run policy dereference facts) ∨
      ∃ event next, Step policy dereference state event next := by
  have hgoes : ∀ level crawl fetch,
      ∃ event next, Step policy dereference (.fetching level crawl fetch) event next := by
    intro level crawl fetch
    rcases LevelFetch.continues policy.fetchLimit_pos dereference fetch with
      ⟨answers, rfl⟩ | ⟨event, later, hstep⟩
    · exact ⟨_, _, .merge⟩
    · exact ⟨_, _, .fetch hstep⟩
  cases h with
  | first => exact .inr (hgoes _ _ _)
  | second => exact .inr (hgoes _ _ _)
  | stopped => exact .inl rfl
  | finished => exact .inl rfl

/-- When something happens to a request of the second level, every answer of the first has arrived
and is merged. -/
theorem Scheduled.separate (h : Scheduled policy dereference facts events state)
    {event : FetchEvent} {next : CrawlState}
    (hstep : Step policy dereference state (.fetch .second event) next) :
    (∀ iri ∈ Crawl.firstLevel facts, .fetch .first (.arrived iri) ∈ events) ∧
      .merged .first ∈ events ∧ state.crawl = Crawl.afterFirstLevel dereference facts := by
  cases h with
  | first => cases hstep
  | second hcomplete hreached =>
      refine ⟨fun iri hiri => ?_, by simp, rfl⟩
      exact List.mem_append_left _ (List.mem_append_left _
        (List.mem_map_of_mem (hcomplete.arrived iri hiri)))
  | stopped => cases hstep
  | finished => cases hstep

/-- A finished crawl has made the requests of its levels and has the outcome of one that fetches one
after the other. -/
theorem Scheduled.outcome {crawl : Crawl}
    (h : Scheduled policy dereference facts events (.finished crawl)) :
    crawl = Crawl.run policy dereference facts ∧
      requestsOf .first events = Crawl.firstLevel facts ∧
      requestsOf .second events = Crawl.secondLevel policy dereference facts := by
  cases h with
  | stopped hfirst hsecond =>
      refine ⟨rfl, ?_, ?_⟩
      · simpa [requestsOf] using hfirst.launched
      · rw [hsecond]
        simp [requestsOf, launchedIn]
  | finished hfirst hsecond =>
      refine ⟨rfl, ?_, ?_⟩
      · simpa [requestsOf] using hfirst.launched
      · simpa [requestsOf] using hsecond.launched

end Scheduled

/-- The steps of a crawl depend on how many fetches may be in flight alone. -/
theorem step_withLimit {fetches : Nat}
    (hlimit : policy.fetchLimit =
      CrawlPolicy.fetchLimit { policy with maxConcurrentFetches := fetches })
    {state next : CrawlState} {event : CrawlEvent} :
    Step policy dereference state event next ↔
      Step { policy with maxConcurrentFetches := fetches } dereference state event next := by
  constructor
  · rintro (hfetch | _)
    · exact .fetch (hlimit ▸ hfetch)
    · exact .merge
  · rintro (hfetch | _)
    · exact .fetch (hlimit ▸ hfetch)
    · exact .merge

/-- What a crawl shows while it is under way, whatever its schedule: that of fetching one after the
other.

No more fetches are in flight than allowed, and a number of zero allows what one does. There is no
schedule without end, and none that is stuck before the crawl is finished. When something happens
to a request of the second level, the answers to the first have arrived and are merged. A finished
crawl has the outcome of a sequential schedule, and both made the same requests in each level. -/
structure AsSequential (policy : CrawlPolicy) (dereference : Dereferencer) (facts : FactSet)
    (first second : List String) (events : List CrawlEvent) (state : CrawlState) : Prop where
  levels : RequestLevels policy dereference facts first second
  limited : state.inFlight ≤ max policy.maxConcurrentFetches 1
  zero : policy.maxConcurrentFetches = 0 → ∀ event next,
    Step policy dereference state event next ↔
      Step { policy with maxConcurrentFetches := 1 } dereference state event next
  bounded : events.length ≤ 3 * (first ++ second).length + 2
  completes : ∃ more, Runs (Step policy dereference) state more
    (.finished (Crawl.run policy dereference facts))
  separate : ∀ event next, Step policy dereference state (.fetch .second event) next →
    (∀ iri ∈ first, .fetch .first (.arrived iri) ∈ events) ∧ .merged .first ∈ events ∧
      state.crawl = (Crawl.start facts).takeLevel (Crawl.answersTo dereference first)
  outcome : ∀ crawl, state = .finished crawl → crawl = Crawl.run policy dereference facts ∧
    requestsOf .first events = first ∧ requestsOf .second events = second
  sequential : ∃ sequential,
    Runs (Step { policy with maxConcurrentFetches := 1 } dereference) (start facts) sequential
        (.finished (Crawl.run policy dereference facts)) ∧
      requestsOf .first sequential = first ∧ requestsOf .second sequential = second

/-- Every schedule can be brought to its end, and there the crawl is that of fetching one after the
other. -/
theorem exists_finished {events : List CrawlEvent} {state : CrawlState}
    (hruns : Runs (Step policy dereference) (start facts) events state) :
    ∃ more, Runs (Step policy dereference) state more
      (.finished (Crawl.run policy dereference facts)) := by
  obtain ⟨more, last, hmore, rfl⟩ := Runs.exists_done
    (fun _ _ h => (scheduled h).length_le) (fun _ _ h => (scheduled h).continues) hruns
  exact ⟨more, hmore⟩

/-- There is a schedule in which no two fetches are in flight at once, and it has the outcome of the
crawl. -/
theorem exists_sequential (policy : CrawlPolicy) (dereference : Dereferencer) (facts : FactSet) :
    ∃ sequential,
      Runs (Step { policy with maxConcurrentFetches := 1 } dereference) (start facts) sequential
          (.finished (Crawl.run policy dereference facts)) ∧
        requestsOf .first sequential = Crawl.firstLevel facts ∧
        requestsOf .second sequential = Crawl.secondLevel policy dereference facts := by
  have hbegins : Runs (Step { policy with maxConcurrentFetches := 1 } dereference) (start facts) []
      (start facts) := .refl
  obtain ⟨sequential, hsequential⟩ := exists_finished hbegins
  exact ⟨sequential, hsequential, (scheduled hsequential).outcome.2⟩

/-- Concurrency does not show: in every schedule of a crawl, with any number of fetches in flight
and any order of their answers, no request of the second level is under way before the first is
merged, and what the crawl has requested and found in the end is what it has in a schedule that
fetches one after the other. -/
theorem runs_asSequential {policy : CrawlPolicy} {dereference : Dereferencer} {facts : FactSet}
    {events : List CrawlEvent} {state : CrawlState}
    (hruns : Runs (Step policy dereference) (start facts) events state) :
    ∃ first second, AsSequential policy dereference facts first second events state := by
  have hscheduled := scheduled hruns
  refine ⟨Crawl.firstLevel facts, Crawl.secondLevel policy dereference facts,
    Crawl.requestLevels policy dereference facts, hscheduled.limited, fun hzero _ _ => ?_,
    hscheduled.length_le, exists_finished hruns, fun _ _ hstep => hscheduled.separate hstep, ?_,
    exists_sequential policy dereference facts⟩
  · refine step_withLimit ?_
    rw [CrawlPolicy.fetchLimit, hzero]
    rfl
  · rintro crawl rfl
    exact hscheduled.outcome

/-- How a crawl from a meeting can begin: the council's document is there before the chair's. -/
def councilArrivesFirst : List CrawlEvent :=
  [.fetch .first (.launched "/personen/chair"),
    .fetch .first (.launched "/bestuursorganen/council"),
    .fetch .first (.arrived "/bestuursorganen/council")]

/-- The crawl can begin that way. -/
theorem runs_councilArrivesFirst :
    Runs (Step {} Crawl.councilDocuments) (start Crawl.meeting) councilArrivesFirst
      (.fetching .first (.start Crawl.meeting)
        ⟨[], [("/personen/chair", none), ("/bestuursorganen/council",
          some (Crawl.councilDocuments "/bestuursorganen/council"))], []⟩) := by
  have hstart : start Crawl.meeting = .fetching .first (.start Crawl.meeting)
      ⟨["/personen/chair", "/bestuursorganen/council"], [], []⟩ := by
    have hfirst : Crawl.entityReferences [] Crawl.meeting.iris =
        ["/personen/chair", "/bestuursorganen/council"] := by decide
    rw [start, hfirst]
    rfl
  rw [hstart]
  refine .head (.fetch (.launch (by decide))) ?_
  refine .head (.fetch (.launch (by decide))) ?_
  refine .head (.fetch ?_) .refl
  exact @LevelFetch.Step.arrive _ _ _ _ [("/personen/chair", none)] _ _

/-- Brought to its end, it has the outcome of a sequential one. -/
theorem councilArrivesFirst_asSequential :
    ∃ more state, Runs (Step {} Crawl.councilDocuments) (start Crawl.meeting)
        (councilArrivesFirst ++ more) state ∧
      state = .finished (Crawl.run {} Crawl.councilDocuments Crawl.meeting) ∧
      ∃ first second, AsSequential {} Crawl.councilDocuments Crawl.meeting first second
        (councilArrivesFirst ++ more) state := by
  obtain ⟨more, hmore⟩ := exists_finished runs_councilArrivesFirst
  have hruns := runs_councilArrivesFirst.append hmore
  exact ⟨more, _, hruns, rfl, runs_asSequential hruns⟩

end CrawlState

end PublicationAudit
