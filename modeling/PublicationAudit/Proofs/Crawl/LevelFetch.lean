import PublicationAudit.Crawl.Concurrent
import PublicationAudit.Proofs.Crawl.Merging

/-!
# Fetching one level

The requests of a level on their way, whatever order their answers arrive in. `LevelFetch.Reached`
is the account that every step keeps: which requests are delivered, in the window and waiting, that
the answers are the right ones, how many fetches are in flight and how many events there were. What
a level comes to is read off it: when all is delivered, the answers are those to the requests in
their order (`Reached.complete`), and until then there is a step (`continues`). The section on runs
holds what is true of any machine.
-/

namespace PublicationAudit

/-! ## Runs of a machine -/

section Runs

variable {σ ε : Type} {step : σ → ε → σ → Prop} {start state next last : σ} {event : ε}
  {events more : List ε}

/-- A step before a run makes a run. -/
theorem Runs.head (hstep : step start event next) (hruns : Runs step next more last) :
    Runs step start (event :: more) last := by
  induction hruns with
  | refl => exact .tail .refl hstep
  | tail _ hlast ih => exact .tail ih hlast

/-- A machine that makes a bounded number of steps, and is never stuck before it is done, gets done
from wherever it is. -/
theorem Runs.exists_done {done : σ → Prop} {bound : Nat}
    (hbound : ∀ events state, Runs step start events state → events.length ≤ bound)
    (hgoes : ∀ events state, Runs step start events state →
      done state ∨ ∃ event next, step state event next)
    (hruns : Runs step start events state) :
    ∃ more last, Runs step state more last ∧ done last := by
  -- The induction is on the number of steps that are left.
  induction hleft : bound - events.length generalizing events state with
  | zero =>
      rcases hgoes events state hruns with hdone | ⟨event, next, hstep⟩
      · exact ⟨[], state, .refl, hdone⟩
      · have hlonger := hbound _ next (hruns.tail hstep)
        rw [List.length_append, List.length_singleton] at hlonger
        omega
  | succ left ih =>
      rcases hgoes events state hruns with hdone | ⟨event, next, hstep⟩
      · exact ⟨[], state, .refl, hdone⟩
      · have hfewer : bound - (events ++ [event]).length = left := by
          rw [List.length_append, List.length_singleton]
          omega
        obtain ⟨more, last, hmore, hdone⟩ := ih (hruns.tail hstep) hfewer
        exact ⟨event :: more, last, hmore.head hstep, hdone⟩

/-- A run after a run makes a run. -/
theorem Runs.append (hruns : Runs step start events state) (hmore : Runs step state more last) :
    Runs step start (events ++ more) last := by
  induction hmore with
  | refl => rwa [List.append_nil]
  | tail _ hlast ih =>
      rw [← List.append_assoc]
      exact .tail ih hlast

end Runs

/-! ## One level -/

/-- The requests whose fetch began, in order. -/
def launchedIn (events : List FetchEvent) : List String :=
  events.filterMap fun
    | .launched iri => some iri
    | _ => none

/-- An answer is that of the dereferencer and has arrived. -/
def Arrived (dereference : Dereferencer) (events : List FetchEvent) (iri : String)
    (answer : Answer) : Prop :=
  answer = dereference iri ∧ .arrived iri ∈ events

/-- What has arrived has arrived for good. -/
theorem Arrived.append {dereference : Dereferencer} {events : List FetchEvent} {iri : String}
    {answer : Answer} (h : Arrived dereference events iri answer) (event : FetchEvent) :
    Arrived dereference (events ++ [event]) iri answer :=
  ⟨h.1, List.mem_append_left _ h.2⟩

namespace LevelFetch

/-- Where a level of requests is after some events: every request is delivered, in the window or
waits, in this order; the answers that are there have arrived; no more fetches than allowed are in
flight; and each request has left at most three events. -/
structure Reached (limit : Nat) (dereference : Dereferencer) (iris : List String)
    (events : List FetchEvent) (fetch : LevelFetch) : Prop where
  requests : fetch.delivered.map Prod.fst ++ fetch.window.map Prod.fst ++ fetch.waiting = iris
  launched : launchedIn events ++ fetch.waiting = iris
  window : ∀ iri answer, (iri, some answer) ∈ fetch.window →
    Arrived dereference events iri answer
  delivered : ∀ iri answer, (iri, answer) ∈ fetch.delivered →
    Arrived dereference events iri answer
  limited : fetch.inFlight ≤ limit
  counted : events.length + fetch.inFlight = 3 * fetch.delivered.length + 2 * fetch.window.length

variable {limit : Nat} {dereference : Dereferencer} {iris : List String}
  {events : List FetchEvent} {fetch later : LevelFetch} {event : FetchEvent}

/-- Before any event all requests wait. -/
theorem reached_start : Reached limit dereference iris [] (.start iris) where
  requests := rfl
  launched := rfl
  window := by
    intro iri answer hmem
    cases hmem
  delivered := by
    intro iri answer hmem
    cases hmem
  limited := Nat.zero_le limit
  counted := rfl

/-- A step keeps the account of a level. -/
theorem Reached.step (h : Reached limit dereference iris events fetch)
    (hstep : Step limit dereference fetch event later) :
    Reached limit dereference iris (events ++ [event]) later := by
  obtain ⟨hrequests, hlaunched, hwindow, hdelivered, hlimited, hcounted⟩ := h
  -- A launch puts a fetch in flight, an arrival takes it out, and a delivery moves the request on:
  -- that is what keeps the count of events.
  cases hstep with
  | launch hfree =>
      refine ⟨by simpa using hrequests, by simpa [launchedIn] using hlaunched, ?_,
        fun iri answer hmem => (hdelivered iri answer hmem).append _, ?_, ?_⟩
      · -- A fetch that begins has no answer yet.
        intro iri answer hmem
        rcases List.mem_append.1 hmem with hold | hnew
        · exact (hwindow iri answer hold).append _
        · cases List.mem_singleton.1 hnew
      · simpa [List.countP_append] using Nat.succ_le_of_lt hfree
      · simp [List.countP_append] at hcounted ⊢
        omega
  | arrive =>
      refine ⟨by simpa using hrequests, by simpa [launchedIn] using hlaunched, ?_,
        fun iri answer hmem => (hdelivered iri answer hmem).append _, ?_, ?_⟩
      · -- Only the answer that arrives is new in the window, and it is the right one.
        intro iri answer hmem
        rcases List.mem_append.1 hmem with hbefore | hrest
        · exact (hwindow iri answer (List.mem_append_left _ hbefore)).append _
        · rcases List.mem_cons.1 hrest with hhere | hafter
          · cases hhere
            exact ⟨rfl, List.mem_append_right _ List.mem_cons_self⟩
          · exact (hwindow iri answer
              (List.mem_append_right _ (List.mem_cons_of_mem _ hafter))).append _
      · simp [List.countP_append] at hlimited ⊢
        omega
      · simp [List.countP_append] at hcounted ⊢
        omega
  | deliver =>
      refine ⟨by simpa using hrequests, by simpa [launchedIn] using hlaunched,
        fun iri answer hmem => (hwindow iri answer (List.mem_cons_of_mem _ hmem)).append _, ?_,
        ?_, ?_⟩
      · intro iri answer hmem
        rcases List.mem_append.1 hmem with hold | hnew
        · exact (hdelivered iri answer hold).append _
        · cases List.mem_singleton.1 hnew
          exact (hwindow _ _ List.mem_cons_self).append _
      · simpa using hlimited
      · simp at hcounted ⊢
        omega

/-- What is left of a level whose requests are all delivered: every fetch began, in order, and every
answer arrived. -/
structure Complete (iris : List String) (events : List FetchEvent) : Prop where
  launched : launchedIn events = iris
  arrived : ∀ iri ∈ iris, .arrived iri ∈ events
  length_le : events.length ≤ 3 * iris.length

/-- A request leaves at most three events. -/
theorem Reached.length_le (h : Reached limit dereference iris events fetch) :
    events.length ≤ 3 * iris.length := by
  have hcounted := h.counted
  have hlength := congrArg List.length h.requests
  simp only [List.length_append, List.length_map] at hlength
  omega

/-- When all is delivered, the answers are there in the order of the requests, whenever they
arrived. -/
theorem Reached.complete {answers : List (String × Answer)}
    (h : Reached limit dereference iris events ⟨[], [], answers⟩) :
    answers = Crawl.answersTo dereference iris ∧ Complete iris events := by
  have hiris : answers.map Prod.fst = iris := by simpa using h.requests
  refine ⟨?_, by simpa using h.launched, fun iri hiri => ?_, h.length_le⟩
  · rw [← hiris, Crawl.answersTo, List.map_map]
    refine (List.map_id answers).symm.trans (List.map_congr_left fun entry hentry => ?_)
    exact Prod.ext rfl (h.delivered entry.1 entry.2 hentry).1
  · rw [← hiris] at hiri
    obtain ⟨entry, hentry, rfl⟩ := List.mem_map.1 hiri
    exact (h.delivered entry.1 entry.2 hentry).2

/-- A level goes on until all is delivered. -/
theorem continues (hlimit : 0 < limit) (dereference : Dereferencer) (fetch : LevelFetch) :
    (∃ answers, fetch = ⟨[], [], answers⟩) ∨
      ∃ event later, Step limit dereference fetch event later := by
  match fetch with
  | ⟨[], [], answers⟩ => exact .inl ⟨answers, rfl⟩
  | ⟨iri :: waiting, [], delivered⟩ => exact .inr ⟨_, _, .launch hlimit⟩
  | ⟨waiting, (iri, none) :: window, delivered⟩ =>
      exact .inr ⟨_, _, @Step.arrive limit dereference iri waiting [] window delivered⟩
  | ⟨waiting, (iri, some answer) :: window, delivered⟩ => exact .inr ⟨_, _, .deliver⟩

end LevelFetch

end PublicationAudit
