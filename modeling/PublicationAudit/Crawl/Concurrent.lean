import PublicationAudit.Crawl.Basic

/-!
# Crawling with several fetches at once

A crawl does not wait for one fetch before it begins the next. Here it is a machine of small steps:
a fetch begins, its answer arrives, an answer is delivered, and a level is merged when all its
answers are there. Fetches begin and answers are delivered in the order of the requests, but answers
arrive in any order, so a state can have many steps and a crawl many schedules.

A fetch may begin while fewer than the allowed number are in flight. Whether an answer that has
arrived and waits for its turn still takes a place makes no difference here: schedules in which it
does are among those in which it does not.
-/

namespace PublicationAudit

/-- A machine gets from one state to another by steps, which leave a record of what happened. -/
inductive Runs {σ ε : Type} (step : σ → ε → σ → Prop) (start : σ) : List ε → σ → Prop where
  | refl : Runs step start [] start
  | tail {events : List ε} {state next : σ} {event : ε} :
      Runs step start events state → step state event next →
      Runs step start (events ++ [event]) next

/-! ## One level -/

/-- The answer to a request. -/
abbrev Answer := Except Failure (List Fact)

/-- The requests of one level on their way. -/
structure LevelFetch where
  /-- The requests whose fetch has not begun. -/
  waiting : List String
  /-- The requests whose answer is to be delivered, each with its answer once that has arrived. -/
  window : List (String × Option Answer)
  delivered : List (String × Answer)

/-- What happens to a request. -/
inductive FetchEvent where
  | launched (iri : String)
  | arrived (iri : String)
  | delivered (iri : String)
  deriving DecidableEq, Repr

namespace LevelFetch

/-- A level of which no fetch has begun. -/
def start (iris : List String) : LevelFetch := ⟨iris, [], []⟩

/-- The number of fetches in flight. -/
def inFlight (fetch : LevelFetch) : Nat := fetch.window.countP fun entry => entry.2.isNone

@[simp] theorem inFlight_mk (waiting : List String) (window : List (String × Option Answer))
    (delivered : List (String × Answer)) :
    inFlight ⟨waiting, window, delivered⟩ = window.countP fun entry => entry.2.isNone := rfl

/-- The steps of a level when at most `limit` fetches are in flight. -/
inductive Step (limit : Nat) (dereference : Dereferencer) :
    LevelFetch → FetchEvent → LevelFetch → Prop where
  | launch {iri : String} {waiting : List String} {window : List (String × Option Answer)}
      {delivered : List (String × Answer)} :
      inFlight ⟨iri :: waiting, window, delivered⟩ < limit →
      Step limit dereference ⟨iri :: waiting, window, delivered⟩ (.launched iri)
        ⟨waiting, window ++ [(iri, none)], delivered⟩
  | arrive {iri : String} {waiting : List String} {before after : List (String × Option Answer)}
      {delivered : List (String × Answer)} :
      Step limit dereference ⟨waiting, before ++ (iri, none) :: after, delivered⟩ (.arrived iri)
        ⟨waiting, before ++ (iri, some (dereference iri)) :: after, delivered⟩
  | deliver {iri : String} {answer : Answer} {waiting : List String}
      {window : List (String × Option Answer)} {delivered : List (String × Answer)} :
      Step limit dereference ⟨waiting, (iri, some answer) :: window, delivered⟩ (.delivered iri)
        ⟨waiting, window, delivered ++ [(iri, answer)]⟩

end LevelFetch

/-! ## The whole crawl -/

/-- The number of fetches that may be in flight at once; one always may. -/
def CrawlPolicy.fetchLimit (policy : CrawlPolicy) : Nat := max policy.maxConcurrentFetches 1

/-- A level of a crawl. -/
inductive CrawlLevel where
  | first
  | second
  deriving DecidableEq, Repr

/-- What happens in a crawl. -/
inductive CrawlEvent where
  | fetch (level : CrawlLevel) (event : FetchEvent)
  | merged (level : CrawlLevel)
  deriving DecidableEq, Repr

/-- A crawl under way, with what it has merged so far. -/
inductive CrawlState where
  | fetching (level : CrawlLevel) (crawl : Crawl) (fetch : LevelFetch)
  | finished (crawl : Crawl)

namespace CrawlState

/-- A crawl begins with its first level. -/
def start (facts : FactSet) : CrawlState :=
  .fetching .first (.start facts) (.start (Crawl.entityReferences [] facts.iris))

/-- What has been merged so far. -/
def crawl : CrawlState → Crawl
  | fetching _ crawl _ => crawl
  | finished crawl => crawl

/-- The number of fetches in flight. -/
def inFlight : CrawlState → Nat
  | fetching _ _ fetch => fetch.inFlight
  | finished _ => 0

/-- Where a crawl gets when it merges the answers of a level. -/
def afterLevel (policy : CrawlPolicy) (crawl : Crawl) (answers : List (String × Answer)) :
    CrawlLevel → CrawlState
  | .first =>
    let merged := crawl.takeLevel answers
    if Crawl.stopsAfterFirstLevel policy merged.facts then .finished merged
    else
      let mentioned := Crawl.governingBodyIris (Crawl.documentsOf answers)
      .fetching .second merged (.start (Crawl.entityReferences merged.requests mentioned))
  | .second => .finished (crawl.takeLevel answers)

/-- The steps of a crawl. A level is merged at once when the last of its answers is delivered and no
request waits. -/
inductive Step (policy : CrawlPolicy) (dereference : Dereferencer) :
    CrawlState → CrawlEvent → CrawlState → Prop where
  | fetch {level : CrawlLevel} {crawl : Crawl} {fetch later : LevelFetch} {event : FetchEvent} :
      LevelFetch.Step policy.fetchLimit dereference fetch event later →
      Step policy dereference (.fetching level crawl fetch) (.fetch level event)
        (.fetching level crawl later)
  | merge {level : CrawlLevel} {crawl : Crawl} {answers : List (String × Answer)} :
      Step policy dereference (.fetching level crawl ⟨[], [], answers⟩) (.merged level)
        (afterLevel policy crawl answers level)

end CrawlState

end PublicationAudit
