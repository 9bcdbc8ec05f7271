import Mathlib.Data.Nat.Find
import Mathlib.Logic.ExistsUnique
import PublicationAudit.Dereference.Http
import PublicationAudit.Settings.Layers

/-!
# How often a document is asked for

A policy promises one attempt and then as many as it has retries, counted without a limit, until one
of them succeeds, with a wait between two attempts. `Policy.Promises` says so of the steps and the
outcome of a fetch. The main statement is `fetch_promised_iff`: the number of attempts is kept in 32
bits, so every policy keeps the promise but the one with the largest count of retries. For it the
number of attempts comes to zero, and a single attempt is made.
-/

namespace PublicationAudit.Http

/-- The steps of a fetch that ends with an attempt: there is a wait after every other one. -/
def stepsThrough (delayMs last : Nat) : List Step :=
  ((List.range last).flatMap fun number => [.attempt number, .wait delayMs]) ++ [.attempt last]

/-- Whether the attempts before one all fail. -/
def FailsBefore (outcome : Nat → Except Failure (List Fact)) (number : Nat) : Prop :=
  ∀ earlier < number, ∃ failure, outcome earlier = .error failure

/-- What a policy promises of a fetch. The first attempt that succeeds ends it and gives its facts,
when it is among the first attempt and the retries. If all of these fail, the last of them ends it:
without facts under a lenient policy, and with the last failure under any other. -/
inductive Policy.Promises (policy : Policy) (outcome : Nat → Except Failure (List Fact)) :
    Fetched → Prop where
  | succeeds {number : Nat} {facts : List Fact} (hallowed : number < policy.retryCount.toNat + 1)
      (hbefore : FailsBefore outcome number) (hsuccess : outcome number = .ok facts) :
      policy.Promises outcome ⟨.ok facts, stepsThrough policy.retryDelayMs number⟩
  | givesUp {failure : Failure} (hbefore : FailsBefore outcome policy.retryCount.toNat)
      (hlast : outcome policy.retryCount.toNat = .error failure) :
      policy.Promises outcome ⟨if policy.isLenient then .ok [] else .error failure,
        stepsThrough policy.retryDelayMs policy.retryCount.toNat⟩

variable {policy : Policy} {outcome : Nat → Except Failure (List Fact)} {facts : List Fact}
  {failure : Failure} {number left : Nat}

/-! ## The retry loop -/

/-- Attempts that fail are followed by waits and the rest of the loop. -/
theorem retry_after_errors (policy : Policy) (left : Nat) (hbefore : FailsBefore outcome number) :
    retry policy outcome (left + number) 0 =
      ⟨(retry policy outcome left number).outcome,
        ((List.range number).flatMap fun n => [.attempt n, .wait policy.retryDelayMs]) ++
          (retry policy outcome left number).steps⟩ := by
  induction number generalizing left with
  | zero => rfl
  | succ number ih =>
      obtain ⟨failure, hfailed⟩ := hbefore number (Nat.lt_succ_self number)
      have hrest := ih (left + 1) fun earlier h => hbefore earlier (Nat.lt_succ_of_lt h)
      rw [retry_succ_of_error hfailed] at hrest
      rw [← Nat.add_assoc, Nat.add_right_comm, hrest, List.range_succ, List.flatMap_append,
        List.flatMap_singleton, List.append_assoc]
      rfl

/-- The loop ends with the first attempt that succeeds. -/
theorem retry_of_first_ok (hallowed : number ≤ left) (hbefore : FailsBefore outcome number)
    (hsuccess : outcome number = .ok facts) :
    retry policy outcome left 0 = ⟨.ok facts, stepsThrough policy.retryDelayMs number⟩ := by
  obtain ⟨more, rfl⟩ := Nat.exists_eq_add_of_le' hallowed
  rw [retry_after_errors policy more hbefore, retry_of_ok hsuccess]
  rfl

/-- The loop gives up when no attempt is left. -/
theorem retry_of_last_error (hbefore : FailsBefore outcome number)
    (hlast : outcome number = .error failure) :
    retry policy outcome number 0 =
      ⟨policy.giveUp failure, stepsThrough policy.retryDelayMs number⟩ := by
  have hloop := retry_after_errors policy 0 hbefore
  rw [Nat.zero_add, retry_zero_of_error hlast] at hloop
  exact hloop

/-- Among some first attempts one is the first to succeed, or all of them fail. -/
theorem exists_first_ok (outcome : Nat → Except Failure (List Fact)) (last : Nat) :
    (∃ number ≤ last, FailsBefore outcome number ∧ ∃ facts, outcome number = .ok facts) ∨
      FailsBefore outcome last ∧ ∃ failure, outcome last = .error failure := by
  have hfails : ∀ number, (¬ ∃ facts, outcome number = .ok facts) →
      ∃ failure, outcome number = .error failure := fun number h => by
    cases hattempt : outcome number with
    | error failure => exact ⟨failure, rfl⟩
    | ok facts => exact absurd ⟨facts, hattempt⟩ h
  by_cases hsome : ∃ number ≤ last, ∃ facts, outcome number = .ok facts
  · classical
    obtain ⟨hle, hsuccess⟩ := Nat.find_spec hsome
    refine .inl ⟨Nat.find hsome, hle, fun earlier hearlier => hfails earlier fun h => ?_, hsuccess⟩
    exact Nat.find_min hsome hearlier ⟨Nat.le_trans (Nat.le_of_lt hearlier) hle, h⟩
  · exact .inr ⟨fun earlier hearlier => hfails earlier fun h =>
      hsome ⟨earlier, Nat.le_of_lt hearlier, h⟩,
      hfails last fun h => hsome ⟨last, Nat.le_refl _, h⟩⟩

/-! ## The promise -/

/-- What is promised is what the loop gives when it counts without a limit. -/
theorem Policy.promises_iff (policy : Policy) (outcome : Nat → Except Failure (List Fact))
    (fetched : Fetched) :
    policy.Promises outcome fetched ↔
      fetched = retry policy outcome policy.retryCount.toNat 0 := by
  constructor
  · intro h
    cases h with
    | succeeds hallowed hbefore hsuccess =>
        exact (retry_of_first_ok (Nat.le_of_lt_succ hallowed) hbefore hsuccess).symm
    | givesUp hbefore hlast => exact (retry_of_last_error hbefore hlast).symm
  · rintro rfl
    rcases exists_first_ok outcome policy.retryCount.toNat with
      ⟨number, hle, hbefore, facts, hsuccess⟩ | ⟨hbefore, failure, hlast⟩
    · rw [retry_of_first_ok hle hbefore hsuccess]
      exact .succeeds (Nat.lt_succ_of_le hle) hbefore hsuccess
    · rw [retry_of_last_error hbefore hlast]
      exact .givesUp hbefore hlast

/-- The attempts that may follow the first: all retries where 32 bits can count the attempts, and
none where they cannot. -/
theorem Policy.attempts_pred (policy : Policy) :
    policy.attempts.toNat - 1 =
      if policy.retryCount.toNat + 1 < UInt32.size then policy.retryCount.toNat else 0 := by
  have hlt : policy.retryCount.toNat < UInt32.size := policy.retryCount.toNat_lt_size
  rw [Policy.attempts, UInt32.toNat_add]
  show (policy.retryCount.toNat + 1) % UInt32.size - 1 = _
  split
  · rename_i hcounted
    rw [Nat.mod_eq_of_lt hcounted, Nat.add_sub_cancel]
  · rename_i hmany
    rw [show policy.retryCount.toNat + 1 = UInt32.size by omega, Nat.mod_self]

/-- A fetch goes as promised where 32 bits can count the attempts. -/
theorem fetch_eq_of_counted (hcounted : policy.retryCount.toNat + 1 < UInt32.size) :
    fetch policy outcome = retry policy outcome policy.retryCount.toNat 0 := by
  rw [fetch, policy.attempts_pred, if_pos hcounted]

/-- Where they cannot, it ends with the first attempt. -/
theorem fetch_eq_of_not_counted (hmany : ¬ policy.retryCount.toNat + 1 < UInt32.size) :
    fetch policy outcome = retry policy outcome 0 0 := by
  rw [fetch, policy.attempts_pred, if_neg hmany]

/-- A loop whose first attempt fails does not end with it while an attempt is left. -/
theorem retry_ne_of_left (hfirst : outcome 0 = .error failure) (hleft : left ≠ 0) :
    retry policy outcome left 0 ≠ retry policy outcome 0 0 := by
  obtain ⟨left, rfl⟩ := Nat.exists_eq_succ_of_ne_zero hleft
  rw [Nat.succ_eq_add_one, retry_succ_of_error hfirst, retry_zero_of_error hfirst]
  simp

/-- A policy promises exactly one course of a fetch, and that is how a fetch goes just when 32 bits
can count the attempts or the first attempt succeeds. Where they cannot count them, a single attempt
is made: it ends the fetch as the last one would. -/
theorem fetch_promised_iff (policy : Policy) (outcome : Nat → Except Failure (List Fact)) :
    (∃! fetched, policy.Promises outcome fetched) ∧
      (policy.Promises outcome (fetch policy outcome) ↔
        policy.retryCount.toNat + 1 < UInt32.size ∨ ∃ facts, outcome 0 = .ok facts) ∧
      (¬ policy.retryCount.toNat + 1 < UInt32.size →
        fetch policy outcome =
          ⟨match outcome 0 with
            | .ok facts => .ok facts
            | .error failure => if policy.isLenient then .ok [] else .error failure,
          [.attempt 0]⟩) := by
  refine ⟨⟨_, (policy.promises_iff outcome _).2 rfl, fun _ => (policy.promises_iff outcome _).1⟩,
    ?_, fun hmany => ?_⟩
  · rw [policy.promises_iff]
    by_cases hcounted : policy.retryCount.toNat + 1 < UInt32.size
    · simp [hcounted, fetch_eq_of_counted hcounted]
    · rw [fetch_eq_of_not_counted hcounted]
      cases hfirst : outcome 0 with
      | ok facts => simp [retry_of_ok hfirst]
      | error failure =>
          have hretries : policy.retryCount.toNat ≠ 0 := fun h => hcounted (by rw [h]; decide)
          simp [hcounted, (retry_ne_of_left hfirst hretries).symm]
  · rw [fetch_eq_of_not_counted hmany]
    cases hfirst : outcome 0 with
    | ok facts => exact retry_of_ok hfirst
    | error failure => exact retry_zero_of_error hfirst

/-- With two retries, a document that is served from the third time on is asked for three times,
with a wait before the second and the third, as the policy promises. -/
theorem fetch_promised_iff_third_attempt :
    let policy : Policy := ⟨2, 2000, true⟩
    let outcome : Nat → Except Failure (List Fact) := fun number =>
      if number < 2 then .error (.fetch "urn:d" "status 503") else .ok []
    policy.retryCount.toNat + 1 < UInt32.size ∧
      fetch policy outcome =
        ⟨.ok [], [.attempt 0, .wait 2000, .attempt 1, .wait 2000, .attempt 2]⟩ ∧
      policy.Promises outcome (fetch policy outcome) := by
  intro policy outcome
  have hcounted : policy.retryCount.toNat + 1 < UInt32.size := by decide
  exact ⟨hcounted, rfl, (fetch_promised_iff policy outcome).2.1.2 (.inl hcounted)⟩

/-- The command line can set the largest count of retries, and the settings pass their check. A
document whose connection is closed the first time only is then asked for once, and a lenient fetch
returns no facts, where one retry would be enough. -/
theorem fetch_unpromised_at_largest_count :
    ∃ settings, Settings.build (fun _ => .error .notFound) { retryCount := some 4294967295 } {} =
        .ok settings ∧
      settings.fetch.retryCount.toNat = 4294967295 ∧
      ∃ outcome, outcome 0 = .error (.fetch "urn:d" "the connection was closed") ∧
        outcome 1 = .ok [⟨.iri "urn:d", "urn:p", .plain "x"⟩] ∧
        settings.fetchPolicy.Promises outcome
          ⟨outcome 1, [.attempt 0, .wait 2000, .attempt 1]⟩ ∧
        fetch settings.fetchPolicy outcome = ⟨.ok [], [.attempt 0]⟩ ∧
        ¬ settings.fetchPolicy.Promises outcome (fetch settings.fetchPolicy outcome) := by
  let policy : Policy := ⟨4294967295, 2000, true⟩
  let outcome : Nat → Except Failure (List Fact) := fun number =>
    if number = 0 then .error (.fetch "urn:d" "the connection was closed")
    else .ok [⟨.iri "urn:d", "urn:p", .plain "x"⟩]
  have hbefore : FailsBefore outcome 1 := fun earlier hearlier => by
    obtain rfl : earlier = 0 := by omega
    exact ⟨_, rfl⟩
  have hpromised : policy.Promises outcome ⟨outcome 1, stepsThrough 2000 1⟩ :=
    .succeeds (by decide) hbefore rfl
  refine ⟨_, rfl, rfl, outcome, rfl, rfl, hpromised, rfl, fun h => ?_⟩
  -- There is one promise only, and it is not the fetch that gave up.
  have hsame := ((policy.promises_iff outcome _).1 hpromised).trans
    ((policy.promises_iff outcome _).1 h).symm
  cases hsame

end PublicationAudit.Http
