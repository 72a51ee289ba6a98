import Mathlib.Data.Nat.Find
import Peanut.Library.CountedLoop

/-!
# Retries of the client libraries

The loops of the four SDKs around a request.  `send` gives the outcome of each
attempt: a response or a network error.  The pauses between attempts are left out.
-/

namespace Peanut

namespace Sdks

open CountedLoop

/-- What a call ends with: a response, an error, or what follows the loop when nothing has
    been recorded (`undefined`, `StateError`, `PeanutError` or `null`). -/
inductive SdkResult (ε ρ : Type) where
  | response (response : ρ)
  | thrown (error : ε)
  | nothing
deriving DecidableEq

def isTransientStatus (statusCode : Int) : Bool :=
  statusCode == 408 || statusCode == 429 || decide (500 ≤ statusCode)

section Loops

variable {ε ρ : Type} (status : ρ → Int) (maxRetries : Nat) (send : Nat → Except ε ρ)

/-- `throw lastError` after the loop. -/
def throwLast (lastError : Option ε) : SdkResult ε ρ :=
  match lastError with
  | some error => .thrown error
  | none => .nothing

/-- JavaScript. -/
def fetchWithRetry : Nat × SdkResult ε ρ :=
  let body attempt (lastError : Option ε) :=
    match send attempt with
    | .ok response =>
        if !isTransientStatus (status response) || attempt == maxRetries then
          .leave (.response response)
        else .again lastError
    | .error error =>
        let lastError := some error
        if attempt == maxRetries then .leave (.thrown error) else .again lastError
  loop maxRetries body throwLast 0 none

/-- Dart. -/
def _sendWithRetry : Nat × SdkResult ε ρ :=
  let body attempt (lastError : Option ε) :=
    match send attempt with
    | .ok response =>
        if !isTransientStatus (status response) || attempt == maxRetries then
          .leave (.response response)
        else .again lastError
    | .error error =>
        let lastError := some error
        if attempt == maxRetries then .leave (.thrown error) else .again lastError
  loop maxRetries body throwLast 0 none

/-- Swift. -/
def dataWithRetry : Nat × SdkResult ε ρ :=
  let body attempt (lastError : Option ε) :=
    match send attempt with
    | .ok response =>
        if isTransientStatus (status response) && decide (attempt < maxRetries) then
          .again lastError
        else .leave (.response response)
    | .error error =>
        let lastError := some error
        if attempt == maxRetries then .leave (.thrown error) else .again lastError
  loop maxRetries body throwLast 0 none

/-- Java: nothing catches what `send` throws. -/
def sendWithRetry : Nat × SdkResult ε ρ :=
  let body attempt (_ : Option ρ) :=
    match send attempt with
    | .ok response =>
        if !isTransientStatus (status response) || attempt == maxRetries then
          .leave (.response response)
        else .again (some response)
    | .error error => .leave (.thrown error)
  let after (response : Option ρ) :=
    match response with
    | some response => .response response
    | none => .nothing
  loop maxRetries body after 0 none

end Loops

inductive Sdk where
  | js
  | dart
  | swift
  | java
deriving DecidableEq

/-- The loop of an SDK: how many attempts it makes, and what it ends with. -/
def Sdk.retry {ε ρ : Type} (status : ρ → Int) (maxRetries : Nat) (send : Nat → Except ε ρ) :
    Sdk → Nat × SdkResult ε ρ
  | .js => fetchWithRetry status maxRetries send
  | .dart => _sendWithRetry status maxRetries send
  | .swift => dataWithRetry status maxRetries send
  | .java => sendWithRetry status maxRetries send

/-! ### What a retry is for -/

section Contract

variable {ε ρ : Type} {status : ρ → Int} {maxRetries k : Nat} {send : Nat → Except ε ρ}

/-- A response that a retry would not change. -/
def Settled (status : ρ → Int) (outcome : Except ε ρ) : Prop :=
  ∃ response, outcome = .ok response ∧ isTransientStatus (status response) = false

/-- A response that calls for a retry. -/
def Transient (status : ρ → Int) (outcome : Except ε ρ) : Prop :=
  ∃ response, outcome = .ok response ∧ isTransientStatus (status response) = true

/-- Attempt `k` is the first whose response is settled, or the last that is allowed. -/
structure EndsAt (status : ρ → Int) (maxRetries : Nat) (send : Nat → Except ε ρ) (k : Nat) :
    Prop where
  allowed : k ≤ maxRetries
  unsettled : ∀ j, j < k → ¬ Settled status (send j)
  settled : k < maxRetries → Settled status (send k)

def resultOf (outcome : Except ε ρ) : SdkResult ε ρ :=
  match outcome with
  | .ok response => .response response
  | .error error => .thrown error

/-- The SDKs make the same attempts and end with the same outcome. -/
def RetryAlike (status : ρ → Int) (maxRetries : Nat) (send : Nat → Except ε ρ) : Prop :=
  ∃ k, EndsAt status maxRetries send k ∧
    ∀ sdk : Sdk, sdk.retry status maxRetries send = (k + 1, resultOf (send k))

open Classical in
theorem exists_endsAt (status : ρ → Int) (maxRetries : Nat) (send : Nat → Except ε ρ) :
    ∃ k, EndsAt status maxRetries send k := by
  have hends : ∃ k, k = maxRetries ∨ Settled status (send k) := ⟨maxRetries, .inl rfl⟩
  refine ⟨Nat.find hends, Nat.find_min' hends (.inl rfl), ?_, ?_⟩
  · intro j hj hsettled
    exact Nat.find_min hends hj (.inr hsettled)
  · intro hlt
    exact (Nat.find_spec hends).resolve_left (Nat.ne_of_lt hlt)

theorem transient_or_error {outcome : Except ε ρ} (h : ¬ Settled status outcome) :
    Transient status outcome ∨ ∃ error, outcome = .error error := by
  cases outcome with
  | error error => exact .inr ⟨error, rfl⟩
  | ok response =>
    refine .inl ⟨response, rfl, ?_⟩
    rw [← Bool.not_eq_false]
    intro hsettled
    exact h ⟨response, rfl, hsettled⟩

theorem EndsAt.ended (h : EndsAt status maxRetries send k) :
    k = maxRetries ∨ Settled status (send k) := by
  rcases Nat.lt_or_ge k maxRetries with hlt | hge
  · exact .inr (h.settled hlt)
  · exact .inl (Nat.le_antisymm h.allowed hge)

theorem EndsAt.ne_maxRetries (h : EndsAt status maxRetries send k) {j : Nat} (hj : j < k) :
    (j == maxRetries) = false := by
  have := h.allowed
  exact beq_false_of_ne (by omega)

theorem fetchWithRetry_eq (h : EndsAt status maxRetries send k) :
    fetchWithRetry status maxRetries send = (k + 1, resultOf (send k)) := by
  refine loop_eq h.allowed ?_ ?_ none
  · intro lastError
    rcases h.ended with rfl | ⟨response, heq, hsettled⟩
    · cases hsend : send k with
      | ok response => simp [resultOf]
      | error error => simp [resultOf]
    · simp [heq, hsettled, resultOf]
  · intro j hj lastError
    have hne := h.ne_maxRetries hj
    rcases transient_or_error (h.unsettled j hj) with ⟨response, heq, htransient⟩ | ⟨error, heq⟩
    · exact ⟨lastError, by simp [heq, htransient, hne]⟩
    · exact ⟨some error, by simp [heq, hne]⟩

theorem dataWithRetry_eq (h : EndsAt status maxRetries send k) :
    dataWithRetry status maxRetries send = (k + 1, resultOf (send k)) := by
  refine loop_eq h.allowed ?_ ?_ none
  · intro lastError
    rcases h.ended with rfl | ⟨response, heq, hsettled⟩
    · cases hsend : send k with
      | ok response => simp [resultOf]
      | error error => simp [resultOf]
    · simp [heq, hsettled, resultOf]
  · intro j hj lastError
    have hne := h.ne_maxRetries hj
    have hlt : j < maxRetries := Nat.lt_of_lt_of_le hj h.allowed
    rcases transient_or_error (h.unsettled j hj) with ⟨response, heq, htransient⟩ | ⟨error, heq⟩
    · exact ⟨lastError, by simp [heq, htransient, hlt]⟩
    · exact ⟨some error, by simp [heq, hne]⟩

theorem sendWithRetry_thrown {error : ε} (hk : k ≤ maxRetries) (heq : send k = .error error)
    (hbefore : ∀ j, j < k → Transient status (send j)) :
    sendWithRetry status maxRetries send = (k + 1, .thrown error) := by
  refine loop_eq hk ?_ ?_ none
  · intro response
    simp [heq]
  · intro j hj last
    obtain ⟨response, hresponse, htransient⟩ := hbefore j hj
    have hne : (j == maxRetries) = false := beq_false_of_ne (by omega)
    exact ⟨some response, by simp [hresponse, htransient, hne]⟩

theorem sendWithRetry_eq (h : EndsAt status maxRetries send k)
    (hbefore : ∀ j, j < k → Transient status (send j)) :
    sendWithRetry status maxRetries send = (k + 1, resultOf (send k)) := by
  cases hsend : send k with
  | error error => exact sendWithRetry_thrown h.allowed hsend hbefore
  | ok response =>
    refine loop_eq h.allowed ?_ ?_ none
    · intro last
      rcases h.ended with rfl | ⟨response', heq, hsettled⟩
      · simp [hsend, resultOf]
      · rw [hsend, Except.ok.injEq] at heq
        subst heq
        simp [hsend, hsettled, resultOf]
    · intro j hj last
      obtain ⟨response', heq, htransient⟩ := hbefore j hj
      have hne := h.ne_maxRetries hj
      exact ⟨some response', by simp [heq, htransient, hne]⟩

/-- A network error that is to be retried. -/
def ErrorToRetry (status : ρ → Int) (maxRetries : Nat) (send : Nat → Except ε ρ) : Prop :=
  ∃ i, i < maxRetries ∧ (∃ error, send i = .error error) ∧ ∀ j, j < i → Transient status (send j)

theorem transient_before (h : EndsAt status maxRetries send k)
    (hnone : ¬ ErrorToRetry status maxRetries send) (j : Nat) (hj : j < k) :
    Transient status (send j) := by
  induction j using Nat.strong_induction_on with
  | _ j ih =>
    rcases transient_or_error (h.unsettled j hj) with htransient | herror
    · exact htransient
    · have hlt : j < maxRetries := Nat.lt_of_lt_of_le hj h.allowed
      exact absurd ⟨j, hlt, herror, fun i hi => ih i hi (Nat.lt_trans hi hj)⟩ hnone

/-- **The SDKs retry alike** exactly where no network error is to be retried. -/
theorem retry_alike_iff (status : ρ → Int) (maxRetries : Nat) (send : Nat → Except ε ρ) :
    RetryAlike status maxRetries send ↔ ¬ ErrorToRetry status maxRetries send := by
  constructor
  · rintro ⟨k, hends, hall⟩ ⟨i, hi, ⟨error, heq⟩, hbefore⟩
    have hjava := hall .java
    rw [Sdk.retry, sendWithRetry_thrown (Nat.le_of_lt hi) heq hbefore, Prod.mk.injEq] at hjava
    obtain rfl : i = k := Nat.succ.inj hjava.1
    obtain ⟨response, hok, -⟩ := hends.settled hi
    rw [heq] at hok
    cases hok
  · intro hnone
    obtain ⟨k, hends⟩ := exists_endsAt status maxRetries send
    refine ⟨k, hends, ?_⟩
    intro sdk
    cases sdk with
    | js => exact fetchWithRetry_eq hends
    | dart => exact fetchWithRetry_eq hends
    | swift => exact dataWithRetry_eq hends
    | java => exact sendWithRetry_eq hends (transient_before hends hnone)

end Contract

/-- The network fails once, and then there is an answer. -/
def failsOnce (attempt : Nat) : Except String Int :=
  if attempt = 0 then .error "connection reset" else .ok 200

/-- With one retry allowed the Java SDK throws after one attempt; the others make two. -/
theorem network_error_not_retried_in_java :
    Sdk.retry id 1 failsOnce .js = (2, .response 200) ∧
      Sdk.retry id 1 failsOnce .dart = (2, .response 200) ∧
      Sdk.retry id 1 failsOnce .swift = (2, .response 200) ∧
      Sdk.retry id 1 failsOnce .java = (1, .thrown "connection reset") ∧
      ¬ RetryAlike id 1 failsOnce := by
  have hends : EndsAt id 1 failsOnce 1 := by
    refine ⟨Nat.le_refl 1, ?_, fun h => absurd h (Nat.lt_irrefl 1)⟩
    rintro j hj ⟨response, hok, -⟩
    obtain rfl : j = 0 := by omega
    cases hok
  have hjava : Sdk.retry id 1 failsOnce .java = (1, .thrown "connection reset") :=
    sendWithRetry_thrown (Nat.zero_le 1) rfl fun j hj => absurd hj (Nat.not_lt_zero j)
  refine ⟨fetchWithRetry_eq hends, fetchWithRetry_eq hends, dataWithRetry_eq hends, hjava, ?_⟩
  rintro ⟨k, hends', hall⟩
  have hjava' := hall .java
  have hjs := hall .js
  rw [hjava] at hjava'
  rw [Sdk.retry, fetchWithRetry_eq hends] at hjs
  have hone := (Prod.mk.inj hjava').1
  have htwo := (Prod.mk.inj hjs).1
  omega

end Sdks

end Peanut
