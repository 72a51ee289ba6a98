import Peanut.Functions.Execution

/-!
# What a function gives away

The names of members and the numbers of a response are not redacted, so a secret in
one of them is answered and stored.  In the texts that are redacted a secret is left
only where a mask completes it: where `***`, in the place of one secret, spells
another together with what stands beside it.
-/

namespace Peanut

open Relational Masking

/-! ### Secrets in texts -/

/-- A secret that hides nothing once it is masked: `***` or a part of it. -/
def PartOfMask (secret : String) : Prop := secret.toList <:+: theMask

instance (secret : String) : Decidable (PartOfMask secret) :=
  inferInstanceAs (Decidable (secret.toList <:+: theMask))

/-- The text gives a secret away. -/
def Exposes (secrets : List (String × String)) (text : String) : Prop :=
  ∃ secret ∈ secrets, ¬ PartOfMask secret.2 ∧ secret.2.toList <:+: text.toList

/-- No masks, put in the place of secrets in whatever order, complete a secret. -/
def NothingSpelled (secrets : List (String × String)) (text : String) : Prop :=
  ∀ secret ∈ secrets, ¬ PartOfMask secret.2 →
    ¬ Spelled theMask (secretWords secrets) text.toList secret.2.toList

/-- The secrets that no mask can complete: they neither begin nor end with a star and do
    not hold three in a row. -/
def StarSafe (secrets : List (String × String)) : Prop :=
  ∀ secret ∈ secrets, ¬ PartOfMask secret.2 → Apart theMask secret.2.toList

theorem StarSafe.nothingSpelled {secrets : List (String × String)} (h : StarSafe secrets)
    (text : String) : NothingSpelled secrets text :=
  fun secret hsecret hpart => (h secret hsecret hpart).not_spelled

theorem not_exposes_redactSecretText {secrets : List (String × String)} {text : String}
    (h : NothingSpelled secrets text) : ¬ Exposes secrets (redactSecretText text secrets) := by
  rintro ⟨secret, hsecret, hpart, hinfix⟩
  have hne : secret.2.toList ≠ [] := by
    intro hempty
    apply hpart
    rw [PartOfMask, hempty]
    exact List.nil_infix
  rw [toList_redactSecretText] at hinfix
  exact not_infix_maskAll (by decide) (List.mem_map_of_mem hsecret) hne (h secret hsecret hpart)
    hinfix

/-! ### Results -/

/-- The texts of a result that are redacted. -/
def redactedTexts : Except String SandboxExecutionResult → List String
  | .ok result =>
      result.responseJson.strings ++ (composeLogText result.stdout result.stderr).toList
  | .error error => [error]

/-- The names of members and the numbers of a result, as `literal` writes them. -/
def plainTexts (literal : Number → String) : Except String SandboxExecutionResult → List String
  | .ok result => result.responseJson.names literal
  | .error _ => []

/-- Nothing is given away, neither by what is answered nor by what is stored. -/
structure SecretsKept (secrets : List (String × String)) (literal : Number → String)
    (invocationId : String) (r : Db × Except String (Value × Int)) : Prop where
  answered : ∀ response durationMs, r.2 = .ok (response, durationMs) →
    ∀ text ∈ response.strings ++ response.names literal, ¬ Exposes secrets text
  refused : ∀ error, r.2 = .error error → ¬ Exposes secrets error
  storedResponse : ∀ i ∈ r.1.functionInvocations, i.id = invocationId →
    ∀ response ∈ i.response, ∀ text ∈ response.strings ++ response.names literal,
      ¬ Exposes secrets text
  storedError : ∀ i ∈ r.1.functionInvocations, i.id = invocationId →
    ∀ text ∈ i.error, ¬ Exposes secrets text

section Results

variable {encodes : Value → Bool} {literal : Number → String} {db : Db} {env : Env}
  {invocation : InvocationContext} {secrets : List (String × String)}
  {sandboxResult : Except String SandboxExecutionResult}

theorem response_kept {result : SandboxExecutionResult}
    (hspelled : ∀ text ∈ result.responseJson.strings, NothingSpelled secrets text)
    (hplain : ∀ text ∈ result.responseJson.names literal, ¬ Exposes secrets text) :
    ∀ text ∈ (redactJsonValue secrets result.responseJson).strings ++
      (redactJsonValue secrets result.responseJson).names literal, ¬ Exposes secrets text := by
  rw [strings_redactJsonValue, names_redactJsonValue]
  intro text htext
  obtain htext | htext := List.mem_append.mp htext
  · obtain ⟨original, horiginal, rfl⟩ := List.mem_map.mp htext
    exact not_exposes_redactSecretText (hspelled original horiginal)
  · exact hplain text htext

theorem finalizeInvocation_ok (hencodes : ∀ v, encodes v = true) (result : SandboxExecutionResult) :
    finalizeInvocation encodes db env invocation secrets (.ok result) =
      (markInvocationSucceeded db env invocation.invocationId
        (redactJsonValue secrets result.responseJson)
        ((composeLogText result.stdout result.stderr).map fun text => redactSecretText text secrets)
        result.durationMs,
        .ok (redactJsonValue secrets result.responseJson, result.durationMs)) :=
  if_pos (hencodes _)

theorem stored_of_succeeded {i : FunctionInvocation} {response : Value} {logs : Option String}
    {durationMs : Int}
    (hi : i ∈ (markInvocationSucceeded db env invocation.invocationId response logs
      durationMs).functionInvocations)
    (hid : i.id = invocation.invocationId) : i.response = some response ∧ i.error = logs := by
  obtain ⟨j, -, -, rfl⟩ := mem_markInvocationSucceeded hi hid
  exact ⟨rfl, rfl⟩

/-- **Kept.**  Where neither a name nor a number holds a secret and no mask completes one,
    nothing is given away. -/
theorem finalizeInvocation_kept (hencodes : ∀ v, encodes v = true)
    (hrow : ∀ i ∈ db.functionInvocations, i.id = invocation.invocationId → i.response = none)
    (hspelled : ∀ text ∈ redactedTexts sandboxResult, NothingSpelled secrets text)
    (hplain : ∀ text ∈ plainTexts literal sandboxResult, ¬ Exposes secrets text) :
    SecretsKept secrets literal invocation.invocationId
      (finalizeInvocation encodes db env invocation secrets sandboxResult) := by
  cases sandboxResult with
  | error error =>
    have herror := not_exposes_redactSecretText (hspelled error (List.mem_singleton_self error))
    refine ⟨?_, ?_, ?_, ?_⟩
    · intro response durationMs h
      cases h
    · rintro _ ⟨rfl⟩
      exact herror
    · intro i hi hid response hresponse
      obtain ⟨j, hj, hjid, rfl⟩ := mem_markInvocationFailed hi hid
      rw [FunctionInvocation.failed, hrow j hj hjid] at hresponse
      cases hresponse
    · intro i hi hid text htext
      obtain ⟨j, -, -, rfl⟩ := mem_markInvocationFailed hi hid
      cases htext
      exact herror
  | ok result =>
    have hresponse := response_kept
      (fun text htext => hspelled text (List.mem_append_left _ htext)) hplain
    rw [finalizeInvocation_ok hencodes]
    refine ⟨?_, ?_, ?_, ?_⟩
    · rintro _ _ ⟨rfl⟩
      exact hresponse
    · intro error h
      cases h
    · intro i hi hid response hstored
      rw [(stored_of_succeeded hi hid).1] at hstored
      cases hstored
      exact hresponse
    · intro i hi hid text htext
      rw [(stored_of_succeeded hi hid).2, Option.mem_def, Option.map_eq_some_iff] at htext
      obtain ⟨logs, hlogs, rfl⟩ := htext
      have hmem : logs ∈ redactedTexts (.ok result) :=
        List.mem_append_right _ (Option.mem_toList.mpr hlogs)
      exact not_exposes_redactSecretText (hspelled logs hmem)

/-- **Given away.**  What a name or a number holds is answered. -/
theorem plain_of_kept (hencodes : ∀ v, encodes v = true)
    (h : SecretsKept secrets literal invocation.invocationId
      (finalizeInvocation encodes db env invocation secrets sandboxResult)) :
    ∀ text ∈ plainTexts literal sandboxResult, ¬ Exposes secrets text := by
  cases sandboxResult with
  | error error => exact fun text htext => absurd htext List.not_mem_nil
  | ok result =>
    intro text htext
    rw [finalizeInvocation_ok hencodes] at h
    refine h.answered _ _ rfl text (List.mem_append_right _ ?_)
    rw [names_redactJsonValue]
    exact htext

end Results

/-- **Secrets.**  Nothing is given away if no name and no number of the response holds a
    secret and in no redacted text a mask completes one.  The first is necessary too;
    and it is all there is to ask where the secrets keep their stars inside. -/
theorem secrets_kept (encodes : Value → Bool) (literal : Number → String) (db : Db) (env : Env)
    (invocation : InvocationContext) (secrets : List (String × String))
    (sandboxResult : Except String SandboxExecutionResult) (hencodes : ∀ v, encodes v = true)
    (hrow : ∀ i ∈ db.functionInvocations, i.id = invocation.invocationId → i.response = none) :
    ((∀ text ∈ plainTexts literal sandboxResult, ¬ Exposes secrets text) →
      (∀ text ∈ redactedTexts sandboxResult, NothingSpelled secrets text) →
      SecretsKept secrets literal invocation.invocationId
        (finalizeInvocation encodes db env invocation secrets sandboxResult)) ∧
    (SecretsKept secrets literal invocation.invocationId
        (finalizeInvocation encodes db env invocation secrets sandboxResult) →
      ∀ text ∈ plainTexts literal sandboxResult, ¬ Exposes secrets text) ∧
    (StarSafe secrets →
      (SecretsKept secrets literal invocation.invocationId
          (finalizeInvocation encodes db env invocation secrets sandboxResult) ↔
        ∀ text ∈ plainTexts literal sandboxResult, ¬ Exposes secrets text)) := by
  refine ⟨?_, plain_of_kept hencodes, ?_⟩
  · intro hplain hspelled
    exact finalizeInvocation_kept hencodes hrow hspelled hplain
  · intro hsafe
    refine ⟨plain_of_kept hencodes, ?_⟩
    exact finalizeInvocation_kept hencodes hrow fun text _ => hsafe.nothingSpelled text

/-! ### Sesame -/

def sesame : List (String × String) := [("TOKEN", "sesame")]

def greeting : InvocationContext := ⟨"i", greetingVersion⟩

/-- The answer of a function that returns this document and writes no log. -/
def answering (response : Value) : Except String SandboxExecutionResult :=
  .ok { responseJson := response, stdout := "", stderr := "", durationMs := 1 }

/-- The document is answered as it is, up to its strings; what its names hold gets out. -/
theorem not_kept_of_plain {secrets : List (String × String)} {response : Value}
    {literal : Number → String} (text : String) (htext : text ∈ response.names literal)
    (hexposes : Exposes secrets text) :
    ¬ SecretsKept secrets literal "i"
      (finalizeInvocation (fun _ => true) {} (sampleEnv "d") greeting secrets
        (answering response)) := by
  intro hkept
  exact @plain_of_kept (fun _ => true) literal {} (sampleEnv "d") greeting secrets _ (fun _ => rfl)
    hkept text htext hexposes

/-- A name, a number, and a text in which the mask of `B` completes the secret of `A`. -/
theorem secrets_given_away :
    ¬ SecretsKept sesame (fun _ => "1") "i"
        (finalizeInvocation (fun _ => true) {} (sampleEnv "d") greeting sesame
          (answering (.object [("sesame", .null)]))) ∧
      ¬ SecretsKept [("PIN", "1234")] (fun _ => "1234") "i"
        (finalizeInvocation (fun _ => true) {} (sampleEnv "d") greeting [("PIN", "1234")]
          (answering (.number (.posInt 1234)))) ∧
      ¬ SecretsKept [("A", "x*"), ("B", "bean")] (fun _ => "1") "i"
        (finalizeInvocation (fun _ => true) {} (sampleEnv "d") greeting
          [("A", "x*"), ("B", "bean")] (answering (.string "xbean"))) := by
  refine ⟨?_, ?_, ?_⟩
  · exact not_kept_of_plain "sesame" List.mem_cons_self
      ⟨("TOKEN", "sesame"), List.mem_cons_self, by decide, by decide⟩
  · exact not_kept_of_plain "1234" List.mem_cons_self
      ⟨("PIN", "1234"), List.mem_cons_self, by decide, by decide⟩
  · intro hkept
    have hredacted : redactJsonValue [("A", "x*"), ("B", "bean")] (.string "xbean") =
        .string "x***" := by decide +kernel
    refine hkept.answered _ _ rfl "x***" ?_ ⟨("A", "x*"), List.mem_cons_self, by decide, by decide⟩
    rw [hredacted]
    exact List.mem_cons_self

/-- In a string the secret is masked. -/
theorem sesame_kept :
    SecretsKept sesame (fun _ => "1") "i"
      (finalizeInvocation (fun _ => true) {} (sampleEnv "d") greeting sesame
        (answering (.object [("say", .string "open sesame")]))) := by
  have hsafe : StarSafe sesame := by
    intro secret hsecret _
    have hletters : "sesame".toList = ['s', 'e', 's', 'a', 'm', 'e'] := by decide
    rw [List.mem_singleton.mp hsecret, hletters]
    exact ⟨by simp [theMask], by simp [theMask], by decide⟩
  refine ((secrets_kept (fun _ => true) (fun _ => "1") {} (sampleEnv "d") greeting sesame
    (answering (.object [("say", .string "open sesame")])) (fun _ => rfl)
    (fun _ hi => absurd hi List.not_mem_nil)).2.2 hsafe).mpr ?_
  intro text htext
  obtain rfl : text = "say" := by simpa [answering, plainTexts, Value.names, Value.memberNames]
    using htext
  rintro ⟨secret, hsecret, -, hinfix⟩
  rw [List.mem_singleton.mp hsecret] at hinfix
  revert hinfix
  decide

end Peanut
