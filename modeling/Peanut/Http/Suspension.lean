import Peanut.Http.Limits
import Peanut.Store

/-!
# Suspension

`sdk_suspension_response` of `api/workspaces.rs`, and `app_id_from_sdk_path` of
`middleware/sdk_auth.rs`, which takes the app out of the path as it is written,
while the handlers get their parameters decoded.
-/

namespace Peanut

open Relational

/-! ### The answer of a suspended app -/

/-- The app, not deleted, joined with its workspace. -/
def appWithWorkspace (db : Db) (appId : String) : Option (App × Workspace) := do
  let app ← db.apps.find? appId
  let workspace ← db.workspaces.find? app.workspaceId
  if app.deletedAt.isNone then some (app, workspace) else none

def sdkSuspensionResponse (db : Db) (appId : String) : Option ApiError := do
  let (app, workspace) ← appWithWorkspace db appId
  if workspace.disabledAt.isSome then
    some (jsonErrorWithCode .forbidden "workspace_disabled"
      (workspace.disabledReason.getD "workspace is disabled"))
  else if app.disabledAt.isSome then
    some (jsonErrorWithCode .forbidden "app_disabled" (app.disabledReason.getD "app is disabled"))
  else none

/-- The app, or the workspace it is in, is disabled. -/
def IsSuspended (db : Db) (appId : String) : Prop :=
  ∃ app workspace, appWithWorkspace db appId = some (app, workspace) ∧
    (workspace.disabledAt.isSome = true ∨ app.disabledAt.isSome = true)

/-- The errors that tell a client of a suspension. -/
def ApiError.IsSuspension (e : ApiError) : Prop :=
  e.code = "workspace_disabled" ∨ e.code = "app_disabled"

instance (e : ApiError) : Decidable e.IsSuspension :=
  inferInstanceAs (Decidable (e.code = "workspace_disabled" ∨ e.code = "app_disabled"))

theorem sdkSuspensionResponse_isSuspension {db : Db} {appId : String} {e : ApiError}
    (h : sdkSuspensionResponse db appId = some e) : e.IsSuspension := by
  unfold sdkSuspensionResponse at h
  obtain ⟨⟨app, workspace⟩, -, h⟩ := Option.bind_eq_some_iff.mp h
  dsimp only at h
  split at h
  · cases h
    exact .inl rfl
  · split at h
    · cases h
      exact .inr rfl
    · cases h

theorem sdkSuspensionResponse_isSome_iff {db : Db} {appId : String} :
    (sdkSuspensionResponse db appId).isSome = true ↔ IsSuspended db appId := by
  unfold sdkSuspensionResponse IsSuspended
  cases hjoin : appWithWorkspace db appId with
  | none => simp [bind, Option.bind]
  | some joined =>
    obtain ⟨app, workspace⟩ := joined
    by_cases hworkspace : workspace.disabledAt.isSome = true
    · simp [bind, Option.bind, hworkspace]
    · by_cases happ : app.disabledAt.isSome = true
      · simp [bind, Option.bind, hworkspace, happ]
      · simp [bind, Option.bind, hworkspace, happ]

theorem jsonError_not_isSuspension (status : StatusCode) (message : String) :
    ¬ (jsonError status message).IsSuspension := by
  cases status <;> simp [jsonError, jsonErrorWithCode, statusErrorCode, ApiError.IsSuspension]

/-! ### The app in the path -/

/-- `app_id_from_sdk_path`, of a path between its slashes. -/
def appIdFromSdkPath (path : List String) : Option String :=
  match path.dropWhile (· == "") with
  | "api" :: "apps" :: appId :: _ => if appId == "" then none else some appId
  | "apps" :: appId :: _ => if appId == "" then none else some appId
  | _ => none

/-- The bytes of a segment; a percent sign that no two hexadecimal digits follow
    stands for itself. -/
def percentBytes : List Char → List UInt8
  | '%' :: high :: low :: rest =>
      match hexDigit high, hexDigit low with
      | some h, some l => (16 * h + l).toUInt8 :: percentBytes rest
      | _, _ => 37 :: percentBytes (high :: low :: rest)
  | c :: rest => String.utf8EncodeChar c ++ percentBytes rest
  | [] => []

/-- How a handler reads a segment of the path. -/
def percentDecode (segment : String) : Option String :=
  String.fromUTF8? ⟨(percentBytes segment.toList).toArray⟩

end Peanut
