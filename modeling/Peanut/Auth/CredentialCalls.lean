import Peanut.Auth.Credentials
import Peanut.Library.Interleaving
import Peanut.Library.Standing

/-!
# Requests about credentials

`CredentialCall.step` is one statement of a request that makes, changes or uses credentials;
any number of them interleave in a `Pool`.  What a statement makes known is written into a
journal, in the order in which the statements take effect, so that what the server has said
can be compared with whom it lets in.

A request that uses a credential reads it and then notes the time of its use; here that is one
atomic step.
-/

namespace Peanut

open Relational Interleaving Journal

/-! ### The journal -/

/-- What a statement that takes effect makes known about a credential. -/
inductive CredentialNotice where
  | appKeyIssued (k : AppKey) (key : String)
  | appKeyRotated (keyId key : String)
  | appKeyRevoked (keyId : String)
  | serviceTokenIssued (t : ServiceToken) (token : String)
  | serviceTokenRevoked (tokenId : String)
  | userDeleted (userId : String)
deriving DecidableEq, Repr

namespace CredentialNotice

def appKeyId : CredentialNotice → Option String
  | appKeyIssued k _ => some k.id
  | appKeyRotated keyId _ => some keyId
  | appKeyRevoked keyId => some keyId
  | _ => none

/-- The app key and the text that is handed out for it. -/
def handsOut : CredentialNotice → Option (String × String)
  | appKeyIssued k key => some (k.id, key)
  | appKeyRotated keyId key => some (keyId, key)
  | _ => none

/-- Is the second notice no longer true after the first one? -/
def ends : CredentialNotice → CredentialNotice → Prop
  | appKeyRotated keyId _, n => n.appKeyId = some keyId
  | appKeyRevoked keyId, n => n.appKeyId = some keyId
  | serviceTokenRevoked tokenId, serviceTokenIssued t _ => t.id = tokenId
  | userDeleted userId, serviceTokenIssued t _ => t.userId = userId
  | _, _ => False

end CredentialNotice

/-- The tables and what has been made known about them. -/
structure CredentialSystem extends CredentialStore where
  notices : List CredentialNotice := []

namespace CredentialSystem

def told (s : CredentialSystem) (n : CredentialNotice) : CredentialSystem :=
  { s with notices := s.notices ++ [n] }

def withDb (s : CredentialSystem) (db : Db) : CredentialSystem := { s with db := db }

end CredentialSystem

/-! ### One statement at a time -/

/-- What the other handlers do: they leave the app keys and the service tokens alone. -/
structure OtherRequest where
  change : Env → Db → Db
  appKeys : ∀ env db, (change env db).appKeys = db.appKeys

inductive CredentialRequest where
  | createAppKey (claims : Claims) (appId : String) (payload : CreateAppKeyRequest)
  | rotateAppKey (claims : Claims) (appId keyId : String)
  | revokeAppKey (claims : Claims) (appId keyId : String)
  | createServiceToken (claims : Claims) (payload : CreateServiceTokenRequest)
  | revokeServiceToken (claims : Claims) (tokenId : String)
  | deleteAdminUser (claims : Claims) (appId userId : String)
  | useAppKey (rawKey : String)
  | useBearer (timestamp : Int) (authHeader : Option String)
  | other (request : OtherRequest)

inductive CredentialAnswer where
  | appKey (k : AppKey) (key : String)
  | serviceToken (t : ServiceToken) (token : String)
  | message (m : MessageResponse)
  | empty
deriving DecidableEq, Repr

inductive CredentialStage where
  | received
  | checked (name : String) (keyType : AppKeyType) (scopes : List String)
  | permitted
  | loaded (existing : AppKey)
  | issued (k : AppKey) (key : String)
  | rotated (existing : AppKey) (key : String)
  | rotationLogged (key : String)
  | revoked
  | tokenIssued (t : ServiceToken) (token : String)
  | tokenRevoked
  | answered (reply : Except ApiError (Reply CredentialAnswer))
  | passed

structure CredentialCall where
  request : CredentialRequest
  stage : CredentialStage := .received

namespace CredentialCall

def refuse (s : CredentialSystem) (c : CredentialCall) (e : ApiError) :
    CredentialSystem × CredentialCall :=
  (s, { c with stage := .answered (.error e) })

def answer (c : CredentialCall) (status : StatusCode) (body : CredentialAnswer) : CredentialCall :=
  { c with stage := .answered (.ok { status := status, body := body }) }

/-- A request that is over after one statement. -/
def once (s s' : CredentialSystem) (c : CredentialCall) : CredentialSystem × CredentialCall :=
  match c.stage with
  | .received => (s', { c with stage := .passed })
  | _ => (s, c)

section Requests

variable (pf : Platform) (env : Env) (s : CredentialSystem) (c : CredentialCall) (claims : Claims)

/-- The row that `create_app_key` inserts. -/
def newAppKey (appId : String) (payload : CreateAppKeyRequest) (name : String)
    (keyType : AppKeyType) (scopes : List String) : AppKey :=
  let key := newKeyText env keyType
  { id := env.uuid 0, appId := appId, name := name
    keyPrefix := keyTextPrefix key, keyHash := hashOpaqueToken pf key
    keyType := keyType, scopes := scopes, createdBy := claims.sub, createdAt := env.now
    lastUsedAt := none, expiresAt := payload.expiresInDays.map env.daysFromNow
    revokedAt := none, rateLimitPerMinute := payload.rateLimitPerMinute }

def stepCreateAppKey (appId : String) (payload : CreateAppKeyRequest) :
    CredentialSystem × CredentialCall :=
  match c.stage with
  | .received =>
      match createAppKeyChecks s.db claims appId payload with
      | .error e => refuse s c e
      | .ok (name, keyType, scopes) => (s, { c with stage := .checked name keyType scopes })
  | .checked name keyType scopes =>
      let k := newAppKey pf env claims appId payload name keyType scopes
      let key := newKeyText env keyType
      match s.db.insertAppKey k with
      | none => refuse s c (jsonError .internalServerError "failed to create app key")
      | some db => ((s.withDb db).told (.appKeyIssued k key), { c with stage := .issued k key })
  | .issued k key =>
      (s.withDb (s.db.recordAuditLog env (env.uuid 1) (some appId) claims "app_key.created"
          "app_key" k.id
          (.object [("key_type", .string k.keyType.text), ("name", .string k.name)])),
        c.answer .created (.appKey k key))
  | _ => (s, c)

def stepRotateAppKey (appId keyId : String) : CredentialSystem × CredentialCall :=
  match c.stage with
  | .received =>
      match requireAppRole s.db claims appId .owner with
      | .error e => refuse s c e
      | .ok () => (s, { c with stage := .permitted })
  | .permitted =>
      match s.db.appKeys.selectOne (AppKey.isActive appId keyId) with
      | none => refuse s c (jsonError .notFound "app key not found")
      | some existing => (s, { c with stage := .loaded existing })
  | .loaded existing =>
      let key := newKeyText env existing.keyType
      match s.db.rotateAppKey pf appId keyId key with
      | .error e => refuse s c e
      | .ok db =>
          ((s.withDb db).told (.appKeyRotated keyId key), { c with stage := .rotated existing key })
  | .rotated existing key =>
      (s.withDb (s.db.recordAuditLog env (env.uuid 0) (some appId) claims "app_key.rotated"
          "app_key" keyId (.object [("key_type", .string existing.keyType.text)])),
        { c with stage := .rotationLogged key })
  | .rotationLogged key =>
      match s.db.appKeys.selectOne fun k => k.appId == appId && k.id == keyId with
      | none => refuse s c (jsonError .internalServerError "failed to load app key")
      | some k => (s, c.answer .ok (.appKey k key))
  | _ => (s, c)

def stepRevokeAppKey (appId keyId : String) : CredentialSystem × CredentialCall :=
  match c.stage with
  | .received =>
      match requireAppRole s.db claims appId .owner with
      | .error e => refuse s c e
      | .ok () => (s, { c with stage := .permitted })
  | .permitted =>
      match s.db.revokeAppKey env.now appId keyId with
      | none => refuse s c (jsonError .notFound "app key not found")
      | some db => ((s.withDb db).told (.appKeyRevoked keyId), { c with stage := .revoked })
  | .revoked =>
      (s.withDb (s.db.recordAuditLog env (env.uuid 0) (some appId) claims "app_key.revoked"
          "app_key" keyId (.object [])),
        c.answer .noContent .empty)
  | _ => (s, c)

def stepCreateServiceToken (payload : CreateServiceTokenRequest) :
    CredentialSystem × CredentialCall :=
  match c.stage with
  | .received =>
      match createServiceTokenChecks claims payload with
      | .error e => refuse s c e
      | .ok name =>
          let t := newServiceToken pf env claims name payload.expiresInDays
          let token := newServiceTokenText env
          match s.insertServiceToken t with
          | none => refuse s c (jsonError .internalServerError "failed to create service token")
          | some store =>
              ({ s with toCredentialStore := store }.told (.serviceTokenIssued t token),
                { c with stage := .tokenIssued t token })
  | .tokenIssued t token =>
      (s.withDb (recordAuthEvent s.db env (env.uuid 1) claims.appId claims.sub (some claims.sub)
          "service_token_created"
          (some (.object [("access_mode", .string t.accessMode), ("name", .string t.name),
            ("service_token_id", .string t.id)]))),
        c.answer .created (.serviceToken t token))
  | _ => (s, c)

def stepRevokeServiceToken (tokenId : String) : CredentialSystem × CredentialCall :=
  match c.stage with
  | .received =>
      if claims.isAdmin then
        match s.revokeServiceToken env.now tokenId claims.sub with
        | none => refuse s c (jsonError .notFound "service token not found")
        | some store =>
            ({ s with toCredentialStore := store }.told (.serviceTokenRevoked tokenId),
              { c with stage := .tokenRevoked })
      else refuse s c (jsonError .forbidden "admin access required")
  | .tokenRevoked =>
      let reply := jsonMessage .ok "service token revoked"
      (s.withDb (recordAuthEvent s.db env (env.uuid 0) claims.appId claims.sub (some claims.sub)
          "service_token_revoked" (some (.object [("service_token_id", .string tokenId)]))),
        c.answer reply.status (.message reply.body))
  | _ => (s, c)

/-- The transaction deletes the service tokens with the user. -/
def stepDeleteAdminUser (appId userId : String) : CredentialSystem × CredentialCall :=
  match c.stage with
  | .received =>
      match deleteAdminUser s.db env claims appId userId with
      | (_, .error e) => refuse s c e
      | (db, .ok reply) =>
          ({ s with
              db := db
              serviceTokens := s.serviceTokens.deleteWhere fun t => t.userId == userId }.told
                (.userDeleted userId),
            c.answer reply.status .empty)
  | _ => (s, c)

end Requests

variable (pf : Platform) (tk : TokenKey)

def step (env : Env) (s : CredentialSystem) (c : CredentialCall) :
    CredentialSystem × CredentialCall :=
  match c.request with
  | .createAppKey claims appId payload => stepCreateAppKey pf env s c claims appId payload
  | .rotateAppKey claims appId keyId => stepRotateAppKey pf env s c claims appId keyId
  | .revokeAppKey claims appId keyId => stepRevokeAppKey env s c claims appId keyId
  | .createServiceToken claims payload => stepCreateServiceToken pf env s c claims payload
  | .revokeServiceToken claims tokenId => stepRevokeServiceToken env s c claims tokenId
  | .deleteAdminUser claims appId userId => stepDeleteAdminUser env s c claims appId userId
  | .useAppKey rawKey => c.once s (s.withDb (authenticateSdkAppKey pf s.db env rawKey).1)
  | .useBearer timestamp authHeader =>
      c.once s { s with
        toCredentialStore :=
          (authenticateBearerPrincipal pf tk s.toCredentialStore env timestamp authHeader).1 }
  | .other request => c.once s (s.withDb (request.change env s.db))

theorem alone_answered {env : Env} {s : CredentialSystem} {claims : Claims} {appId : String}
    {payload : CreateAppKeyRequest} {reply : Except ApiError (Reply CredentialAnswer)} (n : Nat) :
    alone (step pf tk) env n s ⟨.createAppKey claims appId payload, .answered reply⟩ =
      (s, ⟨.createAppKey claims appId payload, .answered reply⟩) := by
  induction n with
  | zero => rfl
  | succ n ih => exact ih

/-- Without interference the statements of a creation are `create_app_key`. -/
theorem createAppKey_alone (env : Env) (s : CredentialSystem) (claims : Claims) (appId : String)
    (payload : CreateAppKeyRequest) :
    let served := alone (step pf tk) env 3 s { request := .createAppKey claims appId payload }
    let handled := createAppKey pf s.db env claims appId payload
    served.1.db = handled.1 ∧
      served.2.stage = .answered (handled.2.map fun reply =>
        { status := reply.status, body := .appKey reply.body.1 reply.body.2 }) := by
  intro served handled
  rcases hchecks : createAppKeyChecks s.db claims appId payload with e | ⟨name, keyType, scopes⟩
  · have hstep : step pf tk env s { request := .createAppKey claims appId payload } =
        (s, ⟨.createAppKey claims appId payload, .answered (.error e)⟩) := by
      simp only [step, stepCreateAppKey, hchecks, refuse]
    simp only [served, handled, alone_of_step hstep, alone_answered, createAppKey, hchecks,
      Outcome.proceed_error]
    exact ⟨trivial, rfl⟩
  · have hstep : step pf tk env s { request := .createAppKey claims appId payload } =
        (s, ⟨.createAppKey claims appId payload, .checked name keyType scopes⟩) := by
      simp only [step, stepCreateAppKey, hchecks]
    simp only [served, handled, alone_of_step hstep, createAppKey, hchecks, Outcome.proceed_ok]
    rcases hinsert : s.db.insertAppKey (newAppKey pf env claims appId payload name keyType scopes)
      with _ | db
    · have hstep' : step pf tk env s
          ⟨.createAppKey claims appId payload, .checked name keyType scopes⟩ =
            (s, ⟨.createAppKey claims appId payload, .answered
              (.error (jsonError .internalServerError "failed to create app key"))⟩) := by
        simp only [step, stepCreateAppKey, hinsert, refuse]
      rw [alone_of_step hstep', alone_answered]
      simp only [newAppKey, keyTextPrefix] at hinsert
      simp only [hinsert]
      exact ⟨trivial, rfl⟩
    · have hstep' : step pf tk env s
          ⟨.createAppKey claims appId payload, .checked name keyType scopes⟩ =
            ((s.withDb db).told (.appKeyIssued
                (newAppKey pf env claims appId payload name keyType scopes)
                (newKeyText env keyType)),
              ⟨.createAppKey claims appId payload, .issued
                (newAppKey pf env claims appId payload name keyType scopes)
                (newKeyText env keyType)⟩) := by
        simp only [step, stepCreateAppKey, hinsert]
      rw [alone_of_step hstep']
      simp only [newAppKey, keyTextPrefix] at hinsert
      simp only [hinsert]
      exact ⟨rfl, rfl⟩

end CredentialCall

/-- A server without credentials that is about to serve some requests. -/
def servedFrom {ι : Type*} (db : Db) (requests : ι → CredentialRequest) :
    Pool ι CredentialSystem CredentialCall :=
  { store := { db := { db with appKeys := .empty } }
    request := fun i => { request := requests i } }

end Peanut
