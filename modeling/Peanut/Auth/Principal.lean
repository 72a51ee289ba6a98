import Peanut.Common

/-!
# Principals

`auth/principal.rs`: who makes a request of the SDK, and with which scopes.
-/

namespace Peanut

inductive ActorKind where
  | user
  | serviceToken
  | appKey
deriving DecidableEq, Repr

structure Principal where
  actorId : String
  actorKind : ActorKind
  appId : Option String
  isAdmin : Bool
  scopes : List String
deriving DecidableEq, Repr

namespace Principal

def userForApp (userId appId : String) (isAdmin : Bool) : Principal :=
  { actorId := userId, actorKind := .user, appId := some appId, isAdmin := isAdmin
    scopes := if isAdmin then ["admin:all"] else [] }

def serviceToken (userId : String) (isAdmin : Bool) : Principal :=
  { actorId := userId, actorKind := .serviceToken, appId := some DEFAULT_APP_ID
    isAdmin := isAdmin, scopes := if isAdmin then ["admin:all"] else [] }

def appKey (keyId appId : String) (isAdmin : Bool) (scopes : List String) : Principal :=
  { actorId := keyId, actorKind := .appKey, appId := some appId, isAdmin := isAdmin
    scopes := scopes }

/-- Every scope is granted by itself, by the wildcard of its namespace and by
    `admin:all`. -/
def hasScope (p : Principal) (scope : String) : Bool :=
  let wildcard := (splitOnce ':' scope).map fun parts => parts.1 ++ ":*"
  p.scopes.any fun value => value == "admin:all" || value == scope || wildcard == some value

end Principal

/-- What the authentication of the SDK hands to a handler. -/
structure SdkAuthContext where
  principal : Principal
  user : Option Claims
  actor : Claims
deriving DecidableEq, Repr

end Peanut
