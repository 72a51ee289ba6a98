import Peanut.Data.Types
import Peanut.Library.Outcome

/-!
# Access decisions

`api/data/access.rs` together with the policy checks of `internal.rs`.  A
decision is made twice in this code base: once for a table (`canReadTable`,
`canWriteTable`), where no row is at hand and the owner is therefore unknown,
and once for a row (`canAccessRow`).  Both go through `evaluateRule`, and both
fall back on the mode of the policy when the action has no rule of its own.
-/

namespace Peanut

inductive RowAccessAction where
  | read
  | update
  | delete
deriving DecidableEq, Repr

/-- One rule against one caller and one owner.  An unknown owner satisfies the
    `owner` rule: the source uses the same function for table-level checks. -/
def evaluateRule (rule : Option RuleName) (claims : Claims) (ownerUserId : Option String) : Bool :=
  match rule with
  | some .rulePublic => true
  | some .ruleAuthenticated => true
  | some .ruleAdmin => claims.isAdmin
  | some .ruleOwner =>
      match ownerUserId with
      | some owner => owner == claims.sub
      | none => true
  | _ => false

/-- The table-level fallback on the mode, the same for reading and writing. -/
def tableModeAllows (claims : Claims) (mode : PolicyMode) : Bool :=
  match mode with
  | .adminOnly => claims.isAdmin
  | .ownerPrivate | .authenticatedSharedRw => true
  | _ => false

def canReadTable (claims : Claims) (policy : AccessPolicy) : Bool :=
  match policy.rules.bind (·.read) with
  | some readRule => evaluateRule (some readRule) claims none
  | none => tableModeAllows claims policy.mode

def canWriteTable (claims : Claims) (policy : AccessPolicy) : Bool :=
  match policy.rules.bind (·.create) with
  | some createRule => evaluateRule (some createRule) claims none
  | none => tableModeAllows claims policy.mode

/-- The rule a policy has for an action on a row. -/
def AccessRules.ruleFor (rules : AccessRules) : RowAccessAction → Option RuleName
  | .read => rules.read
  | .update => rules.update
  | .delete => rules.delete

def canAccessRow (claims : Claims) (policy : AccessPolicy) (ownerUserId : Option String)
    (action : RowAccessAction) : Bool :=
  if claims.isAdmin then true
  else
    match policy.rules.bind (·.ruleFor action) with
    | some rule => evaluateRule (some rule) claims ownerUserId
    | none =>
        match policy.mode with
        | .adminOnly => false
        | .ownerPrivate => ownerUserId == some claims.sub
        | .authenticatedSharedRw => true
        | _ => false

/-! ### Which policies are accepted -/

def validateAccessRuleValue (action : String) (rule : RuleName) : Except String Unit :=
  match rule with
  | .rulePublic | .ruleAuthenticated | .ruleAdmin | .ruleOwner => .ok ()
  | .unknown _ =>
      .error s!"access_policy.rules.{action} must be public, authenticated, admin, or owner"

def validateAccessRules (rules : AccessRules) : Except String Unit :=
  Outcome.checkAll
    (fun e : String × Option RuleName =>
      match e.2 with
      | some rule => validateAccessRuleValue e.1 rule
      | none => .ok ())
    [("create", rules.create), ("read", rules.read), ("update", rules.update),
      ("delete", rules.delete)]

def validateAccessPolicy (policy : AccessPolicy) : Except String Unit :=
  match policy.mode with
  | .adminOnly | .ownerPrivate | .authenticatedSharedRw =>
      match policy.rules with
      | some rules => validateAccessRules rules
      | none => .ok ()
  | .custom =>
      match policy.rules with
      | some rules => validateAccessRules rules
      | none => .error "access_policy.rules are required when mode is custom"
  | .unknown _ => .error "access_policy.mode is invalid"

/-- The words an accepted rule is made of. -/
def RuleName.Known (r : RuleName) : Prop := ∀ t, r ≠ .unknown t

theorem validateAccessRuleValue_eq_ok {action : String} {rule : RuleName} :
    validateAccessRuleValue action rule = .ok () ↔ rule.Known := by
  cases rule <;> simp [validateAccessRuleValue, RuleName.Known]

theorem validateAccessRules_eq_ok {rules : AccessRules} :
    validateAccessRules rules = .ok () ↔
      ∀ rule, rules.create = some rule ∨ rules.read = some rule ∨ rules.update = some rule ∨
        rules.delete = some rule → rule.Known := by
  have hentry : ∀ (action : String) (o : Option RuleName),
      (match o with
        | some rule => validateAccessRuleValue action rule
        | none => (.ok () : Except String Unit)) = .ok () ↔ ∀ rule, o = some rule → rule.Known := by
    intro action o
    cases o with
    | none => simp
    | some rule => simp [validateAccessRuleValue_eq_ok]
  rw [validateAccessRules, Outcome.checkAll_eq_ok]
  simp only [List.forall_mem_cons, hentry, List.not_mem_nil, false_implies, implies_true, and_true]
  constructor
  · rintro ⟨hc, hr, hu, hd⟩ rule (h | h | h | h)
    · exact hc rule h
    · exact hr rule h
    · exact hu rule h
    · exact hd rule h
  · intro h
    exact ⟨fun r hr => h r (.inl hr), fun r hr => h r (.inr (.inl hr)),
      fun r hr => h r (.inr (.inr (.inl hr))), fun r hr => h r (.inr (.inr (.inr hr)))⟩

/-- What acceptance of a policy says: a known mode, rules for `custom`, and
    known words throughout. -/
theorem validateAccessPolicy_eq_ok {policy : AccessPolicy} :
    validateAccessPolicy policy = .ok () ↔
      (∀ t, policy.mode ≠ .unknown t) ∧ (policy.mode = .custom → policy.rules ≠ none) ∧
        ∀ rules, policy.rules = some rules → validateAccessRules rules = .ok () := by
  obtain ⟨mode, rules⟩ := policy
  cases mode <;> cases rules <;> simp [validateAccessPolicy]

/-- In an accepted policy the rule of an action, where there is one, is a known word. -/
theorem ruleFor_known {policy : AccessPolicy} (h : validateAccessPolicy policy = .ok ())
    {action : RowAccessAction} {rule : RuleName}
    (hrule : policy.rules.bind (·.ruleFor action) = some rule) : rule.Known := by
  obtain ⟨rules, hrules, hfor⟩ := Option.bind_eq_some_iff.mp hrule
  have hall := validateAccessRules_eq_ok.mp ((validateAccessPolicy_eq_ok.mp h).2.2 rules hrules)
  cases action with
  | read => exact hall rule (.inr (.inl hfor))
  | update => exact hall rule (.inr (.inr (.inl hfor)))
  | delete => exact hall rule (.inr (.inr (.inr hfor)))

/-! ### Owners -/

/-- The owner a new row gets from its creator. -/
def ownerUserIdForNewRow (claims : Claims) (policy : AccessPolicy) : Option String :=
  match policy.rules.bind (·.create) with
  | some createRule =>
      match createRule with
      | .ruleOwner | .ruleAuthenticated => some claims.sub
      | _ => none
  | none =>
      match policy.mode with
      | .ownerPrivate => some claims.sub
      | .authenticatedSharedRw => some claims.sub
      | .custom => none
      | _ => none

/-- The owner an imported row gets from the payload. -/
def normalizeImportOwnerUserId (policy : AccessPolicy) (ownerUserId : Option String) :
    Except String (Option String) :=
  let given := ownerUserId.filter fun value => !isBlank value
  let requireOwner (message : String) : Except String (Option String) :=
    match given with
    | some owner => .ok (some owner)
    | none => .error message
  match policy.rules.bind (·.create) with
  | some createRule =>
      match createRule with
      | .ruleOwner =>
          requireOwner "owner_user_id is required when importing rows with owner create rule"
      | .ruleAuthenticated => .ok given
      | .rulePublic | .ruleAdmin => .ok none
      | .unknown _ => .error "access_policy.rules.create is invalid"
  | none =>
      match policy.mode with
      | .ownerPrivate =>
          requireOwner "owner_user_id is required when importing rows into owner_private tables"
      | .authenticatedSharedRw => .ok given
      | .adminOnly | .custom => .ok none
      | .unknown _ => .error "access_policy.mode is invalid"

end Peanut
