/-
# FissionPlane.Api.Permissions -- the grants of the organization roles

Each role holds actions on resources. The check of a permission looks its text `resource:action` up
in the set of the texts of the role's grants; as no resource has a colon in its name, that is the
same as looking the action up under the resource.
-/
import FissionPlane.Api.Gate
import Mathlib.Data.List.Infix

namespace FissionPlane.Api

/-! ## The matrix -/

/-- Actions by resource. -/
abbrev Grants := List (String × List String)

/-- Every `resource:action` grant tenant authorization can express. -/
def statements : Grants :=
  [("organization", ["update", "delete"]),
   ("member", ["create", "update", "delete"]),
   ("invitation", ["create", "cancel"]),
   ("sandbox", ["create", "read", "pause", "resume", "terminate"]),
   ("template", ["create", "read", "delete"]),
   ("apiKey", ["create", "read", "revoke"]),
   ("billing", ["read", "manage"])]

/-- Single source of truth for tenant authorization. -/
def roleStatements : OrganizationRole → Grants
  | .owner => statements
  | .admin =>
      [("organization", ["update"]),
       ("member", ["create", "update", "delete"]),
       ("invitation", ["create", "cancel"]),
       ("sandbox", ["create", "read", "pause", "resume", "terminate"]),
       ("template", ["create", "read", "delete"]),
       ("apiKey", ["create", "read", "revoke"]),
       ("billing", ["read"])]
  | .developer =>
      [("organization", []),
       ("member", []),
       ("invitation", []),
       ("sandbox", ["create", "read", "pause", "resume", "terminate"]),
       ("template", ["create", "read"]),
       ("apiKey", ["create", "read", "revoke"]),
       ("billing", [])]
  | .viewer =>
      [("organization", []),
       ("member", []),
       ("invitation", []),
       ("sandbox", ["read"]),
       ("template", ["read"]),
       ("apiKey", []),
       ("billing", ["read"])]

/-- The literals of `OrganizationPermissionSchema`. -/
inductive OrganizationPermission where
  | organizationUpdate
  | organizationDelete
  | memberCreate
  | memberUpdate
  | memberDelete
  | invitationCreate
  | invitationCancel
  | sandboxCreate
  | sandboxRead
  | sandboxPause
  | sandboxResume
  | sandboxTerminate
  | templateCreate
  | templateRead
  | templateDelete
  | apiKeyCreate
  | apiKeyRead
  | apiKeyRevoke
  | billingRead
  | billingManage
  deriving DecidableEq, Repr

namespace OrganizationPermission

def resource : OrganizationPermission → String
  | organizationUpdate | organizationDelete => "organization"
  | memberCreate | memberUpdate | memberDelete => "member"
  | invitationCreate | invitationCancel => "invitation"
  | sandboxCreate | sandboxRead | sandboxPause | sandboxResume | sandboxTerminate => "sandbox"
  | templateCreate | templateRead | templateDelete => "template"
  | apiKeyCreate | apiKeyRead | apiKeyRevoke => "apiKey"
  | billingRead | billingManage => "billing"

def action : OrganizationPermission → String
  | memberCreate | invitationCreate | sandboxCreate | templateCreate | apiKeyCreate => "create"
  | sandboxRead | templateRead | apiKeyRead | billingRead => "read"
  | organizationUpdate | memberUpdate => "update"
  | organizationDelete | memberDelete | templateDelete => "delete"
  | invitationCancel => "cancel"
  | sandboxPause => "pause"
  | sandboxResume => "resume"
  | sandboxTerminate => "terminate"
  | apiKeyRevoke => "revoke"
  | billingManage => "manage"

/-- The literal itself. -/
def text (permission : OrganizationPermission) : String :=
  permission.resource ++ ":" ++ permission.action

end OrganizationPermission

def permissionSetFromStatements (grants : Grants) : List String :=
  grants.flatMap fun (resource, actions) => actions.map fun action => resource ++ ":" ++ action

def hasOrganizationPermission (role : OrganizationRole) (permission : OrganizationPermission) :
    Bool :=
  (permissionSetFromStatements (roleStatements role)).contains permission.text

/-! ## The set of texts is the matrix -/

/-- The action is listed under the resource. -/
def Grants.Holds (grants : Grants) (resource action : String) : Prop :=
  ∃ actions, (resource, actions) ∈ grants ∧ action ∈ actions

/-- No resource is named with a colon. -/
def Grants.ColonFree (grants : Grants) : Prop := ∀ grant ∈ grants, ':' ∉ grant.1.toList

/-- A text is cut at its first colon in one way only. -/
theorem colon_inj {r₁ r₂ a₁ a₂ : String} (h₁ : ':' ∉ r₁.toList) (h₂ : ':' ∉ r₂.toList)
    (h : r₁ ++ ":" ++ a₁ = r₂ ++ ":" ++ a₂) : r₁ = r₂ ∧ a₁ = a₂ := by
  have hlist : r₁.toList ++ ':' :: a₁.toList = r₂.toList ++ ':' :: a₂.toList := by
    have htext := congrArg String.toList h
    simp only [String.toList_append, List.append_assoc] at htext
    exact htext
  have hcolon : ∀ r : String, ':' ∉ r.toList → ∀ c ∈ r.toList, (c == ':') = false := by
    intro r hr c hc
    exact beq_eq_false_iff_ne.mpr fun heq => hr (heq ▸ hc)
  have hsplit := congrArg (List.splitOnP (· == ':')) hlist
  rw [List.splitOnP_append_cons_of_forall_mem (hcolon r₁ h₁) ':' (beq_self_eq_true _),
    List.splitOnP_append_cons_of_forall_mem (hcolon r₂ h₂) ':' (beq_self_eq_true _)] at hsplit
  have hresource := (List.cons.inj hsplit).1
  rw [hresource] at hlist
  have haction := (List.cons.inj (List.append_cancel_left hlist)).2
  exact ⟨String.toList_inj.mp hresource, String.toList_inj.mp haction⟩

theorem mem_permissionSetFromStatements {grants : Grants} (hgrants : grants.ColonFree)
    {resource action : String} (hresource : ':' ∉ resource.toList) :
    resource ++ ":" ++ action ∈ permissionSetFromStatements grants ↔
      grants.Holds resource action := by
  rw [permissionSetFromStatements, List.mem_flatMap]
  constructor
  · rintro ⟨⟨r, actions⟩, hgrant, hmem⟩
    obtain ⟨a, ha, heq⟩ := List.mem_map.mp hmem
    obtain ⟨rfl, rfl⟩ := colon_inj (hgrants _ hgrant) hresource heq
    exact ⟨actions, hgrant, ha⟩
  · rintro ⟨actions, hgrant, ha⟩
    exact ⟨(resource, actions), hgrant, List.mem_map.mpr ⟨action, ha, rfl⟩⟩

theorem roleStatements_colonFree (role : OrganizationRole) :
    (roleStatements role).ColonFree := by
  unfold Grants.ColonFree
  cases role <;> decide +kernel

theorem resource_colonFree (permission : OrganizationPermission) :
    ':' ∉ permission.resource.toList := by
  cases permission <;> decide +kernel

theorem hasOrganizationPermission_iff (role : OrganizationRole)
    (permission : OrganizationPermission) :
    hasOrganizationPermission role permission = true ↔
      (roleStatements role).Holds permission.resource permission.action := by
  rw [hasOrganizationPermission, List.contains_iff_mem]
  exact mem_permissionSetFromStatements (roleStatements_colonFree role)
    (resource_colonFree permission)

/-- Every role may read sandboxes. -/
theorem sandboxRead_granted (role : OrganizationRole) :
    hasOrganizationPermission role .sandboxRead = true := by
  rw [hasOrganizationPermission_iff]
  cases role with
  | owner => exact ⟨["create", "read", "pause", "resume", "terminate"], by decide, by decide⟩
  | admin => exact ⟨["create", "read", "pause", "resume", "terminate"], by decide, by decide⟩
  | developer => exact ⟨["create", "read", "pause", "resume", "terminate"], by decide, by decide⟩
  | viewer => exact ⟨["read"], by decide, by decide⟩

/-! ## Requiring a permission -/

/-- `ForbiddenError`: the error, and the grant that is missing. -/
structure ForbiddenError where
  permission : OrganizationPermission

def ForbiddenError.domainError (_ : ForbiddenError) : DomainError :=
  ⟨"ForbiddenError", "FORBIDDEN", "You are not authorized to perform this action", 403⟩

def requirePermission (permission : OrganizationPermission) (subject : AuthenticatedMember) :
    Except ForbiddenError Unit :=
  if hasOrganizationPermission subject.role permission = true then .ok ()
  else .error ⟨permission⟩

end FissionPlane.Api
