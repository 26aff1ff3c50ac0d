/-
# FissionPlane.Sdk.Token -- capability tokens and their port scopes

A capability token is a bearer credential for one sandbox and epoch. Its port scope is absent for
the full scope, and a list of ports when it is narrowed. The control plane is taken at its word: it
grants exactly the scope a mint request asks for.
-/
import Mathlib.Tactic.Common

namespace FissionPlane.Sdk

/-! ## Port scopes -/

/-- The ports a token may access; `none` is the full scope. -/
abbrev Scope := Option (List Nat)

/-- `S` is no wider than `T`. -/
def Scope.Within (S T : Scope) : Prop :=
  match S, T with
  | _, none => True
  | none, some _ => False
  | some s, some t => ∀ port ∈ s, port ∈ t

instance : ∀ S T : Scope, Decidable (S.Within T)
  | _, none => isTrue trivial
  | none, some _ => isFalse id
  | some s, some t => inferInstanceAs (Decidable (∀ port ∈ s, port ∈ t))

@[simp]
theorem Scope.within_full (S : Scope) : S.Within none := by
  cases S <;> exact trivial

theorem Scope.within_refl (S : Scope) : S.Within S := by
  cases S with
  | none => trivial
  | some s => exact fun _ h => h

theorem Scope.Within.trans {S T U : Scope} (hST : S.Within T) (hTU : T.Within U) : S.Within U := by
  cases U with
  | none => exact S.within_full
  | some u =>
      cases T with
      | none => exact absurd hTU id
      | some t =>
          cases S with
          | none => exact absurd hST id
          | some s => exact fun port h => hTU port (hST port h)

/-! ## Tokens and mint requests -/

/-- A capability token for one sandbox and epoch. -/
structure CapabilityToken where
  token : String
  epoch : Int
  ports : Scope
  deriving DecidableEq, Repr

/-- Body of `mintSandboxToken`; an omitted field is left out of the body. -/
structure MintTokenRequest where
  ttlSeconds : Option Nat
  ports : Scope
  deriving DecidableEq, Repr

/-- What the control plane chooses when it grants a mint request. -/
structure Issue where
  token : String
  epoch : Int
  deriving DecidableEq, Repr

/-- The token granted: the scope is the one requested. -/
def Issue.grant (issue : Issue) (request : MintTokenRequest) : CapabilityToken :=
  ⟨issue.token, issue.epoch, request.ports⟩

end FissionPlane.Sdk
