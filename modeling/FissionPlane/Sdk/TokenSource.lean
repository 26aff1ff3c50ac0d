/-
# FissionPlane.Sdk.TokenSource -- the credential of a handle under concurrency

Every path that re-arms a handle (a data-plane refresh, `mint_token`, `resume`) sends a request,
gives control up until the reply is in, and then stores the reply's token. In the Rust SDK the
token lives in a slot shared by the handle, its clones and every data-plane module built from it;
in the TypeScript SDK in the handle's own field. Either is a cell of `FissionPlane.Lib.Exchange`,
and the two SDKs differ in what a refresh asks for: the Rust one reads the ports of the slot.

The store is unconditional. So the epoch of the cell goes back when a reply overtakes a newer one,
and a refresh widens the slot when the slot has been narrowed since the refresh read it.
-/
import Mathlib.Data.Int.Order.Basic
import FissionPlane.Lib.Exchange
import FissionPlane.Sdk.Token

namespace FissionPlane.Sdk.TokenSource

open FissionPlane.Lib.Transition FissionPlane.Lib.Exchange

/-! ## Calls that re-arm the handle -/

inductive Op where
  | refresh
  | mintToken (request : MintTokenRequest)
  | resume
  deriving DecidableEq

/-- The requests the control plane sees. -/
inductive Request where
  | mint (request : MintTokenRequest)
  | resume
  deriving DecidableEq

/-- `TokenSource::refresh` carries over the ports of the token in the slot. -/
def rustPrepare (current : Option CapabilityToken) : Op → Option Request
  -- a slot exists, and modules to refresh it, only once the handle is armed
  | .refresh => current.map fun token => .mint ⟨none, token.ports⟩
  | .mintToken request => some (.mint request)
  | .resume => some .resume

/-- `withFreshToken` calls `mintToken()` without options. -/
def typescriptPrepare (current : Option CapabilityToken) : Op → Option Request
  | .refresh => current.map fun _ => .mint ⟨none, none⟩
  | .mintToken request => some (.mint request)
  | .resume => some .resume

inductive Client where
  | rust
  | typescript
  deriving DecidableEq

def Client.prepare : Client → Option CapabilityToken → Op → Option Request
  | .rust => rustPrepare
  | .typescript => typescriptPrepare

/-- A control plane whose epochs do not decrease in the order it processes requests. -/
def issuesInOrder (issued : List CapabilityToken) (_ : Request) (reply : CapabilityToken) : Bool :=
  issued.all fun token => token.epoch ≤ reply.epoch

/-- A control plane that grants exactly the requested ports. -/
def grantsExactly (_ : List CapabilityToken) (request : Request) (reply : CapabilityToken) :
    Bool :=
  match request with
  | .mint request => reply.ports = request.ports
  | .resume => true

/-- The credential of a handle, with its history. -/
abbrev Slot := State Op Request CapabilityToken

abbrev SlotAction := Action Op CapabilityToken

/-! ## Epochs -/

theorem monotoneServer (client : Client) :
    MonotoneServer CapabilityToken.epoch ⟨client.prepare, issuesInOrder⟩ := by
  intro issued _ reply hadm token htoken
  have hall := List.all_eq_true.mp hadm token htoken
  exact of_decide_eq_true hall

/-- The epoch of the token a handle holds never goes back over a schedule exactly when no reply is
installed after the reply to a request the control plane processed later under a newer epoch. -/
theorem epoch_monotone_iff (client : Client) (held : Option CapabilityToken)
    (as : List SlotAction) :
    EveryStep (step ⟨client.prepare, issuesInOrder⟩) (Monotone CapabilityToken.epoch)
        (.init held) as ↔
      EveryStep (step ⟨client.prepare, issuesInOrder⟩) (NoOvertake CapabilityToken.epoch)
        (.init held) as :=
  everyStep_monotone_iff (monotoneServer client) held as

/-- A refresh is processed before a resume and its reply is delivered after the resume's. -/
def overtaken : List SlotAction :=
  [.launch .refresh, .process 0 ⟨"refreshed", 1, none⟩,
    .launch .resume, .process 1 ⟨"resumed", 2, none⟩, .deliver 1, .deliver 0]

/-- In both SDKs the handle is left with the token of the epoch the resume has ended. -/
theorem not_epoch_monotone :
    ¬ EveryStep (step ⟨Client.rust.prepare, issuesInOrder⟩) (Monotone CapabilityToken.epoch)
        (.init (some ⟨"created", 1, none⟩)) overtaken ∧
      ¬ EveryStep (step ⟨Client.typescript.prepare, issuesInOrder⟩)
        (Monotone CapabilityToken.epoch) (.init (some ⟨"created", 1, none⟩)) overtaken := by
  constructor
  · intro h
    have hlast := ((((((h _ rfl).2 _ rfl).2 _ rfl).2 _ rfl).2 _ rfl).2 _ rfl).1
    exact absurd (hlast _ _ rfl rfl) (by decide)
  · intro h
    have hlast := ((((((h _ rfl).2 _ rfl).2 _ rfl).2 _ rfl).2 _ rfl).2 _ rfl).1
    exact absurd (hlast _ _ rfl rfl) (by decide)

/-! ## Scopes -/

/-- A refresh does not replace the token in the slot by one of a wider scope. -/
def NeverWidens (s : Slot) (a : SlotAction) (s' : Slot) : Prop :=
  ∀ i c token token', a = .deliver i → s.calls[i]? = some c → c.kind = .refresh →
    s.held = some token → s'.held = some token' → token'.ports.Within token.ports

/-- If a token was installed since the refresh read the slot, the last one is no narrower than what
the refresh asked for. -/
def NotNarrowedSince (s : Slot) (a : SlotAction) (_ : Slot) : Prop :=
  ∀ i c body token, a = .deliver i → s.calls[i]? = some c → c.kind = .refresh →
    c.request = .mint body → c.since < s.installs.length → s.held = some token →
    body.ports.Within token.ports

/-- The parties of the Rust SDK's slot. -/
def rust : Parties Op Request CapabilityToken := ⟨rustPrepare, grantsExactly⟩

/-- What a refresh asks for, and what it is granted, is the scope of the slot at its launch. -/
theorem ports_of_refresh {s : Slot} {i seq : Nat} {c : Call Op Request CapabilityToken}
    {reply : CapabilityToken} (hprep : Prepared rust s) (hadm : Admitted rust s)
    (hc : s.calls[i]? = some c) (hkind : c.kind = .refresh)
    (hans : c.phase = .answered seq reply) :
    ∃ token body, s.heldAt c.since = some token ∧ c.request = .mint body ∧
      body.ports = token.ports ∧ reply.ports = token.ports := by
  obtain ⟨-, hrequest⟩ := hprep i c hc
  rw [hkind] at hrequest
  obtain ⟨token, htoken, hbody⟩ := Option.map_eq_some_iff.mp hrequest
  obtain ⟨issued, hgrant⟩ := hadm i c seq reply hc hans
  rw [← hbody] at hgrant
  exact ⟨token, _, htoken, hbody.symm, rfl, of_decide_eq_true hgrant⟩

/-- One step widens the slot exactly when it has been narrowed since. -/
theorem neverWidens_iff {s s' : Slot} {a : SlotAction} (hprep : Prepared rust s)
    (hadm : Admitted rust s) (h : step rust s a = some s') :
    NeverWidens s a s' ↔ NotNarrowedSince s a s' := by
  obtain ⟨_, _, rfl, -, rfl⟩ | ⟨_, _, _, rfl, -, -, -, rfl⟩ |
    ⟨i, c, seq, reply, rfl, hc, hans, rfl⟩ | ⟨_, _, rfl, -, -, rfl⟩ := step_cases h
  · exact ⟨fun _ _ _ _ _ ha => (by cases ha), fun _ _ _ _ _ ha => (by cases ha)⟩
  · exact ⟨fun _ _ _ _ _ ha => (by cases ha), fun _ _ _ _ _ ha => (by cases ha)⟩
  · constructor
    · intro hnw j d body token ha hd hkind hbody _ hheld
      cases ha
      obtain rfl := Option.some.inj (hc.symm.trans hd)
      obtain ⟨_, body', -, hbody', hasked, hgranted⟩ := ports_of_refresh hprep hadm hc hkind hans
      obtain rfl := Request.mint.inj (hbody.symm.trans hbody')
      have hwithin := hnw i c token reply rfl hc hkind hheld rfl
      rw [hgranted] at hwithin
      rw [hasked]
      exact hwithin
    · intro hnn j d token token' ha hd hkind hheld hheld'
      cases ha
      obtain rfl := Option.some.inj (hc.symm.trans hd)
      obtain rfl := Option.some.inj hheld'
      obtain ⟨read, body, hread, hbody, hasked, hgranted⟩ :=
        ports_of_refresh hprep hadm hc hkind hans
      rw [hgranted]
      rcases Nat.lt_or_ge c.since s.installs.length with hlt | hge
      · rw [← hasked]
        exact hnn i c body token rfl hc hkind hbody hlt hheld
      · -- nothing was installed since: the slot still holds what the refresh read
        have heq : c.since = s.installs.length := Nat.le_antisymm (hprep i c hc).1 hge
        rw [heq, heldAt_length] at hread
        obtain rfl := Option.some.inj (hread.symm.trans hheld)
        exact Scope.within_refl _
  · exact ⟨fun _ _ _ _ _ ha => (by cases ha), fun _ _ _ _ _ ha => (by cases ha)⟩

/-- Over a schedule of any number of refreshes, mints and resumes, no refresh widens the slot
exactly when none is installed over a token narrower than it asked for, installed since it read the
slot. -/
theorem neverWidens_iff_notNarrowedSince (held : Option CapabilityToken) (as : List SlotAction) :
    EveryStep (step rust) NeverWidens (.init held) as ↔
      EveryStep (step rust) NotNarrowedSince (.init held) as := by
  have hinv : ∀ {s a s'}, Prepared rust s ∧ Admitted rust s → step rust s a = some s' →
      Prepared rust s' ∧ Admitted rust s' := fun hi h =>
    ⟨prepared_step hi.1 h, admitted_step hi.2 h⟩
  exact everyStep_congr_of_inv hinv (fun hi h => neverWidens_iff hi.1 hi.2 h)
    ⟨prepared_init held, admitted_init held⟩

/-- A refresh reads the full scope; a mint for port 8080 is installed before its reply is. -/
def narrowedSince : List SlotAction :=
  [.launch .refresh, .launch (.mintToken ⟨none, some [8080]⟩),
    .process 1 ⟨"scoped", 1, some [8080]⟩, .deliver 1, .process 0 ⟨"refreshed", 1, none⟩,
    .deliver 0]

theorem not_neverWidens :
    ¬ EveryStep (step rust) NeverWidens (.init (some ⟨"created", 1, none⟩)) narrowedSince := by
  intro h
  have hlast := ((((((h _ rfl).2 _ rfl).2 _ rfl).2 _ rfl).2 _ rfl).2 _ rfl).1
  exact hlast 0 _ _ _ rfl rfl rfl rfl rfl

end FissionPlane.Sdk.TokenSource
