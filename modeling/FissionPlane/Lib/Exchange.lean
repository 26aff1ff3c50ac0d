/-
# FissionPlane.Lib.Exchange -- a cell re-armed by asynchronous replies

A client holds one value in a cell. Each of its calls prepares a request from what the cell holds
at the time, sends it, and installs the reply in the cell when it arrives; a server processes
requests one at a time and its replies arrive in any order, or never. Nothing orders the calls of
one client among themselves.

Two facts hold of every such client, whatever the values are. A request was prepared from the value
the cell held at its launch (`Prepared`). And when the server's replies are monotone in some key,
in the order it processes requests, the key of the cell never goes back exactly when no reply is
installed after the reply to a request processed later under a greater key
(`everyStep_monotone_iff`).
-/
import Mathlib.Order.Lattice
import FissionPlane.Lib.Transition

namespace FissionPlane.Lib.Exchange

open FissionPlane.Lib.Transition

variable {κ ρ τ : Type*}

/-! ## Calls, states and steps -/

/-- How far a call has got; `seq` is its place in the order of processing. -/
inductive Phase (τ : Type*) where
  | sent
  | answered (seq : Nat) (reply : τ)
  | installed (seq : Nat) (reply : τ)
  | failed
  deriving DecidableEq

/-- A call, with the number of values installed in the cell before its launch. -/
structure Call (κ ρ τ : Type*) where
  kind : κ
  request : ρ
  since : Nat
  phase : Phase τ
  deriving DecidableEq

/-- The values installed and the replies issued, both newest first, and the calls by number. -/
structure State (κ ρ τ : Type*) where
  installs : List τ
  calls : List (Call κ ρ τ)
  issued : List τ
  deriving DecidableEq

inductive Action (κ τ : Type*) where
  | launch (kind : κ)
  | process (call : Nat) (reply : τ)
  | deliver (call : Nat)
  | fail (call : Nat)
  deriving DecidableEq

/-- A cell that was armed before, or not. -/
def State.init (held : Option τ) : State κ ρ τ := ⟨held.toList, [], held.toList⟩

/-- What the cell holds. -/
def State.held (s : State κ ρ τ) : Option τ := s.installs.head?

/-- What the cell held when it had seen `n` installs. -/
def State.heldAt (s : State κ ρ τ) (n : Nat) : Option τ :=
  (s.installs.drop (s.installs.length - n)).head?

/-- How the client prepares a request, and which replies the server may give to it, by what it has
issued so far. -/
structure Parties (κ ρ τ : Type*) where
  prepare : Option τ → κ → Option ρ
  admits : List τ → ρ → τ → Bool

variable (X : Parties κ ρ τ)

def step (s : State κ ρ τ) : Action κ τ → Option (State κ ρ τ)
  | .launch kind =>
      (X.prepare s.held kind).map fun request =>
        { s with calls := s.calls ++ [⟨kind, request, s.installs.length, .sent⟩] }
  | .process i reply =>
      match s.calls[i]? with
      | some ⟨kind, request, since, .sent⟩ =>
          if X.admits s.issued request reply then
            some { s with
              calls := s.calls.set i ⟨kind, request, since, .answered s.issued.length reply⟩
              issued := reply :: s.issued }
          else none
      | _ => none
  | .deliver i =>
      match s.calls[i]? with
      | some ⟨kind, request, since, .answered seq reply⟩ =>
          some { s with
            calls := s.calls.set i ⟨kind, request, since, .installed seq reply⟩
            installs := reply :: s.installs }
      | _ => none
  | .fail i =>
      match s.calls[i]? with
      -- a reply can be lost before or after the request was processed, not once it is installed
      | some ⟨_, _, _, .installed _ _⟩ => none
      | some c => some { s with calls := s.calls.set i { c with phase := .failed } }
      | none => none

/-! ## What a step can do -/

variable {X} {s s' : State κ ρ τ} {a : Action κ τ}

theorem step_cases (h : step X s a = some s') :
    (∃ kind request, a = .launch kind ∧ X.prepare s.held kind = some request ∧
      s' = ⟨s.installs, s.calls ++ [⟨kind, request, s.installs.length, .sent⟩], s.issued⟩) ∨
    (∃ i c reply, a = .process i reply ∧ s.calls[i]? = some c ∧ c.phase = .sent ∧
      X.admits s.issued c.request reply = true ∧
      s' = ⟨s.installs, s.calls.set i { c with phase := .answered s.issued.length reply },
        reply :: s.issued⟩) ∨
    (∃ i c seq reply, a = .deliver i ∧ s.calls[i]? = some c ∧ c.phase = .answered seq reply ∧
      s' = ⟨reply :: s.installs, s.calls.set i { c with phase := .installed seq reply },
        s.issued⟩) ∨
    (∃ i c, a = .fail i ∧ s.calls[i]? = some c ∧ (∀ seq reply, c.phase ≠ .installed seq reply) ∧
      s' = ⟨s.installs, s.calls.set i { c with phase := .failed }, s.issued⟩) := by
  cases a with
  | launch kind =>
      obtain ⟨request, hprep, rfl⟩ := Option.map_eq_some_iff.mp h
      exact .inl ⟨kind, request, rfl, hprep, rfl⟩
  | process i reply =>
      rw [step] at h
      split at h
      · next kind request since hc =>
          split at h
          · next hadm =>
              obtain rfl := Option.some.inj h
              exact .inr (.inl ⟨i, _, reply, rfl, hc, rfl, hadm, rfl⟩)
          · cases h
      · cases h
  | deliver i =>
      rw [step] at h
      split at h
      · next kind request since seq reply hc =>
          obtain rfl := Option.some.inj h
          exact .inr (.inr (.inl ⟨i, _, seq, reply, rfl, hc, rfl, rfl⟩))
      · cases h
  | fail i =>
      rw [step] at h
      split at h
      · cases h
      · next c hne hc =>
          obtain rfl := Option.some.inj h
          refine .inr (.inr (.inr ⟨i, c, rfl, hc, fun seq reply hphase => ?_, rfl⟩))
          obtain ⟨kind, request, since, phase⟩ := c
          obtain rfl := hphase
          exact hne kind request since seq reply rfl
      · cases h

/-- A call after a step that updates call `i` is the updated one or an old one. -/
theorem getElem?_set_cases {calls : List (Call κ ρ τ)} {i j : Nat} {new c : Call κ ρ τ}
    (h : (calls.set i new)[j]? = some c) : (j = i ∧ c = new) ∨ (j ≠ i ∧ calls[j]? = some c) := by
  rw [List.getElem?_set] at h
  split at h
  · next hij =>
      split at h
      · exact .inl ⟨hij.symm, (Option.some.inj h).symm⟩
      · cases h
  · next hij => exact .inr ⟨Ne.symm hij, h⟩

theorem getElem?_append_cases {calls : List (Call κ ρ τ)} {j : Nat} {new c : Call κ ρ τ}
    (h : (calls ++ [new])[j]? = some c) : c = new ∨ calls[j]? = some c := by
  rw [List.getElem?_append] at h
  split at h
  · exact .inr h
  · rw [List.getElem?_singleton] at h
    split at h
    · exact .inl (Option.some.inj h).symm
    · cases h

/-! ## Requests are prepared from what the cell held at their launch -/

theorem heldAt_length (s : State κ ρ τ) : s.heldAt s.installs.length = s.held := by
  rw [State.heldAt, Nat.sub_self, List.drop_zero, State.held]

theorem heldAt_cons {installs : List τ} {calls calls' : List (Call κ ρ τ)} {issued issued' : List τ}
    {n : Nat} (reply : τ) (h : n ≤ installs.length) :
    State.heldAt ⟨reply :: installs, calls', issued'⟩ n =
      State.heldAt ⟨installs, calls, issued⟩ n := by
  have hsub : (reply :: installs).length - n = installs.length - n + 1 := by
    rw [List.length_cons]
    omega
  simp only [State.heldAt, hsub, List.drop_succ_cons]

/-- Every call was prepared from the value the cell held at its launch. -/
def Prepared (X : Parties κ ρ τ) (s : State κ ρ τ) : Prop :=
  ∀ (i : Nat) (c : Call κ ρ τ), s.calls[i]? = some c →
    c.since ≤ s.installs.length ∧ X.prepare (s.heldAt c.since) c.kind = some c.request

theorem prepared_init (held : Option τ) : Prepared X (State.init held) := by
  intro i c h
  cases h

theorem prepared_step (hinv : Prepared X s) (h : step X s a = some s') : Prepared X s' := by
  obtain ⟨kind, request, -, hprep, rfl⟩ | ⟨i, c, reply, -, hc, -, -, rfl⟩ |
    ⟨i, c, seq, reply, -, hc, -, rfl⟩ | ⟨i, c, -, hc, -, rfl⟩ := step_cases h
  · intro j d hd
    rcases getElem?_append_cases hd with rfl | hd
    · refine ⟨Nat.le_refl _, ?_⟩
      rw [← hprep, ← heldAt_length s]
      rfl
    · exact hinv j d hd
  · intro j d hd
    rcases getElem?_set_cases hd with ⟨-, rfl⟩ | ⟨-, hd⟩
    · exact hinv i c hc
    · exact hinv j d hd
  · intro j d hd
    have hold : d.since ≤ s.installs.length ∧
        X.prepare (s.heldAt d.since) d.kind = some d.request := by
      rcases getElem?_set_cases hd with ⟨-, rfl⟩ | ⟨-, hd⟩
      · exact hinv i c hc
      · exact hinv j d hd
    refine ⟨Nat.le_succ_of_le hold.1, ?_⟩
    rw [heldAt_cons reply hold.1]
    exact hold.2
  · intro j d hd
    rcases getElem?_set_cases hd with ⟨-, rfl⟩ | ⟨-, hd⟩
    · exact hinv i c hc
    · exact hinv j d hd

/-! ## Calls that have a reply -/

def State.Answered (s : State κ ρ τ) (i seq : Nat) (reply : τ) : Prop :=
  ∃ c, s.calls[i]? = some c ∧ c.phase = .answered seq reply

def State.Installed (s : State κ ρ τ) (i seq : Nat) (reply : τ) : Prop :=
  ∃ c, s.calls[i]? = some c ∧ c.phase = .installed seq reply

def State.Replied (s : State κ ρ τ) (i seq : Nat) (reply : τ) : Prop :=
  s.Answered i seq reply ∨ s.Installed i seq reply

theorem State.Answered.unique {i seq seq' : Nat} {reply reply' : τ} (h : s.Answered i seq reply)
    (h' : s.Answered i seq' reply') : reply = reply' := by
  obtain ⟨c, hc, hp⟩ := h
  obtain ⟨c', hc', hp'⟩ := h'
  obtain rfl := Option.some.inj (hc.symm.trans hc')
  exact (Phase.answered.inj (hp.symm.trans hp')).2

/-- After an update of call `i` a reply is that of the updated call, or an old one. -/
theorem State.Replied.of_set {installs issued : List τ} {i j seq : Nat} {new : Call κ ρ τ}
    {reply : τ}
    (h : State.Replied ⟨installs, s.calls.set i new, issued⟩ j seq reply) :
    (j = i ∧ (new.phase = .answered seq reply ∨ new.phase = .installed seq reply)) ∨
      s.Replied j seq reply := by
  rcases h with ⟨d, hd, hp⟩ | ⟨d, hd, hp⟩
  · rcases getElem?_set_cases hd with ⟨hji, rfl⟩ | ⟨-, hd⟩
    · exact .inl ⟨hji, .inl hp⟩
    · exact .inr (.inl ⟨d, hd, hp⟩)
  · rcases getElem?_set_cases hd with ⟨hji, rfl⟩ | ⟨-, hd⟩
    · exact .inl ⟨hji, .inr hp⟩
    · exact .inr (.inr ⟨d, hd, hp⟩)

/-- An installed reply stays when another call is updated. -/
theorem State.Installed.set {installs issued : List τ} {i j seq : Nat} {c : Call κ ρ τ}
    {reply : τ} (new : Call κ ρ τ) (h : s.Installed j seq reply) (hc : s.calls[i]? = some c)
    (hne : ∀ seq reply, c.phase ≠ .installed seq reply) :
    State.Installed ⟨installs, s.calls.set i new, issued⟩ j seq reply := by
  obtain ⟨d, hd, hp⟩ := h
  have hij : i ≠ j := by
    rintro rfl
    obtain rfl := Option.some.inj (hc.symm.trans hd)
    exact hne seq reply hp
  exact ⟨d, (List.getElem?_set_ne hij).trans hd, hp⟩

/-- What a step does to the calls that have a reply: a reply is new only when it is processed, and
an installed one stays; it is newly installed only when it is delivered. -/
theorem replied_step (h : step X s a = some s') :
    (∀ {j seq reply}, s'.Replied j seq reply → s.Replied j seq reply ∨
      (a = .process j reply ∧ seq = s.issued.length ∧ s'.issued = reply :: s.issued)) ∧
    ∀ {j seq reply}, s.Installed j seq reply → s'.Installed j seq reply := by
  obtain ⟨kind, request, -, -, rfl⟩ | ⟨i, c, new, rfl, hc, hsent, -, rfl⟩ |
    ⟨i, c, seq, new, -, hc, hans, rfl⟩ | ⟨i, c, -, hc, hne, rfl⟩ := step_cases h
  · refine ⟨?_, ?_⟩
    · rintro j seq reply (⟨d, hd, hp⟩ | ⟨d, hd, hp⟩)
      · rcases getElem?_append_cases hd with rfl | hd
        · cases hp
        · exact .inl (.inl ⟨d, hd, hp⟩)
      · rcases getElem?_append_cases hd with rfl | hd
        · cases hp
        · exact .inl (.inr ⟨d, hd, hp⟩)
    · rintro j seq reply ⟨d, hd, hp⟩
      obtain ⟨hlt, -⟩ := List.getElem?_eq_some_iff.mp hd
      exact ⟨d, (List.getElem?_append_left hlt).trans hd, hp⟩
  · refine ⟨fun hr => ?_, fun hj => hj.set _ hc fun seq reply hp => ?_⟩
    · rcases hr.of_set with ⟨rfl, hp | hp⟩ | hr
      · obtain ⟨rfl, rfl⟩ := Phase.answered.inj hp
        exact .inr ⟨rfl, rfl, rfl⟩
      · cases hp
      · exact .inl hr
    · rw [hsent] at hp
      cases hp
  · refine ⟨fun hr => ?_, fun hj => hj.set _ hc fun seq reply hp => ?_⟩
    · rcases hr.of_set with ⟨rfl, hp | hp⟩ | hr
      · cases hp
      · -- the reply delivered is the one the call was answered with
        obtain ⟨rfl, rfl⟩ := Phase.installed.inj hp
        exact .inl (.inl ⟨c, hc, hans⟩)
      · exact .inl hr
    · rw [hans] at hp
      cases hp
  · refine ⟨fun hr => ?_, fun hj => hj.set _ hc hne⟩
    rcases hr.of_set with ⟨rfl, hp | hp⟩ | hr
    · cases hp
    · cases hp
    · exact .inl hr

/-- A reply is newly installed only by the step that puts it in the cell. -/
theorem installed_step (h : step X s a = some s') {j seq : Nat} {reply : τ}
    (hj : s'.Installed j seq reply) :
    s.Installed j seq reply ∨ s'.installs = reply :: s.installs := by
  obtain ⟨d, hd, hp⟩ := hj
  obtain ⟨kind, request, -, -, rfl⟩ | ⟨i, c, new, -, -, -, -, rfl⟩ |
    ⟨i, c, seq', new, -, -, -, rfl⟩ | ⟨i, c, -, -, -, rfl⟩ := step_cases h
  · rcases getElem?_append_cases hd with rfl | hd
    · cases hp
    · exact .inl ⟨d, hd, hp⟩
  · rcases getElem?_set_cases hd with ⟨-, rfl⟩ | ⟨-, hd⟩
    · cases hp
    · exact .inl ⟨d, hd, hp⟩
  · rcases getElem?_set_cases hd with ⟨-, rfl⟩ | ⟨-, hd⟩
    · cases hp
      exact .inr rfl
    · exact .inl ⟨d, hd, hp⟩
  · rcases getElem?_set_cases hd with ⟨-, rfl⟩ | ⟨-, hd⟩
    · cases hp
    · exact .inl ⟨d, hd, hp⟩

/-- What a step does to the two histories: one reply issued, one installed, or neither. -/
theorem histories_step (h : step X s a = some s') :
    (∃ i reply r, a = .process i reply ∧ X.admits s.issued r reply = true ∧
      s'.issued = reply :: s.issued ∧ s'.installs = s.installs) ∨
    (∃ i seq reply, a = .deliver i ∧ s.Answered i seq reply ∧ s'.Installed i seq reply ∧
      s'.issued = s.issued ∧ s'.installs = reply :: s.installs) ∨
    ((∀ i reply, a ≠ .process i reply) ∧ (∀ i, a ≠ .deliver i) ∧ s'.issued = s.issued ∧
      s'.installs = s.installs) := by
  obtain ⟨kind, request, rfl, -, rfl⟩ | ⟨i, c, reply, rfl, hc, -, hadm, rfl⟩ |
    ⟨i, c, seq, reply, rfl, hc, hans, rfl⟩ | ⟨i, c, rfl, hc, -, rfl⟩ := step_cases h
  · exact .inr (.inr ⟨fun _ _ ha => (by cases ha), fun _ ha => (by cases ha), rfl, rfl⟩)
  · exact .inl ⟨i, reply, c.request, rfl, hadm, rfl, rfl⟩
  · obtain ⟨hlt, -⟩ := List.getElem?_eq_some_iff.mp hc
    exact .inr (.inl ⟨i, seq, reply, rfl, ⟨c, hc, hans⟩,
      ⟨_, List.getElem?_set_self hlt, rfl⟩, rfl, rfl⟩)
  · exact .inr (.inr ⟨fun _ _ ha => (by cases ha), fun _ ha => (by cases ha), rfl, rfl⟩)

/-- Every reply of a call was admitted for its request. -/
def Admitted (X : Parties κ ρ τ) (s : State κ ρ τ) : Prop :=
  ∀ (i : Nat) (c : Call κ ρ τ) (seq : Nat) (reply : τ), s.calls[i]? = some c →
    c.phase = .answered seq reply → ∃ issued, X.admits issued c.request reply = true

theorem admitted_init (held : Option τ) : Admitted X (State.init held) := by
  intro i c seq reply h
  cases h

theorem admitted_step (hinv : Admitted X s) (h : step X s a = some s') : Admitted X s' := by
  intro j d seq reply hd hp
  obtain ⟨kind, request, -, -, rfl⟩ | ⟨i, c, new, -, -, -, hadm, rfl⟩ |
    ⟨i, c, seq', new, -, -, -, rfl⟩ | ⟨i, c, -, -, -, rfl⟩ := step_cases h
  · rcases getElem?_append_cases hd with rfl | hd
    · cases hp
    · exact hinv j d seq reply hd hp
  · rcases getElem?_set_cases hd with ⟨-, rfl⟩ | ⟨-, hd⟩
    · cases hp
      exact ⟨s.issued, hadm⟩
    · exact hinv j d seq reply hd hp
  · rcases getElem?_set_cases hd with ⟨-, rfl⟩ | ⟨-, hd⟩
    · cases hp
    · exact hinv j d seq reply hd hp
  · rcases getElem?_set_cases hd with ⟨-, rfl⟩ | ⟨-, hd⟩
    · cases hp
    · exact hinv j d seq reply hd hp

/-! ## Monotone servers -/

section Monotone

variable {α : Type*} [LinearOrder α] (key : τ → α)

/-- What the cell holds never decreases in a step. -/
def Monotone (s : State κ ρ τ) (_ : Action κ τ) (s' : State κ ρ τ) : Prop :=
  ∀ t t', s.held = some t → s'.held = some t' → key t ≤ key t'

/-- No reply is installed after the reply to a request processed later under a greater key. -/
def NoOvertake (s : State κ ρ τ) (a : Action κ τ) (_ : State κ ρ τ) : Prop :=
  ∀ i j seq seq' reply reply', a = .deliver i → s.Answered i seq reply →
    s.Installed j seq' reply' → seq < seq' → ¬ key reply < key reply'

/-- The server's replies are monotone in the order it processes requests. -/
def MonotoneServer (X : Parties κ ρ τ) : Prop :=
  ∀ {issued r reply}, X.admits issued r reply = true → ∀ t ∈ issued, key t ≤ key reply

/-- Replies have been issued in the order of their numbers with monotone keys, after `base`; what
has been installed is `base` or the reply of an installed call. -/
structure Ordered (base : List τ) (s : State κ ρ τ) : Prop where
  base_issued : ∀ t ∈ base, t ∈ s.issued
  issued : ∀ {i seq reply}, s.Replied i seq reply → seq < s.issued.length ∧ reply ∈ s.issued
  base_le : ∀ {i seq reply}, s.Replied i seq reply → ∀ t ∈ base, key t ≤ key reply
  mono : ∀ {i j seq seq' reply reply'}, s.Replied i seq reply → s.Replied j seq' reply' →
    seq ≤ seq' → key reply ≤ key reply'
  installs : ∀ t ∈ s.installs, t ∈ base ∨ ∃ i seq, s.Installed i seq t

variable {key} {base : List τ}

theorem ordered_init (held : Option τ) :
    Ordered key held.toList (State.init held : State κ ρ τ) := by
  have hnone : ∀ {i seq reply}, ¬ (State.init held : State κ ρ τ).Replied i seq reply := by
    rintro i seq reply (⟨c, hc, -⟩ | ⟨c, hc, -⟩) <;> cases hc
  exact ⟨fun _ h => h, fun h => absurd h hnone, fun h => absurd h hnone, fun h => absurd h hnone,
    fun _ h => .inl h⟩

/-- A step that issues nothing keeps the order as far as its installs are accounted for. -/
theorem Ordered.of_issued (hord : Ordered key base s) (hissued : s'.issued = s.issued)
    (hreplied : ∀ {j seq reply}, s'.Replied j seq reply → s.Replied j seq reply)
    (hinstalls : ∀ t ∈ s'.installs, t ∈ base ∨ ∃ i seq, s'.Installed i seq t) :
    Ordered key base s' where
  base_issued := hissued ▸ hord.base_issued
  issued hr := hissued ▸ hord.issued (hreplied hr)
  base_le hr := hord.base_le (hreplied hr)
  mono hr hr' := hord.mono (hreplied hr) (hreplied hr')
  installs := hinstalls

theorem ordered_step (hmono : MonotoneServer key X) (hord : Ordered key base s)
    (h : step X s a = some s') : Ordered key base s' := by
  obtain ⟨hreplied, hinstalled⟩ := replied_step h
  obtain ⟨i, new, r, rfl, hadm, hissued, hinstalls⟩ |
    ⟨i, seq, new, rfl, -, hnew, hissued, hinstalls⟩ |
    ⟨hnp, -, hissued, hinstalls⟩ := histories_step h
  · -- the new reply comes after every other, in number and in key
    have hcases : ∀ {j seq reply}, s'.Replied j seq reply →
        s.Replied j seq reply ∨ (seq = s.issued.length ∧ reply = new) := by
      intro j seq reply hr
      rcases hreplied hr with hr | ⟨ha, hseq, -⟩
      · exact .inl hr
      · cases ha
        exact .inr ⟨hseq, rfl⟩
    refine ⟨?_, ?_, ?_, ?_, ?_⟩
    · intro t ht
      rw [hissued]
      exact List.mem_cons_of_mem _ (hord.base_issued t ht)
    · intro j seq reply hr
      rw [hissued, List.length_cons]
      rcases hcases hr with hr | ⟨rfl, rfl⟩
      · obtain ⟨hlt, hmem⟩ := hord.issued hr
        exact ⟨Nat.lt_succ_of_lt hlt, List.mem_cons_of_mem _ hmem⟩
      · exact ⟨Nat.lt_succ_self _, List.mem_cons_self⟩
    · intro j seq reply hr t ht
      rcases hcases hr with hr | ⟨-, rfl⟩
      · exact hord.base_le hr t ht
      · exact hmono hadm t (hord.base_issued t ht)
    · intro j k seq seq' reply reply' hr hr' hle
      rcases hcases hr with hr | ⟨rfl, rfl⟩
      · rcases hcases hr' with hr' | ⟨-, rfl⟩
        · exact hord.mono hr hr' hle
        · exact hmono hadm reply (hord.issued hr).2
      · rcases hcases hr' with hr' | ⟨-, rfl⟩
        · exact absurd (hord.issued hr').1 (Nat.not_lt.mpr hle)
        · exact le_refl _
    · intro t ht
      rw [hinstalls] at ht
      rcases hord.installs t ht with hb | ⟨j, seq, hj⟩
      · exact .inl hb
      · exact .inr ⟨j, seq, hinstalled hj⟩
  · refine hord.of_issued hissued (fun hr => ?_) fun t ht => ?_
    · rcases hreplied hr with hr | ⟨ha, -, -⟩
      · exact hr
      · cases ha
    · rw [hinstalls] at ht
      rcases List.mem_cons.mp ht with rfl | ht
      · exact .inr ⟨i, seq, hnew⟩
      · exact (hord.installs t ht).imp_right fun ⟨j, seq', hj⟩ => ⟨j, seq', hinstalled hj⟩
  · refine hord.of_issued hissued (fun hr => ?_) fun t ht => ?_
    · rcases hreplied hr with hr | ⟨ha, -, -⟩
      · exact hr
      · exact absurd ha (hnp _ _)
    · rw [hinstalls] at ht
      exact (hord.installs t ht).imp_right fun ⟨j, seq', hj⟩ => ⟨j, seq', hinstalled hj⟩

/-- A reply that overtakes nothing has a key at least that of what the cell holds. -/
theorem monotone_of_noOvertake (hord : Ordered key base s) (h : step X s a = some s')
    (hno : NoOvertake key s a s') : Monotone key s a s' := by
  intro t t' ht ht'
  obtain ⟨i, new, r, -, -, -, hinstalls⟩ | ⟨i, seq, new, rfl, hans, -, -, hinstalls⟩ |
    ⟨-, -, -, hinstalls⟩ := histories_step h
  · rw [State.held, hinstalls] at ht'
    obtain rfl := Option.some.inj (ht.symm.trans ht')
    exact le_refl _
  · rw [State.held, hinstalls] at ht'
    obtain rfl := Option.some.inj ht'
    -- what the cell holds is older than every call, or the reply of one
    rcases hord.installs t (List.mem_of_head? ht) with hb | ⟨j, seq', hj⟩
    · exact hord.base_le (.inl hans) t hb
    · rcases Nat.lt_or_ge seq seq' with hlt | hge
      · exact not_lt.mp (hno i j seq seq' new t rfl hans hj hlt)
      · exact hord.mono (.inr hj) (.inl hans) hge
  · rw [State.held, hinstalls] at ht'
    obtain rfl := Option.some.inj (ht.symm.trans ht')
    exact le_refl _

/-- As long as the cell never went back, it holds the greatest key installed. -/
def HoldsMax (key : τ → α) (s : State κ ρ τ) : Prop :=
  (∀ t ∈ s.installs, ∀ u, s.held = some u → key t ≤ key u) ∧
    ∀ {i seq reply}, s.Installed i seq reply → reply ∈ s.installs

theorem holdsMax_init (held : Option τ) : HoldsMax key (State.init held : State κ ρ τ) := by
  refine ⟨fun t ht u hu => ?_, fun ⟨c, hc, _⟩ => by cases hc⟩
  cases held with
  | none => cases ht
  | some v =>
      obtain rfl := List.mem_singleton.mp ht
      obtain rfl := Option.some.inj hu
      exact le_refl _

theorem holdsMax_step (hmax : HoldsMax key s) (h : step X s a = some s')
    (hstep : Monotone key s a s') : HoldsMax key s' := by
  obtain ⟨hge, hmem⟩ := hmax
  have hsub : ∀ t ∈ s.installs, t ∈ s'.installs := by
    obtain ⟨_, _, _, -, -, -, hinstalls⟩ | ⟨_, _, _, -, -, -, -, hinstalls⟩ |
      ⟨-, -, -, hinstalls⟩ := histories_step h
    · exact fun t ht => hinstalls ▸ ht
    · exact fun t ht => hinstalls ▸ List.mem_cons_of_mem _ ht
    · exact fun t ht => hinstalls ▸ ht
  refine ⟨?_, fun hj => ?_⟩
  · obtain ⟨i, new, r, -, -, -, hinstalls⟩ | ⟨i, seq, new, -, -, -, -, hinstalls⟩ |
      ⟨-, -, -, hinstalls⟩ := histories_step h
    · rw [State.held, hinstalls]
      exact hge
    · have hnew : s'.held = some new := by rw [State.held, hinstalls, List.head?_cons]
      intro t ht u hu
      obtain rfl := Option.some.inj (hnew.symm.trans hu)
      rw [hinstalls] at ht
      rcases List.mem_cons.mp ht with rfl | ht
      · exact le_refl _
      · -- the value overwritten lies between the two
        obtain ⟨v, hv⟩ := Option.isSome_iff_exists.mp
          (List.isSome_head?.mpr (List.ne_nil_of_mem ht))
        exact le_trans (hge t ht v hv) (hstep v new hv hnew)
    · rw [State.held, hinstalls]
      exact hge
  · rcases installed_step h hj with hold | hinstalls
    · exact hsub _ (hmem hold)
    · rw [hinstalls]
      exact List.mem_cons_self

/-- A cell that holds the greatest key and does not go back is overtaken by nothing. -/
theorem noOvertake_of_monotone (hmax : HoldsMax key s) (h : step X s a = some s')
    (hstep : Monotone key s a s') : NoOvertake key s a s' := by
  rintro i j seq seq' reply reply' rfl hans hj - hlt
  obtain ⟨_, _, _, ha, -⟩ | ⟨i', _, new, ha, hans', -, -, hinstalls⟩ | ⟨-, hnd, -⟩ :=
    histories_step h
  · cases ha
  · cases ha
    obtain rfl := hans.unique hans'
    have hmem := hmax.2 hj
    obtain ⟨v, hv⟩ := Option.isSome_iff_exists.mp
      (List.isSome_head?.mpr (List.ne_nil_of_mem hmem))
    have hnew : s'.held = some reply := by rw [State.held, hinstalls, List.head?_cons]
    exact absurd hlt (not_lt.mpr (le_trans (hmax.1 _ hmem v hv) (hstep v reply hv hnew)))
  · exact hnd i rfl

/-- The key of the cell never goes back over a schedule exactly when no delivery of the schedule
overtakes a reply under a greater key. -/
theorem everyStep_monotone_iff (hmono : MonotoneServer key X) (held : Option τ)
    (as : List (Action κ τ)) :
    EveryStep (step X) (Monotone key) (State.init held) as ↔
      EveryStep (step X) (NoOvertake key) (State.init held) as := by
  have hmax : ∀ {s a s'}, HoldsMax key s → step X s a = some s' → Monotone key s a s' →
      NoOvertake key s a s' ∧ HoldsMax key s' := fun hmax h hstep =>
    ⟨noOvertake_of_monotone hmax h hstep, holdsMax_step hmax h hstep⟩
  have hord : ∀ {s a s'}, Ordered key held.toList s → step X s a = some s' →
      NoOvertake key s a s' → Monotone key s a s' ∧ Ordered key held.toList s' :=
    fun hord h hno => ⟨monotone_of_noOvertake hord h hno, ordered_step hmono hord h⟩
  -- each direction carries the invariant that the hypothesis on the steps keeps alive
  exact ⟨EveryStep.imp_of_inv hmax (holdsMax_init held),
    EveryStep.imp_of_inv hord (ordered_init held)⟩

end Monotone

end FissionPlane.Lib.Exchange
