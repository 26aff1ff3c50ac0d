/-
# FissionPlane.VmInit.Backoff -- how long the supervisor waits before it restarts the child

When the child exits, it is restarted after a delay that doubles up to a cap and falls back to the
minimum once the child has stayed up for a stable interval. The code keeps the next delay and the
instant of the last start, and nothing else.

While starts and exits alternate, the i-th delay has a closed form in the number of unstable runs
since the last stable one. When they do not, the instant of the last start may belong to a run that
is over, and the time since then is not uptime: the delay then falls back without a stable run.
-/
import Mathlib.Data.List.Induction
import FissionPlane.Lib.Duration
import FissionPlane.Lib.Transition

namespace FissionPlane.VmInit

open FissionPlane.Lib FissionPlane.Lib.Transition

/-! ## The backoff -/

/-- Exponential backoff with a stability reset. -/
structure Backoff where
  min : Duration
  max : Duration
  stable : Duration
  delay : Duration
  lastStart : Option Instant
  deriving DecidableEq

namespace Backoff

def new (min max stable : Duration) : Backoff where
  min := min
  max := Max.max max min
  stable := stable
  delay := min
  lastStart := none

def recordStart (b : Backoff) (now : Instant) : Backoff := { b with lastStart := some now }

/-- The run that ended at `now` counts as stable: what `child_exited` makes of the last start. -/
def wasStable (b : Backoff) (now : Instant) : Bool :=
  match b.lastStart with
  | some started => decide (b.stable ≤ now.durationSince started)
  | none => false

/-- The wait before the next start, and the backoff after it. -/
def childExited (b : Backoff) (now : Instant) : Duration × Backoff :=
  let b := if b.wasStable now then { b with delay := b.min } else b
  (b.delay, { b with delay := Min.min (b.delay.saturatingMul 2) b.max })

def currentDelay (b : Backoff) : Duration := b.delay

/-- An exit is answered with the delay or the minimum, and only the delay changes: it doubles. -/
theorem childExited_spec (b : Backoff) (now : Instant) :
    (b.childExited now).1 = (if b.wasStable now then b.min else b.delay) ∧
      (b.childExited now).2 =
        { b with delay := Min.min ((b.childExited now).1.saturatingMul 2) b.max } := by
  unfold childExited
  cases b.wasStable now <;> exact ⟨rfl, rfl⟩

end Backoff

/-! ## Histories -/

/-- What the supervisor reports to the backoff. -/
inductive Event where
  | recordStart (now : Instant)
  | childExited (now : Instant)
  deriving DecidableEq

namespace Backoff

/-- The backoff after a history. -/
def after : Backoff → List Event → Backoff
  | b, [] => b
  | b, .recordStart now :: rest => (b.recordStart now).after rest
  | b, .childExited now :: rest => (b.childExited now).2.after rest

/-- The delays a history is answered with, one for each exit. -/
def waits : Backoff → List Event → List Duration
  | _, [] => []
  | b, .recordStart now :: rest => (b.recordStart now).waits rest
  | b, .childExited now :: rest => (b.childExited now).1 :: (b.childExited now).2.waits rest

theorem after_append (b : Backoff) (h h' : List Event) :
    b.after (h ++ h') = (b.after h).after h' := by
  induction h generalizing b with
  | nil => rfl
  | cons e rest ih => cases e <;> exact ih _

theorem waits_append (b : Backoff) (h h' : List Event) :
    b.waits (h ++ h') = b.waits h ++ (b.after h).waits h' := by
  induction h generalizing b with
  | nil => rfl
  | cons e rest ih =>
      cases e with
      | recordStart now => exact ih _
      | childExited now => exact congrArg ((b.childExited now).1 :: ·) (ih _)

end Backoff

/-! ## Alternating histories -/

/-- One run of the child. -/
structure Run where
  started : Instant
  exited : Instant
  deriving DecidableEq

def Run.uptime (r : Run) : Duration := r.exited.durationSince r.started

/-- Starts and exits alternate; the child may be running at the end. -/
def alternating (runs : List Run) (running : Option Instant) : List Event :=
  (runs.flatMap fun r => [.recordStart r.started, .childExited r.exited]) ++
    running.toList.map .recordStart

/-- How often the delay has doubled at each exit: not at the first one, nor at the end of a stable
run, and otherwise once more than at the exit before. -/
def doublings (stable : Duration) (runs : List Run) : ℕ → ℕ
  | 0 => 0
  | i + 1 =>
      if (runs[i + 1]?).any fun r => decide (stable ≤ r.uptime) then 0
      else doublings stable runs i + 1

/-- The delay after so many doublings, in nanoseconds and without overflow. -/
def closedForm (min max : Duration) (k : ℕ) : ℕ :=
  Min.min (Max.max max.nanos min.nanos) (min.nanos * 2 ^ k)

section

variable {min max stable : Duration} {b : Backoff} {k : ℕ}

/-- The exits of the later runs do not change the doublings of the earlier ones. -/
theorem doublings_append {runs : List Run} (later : List Run) {i : ℕ} (hi : i < runs.length) :
    doublings stable (runs ++ later) i = doublings stable runs i := by
  induction i with
  | zero => rfl
  | succ i ih =>
      rw [doublings, doublings, List.getElem?_append_left hi, ih (by omega)]

theorem min_le_closedForm : min.nanos ≤ closedForm min max k := by
  have hpow : 1 ≤ 2 ^ k := Nat.one_le_two_pow
  have hmul : min.nanos * 1 ≤ min.nanos * 2 ^ k := Nat.mul_le_mul_left _ hpow
  unfold closedForm
  omega

theorem closedForm_le : closedForm min max k ≤ Max.max max.nanos min.nanos := Nat.min_le_left _ _

/-- Doubling the delay and capping it is doubling once more: where the product saturates, the cap
has long been reached. -/
theorem closedForm_succ :
    Min.min (Min.min (closedForm min max k * 2) Duration.maxNanos) (Max.max max.nanos min.nanos) =
      closedForm min max (k + 1) := by
  have hmin : min.nanos ≤ Duration.maxNanos := min.le_max
  have hmax : max.nanos ≤ Duration.maxNanos := max.le_max
  have hpow : min.nanos * 2 ^ (k + 1) = min.nanos * 2 ^ k * 2 := by rw [Nat.pow_succ, Nat.mul_assoc]
  unfold closedForm
  rw [hpow]
  omega

/-- The backoff keeps its parameters, and its next delay is the minimum doubled so many times. -/
structure Doubled (min max stable : Duration) (k : ℕ) (b : Backoff) : Prop where
  min_eq : b.min = min
  max_eq : b.max = Max.max max min
  stable_eq : b.stable = stable
  delay_eq : b.delay.nanos = closedForm min max k

theorem doubled_new (min max stable : Duration) :
    Doubled min max stable 0 (.new min max stable) := by
  refine ⟨rfl, rfl, rfl, ?_⟩
  show min.nanos = closedForm min max 0
  unfold closedForm
  omega

/-- One run: its exit is answered with the delay as it stands, or with the minimum after a stable
run, and the delay doubles. -/
theorem Doubled.run (h : Doubled min max stable k b) (r : Run) :
    let k' := if stable ≤ r.uptime then 0 else k
    let exit := (b.recordStart r.started).childExited r.exited
    exit.1.nanos = closedForm min max k' ∧ Doubled min max stable (k' + 1) exit.2 := by
  intro k' exit
  have hstable : (b.recordStart r.started).wasStable r.exited = decide (stable ≤ r.uptime) := by
    show decide (b.stable ≤ r.uptime) = _
    rw [h.stable_eq]
  obtain ⟨hfst, hsnd⟩ := (b.recordStart r.started).childExited_spec r.exited
  have hwait : exit.1.nanos = closedForm min max k' := by
    rw [hfst, hstable]
    by_cases hup : stable ≤ r.uptime
    · simp only [k', hup, decide_true, if_true]
      show b.min.nanos = _
      rw [h.min_eq]
      exact (doubled_new min max stable).delay_eq
    · simp only [k', hup, decide_false, Bool.false_eq_true, if_false]
      exact h.delay_eq
  refine ⟨hwait, ?_⟩
  show Doubled min max stable (k' + 1) exit.2
  rw [show exit.2 = _ from hsnd]
  refine ⟨h.min_eq, h.max_eq, h.stable_eq, ?_⟩
  show (Min.min (exit.1.saturatingMul 2) b.max).nanos = _
  rw [h.max_eq, Duration.min_nanos, Duration.saturatingMul_nanos, Duration.max_nanos, hwait]
  exact closedForm_succ

/-- After so many runs the delay has doubled once more than at the last exit. -/
theorem doubled_alternating (min max stable : Duration) (runs : List Run) :
    (Backoff.waits (.new min max stable) (alternating runs none)).map Duration.nanos =
        (List.range runs.length).map (fun i => closedForm min max (doublings stable runs i)) ∧
      Doubled min max stable
        (match runs.length with | 0 => 0 | n + 1 => doublings stable runs n + 1)
        (Backoff.after (.new min max stable) (alternating runs none)) := by
  induction runs using List.reverseRecOn with
  | nil => exact ⟨rfl, doubled_new min max stable⟩
  | append_singleton runs r ih =>
      obtain ⟨hwaits, hdoubled⟩ := ih
      have hsplit : alternating (runs ++ [r]) none =
          alternating runs none ++ [.recordStart r.started, .childExited r.exited] := by
        simp [alternating]
      obtain ⟨hwait, hnext⟩ := hdoubled.run r
      have hk : (if stable ≤ r.uptime then 0
          else match runs.length with | 0 => 0 | n + 1 => doublings stable runs n + 1) =
          doublings stable (runs ++ [r]) runs.length := by
        cases hn : runs.length with
        | zero => simp [doublings]
        | succ n =>
            have hr : (runs ++ [r])[n + 1]? = some r := by rw [← hn]; simp
            rw [doublings, hr, doublings_append [r] (by omega)]
            simp
      rw [hk] at hwait hnext
      rw [hsplit, Backoff.waits_append, Backoff.after_append, List.map_append, hwaits,
        List.length_append, List.length_singleton, List.range_succ, List.map_append]
      refine ⟨congrArg₂ _ ?_ ?_, hnext⟩
      · refine List.map_congr_left fun i hi => ?_
        rw [doublings_append [r] (List.mem_range.mp hi)]
      · show [(Backoff.childExited _ _).1.nanos] = _
        rw [hwait]
        rfl

end

/-- **The closed form of the delays.** While starts and exits alternate, the i-th exit is answered
with the minimum times a power of two, capped, without overflow; so every delay lies between the
minimum and the cap. -/
theorem waits_alternating (min max stable : Duration) (runs : List Run)
    (running : Option Instant) :
    let delays := Backoff.waits (.new min max stable) (alternating runs running)
    delays.map Duration.nanos =
        (List.range runs.length).map (fun i =>
          Min.min (Max.max max.nanos min.nanos) (min.nanos * 2 ^ doublings stable runs i)) ∧
      ∀ delay ∈ delays, min ≤ delay ∧ delay ≤ Max.max max min := by
  intro delays
  have hrunning : delays = Backoff.waits (.new min max stable) (alternating runs none) := by
    show Backoff.waits _ (alternating runs running) = _
    cases running with
    | none => rfl
    | some now =>
        have hsplit : alternating runs (some now) =
            alternating runs none ++ [.recordStart now] := by
          simp [alternating]
        rw [hsplit, Backoff.waits_append]
        exact List.append_nil _
  rw [hrunning]
  obtain ⟨hwaits, -⟩ := doubled_alternating min max stable runs
  refine ⟨hwaits, fun delay hdelay => ?_⟩
  have hmem : delay.nanos ∈ (List.range runs.length).map
      (fun i => closedForm min max (doublings stable runs i)) :=
    hwaits ▸ List.mem_map_of_mem hdelay
  obtain ⟨i, -, hi⟩ := List.mem_map.mp hmem
  rw [Duration.le_iff, Duration.le_iff, Duration.max_nanos, ← hi]
  exact ⟨min_le_closedForm, closedForm_le⟩

/-- Where a start comes next, or nothing, the last start does not matter. -/
theorem Backoff.waits_lastStart (b : Backoff) (lastStart : Option Instant) (runs : List Run)
    (running : Option Instant) :
    Backoff.waits { b with lastStart := lastStart } (alternating runs running) =
      b.waits (alternating runs running) := by
  cases runs with
  | nil => cases running <;> rfl
  | cons r runs => rfl

/-- An exit before any start is answered as the end of a first run is. -/
theorem waits_childExited_alternating (min max stable : Duration) (exited : Instant)
    (runs : List Run) (running : Option Instant) :
    Backoff.waits (.new min max stable) (.childExited exited :: alternating runs running) =
      Backoff.waits (.new min max stable) (alternating (⟨exited, exited⟩ :: runs) running) := by
  let b := Backoff.new min max stable
  have hsplit : alternating (⟨exited, exited⟩ :: runs) running =
      .recordStart exited :: .childExited exited :: alternating runs running := rfl
  obtain ⟨hfst, hsnd⟩ := b.childExited_spec exited
  obtain ⟨hfst', hsnd'⟩ := (b.recordStart exited).childExited_spec exited
  -- the delay is the minimum as yet, stable or not
  have hwait : (b.childExited exited).1 = min := by
    rw [hfst]
    exact ite_self min
  have hwait' : ((b.recordStart exited).childExited exited).1 = min := by
    rw [hfst']
    exact ite_self min
  rw [hwait] at hsnd
  rw [hwait'] at hsnd'
  rw [hsplit]
  show (b.childExited exited).1 :: (b.childExited exited).2.waits _ =
    ((b.recordStart exited).childExited exited).1 ::
      ((b.recordStart exited).childExited exited).2.waits _
  rw [hwait, hwait', hsnd, hsnd']
  exact congrArg (min :: ·) (Backoff.waits_lastStart _ (some exited) runs running).symm

/-! ## Any history -/

/-- The backoff, and the start of the run in progress: one made after the last exit. -/
structure Supervised where
  backoff : Backoff
  run : Option Instant
  deriving DecidableEq

namespace Supervised

def new (min max stable : Duration) : Supervised := ⟨.new min max stable, none⟩

def step (s : Supervised) : Event → Option Supervised
  | .recordStart now => some ⟨s.backoff.recordStart now, some now⟩
  | .childExited now => some ⟨(s.backoff.childExited now).2, none⟩

/-- A delay that has grown falls back to the minimum. -/
def Resets (s : Supervised) (now : Instant) : Prop :=
  s.backoff.delay ≠ s.backoff.min ∧ (s.backoff.childExited now).1 = s.backoff.min

/-- The delay falls back only at the end of a stable run. -/
def ResetsOnUptime (s : Supervised) (e : Event) (_ : Supervised) : Prop :=
  ∀ now, e = .childExited now → s.Resets now →
    ∃ started, s.run = some started ∧ s.backoff.stable ≤ now.durationSince started

/-- An exit that ends no run finds the delay at the minimum, or comes before the stable interval has
passed since the last start. -/
def EndsRunOrEarly (s : Supervised) (e : Event) (_ : Supervised) : Prop :=
  ∀ now, e = .childExited now → s.run = none →
    s.backoff.delay = s.backoff.min ∨
      ∀ started, s.backoff.lastStart = some started → now.durationSince started < s.backoff.stable

/-- The run in progress began at the last start. -/
def Inv (s : Supervised) : Prop :=
  ∀ started, s.run = some started → s.backoff.lastStart = some started

variable {s s' : Supervised} {e : Event} {now : Instant}

theorem inv_step (h : s.step e = some s') : s'.Inv := by
  cases e with
  | recordStart now =>
      obtain rfl := Option.some.inj h
      exact fun started hrun => hrun
  | childExited now =>
      obtain rfl := Option.some.inj h
      exact fun started hrun => (by cases hrun)

/-- A grown delay falls back exactly when the last start lies a stable interval back. -/
theorem resets_iff :
    s.Resets now ↔ s.backoff.delay ≠ s.backoff.min ∧
      ∃ started, s.backoff.lastStart = some started ∧
        s.backoff.stable ≤ now.durationSince started := by
  obtain ⟨hwait, -⟩ := s.backoff.childExited_spec now
  refine and_congr_right fun hgrown => ?_
  rw [hwait, Backoff.wasStable]
  cases hlast : s.backoff.lastStart with
  | none => simp [hgrown]
  | some started => simp [hgrown]

/-- At every exit: the delay falls back on uptime alone exactly when the condition is met. -/
theorem resetsOnUptime_iff (hinv : s.Inv) (_ : s.step e = some s') :
    s.ResetsOnUptime e s' ↔ s.EndsRunOrEarly e s' := by
  refine forall_congr' fun now => forall_congr' fun _ => ?_
  rw [resets_iff]
  cases hrun : s.run with
  | some started =>
      -- the run in progress is the one the code looks at
      refine iff_of_true ?_ nofun
      rintro ⟨-, started', hlast, hstable⟩
      obtain rfl := Option.some.inj ((hinv started hrun).symm.trans hlast)
      exact ⟨started, rfl, hstable⟩
  | none =>
      constructor
      · intro h _
        by_contra hnot
        rw [not_or, not_forall] at hnot
        obtain ⟨hgrown, started, hlate⟩ := hnot
        rw [Classical.not_imp] at hlate
        obtain ⟨hlast, hlate⟩ := hlate
        obtain ⟨_, hnone, -⟩ := h ⟨hgrown, started, hlast, Nat.le_of_not_lt hlate⟩
        cases hnone
      · rintro h ⟨hgrown, started, hlast, hstable⟩
        exfalso
        rcases h rfl with hmin | hearly
        · exact hgrown hmin
        · exact Nat.not_lt_of_le hstable (hearly started hlast)

end Supervised

/-- **When the delay falls back on uptime alone.** Over every history, a grown delay falls back to
the minimum only at the end of a stable run if and only if no exit that ends no run comes, while the
delay has grown, a stable interval after the last start. -/
theorem resetsOnUptime_iff_endsRunOrEarly (min max stable : Duration) (history : List Event) :
    EveryStep Supervised.step Supervised.ResetsOnUptime (.new min max stable) history ↔
      EveryStep Supervised.step Supervised.EndsRunOrEarly (.new min max stable) history :=
  everyStep_congr_of_inv (fun _ => Supervised.inv_step) Supervised.resetsOnUptime_iff nofun

/-- A start, a crash after a millisecond, and half a minute later a failure to spawn: the delay,
grown to 200 milliseconds, falls back to 100 as if the child had been up all that time. -/
theorem not_resetsOnUptime_spawnFailed :
    let ms (n : ℕ) : Duration := ⟨Min.min (n * 1000000) Duration.maxNanos, Nat.min_le_right _ _⟩
    let history : List Event :=
      [.recordStart ⟨ms 0⟩, .childExited ⟨ms 1⟩, .childExited ⟨ms 31000⟩]
    (Backoff.waits (.new (ms 100) (ms 5000) (ms 30000)) history).map Duration.nanos =
        [100000000, 100000000] ∧
      ¬ EveryStep Supervised.step Supervised.ResetsOnUptime
        (.new (ms 100) (ms 5000) (ms 30000)) history := by
  intro ms history
  refine ⟨by decide +kernel, fun h => ?_⟩
  have hexit := (((h _ rfl).2 _ rfl).2 _ rfl).1
  obtain ⟨started, hrun, -⟩ := hexit _ rfl ⟨by decide +kernel, by decide +kernel⟩
  cases hrun

end FissionPlane.VmInit
