import Mathlib.Tactic.Common

/-! Runs of a labelled transition relation. The labels of a run are listed the
latest first, so that a statement about its last event of a kind is one about
the first match in the list.
-/

set_option autoImplicit false

namespace BekenSdk.Base

inductive Run {S L : Type} (step : S → L → S → Prop) (start : S) : List L → S → Prop where
  | nil : Run step start [] start
  | next {labels : List L} {s t : S} {label : L} :
    Run step start labels s → step s label t → Run step start (label :: labels) t

namespace Run
variable {S L : Type} {step : S → L → S → Prop} {start final : S} {labels : List L}

/-- A property of states and histories that every allowed step keeps holds at the end. -/
theorem invariant (allowed : L → Prop) (inv : List L → S → Prop) (run : Run step start labels final)
    (all : ∀ label ∈ labels, allowed label) (initial : inv [] start)
    (preserved : ∀ past s label t, inv past s → allowed label → step s label t → inv (label :: past) t) :
    inv labels final := by
  induction run with
  | nil => exact initial
  | next _ last ih =>
    have before := ih fun label member => all label (List.mem_cons_of_mem _ member)
    exact preserved _ _ _ _ before (all _ List.mem_cons_self) last

/-- A run is over when its labels are. -/
theorem final_of_nil (run : Run step start [] final) : final = start := by
  cases run
  rfl

end Run

/-! ## Machines

Machines that take one event after the other. A state may refuse an event:
then no run has the event there. A moment of a run is an event with the state
that it comes to.
-/

structure Moment (S E : Type) where
  before : S
  event : E

namespace Machine
variable {S E : Type}

def Step (step : E → S → Option S) (s : S) (moment : Moment S E) (t : S) : Prop :=
  moment.before = s ∧ step moment.event s = some t

/-- The events one after the other, the latest first. -/
def replay (step : E → S → Option S) (start : S) : List E → Option S
  | [] => some start
  | event :: earlier => (replay step start earlier).bind (step event)

/-- Every state of a run, the last one with them. -/
def Always (good : S → Prop) (moments : List (Moment S E)) (final : S) : Prop :=
  (∀ moment ∈ moments, good moment.before) ∧ good final

variable {step : E → S → Option S} {start final : S} {moments : List (Moment S E)}

theorem run_of_replay {events : List E} (replayed : replay step start events = some final) :
    ∃ moments, Run (Step step) start moments final ∧ moments.map Moment.event = events := by
  induction events generalizing final with
  | nil =>
    obtain rfl := Option.some.inj replayed
    exact ⟨[], .nil, rfl⟩
  | cons event earlier ih =>
    obtain ⟨s, before, last⟩ := Option.bind_eq_some_iff.mp replayed
    obtain ⟨moments, run, same⟩ := ih before
    exact ⟨⟨s, event⟩ :: moments, .next run ⟨rfl, last⟩, by rw [List.map_cons, same]⟩

/-- The machine without the steps that are not fine. -/
def guarded (fine : S → E → Prop) [∀ s event, Decidable (fine s event)] (step : E → S → Option S) (event : E) (s : S) :
    Option S :=
  if fine s event then step event s else none

theorem run_of_fine {fine : S → E → Prop} [∀ s event, Decidable (fine s event)] {events : List E}
    {shown : S → Bool} (found : (replay (guarded fine step) start events).any shown = true) :
    ∃ moments final, Run (Step step) start moments final ∧ moments.map Moment.event = events ∧
      (∀ moment ∈ moments, fine moment.before moment.event) ∧ shown final = true := by
  obtain ⟨final, replayed, seen⟩ := (Option.any_eq_true _ _).mp found
  suffices ∃ moments, Run (Step step) start moments final ∧ moments.map Moment.event = events ∧
      ∀ moment ∈ moments, fine moment.before moment.event by
    obtain ⟨moments, run, same, all⟩ := this
    exact ⟨moments, final, run, same, all, seen⟩
  clear found seen
  induction events generalizing final with
  | nil =>
    obtain rfl := Option.some.inj replayed
    exact ⟨[], .nil, rfl, fun _ member => absurd member List.not_mem_nil⟩
  | cons event earlier ih =>
    obtain ⟨s, before, last⟩ := Option.bind_eq_some_iff.mp replayed
    obtain ⟨moments, run, same, all⟩ := ih _ before
    rw [guarded] at last
    split at last
    next ok =>
      refine ⟨⟨s, event⟩ :: moments, .next run ⟨rfl, last⟩, by rw [List.map_cons, same], ?_⟩
      exact List.forall_mem_cons.mpr ⟨ok, all⟩
    · cases last

/-- What a sample run shows of its last state. -/
theorem run_of_any {events : List E} {shown : S → Bool} (found : (replay step start events).any shown = true) :
    ∃ moments final, Run (Step step) start moments final ∧ moments.map Moment.event = events ∧
      shown final = true := by
  obtain ⟨final, replayed, seen⟩ := (Option.any_eq_true _ _).mp found
  obtain ⟨moments, run, same⟩ := run_of_replay replayed
  exact ⟨moments, final, run, same, seen⟩

theorem always_nil {good : S → Prop} : Always good ([] : List (Moment S E)) final ↔ good final :=
  ⟨And.right, fun last => ⟨fun _ member => absurd member List.not_mem_nil, last⟩⟩

theorem always_cons {good : S → Prop} {moment : Moment S E} :
    Always good (moment :: moments) final ↔ Always good moments moment.before ∧ good final := by
  constructor
  · rintro ⟨visited, last⟩
    exact ⟨⟨fun m member => visited m (List.mem_cons_of_mem _ member), visited _ List.mem_cons_self⟩, last⟩
  · rintro ⟨⟨visited, before⟩, last⟩
    refine ⟨fun m member => ?_, last⟩
    cases member with
    | head => exact before
    | tail _ member => exact visited m member

/-- An invariant of the allowed steps holds at every moment. -/
theorem always_of_invariant {inv : S → Prop} {allowed : S → E → Prop} (run : Run (Step step) start moments final)
    (initial : inv start)
    (preserved : ∀ {s t : S} {event : E}, inv s → allowed s event → step event s = some t → inv t)
    (all : ∀ moment ∈ moments, allowed moment.before moment.event) : Always inv moments final := by
  induction run with
  | nil => exact always_nil.mpr initial
  | next _ last ih =>
    obtain ⟨rfl, taken⟩ := last
    have before := ih fun moment member => all moment (List.mem_cons_of_mem _ member)
    exact always_cons.mpr ⟨before, preserved before.2 (all _ List.mem_cons_self) taken⟩

theorem Always.mono {good weaker : S → Prop} (always : Always good moments final)
    (weaken : ∀ s, good s → weaker s) : Always weaker moments final :=
  ⟨fun moment member => weaken _ (always.1 moment member), weaken _ always.2⟩

/-- When the steps that are not fine are the ones that spoil a state, a run is
good throughout if and only if it has no such step. -/
theorem always_iff_of_invariant {inv good : S → Prop} {allowed fine : S → E → Prop}
    (run : Run (Step step) start moments final) (initial : inv start) (shown : ∀ s, inv s → good s)
    (preserved : ∀ {s t : S} {event : E}, inv s → allowed s event → fine s event → step event s = some t → inv t)
    (spoiled : ∀ {s t : S} {event : E}, inv s → allowed s event → ¬fine s event → step event s = some t → ¬good t)
    (all : ∀ moment ∈ moments, allowed moment.before moment.event) :
    Always good moments final ↔ ∀ moment ∈ moments, fine moment.before moment.event := by
  constructor
  · intro always
    suffices (∀ moment ∈ moments, fine moment.before moment.event) ∧ inv final from this.1
    induction run with
    | nil => exact ⟨fun _ member => absurd member List.not_mem_nil, initial⟩
    | next _ last ih =>
      obtain ⟨rfl, taken⟩ := last
      obtain ⟨early, after⟩ := always_cons.mp always
      obtain ⟨before, kept⟩ := ih (fun moment member => all moment (List.mem_cons_of_mem _ member)) early
      have ok := all _ List.mem_cons_self
      have now := Classical.not_not.mp fun bad => spoiled kept ok bad taken after
      exact ⟨List.forall_mem_cons.mpr ⟨now, before⟩, preserved kept ok now taken⟩
  · intro ok
    have both := @always_of_invariant S E step start final moments inv (fun s event => allowed s event ∧
      fine s event) run initial
      (fun kept both taken => preserved kept both.1 both.2 taken)
      (fun moment member => ⟨all moment member, ok moment member⟩)
    exact both.mono shown

theorem always_iff {good : S → Prop} {fine : S → E → Prop} (run : Run (Step step) start moments final)
    (initial : good start)
    (preserved : ∀ {s t : S} {event : E}, good s → fine s event → step event s = some t → good t)
    (spoiled : ∀ {s t : S} {event : E}, good s → ¬fine s event → step event s = some t → ¬good t) :
    Always good moments final ↔ ∀ moment ∈ moments, fine moment.before moment.event :=
  @always_iff_of_invariant S E step start final moments good good (fun _ _ => True) fine run initial (fun _ kept => kept)
    (fun kept _ => preserved kept) (fun kept _ => spoiled kept) (fun _ _ => trivial)

/-! ## Machines that do what others do

A relation of states that every step keeps turns a run of one machine into a run of the other
with the same events.
-/

section
variable {T : Type} {other : E → T → Option T} {related : S → T → Prop} {begun : T}

theorem simulated (run : Run (Step step) start moments final) (initial : related start begun)
    (matched : ∀ {s next : S} {t : T} {event : E}, related s t → step event s = some next →
      ∃ after, other event t = some after ∧ related next after) :
    ∃ others ended, Run (Step other) begun others ended ∧ others.map Moment.event = moments.map Moment.event ∧
      related final ended := by
  induction run with
  | nil => exact ⟨[], begun, .nil, rfl, initial⟩
  | @next moments s final moment _ last ih =>
    obtain ⟨others, t, run, same, before⟩ := ih
    obtain ⟨after, taken, kept⟩ := matched before last.2
    refine ⟨⟨t, moment.event⟩ :: others, after, .next run ⟨rfl, taken⟩, ?_, kept⟩
    rw [List.map_cons, List.map_cons, same]

end

end Machine

end BekenSdk.Base
