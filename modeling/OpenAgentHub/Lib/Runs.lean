import Mathlib.Logic.Relation

namespace Runs

variable {σ ρ : Type}

def Reaches (step : σ → ρ → σ → Prop) : σ → σ → Prop :=
  Relation.ReflTransGen fun before after => ∃ label, step before label after

def guarded (handle : σ → ρ → σ) (meets : σ → ρ → Prop) (before : σ) (request : ρ) (after : σ) : Prop :=
  meets before request ∧ after = handle before request

def steps (handle : σ → ρ → σ) : σ → ρ → σ → Prop := guarded handle fun _ _ => True

/-- What holds at the start and is kept by every step from a reached state holds in every reached state. -/
theorem Reaches.invariant {step : σ → ρ → σ → Prop} {start state : σ} (holds : σ → Prop)
    (reached : Reaches step start state) (initial : holds start)
    (kept : ∀ before label after, Reaches step start before → holds before → step before label after →
      holds after) : holds state := by
  induction reached with
  | refl => exact initial
  | tail earlier last ih =>
    obtain ⟨label, taken⟩ := last
    exact kept _ label _ earlier ih taken

theorem Reaches.snoc {step : σ → ρ → σ → Prop} {start before after : σ} {label : ρ}
    (reached : Reaches step start before) (taken : step before label after) : Reaches step start after :=
  Relation.ReflTransGen.tail reached ⟨label, taken⟩

def AllMeet (handle : σ → ρ → σ) (meets : σ → ρ → Prop) : σ → List ρ → Prop
  | _, [] => True
  | state, request :: rest => meets state request ∧ AllMeet handle meets (handle state request) rest

instance AllMeet.decidable {handle : σ → ρ → σ} {meets : σ → ρ → Prop} [∀ state request, Decidable (meets state request)]
    (start : σ) (requests : List ρ) : Decidable (AllMeet handle meets start requests) :=
  match requests with
  | [] => isTrue trivial
  | request :: rest => @instDecidableAnd _ _ _ (AllMeet.decidable (handle start request) rest)

theorem allMeet_append {handle : σ → ρ → σ} {meets : σ → ρ → Prop} {first second : List ρ} {start : σ} :
    AllMeet handle meets start (first ++ second) ↔
      AllMeet handle meets start first ∧ AllMeet handle meets (first.foldl handle start) second := by
  induction first generalizing start with
  | nil => simp [AllMeet]
  | cons request rest ih => simp [AllMeet, ih, and_assoc]

theorem AllMeet.and {handle : σ → ρ → σ} {meets also : σ → ρ → Prop} {requests : List ρ} {start : σ}
    (one : AllMeet handle meets start requests) (other : AllMeet handle also start requests) :
    AllMeet handle (fun state request => meets state request ∧ also state request) start requests := by
  induction requests generalizing start with
  | nil => trivial
  | cons request rest ih => exact ⟨⟨one.1, other.1⟩, ih one.2 other.2⟩

theorem reaches_guarded {handle : σ → ρ → σ} {meets : σ → ρ → Prop} {requests : List ρ} {start : σ}
    (met : AllMeet handle meets start requests) :
    Reaches (guarded handle meets) start (requests.foldl handle start) := by
  induction requests generalizing start with
  | nil => exact Relation.ReflTransGen.refl
  | cons request rest ih => exact Relation.ReflTransGen.head ⟨request, met.1, rfl⟩ (ih met.2)

def EachStep (handle : σ → ρ → σ) (holds : σ → ρ → σ → Prop) : σ → List ρ → Prop
  | _, [] => True
  | state, request :: rest =>
    holds state request (handle state request) ∧ EachStep handle holds (handle state request) rest

theorem AllMeet.eachStep_of_kept {handle : σ → ρ → σ} {meets : σ → ρ → Prop} {holds : σ → ρ → σ → Prop}
    (invariant : σ → Prop) (kept : ∀ state request, invariant state → meets state request → invariant (handle state request))
    (step : ∀ state request, invariant state → meets state request → holds state request (handle state request))
    {requests : List ρ} {start : σ} (initial : invariant start) (met : AllMeet handle meets start requests) :
    EachStep handle holds start requests := by
  induction requests generalizing start with
  | nil => trivial
  | cons request rest ih => exact ⟨step start request initial met.1, ih (kept start request initial met.1) met.2⟩

theorem AllMeet.eachStep_of_invariant {handle : σ → ρ → σ} {meets : σ → ρ → Prop} {holds : σ → ρ → σ → Prop}
    (invariant : σ → Prop) (kept : ∀ state request, invariant state → invariant (handle state request))
    (step : ∀ state request, invariant state → meets state request → holds state request (handle state request))
    {requests : List ρ} {start : σ} (initial : invariant start) (met : AllMeet handle meets start requests) :
    EachStep handle holds start requests :=
  met.eachStep_of_kept invariant (fun state request holds _ => kept state request holds) step initial

theorem AllMeet.eachStep {handle : σ → ρ → σ} {meets : σ → ρ → Prop} {holds : σ → ρ → σ → Prop}
    (step : ∀ state request, meets state request → holds state request (handle state request))
    {requests : List ρ} {start : σ} (met : AllMeet handle meets start requests) :
    EachStep handle holds start requests :=
  met.eachStep_of_invariant (fun _ => True) (fun _ _ _ => trivial) (fun state request _ => step state request) trivial

def Along (handle : σ → ρ → σ) (holds : σ → Prop) : σ → List ρ → Prop
  | state, [] => holds state
  | state, request :: rest => holds state ∧ Along handle holds (handle state request) rest

instance Along.decidable {handle : σ → ρ → σ} {holds : σ → Prop} [∀ state, Decidable (holds state)] (start : σ)
    (requests : List ρ) : Decidable (Along handle holds start requests) :=
  match requests with
  | [] => inferInstanceAs (Decidable (holds start))
  | request :: rest => @instDecidableAnd _ _ _ (Along.decidable (handle start request) rest)

theorem Along.initial {handle : σ → ρ → σ} {holds : σ → Prop} {start : σ} {requests : List ρ}
    (along : Along handle holds start requests) : holds start := by
  cases requests with
  | nil => exact along
  | cons request rest => exact along.1

theorem Along.final {handle : σ → ρ → σ} {holds : σ → Prop} {start : σ} {requests : List ρ}
    (along : Along handle holds start requests) : holds (requests.foldl handle start) := by
  induction requests generalizing start with
  | nil => exact along
  | cons request rest ih => exact ih along.2

theorem Along.imp {handle : σ → ρ → σ} {holds weaker : σ → Prop} {start : σ} {requests : List ρ}
    (along : Along handle holds start requests) (implied : ∀ state, holds state → weaker state) :
    Along handle weaker start requests := by
  induction requests generalizing start with
  | nil => exact implied start along
  | cons request rest ih => exact ⟨implied start along.1, ih along.2⟩

theorem Along.and {handle : σ → ρ → σ} {holds also : σ → Prop} {start : σ} {requests : List ρ}
    (one : Along handle holds start requests) (other : Along handle also start requests) :
    Along handle (fun state => holds state ∧ also state) start requests := by
  induction requests generalizing start with
  | nil => exact ⟨one, other⟩
  | cons request rest ih => exact ⟨⟨one.1, other.1⟩, ih one.2 other.2⟩

theorem Along.congr {handle : σ → ρ → σ} {context holds other : σ → Prop} {start : σ} {requests : List ρ}
    (along : Along handle context start requests) (equal : ∀ state, context state → (holds state ↔ other state)) :
    Along handle holds start requests ↔ Along handle other start requests := by
  induction requests generalizing start with
  | nil => exact equal start along
  | cons request rest ih => exact and_congr (equal start along.1) (ih along.2)

theorem AllMeet.along {handle : σ → ρ → σ} {meets : σ → ρ → Prop} {holds : σ → Prop} {start : σ} {requests : List ρ}
    (met : AllMeet handle meets start requests) (first : holds start)
    (kept : ∀ state request, holds state → meets state request → holds (handle state request)) :
    Along handle holds start requests := by
  induction requests generalizing start with
  | nil => exact first
  | cons request rest ih => exact ⟨first, ih met.2 (kept start request first met.1)⟩

/-- A property that a step keeps exactly when its condition is met holds along
    a run exactly when every step of the run meets the condition. -/
theorem along_iff_allMeet {handle : σ → ρ → σ} {meets : σ → ρ → Prop} {holds : σ → Prop} (invariant : σ → Prop)
    (kept : ∀ state request, invariant state → holds state → invariant (handle state request))
    (exact : ∀ state request, invariant state → holds state → (holds (handle state request) ↔ meets state request))
    {requests : List ρ} {start : σ} (initial : invariant start) (first : holds start) :
    Along handle holds start requests ↔ AllMeet handle meets start requests := by
  induction requests generalizing start with
  | nil => exact iff_of_true first trivial
  | cons request rest ih =>
    have next := ih (kept start request initial first)
    constructor
    · rintro ⟨_, along⟩
      exact ⟨(exact start request initial first).mp along.initial, (next along.initial).mp along⟩
    · rintro ⟨met, rest⟩
      have holds := (exact start request initial first).mpr met
      exact ⟨first, (next holds).mpr rest⟩

def logged (handle : σ → ρ → σ) (run : σ × List ρ) (request : ρ) : σ × List ρ :=
  (handle run.1 request, run.2 ++ [request])

theorem allMeet_logged {handle : σ → ρ → σ} {meets : σ → ρ → Prop} {requests past : List ρ} {start : σ} :
    AllMeet (logged handle) (fun run => meets run.1) (start, past) requests ↔ AllMeet handle meets start requests := by
  induction requests generalizing start past with
  | nil => exact Iff.rfl
  | cons request rest ih => exact and_congr Iff.rfl ih

theorem reaches_foldl (handle : σ → ρ → σ) (requests : List ρ) (start : σ) :
    Reaches (steps handle) start (requests.foldl handle start) := by
  induction requests generalizing start with
  | nil => exact Relation.ReflTransGen.refl
  | cons request rest ih => exact Relation.ReflTransGen.head ⟨request, trivial, rfl⟩ (ih _)

theorem reaches_foldlM {step : σ → ρ → Option σ} {labels : List ρ} {start state : σ}
    (ran : labels.foldlM step start = some state) :
    Reaches (fun before label after => step before label = some after) start state := by
  induction labels generalizing start with
  | nil =>
    cases ran
    exact Relation.ReflTransGen.refl
  | cons label rest ih =>
    rw [List.foldlM_cons] at ran
    obtain ⟨next, taken, ran⟩ := Option.bind_eq_some_iff.mp ran
    exact Relation.ReflTransGen.head ⟨label, taken⟩ (ih ran)

end Runs
