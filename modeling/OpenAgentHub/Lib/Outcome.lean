import Mathlib.Logic.Basic

namespace Outcome

variable {ε α β : Type}

def ensure (condition : Prop) [Decidable condition] (error : ε) : Except ε Unit :=
  if condition then .ok () else .error error

def refuse (fault : Option ε) : Except ε Unit :=
  match fault with
  | none => .ok ()
  | some error => .error error

def demand (found : Option α) (error : ε) : Except ε α :=
  match found with
  | some value => .ok value
  | none => .error error

@[simp] theorem ok_bind {value : α} {rest : α → Except ε β} : (Except.ok value >>= rest) = rest value := rfl

@[simp] theorem error_bind {raised : ε} {rest : α → Except ε β} :
    (Except.error raised >>= rest) = .error raised := rfl

@[simp] theorem demand_some {value : α} {error : ε} : demand (some value) error = .ok value := rfl

@[simp] theorem demand_none {error : ε} : demand (none : Option α) error = .error error := rfl

@[simp] theorem bind_eq_ok {first : Except ε α} {rest : α → Except ε β} {result : β} :
    (first >>= rest) = .ok result ↔ ∃ value, first = .ok value ∧ rest value = .ok result := by
  cases first with
  | error raised => simp [Bind.bind, Except.bind]
  | ok value => simp [Bind.bind, Except.bind]

@[simp] theorem pure_eq_ok {value result : α} :
    (pure value : Except ε α) = .ok result ↔ value = result := by
  simp [Pure.pure, Except.pure]

@[simp] theorem ensure_eq_ok {condition : Prop} [Decidable condition] {error : ε} {done : Unit} :
    ensure condition error = .ok done ↔ condition := by
  unfold ensure
  split <;> simp_all

@[simp] theorem refuse_eq_ok {fault : Option ε} {done : Unit} : refuse fault = .ok done ↔ fault = none := by
  cases fault <;> simp [refuse]

@[simp] theorem refuse_none : refuse (none : Option ε) = .ok () := rfl

theorem ensure_true {condition : Prop} [Decidable condition] {error : ε} (holds : condition) :
    ensure condition error = .ok () := if_pos holds

theorem ensure_false {condition : Prop} [Decidable condition] {error : ε} (fails : ¬ condition) :
    ensure condition error = .error error := if_neg fails

theorem bind_eq_error {first : Except ε α} {rest : α → Except ε β} {raised : ε} :
    (first >>= rest) = .error raised ↔
      first = .error raised ∨ ∃ value, first = .ok value ∧ rest value = .error raised := by
  cases first with
  | error other => simp [Bind.bind, Except.bind]
  | ok value => simp [Bind.bind, Except.bind]

theorem ensure_eq_error {condition : Prop} [Decidable condition] {error raised : ε} :
    ensure condition error = .error raised ↔ ¬ condition ∧ error = raised := by
  unfold ensure
  split <;> simp_all

theorem demand_eq_error {found : Option α} {error raised : ε} :
    demand found error = .error raised ↔ found = none ∧ error = raised := by
  cases found <;> simp [demand]

@[simp] theorem demand_eq_ok {found : Option α} {error : ε} {value : α} :
    demand found error = .ok value ↔ found = some value := by
  cases found <;> simp [demand]

def Clean (declared : ε → Prop) (outcome : Except ε α) : Prop := ∀ raised, outcome = .error raised → declared raised

section Clean

variable {declared : ε → Prop}

@[simp] theorem clean_ok {value : α} : Clean declared (Except.ok value) := fun _ none => nomatch none

@[simp] theorem clean_pure {value : α} : Clean declared (pure value : Except ε α) := clean_ok

@[simp] theorem clean_error {raised : ε} : Clean declared (Except.error raised : Except ε α) ↔ declared raised :=
  ⟨fun clean => clean raised rfl, fun known _ same => Except.error.inj same ▸ known⟩

theorem clean_bind {first : Except ε α} {rest : α → Except ε β} :
    Clean declared (first >>= rest) ↔ Clean declared first ∧ ∀ value, first = .ok value → Clean declared (rest value) := by
  cases first with
  | error raised => simp
  | ok value => simp

theorem clean_ensure {condition : Prop} [Decidable condition] {error : ε} :
    Clean declared (ensure condition error) ↔ (condition ∨ declared error) := by
  unfold ensure
  split
  · rename_i holds
    simp [holds]
  · rename_i fails
    simp [fails]

theorem clean_demand {found : Option α} {error : ε} : Clean declared (demand found error) ↔ (found.isSome ∨ declared error) := by
  cases found <;> simp

theorem clean_refuse {fault : Option ε} : Clean declared (refuse fault) ↔ ∀ raised ∈ fault, declared raised := by
  cases fault <;> simp [refuse]

end Clean

theorem map_fst_ok {outcome : Except ε (α × β)} {after : α} :
    outcome.map Prod.fst = .ok after ↔ ∃ result, outcome = .ok (after, result) := by
  cases outcome with
  | error raised => simp [Except.map]
  | ok pair => cases pair; simp [Except.map]

def each (check : α → Except ε Unit) : List α → Except ε Unit
  | [] => .ok ()
  | item :: rest => do
    check item
    each check rest

@[simp] theorem each_eq_ok {check : α → Except ε Unit} {items : List α} {done : Unit} :
    each check items = .ok done ↔ ∀ item ∈ items, check item = .ok () := by
  induction items with
  | nil => simp [each]
  | cons item rest ih =>
    have checked : (∃ value, check item = .ok value) ↔ check item = .ok () :=
      ⟨fun ⟨(), ok⟩ => ok, fun ok => ⟨(), ok⟩⟩
    simp [each, ih, checked]

theorem isOk_iff {outcome : Except ε α} : outcome.isOk = true ↔ ∃ value, outcome = .ok value := by
  cases outcome <;> simp [Except.isOk, Except.toBool]

theorem toOption_eq_some {ε α : Type} {outcome : Except ε α} {value : α} :
    outcome.toOption = some value ↔ outcome = .ok value := by
  cases outcome <;> simp [Except.toOption]

end Outcome
