import OpenAgentHub.Lib.Outcome

/-- A program over a state. One that throws has changed the state all the same, and one may never end. -/
abbrev Program (σ ε α : Type) := ExceptT ε (StateT σ Option) α

namespace Program

variable {σ ε α β : Type}

def await (outcome : Option (Except ε α)) : Program σ ε α := fun state => outcome.map (·, state)

def liftExcept (outcome : Except ε α) : Program σ ε α := await (some outcome)

def read (part : σ → α) : Program σ ε α := fun state => some (.ok (part state), state)

def change (update : σ → σ) : Program σ ε Unit := fun state => some (.ok (), update state)

def Returns (program : Program σ ε α) (before : σ) (value : α) (after : σ) : Prop :=
  program before = some (.ok value, after)

variable {before after : σ} {value result : α}

theorem Returns.unique {program : Program σ ε α} {other : σ} (first : Returns program before value after)
    (second : Returns program before result other) : value = result ∧ after = other := by
  have same := first.symm.trans second
  simpa using same

theorem bind_apply {first : Program σ ε α} {rest : α → Program σ ε β} :
    (first >>= rest) before =
      (first before).bind fun outcome =>
        match outcome.1 with
        | .ok value => rest value outcome.2
        | .error raised => some (.error raised, outcome.2) := by
  change (StateT.bind first _ before) = _
  unfold StateT.bind
  refine congrArg (Option.bind (first before)) (funext fun outcome => ?_)
  obtain ⟨outcome, state⟩ := outcome
  cases outcome <;> rfl

@[simp] theorem returns_bind {first : Program σ ε α} {rest : α → Program σ ε β} {result : β} :
    Returns (first >>= rest) before result after ↔
      ∃ value middle, Returns first before value middle ∧ Returns (rest value) middle result after := by
  unfold Returns
  rw [bind_apply]
  cases first before with
  | none => simp
  | some outcome =>
    obtain ⟨outcome, state⟩ := outcome
    cases outcome with
    | error raised => simp
    | ok value =>
      simp only [Option.bind_some, Option.some.injEq, Prod.mk.injEq, Except.ok.injEq]
      constructor
      · exact fun continued => ⟨value, state, ⟨rfl, rfl⟩, continued⟩
      · rintro ⟨_, _, ⟨rfl, rfl⟩, continued⟩
        exact continued

@[simp] theorem returns_pure : Returns (pure value : Program σ ε α) before result after ↔ value = result ∧ before = after := by
  change some ((.ok value : Except ε α), before) = some (.ok result, after) ↔ _
  simp

@[simp] theorem returns_await {outcome : Option (Except ε α)} :
    Returns (await outcome) before result after ↔ outcome = some (.ok result) ∧ before = after := by
  cases outcome <;> simp [Returns, await]

@[simp] theorem returns_liftExcept {outcome : Except ε α} :
    Returns (liftExcept outcome) before result after ↔ outcome = .ok result ∧ before = after := by
  simp [liftExcept]

@[simp] theorem returns_read {part : σ → α} :
    Returns (read part : Program σ ε α) before result after ↔ part before = result ∧ before = after := by
  simp [Returns, read]

@[simp] theorem returns_change {update : σ → σ} {done : Unit} :
    Returns (change update : Program σ ε Unit) before done after ↔ update before = after := by
  simp [Returns, change]

theorem Returns.bind_eq {first : Program σ ε α} {rest : α → Program σ ε β} (returned : Returns first before value after) :
    (first >>= rest) before = rest value after := by
  rw [bind_apply, returned]
  rfl

theorem forM_change (update : β → σ → σ) (items : List β) (before : σ) :
    (items.forM fun item => (change (update item) : Program σ ε Unit)) before =
      some (.ok (), items.foldl (fun state item => update item state) before) := by
  induction items generalizing before with
  | nil => rfl
  | cons item rest ih =>
    have first : Returns (change (update item) : Program σ ε Unit) before () (update item before) := returns_change.mpr rfl
    exact first.bind_eq.trans (ih _)

theorem forM_check (check : β → σ → Except ε Unit) (items : List β) (before : σ) :
    (items.forM fun item => (read (check item) : Program σ ε (Except ε Unit)) >>= liftExcept) before =
      some (Outcome.each (fun item => check item before) items, before) := by
  induction items with
  | nil => rfl
  | cons item rest ih =>
    have looked : Returns (read (check item) : Program σ ε (Except ε Unit)) before (check item before) before :=
      returns_read.mpr ⟨rfl, rfl⟩
    change ((read (check item) >>= liftExcept) >>= fun _ => rest.forM _) before = _
    rw [bind_apply, looked.bind_eq]
    cases checked : check item before with
    | error raised => simp [Outcome.each, checked, liftExcept, await]
    | ok done =>
      simp only [Outcome.each, checked, Outcome.ok_bind]
      exact ih

def Raises (program : Program σ ε α) (before : σ) (raised : ε) (after : σ) : Prop :=
  program before = some (.error raised, after)

section Raises

variable {raised : ε}

theorem raises_bind {first : Program σ ε α} {rest : α → Program σ ε β} :
    Raises (first >>= rest) before raised after ↔
      Raises first before raised after ∨
        ∃ value middle, Returns first before value middle ∧ Raises (rest value) middle raised after := by
  unfold Raises Returns
  rw [bind_apply]
  cases first before with
  | none => simp
  | some outcome =>
    obtain ⟨outcome, state⟩ := outcome
    cases outcome with
    | error other => simp
    | ok value =>
      simp only [Option.bind_some, Option.some.injEq, Prod.mk.injEq, reduceCtorEq, false_and, false_or, Except.ok.injEq]
      constructor
      · exact fun continued => ⟨value, state, ⟨rfl, rfl⟩, continued⟩
      · rintro ⟨_, _, ⟨rfl, rfl⟩, continued⟩
        exact continued

@[simp] theorem not_raises_pure : ¬ Raises (pure value : Program σ ε α) before raised after := by
  intro raises
  have same : some ((.ok value : Except ε α), before) = some (.error raised, after) := raises
  cases same

@[simp] theorem not_raises_read {part : σ → α} : ¬ Raises (read part : Program σ ε α) before raised after := by
  simp [Raises, read]

@[simp] theorem not_raises_change {update : σ → σ} : ¬ Raises (change update : Program σ ε Unit) before raised after := by
  simp [Raises, change]

@[simp] theorem raises_await {outcome : Option (Except ε α)} :
    Raises (await outcome) before raised after ↔ outcome = some (.error raised) ∧ before = after := by
  cases outcome <;> simp [Raises, await]

@[simp] theorem raises_liftExcept {outcome : Except ε α} :
    Raises (liftExcept outcome) before raised after ↔ outcome = .error raised ∧ before = after := by
  simp [liftExcept]

def Throws (program : Program σ ε α) (before : σ) : Prop := ∃ raised after, Raises program before raised after

theorem throws_bind {first : Program σ ε α} {rest : α → Program σ ε β} :
    Throws (first >>= rest) before ↔
      Throws first before ∨ ∃ value middle, Returns first before value middle ∧ Throws (rest value) middle := by
  simp only [Throws, raises_bind]
  constructor
  · rintro ⟨raised, after, raises | ⟨value, middle, returned, raises⟩⟩
    · exact .inl ⟨raised, after, raises⟩
    · exact .inr ⟨value, middle, returned, raised, after, raises⟩
  · rintro (⟨raised, after, raises⟩ | ⟨value, middle, returned, raised, after, raises⟩)
    · exact ⟨raised, after, .inl raises⟩
    · exact ⟨raised, after, .inr ⟨value, middle, returned, raises⟩⟩

@[simp] theorem not_throws_pure : ¬ Throws (pure value : Program σ ε α) before := by simp [Throws]

@[simp] theorem not_throws_read {part : σ → α} : ¬ Throws (read part : Program σ ε α) before := by simp [Throws]

@[simp] theorem not_throws_change {update : σ → σ} : ¬ Throws (change update : Program σ ε Unit) before := by simp [Throws]

@[simp] theorem throws_await {outcome : Option (Except ε α)} :
    Throws (await outcome) before ↔ ∃ raised, outcome = some (.error raised) := by
  simp [Throws]

@[simp] theorem throws_liftExcept {outcome : Except ε α} :
    Throws (liftExcept outcome) before ↔ ∃ raised, outcome = .error raised := by
  simp [Throws]

theorem Returns.throws_bind {first : Program σ ε α} {rest : α → Program σ ε β} (returned : Returns first before value after) :
    Throws (first >>= rest) before ↔ Throws (rest value) after := by
  simp only [Throws, Raises, returned.bind_eq]

end Raises

def final (program : Program σ ε α) (before : σ) : σ := ((program before).map Prod.snd).getD before

def Ends (program : Program σ ε α) (before after : σ) : Prop := ∃ outcome, program before = some (outcome, after)

section Ends

theorem Ends.final {program : Program σ ε α} (ends : Ends program before after) : program.final before = after := by
  obtain ⟨outcome, ran⟩ := ends
  unfold Program.final
  rw [ran]
  rfl

theorem ends_pure : Ends (pure value : Program σ ε α) before before := ⟨.ok value, rfl⟩

theorem Returns.ends_bind {first : Program σ ε α} {rest : α → Program σ ε β} {middle : σ}
    (returned : Returns first before value middle) (continues : Ends (rest value) middle after) :
    Ends (first >>= rest) before after := by
  obtain ⟨outcome, ran⟩ := continues
  exact ⟨outcome, returned.bind_eq.trans ran⟩

theorem ends_liftExcept_bind {given : Except ε α} {rest : α → Program σ ε β}
    (continues : ∀ value, given = .ok value → Ends (rest value) before after)
    (stops : ∀ raised, given = .error raised → before = after) : Ends (liftExcept given >>= rest) before after := by
  cases known : given with
  | error raised =>
    rw [stops raised known]
    exact ⟨.error raised, rfl⟩
  | ok value =>
    obtain ⟨outcome, ran⟩ := continues value known
    exact ⟨outcome, ran⟩

end Ends

def Leaves (holds : σ → Prop) (program : Program σ ε α) (before : σ) : Prop :=
  ∀ outcome after, program before = some (outcome, after) → holds after

section Leaves

variable {holds : σ → Prop}

theorem Leaves.final {program : Program σ ε α} (leaves : Leaves holds program before) (initial : holds before) :
    holds (program.final before) := by
  unfold Program.final
  cases ran : program before with
  | none => exact initial
  | some ending => exact leaves ending.1 ending.2 ran

theorem Returns.leaves {program : Program σ ε α} (returned : Returns program before value after) (ended : holds after) :
    Leaves holds program before := by
  intro outcome other ran
  rw [returned] at ran
  cases ran
  exact ended

theorem Leaves.bind {first : Program σ ε α} {rest : α → Program σ ε β} (start : Leaves holds first before)
    (next : ∀ value middle, Returns first before value middle → Leaves holds (rest value) middle) :
    Leaves holds (first >>= rest) before := by
  intro outcome after ran
  rw [bind_apply] at ran
  cases ended : first before with
  | none =>
    rw [ended] at ran
    cases ran
  | some ending =>
    obtain ⟨result, middle⟩ := ending
    rw [ended, Option.bind_some] at ran
    cases result with
    | error raised =>
      cases ran
      exact start _ _ ended
    | ok value => exact next value middle ended outcome after ran

theorem leaves_pure (initial : holds before) : Leaves holds (pure value : Program σ ε α) before :=
  Returns.leaves (returns_pure.mpr ⟨rfl, rfl⟩) initial

theorem leaves_read {part : σ → α} (initial : holds before) : Leaves holds (read part : Program σ ε α) before :=
  Returns.leaves (returns_read.mpr ⟨rfl, rfl⟩) initial

theorem leaves_change {update : σ → σ} (updated : holds (update before)) :
    Leaves holds (change update : Program σ ε Unit) before := by
  have returned : Returns (change update : Program σ ε Unit) before () (update before) := returns_change.mpr rfl
  exact returned.leaves updated

theorem leaves_liftExcept {outcome : Except ε α} (initial : holds before) : Leaves holds (liftExcept outcome) before := by
  intro result after ran
  have same : some (outcome, before) = some (result, after) := ran
  cases same
  exact initial

theorem leaves_await {outcome : Option (Except ε α)} (initial : holds before) : Leaves holds (await outcome) before := by
  intro result after ran
  obtain ⟨_, _, same⟩ := Option.map_eq_some_iff.mp ran
  cases same
  exact initial

theorem leaves_await_bind {outcome : Option (Except ε α)} {rest : α → Program σ ε β} (initial : holds before)
    (next : ∀ value, outcome = some (.ok value) → Leaves holds (rest value) before) :
    Leaves holds (await outcome >>= rest) before := by
  apply Leaves.bind (leaves_await initial)
  intro value middle returned
  obtain ⟨known, rfl⟩ := returns_await.mp returned
  exact next value known

theorem Leaves.returned {program : Program σ ε α} (leaves : Leaves holds program before)
    (returned : Returns program before value after) : holds after := leaves _ _ returned

theorem leaves_liftExcept_bind {outcome : Except ε α} {rest : α → Program σ ε β} (initial : holds before)
    (next : ∀ value, outcome = .ok value → Leaves holds (rest value) before) :
    Leaves holds (liftExcept outcome >>= rest) before := by
  apply Leaves.bind (leaves_liftExcept initial)
  intro value middle returned
  obtain ⟨known, rfl⟩ := returns_liftExcept.mp returned
  exact next value known

theorem leaves_read_bind {part : σ → α} {rest : α → Program σ ε β} (initial : holds before)
    (next : Leaves holds (rest (part before)) before) : Leaves holds (read part >>= rest) before := by
  apply Leaves.bind (leaves_read initial)
  intro value middle returned
  obtain ⟨rfl, rfl⟩ := returns_read.mp returned
  exact next

theorem leaves_change_bind {update : σ → σ} {rest : Unit → Program σ ε β} (updated : holds (update before))
    (next : Leaves holds (rest ()) (update before)) : Leaves holds (change update >>= rest) before := by
  apply Leaves.bind (leaves_change updated)
  intro value middle returned
  obtain rfl := returns_change.mp returned
  exact next

end Leaves

end Program
