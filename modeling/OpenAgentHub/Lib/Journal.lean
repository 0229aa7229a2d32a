import Mathlib.Data.List.Basic

/-! Rows whose state is the replay of the journal entries about them. -/

namespace Journal

variable {ρ ε κ σ : Type}

structure Scheme (ρ ε κ σ : Type) where
  key : ρ → κ
  state : ρ → σ
  subject : ε → κ
  amend : σ → ε → σ
  start : σ

variable {scheme : Scheme ρ ε κ σ} {journal : List ε} {rows : List ρ} {entry : ε}

def replay (scheme : Scheme ρ ε κ σ) (entries : List ε) : σ := entries.foldl scheme.amend scheme.start

theorem replay_append (entries : List ε) :
    replay scheme (entries ++ [entry]) = scheme.amend (replay scheme entries) entry := by
  simp [replay]

variable [DecidableEq κ]

def about (scheme : Scheme ρ ε κ σ) (journal : List ε) (key : κ) : List ε := journal.filter (scheme.subject · = key)

def Explains (scheme : Scheme ρ ε κ σ) (journal : List ε) (rows : List ρ) : Prop :=
  ∀ row ∈ rows, scheme.state row = replay scheme (about scheme journal (scheme.key row))

theorem about_append_self :
    about scheme (journal ++ [entry]) (scheme.subject entry) = about scheme journal (scheme.subject entry) ++ [entry] := by
  simp [about]

theorem about_append_other {key : κ} (other : scheme.subject entry ≠ key) :
    about scheme (journal ++ [entry]) key = about scheme journal key := by
  simp [about, other]

theorem Explains.rewrite {update : ρ → ρ} (explains : Explains scheme journal rows)
    (keeps : ∀ row, scheme.key (update row) = scheme.key row ∧ scheme.state (update row) = scheme.state row) :
    Explains scheme journal (rows.map update) := by
  intro row stored
  obtain ⟨old, present, rfl⟩ := List.mem_map.mp stored
  rw [(keeps old).1, (keeps old).2]
  exact explains old present

theorem Explains.add {row : ρ} (explains : Explains scheme journal rows)
    (unmentioned : ∀ entry ∈ journal, scheme.subject entry ≠ scheme.key row) (starts : scheme.state row = scheme.start) : Explains scheme journal (rows ++ [row]) := by
  intro other stored
  rcases List.mem_append.mp stored with old | new
  · exact explains other old
  · rw [List.mem_singleton.mp new, starts]
    have nothing : about scheme journal (scheme.key row) = [] := by
      simpa [about] using unmentioned
    rw [nothing]
    rfl

theorem Explains.record {update : ρ → ρ} (explains : Explains scheme journal rows)
    (keeps : ∀ row ∈ rows, scheme.key (update row) = scheme.key row)
    (amends : ∀ row ∈ rows, scheme.key row = scheme.subject entry →
      scheme.state (update row) = scheme.amend (scheme.state row) entry)
    (spares : ∀ row ∈ rows, scheme.key row ≠ scheme.subject entry → scheme.state (update row) = scheme.state row) :
    Explains scheme (journal ++ [entry]) (rows.map update) := by
  intro row stored
  obtain ⟨old, present, rfl⟩ := List.mem_map.mp stored
  rw [keeps old present]
  by_cases own : scheme.key old = scheme.subject entry
  · rw [amends old present own, explains old present, own, about_append_self, replay_append]
  · rw [spares old present own, about_append_other fun same => own same.symm]
    exact explains old present

end Journal
