import Mathlib.Data.List.Basic
import Mathlib.Logic.Function.Basic

namespace Boards

variable {σ τ ε : Type}

/-- A store that clients read and write in separate steps. What a client has
    read and still has to act on is its ticket. -/
structure Board (σ τ ε : Type) where
  store : σ
  tickets : Nat → Option τ
  events : List ε

namespace Board

variable {board : Board σ τ ε} {client : Nat}

def start (store : σ) : Board σ τ ε := ⟨store, fun _ => none, []⟩

def hold (board : Board σ τ ε) (client : Nat) (ticket : Option τ) : Board σ τ ε :=
  { board with tickets := Function.update board.tickets client ticket }

def settle (board : Board σ τ ε) (client : Nat) : Option (σ × ε) → Board σ τ ε
  | none => board.hold client none
  | some (store, event) => { board.hold client none with store, events := board.events ++ [event] }

@[simp] theorem hold_store {ticket : Option τ} : (board.hold client ticket).store = board.store := rfl

@[simp] theorem hold_events {ticket : Option τ} : (board.hold client ticket).events = board.events := rfl

theorem hold_tickets {ticket : Option τ} {other : Nat} {held : τ} (holds : (board.hold client ticket).tickets other = some held) :
    ticket = some held ∨ board.tickets other = some held := by
  unfold hold at holds
  dsimp only at holds
  by_cases same : other = client
  · rw [same, Function.update_self] at holds
    exact .inl holds
  · rw [Function.update_of_ne same] at holds
    exact .inr holds

theorem settle_tickets {outcome : Option (σ × ε)} {other : Nat} {held : τ}
    (holds : (board.settle client outcome).tickets other = some held) : board.tickets other = some held := by
  have spent : (board.hold client none).tickets other = some held := by
    cases outcome with
    | none => exact holds
    | some done => exact holds
  rcases hold_tickets spent with missing | kept
  · cases missing
  · exact kept

end Board

def Preceded (first second : ε → Prop) (events : List ε) : Prop :=
  ∀ earlier event later, events = earlier ++ event :: later → second event → ∃ cause ∈ earlier, first cause

theorem preceded_nil {first second : ε → Prop} : Preceded first second [] := by
  intro earlier event later same
  simp at same

theorem preceded_concat {first second : ε → Prop} {events : List ε} {event : ε} (preceded : Preceded first second events) :
    Preceded first second (events ++ [event]) ↔ (second event → ∃ cause ∈ events, first cause) := by
  constructor
  · intro extended isSecond
    exact extended events event [] rfl isSecond
  · intro last earlier other later same isSecond
    rcases List.eq_nil_or_concat later with rfl | ⟨later, final, rfl⟩
    · obtain ⟨rfl, isEvent⟩ := List.append_inj' same rfl
      cases isEvent
      exact last isSecond
    · have regrouped : earlier ++ other :: (later ++ [final]) = (earlier ++ other :: later) ++ [final] := by simp
      rw [List.concat_eq_append, regrouped] at same
      exact preceded earlier other later (List.append_inj' same rfl).1 isSecond

end Boards
