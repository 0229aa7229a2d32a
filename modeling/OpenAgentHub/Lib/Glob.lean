import OpenAgentHub.Lib.Text
import Mathlib.Data.List.Infix

namespace Glob

def glob : List Char → List Char → Bool
  | [], text => text.isEmpty
  | '*' :: pattern, text => text.tails.any (glob pattern)
  | char :: pattern, next :: rest => next == char && glob pattern rest
  | _ :: _, [] => false

/-- An unanchored exclusion of `tar`: the pattern matches from the start of some component to the end of the same or of
    a later one, so that what lies below an excluded directory is excluded too. -/
def excludes (pattern member : String) : Bool :=
  (Text.split '/' member).tails.any fun rest =>
    rest.inits.any fun run => !run.isEmpty && glob pattern.toList (Text.join "/" run).toList

variable {pattern text : List Char}

theorem glob_literal (literal : '*' ∉ pattern) : glob pattern text = true ↔ text = pattern := by
  induction pattern generalizing text with
  | nil => simp [glob]
  | cons char pattern ih =>
    have plain : char ≠ '*' := fun isStar => literal (isStar ▸ List.mem_cons_self)
    have rest : ∀ text, glob pattern text = true ↔ text = pattern := fun text =>
      ih fun later => literal (List.mem_cons_of_mem _ later)
    cases text with
    | nil => simp [glob]
    | cons next text => simp [glob, rest]

theorem glob_star (literal : '*' ∉ pattern) : glob ('*' :: pattern) text = true ↔ pattern <:+ text := by
  unfold glob
  simp only [List.any_eq_true, List.mem_tails, glob_literal literal]
  constructor
  · rintro ⟨tail, isTail, rfl⟩
    exact isTail
  · intro isTail
    exact ⟨pattern, isTail, rfl⟩

theorem suffix_getLast {run : List String} (slashless : '/' ∉ text) (present : run ≠ [])
    (ends : text <:+ (Text.join "/" run).toList) : ∃ name ∈ run, text <:+ name.toList := by
  induction run with
  | nil => exact absurd rfl present
  | cons head rest ih =>
    cases rest with
    | nil => exact ⟨head, List.mem_singleton_self _, ends⟩
    | cons next rest =>
      have below : ('/' :: (Text.join "/" (next :: rest)).toList) <:+ (Text.join "/" (head :: next :: rest)).toList := by
        rw [Text.join_cons_cons]
        exact List.suffix_append ..
      have inside : text <:+ (Text.join "/" (next :: rest)).toList := by
        rcases List.suffix_or_suffix_of_suffix ends below with shorter | longer
        · rcases List.suffix_cons_iff.mp shorter with rfl | inner
          · exact absurd List.mem_cons_self slashless
          · exact inner
        · exact absurd (longer.subset List.mem_cons_self) slashless
      obtain ⟨name, isName, ends⟩ := ih (List.cons_ne_nil _ _) inside
      exact ⟨name, List.mem_cons_of_mem _ isName, ends⟩

theorem join_slashless {run : List String} (slashless : '/' ∉ (Text.join "/" run).toList) (present : run ≠ []) :
    run = [Text.join "/" run] := by
  cases run with
  | nil => exact absurd rfl present
  | cons head rest =>
    cases rest with
    | nil => rfl
    | cons next rest =>
      rw [Text.join_cons_cons] at slashless
      exact absurd (by simp) slashless

end Glob
