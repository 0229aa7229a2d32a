import Mathlib.Data.List.Basic
import Mathlib.Data.List.TakeWhile

/-! What an insertion that ignores repetitions keeps of a sequence. -/

namespace Distinct

variable {α β : Type}

/-- `same old new` says that `new` repeats `old`. -/
def enter (same : α → α → Bool) (kept : List α) (item : α) : List α :=
  if kept.any (same · item) then kept else kept ++ [item]

def enterAll (same : α → α → Bool) (kept items : List α) : List α := items.foldl (enter same) kept

@[simp] theorem enterAll_nil {same : α → α → Bool} {kept : List α} : enterAll same kept [] = kept := rfl

@[simp] theorem enterAll_cons {same : α → α → Bool} {kept rest : List α} {item : α} :
    enterAll same kept (item :: rest) = enterAll same (enter same kept item) rest := rfl

theorem enterAll_append {same : α → α → Bool} {kept first second : List α} :
    enterAll same kept (first ++ second) = enterAll same (enterAll same kept first) second := by
  simp [enterAll, List.foldl_append]

theorem enter_sublist {same : α → α → Bool} {kept : List α} {item : α} :
    (enter same kept item).Sublist (kept ++ [item]) := by
  unfold enter
  split
  · exact List.sublist_append_left kept [item]
  · exact List.Sublist.refl _

theorem subset_enter {same : α → α → Bool} {kept : List α} {item : α} : kept ⊆ enter same kept item := by
  intro member present
  unfold enter
  split
  · exact present
  · exact List.mem_append_left [item] present

/-- Two relations that agree on every pair of the sequence keep the same items. -/
theorem enterAll_congr {same other : α → α → Bool} {items : List α} : ∀ {kept : List α},
    (kept ++ items).Pairwise (fun old new => same old new = other old new) →
    enterAll same kept items = enterAll other kept items := by
  induction items with
  | nil => exact fun _ => rfl
  | cons item rest step =>
    intro kept agree
    have here : kept.any (same · item) = kept.any (other · item) := by
      rw [Bool.eq_iff_iff, List.any_eq_true, List.any_eq_true]
      have pairs := (List.pairwise_append.mp agree).2.2
      have equal : ∀ old ∈ kept, same old item = other old item := fun old present =>
        pairs old present item List.mem_cons_self
      apply exists_congr
      intro old
      apply and_congr_right
      intro present
      rw [equal old present]
    have entered : enter same kept item = enter other kept item := by simp only [enter, here]
    have shorter : (enter other kept item ++ rest).Sublist (kept ++ item :: rest) := by
      simpa using List.Sublist.append_right enter_sublist rest
    rw [enterAll_cons, enterAll_cons, entered]
    exact step (List.Pairwise.sublist shorter agree)

theorem subset_enterAll {same : α → α → Bool} {items : List α} : ∀ {kept : List α}, kept ⊆ enterAll same kept items := by
  induction items with
  | nil => exact fun {_} _ present => present
  | cons item rest step => exact fun {_} _ present => step (subset_enter present)

/-- Every item is there, or repeats one that is. -/
theorem enterAll_represents {same : α → α → Bool} (reflexive : ∀ item, same item item = true) {items : List α} :
    ∀ {kept : List α}, ∀ item ∈ items, ∃ old ∈ enterAll same kept items, same old item = true := by
  induction items with
  | nil => exact fun item member => absurd member List.not_mem_nil
  | cons first rest step =>
    intro kept item member
    rcases List.mem_cons.mp member with rfl | later
    · have stays : enter same kept item ⊆ enterAll same (enter same kept item) rest := subset_enterAll
      by_cases repeated : kept.any (same · item) = true
      · obtain ⟨old, present, equal⟩ := List.any_eq_true.mp repeated
        exact ⟨old, stays (subset_enter present), equal⟩
      · have added : item ∈ enter same kept item := by simp [enter, repeated]
        exact ⟨item, stays added, reflexive item⟩
    · exact step item later

/-- Items that repeat nothing are all added. -/
theorem enterAll_fresh {same : α → α → Bool} {items : List α} : ∀ {kept : List α},
    (∀ old ∈ kept, ∀ item ∈ items, same old item = false) → items.Pairwise (fun old item => same old item = false) →
    enterAll same kept items = kept ++ items := by
  induction items with
  | nil => exact fun _ _ => (List.append_nil _).symm
  | cons first rest step =>
    intro kept apart distinct
    obtain ⟨ahead, later⟩ := List.pairwise_cons.mp distinct
    have unseen : ¬ kept.any (same · first) = true := by
      intro seen
      obtain ⟨old, member, equal⟩ := List.any_eq_true.mp seen
      rw [apart old member first List.mem_cons_self] at equal
      cases equal
    have added : enter same kept first = kept ++ [first] := if_neg unseen
    have further : ∀ old ∈ kept ++ [first], ∀ item ∈ rest, same old item = false := by
      intro old member item present
      rcases List.mem_append.mp member with earlier | last
      · exact apart old earlier item (List.mem_cons_of_mem _ present)
      · rw [List.mem_singleton.mp last]
        exact ahead item present
    rw [enterAll_cons, added, step further later, List.append_assoc, List.singleton_append]

theorem mem_enterAll {same : α → α → Bool} {items : List α} {item : α} : ∀ {kept : List α},
    item ∈ enterAll same kept items → item ∈ kept ∨ item ∈ items := by
  induction items with
  | nil => exact fun {_} present => Or.inl present
  | cons first rest step =>
    intro kept present
    rcases step present with early | later
    · rcases List.mem_append.mp (enter_sublist.subset early) with old | new
      · exact Or.inl old
      · exact Or.inr (List.mem_cons.mpr (Or.inl (List.mem_singleton.mp new)))
    · exact Or.inr (List.mem_cons_of_mem first later)

theorem nodup_enterAll [BEq α] [LawfulBEq α] {items : List α} : ∀ {kept : List α}, kept.Nodup →
    (enterAll (· == ·) kept items).Nodup := by
  induction items with
  | nil => exact fun {_} distinct => distinct
  | cons item rest step =>
    intro kept distinct
    refine step ?_
    unfold enter
    split
    · exact distinct
    · rename_i unseen
      have absent : item ∉ kept := by simpa using unseen
      exact (List.perm_append_singleton item kept).nodup_iff.mpr (List.nodup_cons.mpr ⟨absent, distinct⟩)

theorem enterAll_eq_nil {same : α → α → Bool} {items : List α} : enterAll same [] items = [] ↔ items = [] := by
  constructor
  · intro empty
    cases items with
    | nil => rfl
    | cons first rest =>
      have kept : [first] ⊆ enterAll same [first] rest := subset_enterAll
      have stays : first ∈ enterAll same [] (first :: rest) := kept List.mem_cons_self
      rw [empty] at stays
      cases stays
  · rintro rfl
    rfl

/-- Kept items that no new item repeats stay in front, and do not matter. -/
theorem enterAll_apart {same : α → α → Bool} {items kept : List α} : ∀ {more : List α},
    (∀ old ∈ kept, ∀ item ∈ items, same old item = false) →
    enterAll same (kept ++ more) items = kept ++ enterAll same more items := by
  induction items with
  | nil => exact fun _ => rfl
  | cons first rest step =>
    intro more apart
    have unseen : kept.any (same · first) = false := by
      apply List.any_eq_false.mpr
      intro old present
      rw [apart old present first List.mem_cons_self]
      decide
    have entered : enter same (kept ++ more) first = kept ++ enter same more first := by
      unfold enter
      rw [List.any_append, unseen, Bool.false_or]
      split
      · rfl
      · exact List.append_assoc _ _ _
    rw [enterAll_cons, entered, enterAll_cons]
    exact step fun old present item member => apart old present item (List.mem_cons_of_mem first member)

section Parts

variable {κ : Type} {items one other : κ → List α}

/-- Items of different parts do not repeat each other. -/
theorem enterAll_flatMap {same : α → α → Bool} {parts : List κ}
    (apart : parts.Pairwise fun first second => ∀ old ∈ items first, ∀ item ∈ items second, same old item = false) :
    enterAll same [] (parts.flatMap items) = parts.flatMap fun part => enterAll same [] (items part) := by
  induction parts with
  | nil => rfl
  | cons first rest step =>
    obtain ⟨ahead, later⟩ := List.pairwise_cons.mp apart
    have separate : ∀ old ∈ enterAll same [] (items first), ∀ item ∈ rest.flatMap items, same old item = false := by
      intro old kept item member
      obtain ⟨second, listed, inside⟩ := List.mem_flatMap.mp member
      rcases mem_enterAll kept with absurd | present
      · cases absurd
      · exact ahead second listed old present item inside
    have joined := @enterAll_apart _ _ _ _ [] separate
    rw [List.append_nil] at joined
    rw [List.flatMap_cons, enterAll_append, joined, step later, List.flatMap_cons]

theorem filter_flatMap [DecidableEq κ] {parts : List κ} {key : α → κ} {part : κ}
    (keyed : ∀ part, ∀ item ∈ items part, key item = part) (distinct : parts.Nodup) :
    (parts.flatMap items).filter (fun item => key item = part) = if part ∈ parts then items part else [] := by
  induction parts with
  | nil => rfl
  | cons first rest step =>
    obtain ⟨fresh, later⟩ := List.nodup_cons.mp distinct
    rw [List.flatMap_cons, List.filter_append, step later]
    by_cases here : first = part
    · subst here
      have whole : (items first).filter (fun item => key item = first) = items first :=
        List.filter_eq_self.mpr fun item member => decide_eq_true (keyed first item member)
      rw [whole, if_neg fresh, if_pos List.mem_cons_self, List.append_nil]
    · have none : (items first).filter (fun item => key item = part) = [] := by
        apply List.filter_eq_nil_iff.mpr
        intro item member isPart
        exact here ((keyed first item member).symm.trans (of_decide_eq_true isPart))
      rw [none, List.nil_append]
      simp only [List.mem_cons, Ne.symm here, false_or]

theorem flatMap_eq_iff [DecidableEq κ] {parts : List κ} {key : α → κ} (distinct : parts.Nodup)
    (ofOne : ∀ part, ∀ item ∈ one part, key item = part) (ofOther : ∀ part, ∀ item ∈ other part, key item = part) :
    parts.flatMap one = parts.flatMap other ↔ ∀ part ∈ parts, one part = other part := by
  constructor
  · intro same part listed
    have left := @filter_flatMap _ _ one _ _ _ part ofOne distinct
    have right := @filter_flatMap _ _ other _ _ _ part ofOther distinct
    rw [if_pos listed] at left right
    rw [← left, ← right, same]
  · exact List.flatMap_congr

theorem takeWhile_congr {opens other : κ → Bool} : ∀ {parts : List κ}, (∀ part ∈ parts, opens part = other part) →
    parts.takeWhile opens = parts.takeWhile other := by
  intro parts
  induction parts with
  | nil => exact fun _ => rfl
  | cons first rest step =>
    intro same
    rw [List.takeWhile_cons, List.takeWhile_cons, same first List.mem_cons_self,
      step fun part listed => same part (List.mem_cons_of_mem _ listed)]

/-- A walk that stops early gives the whole only where nothing stands behind the stop. -/
theorem takeWhile_flatMap_eq_iff [DecidableEq κ] {parts : List κ} {key : α → κ} {opens : κ → Bool} (distinct : parts.Nodup)
    (ofOne : ∀ part, ∀ item ∈ one part, key item = part) (ofOther : ∀ part, ∀ item ∈ other part, key item = part)
    (stuck : ∀ part ∈ parts, opens part = false → other part ≠ []) :
    (parts.takeWhile opens).flatMap one = parts.flatMap other ↔ ∀ part ∈ parts, opens part = true ∧ one part = other part := by
  constructor
  · intro same
    have opened : ∀ part ∈ parts, opens part = true := by
      intro part listed
      by_contra closed
      have left := @filter_flatMap _ _ one _ _ _ part ofOne (distinct.sublist (List.takeWhile_sublist opens))
      have right := @filter_flatMap _ _ other _ _ _ part ofOther distinct
      rw [if_neg fun taken => closed (List.mem_takeWhile_imp taken)] at left
      rw [if_pos listed, ← same, left] at right
      exact stuck part listed (Bool.eq_false_iff.mpr closed) right.symm
    rw [List.takeWhile_eq_self_iff.mpr opened] at same
    exact fun part listed => ⟨opened part listed, (flatMap_eq_iff distinct ofOne ofOther).mp same part listed⟩
  · intro same
    rw [List.takeWhile_eq_self_iff.mpr fun part listed => (same part listed).1]
    exact List.flatMap_congr fun part listed => (same part listed).2

end Parts

theorem map_enterAll {same : β → β → Bool} {view : α → β} {items : List α} : ∀ {kept : List α},
    (enterAll (fun old new => same (view old) (view new)) kept items).map view =
      enterAll same (kept.map view) (items.map view) := by
  induction items with
  | nil => exact fun {_} => rfl
  | cons item rest step =>
    intro kept
    rw [enterAll_cons, step, List.map_cons, enterAll_cons]
    congr 1
    by_cases repeated : kept.any (fun old => same (view old) (view item)) = true
    · have viewed : (kept.map view).any (same · (view item)) = true := by rwa [List.any_map]
      simp only [enter, repeated, viewed, if_true]
    · have viewed : ¬ (kept.map view).any (same · (view item)) = true := by rwa [List.any_map]
      simp only [enter, repeated, viewed, Bool.false_eq_true, if_false, List.map_append, List.map_singleton]

/-- Leaving out what is known to repeat a kept item changes nothing. -/
theorem enterAll_filter {same : α → α → Bool} {known : α → Bool} {items : List α} : ∀ {kept : List α},
    (∀ item, known item = true → kept.any (same · item) = true) →
    enterAll same kept (items.filter (fun item => !known item)) = enterAll same kept items := by
  induction items with
  | nil => exact fun _ => rfl
  | cons item rest step =>
    intro kept covered
    cases found : known item with
    | true =>
      have unchanged : enter same kept item = kept := by simp only [enter, covered item found, if_true]
      rw [List.filter_cons_of_neg (by simp [found]), enterAll_cons, unchanged]
      exact step covered
    | false =>
      rw [List.filter_cons_of_pos (by simp [found]), enterAll_cons, enterAll_cons]
      apply step
      intro later repeated
      obtain ⟨old, present, equal⟩ := List.any_eq_true.mp (covered later repeated)
      exact List.any_eq_true.mpr ⟨old, subset_enter present, equal⟩

section Keys

variable {κ : Type} [DecidableEq κ] {key : α → κ} {finer : α → α → Bool}

def sameKey (key : α → κ) (old new : α) : Bool := decide (key old = key new)

variable (implies : ∀ {old new}, finer old new = true → key old = key new)

include implies

/-- What the finer relation keeps grows at least as fast as what the keys keep. -/
theorem length_enterAll_le {items : List α} : ∀ {kept more : List α},
    (∀ item ∈ more, ∃ old ∈ kept, key old = key item) →
    more.length + (enterAll (sameKey key) kept items).length ≤ kept.length + (enterAll finer more items).length := by
  induction items with
  | nil =>
    intro kept more _
    simp only [enterAll_nil]
    omega
  | cons item rest step =>
    intro kept more covered
    rw [enterAll_cons, enterAll_cons]
    by_cases repeated : kept.any (sameKey key · item) = true
    · obtain ⟨old, present, equal⟩ := List.any_eq_true.mp repeated
      have stays : enter (sameKey key) kept item = kept := by simp only [enter, repeated, if_true]
      have wider : ∀ entry ∈ enter finer more item, ∃ old ∈ kept, key old = key entry := by
        intro entry member
        rcases List.mem_append.mp (enter_sublist.subset member) with earlier | new
        · exact covered entry earlier
        · rw [List.mem_singleton.mp new]
          exact ⟨old, present, of_decide_eq_true equal⟩
      have longer : more.length ≤ (enter finer more item).length := by
        unfold enter
        split <;> simp
      have bound := step wider
      rw [stays]
      omega
    · have unseen : ¬ more.any (finer · item) = true := by
        intro seen
        obtain ⟨entry, member, equal⟩ := List.any_eq_true.mp seen
        obtain ⟨old, present, same⟩ := covered entry member
        exact repeated (List.any_eq_true.mpr ⟨old, present, decide_eq_true (same.trans (implies equal))⟩)
      have wider : ∀ entry ∈ more ++ [item], ∃ old ∈ kept ++ [item], key old = key entry := by
        intro entry member
        rcases List.mem_append.mp member with earlier | new
        · obtain ⟨old, present, same⟩ := covered entry earlier
          exact ⟨old, List.mem_append_left _ present, same⟩
        · exact ⟨entry, List.mem_append_right _ new, rfl⟩
      have bound := step wider
      have added : enter (sameKey key) kept item = kept ++ [item] := if_neg repeated
      have addedMore : enter finer more item = more ++ [item] := if_neg unseen
      rw [added, addedMore]
      simp only [List.length_append, List.length_singleton] at bound
      omega

variable (symmetric : ∀ {old new}, finer old new = true → finer new old = true)
  (transitive : ∀ {first second third}, finer first second = true → finer second third = true → finer first third = true)

include symmetric transitive

/-- Where the keys keep as many items as the finer relation, the two agree. -/
theorem pairwise_of_length {items : List α} : ∀ {before kept : List α},
    (∀ old ∈ before, ∃ entry ∈ kept, entry = old ∨ finer entry old = true) →
    (∀ first ∈ kept, ∀ second ∈ kept, key first = key second → first = second) →
    before.Pairwise (fun old new => sameKey key old new = finer old new) →
    (enterAll (sameKey key) kept items).length = (enterAll finer kept items).length →
    (before ++ items).Pairwise (fun old new => sameKey key old new = finer old new) := by
  induction items with
  | nil =>
    intro before kept _ _ agree _
    simpa using agree
  | cons item rest step =>
    intro before kept represented distinct agree equal
    have seenTogether : kept.any (sameKey key · item) = true → kept.any (finer · item) = true := by
      intro repeated
      by_contra unseen
      obtain ⟨old, present, same⟩ := List.any_eq_true.mp repeated
      have wider : ∀ entry ∈ kept ++ [item], ∃ old ∈ kept, key old = key entry := by
        intro entry member
        rcases List.mem_append.mp member with earlier | new
        · exact ⟨entry, earlier, rfl⟩
        · rw [List.mem_singleton.mp new]
          exact ⟨old, present, of_decide_eq_true same⟩
      have bound := @length_enterAll_le α κ _ key finer implies rest _ _ wider
      have stays : enter (sameKey key) kept item = kept := by simp only [enter, repeated, if_true]
      have added : enter finer kept item = kept ++ [item] := if_neg unseen
      rw [enterAll_cons, enterAll_cons, stays, added] at equal
      simp only [List.length_append, List.length_singleton] at bound
      omega
    have carried : ∀ old ∈ before, ∃ entry ∈ kept, key entry = key old ∧ (entry = old ∨ finer entry old = true) := by
      intro old past
      obtain ⟨entry, member, same⟩ := represented old past
      refine ⟨entry, member, ?_, same⟩
      rcases same with rfl | finely
      · rfl
      · exact implies finely
    have meets : ∀ old ∈ before, sameKey key old item = finer old item := by
      intro old past
      rw [Bool.eq_iff_iff]
      refine ⟨fun same => ?_, fun finely => decide_eq_true (implies finely)⟩
      obtain ⟨entry, member, keyed, reached⟩ := carried old past
      have repeated : kept.any (sameKey key · item) = true :=
        List.any_eq_true.mpr ⟨entry, member, decide_eq_true (keyed.trans (of_decide_eq_true same))⟩
      obtain ⟨other, present, finely⟩ := List.any_eq_true.mp (seenTogether repeated)
      have one : entry = other := distinct entry member other present
        (keyed.trans ((of_decide_eq_true same).trans (implies finely).symm))
      subst one
      rcases reached with rfl | back
      · exact finely
      · exact transitive (symmetric back) finely
    have longer : before ++ item :: rest = (before ++ [item]) ++ rest := by simp
    rw [longer]
    have extended : (before ++ [item]).Pairwise (fun old new => sameKey key old new = finer old new) := by
      rw [List.pairwise_append]
      refine ⟨agree, List.pairwise_singleton _ _, fun old past new last => ?_⟩
      rw [List.mem_singleton.mp last]
      exact meets old past
    by_cases repeated : kept.any (sameKey key · item) = true
    · have stays : enter (sameKey key) kept item = kept := by simp only [enter, repeated, if_true]
      have staysFine : enter finer kept item = kept := by simp only [enter, seenTogether repeated, if_true]
      rw [enterAll_cons, enterAll_cons, stays, staysFine] at equal
      refine step (fun old past => ?_) distinct extended equal
      rcases List.mem_append.mp past with earlier | last
      · exact represented old earlier
      · obtain ⟨entry, member, finely⟩ := List.any_eq_true.mp (seenTogether repeated)
        rw [List.mem_singleton.mp last]
        exact ⟨entry, member, Or.inr finely⟩
    · have unseen : ¬ kept.any (finer · item) = true := by
        intro seen
        obtain ⟨entry, member, finely⟩ := List.any_eq_true.mp seen
        exact repeated (List.any_eq_true.mpr ⟨entry, member, decide_eq_true (implies finely)⟩)
      have apart : ∀ old ∈ kept, key old ≠ key item := fun old present same =>
        repeated (List.any_eq_true.mpr ⟨old, present, decide_eq_true same⟩)
      have added : enter (sameKey key) kept item = kept ++ [item] := if_neg repeated
      have addedFine : enter finer kept item = kept ++ [item] := if_neg unseen
      rw [enterAll_cons, enterAll_cons, added, addedFine] at equal
      refine step (fun old past => ?_) (fun first one second two same => ?_) extended equal
      · rcases List.mem_append.mp past with earlier | last
        · obtain ⟨entry, member, reached⟩ := represented old earlier
          exact ⟨entry, List.mem_append_left _ member, reached⟩
        · exact ⟨old, List.mem_append_right _ last, Or.inl rfl⟩
      · rcases List.mem_append.mp one with oneKept | oneNew <;> rcases List.mem_append.mp two with twoKept | twoNew
        · exact distinct first oneKept second twoKept same
        · rw [List.mem_singleton.mp twoNew] at same
          exact absurd same (apart first oneKept)
        · rw [List.mem_singleton.mp oneNew] at same
          exact absurd same.symm (apart second twoKept)
        · rw [List.mem_singleton.mp oneNew, List.mem_singleton.mp twoNew]

end Keys

end Distinct
