import Mathlib.Data.List.DropRight
import Mathlib.Data.List.Nodup

/-!
# Numbering repeated elements

The streak of an element after a list is how often the list repeats it at its end. When each
element of a list is numbered by its streak after what comes before it, the numbers start over
whenever something else comes in between, so that an element and its number tell two places of
the list apart exactly when equal elements stand together. Elements may be told apart by a tag
instead, which may depend on what comes before.
-/

namespace Stardust.Core

variable {α β : Type*} [DecidableEq α]

/-- How often a list repeats an element at its end. -/
def streak (a : α) (l : List α) : Nat := (l.rtakeWhile (· = a)).length

@[simp] theorem streak_nil (a : α) : streak a [] = 0 := rfl

/-- The streak goes on or is broken. -/
theorem streak_concat (a b : α) (l : List α) :
    streak a (l ++ [b]) = if b = a then streak a l + 1 else 0 := by
  unfold streak
  rw [List.rtakeWhile_concat]
  by_cases h : b = a
  · simp [h]
  · simp [h]

private theorem streak_append_replicate (a : α) (l : List α) (k : Nat) :
    streak a (l ++ List.replicate k a) = streak a l + k := by
  induction k with
  | zero => simp
  | succ k ih =>
    rw [List.replicate_succ', ← List.append_assoc, streak_concat, if_pos rfl, ih, Nat.add_assoc]

/-- A streak is at most all occurrences. -/
theorem streak_le_count (a : α) (l : List α) : streak a l ≤ l.count a := by
  induction l using List.reverseRecOn with
  | nil => exact Nat.zero_le _
  | append_singleton l b ih =>
    rw [streak_concat, List.count_append]
    split
    · next h =>
      rw [h, List.count_singleton_self]
      omega
    · exact Nat.zero_le _

/-- A list without the streak at its end has none there. -/
theorem exists_append_streak (a : α) (l : List α) :
    ∃ l', l = l' ++ List.replicate (streak a l) a ∧ streak a l' = 0 := by
  induction l using List.reverseRecOn with
  | nil => exact ⟨[], rfl, rfl⟩
  | append_singleton l b ih =>
    rw [streak_concat]
    split
    · next h =>
      obtain ⟨l', hl, hzero⟩ := ih
      refine ⟨l', ?_, hzero⟩
      rw [List.replicate_succ', ← List.append_assoc, ← hl, h]
    · next h => exact ⟨l ++ [b], by simp, by rw [streak_concat, if_neg h]⟩

/-- A streak ends at the last element that is another one. -/
theorem streak_append_cons {a x : α} (before : List α) {between : List α}
    (h : ¬∀ e ∈ x :: between, e = a) :
    ∃ between', between = between' ++ List.replicate (streak a (before ++ x :: between)) a ∧
      streak a (before ++ x :: between') = 0 := by
  induction between using List.reverseRecOn with
  | nil =>
    have hx : x ≠ a := by simpa using h
    have hzero : streak a (before ++ [x]) = 0 := by rw [streak_concat, if_neg hx]
    exact ⟨[], by rw [hzero]; rfl, hzero⟩
  | append_singleton between b ih =>
    have hassoc : before ++ x :: (between ++ [b]) = before ++ x :: between ++ [b] := by simp
    rw [hassoc, streak_concat]
    split
    · next hb =>
      subst hb
      obtain ⟨between', hbetween, hzero⟩ := ih (by simpa using h)
      refine ⟨between', ?_, hzero⟩
      rw [List.replicate_succ', ← List.append_assoc, ← hbetween]
    · next hb =>
      refine ⟨between ++ [b], by simp, ?_⟩
      rw [hassoc, streak_concat, if_neg hb]

omit [DecidableEq α] in
private theorem replicate_append_cons (k : Nat) (a : α) (l : List α) :
    List.replicate k a ++ a :: l = a :: (List.replicate k a ++ l) := by
  rw [List.append_cons, ← List.replicate_succ', List.replicate_succ, List.cons_append]

variable {tag : List α → α → β}

section Places

variable (p : α → Prop) [DecidablePred p]

/-- The elements of a list that matter, each with everything before it. -/
def places (before : List α) : List α → List (List α × α)
  | [] => []
  | a :: l => if p a then (before, a) :: places (before ++ [a]) l else places (before ++ [a]) l

variable {p}

omit [DecidableEq α] in
/-- A place is an occurrence with what is before it. -/
theorem mem_places {before l : List α} {q : List α × α} :
    q ∈ places p before l ↔ p q.2 ∧ ∃ l₁ l₂, l = l₁ ++ q.2 :: l₂ ∧ q.1 = before ++ l₁ := by
  induction l generalizing before with
  | nil => simp [places]
  | cons a l ih =>
    have hlater : q ∈ places p (before ++ [a]) l ↔
        p q.2 ∧ ∃ l₁ l₂, l = l₁ ++ q.2 :: l₂ ∧ q.1 = before ++ a :: l₁ := by
      have hih := @ih (before ++ [a])
      simpa using hih
    have hhere : q ∈ places p before (a :: l) ↔
        p a ∧ q = (before, a) ∨ q ∈ places p (before ++ [a]) l := by
      rw [places]
      split <;> simp_all
    rw [hhere, hlater]
    constructor
    · rintro (⟨ha, rfl⟩ | ⟨hp, l₁, l₂, rfl, hq⟩)
      · exact ⟨ha, [], l, rfl, (List.append_nil _).symm⟩
      · exact ⟨hp, a :: l₁, l₂, rfl, hq⟩
    · rintro ⟨hp, l₁, l₂, hl, hq⟩
      cases l₁ with
      | nil =>
        obtain ⟨rfl, -⟩ := List.cons.inj hl
        exact .inl ⟨hp, Prod.ext (by simpa using hq) rfl⟩
      | cons b l₁ =>
        obtain ⟨rfl, htail⟩ := List.cons.inj hl
        exact .inr ⟨hp, l₁, l₂, htail, hq⟩

omit [DecidableEq α] in
/-- What holds between any two places of a list. -/
theorem pairwise_places {R : List α × α → List α × α → Prop} {before l : List α} :
    (places p before l).Pairwise R ↔ ∀ l₁ x l₂ y l₃, l = l₁ ++ x :: (l₂ ++ y :: l₃) → p x → p y →
      R (before ++ l₁, x) (before ++ (l₁ ++ x :: l₂), y) := by
  induction l generalizing before with
  | nil => simp [places]
  | cons a l ih =>
    have hlater := @ih (before ++ [a])
    simp only [List.append_assoc, List.singleton_append] at hlater
    have hhere : (places p before (a :: l)).Pairwise R ↔
        (p a → ∀ q ∈ places p (before ++ [a]) l, R (before, a) q) ∧
          (places p (before ++ [a]) l).Pairwise R := by
      rw [places]
      split <;> simp_all
    rw [hhere, hlater]
    constructor
    · rintro ⟨hfirst, hrest⟩ l₁ x l₂ y l₃ hl hx hy
      cases l₁ with
      | nil =>
        obtain ⟨rfl, htail⟩ := List.cons.inj hl
        have hmem : (before ++ a :: l₂, y) ∈ places p (before ++ [a]) l :=
          mem_places.mpr ⟨hy, l₂, l₃, htail, by simp⟩
        simpa using hfirst hx _ hmem
      | cons b l₁ =>
        obtain ⟨rfl, htail⟩ := List.cons.inj hl
        exact hrest l₁ x l₂ y l₃ htail hx hy
    · intro h
      refine ⟨fun ha ⟨_, y⟩ hq => ?_, fun l₁ x l₂ y l₃ hl hx hy => ?_⟩
      · obtain ⟨hy, l₂, l₃, rfl, rfl⟩ := mem_places.mp hq
        simpa using h [] a l₂ y l₃ rfl ha hy
      · exact h (a :: l₁) x l₂ y l₃ (by rw [hl]; rfl) hx hy

/-- Places with the same tag stand together in a list: from one to another there is nothing but
the same element. -/
def Together (p : α → Prop) (tag : List α → α → β) (l : List α) : Prop :=
  ∀ l₁ x l₂ y l₃, l = l₁ ++ x :: (l₂ ++ y :: l₃) → p x → p y →
    tag l₁ x = tag (l₁ ++ x :: l₂) y → ∀ e ∈ l₂ ++ [y], e = x

omit [DecidablePred p] in
/-- The streaks of places that stand together differ. -/
theorem Together.ne {l : List α} (h : Together p tag l) {l₁ l₂ l₃ : List α} {x y : α}
    (hl : l = l₁ ++ x :: (l₂ ++ y :: l₃)) (hx : p x) (hy : p y) :
    (tag l₁ x, streak x l₁) ≠ (tag (l₁ ++ x :: l₂) y, streak y (l₁ ++ x :: l₂)) := by
  intro heq
  rw [Prod.mk.injEq] at heq
  have hall := h l₁ x l₂ y l₃ hl hx hy heq.1
  have hy : y = x := hall y (by simp)
  have hl₂ : x :: l₂ = List.replicate (l₂.length + 1) x := by
    rw [List.replicate_succ, ← List.eq_replicate_of_mem fun e he => hall e (by simp [he])]
  have hlonger := heq.2
  rw [hy, hl₂, streak_append_replicate] at hlonger
  omega

omit [DecidableEq α] in
/-- A tag that does not see its own element behind it does not see a run of it. -/
theorem tag_append_replicate (htag : ∀ l a, tag (l ++ [a]) a = tag l a) (l : List α) (a : α)
    (k : Nat) : tag (l ++ List.replicate k a) a = tag l a := by
  induction k with
  | zero => simp
  | succ k ih => rw [List.replicate_succ', ← List.append_assoc, htag, ih]

/-- The tag and the streak of the places of a list differ from place to place exactly when places
with the same tag stand together. -/
theorem nodup_places_iff (htag : ∀ l a, tag (l ++ [a]) a = tag l a) {l : List α} :
    ((places p [] l).map fun q => (tag q.1 q.2, streak q.2 q.1)).Nodup ↔ Together p tag l := by
  rw [List.Nodup, List.pairwise_map, pairwise_places]
  simp only [List.nil_append]
  constructor
  · intro hne l₁ x l₂ y l₃ hl hx hy hsame
    by_contra hall
    obtain ⟨l₁', hl₁, hzero₁⟩ := exists_append_streak x l₁
    have hbroken : ¬∀ e ∈ x :: l₂, e = y := by
      intro hconst
      have hxy : x = y := hconst x (by simp)
      refine hall fun e he => ?_
      rcases List.mem_append.mp he with he | he
      · rw [hxy]
        exact hconst e (by simp [he])
      · rw [List.mem_singleton.mp he, hxy]
    obtain ⟨l₂', hl₂, hzero₂⟩ := streak_append_cons l₁ hbroken
    generalize streak x l₁ = k at hl₁
    generalize streak y (l₁ ++ x :: l₂) = m at hl₂
    have hfirst : l₁ ++ x :: l₂' = l₁' ++ x :: (List.replicate k x ++ l₂') := by
      rw [hl₁, List.append_assoc, replicate_append_cons]
    have hlist : l = l₁' ++ x :: (List.replicate k x ++ l₂' ++ y :: (List.replicate m y ++ l₃)) :=
      calc
        l = l₁ ++ x :: l₂' ++ (List.replicate m y ++ y :: l₃) := by rw [hl, hl₂]; simp
        _ = _ := by rw [hfirst, replicate_append_cons]; simp
    have hdiffer := hne l₁' x (List.replicate k x ++ l₂') y (List.replicate m y ++ l₃) hlist hx hy
    rw [hzero₁, ← hfirst, hzero₂] at hdiffer
    apply hdiffer
    have hnow : tag (l₁ ++ x :: l₂) y = tag (l₁ ++ x :: l₂') y := by
      rw [hl₂, ← List.cons_append, ← List.append_assoc, tag_append_replicate htag]
    rw [← hnow, ← hsame, hl₁, tag_append_replicate htag]
  · intro h l₁ x l₂ y l₃ hl hx hy
    exact h.ne hl hx hy

end Places

end Stardust.Core
